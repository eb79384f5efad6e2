import Liteset.Reports.Execution
import Mathlib.Data.List.Basic

/-!
# A report execution ends in a settled state

What a run leaves committed, for every outcome of its steps, when every log row
can be written.
-/

set_option autoImplicit false

namespace Liteset.Reports

open Liteset.Lib

variable {V : Type} {env : Environment V}

/-- `state` is committed, and carried by the last row written since `logs`. -/
structure Recorded (logs : List (ReportExecutionLog V)) (state : ReportState) (t : World V) :
    Prop where
  held : t.schedule.lastState = some state
  committed : t.committed.lastState = some state
  logged : ∃ rows row, t.logs = logs ++ rows ++ [row] ∧ row.state = some state

def Terminal (state : ReportState) : Prop :=
  state = .success ∨ state = .noop ∨ state = .grace ∨ state = .error

def Settled (logs : List (ReportExecutionLog V)) (t : World V) : Prop :=
  ∃ state, Terminal state ∧ Recorded logs state t

def Since (logs : List (ReportExecutionLog V)) (t : World V) : Prop :=
  ∃ rows, t.logs = logs ++ rows

/-- Nothing a state is decided by has changed. -/
structure Kept (w t : World V) : Prop where
  state : t.schedule.lastState = w.schedule.lastState
  committed : t.committed.lastState = w.committed.lastState
  logs : t.logs = w.logs
  type : t.schedule.type = w.schedule.type

theorem Kept.refl (w : World V) : Kept w w := ⟨rfl, rfl, rfl, rfl⟩

variable {logs : List (ReportExecutionLog V)}

theorem Recorded.since {state : ReportState} {t : World V}
    (recorded : Recorded logs state t) : Since logs t := by
  obtain ⟨rows, row, grown, -⟩ := recorded.logged
  exact ⟨rows ++ [row], by rw [grown, List.append_assoc]⟩

theorem Recorded.kept {state : ReportState} {w t : World V}
    (recorded : Recorded logs state w) (kept : Kept w t) : Recorded logs state t :=
  ⟨kept.state.trans recorded.held, kept.committed.trans recorded.committed,
    by simpa [kept.logs] using recorded.logged⟩

theorem Since.kept {w t : World V} (since : Since logs w)
    (kept : Kept w t) : Since logs t := by
  obtain ⟨rows, grown⟩ := since
  exact ⟨rows, kept.logs.trans grown⟩

section Steps
variable {logs : List (ReportExecutionLog V)} {w : World V}

theorem ends_utcnow {ok : Int → World V → Prop} {err : Exception → World V → Prop}
    (holds : ok (env.clock w.readings) { w with readings := w.readings + 1 }) :
    Ends (utcnow env) w ok err :=
  ends_bind (ends_inspect (ends_bind (ends_change (ends_pure holds))))

theorem ends_updateReportSchedule (state : ReportState) :
    Ends (updateReportSchedule env state) w
      (fun _ t => t.schedule.lastState = some state ∧ t.schedule.type = w.schedule.type
        ∧ t.logs = w.logs)
      fun _ _ => False := by
  unfold updateReportSchedule
  by_cases working : state = .working
  · rw [if_pos working]
    exact ends_bind (ends_change (ends_bind (ends_change (ends_bind (ends_utcnow
      (ends_change ⟨rfl, rfl, rfl⟩))))))
  · rw [if_neg working]
    exact ends_bind (ends_change (ends_bind (ends_utcnow (ends_change ⟨rfl, rfl, rfl⟩))))

theorem ends_createLog (writable : ∀ n, env.logWrite n = none) (start : Int)
    (message : Option String) :
    Ends (createLog env start message) w
      (fun _ t => t.schedule = w.schedule ∧ t.committed = w.schedule
        ∧ ∃ row, t.logs = w.logs ++ [row] ∧ row.state = w.schedule.lastState)
      fun _ _ => False := by
  unfold createLog
  refine ends_bind (ends_utcnow (ends_bind (ends_inspect (ends_tryExcept ?_))))
  unfold commitLog
  refine ends_bind (ends_inspect (ends_bind (ends_change ?_)))
  simp only [writable]
  exact ends_change ⟨rfl, rfl, _, rfl, rfl⟩

theorem ends_updateReportScheduleAndLog (writable : ∀ n, env.logWrite n = none)
    (since : Since logs w) (start : Int) (state : ReportState) (message : Option String) :
    Ends (updateReportScheduleAndLog env start state message) w
      (fun _ t => Recorded logs state t ∧ t.schedule.type = w.schedule.type)
      fun _ _ => False := by
  obtain ⟨rows, grown⟩ := since
  unfold updateReportScheduleAndLog
  refine ends_bind ((ends_updateReportSchedule state).mono ?_ fun _ _ impossible => impossible)
  intro _ t updated
  obtain ⟨held, sameType, sameLogs⟩ := updated
  refine (ends_createLog writable start message).mono ?_ fun _ _ impossible => impossible
  intro _ u written
  obtain ⟨kept, stored, row, appended, carried⟩ := written
  refine ⟨⟨?_, ?_, rows, row, ?_, ?_⟩, ?_⟩
  · rw [kept, held]
  · rw [stored, held]
  · rw [appended, sameLogs, grown]
  · rw [carried, held]
  · rw [kept, sameType]

theorem ends_update_settled (writable : ∀ n, env.logWrite n = none) (since : Since logs w)
    (start : Int) {state : ReportState} (terminal : Terminal state) (message : Option String) :
    Ends (updateReportScheduleAndLog env start state message) w (fun _ t => Settled logs t)
      fun _ _ => False :=
  (ends_updateReportScheduleAndLog writable since start state message).mono
    (fun _ _ done => ⟨state, terminal, done.1⟩) fun _ _ impossible => impossible

theorem ends_outcome (raised : Option Exception) :
    Ends (outcome raised) w (fun _ t => raised = none ∧ t = w)
      fun e t => raised = some e ∧ t = w := by
  cases raised with
  | none => exact ends_pure ⟨rfl, rfl⟩
  | some ex => exact ends_raise ⟨rfl, rfl⟩

theorem ends_alertCommand :
    Ends (alertCommand env) w (fun triggered t => env.alert.result = .ok triggered ∧ Kept w t)
      fun e t => env.alert.result = .error e ∧ Kept w t := by
  unfold alertCommand
  refine ends_bind (ends_change ?_)
  cases env.alert.result with
  | ok triggered => exact ends_pure ⟨rfl, rfl, rfl, rfl, rfl⟩
  | error e => exact ends_raise ⟨rfl, rfl, rfl, rfl, rfl⟩

def graceOf (env : Environment V) (w : World V) (found : Option (ReportExecutionLog V)) : Bool :=
  match found with
  | none => false
  | some log => withinGrace w.schedule.gracePeriod (env.clock w.readings) log.endDttm

theorem ends_isWithinGraceOf (found : Option (ReportExecutionLog V)) :
    Ends (isWithinGraceOf env found) w (fun grace t => grace = graceOf env w found ∧ Kept w t)
      fun _ _ => False := by
  unfold isWithinGraceOf graceOf
  cases found with
  | none => exact ends_pure ⟨rfl, Kept.refl w⟩
  | some log =>
    refine ends_bind (ends_inspect ?_)
    split
    · rename_i off
      refine ends_pure ⟨?_, Kept.refl w⟩
      obtain missing | zero := off
      · simp [withinGrace, missing]
      · simp [withinGrace, zero]
    · exact ends_bind (ends_utcnow (ends_pure ⟨rfl, rfl, rfl, rfl, rfl⟩))

theorem ends_unlessUnexpected {m : Action V Unit} {handler : Exception → Action V Unit}
    {ok : Unit → World V → Prop} {err : Exception → World V → Prop}
    (ends : Ends m w ok fun _ _ => False) : Ends (unlessUnexpected m handler) w ok err := by
  unfold unlessUnexpected
  exact ends_tryExcept (ends.mono (fun _ _ holds => holds) fun _ _ impossible => impossible.elim)

section
variable (writable : ∀ n, env.logWrite n = none) (since : Since logs w) (start : Int)
include writable since start

theorem ends_successStateSend :
    Ends (successStateSend env start) w (fun _ t => Settled logs t) fun _ t => Settled logs t := by
  unfold successStateSend send
  refine ends_tryExcept (ends_bind ((ends_outcome env.send).mono ?_ ?_))
  · intro _ t sent
    rw [sent.2]
    exact (ends_update_settled writable since start (Or.inl rfl) none).mono
      (fun _ _ done => done) fun _ _ impossible => impossible.elim
  · intro ex t failed
    rw [failed.2]
    refine ends_bind (ends_unlessUnexpected
      ((ends_update_settled writable since start (by simp [Terminal]) (some ex.text)).mono ?_
        fun _ _ impossible => impossible))
    intro _ u done
    exact ends_raise done

/-- The owners' notification leaves the schedule settled, also when it raises: the
second row is written in `finally`. -/
theorem ends_notifyOwners :
    Ends (notifyOwners env start) w (fun _ t => Settled logs t) fun _ t => Settled logs t := by
  have finished : ∀ {ok : World V → Prop}, (∀ t, Settled logs t → ok t) →
      Ends (unlessUnexpected
        (updateReportScheduleAndLog env start .error (some (secondError env.sendError).1))
        fun _ => pure ()) w (fun _ t => ok t) fun _ t => Settled logs t := by
    intro ok settled
    exact ends_unlessUnexpected ((ends_update_settled writable since start (by simp [Terminal])
      (some (secondError env.sendError).1)).mono (fun _ t done => settled t done)
        fun _ _ impossible => impossible)
  unfold notifyOwners sendError
  refine ends_tryFinally (ends_tryExcept ((ends_outcome env.sendError).mono ?_ ?_))
  · intro _ t sent
    rw [sent.2]
    exact finished fun _ done => done
  · intro ex t failed
    rw [failed.2]
    refine (ends_outcome (secondError env.sendError).2).mono ?_ ?_
    · intro _ u left
      rw [left.2]
      exact finished fun _ done => done
    · intro _ u left
      rw [left.2]
      exact finished fun _ done => done

theorem ends_recordFirstError (firstEx : Exception) :
    Ends (recordFirstError env start firstEx) w (fun _ t => Settled logs t)
      fun _ t => Settled logs t := by
  unfold recordFirstError isInErrorGracePeriod
  refine ends_bind (ends_unlessUnexpected ((ends_updateReportScheduleAndLog writable since start
    .error (some (firstErrorMessage firstEx))).mono ?_ fun _ _ impossible => impossible))
  intro _ t recorded
  refine ends_bind (ends_bind (ends_inspect ((ends_isWithinGraceOf _).mono ?_
    fun _ _ impossible => impossible.elim)))
  intro grace u kept
  have still : Recorded logs .error u := recorded.1.kept kept.2
  cases grace with
  | true => exact ends_raise ⟨.error, by simp [Terminal], still⟩
  | false =>
    refine ends_bind ((ends_notifyOwners writable still.since start).mono ?_
      fun _ _ done => done)
    intro _ x done
    exact ends_raise done

theorem ends_notTriggeredErrorStateNext :
    Ends (notTriggeredErrorStateNext env start) w (fun _ t => Settled logs t)
      fun _ t => Settled logs t := by
  unfold notTriggeredErrorStateNext evaluateAndSend
  refine ends_bind ((ends_updateReportScheduleAndLog writable since start .working none).mono ?_
    fun _ _ impossible => impossible.elim)
  intro _ t entered
  have started : Since logs t := entered.1.since
  have evaluated : Ends (isTriggered env) t (fun _ u => Since logs u) fun _ u => Since logs u := by
    refine ends_bind (ends_inspect ?_)
    split
    · exact ends_alertCommand.mono (fun _ _ kept => started.kept kept.2)
        fun _ _ kept => started.kept kept.2
    · exact ends_pure started
  refine ends_tryExcept (ends_bind (evaluated.mono ?_
    fun ex u begun => ends_recordFirstError writable begun start ex))
  intro triggered u begun
  cases triggered with
  | true =>
    refine ends_bind ((ends_outcome env.send).mono ?_ ?_)
    · intro _ x sent
      rw [sent.2]
      exact (ends_update_settled writable begun start (Or.inl rfl) none).mono
        (fun _ _ done => done) fun _ _ impossible => impossible.elim
    · intro ex x failed
      rw [failed.2]
      exact ends_recordFirstError writable begun start ex
  | false =>
    exact (ends_update_settled writable begun start (by simp [Terminal]) none).mono
      (fun _ _ done => done) fun _ _ impossible => impossible.elim

end

/-- The evaluation of an alert from a successful state leaves the schedule at
WORKING exactly when it raises and the notification of its error raises too. -/
theorem ends_successStateEvaluate (writable : ∀ n, env.logWrite n = none)
    (recorded : Recorded logs .working w) (start : Int) :
    Ends (successStateEvaluate env start) w
      (fun goesOn t => (∃ triggered, env.alert.result = .ok triggered)
        ∧ if goesOn then Since logs t else Settled logs t)
      fun _ t => (∃ e, env.alert.result = .error e)
        ∧ (env.sendError = none → Settled logs t) ∧
        (env.sendError ≠ none → Recorded logs .working t) := by
  unfold successStateEvaluate sendError
  refine ends_tryExcept (ends_bind (ends_alertCommand.mono ?_ ?_))
  · intro triggered t evaluated
    have begun : Since logs t := recorded.since.kept evaluated.2
    cases triggered with
    | true => exact ends_pure ⟨⟨_, evaluated.1⟩, begun⟩
    | false =>
      refine ends_bind ((ends_update_settled writable begun start (by simp [Terminal]) none).mono
        ?_ fun _ _ impossible => impossible.elim)
      intro _ u done
      exact ends_pure ⟨⟨_, evaluated.1⟩, done⟩
  · intro ex t evaluated
    have begun : Since logs t := recorded.since.kept evaluated.2
    refine ends_bind ((ends_outcome env.sendError).mono ?_ ?_)
    · intro _ u sent
      rw [sent.2]
      refine ends_bind ((ends_update_settled writable begun start (by simp [Terminal])
        (some errorNotificationMarker)).mono ?_ fun _ _ impossible => impossible.elim)
      intro _ x done
      exact ends_raise ⟨⟨_, evaluated.1⟩, fun _ => done, fun raised => (raised sent.1).elim⟩
    · intro second u failed
      rw [failed.2]
      refine ⟨⟨_, evaluated.1⟩, fun sent => ?_, fun _ => recorded.kept evaluated.2⟩
      rw [sent] at failed
      cases failed.1

/-- The grace test of `ReportSuccessState.next`. -/
def inGrace (env : Environment V) (w : World V) : Bool := graceOf env w (findLastSuccessLog w)

def ErrorUnannounced (env : Environment V) (w : World V) : Prop :=
  w.schedule.type = .alert ∧ inGrace env w = false ∧ (∃ e, env.alert.result = .error e)
    ∧ env.sendError ≠ none

structure Decided (logs : List (ReportExecutionLog V)) (lost : Prop) (t : World V) : Prop where
  stuck : lost → Recorded logs .working t
  settled : ¬lost → Settled logs t

theorem Decided.of_settled {lost : Prop} {t : World V} (not : ¬lost) (settled : Settled logs t) :
    Decided logs lost t :=
  ⟨fun isLost => (not isLost).elim, fun _ => settled⟩

theorem ends_successStateNext (writable : ∀ n, env.logWrite n = none) (since : Since logs w)
    (start : Int) :
    Ends (successStateNext env start) w (fun _ t => Decided logs (ErrorUnannounced env w) t)
      fun _ t => Decided logs (ErrorUnannounced env w) t := by
  unfold successStateNext
  refine ends_bind (ends_inspect ?_)
  by_cases alert : w.schedule.type = .alert
  · rw [if_pos alert]
    refine ends_bind (ends_bind (ends_inspect ((ends_isWithinGraceOf _).mono ?_
      fun _ _ impossible => impossible.elim)))
    intro grace t tested
    have begun : Since logs t := since.kept tested.2
    cases grace with
    | true =>
      refine (ends_update_settled writable begun start
        (show Terminal .grace by simp [Terminal]) _).mono ?_ fun _ _ impossible => impossible.elim
      intro _ u done
      refine Decided.of_settled ?_ done
      intro lost
      have outside : graceOf env w (findLastSuccessLog w) = false := lost.2.1
      rw [← tested.1] at outside
      cases outside
    | false =>
      have outside : inGrace env w = false := tested.1.symm
      refine ends_bind ((ends_updateReportScheduleAndLog writable begun start .working
        none).mono ?_ fun _ _ impossible => impossible.elim)
      intro _ u entered
      refine ends_bind ((ends_successStateEvaluate writable entered.1 start).mono ?_ ?_)
      · intro goesOn x evaluated
        obtain ⟨⟨triggered, returned⟩, left⟩ := evaluated
        have announced : ¬ErrorUnannounced env w := by
          intro lost
          obtain ⟨e, raised⟩ := lost.2.2.1
          rw [returned] at raised
          cases raised
        cases goesOn with
        | true =>
          exact (ends_successStateSend writable left start).mono
            (fun _ _ done => Decided.of_settled announced done)
            fun _ _ done => Decided.of_settled announced done
        | false => exact ends_pure (Decided.of_settled announced left)
      · intro _ x failed
        obtain ⟨raised, told, untold⟩ := failed
        refine ⟨fun lost => untold lost.2.2.2, fun kept => told ?_⟩
        by_contra notTold
        exact kept ⟨alert, outside, raised, notTold⟩
  · rw [if_neg alert]
    have announced : ¬ErrorUnannounced env w := fun lost => alert lost.1
    exact (ends_successStateSend writable since start).mono
      (fun _ _ done => Decided.of_settled announced done)
      fun _ _ done => Decided.of_settled announced done

end Steps

/-- The state committed when the run ended is final, and the last log row the run
wrote carries it. -/
def EndsSettled (logs : List (ReportExecutionLog V)) (t : World V) : Prop :=
  ∃ state, Terminal state ∧ t.committed.lastState = some state
    ∧ ∃ rows row, t.logs = logs ++ rows ++ [row] ∧ row.state = some state

/-- The last state is one `ReportSuccessState` handles. -/
def LastSucceeded (row : ReportSchedule V) : Prop :=
  row.lastState = some .success ∨ row.lastState = some .grace

/-- The world when a state's `next` begins: the clock was read once. -/
def World.begun (row : ReportSchedule V) (logs : List (ReportExecutionLog V)) : World V :=
  { World.loaded row logs with readings := 1 }

/-- The error of an alert that had succeeded before is lost. -/
def AlertErrorLost (env : Environment V) (row : ReportSchedule V)
    (logs : List (ReportExecutionLog V)) : Prop :=
  LastSucceeded row ∧ ErrorUnannounced env (World.begun row logs)

section Runs
variable {row : ReportSchedule V} {logs : List (ReportExecutionLog V)}

theorem ends_transaction {m : Action V Unit} {w : World V} {lost : Prop} (inTransaction : Bool)
    (body : Ends m w (fun _ t => Decided logs lost t) fun _ t => Decided logs lost t) :
    Ends (transaction inTransaction m) w (fun _ t => Decided logs lost t)
      fun _ t => Decided logs lost t := by
  cases inTransaction with
  | true => exact body
  | false =>
    unfold transaction rollback
    refine ends_tryExcept (ends_bind (body.mono ?_ ?_))
    · intro _ t decided
      refine ends_change ⟨?_, ?_⟩
      · intro isLost
        have recorded := decided.stuck isLost
        exact ⟨recorded.held, recorded.held, recorded.logged⟩
      · intro kept
        obtain ⟨state, terminal, recorded⟩ := decided.settled kept
        exact ⟨state, terminal, recorded.held, recorded.held, recorded.logged⟩
    · intro ex t decided
      refine ends_bind (ends_change (ends_raise ⟨?_, ?_⟩))
      · intro isLost
        have recorded := decided.stuck isLost
        exact ⟨recorded.committed, recorded.committed, recorded.logged⟩
      · intro kept
        obtain ⟨state, terminal, recorded⟩ := decided.settled kept
        exact ⟨state, terminal, recorded.committed, recorded.committed, recorded.logged⟩

theorem ends_run (inTransaction : Bool) (writable : ∀ n, env.logWrite n = none)
    (idle : row.lastState ≠ some .working) :
    Ends (run env inTransaction) (World.loaded row logs)
      (fun _ t => Decided logs (AlertErrorLost env row logs) t)
      fun _ t => Decided logs (AlertErrorLost env row logs) t := by
  unfold run
  refine ends_transaction inTransaction (ends_bind (ends_inspect ?_))
  have start : Since logs (World.begun row logs) := ⟨[], (List.append_nil logs).symm⟩
  by_cases succeeded : LastSucceeded row
  · have found : (statesCls : List (StateClass V)).find? (fun cls =>
        cls.handles (World.loaded row logs).schedule.lastState) =
        some { currentStates := [.success,
          .grace], initial := false, next := successStateNext } := by
      obtain success | grace := succeeded
      · rw [World.loaded, success]
        rfl
      · rw [World.loaded, grace]
        rfl
    rw [found]
    refine ends_bind (ends_utcnow ?_)
    have same : ErrorUnannounced env (World.begun row logs) ↔ AlertErrorLost env row logs :=
      ⟨fun lost => ⟨succeeded, lost⟩, fun lost => lost.2⟩
    rw [← propext same]
    exact ends_successStateNext writable start _
  · have found : (statesCls : List (StateClass V)).find? (fun cls =>
        cls.handles (World.loaded row logs).schedule.lastState) =
        some { currentStates := [.noop, .error], initial := true,
               next := notTriggeredErrorStateNext } := by
      unfold LastSucceeded at succeeded
      rw [World.loaded]
      cases last : row.lastState with
      | none => rfl
      | some state =>
        rw [last] at idle succeeded
        cases state with
        | working => exact (idle rfl).elim
        | success => exact (succeeded (Or.inl rfl)).elim
        | grace => exact (succeeded (Or.inr rfl)).elim
        | noop => rfl
        | error => rfl
    rw [found]
    refine ends_bind (ends_utcnow ?_)
    have announced : ¬AlertErrorLost env row logs := fun lost => succeeded lost.1
    exact (ends_notTriggeredErrorStateNext writable start _).mono
      (fun _ _ done => Decided.of_settled announced done)
      fun _ _ done => Decided.of_settled announced done

/-- Every execution of a schedule that is not WORKING ends settled, except that of
an alert whose evaluation raises after a success and whose error cannot be sent. -/
theorem run_endsSettled_iff (env : Environment V) (row : ReportSchedule V)
    (logs : List (ReportExecutionLog V)) (inTransaction : Bool)
    (writable : ∀ n, env.logWrite n = none) (idle : row.lastState ≠ some .working) :
    EndsSettled logs (run env inTransaction (World.loaded row logs)).2 ↔
    ¬AlertErrorLost env row logs := by
  have decided : Decided logs (AlertErrorLost env row logs)
      (run env inTransaction (World.loaded row logs)).2 :=
    (ends_run inTransaction writable idle).state
  refine ⟨?_, ?_⟩
  · intro settled lost
    obtain ⟨state, terminal, committed, -⟩ := settled
    rw [(decided.stuck lost).committed] at committed
    cases Option.some.inj committed
    simp [Terminal] at terminal
  · intro kept
    obtain ⟨state, terminal, recorded⟩ := decided.settled kept
    exact ⟨state, terminal, recorded.committed, recorded.logged⟩

def succeededAlert : ReportSchedule Nat :=
  { type := .alert, lastState := some .success, lastValue := some 1, lastValueRowJson := none,
    lastEvalDttm := some 0, gracePeriod := some 0, workingTimeout := some 3600 }

def failingAlert (sendError : Option Exception) : Environment Nat :=
  { scheduledDttm := 0, executionId := "run", clock := fun n => n, logWrite := fun _ => none,
    alert := { lastValue := none, lastValueRowJson := none, result := .error (.other "query") },
    send := none, sendError := sendError }

theorem run_endsSettled_announced :
    EndsSettled [] (run (failingAlert none) false (World.loaded succeededAlert [])).2 :=
  (run_endsSettled_iff (failingAlert none) succeededAlert [] false (fun _ => rfl) (by decide)).mpr
    fun lost => lost.2.2.2.2 rfl

/-- An SMTP error while reporting the error of an alert leaves it at WORKING. -/
theorem not_endsSettled_unannounced :
    ¬EndsSettled [] (run (failingAlert (some (.other "smtp"))) false
      (World.loaded succeededAlert [])).2 := by
  intro settled
  obtain ⟨state, terminal, committed, -⟩ := settled
  have working : (run (failingAlert (some (.other "smtp"))) false
      (World.loaded succeededAlert [])).2.committed.lastState = some .working := rfl
  rw [working] at committed
  cases Option.some.inj committed
  simp [Terminal] at terminal

end Runs

end Liteset.Reports
