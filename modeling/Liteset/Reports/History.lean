import Mathlib
import Liteset.Lib.Runs
import Liteset.Reports.ExecutionSafety

/-!
# The executions of a schedule

What the database holds of a schedule between two executions, and which rows an
execution adds to its log, whichever of its steps fail.
-/

set_option autoImplicit false

namespace Liteset.Reports

open Liteset.Lib

variable {V : Type}

/-- `now` is a time that the clock has reached. -/
structure Stored (V : Type) where
  row : ReportSchedule V
  logs : List (ReportExecutionLog V)
  now : Int

def Environment.dying (env : Environment V) (commits : Nat) : Environment V :=
  { env with
    logWrite := fun n => if n < commits then env.logWrite n else some (.other "worker died") }

inductive Event (V : Type) where
  | execute (env : Environment V) (inTransaction : Bool)
  | die (env : Environment V) (inTransaction : Bool) (commits : Nat)

def Event.environment : Event V → Environment V
  | .execute env _ => env
  | .die env _ commits => env.dying commits

def Event.inTransaction : Event V → Bool
  | .execute _ inTransaction => inTransaction
  | .die _ inTransaction _ => inTransaction

def executed (s : Stored V) (env : Environment V) (inTransaction : Bool) : Stored V :=
  let w := (run env inTransaction (World.loaded s.row s.logs)).2
  { row := w.committed, logs := w.logs, now := env.clock w.readings }

def step (s : Stored V) (event : Event V) : Option (Stored V) :=
  some (executed s event.environment event.inTransaction)

/-- The clock does not go back. -/
structure Timely (s : Stored V) (env : Environment V) : Prop where
  later : s.now ≤ env.clock 0
  monotone : Monotone env.clock

section Rows
variable {env : Environment V} {s : Stored V} {low : Int} {rows : List (ReportExecutionLog V)}
  {w t : World V}

def stateAfter (s : Stored V) (rows : List (ReportExecutionLog V)) : Option ReportState :=
  match rows.getLast? with
  | none => s.row.lastState
  | some row => row.state

structure SameSettings (a b : ReportSchedule V) : Prop where
  type : a.type = b.type
  gracePeriod : a.gracePeriod = b.gracePeriod

/-- Since `s` was stored exactly `rows` were logged, none of them before `low`. -/
structure Logged (env : Environment V) (s : Stored V) (low : Int)
    (rows : List (ReportExecutionLog V))
    (w : World V) : Prop where
  logs : w.logs = s.logs ++ rows
  schedule : SameSettings w.schedule s.row
  committed : SameSettings w.committed s.row
  state : w.committed.lastState = stateAfter s rows
  started : low ≤ env.clock w.readings
  times : ∀ row ∈ rows, low ≤ row.endDttm ∧ row.endDttm ≤ env.clock w.readings

def Held (w : World V) : Prop := w.schedule.lastState = w.committed.lastState

theorem Logged.loaded (timely : Timely s env) :
    Logged env s s.now [] (World.loaded s.row s.logs) where
  logs := (List.append_nil s.logs).symm
  schedule := ⟨rfl, rfl⟩
  committed := ⟨rfl, rfl⟩
  state := rfl
  started := timely.later
  times := by simp

theorem Logged.quiet (logged : Logged env s low rows w) (monotone : Monotone env.clock)
    (logs : t.logs = w.logs) (committed : t.committed = w.committed)
    (schedule : SameSettings t.schedule w.schedule) (later : w.readings ≤ t.readings) :
    Logged env s low rows t where
  logs := logs.trans logged.logs
  schedule := ⟨schedule.type.trans logged.schedule.type,
    schedule.gracePeriod.trans logged.schedule.gracePeriod⟩
  committed := by
    rw [committed]
    exact logged.committed
  state := by
    rw [committed]
    exact logged.state
  started := logged.started.trans (monotone later)
  times row member :=
    ⟨(logged.times row member).1, (logged.times row member).2.trans (monotone later)⟩

theorem Logged.raise_low (logged : Logged env s low [] w) {new : Int}
    (reached : new ≤ env.clock w.readings) : Logged env s new [] w :=
  { logged with started := reached, times := by simp }

theorem ends_updateReportSchedule_settings (state : ReportState) :
    Ends (updateReportSchedule env state) w
      (fun _ t => t.schedule.lastState = some state ∧ SameSettings t.schedule w.schedule
        ∧ t.logs = w.logs ∧ t.committed = w.committed ∧ t.readings = w.readings + 1)
      fun _ _ => False := by
  unfold updateReportSchedule
  by_cases working : state = .working
  · rw [if_pos working]
    exact ends_bind (ends_change (ends_bind (ends_change (ends_bind (ends_utcnow
      (ends_change ⟨rfl, ⟨rfl, rfl⟩, rfl, rfl, rfl⟩))))))
  · rw [if_neg working]
    exact ends_bind (ends_change (ends_bind (ends_utcnow
      (ends_change ⟨rfl, ⟨rfl, rfl⟩, rfl, rfl, rfl⟩))))

theorem ends_write (monotone : Monotone env.clock) (logged : Logged env s low rows w)
    (start : Int) (state : ReportState) (message : Option String) :
    Ends (updateReportScheduleAndLog env start state message) w
      (fun _ t => Held t ∧ ∃ row, row.state = some state ∧ row.errorMessage = message
        ∧ env.clock w.readings ≤ row.endDttm ∧ Logged env s low (rows ++ [row]) t)
      fun _ t => Logged env s low rows t := by
  unfold updateReportScheduleAndLog
  refine ends_bind ((ends_updateReportSchedule_settings state).mono ?_ fun _ _ impossible =>
    impossible.elim)
  rintro _ u ⟨held, settings, sameLogs, sameCommitted, readings⟩
  have updated : Logged env s low rows u :=
    logged.quiet monotone sameLogs sameCommitted settings (by omega)
  unfold createLog
  refine ends_bind (ends_utcnow (ends_bind (ends_inspect (ends_tryExcept ?_))))
  have read : Logged env s low rows { u with readings := u.readings + 1 } :=
    updated.quiet monotone rfl rfl ⟨rfl, rfl⟩ (Nat.le_succ _)
  unfold commitLog
  refine ends_bind (ends_inspect (ends_bind (ends_change ?_)))
  have attempted : Logged env s low rows
      { u with readings := u.readings + 1, writes := u.writes + 1 } :=
    read.quiet monotone rfl rfl ⟨rfl, rfl⟩ (Nat.le_refl _)
  dsimp only
  cases env.logWrite u.writes with
  | some ex =>
    refine ends_raise ?_
    cases ex with
    | staleData =>
      refine ends_bind (ends_change (ends_raise ?_))
      exact { attempted with schedule := attempted.committed }
    | supersetErrors errors text => exact ends_raise attempted
    | reportScheduleUnexpected text => exact ends_raise attempted
    | other text => exact ends_raise attempted
  | none =>
    refine ends_change ⟨rfl,
      { scheduledDttm := env.scheduledDttm, startDttm := start, endDttm := env.clock u.readings,
        value := u.schedule.lastValue, valueRowJson := u.schedule.lastValueRowJson,
        state := u.schedule.lastState, errorMessage := message, uuid := env.executionId },
      held, rfl, monotone (by omega), ?_⟩
    refine ⟨?_, attempted.schedule, attempted.schedule, ?_, attempted.started, ?_⟩
    · dsimp only
      rw [updated.logs, List.append_assoc]
    · unfold stateAfter
      rw [List.getLast?_concat]
    · intro row member
      rcases List.mem_append.mp member with old | new
      · exact attempted.times row old
      · rw [List.mem_singleton.mp new]
        exact ⟨updated.started, monotone (Nat.le_succ _)⟩

theorem ends_alertCommand_logged (monotone : Monotone env.clock)
    (logged : Logged env s low rows w) :
    Ends (alertCommand env) w (fun _ t => Logged env s low rows t) fun _ t =>
      Logged env s low rows t := by
  unfold alertCommand
  refine ends_bind (ends_change ?_)
  cases env.alert.result with
  | ok triggered => exact ends_pure (logged.quiet monotone rfl rfl ⟨rfl, rfl⟩ (Nat.le_refl _))
  | error e => exact ends_raise (logged.quiet monotone rfl rfl ⟨rfl, rfl⟩ (Nat.le_refl _))

theorem ends_isWithinGraceOf_logged (monotone : Monotone env.clock)
    (logged : Logged env s low rows w)
    (found : Option (ReportExecutionLog V)) :
    Ends (isWithinGraceOf env found) w
      (fun grace t => grace = graceOf env w found ∧ Logged env s low rows t
        ∧ w.readings ≤ t.readings ∧ (Held w → Held t))
      fun _ _ => False := by
  unfold isWithinGraceOf graceOf
  cases found with
  | none => exact ends_pure ⟨rfl, logged, Nat.le_refl _, id⟩
  | some log =>
    refine ends_bind (ends_inspect ?_)
    split
    · rename_i off
      refine ends_pure ⟨?_, logged, Nat.le_refl _, id⟩
      obtain missing | zero := off
      · simp [withinGrace, missing]
      · simp [withinGrace, zero]
    · exact ends_bind (ends_utcnow (ends_pure
        ⟨rfl, logged.quiet monotone rfl rfl ⟨rfl, rfl⟩ (Nat.le_succ _), Nat.le_succ _, id⟩))

/-- `P` holds of the rows logged since `s` was stored. -/
def Leaves (env : Environment V) (s : Stored V) (low : Int)
    (P : List (ReportExecutionLog V) → Prop) (t : World V) : Prop :=
  ∃ rows, Logged env s low rows t ∧ P rows

def SuccessLast (rows : List (ReportExecutionLog V)) : Prop :=
  ∀ row ∈ rows.dropLast, row.state ≠ some .success

/-- A row is logged after a failure by which the owners are notified, when the grace
period of the last notification is over. -/
def OwnersNotified (env : Environment V) (s : Stored V)
    (rows : List (ReportExecutionLog V)) : Prop :=
  ∃ working first second w, rows = [working, first, second]
    ∧ working.state = some .working ∧ first.state = some .error ∧ second.state = some .error
    ∧ w.logs = s.logs ++ [working, first] ∧ SameSettings w.schedule s.row
    ∧ graceOf env w (findLastErrorNotification w) = false ∧ env.clock w.readings ≤ second.endDttm

/-- The rows that `ReportNotTriggeredErrorState.next` may log. -/
def NotTriggeredRows (env : Environment V) (s : Stored V)
    (rows : List (ReportExecutionLog V)) : Prop :=
  (rows.length ≤ 2 ∧ SuccessLast rows) ∨ OwnersNotified env s rows

section NotTriggered
variable {working first : ReportExecutionLog V}

theorem notTriggeredRows_two {a b : ReportExecutionLog V} (other : a.state ≠ some .success) :
    NotTriggeredRows env s [a, b] := by
  refine .inl ⟨Nat.le_refl _, fun row member => ?_⟩
  rw [List.mem_singleton.mp member]
  exact other

theorem ends_recordFirstError_rows (monotone : Monotone env.clock)
    (logged : Logged env s low [working] w) (state : working.state = some .working) (start : Int)
    (firstEx : Exception) :
    Ends (recordFirstError env start firstEx) w (fun _ _ => False)
      fun _ t => Leaves env s low (NotTriggeredRows env s) t := by
  have isWorking : working.state ≠ some .success := by
    rw [state]
    decide
  have one : NotTriggeredRows env s [working] :=
    .inl ⟨by simp, fun row member => by cases member⟩
  unfold recordFirstError isInErrorGracePeriod unlessUnexpected
  refine ends_bind (ends_tryExcept ((ends_write monotone logged start .error _).mono ?_ ?_))
  swap
  · intro ex t kept
    cases ex with
    | reportScheduleUnexpected text => exact ends_raise ⟨_, kept, one⟩
    | supersetErrors errors text => exact ends_raise ⟨_, kept, one⟩
    | staleData => exact ends_raise ⟨_, kept, one⟩
    | other text => exact ends_raise ⟨_, kept, one⟩
  rintro _ t ⟨_, first, isError, _, _, kept⟩
  have two : NotTriggeredRows env s [working, first] := notTriggeredRows_two isWorking
  refine ends_bind (ends_bind (ends_inspect ((ends_isWithinGraceOf_logged monotone kept _).mono ?_
    fun _ _ impossible => impossible.elim)))
  rintro grace u ⟨decided, tested, later, _⟩
  cases grace with
  | true => exact ends_raise ⟨_, tested, two⟩
  | false =>
    have notified : ∀ second, second.state = some .error → env.clock u.readings ≤ second.endDttm →
        NotTriggeredRows env s [working, first, second] := by
      intro second secondError after
      refine .inr ⟨working, first, second, t, rfl, state, isError, secondError, kept.logs,
        kept.schedule, decided.symm, (monotone later).trans after⟩
    have last : ∀ {ok : World V → Prop} {err : World V → Prop},
        (∀ x, Leaves env s low (NotTriggeredRows env s) x → ok x) →
        (∀ x, Leaves env s low (NotTriggeredRows env s) x → err x) →
        Ends (unlessUnexpected
          (updateReportScheduleAndLog env start .error (some (secondError env.sendError).1))
          fun _ => pure ()) u (fun _ x => ok x) fun _ x => err x := by
      intro ok err returned raised
      unfold unlessUnexpected
      refine ends_tryExcept ((ends_write monotone tested start .error _).mono ?_ ?_)
      · rintro _ x ⟨_, second, isError', _, after, written⟩
        exact returned x ⟨_, written, notified second isError' after⟩
      · intro ex x unwritten
        cases ex with
        | reportScheduleUnexpected text => exact ends_pure (returned x ⟨_, unwritten, two⟩)
        | supersetErrors errors text => exact ends_raise (raised x ⟨_, unwritten, two⟩)
        | staleData => exact ends_raise (raised x ⟨_, unwritten, two⟩)
        | other text => exact ends_raise (raised x ⟨_, unwritten, two⟩)
    have owners : Ends (notifyOwners env start) u
        (fun _ x => Leaves env s low (NotTriggeredRows env s) x)
        fun _ x => Leaves env s low (NotTriggeredRows env s) x := by
      unfold notifyOwners sendError
      refine ends_tryFinally (ends_tryExcept ((ends_outcome env.sendError).mono ?_ ?_))
      · rintro _ x ⟨_, rfl⟩
        exact last (fun _ done => done) fun _ done => done
      · rintro ex x ⟨_, rfl⟩
        refine (ends_outcome (secondError env.sendError).2).mono ?_ ?_
        · rintro _ y ⟨_, rfl⟩
          exact last (fun _ done => done) fun _ done => done
        · rintro _ y ⟨_, rfl⟩
          exact last (fun _ done => done) fun _ done => done
    refine ends_bind (owners.mono ?_ fun _ _ done => done)
    exact fun _ x done => ends_raise done

end NotTriggered

theorem ends_notTriggeredErrorStateNext_rows (monotone : Monotone env.clock)
    (logged : Logged env s low [] w) (start : Int) :
    Ends (notTriggeredErrorStateNext env start) w
      (fun _ t => Held t ∧ Leaves env s low (NotTriggeredRows env s) t)
      fun _ t => Leaves env s low (NotTriggeredRows env s) t := by
  have none_yet : NotTriggeredRows env s [] := .inl ⟨by simp, fun row member => by cases member⟩
  unfold notTriggeredErrorStateNext evaluateAndSend
  refine ends_bind ((ends_write monotone logged start .working none).mono ?_
    fun _ _ unwritten => ⟨_, unwritten, none_yet⟩)
  rintro _ t ⟨_, working, state, _, _, entered⟩
  have isWorking : working.state ≠ some .success := by
    rw [state]
    decide
  have failed : ∀ ex u, Logged env s low [working] u →
      Ends (recordFirstError env start ex) u
        (fun _ x => Held x ∧ Leaves env s low (NotTriggeredRows env s) x)
        fun _ x => Leaves env s low (NotTriggeredRows env s) x := fun ex u kept =>
    (ends_recordFirstError_rows monotone kept state start ex).mono
      (fun _ _ impossible => impossible.elim) fun _ _ done => done
  have written : ∀ (end_state : ReportState) u, Logged env s low [working] u →
      Ends (updateReportScheduleAndLog env start end_state none) u
        (fun _ x => Held x ∧ Leaves env s low (NotTriggeredRows env s) x)
        fun ex x => Ends (recordFirstError env start ex) x
          (fun _ x => Held x ∧ Leaves env s low (NotTriggeredRows env s) x)
          fun _ x => Leaves env s low (NotTriggeredRows env s) x := by
    intro end_state u kept
    refine (ends_write monotone kept start end_state none).mono ?_ fun ex x unwritten =>
      failed ex x unwritten
    rintro _ x ⟨held, row, _, _, _, done⟩
    exact ⟨held, _, done, notTriggeredRows_two isWorking⟩
  have evaluated : Ends (isTriggered env) t (fun _ u => Logged env s low [working] u)
      fun _ u => Logged env s low [working] u := by
    refine ends_bind (ends_inspect ?_)
    split
    · exact ends_alertCommand_logged monotone entered
    · exact ends_pure entered
  refine ends_tryExcept (ends_bind (evaluated.mono ?_ fun ex u kept => failed ex u kept))
  intro triggered u kept
  cases triggered with
  | true =>
    refine ends_bind ((ends_outcome env.send).mono ?_ ?_)
    · rintro _ x ⟨_, rfl⟩
      exact written .success x kept
    · rintro ex x ⟨_, rfl⟩
      exact failed ex x kept
  | false => exact written .noop u kept

/-- A row of WORKING or ERROR. -/
def OnlyError (row : ReportExecutionLog V) : Prop :=
  row.state = none ∨ row.state = some .error ∨ row.state = some .working

theorem ends_workingStateNext_rows (monotone : Monotone env.clock) (logged : Logged env s low [] w)
    (start : Int) :
    Ends (workingStateNext env start) w (fun _ _ => False)
      fun _ t => Leaves env s low (fun rows => ∀ row ∈ rows, OnlyError row) t := by
  have writes : ∀ (state : ReportState) (text : String) u, state = .error ∨ state = .working →
      Logged env s low [] u →
      Ends (do
          updateReportScheduleAndLog env start state (some text)
          raise (.other text) : Action V Unit) u (fun _ _ => False)
        fun _ t => Leaves env s low (fun rows => ∀ row ∈ rows, OnlyError row) t := by
    intro state text u either kept
    refine ends_bind ((ends_write monotone kept start state (some text)).mono ?_
      fun _ _ unwritten => ⟨_, unwritten, by simp⟩)
    rintro _ x ⟨_, row, isState, _, _, written⟩
    refine ends_raise ⟨_, written, fun r member => ?_⟩
    rw [List.mem_singleton.mp member]
    unfold OnlyError
    rw [isState]
    rcases either with rfl | rfl
    · exact .inr (.inl rfl)
    · exact .inr (.inr rfl)
  have decided : Ends (isOnWorkingTimeout env) w (fun _ t => Logged env s low [] t) fun _ _ =>
      False := by
    unfold isOnWorkingTimeout
    refine ends_bind (ends_inspect ?_)
    split
    · exact ends_pure logged
    · refine ends_bind (ends_inspect ?_)
      split
      · exact ends_bind (ends_utcnow (ends_pure
          (logged.quiet monotone rfl rfl ⟨rfl, rfl⟩ (Nat.le_succ _))))
      · exact ends_pure logged
  unfold workingStateNext
  refine ends_bind (decided.mono ?_ fun _ _ impossible => impossible.elim)
  intro timedOut t kept
  cases timedOut with
  | true => exact writes .error _ t (.inl rfl) kept
  | false => exact writes .working _ t (.inr rfl) kept

theorem successLast_append {pre : List (ReportExecutionLog V)} {row : ReportExecutionLog V}
    (noSuccess : ∀ r ∈ pre, r.state ≠ some .success) : SuccessLast (pre ++ [row]) := by
  unfold SuccessLast
  rw [List.dropLast_concat]
  exact noSuccess

theorem successLast_of_none (noSuccess : ∀ r ∈ rows, r.state ≠ some .success) : SuccessLast rows :=
  fun row member => noSuccess row ((List.dropLast_sublist rows).subset member)

section
variable (monotone : Monotone env.clock) (logged : Logged env s low rows w)
    (noSuccess : ∀ r ∈ rows, r.state ≠ some .success) (start : Int)
include monotone logged noSuccess start

theorem ends_successStateSend_rows :
    Ends (successStateSend env start) w (fun _ t => Held t ∧ Leaves env s low SuccessLast t)
      fun _ t => Leaves env s low SuccessLast t := by
  have before : SuccessLast rows := successLast_of_none noSuccess
  have failed : ∀ (ex : Exception) u, Logged env s low rows u →
      Ends (do
          unlessUnexpected (updateReportScheduleAndLog env start .error (some ex.text))
            fun _ => raise ex
          raise ex : Action V Unit) u (fun _ t => Held t ∧ Leaves env s low SuccessLast t)
        fun _ t => Leaves env s low SuccessLast t := by
    intro ex u kept
    unfold unlessUnexpected
    refine ends_bind (ends_tryExcept ((ends_write monotone kept start .error _).mono ?_ ?_))
    · rintro _ x ⟨_, row, _, _, _, written⟩
      exact ends_raise ⟨_, written, successLast_append noSuccess⟩
    · intro other x unwritten
      cases other with
      | reportScheduleUnexpected text => exact ends_raise ⟨_, unwritten, before⟩
      | supersetErrors errors text => exact ends_raise ⟨_, unwritten, before⟩
      | staleData => exact ends_raise ⟨_, unwritten, before⟩
      | other text => exact ends_raise ⟨_, unwritten, before⟩
  unfold successStateSend send
  refine ends_tryExcept (ends_bind ((ends_outcome env.send).mono ?_ ?_))
  · rintro _ t ⟨_, rfl⟩
    refine (ends_write monotone logged start .success none).mono ?_ fun ex x unwritten =>
      failed ex x unwritten
    rintro _ x ⟨held, row, _, _, _, written⟩
    exact ⟨held, _, written, successLast_append noSuccess⟩
  · rintro ex t ⟨_, rfl⟩
    exact failed ex t logged

theorem ends_successStateEvaluate_rows :
    Ends (successStateEvaluate env start) w
      (fun goesOn t => if goesOn then Logged env s low rows t else Held t ∧
        Leaves env s low SuccessLast t)
      fun _ t => Leaves env s low SuccessLast t := by
  have before : SuccessLast rows := successLast_of_none noSuccess
  have failed : ∀ (ex : Exception) u, Logged env s low rows u →
      Ends (do
          sendError env
          updateReportScheduleAndLog env start .error (some errorNotificationMarker)
          raise ex : Action V Bool) u
        (fun goesOn t => if goesOn then Logged env s low rows t else Held t ∧
          Leaves env s low SuccessLast t)
        fun _ t => Leaves env s low SuccessLast t := by
    intro ex u kept
    unfold sendError
    refine ends_bind ((ends_outcome env.sendError).mono ?_ ?_)
    · rintro _ x ⟨_, rfl⟩
      refine ends_bind ((ends_write monotone kept start .error _).mono ?_
        fun _ _ unwritten => ⟨_, unwritten, before⟩)
      rintro _ y ⟨_, row, _, _, _, written⟩
      exact ends_raise ⟨_, written, successLast_append noSuccess⟩
    · rintro _ x ⟨_, rfl⟩
      exact ⟨_, kept, before⟩
  unfold successStateEvaluate
  refine ends_tryExcept (ends_bind ((ends_alertCommand_logged monotone logged).mono ?_
    fun ex t kept => failed ex t kept))
  intro triggered t kept
  cases triggered with
  | true => exact ends_pure kept
  | false =>
    refine ends_bind ((ends_write monotone kept start .noop none).mono ?_
      fun ex x unwritten => failed ex x unwritten)
    rintro _ x ⟨held, row, _, _, _, written⟩
    exact ends_pure ⟨held, _, written, successLast_append noSuccess⟩

end

/-- What `ReportSuccessState.next` leaves: rows of GRACE, or rows that an alert logs only
after the grace period. -/
def AfterSuccess (env : Environment V) (s : Stored V) (low : Int) (t : World V) : Prop :=
  Leaves env s low (fun rows => ∀ row ∈ rows, row.state = some .grace) t
    ∨ (s.row.type ≠ .alert ∧ Leaves env s low SuccessLast t)
    ∨ ∃ w, w.logs = s.logs ∧ SameSettings w.schedule s.row ∧
    graceOf env w (findLastSuccessLog w) = false
      ∧ Leaves env s (env.clock w.readings) SuccessLast t

theorem ends_successStateNext_rows (monotone : Monotone env.clock) (logged : Logged env s low [] w)
    (start : Int) :
    Ends (successStateNext env start) w (fun _ t => Held t ∧ AfterSuccess env s low t)
      fun _ t => AfterSuccess env s low t := by
  unfold successStateNext
  refine ends_bind (ends_inspect ?_)
  by_cases alert : w.schedule.type = .alert
  · rw [if_pos alert]
    unfold isInGracePeriod
    refine ends_bind
      (ends_bind (ends_inspect ((ends_isWithinGraceOf_logged monotone logged _).mono ?_
      fun _ _ impossible => impossible.elim)))
    rintro grace t ⟨decided, tested, later, _⟩
    cases grace with
    | true =>
      refine (ends_write monotone tested start .grace _).mono ?_
        fun _ _ unwritten => .inl ⟨_, unwritten, by simp⟩
      rintro _ x ⟨heldThen, row, isGrace, _, _, written⟩
      refine ⟨heldThen, .inl ⟨_, written, fun r member => ?_⟩⟩
      rw [List.mem_singleton.mp member]
      exact isGrace
    | false =>
      have elapsed : ∀ x, Leaves env s (env.clock w.readings) SuccessLast x →
        AfterSuccess env s low x :=
        fun x left => .inr (.inr ⟨w, by rw [logged.logs, List.append_nil], logged.schedule,
          decided.symm, left⟩)
      have raised : Logged env s (env.clock w.readings) [] t := tested.raise_low (monotone later)
      refine ends_bind ((ends_write monotone raised start .working none).mono ?_
        fun _ x unwritten => elapsed x ⟨_, unwritten, fun row member => by cases member⟩)
      rintro _ u ⟨_, working, isWorking, _, _, entered⟩
      have noSuccess : ∀ r ∈ [working], r.state ≠ some .success := by
        intro r member
        rw [List.mem_singleton.mp member, isWorking]
        decide
      refine ends_bind ((ends_successStateEvaluate_rows monotone entered noSuccess start).mono ?_
        fun _ x left => elapsed x left)
      intro goesOn x evaluated
      cases goesOn with
      | true =>
        exact (ends_successStateSend_rows monotone evaluated noSuccess start).mono
          (fun _ y done => ⟨done.1, elapsed y done.2⟩) fun _ y left => elapsed y left
      | false => exact ends_pure ⟨evaluated.1, elapsed x evaluated.2⟩
  · rw [if_neg alert]
    have report : s.row.type ≠ .alert := by
      rw [← logged.schedule.type]
      exact alert
    exact (ends_successStateSend_rows monotone logged (by simp) start).mono
      (fun _ y done => ⟨done.1, .inr (.inl ⟨report, done.2⟩)⟩)
      fun _ y left => .inr (.inl ⟨report, left⟩)

def Executed (env : Environment V) (s : Stored V) (t : World V) : Prop :=
  (s.row.lastState = some .working
      ∧ Leaves env s s.now (fun rows => ∀ row ∈ rows, OnlyError row) t)
    ∨ (LastSucceeded s.row ∧ AfterSuccess env s s.now t)
    ∨ (s.row.lastState ≠ some .working ∧ ¬LastSucceeded s.row
      ∧ Leaves env s s.now (NotTriggeredRows env s) t)

theorem Leaves.committed {P : List (ReportExecutionLog V) → Prop} (left : Leaves env s low P w)
    (schedule : t.schedule = w.schedule ∨ t.schedule = w.committed)
    (committed : t.committed = w.committed ∨ (Held w ∧ t.committed = w.schedule))
    (logs : t.logs = w.logs) (readings : t.readings = w.readings) : Leaves env s low P t := by
  obtain ⟨rows, logged, holds⟩ := left
  refine ⟨rows, ⟨logs.trans logged.logs, ?_, ?_, ?_, readings ▸ logged.started,
    readings ▸ logged.times⟩, holds⟩
  · rcases schedule with same | same
    · rw [same]
      exact logged.schedule
    · rw [same]
      exact logged.committed
  · rcases committed with same | ⟨_, same⟩
    · rw [same]
      exact logged.committed
    · rw [same]
      exact logged.schedule
  · rcases committed with same | ⟨held, same⟩
    · rw [same]
      exact logged.state
    · rw [same, held]
      exact logged.state

theorem Executed.committed (ended : Executed env s w)
    (schedule : t.schedule = w.schedule ∨ t.schedule = w.committed)
    (committed : t.committed = w.committed ∨ (Held w ∧ t.committed = w.schedule))
    (logs : t.logs = w.logs) (readings : t.readings = w.readings) : Executed env s t := by
  rcases ended with ⟨working, left⟩ | ⟨succeeded, left⟩ | ⟨idle, failed, left⟩
  · exact .inl ⟨working, left.committed schedule committed logs readings⟩
  · refine .inr (.inl ⟨succeeded, ?_⟩)
    rcases left with grace | ⟨report, left⟩ | ⟨u, sameLogs, settings, elapsed, left⟩
    · exact .inl (grace.committed schedule committed logs readings)
    · exact .inr (.inl ⟨report, left.committed schedule committed logs readings⟩)
    · exact .inr (.inr ⟨u, sameLogs, settings, elapsed,
        left.committed schedule committed logs readings⟩)
  · exact .inr (.inr ⟨idle, failed, left.committed schedule committed logs readings⟩)

theorem ends_transaction_executed {m : Action V Unit} (inTransaction : Bool)
    (body : Ends m w (fun _ t => Held t ∧ Executed env s t) fun _ t => Executed env s t) :
    Ends (transaction inTransaction m) w (fun _ t => Executed env s t) fun _ t =>
      Executed env s t := by
  cases inTransaction with
  | true => exact body.mono (fun _ _ done => done.2) fun _ _ done => done
  | false =>
    unfold transaction rollback
    refine ends_tryExcept (ends_bind (body.mono ?_ ?_))
    · rintro _ t ⟨held, done⟩
      exact ends_change (done.committed (.inl rfl) (.inr ⟨held, rfl⟩) rfl rfl)
    · intro ex t done
      exact ends_bind (ends_change (ends_raise (done.committed (.inr rfl) (.inl rfl) rfl rfl)))

theorem run_executed (timely : Timely s env) (inTransaction : Bool) :
    Executed env s (run env inTransaction (World.loaded s.row s.logs)).2 := by
  refine Ends.state (ends_transaction_executed inTransaction ?_)
  refine ends_bind (ends_inspect ?_)
  have loaded := Logged.loaded timely
  have begun : Logged env s s.now [] (World.begun s.row s.logs) :=
    loaded.quiet timely.monotone rfl rfl ⟨rfl, rfl⟩ (Nat.zero_le 1)
  by_cases first : s.row.lastState = none ∨ s.row.lastState = some .noop ∨
    s.row.lastState = some .error
  · have found : (statesCls : List (StateClass V)).find? (fun cls =>
        cls.handles (World.loaded s.row s.logs).schedule.lastState) =
        some { currentStates := [.noop,
          .error], initial := true, next := notTriggeredErrorStateNext } := by
      rcases first with last | last | last <;> rw [World.loaded, last] <;> rfl
    rw [found]
    refine ends_bind (ends_utcnow ?_)
    have idle : s.row.lastState ≠ some .working := by
      rcases first with last | last | last <;> simp [last]
    have failed : ¬LastSucceeded s.row := by
      rcases first with last | last | last <;> simp [LastSucceeded, last]
    exact (ends_notTriggeredErrorStateNext_rows timely.monotone begun _).mono
      (fun _ _ done => ⟨done.1, .inr (.inr ⟨idle, failed, done.2⟩)⟩)
      fun _ _ left => .inr (.inr ⟨idle, failed, left⟩)
  cases last : s.row.lastState with
  | none => exact absurd (.inl last) first
  | some state =>
    cases state with
    | working =>
      have found : (statesCls : List (StateClass V)).find? (fun cls =>
          cls.handles (World.loaded s.row s.logs).schedule.lastState) =
          some { currentStates := [.working], initial := false, next := workingStateNext } := by
        rw [World.loaded, last]
        rfl
      rw [found]
      refine ends_bind (ends_utcnow ?_)
      exact (ends_workingStateNext_rows timely.monotone begun _).mono
        (fun _ _ impossible => impossible.elim) fun _ _ left => .inl ⟨last, left⟩
    | success | grace =>
      have found : (statesCls : List (StateClass V)).find? (fun cls =>
          cls.handles (World.loaded s.row s.logs).schedule.lastState) =
          some { currentStates := [.success,
            .grace], initial := false, next := successStateNext } := by
        rw [World.loaded, last]
        rfl
      rw [found]
      refine ends_bind (ends_utcnow ?_)
      have succeeded : LastSucceeded s.row := by simp [LastSucceeded, last]
      exact (ends_successStateNext_rows timely.monotone begun _).mono
        (fun _ _ done => ⟨done.1, .inr (.inl ⟨succeeded, done.2⟩)⟩)
        fun _ _ left => .inr (.inl ⟨succeeded, left⟩)
    | noop => exact absurd (.inr (.inl last)) first
    | error => exact absurd (.inr (.inr last)) first

end Rows

end Liteset.Reports
