import Mathlib.Data.List.Induction
import Liteset.Reports.History

/-!
# Grace periods

Two successes of an alert lie a grace period apart.  Two error notifications do as
long as the schedule has logged nothing but errors.
-/

set_option autoImplicit false

namespace Liteset.Reports

open Liteset.Lib List
open Lib.Runs (Reaches)

variable {V : Type} {env : Environment V} {s : Stored V} {g : Int}

def IsLast (selected : ReportExecutionLog V → Bool) (logs : List (ReportExecutionLog V)) :
    Option (ReportExecutionLog V) → Prop
  | none => ∀ row ∈ logs, selected row = false
  | some found => found ∈ logs ∧ selected found = true
      ∧ ∀ row ∈ logs, selected row = true → row.endDttm ≤ found.endDttm

theorem lastLog_append (selected : ReportExecutionLog V → Bool) (logs : List (ReportExecutionLog V))
    (log : ReportExecutionLog V) :
    lastLog selected (logs ++ [log]) =
      if selected log then
        match lastLog selected logs with
        | none => some log
        | some found => if found.endDttm < log.endDttm then some log else some found
      else lastLog selected logs := by
  unfold lastLog
  rw [foldl_append]
  rfl

theorem lastLog_spec (selected : ReportExecutionLog V → Bool) (logs : List (ReportExecutionLog V)) :
    IsLast selected logs (lastLog selected logs) := by
  induction logs using reverseRecOn with
  | nil =>
    intro row member
    cases member
  | append_singleton logs log ih =>
    rw [lastLog_append]
    cases chosen : selected log with
    | false =>
      rw [if_neg Bool.false_ne_true]
      cases before : lastLog selected logs with
      | none =>
        rw [before] at ih
        intro row member
        rcases mem_append.mp member with old | new
        · exact ih row old
        · rw [mem_singleton.mp new]
          exact chosen
      | some found =>
        rw [before] at ih
        refine ⟨mem_append_left _ ih.1, ih.2.1, fun row member isSelected => ?_⟩
        rcases mem_append.mp member with old | new
        · exact ih.2.2 row old isSelected
        · rw [mem_singleton.mp new, chosen] at isSelected
          cases isSelected
    | true =>
      rw [if_pos rfl]
      cases before : lastLog selected logs with
      | none =>
        rw [before] at ih
        refine ⟨by simp, chosen, fun row member isSelected => ?_⟩
        rcases mem_append.mp member with old | new
        · rw [ih row old] at isSelected
          cases isSelected
        · rw [mem_singleton.mp new]
      | some found =>
        rw [before] at ih
        dsimp only
        by_cases later : found.endDttm < log.endDttm
        · rw [if_pos later]
          refine ⟨by simp, chosen, fun row member isSelected => ?_⟩
          rcases mem_append.mp member with old | new
          · exact (ih.2.2 row old isSelected).trans (le_of_lt later)
          · rw [mem_singleton.mp new]
        · rw [if_neg later]
          refine ⟨mem_append_left _ ih.1, ih.2.1, fun row member isSelected => ?_⟩
          rcases mem_append.mp member with old | new
          · exact ih.2.2 row old isSelected
          · rw [mem_singleton.mp new]
            omega

theorem withinGrace_eq_false (positive : 0 < g) {now endDttm : Int}
    (elapsed : withinGrace (some g) now endDttm = false) : endDttm + g * 1000000 ≤ now := by
  simp only [withinGrace, Bool.and_eq_false_iff, decide_eq_false_iff_not] at elapsed
  rcases elapsed with zero | late
  · omega
  · omega

def isSuccess (row : ReportExecutionLog V) : Bool := row.state = some .success

theorem successes_over (positive : 0 < g) {w : World V} (grace : w.schedule.gracePeriod = some g)
    (outside : graceOf env w (findLastSuccessLog w) = false) :
    ∀ row ∈ w.logs, isSuccess row = true → row.endDttm + g * 1000000 ≤ env.clock w.readings := by
  intro row member success
  have spec := lastLog_spec isSuccess w.logs
  unfold findLastSuccessLog graceOf at outside
  change (match lastLog isSuccess w.logs with
    | none => false
    | some log =>
      withinGrace w.schedule.gracePeriod (env.clock w.readings) log.endDttm) = false at outside
  cases found : lastLog isSuccess w.logs with
  | none =>
    rw [found] at spec
    rw [spec row member] at success
    cases success
  | some last =>
    rw [found] at spec outside
    dsimp only at outside
    rw [grace] at outside
    have elapsed := withinGrace_eq_false positive outside
    have latest := spec.2.2 row member success
    omega

structure Spaced (g : Int) (s : Stored V) : Prop where
  alert : s.row.type = .alert
  grace : s.row.gracePeriod = some g
  past : ∀ row ∈ s.logs, row.endDttm ≤ s.now
  apart : (s.logs.filter isSuccess).Pairwise fun a b => a.endDttm + g * 1000000 ≤ b.endDttm
  elapsed : ¬LastSucceeded s.row → ∀ row ∈ s.logs, isSuccess row = true →
    row.endDttm + g * 1000000 ≤ s.now

section Step
variable {t : World V} {low : Int} {rows : List (ReportExecutionLog V)}

def storedAfter (env : Environment V) (t : World V) : Stored V :=
  { row := t.committed, logs := t.logs, now := env.clock t.readings }

theorem Logged.past (logged : Logged env s low rows t) (reached : s.now ≤ env.clock t.readings)
    (past : ∀ row ∈ s.logs, row.endDttm ≤ s.now) :
    ∀ row ∈ (storedAfter env t).logs, row.endDttm ≤ (storedAfter env t).now := by
  intro row member
  change row ∈ t.logs at member
  rw [logged.logs] at member
  rcases mem_append.mp member with old | new
  · exact (past row old).trans reached
  · exact (logged.times row new).2

theorem filter_success_of_none (noSuccess : ∀ row ∈ rows, row.state ≠ some .success) :
    rows.filter isSuccess = [] := by
  rw [filter_eq_nil_iff]
  intro row member
  simpa [isSuccess] using noSuccess row member

theorem Spaced.after_grace (spaced : Spaced g s) (succeeded : LastSucceeded s.row)
    (logged : Logged env s s.now rows t) (grace : ∀ row ∈ rows, row.state = some .grace) :
    Spaced g (storedAfter env t) where
  alert := logged.committed.type.trans spaced.alert
  grace := logged.committed.gracePeriod.trans spaced.grace
  past := logged.past logged.started spaced.past
  apart := by
    have none_new : rows.filter isSuccess = [] := by
      apply filter_success_of_none
      intro row member
      rw [grace row member]
      decide
    change (t.logs.filter isSuccess).Pairwise _
    rw [logged.logs, filter_append, none_new, append_nil]
    exact spaced.apart
  elapsed failed := by
    refine (failed ?_).elim
    have state := logged.state
    unfold stateAfter at state
    cases last : rows.getLast? with
    | none =>
      rw [last] at state
      unfold LastSucceeded at succeeded ⊢
      change t.committed.lastState = _ ∨ t.committed.lastState = _
      rw [state]
      exact succeeded
    | some row =>
      rw [last] at state
      refine .inr ?_
      change t.committed.lastState = _
      rw [state]
      exact grace row (mem_of_getLast? last)

theorem Spaced.after_over (spaced : Spaced g s) (logged : Logged env s low rows t)
    (reached : s.now ≤ low) (successLast : SuccessLast rows)
    (elapsed : ∀ row ∈ s.logs, isSuccess row = true → row.endDttm + g * 1000000 ≤ low) :
    Spaced g (storedAfter env t) := by
  have present : s.now ≤ env.clock t.readings := reached.trans logged.started
  refine ⟨logged.committed.type.trans spaced.alert, logged.committed.gracePeriod.trans spaced.grace,
    logged.past present spaced.past, ?_, ?_⟩
  · change (t.logs.filter isSuccess).Pairwise _
    rw [logged.logs, filter_append, pairwise_append]
    refine ⟨spaced.apart, ?_, ?_⟩
    · cases last : rows.getLast? with
      | none =>
        rw [getLast?_eq_none_iff.mp last]
        exact List.Pairwise.nil
      | some row =>
        obtain ⟨pre, rfl⟩ := getLast?_eq_some_iff.mp last
        unfold SuccessLast at successLast
        rw [dropLast_concat] at successLast
        rw [filter_append, filter_success_of_none successLast, nil_append]
        refine List.Pairwise.sublist filter_sublist (pairwise_singleton _ _)
    · intro a old b new
      obtain ⟨inside, isOld⟩ := mem_filter.mp old
      have atLeast := (logged.times b (mem_filter.mp new).1).1
      exact (elapsed a inside isOld).trans atLeast
  · intro failed row member success
    change row ∈ t.logs at member
    rw [logged.logs] at member
    rcases mem_append.mp member with old | new
    · exact (elapsed row old success).trans logged.started
    · have state := logged.state
      unfold stateAfter at state
      cases last : rows.getLast? with
      | none =>
        rw [getLast?_eq_none_iff.mp last] at new
        cases new
      | some final =>
        rw [last] at state
        obtain ⟨pre, rfl⟩ := getLast?_eq_some_iff.mp last
        unfold SuccessLast at successLast
        rw [dropLast_concat] at successLast
        simp only [isSuccess, decide_eq_true_eq] at success
        rcases mem_append.mp new with earlier | same
        · exact (successLast row earlier success).elim
        · rw [mem_singleton.mp same] at success
          refine (failed (.inl ?_)).elim
          change t.committed.lastState = _
          rw [state]
          exact success

theorem successLast_of_onlyError (errors : ∀ row ∈ rows, OnlyError row) : SuccessLast rows := by
  apply successLast_of_none
  intro row member success
  rcases errors row member with none_state | error | working
  · rw [none_state] at success
    cases success
  · rw [error] at success
    cases success
  · rw [working] at success
    cases success

theorem NotTriggeredRows.successLast (logs : NotTriggeredRows env s rows) : SuccessLast rows := by
  rcases logs with ⟨_, last⟩ | ⟨working, first, second, _, rfl, isWorking, isError, _⟩
  · exact last
  · intro row member
    change row ∈ [working, first] at member
    rcases mem_cons.mp member with rfl | member
    · rw [isWorking]
      decide
    · rw [mem_singleton.mp member, isError]
      decide

theorem Spaced.executed (positive : 0 < g) (spaced : Spaced g s) (timely : Timely s env)
    (inTransaction : Bool) : Spaced g (executed s env inTransaction) := by
  rcases run_executed timely inTransaction with ⟨working, rows, logged, errors⟩ | ⟨succeeded, left⟩
    | ⟨idle, failed, rows, logged, shape⟩
  · refine spaced.after_over logged (le_refl _) (successLast_of_onlyError errors)
      (spaced.elapsed ?_)
    unfold LastSucceeded
    rw [working]
    simp
  · rcases left with ⟨rows, logged, grace⟩ | ⟨report, _⟩ |
      ⟨w, logs, settings, outside, rows, logged, last⟩
    · exact spaced.after_grace succeeded logged grace
    · exact (report spaced.alert).elim
    · have elapsed := successes_over positive (settings.gracePeriod.trans spaced.grace) outside
      rw [logs] at elapsed
      exact spaced.after_over logged (timely.later.trans (timely.monotone (Nat.zero_le _)))
        last elapsed
  · exact spaced.after_over logged (le_refl _) shape.successLast (spaced.elapsed failed)

end Step

theorem spaced_of_reaches (positive : 0 < g) {start : Stored V} (alert : start.row.type = .alert)
    (grace : start.row.gracePeriod = some g) (unlogged : start.logs = [])
    (reached : Reaches step (fun s event => Timely s event.environment) start s) : Spaced g s := by
  refine reached.invariant (Spaced g) ⟨alert, grace, ?_, ?_, ?_⟩ ?_
  · simp [unlogged]
  · simp [unlogged]
  · simp [unlogged]
  · intro earlier event later spaced timely taken
    cases taken
    exact spaced.executed positive timely event.inTransaction

/-- However its executions end, the successes of an alert are logged at least a grace
period apart. -/
theorem successes_apart {start : Stored V} (positive : 0 < g) (alert : start.row.type = .alert)
    (grace : start.row.gracePeriod = some g) (unlogged : start.logs = [])
    (reached : Reaches step (fun s event => Timely s event.environment) start s) :
    (s.logs.filter isSuccess).Pairwise fun a b => a.endDttm + g * 1000000 ≤ b.endDttm :=
  (spaced_of_reaches positive alert grace unlogged reached).apart

def minuteAlert (lastState : ReportState) : ReportSchedule Nat :=
  { type := .alert, lastState := some lastState, lastValue := none, lastValueRowJson := none,
    lastEvalDttm := none, gracePeriod := some 60, workingTimeout := some 3600 }

def newAlert : Stored Nat := { row := minuteAlert .noop, logs := [], now := 0 }

def triggeredAt (now : Int) : Environment Nat :=
  { scheduledDttm := now, executionId := "run", clock := fun _ => now, logWrite := fun _ => none,
    alert := { lastValue := some 1, lastValueRowJson := none, result := .ok true },
    send := none, sendError := none }

theorem constant_timely {s : Stored V} {env : Environment V} {now : Int}
    (constant : env.clock = fun _ => now)
    (present : s.now ≤ now) : Timely s env where
  later := by
    rw [constant]
    exact present
  monotone := by
    rw [constant]
    exact fun _ _ _ => le_refl _

/-- An alert that is triggered again after a minute. -/
theorem successes_apart_minute : ∃ s : Stored Nat,
    (s.logs.filter isSuccess).map ReportExecutionLog.endDttm = [0, 60000000]
      ∧ (s.logs.filter isSuccess).Pairwise fun a b => a.endDttm + 60 * 1000000 ≤ b.endDttm := by
  have first : Reaches step (fun s event => Timely s event.environment) newAlert
      (executed newAlert (triggeredAt 0) false) :=
    Reaches.start.next (Event.execute (triggeredAt 0) false) (constant_timely rfl (by decide)) rfl
  have reached : Reaches step (fun s event => Timely s event.environment) newAlert
      (executed (executed newAlert (triggeredAt 0) false) (triggeredAt 60000000) false) :=
    first.next (Event.execute (triggeredAt 60000000) false) (constant_timely rfl (by decide)) rfl
  exact ⟨_, by decide, successes_apart (by decide) rfl rfl rfl reached⟩

/-- The schedule is handled by `ReportNotTriggeredErrorState`. -/
def NotTriggered (row : ReportSchedule V) : Prop :=
  row.lastState ≠ some .working ∧ ¬LastSucceeded row

/-- An execution of a schedule that is not triggered or in error logs a third row after it
called `send_error`. -/
def Notifies (s : Stored V) (env : Environment V) (inTransaction : Bool)
    (notification : ReportExecutionLog V) : Prop :=
  NotTriggered s.row
    ∧ ∃ working first,
      (executed s env inTransaction).logs = s.logs ++ [working, first, notification]

/-- Nothing is logged but WORKING and ERROR. -/
def OnlyErrorsLogged (s : Stored V) (event : Event V) : Prop :=
  ∃ rows, (executed s event.environment event.inTransaction).logs = s.logs ++ rows
    ∧ ∀ row ∈ rows, OnlyError row

section Notifications
variable {inTransaction : Bool} {notification : ReportExecutionLog V} {t : World V}

theorem Logged.lower {low new : Int} {rows : List (ReportExecutionLog V)}
    (logged : Logged env s low rows t) (lower : new ≤ low) : Logged env s new rows t :=
  { logged with
    started := lower.trans logged.started
    times := fun row member =>
      ⟨lower.trans (logged.times row member).1, (logged.times row member).2⟩ }

theorem Executed.logged (timely : Timely s env) (ended : Executed env s t) :
    ∃ rows, Logged env s s.now rows t := by
  rcases ended with ⟨_, rows, logged, _⟩ | ⟨_, left⟩ | ⟨_, _, rows, logged, _⟩
  · exact ⟨rows, logged⟩
  · rcases left with ⟨rows, logged, _⟩ | ⟨_, rows, logged, _⟩ | ⟨w, _, _, _, rows, logged, _⟩
    · exact ⟨rows, logged⟩
    · exact ⟨rows, logged⟩
    · exact ⟨rows, logged.lower (timely.later.trans (timely.monotone (Nat.zero_le _)))⟩
  · exact ⟨rows, logged⟩

theorem Notifies.ownersNotified (timely : Timely s env)
    (notifies : Notifies s env inTransaction notification) :
    ∃ working first, (executed s env inTransaction).logs = s.logs ++ [working, first, notification]
      ∧ OwnersNotified env s [working, first, notification]
      ∧ Logged env s s.now [working, first, notification]
        (run env inTransaction (World.loaded s.row s.logs)).2 := by
  obtain ⟨⟨idle, failed⟩, working, first, logs⟩ := notifies
  rcases run_executed timely inTransaction with ⟨isWorking, _⟩ | ⟨succeeded, _⟩ |
    ⟨_, _, rows, logged, shape⟩
  · exact (idle isWorking).elim
  · exact (failed succeeded).elim
  · have same : rows = [working, first, notification] := by
      have appended := logged.logs
      change (executed s env inTransaction).logs = s.logs ++ rows at appended
      rw [logs] at appended
      exact (append_cancel_left appended).symm
    subst same
    refine ⟨working, first, logs, ?_, logged⟩
    rcases shape with ⟨short, _⟩ | notified
    · simp at short
    · exact notified

theorem notifies_after_grace (positive : 0 < g) (grace : s.row.gracePeriod = some g)
    (timely : Timely s env) (errors : ∀ row ∈ s.logs, OnlyError row)
    {earlier : ReportExecutionLog V}
    (logged : earlier ∈ s.logs) (marked : earlier.errorMessage = some errorNotificationMarker)
    (notifies : Notifies s env inTransaction notification) :
    earlier.endDttm + g * 1000000 ≤ notification.endDttm := by
  obtain ⟨working, first, _,
    ⟨_, _, _, w, same, isWorking, isError, _, logs, settings, decided, after⟩, _⟩ :=
    notifies.ownersNotified timely
  obtain ⟨rfl, rfl, rfl⟩ : working = _ ∧ first = _ ∧ notification = _ := by simpa using same
  have allErrors : ∀ row ∈ w.logs, OnlyError row := by
    intro row member
    rw [logs] at member
    rcases mem_append.mp member with old | new
    · exact errors row old
    · rcases mem_cons.mp new with rfl | new
      · exact .inr (.inr isWorking)
      · rw [mem_singleton.mp new]
        exact .inr (.inl isError)
  have lastMarked :=
    lastLog_spec (fun log => log.errorMessage = some errorNotificationMarker) w.logs
  unfold findLastErrorNotification at decided
  cases found : lastLog (fun log => log.errorMessage = some errorNotificationMarker) w.logs with
  | none =>
    rw [found] at lastMarked
    have unmarked := lastMarked earlier (by rw [logs]; exact mem_append_left _ logged)
    simp [marked] at unmarked
  | some last =>
    rw [found] at lastMarked decided
    have latest := lastMarked.2.2 earlier (by rw [logs]; exact mem_append_left _ logged)
      (by simp [marked])
    have lastOther := lastLog_spec (fun log : ReportExecutionLog V => log.state ≠ none
      && log.state ≠ some .error && log.state ≠ some .working && log.endDttm < last.endDttm) w.logs
    dsimp only at decided
    cases other : lastLog (fun log : ReportExecutionLog V => log.state ≠ none
      && log.state ≠ some .error && log.state ≠ some .working && log.endDttm <
        last.endDttm) w.logs with
    | some row =>
      rw [other] at lastOther
      have chosen := lastOther.2.1
      simp only [Bool.and_eq_true, decide_eq_true_eq] at chosen
      rcases allErrors row lastOther.1 with none_state | error | stillWorking
      · exact (chosen.1.1.1 none_state).elim
      · exact (chosen.1.1.2 error).elim
      · exact (chosen.1.2 stillWorking).elim
    | none =>
      rw [other] at decided
      unfold graceOf at decided
      dsimp only at decided
      rw [settings.gracePeriod, grace] at decided
      have elapsed := withinGrace_eq_false positive decided
      omega

def markedError : Exception := .supersetErrors [.error errorNotificationMarker] ""

theorem firstErrorMessage_marked : firstErrorMessage markedError = errorNotificationMarker := by
  rfl

def failingAt (now : Int) : Environment V :=
  { scheduledDttm := now, executionId := "", clock := fun _ => now, logWrite := fun _ => none,
    alert := { lastValue := none, lastValueRowJson := none, result := .error markedError },
    send := some markedError, sendError := none }

section Failure
variable {now low : Int} {rows : List (ReportExecutionLog V)} {w : World V}

theorem failingAt_monotone : Monotone (failingAt now : Environment V).clock :=
  fun _ _ _ => le_refl _

theorem ends_write_failingAt (logged : Logged (failingAt now) s low rows w) (start : Int)
    (state : ReportState) (message : Option String) :
    Ends (updateReportScheduleAndLog (failingAt now) start state message) w
      (fun _ t => ∃ row, row.state = some state ∧ row.errorMessage = message ∧ now ≤ row.endDttm
        ∧ Logged (failingAt now) s low (rows ++ [row]) t)
      fun _ _ => False :=
  ((ends_write failingAt_monotone logged start state message).and
    (ends_updateReportScheduleAndLog (fun _ => rfl) ⟨rows, logged.logs⟩ start state message)).mono
    (fun _ _ both => both.1.2) fun _ _ both => both.2

theorem ends_evaluateAndSend_failingAt (logged : Logged (failingAt now) s low rows w)
    (start : Int) :
    Ends (evaluateAndSend (failingAt now) start) w (fun _ _ => False)
      fun ex t => ex = markedError ∧ Logged (failingAt now) s low rows t := by
  have sending : ∀ u, Logged (failingAt now) s low rows u →
      Ends (do
          send (failingAt now)
          updateReportScheduleAndLog (failingAt now) start .success none : Action V Unit) u
        (fun _ _ => False) fun ex t => ex = markedError ∧ Logged (failingAt now) s low rows t := by
    intro u kept
    unfold send
    refine ends_bind ((ends_outcome _).mono ?_ ?_)
    · rintro _ x ⟨sent, _⟩
      cases sent
    · rintro ex x ⟨same, rfl⟩
      exact ⟨(Option.some.inj same).symm, kept⟩
  unfold evaluateAndSend isTriggered
  refine ends_bind (ends_bind (ends_inspect ?_))
  split
  · refine ((ends_alertCommand_logged failingAt_monotone logged).and ends_alertCommand).mono ?_ ?_
    · rintro triggered t ⟨_, returned, _⟩
      cases returned
    · rintro ex t ⟨kept, same, _⟩
      exact ⟨(Except.error.inj same).symm, kept⟩
  · exact ends_pure (sending w logged)

/-- When something other than errors was logged, the next failure notifies the owners
at once. -/
theorem notifies_at_once (now : Int) {row : ReportExecutionLog V} (handled : NotTriggered s.row)
    (present : s.now ≤ now) (member : row ∈ s.logs)
    (other : ¬OnlyError row) (earlier : row.endDttm < now) :
    ∃ notification, Notifies s (failingAt now) true notification ∧ notification.endDttm ≤ now := by
  have timely : Timely s (failingAt now) := ⟨present, failingAt_monotone⟩
  have begun : Logged (failingAt now) s s.now [] (World.begun s.row s.logs) :=
    (Logged.loaded timely).quiet timely.monotone rfl rfl ⟨rfl, rfl⟩ (Nat.zero_le 1)
  have notified : Ends (notTriggeredErrorStateNext (failingAt now) now) (World.begun s.row s.logs)
      (fun _ _ => False) fun _ t => ∃ working first notification,
        Logged (failingAt now) s s.now [working, first, notification] t := by
    unfold notTriggeredErrorStateNext
    refine ends_bind ((ends_write_failingAt begun now .working none).mono ?_
      fun _ _ impossible => impossible.elim)
    rintro _ t ⟨working, _, _, _, entered⟩
    refine ends_tryExcept ((ends_evaluateAndSend_failingAt entered now).mono
      (fun _ _ impossible => impossible.elim) ?_)
    rintro ex u ⟨rfl, kept⟩
    unfold recordFirstError isInErrorGracePeriod
    refine ends_bind (ends_unlessUnexpected ((ends_write_failingAt kept now .error _).mono ?_
      fun _ _ impossible => impossible.elim))
    rintro _ x ⟨first, isError, message, time, written⟩
    have outside : graceOf (failingAt now) x (findLastErrorNotification x) = false := by
      have marked : first.errorMessage = some errorNotificationMarker := by
        rw [message, firstErrorMessage_marked]
      have firstInside : first ∈ x.logs := by rw [written.logs]; simp
      have lastMarked :=
        lastLog_spec (fun log => log.errorMessage = some errorNotificationMarker) x.logs
      unfold findLastErrorNotification
      cases found : lastLog (fun log => log.errorMessage = some errorNotificationMarker) x.logs with
      | none => rfl
      | some last =>
        rw [found] at lastMarked
        have late := lastMarked.2.2 first firstInside (by simp [marked])
        have lastOther := lastLog_spec (fun log : ReportExecutionLog V => log.state ≠ none
          && log.state ≠ some .error && log.state ≠ some .working && log.endDttm <
            last.endDttm) x.logs
        dsimp only
        cases found_other : lastLog (fun log : ReportExecutionLog V => log.state ≠ none
          && log.state ≠ some .error && log.state ≠ some .working && log.endDttm <
            last.endDttm) x.logs with
        | some _ => rfl
        | none =>
          rw [found_other] at lastOther
          have inside : row ∈ x.logs := by
            rw [written.logs]
            exact mem_append_left _ member
          have excluded := lastOther row inside
          unfold OnlyError at other
          rw [not_or, not_or] at other
          have before : row.endDttm < last.endDttm := by omega
          simp [other.1, other.2.1, other.2.2, before] at excluded
    refine ends_bind
      (ends_bind (ends_inspect ((ends_isWithinGraceOf_logged failingAt_monotone written
      _).mono ?_ fun _ _ impossible => impossible.elim)))
    rintro grace y ⟨decided, tested, _, _⟩
    rw [outside] at decided
    subst decided
    have owners : Ends (notifyOwners (failingAt now) now) y
        (fun _ z => ∃ notification, Logged (failingAt now) s s.now [working, first, notification] z)
        fun _ _ => False := by
      unfold notifyOwners sendError
      refine ends_tryFinally (ends_tryExcept ((ends_outcome _).mono ?_ ?_))
      · rintro _ z ⟨_, rfl⟩
        refine ends_unlessUnexpected ((ends_write_failingAt tested now .error _).mono ?_
          fun _ _ impossible => impossible)
        rintro _ v ⟨notification, _, _, _, done⟩
        exact ⟨notification, done⟩
      · rintro _ z ⟨failed, _⟩
        cases failed
    refine ends_bind (owners.mono ?_ fun _ _ impossible => impossible.elim)
    rintro _ z ⟨notification, done⟩
    exact ends_raise ⟨working, first, notification, done⟩
  have ran : Ends (run (failingAt now) true) (World.loaded s.row s.logs) (fun _ _ => False)
      fun _ t => ∃ working first notification,
        Logged (failingAt now) s s.now [working, first, notification] t := by
    refine ends_bind (ends_inspect ?_)
    have found : (statesCls : List (StateClass V)).find? (fun cls =>
        cls.handles (World.loaded s.row s.logs).schedule.lastState) =
        some { currentStates := [.noop,
          .error], initial := true, next := notTriggeredErrorStateNext } := by
      obtain ⟨idle, failed⟩ := handled
      unfold LastSucceeded at failed
      rw [World.loaded]
      cases last : s.row.lastState with
      | none => rfl
      | some state =>
        rw [last] at idle failed
        cases state with
        | working => exact (idle rfl).elim
        | success => exact (failed (.inl rfl)).elim
        | grace => exact (failed (.inr rfl)).elim
        | noop => rfl
        | error => rfl
    rw [found]
    exact ends_bind (ends_utcnow notified)
  obtain ⟨working, first, notification, logged⟩ :=
    (ran.mono (fun _ t impossible => (impossible.elim : ∃ working first notification,
      Logged (failingAt now) s s.now [working, first, notification] t)) fun _ _ done => done).state
  exact ⟨notification, ⟨handled, working, first, logged.logs⟩,
    (logged.times notification (by simp)).2⟩

end Failure

/-- After a notification, and as long as nothing but errors is logged, the owners are not
notified again within the grace period exactly when nothing but errors was logged before
it either. -/
theorem notifies_again_iff {u : Stored V} (positive : 0 < g) (grace : s.row.gracePeriod = some g)
    (past : ∀ row ∈ s.logs, row.endDttm ≤ s.now) (timely : Timely s env)
    (notified : Notifies s env inTransaction notification)
    (marked : notification.errorMessage = some errorNotificationMarker)
    (reached : Reaches step (fun s event => Timely s event.environment ∧ OnlyErrorsLogged s event)
      (executed s env inTransaction) u)
    (handled : NotTriggered u.row) (soon : u.now < notification.endDttm + g * 1000000) :
    (∀ later inTransaction again, Timely u later → Notifies u later inTransaction again →
        notification.endDttm + g * 1000000 ≤ again.endDttm) ↔ ∀ row ∈ s.logs, OnlyError row := by
  obtain ⟨working, first, logs, ⟨_, _, _, _, same, isWorking, isError, stillError, _⟩, logged⟩ :=
    notified.ownersNotified timely
  obtain ⟨rfl, rfl, rfl⟩ : working = _ ∧ first = _ ∧ notification = _ := by simpa using same
  -- what the notification and the errors after it leave in place
  have kept : u.row.gracePeriod = some g ∧ (∀ row ∈ u.logs, row.endDttm ≤ u.now)
      ∧ ∃ rows, u.logs = s.logs ++ rows ∧ notification ∈ rows ∧ ∀ row ∈ rows, OnlyError row := by
    refine reached.invariant (fun v => v.row.gracePeriod = some g
      ∧ (∀ row ∈ v.logs, row.endDttm ≤ v.now)
      ∧ ∃ rows, v.logs = s.logs ++ rows ∧ notification ∈ rows ∧ ∀ row ∈ rows, OnlyError row) ?_ ?_
    · refine ⟨logged.committed.gracePeriod.trans grace, logged.past logged.started past, _, logs,
        by simp, ?_⟩
      intro row member
      simp only [mem_cons, not_mem_nil, or_false] at member
      rcases member with rfl | rfl | rfl
      · exact .inr (.inr isWorking)
      · exact .inr (.inl isError)
      · exact .inr (.inl stillError)
    · rintro v event next ⟨fixed, before, rows, appended, inside, errors⟩
        ⟨onTime, more, added, moreErrors⟩ taken
      cases taken
      obtain ⟨_, ran⟩ := (run_executed onTime event.inTransaction).logged onTime
      refine ⟨ran.committed.gracePeriod.trans fixed, ran.past ran.started before, rows ++ more, ?_,
        mem_append_left _ inside, ?_⟩
      · rw [added, appended, append_assoc]
      · intro row member
        rcases mem_append.mp member with old | new
        · exact errors row old
        · exact moreErrors row new
  obtain ⟨fixed, before, rows, appended, inside, errors⟩ := kept
  refine ⟨fun spaced row member => ?_, fun onlyErrors later _ again onTime renotified => ?_⟩
  · by_contra other
    have rowTime : row.endDttm ≤ notification.endDttm :=
      (past row member).trans (logged.times notification (by simp)).1
    have rowInside : row ∈ u.logs := by
      rw [appended]
      exact mem_append_left _ member
    obtain ⟨again, renotified, soonAgain⟩ :=
      notifies_at_once (max u.now (notification.endDttm + 1)) handled
        (le_max_left _ _) rowInside other
        (by omega)
    have spacedAgain := spaced _ _ again ⟨le_max_left _ _, failingAt_monotone⟩ renotified
    omega
  · refine notifies_after_grace positive fixed onTime ?_ ?_ marked renotified
    · intro row member
      rw [appended] at member
      rcases mem_append.mp member with old | new
      · exact onlyErrors row old
      · exact errors row new
    · rw [appended]
      exact mem_append_right _ inside

end Notifications

def brokenAt (now : Int) : Environment Nat :=
  { triggeredAt now with
    alert := { lastValue := none, lastValueRowJson := none,
               result := .error (.supersetErrors [.error "query failed"] "") } }

theorem notTriggered_of_state {row : ReportSchedule V}
    (state : row.lastState = some .noop ∨ row.lastState = some .error) : NotTriggered row := by
  rcases state with noop | error
  · simp [NotTriggered, LastSucceeded, noop]
  · simp [NotTriggered, LastSucceeded, error]

theorem brokenAt_notifies (now : Int) (s : Stored Nat)
    (working first notification : ReportExecutionLog Nat)
    (handled : NotTriggered s.row)
    (logs : (executed s (brokenAt now) false).logs = s.logs ++ [working, first, notification]) :
    Notifies s (brokenAt now) false notification := ⟨handled, working, first, logs⟩

def brokenLog (now : Int) (state : ReportState) (message : Option String) :
    ReportExecutionLog Nat :=
  { scheduledDttm := now, startDttm := now, endDttm := now, value := none, valueRowJson := none,
    state := some state, errorMessage := message, uuid := "run" }

def notifiedRows (now : Int) : List (ReportExecutionLog Nat) :=
  [brokenLog now .working none, brokenLog now .error (some "query failed"),
    brokenLog now .error (some errorNotificationMarker)]

def minutes (n : Nat) : Int := n * 60000000

/-- The alert has notified of a failure before. -/
def failedBefore : Stored Nat := executed newAlert (brokenAt 0) false

/-- A minute later it fails and notifies, and half a minute later it fails once more. -/
def failedTwice : Stored Nat :=
  executed (executed failedBefore (brokenAt (minutes 1)) false)
    (brokenAt (minutes 1 + 30000000)) false

/-- An alert that has only ever failed notifies again after another minute. -/
theorem notifies_again_minute : failedBefore.logs = notifiedRows 0 ∧
    failedTwice.logs = notifiedRows 0 ++ notifiedRows (minutes 1) ++
      [brokenLog (minutes 1 + 30000000) .working none,
        brokenLog (minutes 1 + 30000000) .error (some "query failed")] ∧
    ∃ first again : ReportExecutionLog Nat,
      Notifies failedBefore (brokenAt (minutes 1)) false first
        ∧ Notifies failedTwice (brokenAt (minutes 2)) false again
        ∧ first.endDttm + 60 * 1000000 ≤ again.endDttm := by
  have before : failedBefore.logs = notifiedRows 0 := by decide
  have first : Notifies failedBefore (brokenAt (minutes 1)) false
      (brokenLog (minutes 1) .error (some errorNotificationMarker)) :=
    brokenAt_notifies (minutes 1) failedBefore (brokenLog (minutes 1) .working none)
      (brokenLog (minutes 1) .error (some "query failed")) _ (notTriggered_of_state (.inr rfl))
        (by decide)
  have between : OnlyErrorsLogged (executed failedBefore (brokenAt (minutes 1)) false)
      (Event.execute (brokenAt (minutes 1 + 30000000)) false) := by
    refine ⟨[brokenLog (minutes 1 + 30000000) .working none,
      brokenLog (minutes 1 + 30000000) .error (some "query failed")], by decide, ?_⟩
    simp [OnlyError, brokenLog]
  have again : Notifies failedTwice (brokenAt (minutes 2)) false
      (brokenLog (minutes 2) .error (some errorNotificationMarker)) :=
    brokenAt_notifies (minutes 2) failedTwice (brokenLog (minutes 2) .working none)
      (brokenLog (minutes 2) .error (some "query failed")) _ (notTriggered_of_state (.inr rfl))
        (by decide)
  refine ⟨before, by decide, _, _, first, again, ?_⟩
  have spaced := notifies_again_iff (g := 60) (by decide) rfl (by decide)
    (constant_timely rfl (by decide)) first rfl
    (Reaches.start.next (Event.execute (brokenAt (minutes 1 + 30000000)) false)
      ⟨constant_timely rfl (by decide), between⟩ rfl) (notTriggered_of_state (.inr rfl)) (by decide)
  refine spaced.mpr ?_ (brokenAt (minutes 2)) false _ (constant_timely rfl (by decide)) again
  rw [before]
  simp [OnlyError, notifiedRows, brokenLog]

def quietAlert : Stored Nat := (executed newAlert { triggeredAt 0 with
  alert := { lastValue := some 0, lastValueRowJson := none, result := .ok false } } false)

/-- It notifies its owners twice within a second. -/
theorem notifies_within_grace : ∃ first again : ReportExecutionLog Nat,
    Notifies quietAlert (brokenAt 1000000) false first
      ∧ first.errorMessage = some errorNotificationMarker
      ∧ Notifies (executed quietAlert (brokenAt 1000000) false) (brokenAt 2000000) false again
      ∧ again.errorMessage = some errorNotificationMarker ∧
      again.endDttm < first.endDttm + 60 * 1000000 := by
  have first := brokenAt_notifies 1000000 quietAlert _ _ _ (notTriggered_of_state (.inl rfl)) rfl
  have again := brokenAt_notifies 2000000 (executed quietAlert (brokenAt 1000000) false) _ _ _
    (notTriggered_of_state (.inr rfl)) rfl
  exact ⟨_, _, first, rfl, again, rfl, by decide⟩

end Liteset.Reports
