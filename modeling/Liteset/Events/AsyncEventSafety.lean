import Liteset.Events.AsyncEvent

/-!
# When the promise of a job is settled

A listener is removed by the first event it is called with, whatever its status.
So the promise is settled exactly when that event is the terminal one.
-/

set_option autoImplicit false

namespace Liteset.Events.Client

open Liteset.Lib Liteset.Lib.Runs List

def Settles (e : AsyncEvent) (o : Outcome) : Prop :=
  (e.status = .done ∧ ∃ response : CachedDataResponse, o = response.outcome)
    ∨ (e.status = .error ∧ o = .rejectEvent e)

def Fetching (s : State) (j : String) : Prop := ∃ f ∈ s.fetches, f.jobId = j

structure Inv (j : String) (inFlight : Option AsyncEvent) (s : State) : Prop where
  idle : s.waiting j = false →
    s.handed j = none ∧ s.listenersByJobId j = false ∧ s.promise j = none ∧ ¬Fetching s j
  armed : s.waiting j = true → s.handed j = none →
    s.listenersByJobId j = true ∧ s.promise j = none ∧ ¬Fetching s j
  settling : ∀ e, s.handed j = some e → e.terminal = true → s.promise j ≠ none ∨ Fetching s j
  lost : ∀ e, s.handed j = some e → e.terminal = false →
    s.listenersByJobId j = false ∧ s.promise j = none ∧ ¬Fetching s j
  fetches : ∀ f ∈ s.fetches, f ∈ s.delivered ∧ f.status = .done
  timers : ∀ e ∈ s.timers, e ∈ s.delivered
  outcome : ∀ o, s.promise j = some o → ∃ e ∈ s.delivered, e.jobId = j ∧ Settles e o
  /-- No event of the job is lost before the first one is handed over. -/
  kept : ∀ e ∈ s.delivered, e.jobId = j →
    e ∈ s.timers ∨ e ∈ s.missed ∨ s.handed j ≠ none ∨ inFlight = some e

section
variable {s : State} {j : String} {e : AsyncEvent} {inFlight : Option AsyncEvent}

theorem Inv.setLastId (inv : Inv j inFlight s) : Inv j inFlight (setLastId s e) :=
  ⟨inv.idle, inv.armed, inv.settling, inv.lost, inv.fetches, inv.timers, inv.outcome, inv.kept⟩

theorem Inv.deleteRetries (inv : Inv j inFlight s) (k : String) :
    Inv j inFlight (deleteRetries s k) :=
  ⟨inv.idle, inv.armed, inv.settling, inv.lost, inv.fetches, inv.timers, inv.outcome, inv.kept⟩

theorem inv_start (j : String) : Inv j none start := by
  refine ⟨fun _ => ⟨rfl, rfl, rfl, ?_⟩, ?_, ?_, ?_, ?_, ?_, ?_, ?_⟩
  · simp [Fetching, start]
  all_goals simp [start]

theorem Inv.retryLater (inv : Inv j (some e) s) (delivered : e ∈ s.delivered)
    (free : s.listenersByJobId e.jobId = false) : Inv j none (retryLater s e) := by
  unfold Client.retryLater
  by_cases budget : s.retriesByJobId e.jobId + 1 ≤ maxRetries
  · rw [if_pos budget]
    refine ⟨inv.idle, inv.armed, inv.settling, inv.lost, inv.fetches, ?_, inv.outcome, ?_⟩
    · intro d held
      rcases mem_append.mp held with old | new
      · exact inv.timers d old
      · rw [mem_singleton.mp new]
        exact delivered
    · intro d known ofJob
      obtain held | missed | handed | flying := inv.kept d known ofJob
      · exact .inl (mem_append_left _ held)
      · exact .inr (.inl missed)
      · exact .inr (.inr (.inl handed))
      · rw [← Option.some.inj flying]
        exact .inl (mem_append_right _ (mem_singleton.mpr rfl))
  · rw [if_neg budget]
    refine ⟨inv.idle, inv.armed, inv.settling, inv.lost, inv.fetches, inv.timers, inv.outcome, ?_⟩
    intro d known ofJob
    obtain held | missed | handed | flying := inv.kept d known ofJob
    · exact .inl held
    · refine .inr (.inl ?_)
      show d ∈ if s.waiting e.jobId then s.missed else s.missed ++ [e]
      split
      · exact missed
      · exact mem_append_left _ missed
    · exact .inr (.inr (.inl handed))
    · have isEvent := Option.some.inj flying
      cases waiting : s.waiting j with
      | false =>
        refine .inr (.inl ?_)
        show d ∈ if s.waiting e.jobId then s.missed else s.missed ++ [e]
        rw [isEvent, ofJob, waiting]
        exact mem_append_right _ (mem_singleton.mpr rfl)
      | true =>
        -- the job is waited for but has no listener: it was called already
        refine .inr (.inr (.inl ?_))
        intro notHanded
        have listens := (inv.armed waiting notHanded).1
        rw [isEvent, ofJob] at free
        rw [free] at listens
        exact absurd listens (by decide)

theorem Inv.ofOther {t : State} (inv : Inv j (some e) s) (other : e.jobId ≠ j)
    (waiting : t.waiting j = s.waiting j) (handed : t.handed j = s.handed j)
    (listens : t.listenersByJobId j = s.listenersByJobId j) (promise : t.promise j = s.promise j)
    (fetching : Fetching t j ↔ Fetching s j)
    (fetches : ∀ f ∈ t.fetches, f ∈ s.delivered ∧ f.status = .done) (timers : t.timers = s.timers)
    (missed : t.missed = s.missed) (delivered : t.delivered = s.delivered) : Inv j none t := by
  refine ⟨?_, ?_, ?_, ?_, ?_, ?_, ?_, ?_⟩
  · rw [waiting, handed, listens, promise, fetching]
    exact inv.idle
  · rw [waiting, handed, listens, promise, fetching]
    exact inv.armed
  · rw [handed, promise, fetching]
    exact inv.settling
  · rw [handed, listens, promise, fetching]
    exact inv.lost
  · rw [delivered]
    exact fetches
  · rw [timers, delivered]
    exact inv.timers
  · rw [promise, delivered]
    exact inv.outcome
  · rw [delivered, timers, missed, handed]
    intro d known ofJob
    obtain held | isMissed | isHanded | flying := inv.kept d known ofJob
    · exact .inl held
    · exact .inr (.inl isMissed)
    · exact .inr (.inr (.inl isHanded))
    · exact (other (by rw [Option.some.inj flying, ofJob])).elim

theorem fetching_append {t : State} (other : e.jobId ≠ j) (fetches : t.fetches = s.fetches ++ [e]) :
    Fetching t j ↔ Fetching s j := by
  unfold Fetching
  rw [fetches]
  refine ⟨?_, ?_⟩
  · intro found
    obtain ⟨f, listed, ofJob⟩ := found
    rcases mem_append.mp listed with old | new
    · exact ⟨f, old, ofJob⟩
    · rw [mem_singleton.mp new] at ofJob
      exact (other ofJob).elim
  · intro found
    obtain ⟨f, listed, ofJob⟩ := found
    exact ⟨f, mem_append_left _ listed, ofJob⟩

theorem Inv.listener_other (inv : Inv j (some e) s) (delivered : e ∈ s.delivered)
    (other : e.jobId ≠ j) : Inv j none (listener (recordHanded s e) e) := by
  have apart : j ≠ e.jobId := Ne.symm other
  have doneCase : e.status = .done →
      Inv j none { recordHanded s e with fetches := s.fetches ++ [e] } := by
    intro done
    refine inv.ofOther other rfl (set_other apart) rfl rfl (fetching_append other rfl) ?_
      rfl rfl rfl
    intro f listed
    rcases mem_append.mp listed with old | new
    · exact inv.fetches f old
    · rw [mem_singleton.mp new]
      exact ⟨delivered, done⟩
  have removed : Inv j none (removeListener (recordHanded s e) e.jobId) :=
    inv.ofOther other rfl (set_other apart) (set_other apart) rfl Iff.rfl inv.fetches rfl rfl rfl
  unfold listener
  cases status : e.status with
  | done => exact doneCase status
  | error =>
    exact inv.ofOther other rfl (set_other apart) (set_other apart) (set_other apart) Iff.rfl
      inv.fetches rfl rfl rfl
  | pending => exact removed
  | running => exact removed
  | unknown text => exact removed

theorem Inv.listening (inv : Inv j inFlight s) (listens : s.listenersByJobId j = true) :
    s.waiting j = true ∧ ((s.handed j = none ∧ s.promise j = none ∧ ¬Fetching s j)
      ∨ ∃ f, s.handed j = some f ∧ f.terminal = true) := by
  have waiting : s.waiting j = true := by
    by_contra idle
    have noListener := (inv.idle (by simpa using idle)).2.1
    rw [listens] at noListener
    exact absurd noListener (by decide)
  refine ⟨waiting, ?_⟩
  cases handed : s.handed j with
  | none =>
    obtain ⟨-, unsettled, noFetch⟩ := inv.armed waiting handed
    exact .inl ⟨rfl, unsettled, noFetch⟩
  | some f =>
    refine .inr ⟨f, rfl, ?_⟩
    by_contra early
    have noListener := (inv.lost f handed (by simpa using early)).1
    rw [listens] at noListener
    exact absurd noListener (by decide)

theorem handed_recordHanded (s : State) (e : AsyncEvent) :
    (recordHanded s e).handed e.jobId = some ((s.handed e.jobId).getD e) := set_self _ _ _

theorem Inv.ofOwn {t : State} (inv : Inv e.jobId (some e) s)
    (waiting : t.waiting e.jobId = true)
    (handed : t.handed e.jobId = some ((s.handed e.jobId).getD e))
    (settling : ((s.handed e.jobId).getD e).terminal = true →
      t.promise e.jobId ≠ none ∨ Fetching t e.jobId)
    (lost : ((s.handed e.jobId).getD e).terminal = false →
      t.listenersByJobId e.jobId = false ∧ t.promise e.jobId = none ∧ ¬Fetching t e.jobId)
    (fetches : ∀ f ∈ t.fetches, f ∈ s.delivered ∧ f.status = .done)
    (outcome : ∀ o, t.promise e.jobId = some o → ∃ d ∈ s.delivered, d.jobId = e.jobId ∧ Settles d o)
    (timers : t.timers = s.timers) (delivered : t.delivered = s.delivered) :
    Inv e.jobId none t := by
  refine ⟨?_, ?_, ?_, ?_, ?_, ?_, ?_, ?_⟩
  · intro idle
    rw [waiting] at idle
    exact absurd idle (by decide)
  · intro _ none
    rw [handed] at none
    exact absurd none (by simp)
  · intro f isHanded terminal
    rw [handed] at isHanded
    rw [← Option.some.inj isHanded] at terminal
    exact settling terminal
  · intro f isHanded early
    rw [handed] at isHanded
    rw [← Option.some.inj isHanded] at early
    exact lost early
  · rw [delivered]
    exact fetches
  · rw [timers, delivered]
    exact inv.timers
  · rw [delivered]
    exact outcome
  · intro d _ _
    refine .inr (.inr (.inl ?_))
    rw [handed]
    simp

theorem terminal_of_done (done : e.status = .done) : e.terminal = true := by
  simp [AsyncEvent.terminal, done]

theorem terminal_of_error (failed : e.status = .error) : e.terminal = true := by
  simp [AsyncEvent.terminal, failed]

theorem Inv.listener_own (inv : Inv e.jobId (some e) s) (delivered : e ∈ s.delivered)
    (listens : s.listenersByJobId e.jobId = true) :
    Inv e.jobId none (listener (recordHanded s e) e) := by
  obtain ⟨waiting, before⟩ := inv.listening listens
  have firstTerminal : e.terminal = true → ((s.handed e.jobId).getD e).terminal = true := by
    intro terminal
    obtain ⟨none, -, -⟩ | ⟨f, handed, isTerminal⟩ := before
    · simpa [none] using terminal
    · simpa [handed] using isTerminal
  -- a first event that is not terminal leaves a job without listener, promise or fetch
  have removed : e.terminal = false →
      Inv e.jobId none (removeListener (recordHanded s e) e.jobId) := by
    intro early
    refine inv.ofOwn waiting (handed_recordHanded s e) ?_ ?_ inv.fetches inv.outcome rfl rfl
    · intro terminal
      obtain ⟨none, -, -⟩ | ⟨f, handed, isTerminal⟩ := before
      · simp [none, early] at terminal
      · exact inv.settling f handed isTerminal
    · intro notTerminal
      obtain ⟨-, unsettled, noFetch⟩ | ⟨f, handed, isTerminal⟩ := before
      · exact ⟨set_self _ _ _, unsettled, noFetch⟩
      · simp [handed, isTerminal] at notTerminal
  unfold listener
  cases status : e.status with
  | done =>
    have terminal := terminal_of_done status
    refine inv.ofOwn waiting (handed_recordHanded s e) ?_ ?_ ?_ inv.outcome rfl rfl
    · intro _
      exact .inr ⟨e, mem_append_right _ (mem_singleton.mpr rfl), rfl⟩
    · intro early
      rw [firstTerminal terminal] at early
      exact absurd early (by decide)
    · intro f listed
      rcases mem_append.mp listed with old | new
      · exact inv.fetches f old
      · rw [mem_singleton.mp new]
        exact ⟨delivered, status⟩
  | error =>
    have terminal := terminal_of_error status
    have promise :
      (removeListener (settle (recordHanded s e) e.jobId (.rejectEvent e)) e.jobId).promise
        e.jobId = some ((s.promise e.jobId).getD (.rejectEvent e)) := set_self _ _ _
    refine inv.ofOwn waiting (handed_recordHanded s e) ?_ ?_ inv.fetches ?_ rfl rfl
    · intro _
      refine .inl ?_
      rw [promise]
      simp
    · intro early
      rw [firstTerminal terminal] at early
      exact absurd early (by decide)
    · intro o settled
      rw [promise] at settled
      cases old : s.promise e.jobId with
      | none =>
        rw [old] at settled
        exact ⟨e, delivered, rfl, .inr ⟨status, (Option.some.inj settled).symm⟩⟩
      | some first =>
        rw [old] at settled
        exact inv.outcome o (old.trans settled)
  | pending => exact removed (by simp [AsyncEvent.terminal, status])
  | running => exact removed (by simp [AsyncEvent.terminal, status])
  | unknown text => exact removed (by simp [AsyncEvent.terminal, status])

theorem Inv.processEvent (inv : Inv j (some e) s) (delivered : e ∈ s.delivered) :
    Inv j none (processEvent s e) := by
  unfold Client.processEvent
  refine Inv.setLastId ?_
  by_cases listens : s.listenersByJobId e.jobId = true
  · rw [if_pos listens]
    refine Inv.deleteRetries ?_ _
    by_cases own : e.jobId = j
    · subst own
      exact inv.listener_own delivered listens
    · exact inv.listener_other delivered own
  · rw [if_neg listens]
    exact inv.retryLater delivered (by simpa using listens)

theorem mem_or_eq_of_eraseIdx {items : List AsyncEvent} {i : Nat} {d : AsyncEvent}
    (here : items[i]? = some e) (listed : d ∈ items) : d ∈ items.eraseIdx i ∨ d = e := by
  obtain ⟨m, found⟩ := mem_iff_getElem?.mp listed
  by_cases same : m = i
  · rw [same, here] at found
    exact .inr (Option.some.inj found).symm
  · exact .inl (mem_eraseIdx_iff_getElem?.mpr ⟨m, same, found⟩)

theorem Inv.deliver (inv : Inv j none s) (e : AsyncEvent) : Inv j none (deliver s e) := by
  have known : ∀ d ∈ s.delivered, d ∈ s.delivered ++ [e] := fun d => mem_append_left [e]
  refine Inv.processEvent ?_ (mem_append_right _ (mem_singleton.mpr rfl))
  refine ⟨inv.idle, inv.armed, inv.settling, inv.lost, ?_, ?_, ?_, ?_⟩
  · intro f listed
    exact ⟨known f (inv.fetches f listed).1, (inv.fetches f listed).2⟩
  · intro d listed
    exact known d (inv.timers d listed)
  · intro o settled
    obtain ⟨d, listed, result⟩ := inv.outcome o settled
    exact ⟨d, known d listed, result⟩
  · intro d listed ofJob
    rcases mem_append.mp listed with old | new
    · obtain held | missed | handed | flying := inv.kept d old ofJob
      · exact .inl held
      · exact .inr (.inl missed)
      · exact .inr (.inr (.inl handed))
      · exact absurd flying (by simp)
    · rw [mem_singleton.mp new]
      exact .inr (.inr (.inr rfl))

theorem Inv.timer {i : Nat} (inv : Inv j none s) (here : s.timers[i]? = some e) :
    Inv j none (Client.processEvent { s with timers := s.timers.eraseIdx i } e) := by
  refine Inv.processEvent ?_ (inv.timers e (mem_of_getElem? here))
  refine ⟨inv.idle, inv.armed, inv.settling, inv.lost, inv.fetches, ?_, inv.outcome, ?_⟩
  · intro d held
    exact inv.timers d (mem_of_mem_eraseIdx held)
  · intro d listed ofJob
    obtain held | missed | handed | flying := inv.kept d listed ofJob
    · rcases mem_or_eq_of_eraseIdx here held with stays | fired
      · exact .inl stays
      · exact .inr (.inr (.inr (by rw [fired])))
    · exact .inr (.inl missed)
    · exact .inr (.inr (.inl handed))
    · exact absurd flying (by simp)

theorem Inv.wait {k : String} (inv : Inv j none s) (first : s.waiting k = false) :
    Inv j none (waitForAsyncData s k) := by
  by_cases own : j = k
  · subst own
    obtain ⟨notHanded, -, unsettled, noFetch⟩ := inv.idle first
    refine ⟨?_, ?_, inv.settling, ?_, inv.fetches, inv.timers, inv.outcome, inv.kept⟩
    · intro idle
      exact absurd idle (by simp [waitForAsyncData, addListener])
    · intro _ _
      exact ⟨set_self _ _ _, unsettled, noFetch⟩
    · intro f handed
      exact absurd (notHanded.symm.trans handed) (by simp)
  · have listens : (waitForAsyncData s k).listenersByJobId j = s.listenersByJobId j := set_other own
    have waits : (waitForAsyncData s k).waiting j = s.waiting j := set_other own
    refine ⟨?_, ?_, inv.settling, ?_, inv.fetches, inv.timers, inv.outcome, inv.kept⟩
    · rw [waits, listens]
      exact inv.idle
    · rw [waits, listens]
      exact inv.armed
    · rw [listens]
      exact inv.lost

theorem Inv.handed_of_fetching (inv : Inv j none s) (fetching : Fetching s j) :
    s.waiting j = true ∧ ∃ f, s.handed j = some f ∧ f.terminal = true := by
  have waiting : s.waiting j = true := by
    by_contra idle
    exact (inv.idle (by simpa using idle)).2.2.2 fetching
  refine ⟨waiting, ?_⟩
  cases handed : s.handed j with
  | none => exact ((inv.armed waiting handed).2.2 fetching).elim
  | some f =>
    refine ⟨f, rfl, ?_⟩
    by_contra early
    exact (inv.lost f handed (by simpa using early)).2.2 fetching

theorem Inv.fetched {i : Nat} (inv : Inv j none s) (here : s.fetches[i]? = some e)
    (response : CachedDataResponse) :
    Inv j none (listenerDone { s with fetches := s.fetches.eraseIdx i } e.jobId response) := by
  have listed : e ∈ s.fetches := mem_of_getElem? here
  have fetches : ∀ f ∈ s.fetches.eraseIdx i, f ∈ s.delivered ∧ f.status = .done :=
    fun f left => inv.fetches f (mem_of_mem_eraseIdx left)
  by_cases own : j = e.jobId
  · subst own
    obtain ⟨waiting, f, handed, terminal⟩ := inv.handed_of_fetching ⟨e, listed, rfl⟩
    have promise :
      (listenerDone { s with fetches := s.fetches.eraseIdx i } e.jobId response).promise
        e.jobId = some ((s.promise e.jobId).getD response.outcome) := set_self _ _ _
    refine ⟨?_, ?_, ?_, ?_, fetches, inv.timers, ?_, inv.kept⟩
    · intro idle
      exact absurd (waiting.symm.trans idle) (by simp)
    · intro _ none
      exact absurd (handed.symm.trans none) (by simp)
    · intro _ _ _
      refine .inl ?_
      rw [promise]
      simp
    · intro g isHanded early
      rw [Option.some.inj (handed.symm.trans isHanded)] at terminal
      rw [early] at terminal
      exact absurd terminal (by decide)
    · intro o settled
      rw [promise] at settled
      cases old : s.promise e.jobId with
      | none =>
        rw [old] at settled
        exact ⟨e, (inv.fetches e listed).1, rfl,
          .inl ⟨(inv.fetches e listed).2, response, (Option.some.inj settled).symm⟩⟩
      | some first =>
        rw [old] at settled
        exact inv.outcome o (old.trans settled)
  · have listens :
      (listenerDone { s with fetches := s.fetches.eraseIdx i } e.jobId response).listenersByJobId
        j = s.listenersByJobId j := set_other own
    have promise :
      (listenerDone { s with fetches := s.fetches.eraseIdx i } e.jobId response).promise
        j = s.promise j := set_other own
    have fetching :
      Fetching (listenerDone { s with fetches := s.fetches.eraseIdx i } e.jobId response) j
        ↔ Fetching s j := by
      refine ⟨?_, ?_⟩
      · intro found
        obtain ⟨f, left, ofJob⟩ := found
        exact ⟨f, mem_of_mem_eraseIdx left, ofJob⟩
      · intro found
        obtain ⟨f, left, ofJob⟩ := found
        rcases mem_or_eq_of_eraseIdx here left with stays | fired
        · exact ⟨f, stays, ofJob⟩
        · exact (own (by rw [← ofJob, fired])).elim
    refine ⟨?_, ?_, ?_, ?_, fetches, inv.timers, ?_, inv.kept⟩
    · rw [listens, promise, fetching]
      exact inv.idle
    · rw [listens, promise, fetching]
      exact inv.armed
    · rw [promise, fetching]
      exact inv.settling
    · rw [listens, promise, fetching]
      exact inv.lost
    · rw [promise]
      exact inv.outcome

theorem Inv.step {a : Action} {t : State} (inv : Inv j none s) (taken : step s a = some t) :
    Inv j none t := by
  unfold Client.step at taken
  cases a with
  | wait k =>
    by_cases again : s.waiting k = true
    · simp [again] at taken
    · simp only [again] at taken
      obtain rfl := Option.some.inj taken
      exact inv.wait (by simpa using again)
  | deliver e =>
    obtain rfl := Option.some.inj taken
    exact inv.deliver e
  | timer i =>
    cases here : s.timers[i]? with
    | none => simp [here] at taken
    | some e =>
      simp only [here] at taken
      obtain rfl := Option.some.inj taken
      exact inv.timer here
  | fetched i response =>
    cases here : s.fetches[i]? with
    | none => simp [here] at taken
    | some e =>
      simp only [here] at taken
      obtain rfl := Option.some.inj taken
      exact inv.fetched here response

theorem inv_of_reaches (reached : Reaches step anyStep start s) (j : String) : Inv j none s :=
  reached.invariant (Inv j none) (inv_start j) fun _ _ _ inv _ taken => inv.step taken

theorem promise_settle {o : Outcome} (settled : s.promise j = some o) (k : String)
    (other : Outcome) :
    (settle s k other).promise j = some o := by
  by_cases own : j = k
  · subst own
    show set s.promise j _ j = some o
    rw [set_self, settled]
    rfl
  · exact (set_other own).trans settled

theorem promise_processEvent {o : Outcome} (settled : s.promise j = some o) (e : AsyncEvent) :
    (processEvent s e).promise j = some o := by
  show (if s.listenersByJobId e.jobId then _ else _ : State).promise j = some o
  split
  · show (listener (recordHanded s e) e).promise j = some o
    unfold listener
    cases e.status with
    | error => exact promise_settle (s := recordHanded s e) settled _ _
    | done => exact settled
    | pending => exact settled
    | running => exact settled
    | unknown text => exact settled
  · unfold retryLater
    split
    · exact settled
    · exact settled

theorem promise_step {o : Outcome} {a : Action} {t : State} (settled : s.promise j = some o)
    (taken : step s a = some t) : t.promise j = some o := by
  unfold step at taken
  cases a with
  | wait k =>
    by_cases again : s.waiting k = true
    · simp [again] at taken
    · simp only [again] at taken
      obtain rfl := Option.some.inj taken
      exact settled
  | deliver e =>
    obtain rfl := Option.some.inj taken
    exact promise_processEvent (s := { s with delivered := s.delivered ++ [e] }) settled e
  | timer i =>
    cases here : s.timers[i]? with
    | none => simp [here] at taken
    | some e =>
      simp only [here] at taken
      obtain rfl := Option.some.inj taken
      exact promise_processEvent (s := { s with timers := s.timers.eraseIdx i }) settled e
  | fetched i response =>
    cases here : s.fetches[i]? with
    | none => simp [here] at taken
    | some e =>
      simp only [here] at taken
      obtain rfl := Option.some.inj taken
      exact promise_settle (s := { s with fetches := s.fetches.eraseIdx i }) settled _ _

/-- The job is waited for, its one terminal event was delivered (perhaps twice) and not
given up before there was a listener, and nothing of the job is under way. -/
structure Delivered (s : State) (j : String) (e : AsyncEvent) : Prop where
  waiting : s.waiting j = true
  delivered : e ∈ s.delivered
  ofJob : e.jobId = j
  terminal : e.terminal = true
  only : ∀ d ∈ s.delivered, d.jobId = j → d.terminal = true → d = e
  notMissed : e ∉ s.missed
  noTimers : ∀ d ∈ s.timers, d.jobId ≠ j
  noFetches : ¬Fetching s j

/-- The promise is settled with the outcome of the event, now and from now on. -/
def SettledOnce (s : State) (j : String) (e : AsyncEvent) : Prop :=
  ∃ o, Settles e o ∧ ∀ u, Reaches step anyStep s u → u.promise j = some o

/-- The first event that reached the listener is a terminal one. -/
def FirstTerminal (s : State) (j : String) : Prop :=
  ∃ f, s.handed j = some f ∧ f.terminal = true

theorem settles_terminal {o : Outcome} (settles : Settles e o) : e.terminal = true := by
  rcases settles with done | failed
  · exact terminal_of_done done.1
  · exact terminal_of_error failed.1

theorem settledOnce_iff (reached : Reaches step anyStep start s) (job : Delivered s j e) :
    SettledOnce s j e ↔ FirstTerminal s j := by
  have inv := inv_of_reaches reached j
  refine ⟨?_, ?_⟩
  · intro once
    obtain ⟨o, -, stays⟩ := once
    have settled : s.promise j = some o := stays s Reaches.start
    cases handed : s.handed j with
    | none => exact absurd ((inv.armed job.waiting handed).2.1.symm.trans settled) (by simp)
    | some f =>
      refine ⟨f, handed, ?_⟩
      by_contra early
      have unsettled := (inv.lost f handed (by simpa using early)).2.1
      exact absurd (unsettled.symm.trans settled) (by simp)
  · intro first
    obtain ⟨f, handed, terminal⟩ := first
    have settled := (inv.settling f handed terminal).resolve_right job.noFetches
    cases promise : s.promise j with
    | none => exact (settled promise).elim
    | some o =>
      obtain ⟨d, delivered, ofJob, settles⟩ := inv.outcome o promise
      have isEvent : d = e := job.only d delivered ofJob (settles_terminal settles)
      refine ⟨o, isEvent ▸ settles, ?_⟩
      intro u later
      exact later.invariant (fun t => t.promise j = some o) promise
        fun _ _ _ before _ taken => promise_step before taken

end

end Liteset.Events.Client
