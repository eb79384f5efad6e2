import Liteset.Tasks.SqlLab

/-!
# A stopped query stays stopped when the worker looks first

The worker looks at the status at the head of the loop and after an ordinary error
of a block.  A stop is final exactly when one of these comes before the worker's
next write of a status.
-/

set_option autoImplicit false

namespace Liteset.Tasks.SqlLab

open Liteset.Lib.Runs

variable {o : Outcomes} {w v : World}

def FinishKeeps (o : Outcomes) : Prop :=
  o.recorded = false ∧ (o.blocks = [] ∨ o.finish = .raises)

def LoopKeeps (o : Outcomes) (rest : List Block) : Prop := rest ≠ [] ∨ FinishKeeps o

def ResultKeeps (o : Outcomes) (b : Block) (rest : List Block) : Prop :=
  match b.result with
  | .success => LoopKeeps o rest
  | .timeLimit | .oauth2Redirect => False
  | .error readable => readable = true

def BlockKeeps (o : Outcomes) (b : Block) (rest : List Block) : Prop :=
  if b.mutated then ResultKeeps o b rest else o.recorded = false

def SetupKeeps (o : Outcomes) : Prop :=
  if o.setUp then LoopKeeps o o.blocks else o.recorded = false

/-- From here the worker looks at the status before it writes one, or writes none. -/
def LooksFirst (o : Outcomes) (w : World) : Prop :=
  match w.pc with
  | .fetch => o.prepared = false ∧ o.recorded = false
  | .fetched =>
    if o.prepared then w.loaded = some .running ∧ SetupKeeps o else o.recorded = false
  | .setup => SetupKeeps o
  | .cancelKey => LoopKeeps o o.blocks
  | .block rest => LoopKeeps o rest
  | .progress b rest => BlockKeeps o b rest
  | .mutated b rest | .executing _ b rest => ResultKeeps o b rest
  | .finish => FinishKeeps o
  | .failing | .succeed | .recording => False
  | .returning => o.returned = true ∨ o.recorded = false
  | .unhandled => o.recorded = false
  | .done => True

structure Final (o : Outcomes) (w : World) : Prop where
  stopped : w.row = .stopped
  looks : LooksFirst o w

theorem Final.endBlock {b : Block} {rest : List Block} (final : Final o w)
    (keeps : ResultKeeps o b rest) : Final o (endBlock w b.result rest) := by
  obtain ⟨stopped, -⟩ := final
  unfold ResultKeeps at keeps
  unfold SqlLab.endBlock
  cases result : b.result with
  | success =>
    rw [result] at keeps
    exact ⟨stopped, keeps⟩
  | timeLimit =>
    rw [result] at keeps
    exact keeps.elim
  | oauth2Redirect =>
    rw [result] at keeps
    exact keeps.elim
  | error readable =>
    simp only [result] at keeps
    simp only [keeps, if_true, if_pos stopped]
    exact ⟨stopped, trivial⟩

theorem Final.endLoop (final : Final o w) (keeps : FinishKeeps o) : Final o (endLoop o w) := by
  obtain ⟨unrecorded, noResult⟩ := keeps
  unfold SqlLab.endLoop
  by_cases empty : o.blocks = []
  · rw [if_pos empty]
    exact ⟨final.stopped, unrecorded⟩
  · rw [if_neg empty, noResult.resolve_left empty]
    exact ⟨final.stopped, unrecorded⟩

theorem Final.worker (final : Final o w) (taken : worker o w = some v) : Final o v := by
  have keepsLooking := final.looks
  have stopped := final.stopped
  unfold LooksFirst at keepsLooking
  unfold SqlLab.worker at taken
  cases at_pc : w.pc with
  | fetch =>
    simp only [at_pc, Option.some.injEq] at taken keepsLooking
    subst taken
    refine ⟨stopped, ?_⟩
    simp [LooksFirst, World.refresh, keepsLooking]
  | fetched =>
    simp only [at_pc, Option.some.injEq] at taken keepsLooking
    subst taken
    by_cases prepared : o.prepared = true
    · simp only [prepared, if_true] at keepsLooking ⊢
      refine ⟨?_, keepsLooking.2⟩
      simp [World.commitStatus, keepsLooking.1, stopped]
    · simp only [prepared] at keepsLooking ⊢
      exact ⟨stopped, keepsLooking⟩
  | setup =>
    simp only [at_pc, Option.some.injEq, SetupKeeps] at taken keepsLooking
    subst taken
    by_cases setUp : o.setUp = true
    · simp only [setUp, if_true] at keepsLooking ⊢
      cases o.cancelId with
      | true => exact ⟨stopped, keepsLooking⟩
      | false => exact ⟨stopped, keepsLooking⟩
    · simp only [setUp] at keepsLooking ⊢
      exact ⟨stopped, keepsLooking⟩
  | cancelKey =>
    simp only [at_pc, Option.some.injEq] at taken keepsLooking
    subst taken
    exact ⟨stopped, keepsLooking⟩
  | block rest =>
    cases rest with
    | nil =>
      simp only [at_pc, Option.some.injEq] at taken keepsLooking
      subst taken
      exact ⟨stopped, keepsLooking.resolve_left fun some => some rfl⟩
    | cons b rest =>
      simp only [at_pc, Option.some.injEq, if_pos stopped] at taken
      subst taken
      exact ⟨stopped, trivial⟩
  | progress b rest =>
    simp only [at_pc, Option.some.injEq, BlockKeeps] at taken keepsLooking
    subst taken
    by_cases mutated : b.mutated = true
    · simp only [mutated, if_true] at keepsLooking ⊢
      exact ⟨stopped, keepsLooking⟩
    · simp only [mutated] at keepsLooking ⊢
      exact ⟨stopped, keepsLooking⟩
  | mutated b rest =>
    simp only [at_pc, Option.some.injEq] at taken keepsLooking
    subst taken
    exact ⟨stopped, keepsLooking⟩
  | executing polls b rest =>
    cases polls with
    | zero =>
      simp only [at_pc, Option.some.injEq] at taken keepsLooking
      subst taken
      exact final.endBlock keepsLooking
    | succ polls =>
      simp only [at_pc, Option.some.injEq] at taken keepsLooking
      subst taken
      exact ⟨stopped, keepsLooking⟩
  | finish =>
    simp only [at_pc, Option.some.injEq] at taken keepsLooking
    subst taken
    exact final.endLoop keepsLooking
  | returning =>
    simp only [at_pc, Option.some.injEq] at taken keepsLooking
    subst taken
    by_cases returned : o.returned = true
    · simp only [returned, if_true]
      exact ⟨stopped, trivial⟩
    · simp only [returned]
      exact ⟨stopped, keepsLooking.resolve_left returned⟩
  | unhandled =>
    simp only [at_pc, Option.some.injEq] at taken keepsLooking
    subst taken
    simp only [keepsLooking]
    exact ⟨stopped, trivial⟩
  | failing => simp [at_pc] at keepsLooking
  | succeed => simp [at_pc] at keepsLooking
  | recording => simp [at_pc] at keepsLooking
  | done => simp [at_pc] at taken

theorem stop_eq_some {w v : World} (taken : stop w = some v) :
    w.row.terminal = false ∧ v = { w with row := .stopped } := by
  unfold stop at taken
  by_cases terminal : w.row.terminal = true
  · simp [terminal] at taken
  · simp only [terminal] at taken
    exact ⟨by simpa using terminal, (Option.some.inj taken).symm⟩

theorem Final.step {event : Event} (final : Final o w) (taken : step o w event = some v) :
    Final o v := by
  cases event with
  | worker => exact final.worker taken
  | stop =>
    obtain ⟨-, rfl⟩ := stop_eq_some taken
    exact ⟨rfl, final.looks⟩

def Pc.underWay : Pc → Bool
  | .setup | .cancelKey | .block _ | .progress _ _ | .mutated _ _ | .executing _ _ _ | .failing
  | .finish | .succeed => true
  | _ => false

def QueryStatus.alive (status : QueryStatus) : Prop := status = .running ∨ status = .stopped

/-- While the query is under way the row is running or stopped, and so is the status
in the session; what the session loaded before a commit can only have been stopped. -/
structure Sane (w : World) : Prop where
  row : w.pc.underWay = true → w.row.alive
  loaded : w.pc.underWay = true → ∀ status, w.loaded = some status → status.alive
  fetched : w.pc = .fetched → w.loaded = some .running → w.row.alive
  recording : w.pc = .recording → w.loaded = some .failed → w.row = .failed

theorem not_alive_failed : ¬QueryStatus.failed.alive := by simp [QueryStatus.alive]

theorem not_alive_success : ¬QueryStatus.success.alive := by simp [QueryStatus.alive]

theorem Sane.loaded_ne {status : QueryStatus} (sane : Sane w) (here : w.pc.underWay = true)
    (other : ¬status.alive) : w.loaded ≠ some status :=
  fun isLoaded => other (sane.loaded here status isLoaded)

theorem Sane.refresh (pc : Pc) (row : pc.underWay = true → w.row.alive) : Sane (w.refresh pc) := by
  refine ⟨row, ?_, ?_, ?_⟩
  · intro here status isRow
    rw [← Option.some.inj isRow]
    exact row here
  · intro _ running
    exact .inl (Option.some.inj running)
  · intro _ failed
    exact Option.some.inj failed

theorem sane_of_expired (expired : w.loaded = none) (row : w.pc.underWay = true → w.row.alive) :
    Sane w := by
  refine ⟨row, ?_, ?_, ?_⟩
  · intro _ status isLoaded
    simp [expired] at isLoaded
  · intro _ running
    simp [expired] at running
  · intro _ failed
    simp [expired] at failed

theorem Sane.goto (sane : Sane w) (here : w.pc.underWay = true) (pc : Pc)
    (notFetched : pc ≠ .fetched) (notHandler : pc ≠ .recording) : Sane (w.goto pc) :=
  ⟨fun _ => sane.row here, fun _ => sane.loaded here, fun isFetched => (notFetched isFetched).elim,
    fun isHandler => (notHandler isHandler).elim⟩

theorem sane_of_away (away : w.pc.underWay = false) (notFetched : w.pc ≠ .fetched)
    (notHandler : w.pc ≠ .recording) : Sane w := by
  refine ⟨?_, ?_, fun here => (notFetched here).elim, fun here => (notHandler here).elim⟩
  · intro here
    simp [away] at here
  · intro here
    simp [away] at here

theorem Sane.endBlock (sane : Sane w) (here : w.pc.underWay = true) (result : BlockResult)
    (rest : List Block) : Sane (endBlock w result rest) := by
  unfold SqlLab.endBlock
  cases result with
  | success => exact sane.goto here _ (by simp) (by simp)
  | timeLimit => exact sane.goto here _ (by simp) (by simp)
  | oauth2Redirect => exact sane.goto here _ (by simp) (by simp)
  | error readable =>
    cases readable with
    | false => exact sane.goto here _ (by simp) (by simp)
    | true =>
      simp only [if_true]
      split
      · exact Sane.refresh _ fun _ => sane.row here
      · exact Sane.refresh _ fun _ => sane.row here

theorem Sane.endLoop (sane : Sane w) (here : w.pc.underWay = true) : Sane (endLoop o w) := by
  unfold SqlLab.endLoop
  split
  · exact sane.goto here _ (by simp) (by simp)
  · cases o.finish with
    | raises => exact sane.goto here _ (by simp) (by simp)
    | notStored =>
      exact sane_of_away rfl (by simp [World.commitStatus]) (by simp [World.commitStatus])
    | stored => exact sane.goto here _ (by simp) (by simp)

theorem Sane.worker (sane : Sane w) (taken : worker o w = some v) : Sane v := by
  unfold SqlLab.worker at taken
  cases at_pc : w.pc with
  | fetch =>
    simp only [at_pc, Option.some.injEq] at taken
    subst taken
    refine Sane.refresh _ fun here => ?_
    simp [Pc.underWay] at here
  | fetched =>
    simp only [at_pc, Option.some.injEq] at taken
    subst taken
    cases o.prepared with
    | false => exact sane_of_away rfl (by simp [World.goto]) (by simp [World.goto])
    | true =>
      refine sane_of_expired rfl fun _ => ?_
      -- RUNNING is not written when the session already holds it
      by_cases same : w.loaded = some .running
      · have alive := sane.fetched at_pc same
        simpa [QueryStatus.alive, World.commitStatus, same] using alive
      · exact .inl (if_neg same)
  | setup =>
    have here : w.pc.underWay = true := by simp [at_pc, Pc.underWay]
    simp only [at_pc, Option.some.injEq] at taken
    subst taken
    split
    · split
      · exact sane.goto here _ (by simp) (by simp)
      · exact sane.goto here _ (by simp) (by simp)
    · exact sane.goto here _ (by simp) (by simp)
  | cancelKey =>
    have here : w.pc.underWay = true := by simp [at_pc, Pc.underWay]
    simp only [at_pc, Option.some.injEq] at taken
    subst taken
    exact sane_of_expired rfl fun _ => sane.row here
  | block rest =>
    have here : w.pc.underWay = true := by simp [at_pc, Pc.underWay]
    cases rest with
    | nil =>
      simp only [at_pc, Option.some.injEq] at taken
      subst taken
      exact sane.goto here _ (by simp) (by simp)
    | cons b rest =>
      simp only [at_pc, Option.some.injEq] at taken
      subst taken
      split
      · exact Sane.refresh _ fun _ => sane.row here
      · exact Sane.refresh _ fun _ => sane.row here
  | progress b rest =>
    have here : w.pc.underWay = true := by simp [at_pc, Pc.underWay]
    simp only [at_pc, Option.some.injEq] at taken
    subst taken
    exact sane_of_expired rfl fun _ => sane.row here
  | mutated b rest =>
    have here : w.pc.underWay = true := by simp [at_pc, Pc.underWay]
    simp only [at_pc, Option.some.injEq] at taken
    subst taken
    exact Sane.refresh _ fun _ => sane.row here
  | executing polls b rest =>
    have here : w.pc.underWay = true := by simp [at_pc, Pc.underWay]
    cases polls with
    | zero =>
      simp only [at_pc, Option.some.injEq] at taken
      subst taken
      exact sane.endBlock here _ _
    | succ polls =>
      simp only [at_pc, Option.some.injEq] at taken
      subst taken
      exact Sane.refresh _ fun _ => sane.row here
  | finish =>
    have here : w.pc.underWay = true := by simp [at_pc, Pc.underWay]
    simp only [at_pc, Option.some.injEq] at taken
    subst taken
    exact sane.endLoop here
  | succeed =>
    simp only [at_pc, Option.some.injEq] at taken
    subst taken
    split
    · exact sane_of_away rfl (by simp [World.commit]) (by simp [World.commit])
    · exact sane_of_away rfl (by simp [World.commitStatus]) (by simp [World.commitStatus])
  | returning =>
    simp only [at_pc, Option.some.injEq] at taken
    subst taken
    cases o.returned with
    | true => exact sane_of_away rfl (by simp [World.goto]) (by simp [World.goto])
    | false => exact sane_of_away rfl (by simp [World.goto]) (by simp [World.goto])
  | unhandled =>
    simp only [at_pc, Option.some.injEq] at taken
    subst taken
    cases o.recorded with
    | true =>
      refine Sane.refresh _ fun here => ?_
      simp [Pc.underWay] at here
    | false => exact sane_of_away rfl (by simp [World.goto]) (by simp [World.goto])
  | failing =>
    simp only [at_pc, Option.some.injEq] at taken
    subst taken
    exact sane_of_away rfl (by simp [World.commitStatus]) (by simp [World.commitStatus])
  | recording =>
    simp only [at_pc, Option.some.injEq] at taken
    subst taken
    exact sane_of_away rfl (by simp [World.commitStatus]) (by simp [World.commitStatus])
  | done => simp [at_pc] at taken

theorem Sane.step {event : Event} (sane : Sane w) (taken : step o w event = some v) : Sane v := by
  cases event with
  | worker => exact sane.worker taken
  | stop =>
    obtain ⟨live, rfl⟩ := stop_eq_some taken
    refine ⟨fun _ => .inr rfl, sane.loaded, fun _ _ => .inr rfl, ?_⟩
    intro here failed
    -- a failed row is not stopped any more
    rw [sane.recording here failed] at live
    exact absurd live (by decide)

theorem sane_of_reaches {row : QueryStatus} (reached : Reaches (step o) anyStep (start row) w) :
    Sane w :=
  reached.invariant Sane (sane_of_away rfl (by simp [start]) (by simp [start]))
    fun _ _ _ sane _ taken => sane.step taken

def Pc.rank : Pc → Nat
  | .done => 0
  | .recording | .failing => 1
  | .unhandled => 2
  | .succeed | .returning => 3
  | .finish => 4
  | .block _ => 5
  | .cancelKey => 6
  | .setup => 7
  | .fetched => 8
  | .fetch => 9
  | .executing polls _ _ => 6 + polls
  | .mutated b _ => 7 + b.polls
  | .progress b _ => 8 + b.polls

def Closer (o : Outcomes) (w v : World) : Prop :=
  v.row ≠ .stopped ∨ (v.row = .stopped ∧ ¬LooksFirst o v ∧ v.pc.rank < w.pc.rank)

theorem closer_goto {pc : Pc} (stopped : w.row = .stopped) (blind : ¬LooksFirst o (w.goto pc))
    (closer : pc.rank < w.pc.rank) : Closer o w (w.goto pc) := .inr ⟨stopped, blind, closer⟩

theorem closer_endBlock {b : Block} {rest : List Block} (stopped : w.row = .stopped)
    (at_pc : w.pc = .executing 0 b rest) (blind : ¬ResultKeeps o b rest) :
    Closer o w (endBlock w b.result rest) := by
  unfold ResultKeeps at blind
  unfold endBlock
  cases result : b.result with
  | success =>
    simp only [result] at blind
    refine closer_goto stopped blind ?_
    simp [at_pc, Pc.rank]
  | timeLimit =>
    refine closer_goto stopped id ?_
    simp [at_pc, Pc.rank]
  | oauth2Redirect =>
    refine closer_goto stopped id ?_
    simp [at_pc, Pc.rank]
  | error readable =>
    simp only [result, Bool.not_eq_true] at blind
    simp only [blind]
    refine closer_goto stopped id ?_
    simp [at_pc, Pc.rank]

theorem closer_endLoop (stopped : w.row = .stopped) (at_pc : w.pc = .finish)
    (sane : Sane w) (blind : ¬FinishKeeps o) : Closer o w (endLoop o w) := by
  have here : w.pc.underWay = true := by simp [at_pc, Pc.underWay]
  unfold endLoop
  by_cases empty : o.blocks = []
  · rw [if_pos empty]
    refine closer_goto stopped (fun unrecorded => blind ⟨unrecorded, .inl empty⟩) ?_
    simp [at_pc, Pc.rank]
  · rw [if_neg empty]
    cases finish : o.finish with
    | raises =>
      refine closer_goto stopped (fun unrecorded => blind ⟨unrecorded, .inr finish⟩) ?_
      simp [at_pc, Pc.rank]
    | notStored =>
      refine .inl ?_
      simp [World.commitStatus, sane.loaded_ne here not_alive_failed]
    | stored =>
      refine closer_goto stopped id ?_
      simp [at_pc, Pc.rank]

theorem closer_worker (sane : Sane w) (stopped : w.row = .stopped) (blind : ¬LooksFirst o w) :
    ∃ v, worker o w = some v ∧ Closer o w v := by
  unfold worker
  unfold LooksFirst at blind
  cases at_pc : w.pc with
  | fetch =>
    simp only [at_pc] at blind
    refine ⟨_, rfl, .inr ⟨stopped, ?_, by simp [World.refresh, at_pc, Pc.rank]⟩⟩
    intro looks
    unfold LooksFirst World.refresh at looks
    by_cases prepared : o.prepared = true
    · simp [prepared, stopped] at looks
    · simp only [prepared] at looks
      exact blind ⟨by simpa using prepared, looks⟩
  | fetched =>
    simp only [at_pc] at blind
    refine ⟨_, rfl, ?_⟩
    by_cases prepared : o.prepared = true
    · simp only [prepared, if_true] at blind ⊢
      by_cases same : w.loaded = some .running
      · refine .inr ⟨?_, fun looks => blind ⟨same, looks⟩, by
          simp [World.commitStatus, at_pc, Pc.rank]⟩
        simp [World.commitStatus, same, stopped]
      · refine .inl ?_
        simp [World.commitStatus, same]
    · simp only [prepared] at blind ⊢
      exact closer_goto stopped blind (by simp [at_pc, Pc.rank])
  | setup =>
    simp only [at_pc, SetupKeeps] at blind
    refine ⟨_, rfl, ?_⟩
    by_cases setUp : o.setUp = true
    · simp only [setUp, if_true] at blind ⊢
      cases o.cancelId with
      | true => exact closer_goto stopped blind (by simp [at_pc, Pc.rank])
      | false => exact closer_goto stopped blind (by simp [at_pc, Pc.rank])
    · simp only [setUp] at blind ⊢
      exact closer_goto stopped blind (by simp [at_pc, Pc.rank])
  | cancelKey =>
    simp only [at_pc] at blind
    exact ⟨_, rfl, .inr ⟨stopped, blind, by simp [World.commit, at_pc, Pc.rank]⟩⟩
  | block rest =>
    simp only [at_pc] at blind
    cases rest with
    | nil =>
      refine ⟨_, rfl, closer_goto stopped ?_ (by simp [at_pc, Pc.rank])⟩
      exact fun looks => blind (.inr looks)
    | cons b rest => exact (blind (.inl (List.cons_ne_nil _ _))).elim
  | progress b rest =>
    simp only [at_pc, BlockKeeps] at blind
    refine ⟨_, rfl, ?_⟩
    by_cases mutated : b.mutated = true
    · simp only [mutated, if_true] at blind ⊢
      exact .inr ⟨stopped, blind, by simp [World.commit, at_pc, Pc.rank]⟩
    · simp only [mutated] at blind ⊢
      refine .inr ⟨stopped, blind, ?_⟩
      show 2 < w.pc.rank
      simp only [at_pc, Pc.rank]
      omega
  | mutated b rest =>
    simp only [at_pc] at blind
    exact ⟨_, rfl, .inr ⟨stopped, blind, by simp [World.refresh, at_pc, Pc.rank]⟩⟩
  | executing polls b rest =>
    simp only [at_pc] at blind
    cases polls with
    | zero => exact ⟨_, rfl, closer_endBlock stopped at_pc blind⟩
    | succ polls =>
      exact ⟨_, rfl, .inr ⟨stopped, blind, by simp [World.refresh, at_pc, Pc.rank]⟩⟩
  | finish =>
    simp only [at_pc] at blind
    exact ⟨_, rfl, closer_endLoop stopped at_pc sane blind⟩
  | succeed =>
    have here : w.pc.underWay = true := by simp [at_pc, Pc.underWay]
    have notFailed : w.status ≠ .failed := by
      unfold World.status
      cases isLoaded : w.loaded with
      | none => simp [stopped]
      | some status =>
        rcases sane.loaded here status isLoaded with running | isStopped
        · simp [running]
        · simp [isStopped]
    refine ⟨_, rfl, .inl ?_⟩
    simp [World.commitStatus, notFailed, sane.loaded_ne here not_alive_success]
  | returning =>
    simp only [at_pc, not_or] at blind
    refine ⟨_, rfl, ?_⟩
    simp only [blind.1]
    exact closer_goto stopped blind.2 (by simp [at_pc, Pc.rank])
  | unhandled =>
    simp only [at_pc, Bool.not_eq_false] at blind
    refine ⟨_, rfl, ?_⟩
    simp only [blind, if_true]
    exact .inr ⟨stopped, id, by simp [World.refresh, at_pc, Pc.rank]⟩
  | failing =>
    have here : w.pc.underWay = true := by simp [at_pc, Pc.underWay]
    refine ⟨_, rfl, .inl ?_⟩
    simp [World.commitStatus, sane.loaded_ne here not_alive_failed]
  | recording =>
    have notFailed : w.loaded ≠ some .failed := by
      intro failed
      rw [sane.recording at_pc failed] at stopped
      exact absurd stopped (by decide)
    refine ⟨_, rfl, .inl ?_⟩
    simp [World.commitStatus, notFailed]
  | done => simp [at_pc] at blind

theorem overwritten_of_blind (left : Nat) (sane : Sane w) (stopped : w.row = .stopped)
    (blind : ¬LooksFirst o w) (bound : w.pc.rank ≤ left) :
    ∃ v, Reaches (step o) anyStep w v ∧ v.row ≠ .stopped := by
  induction left generalizing w with
  | zero =>
    obtain ⟨v, taken, closer⟩ := closer_worker sane stopped blind
    have first : Reaches (step o) anyStep w v := Reaches.next .worker Reaches.start trivial taken
    rcases closer with changed | ⟨-, -, nearer⟩
    · exact ⟨v, first, changed⟩
    · omega
  | succ left ih =>
    obtain ⟨v, taken, closer⟩ := closer_worker sane stopped blind
    have first : Reaches (step o) anyStep w v := Reaches.next .worker Reaches.start trivial taken
    rcases closer with changed | ⟨still, stillBlind, nearer⟩
    · exact ⟨v, first, changed⟩
    · obtain ⟨u, rest, changed⟩ := ih (sane.worker taken) still stillBlind (by omega)
      exact ⟨u, first.trans rest, changed⟩

/-- In every run and for every outcome of the blocks, a stop that is committed stays
exactly if the worker looks at the status before it next writes one. -/
theorem stays_stopped_iff {row : QueryStatus} (reached : Reaches (step o) anyStep (start row) w)
    (stopping : step o w .stop = some v) :
    (∀ u, Reaches (step o) anyStep v u → u.row = .stopped) ↔ LooksFirst o w := by
  have sane : Sane v := (sane_of_reaches reached).step stopping
  obtain ⟨-, rfl⟩ := stop_eq_some stopping
  refine ⟨?_, ?_⟩
  · intro stays
    by_contra blind
    obtain ⟨u, later, changed⟩ := overwritten_of_blind (o := o) _ sane rfl blind (Nat.le_refl _)
    exact changed (stays u later)
  · intro looks u later
    have final : Final o { w with row := .stopped } := ⟨rfl, looks⟩
    exact (later.invariant (Final o) final fun _ _ _ before _ taken => before.step taken).stopped

def twoBlocks : Outcomes where
  prepared := true
  setUp := true
  cancelId := true
  blocks := [⟨true, 1, .success⟩, ⟨true, 0, .success⟩]
  finish := .stored
  returned := true
  recorded := true

/-- A stop during the first of two blocks is final: the loop looks before the second. -/
theorem stays_stopped_first_of_two :
    ∃ w v, Reaches (step twoBlocks) anyStep (start .pending) w
      ∧ w.pc = .executing 1 ⟨true, 1, .success⟩ [⟨true, 0, .success⟩]
      ∧ step twoBlocks w .stop = some v ∧ ∀ u, Reaches (step twoBlocks) anyStep v u →
      u.row = .stopped := by
  obtain ⟨w, reached, at_pc, stopping⟩ :=
    exists_reaches_of_runWithin (step twoBlocks) anyStep (start .pending)
      [.worker, .worker, .worker, .worker, .worker, .worker, .worker]
      (fun w => w.pc = .executing 1 ⟨true, 1, .success⟩ [⟨true, 0, .success⟩]
        ∧ step twoBlocks w .stop = some { w with row := .stopped }) (by decide)
  refine ⟨w, _, reached, at_pc, stopping, (stays_stopped_iff reached stopping).mpr ?_⟩
  unfold LooksFirst
  rw [at_pc]
  exact .inl (List.cons_ne_nil _ _)

def oneBlock : Outcomes := { twoBlocks with blocks := [⟨true, 0, .success⟩] }

/-- A stop during the last block, which then succeeds, is overwritten by SUCCESS. -/
theorem not_stays_stopped_last_block :
    ¬∀ (o : Outcomes) (row : QueryStatus) (w v u : World),
      Reaches (step o) anyStep (start row) w → step o w .stop = some v →
      Reaches (step o) anyStep v u → u.row = .stopped := by
  intro claim
  obtain ⟨w, reached, stopping, overwritten⟩ :=
    exists_reaches_of_runWithin (step oneBlock) anyStep
      (start .pending) [.worker, .worker, .worker, .worker, .worker, .worker, .worker]
      (fun w => step oneBlock w .stop
          = some { w with row := .stopped }
        ∧ ((runWithin (step oneBlock) anyStep
            { w with row := .stopped } [.worker, .worker, .worker, .worker]).any
              fun u => u.row = .success) = true) (by decide)
  obtain ⟨u, later, success⟩ := exists_reaches_of_runWithin _ anyStep _ _
    (fun u : World => u.row = .success) overwritten
  have stays := claim _ _ w _ u reached stopping later
  rw [success] at stays
  exact absurd stays (by decide)

end Liteset.Tasks.SqlLab
