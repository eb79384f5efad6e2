import Mathlib.Data.List.Basic

/-!
# Runs of a labelled transition system

A system is a partial step function `step : σ → α → Option σ`.  `Reaches step
allowed s t` says that `t` ends a run from `s` all of whose steps are `allowed`
in the state they are taken from.  An invariant is checked once per step and
then holds in every state reached; a concrete run is found by evaluation.
-/

set_option autoImplicit false

namespace Liteset.Lib.Runs

variable {σ α : Type}

inductive Reaches (step : σ → α → Option σ) (allowed : σ → α → Prop) (s : σ) : σ → Prop
  | start : Reaches step allowed s s
  | next {t u : σ} (a : α) : Reaches step allowed s t → allowed t a → step t a = some u →
      Reaches step allowed s u

/-- No restriction on the steps. -/
def anyStep (_ : σ) (_ : α) : Prop := True

instance (s : σ) (a : α) : Decidable (anyStep s a) := inferInstanceAs (Decidable True)

section Invariant
variable {step : σ → α → Option σ} {allowed : σ → α → Prop} {s t : σ}

/-- What holds at the start and is kept by every allowed step holds in every
state reached. -/
theorem Reaches.invariant (Inv : σ → Prop) (initial : Inv s)
    (kept : ∀ t a u, Inv t → allowed t a → step t a = some u → Inv u)
    (reached : Reaches step allowed s t) : Inv t := by
  induction reached with
  | start => exact initial
  | next a earlier ok taken ih => exact kept _ a _ ih ok taken

theorem Reaches.trans {u : σ} (first : Reaches step allowed s t)
    (second : Reaches step allowed t u) : Reaches step allowed s u := by
  induction second with
  | start => exact first
  | next a earlier ok taken ih => exact Reaches.next a ih ok taken

theorem Reaches.first (reached : Reaches step allowed s t) :
    t = s ∨ ∃ a u, allowed s a ∧ step s a = some u ∧ Reaches step allowed u t := by
  induction reached with
  | start => exact Or.inl rfl
  | next a earlier ok taken ih =>
    rcases ih with rfl | ⟨b, u, okFirst, takenFirst, rest⟩
    · exact Or.inr ⟨a, _, ok, taken, Reaches.start⟩
    · exact Or.inr ⟨b, u, okFirst, takenFirst, rest.next a ok taken⟩

end Invariant

section Evaluate
variable (step : σ → α → Option σ) (allowed : σ → α → Prop)
  [∀ s a, Decidable (allowed s a)]

def runWithin : σ → List α → Option σ
  | s, [] => some s
  | s, a :: rest =>
    if allowed s a then
      match step s a with
      | none => none
      | some t => runWithin t rest
    else none

theorem runWithin_cons {s t : σ} {a : α} (rest : List α) (ok : allowed s a)
    (taken : step s a = some t) :
    runWithin step allowed s (a :: rest) = runWithin step allowed t rest := by
  rw [runWithin, if_pos ok, taken]

theorem reaches_of_runWithin (s t : σ) (actions : List α)
    (run : runWithin step allowed s actions = some t) : Reaches step allowed s t := by
  induction actions generalizing s with
  | nil =>
    cases run
    exact Reaches.start
  | cons a rest ih =>
    simp only [runWithin] at run
    split at run
    · rename_i ok
      cases taken : step s a with
      | none => simp [taken] at run
      | some u =>
        rw [taken] at run
        exact (Reaches.next a Reaches.start ok taken).trans (ih u run)
    · cases run

/-- Where each allowed step does a piece of the work, a run has at most as many steps as
pieces done; just as many where its steps do one piece each. -/
theorem length_of_runWithin (Inv : σ → Prop) (work : σ → Nat) (single : α → Prop)
    (lowers : ∀ s a t, Inv s → allowed s a → step s a = some t →
      Inv t ∧ work t + 1 ≤ work s ∧ (single a → work t + 1 = work s)) {s t : σ} (actions : List α)
    (initial : Inv s) (run : runWithin step allowed s actions = some t) :
    Inv t ∧ work t + actions.length ≤ work s ∧
      ((∀ a ∈ actions, single a) → work t + actions.length = work s) := by
  induction actions generalizing s with
  | nil =>
    cases run
    exact ⟨initial, Nat.le_refl _, fun _ => rfl⟩
  | cons a rest ih =>
    simp only [runWithin] at run
    split at run
    · next ok =>
      split at run
      · cases run
      · next u taken =>
        obtain ⟨here, less, exact⟩ := lowers s a u initial ok taken
        obtain ⟨there, restLess, restExact⟩ := ih here run
        refine ⟨there, by rw [List.length_cons]; omega, fun all => ?_⟩
        have first := exact (all a List.mem_cons_self)
        have others := restExact fun b member => all b (List.mem_cons_of_mem a member)
        rw [List.length_cons]
        omega
    · cases run

theorem exists_reaches_of_runWithin (s : σ) (actions : List α) (P : σ → Prop) [DecidablePred P]
    (found : ((runWithin step allowed s actions).any fun t => P t) = true) :
    ∃ t, Reaches step allowed s t ∧ P t := by
  cases run : runWithin step allowed s actions with
  | none => simp [run] at found
  | some t =>
    rw [run] at found
    exact ⟨t, reaches_of_runWithin step allowed s t actions run, by simpa using found⟩

end Evaluate

section Everywhere
variable (step : σ → α → Option σ)

/-- Every step that is taken satisfies `P`. -/
def Everywhere (P : σ → α → σ → Prop) : σ → List α → Prop
  | _, [] => True
  | s, a :: rest => ∀ t, step s a = some t → P s a t ∧ Everywhere P t rest

/-- A property of the steps that is as good as a condition on them, as long as an
invariant holds that the property itself carries on. -/
theorem everywhere_iff (Inv : σ → Prop) {domain ok : σ → α → Prop} {P : σ → α → σ → Prop}
    (exactly : ∀ s a t, Inv s → domain s a → step s a = some t → (P s a t ↔ ok s a))
    (kept : ∀ s a t, Inv s → domain s a → step s a = some t → P s a t → Inv t)
    {s : σ} (actions : List α) (initial : Inv s)
    (within : Everywhere step (fun s a _ => domain s a) s actions) :
    Everywhere step P s actions ↔ Everywhere step (fun s a _ => ok s a) s actions := by
  induction actions generalizing s with
  | nil => exact Iff.rfl
  | cons a rest ih =>
    constructor
    · intro holds t taken
      have here := holds t taken
      have inDomain := within t taken
      exact ⟨(exactly s a t initial inDomain.1 taken).mp here.1,
        (ih (kept s a t initial inDomain.1 taken here.1) inDomain.2).mp here.2⟩
    · intro allOk t taken
      have here := allOk t taken
      have inDomain := within t taken
      have property := (exactly s a t initial inDomain.1 taken).mpr here.1
      exact ⟨property, (ih (kept s a t initial inDomain.1 taken property) inDomain.2).mpr here.2⟩

theorem everywhere_true (s : σ) (actions : List α) :
    Everywhere step (fun _ _ _ => True) s actions := by
  induction actions generalizing s with
  | nil => trivial
  | cons a rest ih => exact fun t _ => ⟨trivial, ih t⟩

end Everywhere

end Liteset.Lib.Runs
