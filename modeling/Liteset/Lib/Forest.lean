import Mathlib.Logic.Relation

/-!
# Rearranging a forest

A forest is a relation between a parent and its children in which nothing has two
parents.  `Under edge a b` says that `b` is `a` or below it.  Cutting a subtree off
and hanging it elsewhere keeps everything else where it was.
-/

set_option autoImplicit false

namespace Liteset.Lib.Forest

variable {α : Type}

/-- `b` is in the subtree of `a`. -/
abbrev Under (edge : α → α → Prop) (a b : α) : Prop := Relation.ReflTransGen edge a b

def SingleParent (edge : α → α → Prop) : Prop := ∀ p q c, edge p c → edge q c → p = q

def Acyclic (edge : α → α → Prop) : Prop := ∀ k, ¬Relation.TransGen edge k k

section Under
variable {edge : α → α → Prop} {a b c p root : α}

/-- What has a parent below `a` or is `a` itself. -/
theorem under_cases (reached : Under edge a c) : a = c ∨ ∃ p, Under edge a p ∧ edge p c := by
  rcases Relation.ReflTransGen.cases_tail_iff edge a c |>.mp reached with same | ⟨p, up, last⟩
  · exact Or.inl same.symm
  · exact Or.inr ⟨p, up, last⟩

/-- With one parent each, the way down to `c` goes through the parent of `c`. -/
theorem under_parent (single : SingleParent edge) (parent : edge p c) (reached : Under edge a c) :
    a = c ∨ Under edge a p := by
  rcases under_cases reached with same | ⟨q, up, last⟩
  · exact Or.inl same
  · exact Or.inr (single q p c last parent ▸ up)

theorem under_leaf (leaf : ∀ c, ¬edge a c) (reached : Under edge a b) : b = a := by
  induction reached with
  | refl => rfl
  | tail up last ih =>
    subst ih
    exact (leaf _ last).elim

theorem not_under_of_parents_inside (inside : α → Prop)
    (closed : ∀ p c, edge p c → inside c → inside p) (out : ¬inside a) (member : inside b) :
    ¬Under edge a b := by
  intro reached
  induction reached with
  | refl => exact out member
  | tail up last ih => exact ih (closed _ _ last member)

theorem not_cyclic_of_under (single : SingleParent edge) (top : ∀ p, ¬edge p root)
    (reached : Under edge root c) : ¬Relation.TransGen edge c c := by
  induction reached with
  | refl =>
    intro cycle
    obtain ⟨p, _, last⟩ := Relation.TransGen.tail'_iff.mp cycle
    exact top p last
  | tail up last ih =>
    intro cycle
    apply ih
    obtain ⟨q, above, back⟩ := Relation.TransGen.tail'_iff.mp cycle
    rw [single _ _ _ back last] at above
    exact Relation.TransGen.head' last above

end Under

section Rearrange
variable {before after : α → α → Prop} {root x d k : α}

theorem under_mono (kept : ∀ i j, before i j → after i j) (reached : Under before root k) :
    Under after root k :=
  Relation.ReflTransGen.mono kept root k reached

/-- What is not in the subtree of `x` is still reached when only edges into that
subtree are cut. -/
theorem under_pruned (kept : ∀ j k, before j k → ¬Under before x k → after j k)
    (reached : Under before root k) (outside : ¬Under before x k) : Under after root k := by
  induction reached with
  | refl => exact Relation.ReflTransGen.refl
  | tail up last ih =>
    have parentOutside := fun inside : Under before x _ => outside (inside.tail last)
    exact (ih parentOutside).tail (kept _ _ last outside)

/-- Edges that start outside the tree bring nothing into it. -/
theorem under_of_outside (new : ∀ j k, after j k → before j k ∨ ¬Under before root j)
    (reached : Under after root k) : Under before root k := by
  induction reached with
  | refl => exact Relation.ReflTransGen.refl
  | @tail j k _ last ih =>
    rcases new j k last with old | outside
    · exact ih.tail old
    · exact (outside ih).elim

theorem under_kept {newParent : α → Option α}
    (kept : ∀ j k, before j k → newParent k = none → after j k)
    (clear : ∀ k, Under before k d → newParent k = none) (reached : Under before root d) :
    Under after root d := by
  induction reached with
  | refl => exact Relation.ReflTransGen.refl
  | @tail j k up last ih =>
    have above := ih fun i way => clear i (way.tail last)
    exact above.tail (kept j k last (clear k Relation.ReflTransGen.refl))

theorem under_reparented {newParent : α → Option α}
    (kept : ∀ j k, before j k → newParent k = none → after j k)
    (moved : ∀ k, newParent k ≠ none → Under after root k) (reached : Under before root k) :
    Under after root k := by
  induction reached with
  | refl => exact Relation.ReflTransGen.refl
  | @tail j k up last ih =>
    by_cases old : newParent k = none
    · exact ih.tail (kept j k last old)
    · exact moved k old

end Rearrange

end Liteset.Lib.Forest
