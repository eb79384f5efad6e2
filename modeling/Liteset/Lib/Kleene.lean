import Liteset.Lib.Condition

/-!
# Three-valued conjunctions and disjunctions of lists

A conjunction is false as soon as one member is, and true only if all members are; what
remains is unknown.  Two truth values are equal when they are true together and false
together, so the order of the members does not matter.
-/

set_option autoImplicit false

namespace Liteset.Lib.Condition

def all3 (values : List (Option Bool)) : Option Bool := values.foldr and3 (some true)

def any3 (values : List (Option Bool)) : Option Bool := values.foldr or3 (some false)

theorem and3_eq_false (a b : Option Bool) : and3 a b = some false ↔ a = some false ∨
    b = some false := by
  rcases a with _ | _ | _ <;> rcases b with _ | _ | _ <;> simp [and3]

theorem truth_ext {a b : Option Bool} (true_ : a = some true ↔ b = some true)
    (false_ : a = some false ↔ b = some false) : a = b := by
  rcases a with _ | _ | _ <;> rcases b with _ | _ | _ <;> simp_all

theorem all3_eq_true (values : List (Option Bool)) : all3 values = some true ↔
    ∀ v ∈ values, v = some true := by
  induction values with
  | nil => simp [all3]
  | cons v values ih => rw [all3, List.foldr_cons, and3_eq_true, List.forall_mem_cons, ← ih, all3]

theorem all3_eq_false (values : List (Option Bool)) : all3 values = some false ↔
    some false ∈ values := by
  induction values with
  | nil => simp [all3]
  | cons v values ih =>
    rw [all3, List.foldr_cons, and3_eq_false, List.mem_cons, ← ih, all3, eq_comm]

theorem any3_eq_true (values : List (Option Bool)) : any3 values = some true ↔
    some true ∈ values := by
  induction values with
  | nil => simp [any3]
  | cons v values ih => rw [any3, List.foldr_cons, or3_eq_true, List.mem_cons, ← ih, any3, eq_comm]

theorem any3_eq_false (values : List (Option Bool)) : any3 values = some false ↔
    ∀ v ∈ values, v = some false := by
  induction values with
  | nil => simp [any3]
  | cons v values ih => rw [any3, List.foldr_cons, or3_eq_false, List.forall_mem_cons, ← ih, any3]

theorem all3_congr {values others : List (Option Bool)} (same : ∀ v, v ∈ values ↔ v ∈ others) :
    all3 values = all3 others := by
  refine truth_ext ?_ ?_
  · simp only [all3_eq_true, same]
  · simp only [all3_eq_false, same]

end Liteset.Lib.Condition
