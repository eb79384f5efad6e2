import Liteset.Lib.Forest

/-!
# One edge more

An edge added to an acyclic relation closes a cycle exactly when its end already
leads to its start.
-/

set_option autoImplicit false

namespace Liteset.Lib.Cycles

open Forest (Under Acyclic)

variable {α : Type} {edge : α → α → Prop} {a b x y : α}

def insertEdge (edge : α → α → Prop) (a b : α) : α → α → Prop :=
  fun x y => edge x y ∨ x = a ∧ y = b

theorem under_insertEdge_of_under (reached : Under edge x y) : Under (insertEdge edge a b) x y :=
  Forest.under_mono (fun _ _ old => .inl old) reached

/-- A path uses the new edge or does not; cut at its first and its last use of it, it
is made of two old ones. -/
theorem under_insertEdge (reached : Under (insertEdge edge a b) x y) :
    Under edge x y ∨ Under edge x a ∧ Under edge b y := by
  induction reached with
  | refl => exact .inl .refl
  | tail up last ih =>
    rcases last with old | ⟨rfl, rfl⟩
    · rcases ih with direct | ⟨first, second⟩
      · exact .inl (direct.tail old)
      · exact .inr ⟨first, second.tail old⟩
    · rcases ih with direct | ⟨first, _⟩
      · exact .inr ⟨direct, .refl⟩
      · exact .inr ⟨first, .refl⟩

theorem transGen_insertEdge (reached : Relation.TransGen (insertEdge edge a b) x y) :
    Relation.TransGen edge x y ∨ Under edge x a ∧ Under edge b y := by
  obtain ⟨z, first, rest⟩ := Relation.TransGen.head'_iff.mp reached
  rcases first with old | ⟨rfl, rfl⟩
  · rcases under_insertEdge rest with direct | ⟨up, down⟩
    · exact .inl (Relation.TransGen.head' old direct)
    · exact .inr ⟨up.head old, down⟩
  · rcases under_insertEdge rest with direct | ⟨_, down⟩
    · exact .inr ⟨.refl, direct⟩
    · exact .inr ⟨.refl, down⟩

theorem cycle_insertEdge (back : Under edge b a) : Relation.TransGen (insertEdge edge a b) a a :=
  Relation.TransGen.head' (.inr ⟨rfl, rfl⟩) (under_insertEdge_of_under back)

theorem under_of_cycle (acyclic : Acyclic edge)
    (cycle : Relation.TransGen (insertEdge edge a b) x x) :
    Under edge b a := by
  rcases transGen_insertEdge cycle with old | ⟨up, down⟩
  · exact (acyclic x old).elim
  · exact down.trans up

theorem acyclic_insertEdge_iff (acyclic : Acyclic edge) : Acyclic (insertEdge edge a b) ↔
    ¬Under edge b a :=
  ⟨fun none back => none a (cycle_insertEdge back),
    fun separate _ cycle => separate (under_of_cycle acyclic cycle)⟩

end Liteset.Lib.Cycles
