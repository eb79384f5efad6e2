import Mathlib.Data.List.Perm.Basic
import Mathlib.Data.List.Nodup

/-!
# Arrays of a JavaScript program

Reading an array at an index, and `splice` with a start that may be negative or
past the end.  What the callers need of a splice is which items it leaves, so its
lemmas are permutations.
-/

set_option autoImplicit false

namespace Liteset.Lib.JsArray

open List

variable {α : Type}

/-- `list[index]` -/
def item (list : List α) (index : Int) : Option α :=
  if index < 0 then none else list[index.toNat]?

/-- `list[index] = value` for an index the array has. -/
def setItem (list : List α) (index : Int) (value : α) : List α := list.set index.toNat value

def spliceStart (list : List α) (start : Int) : Nat :=
  if start < 0 then (list.length + start).toNat else start.toNat

/-- What `list.splice(start, deleteCount, ...items)` leaves in the array. -/
def splice (list : List α) (start : Int) (deleteCount : Nat) (items : List α) : List α :=
  list.take (spliceStart list start) ++ items ++ list.drop (spliceStart list start + deleteCount)

section Lemmas
variable {list : List α} {index : Int} {value : α}

theorem item_bounds (found : item list index = some value) :
    0 ≤ index ∧ index.toNat < list.length := by
  unfold item at found
  split at found
  · cases found
  · rename_i nonnegative
    obtain ⟨inside, _⟩ := List.getElem?_eq_some_iff.mp found
    exact ⟨by omega, inside⟩

theorem item_eq_getElem? (nonnegative : 0 ≤ index) : item list index = list[index.toNat]? := by
  unfold item
  rw [if_neg (by omega)]

theorem mem_of_item (found : item list index = some value) : value ∈ list := by
  rw [item_eq_getElem? (item_bounds found).1] at found
  exact mem_of_getElem? found

theorem spliceStart_of_nonnegative (nonnegative : 0 ≤ index) :
    spliceStart list index = index.toNat := by
  unfold spliceStart
  rw [if_neg (by omega)]

theorem splice_insert_perm (list : List α) (start : Int) (items : List α) :
    (splice list start 0 items).Perm (items ++ list) := by
  unfold splice
  rw [Nat.add_zero]
  calc (list.take _ ++ items ++ list.drop _).Perm (items ++ list.take _ ++ list.drop _) :=
        perm_append_comm.append_right _
    _ = items ++ list := by rw [append_assoc, take_append_drop]

theorem splice_remove_perm (found : item list index = some value) :
    (value :: splice list index 1 []).Perm list := by
  obtain ⟨nonnegative, inside⟩ := item_bounds found
  rw [item_eq_getElem? nonnegative] at found
  obtain ⟨_, same⟩ := List.getElem?_eq_some_iff.mp found
  unfold splice
  rw [spliceStart_of_nonnegative nonnegative, append_nil]
  have middle : (value :: (list.take index.toNat ++ list.drop (index.toNat + 1))).Perm
      (list.take index.toNat ++ value :: list.drop (index.toNat + 1)) := perm_middle.symm
  refine middle.trans ?_
  rw [← same, getElem_cons_drop, take_append_drop]

theorem item_splice_insert (nonnegative : 0 ≤ index) (inside : index ≤ list.length) :
    item (splice list index 0 [value]) index = some value := by
  rw [item_eq_getElem? nonnegative]
  unfold splice
  rw [spliceStart_of_nonnegative nonnegative, append_assoc]
  have len : (list.take index.toNat).length = index.toNat := by
    rw [length_take]
    omega
  rw [getElem?_append_right (by omega), len, Nat.sub_self]
  rfl

theorem setItem_perm {other : α} (found : item list index = some value) :
    (value :: setItem list index other).Perm (other :: list) := by
  obtain ⟨nonnegative, inside⟩ := item_bounds found
  rw [item_eq_getElem? nonnegative] at found
  obtain ⟨_, same⟩ := List.getElem?_eq_some_iff.mp found
  unfold setItem
  rw [set_eq_take_append_cons_drop, if_pos inside]
  have outer : (value :: (list.take index.toNat ++ other :: list.drop (index.toNat + 1))).Perm
      (other :: (list.take index.toNat ++ value :: list.drop (index.toNat + 1))) := by
    refine (List.Perm.cons _ perm_middle).trans ?_
    refine (List.Perm.swap _ _ _).trans ?_
    exact List.Perm.cons _ perm_middle.symm
  refine outer.trans ?_
  rw [← same, getElem_cons_drop, take_append_drop]

theorem mem_removed_iff {rest : List α} {other : α} (perm : (value :: rest).Perm list)
    (distinct : list.Nodup) : other ∈ rest ↔ other ∈ list ∧ other ≠ value := by
  have fresh : value ∉ rest := (nodup_cons.mp (perm.nodup_iff.mpr distinct)).1
  rw [← perm.mem_iff, mem_cons]
  constructor
  · intro member
    refine ⟨Or.inr member, ?_⟩
    rintro rfl
    exact fresh member
  · rintro ⟨same | member, different⟩
    · exact (different same).elim
    · exact member

theorem nodup_removed {rest : List α} (perm : (value :: rest).Perm list) (distinct : list.Nodup) :
    rest.Nodup :=
  (nodup_cons.mp (perm.nodup_iff.mpr distinct)).2

end Lemmas

end Liteset.Lib.JsArray
