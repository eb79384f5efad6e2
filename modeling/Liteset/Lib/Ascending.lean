import Mathlib.Data.List.Count
import Mathlib.Data.List.Nodup

/-!
# Points enumerated in ascending order

An iterator over a set of integers answers, for any integer, the first point after it.
A loop that takes points until one reaches a bound collects the points of an open
interval, each once.
-/

set_option autoImplicit false

namespace Liteset.Lib

/-- `next t` is the first point after `t`, if there is one. -/
structure Ascending (Point : Int → Prop) where
  next : Int → Option Int
  point : ∀ t m, next t = some m → Point m
  later : ∀ t m, next t = some m → t < m
  first : ∀ t m n, next t = some m → Point n → t < n → m ≤ n
  last : ∀ t n, next t = none → Point n → n ≤ t

namespace Ascending
variable {Point : Int → Prop} (points : Ascending Point)

/-- The points after `start`, until one is not below `stop`. -/
def takeUntil (stop start : Int) : List Int :=
  match _found : points.next start with
  | none => []
  | some m =>
    if stop ≤ m then []
    else m :: takeUntil stop m
termination_by (stop - start).toNat
decreasing_by
  have later := points.later start m _found
  omega

variable {points} {stop start m : Int}

theorem takeUntil_none (found : points.next start = none) : points.takeUntil stop start = [] := by
  rw [takeUntil]
  split
  · rfl
  · next _ other => rw [found] at other; cases other

theorem takeUntil_some (found : points.next start = some m) :
    points.takeUntil stop start = if stop ≤ m then [] else m :: points.takeUntil stop m := by
  rw [takeUntil]
  split
  · next other => rw [found] at other; cases other
  · next _ other =>
      rw [found] at other
      cases other
      rfl

theorem mem_takeUntil_iff {n : Int} : n ∈ points.takeUntil stop start ↔
    Point n ∧ start < n ∧ n < stop := by
  induction start using takeUntil.induct points stop with
  | case1 start found =>
    rw [takeUntil_none found]
    constructor
    · intro member
      cases member
    · rintro ⟨point, after, _⟩
      have bound := points.last start n found point
      omega
  | case2 start m found beyond =>
    rw [takeUntil_some found, if_pos beyond]
    constructor
    · intro member
      cases member
    · rintro ⟨point, after, before⟩
      have bound := points.first start m n found point after
      omega
  | case3 start m found within ih =>
    rw [takeUntil_some found, if_neg within, List.mem_cons, ih]
    have later := points.later start m found
    constructor
    · rintro (rfl | ⟨point, after, before⟩)
      · exact ⟨points.point start n found, later, by omega⟩
      · exact ⟨point, by omega, before⟩
    · rintro ⟨point, after, before⟩
      have bound := points.first start m n found point after
      rcases Int.lt_or_eq_of_le bound with above | same
      · exact Or.inr ⟨point, above, before⟩
      · exact Or.inl same.symm

theorem takeUntil_nodup : (points.takeUntil stop start).Nodup := by
  induction start using takeUntil.induct points stop with
  | case1 start found =>
    rw [takeUntil_none found]
    exact List.nodup_nil
  | case2 start m found beyond =>
    rw [takeUntil_some found, if_pos beyond]
    exact List.nodup_nil
  | case3 start m found within ih =>
    rw [takeUntil_some found, if_neg within, List.nodup_cons]
    refine ⟨?_, ih⟩
    intro again
    have after := (mem_takeUntil_iff.mp again).2.1
    omega

end Ascending

end Liteset.Lib
