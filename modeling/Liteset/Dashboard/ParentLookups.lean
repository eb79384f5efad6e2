import Liteset.Dashboard.LayoutSafety

/-!
# Sequences of parent lookups

The cache of `findParentIdWithCache` outlives the layouts.  Its entries never name a component as
its own parent, which is all that an entry has to keep for the lookup to agree with `findParentId`.
-/

set_option autoImplicit false

namespace Liteset.Dashboard

open Lib
open Lib.Forest
open Lib.JsObject (Record)

/-- The answers to queries asked one after the other, each on a layout of its own. -/
def answers : ParentCache → List (String × Layout) → List (Option String)
  | _, [] => []
  | cache, (childId, layout) :: queries =>
    let (parent, next) := findParentIdWithCache cache childId layout
    parent :: answers next queries

def NeverOwn (cache : ParentCache) : Prop := ∀ childId, cache childId ≠ some childId

theorem findParentIdWithCache_agrees {cache : ParentCache} {childId : String} {layout : Layout}
    (apart : NeverOwn cache)
    (keyed : Keyed layout) (single : SingleParent (Child layout)) :
    (findParentIdWithCache cache childId layout).1 = findParentId childId layout := by
  unfold findParentIdWithCache
  cases cached : cachedParentId cache childId layout with
  | none => rfl
  | some parent =>
    obtain ⟨held, child⟩ := child_of_cachedParentId keyed cached
    have different : parent ≠ childId := by
      rintro rfl
      exact apart parent held
    exact (findParentId_of_child single different child).symm

theorem findParentIdWithCache_apart {cache : ParentCache} {childId : String} {layout : Layout}
    (apart : NeverOwn cache) :
    NeverOwn (findParentIdWithCache cache childId layout).2 := by
  unfold findParentIdWithCache
  cases cachedParentId cache childId layout with
  | some parent => exact apart
  | none =>
    intro k own
    dsimp only at own
    split at own
    next same => exact (ne_of_findParentId own).1 same
    next => exact apart k own

/-- Whatever the history, the cached lookup answers as the plain one.  `cache` is what
the module starts with: nothing but the members that an empty object inherits, none of
which reads as its own name. -/
theorem answers_agree {cache : ParentCache} (apart : NeverOwn cache)
    (queries : List (String × Layout))
    (formed : ∀ query ∈ queries, Keyed query.2 ∧ SingleParent (Child query.2)) :
    answers cache queries = queries.map fun query => findParentId query.1 query.2 := by
  induction queries generalizing cache with
  | nil => rfl
  | cons query queries ih =>
    obtain ⟨⟨keyed, single⟩, later⟩ := List.forall_mem_cons.mp formed
    rw [answers, List.map_cons]
    dsimp only
    rw [findParentIdWithCache_agrees apart keyed single,
      ih (findParentIdWithCache_apart apart) later]

def rowOf (id child : String) : Layout := Record.empty.set id (component id .row [child])

theorem rowOf_formed (id child : String) :
    Keyed (rowOf id child) ∧ SingleParent (Child (rowOf id child)) := by
  have parent {p k : String} (edge : Child (rowOf id child) p k) : p = id := by
    by_contra other
    simp [Child, childrenOf, rowOf, other] at edge
  refine ⟨fun key row found => ?_,
    fun p q k first second => (parent first).trans (parent second).symm⟩
  rw [rowOf, Record.entry_set] at found
  split at found
  next same =>
      cases found
      exact same.symm
  next => cases found

theorem answers_agree_moved :
    answers noCache [("CHART-1", rowOf "ROW-1" "CHART-1"), ("CHART-1", rowOf "ROW-2" "CHART-1")] =
    [some "ROW-1", some "ROW-2"] := by
  have apart : NeverOwn noCache := by
    intro childId own
    cases own
  rw [answers_agree apart]
  · decide
  · exact List.forall_mem_cons.mpr
      ⟨rowOf_formed _ _, List.forall_mem_singleton.mpr (rowOf_formed _ _)⟩

end Liteset.Dashboard
