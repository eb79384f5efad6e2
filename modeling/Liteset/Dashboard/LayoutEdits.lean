import Liteset.Dashboard.LayoutReducer
import Liteset.Lib.Forest

/-!
# What the drop handlers do to the tree

A drop hangs one component into the list of another, sometimes around or above a
fresh one.  `Grafted` says that nothing else changes; creating and moving are both
shown to be of that form.
-/

set_option autoImplicit false

namespace Liteset.Dashboard

open Lib
open Lib.JsObject (Record)
open Lib.JsArray (item setItem splice spliceStart)

def typeOf (layout : Layout) (key : String) : Option ComponentType :=
  (layout.entry key).map LayoutItem.type

abbrev Child (layout : Layout) (parent child : String) : Prop := child ∈ childrenOf layout parent

def Keyed (layout : Layout) : Prop :=
  ∀ key component, layout.entry key = some component → component.id = key

section Basics
variable {layout : Layout} {key k : String} {component : LayoutItem}

theorem childrenOf_of_entry (found : layout.entry key = some component) :
    childrenOf layout key = component.children := by
  unfold childrenOf
  rw [found]

theorem childrenOf_of_none (absent : layout.entry key = none) : childrenOf layout key = [] := by
  unfold childrenOf
  rw [absent]

theorem typeOf_of_entry (found : layout.entry key = some component) :
    typeOf layout key = some component.type := by
  unfold typeOf
  rw [found]
  rfl

theorem typeOf_eq_none : typeOf layout key = none ↔ layout.entry key = none := by
  unfold typeOf
  exact Option.map_eq_none_iff

theorem exists_entry (present : layout.entry key ≠ none) :
    ∃ component, layout.entry key = some component :=
  Option.ne_none_iff_exists'.mp present

theorem child_of_entry {child : String} (found : layout.entry key = some component)
    (member : child ∈ component.children) : Child layout key child := by
  unfold Child
  rw [childrenOf_of_entry found]
  exact member

theorem entry_of_child {child : String} (edge : Child layout key child) :
    layout.entry key ≠ none := by
  intro absent
  unfold Child at edge
  rw [childrenOf_of_none absent] at edge
  cases edge

@[simp] theorem childrenOf_set : childrenOf (layout.set key component) k
    = if k = key then component.children else childrenOf layout k := by
  unfold childrenOf
  by_cases at_key : k = key
  · simp [at_key]
  · simp [at_key]

@[simp] theorem typeOf_set : typeOf (layout.set key component) k
    = if k = key then some component.type else typeOf layout k := by
  unfold typeOf
  by_cases at_key : k = key
  · simp [at_key]
  · simp [at_key]

theorem typeOf_set_entry {list : List String}
    (found : layout.entry key = some component) (k : String) :
    typeOf (layout.set key { component with children := list }) k = typeOf layout k := by
  rw [typeOf_set]
  split
  · rename_i at_key
    rw [at_key, typeOf_of_entry found]
  · rfl

theorem Keyed.set (keyed : Keyed layout) (same : component.id = key) :
    Keyed (layout.set key component) := by
  intro j found at_j
  rw [Record.entry_set] at at_j
  split at at_j
  · rename_i at_key
    cases at_j
    rw [same, at_key]
  · exact keyed j found at_j

theorem Keyed.setChildren (keyed : Keyed layout) (found : layout.entry key = some component)
    (list : List String) : Keyed (layout.set key { component with children := list }) :=
  keyed.set (keyed key component found)

end Basics

/-- The components whose parent a drop sets: `top` hangs below the destination, and
`inner`, if there is one, below `top`. -/
def newParent (destination top : String) (inner : Option String) (k : String) : Option String :=
  if k = top then some destination else if inner = some k then some top else none

structure Grafted (before after : Layout) (destination top : String) (inner : Option String) :
    Prop where
  keyed : Keyed after
  kept : ∀ k, before.entry k ≠ none → typeOf after k = typeOf before k
  added : ∀ k, after.entry k ≠ none → before.entry k = none →
    newParent destination top inner k ≠ none
  present : ∀ k, newParent destination top inner k ≠ none → after.entry k ≠ none
  edges : ∀ a b, newParent destination top inner b = none → (Child after a b ↔ Child before a b)
  moved : ∀ a b p, newParent destination top inner b = some p → (Child after a b ↔ a = p)
  distinct : ∀ k, (childrenOf after k).Nodup

structure SameTree (before after : Layout) : Prop where
  keyed : Keyed before → Keyed after
  types : ∀ k, typeOf after k = typeOf before k
  lists : ∀ k, childrenOf after k = childrenOf before k

section Graft
variable {before middle after : Layout} {destination top : String} {inner : Option String}

@[simp] theorem newParent_top : newParent destination top inner top = some destination := if_pos rfl

theorem newParent_inner {k : String} (different : k ≠ top) :
    newParent destination top (some k) k = some top := by
  unfold newParent
  rw [if_neg different, if_pos rfl]

theorem newParent_eq_none {k : String} :
    newParent destination top inner k = none ↔ k ≠ top ∧ inner ≠ some k := by
  unfold newParent
  split
  · simp_all
  · split <;> simp_all

theorem SameTree.refl (layout : Layout) : SameTree layout layout :=
  { keyed := id, types := fun _ => rfl, lists := fun _ => rfl }

theorem SameTree.entry_iff (same : SameTree before after) (k : String) :
    after.entry k = none ↔ before.entry k = none := by
  rw [← typeOf_eq_none, same.types, typeOf_eq_none]

theorem SameTree.child_iff (same : SameTree before after) (a b : String) :
    Child after a b ↔ Child before a b := by
  unfold Child
  rw [same.lists]

theorem Grafted.congr (grafted : Grafted before middle destination top inner)
    (same : SameTree middle after) : Grafted before after destination top inner where
  keyed := same.keyed grafted.keyed
  kept k present := (same.types k).trans (grafted.kept k present)
  added k present := grafted.added k fun absent => present ((same.entry_iff k).mpr absent)
  present k new absent := grafted.present k new ((same.entry_iff k).mp absent)
  edges a b old := (same.child_iff a b).trans (grafted.edges a b old)
  moved a b p new := (same.child_iff a b).trans (grafted.moved a b p new)
  distinct k := by
    rw [same.lists]
    exact grafted.distinct k

end Graft

def Wrapped (layout : Layout) (parent child : String) : Prop :=
  ∀ parentType childType, typeOf layout parent = some parentType →
    typeOf layout child = some childType →
      ¬(parentType ∈ [ComponentType.grid, .tab] ∧
        childType ∈ [ComponentType.chart, .markdown, .column])

theorem wrapped_of_not_should {layout : Layout} {parent child : String}
    {parentType childType : ComponentType} (at_parent : typeOf layout parent = some parentType)
    (at_child : typeOf layout child = some childType)
    (not : shouldWrapChildInRow parentType childType = false) : Wrapped layout parent child := by
  intro p c found foundChild
  rw [at_parent] at found
  rw [at_child] at foundChild
  cases found
  cases foundChild
  simp only [shouldWrapChildInRow, Bool.and_eq_false_iff, decide_eq_false_iff_not] at not
  rintro ⟨holder, bare⟩
  rcases not with out | out
  · exact out holder
  · apply out
    simp only [List.mem_cons, List.not_mem_nil, or_false] at bare ⊢
    tauto

theorem wrapped_row_child {layout : Layout} {parent row : String}
    (at_row : typeOf layout row = some .row) : Wrapped layout parent row := by
  intro p c _ found
  rw [at_row] at found
  cases found
  simp

theorem wrapped_row_parent {layout : Layout} {row child : String}
    (at_row : typeOf layout row = some .row) : Wrapped layout row child := by
  intro p c found _
  rw [at_row] at found
  cases found
  simp

theorem newParent_cases {d top k p : String} {inner : Option String}
    (new : newParent d top inner k = some p) : (k = top ∧ p = d) ∨ (inner = some k ∧ p = top) := by
  unfold newParent at new
  split at new
  · rename_i at_top
    exact Or.inl ⟨at_top, (Option.some.inj new).symm⟩
  · split at new
    · rename_i at_inner
      exact Or.inr ⟨at_inner, (Option.some.inj new).symm⟩
    · cases new

end Liteset.Dashboard
