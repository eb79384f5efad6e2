import Liteset.Dashboard.LayoutDelete

/-!
# The width of a drop is always found

In a well-formed layout the climb through rows inside rows ends at the root, and every
child of a column is there, so that asking for the width of a drop never throws.
-/

set_option autoImplicit false

namespace Liteset.Dashboard

open Lib
open Lib.JsObject (Record)
open Lib.Forest (Under)

variable {layout : Layout}

theorem widestRow_total {children : List String} (present : ∀ c ∈ children, layout.entry c ≠ none)
    (widest : Int) : ∃ width, widestRow layout children widest = some width := by
  induction children generalizing widest with
  | nil => exact ⟨widest, rfl⟩
  | cons child rest ih =>
    obtain ⟨component, found⟩ := exists_entry (present child List.mem_cons_self)
    have later := ih fun c member => present c (List.mem_cons_of_mem child member)
    simp only [widestRow, found]
    split
    · exact later _
    · exact later _

theorem detailedWidth_of_not_row {component : LayoutItem} (fuel : Nat) (cache : ParentCache)
    (present : ∀ c ∈ component.children, layout.entry c ≠ none) (notRow : component.type ≠ .row) :
    ∃ result, getDetailedComponentWidth (fuel + 1) cache (some component) layout = some result := by
  obtain ⟨widest, ran⟩ := widestRow_total present gridMinColumnCount
  simp only [getDetailedComponentWidth]
  split
  · rename_i row
    exact (notRow row).elim
  · rw [ran]
    exact ⟨_, rfl⟩
  · exact ⟨_, rfl⟩
  · exact ⟨_, rfl⟩
  · exact ⟨_, rfl⟩
  · exact ⟨_, rfl⟩

section
variable (wellFormed : WellFormed layout) (anchored : Anchored layout)
include wellFormed anchored

/-- `left` holds the ancestors that may still be climbed to. -/
theorem detailedWidth_total (fuel : Nat)
    (k : String) (component : LayoutItem) (cache : ParentCache) (left : List String)
    (found : layout.entry k = some component) (reached : Under (Child layout) dashboardRootId k)
    (above : ∀ a, Under (Child layout) a k → a ∈ left) (enough : left.length ≤ fuel) :
    ∃ result, getDetailedComponentWidth fuel cache (some component) layout = some result := by
  induction fuel generalizing k component cache left with
  | zero =>
    have member := above k Relation.ReflTransGen.refl
    rw [List.length_eq_zero_iff.mp (Nat.le_zero.mp enough)] at member
    cases member
  | succ fuel ih =>
    have present : ∀ c ∈ component.children, layout.entry c ≠ none := by
      intro c member
      refine wellFormed.listed k c ?_
      rw [Child, childrenOf_of_entry found]
      exact member
    by_cases row : component.type = .row
    · rcases Forest.under_cases reached with same | ⟨p, way, edge⟩
      · have rootType := anchored.rootType
        rw [same, typeOf_of_entry found, row] at rootType
        cases rootType
      · obtain ⟨parent, at_parent⟩ := exists_entry (entry_of_child edge)
        have self : k ∈ left := above k Relation.ReflTransGen.refl
        have lookup : (findParentIdWithCache cache component.id layout).1 = some p := by
          rw [wellFormed.keyed k component found]
          exact findParentIdWithCache_of_child wellFormed.keyed wellFormed.single
            wellFormed.acyclic edge
        have aboveParent : ∀ a, Under (Child layout) a p → a ∈ left.erase k := by
          intro a under
          refine (List.mem_erase_of_ne ?_).mpr (above a (under.tail edge))
          rintro rfl
          exact wellFormed.acyclic a (Relation.TransGen.tail' under edge)
        have shorter : (left.erase k).length ≤ fuel := by
          rw [List.length_erase_of_mem self]
          omega
        obtain ⟨result, ran⟩ := ih p parent (findParentIdWithCache cache component.id layout).2
          (left.erase k) at_parent way aboveParent shorter
        have key : layout.entry (idKey (some p)) = some parent := at_parent
        simp only [getDetailedComponentWidth, row, lookup, key, ran]
        exact ⟨_, rfl⟩
    · exact detailedWidth_of_not_row fuel cache present row

theorem detailedWidth_of_reached
    {k : String} (cache : ParentCache) (reached : Under (Child layout) dashboardRootId k) :
    ∃ result, getDetailedComponentWidth (widthFuel layout) cache (layout.entry k) layout =
      some result := by
  cases found : layout.entry k with
  | none =>
    unfold widthFuel
    exact ⟨_, rfl⟩
  | some component =>
    refine detailedWidth_total wellFormed anchored _ k component cache layout.keys found
      reached ?_ ?_
    · intro a under
      apply layout.listed a
      rcases Relation.ReflTransGen.cases_head under with same | ⟨b, edge, _⟩
      · rw [same, found]
        simp
      · exact entry_of_child edge
    · unfold widthFuel
      omega

theorem detailedWidth_of_any (k : String)
    (other : k ≠ dashboardHeaderId) (cache : ParentCache) :
    ∃ result, getDetailedComponentWidth (widthFuel layout) cache (layout.entry k) layout =
      some result := by
  by_cases absent : layout.entry k = none
  · rw [absent]
    unfold widthFuel
    exact ⟨_, rfl⟩
  · by_cases at_root : k = dashboardRootId
    · rw [at_root]
      exact detailedWidth_of_reached wellFormed anchored cache Relation.ReflTransGen.refl
    · by_cases at_grid : k = dashboardGridId
      · obtain ⟨component, found⟩ := exists_entry absent
        have notRow : component.type ≠ .row := by
          intro row
          have gridType := anchored.gridType
          rw [← at_grid, typeOf_of_entry found, row] at gridType
          cases gridType
        rw [found]
        refine detailedWidth_of_not_row _ cache (fun c member => ?_) notRow
        refine wellFormed.listed k c ?_
        rw [Child, childrenOf_of_entry found]
        exact member
      · exact detailedWidth_of_reached wellFormed anchored cache
          (wellFormed.reachable k absent at_root other at_grid)

end

theorem findParentIdWithCache_of_root (anchored : Anchored layout) (cache : ParentCache) :
    (findParentIdWithCache cache dashboardRootId layout).1 = none := by
  have plain : findParentId dashboardRootId layout = none := by
    unfold findParentId
    rw [List.find?_eq_none]
    intro id _
    simp [anchored.rootOnTop id]
  have cached : cachedParentId cache dashboardRootId layout = none := by
    unfold cachedParentId
    split
    · rfl
    · split
      · rfl
      · split
        · rfl
        · rename_i value _ _ _ lastParent found
          split
          · rename_i member
            refine (anchored.rootOnTop value ?_).elim
            rw [Child, childrenOf_of_entry found]
            exact member
          · rfl
  unfold findParentIdWithCache
  rw [cached]
  exact plain

theorem destinationCapacity_total (wellFormed : WellFormed layout) (anchored : Anchored layout)
    {d : String} (cache : ParentCache) (reached : Under (Child layout) dashboardRootId d) :
    ∃ result, destinationCapacity cache d layout = some result := by
  obtain ⟨⟨destination, later⟩, ran⟩ := detailedWidth_of_reached wellFormed anchored cache reached
  unfold destinationCapacity
  rw [ran]
  dsimp only
  split
  · exact ⟨_, rfl⟩
  · have above : ∃ result, getDetailedComponentWidth (widthFuel layout)
        (findParentIdWithCache later d layout).2
        (layout.entry (idKey (findParentIdWithCache later d layout).1)) layout = some result := by
      rcases Forest.under_cases reached with same | ⟨p, way, edge⟩
      · rw [← same, findParentIdWithCache_of_root anchored]
        exact detailedWidth_of_any wellFormed anchored _ (by decide) _
      · rw [findParentIdWithCache_of_child wellFormed.keyed wellFormed.single
          wellFormed.acyclic edge]
        exact detailedWidth_of_reached wellFormed anchored _ way
    obtain ⟨⟨grandparent, afterwards⟩, found⟩ := above
    rw [found]
    exact ⟨_, rfl⟩

theorem getComponentWidthFromDrop_total (wellFormed : WellFormed layout)
    (anchored : Anchored layout)
    {source destination : DropPlace} {component : LayoutItem} (cache : ParentCache)
    (reached : Under (Child layout) dashboardRootId destination.id)
    (present : ∀ c ∈ component.children, layout.entry c ≠ none)
    (resizable : componentIsResizable component.type = true) :
    ∃ result, getComponentWidthFromDrop cache source destination (some component) layout =
      some result := by
  have notRow : component.type ≠ .row := by
    intro row
    rw [row] at resizable
    cases resizable
  unfold getComponentWidthFromDrop
  split
  · exact ⟨_, rfl⟩
  · obtain ⟨⟨dragged, later⟩, ran⟩ :=
      detailedWidth_of_not_row (layout.keys.length + 1) cache present notRow
    obtain ⟨⟨room, afterwards⟩, ranRoom⟩ :=
      destinationCapacity_total wellFormed anchored later reached
    unfold widthFuel
    rw [ran]
    dsimp only
    rw [ranRoom]
    exact ⟨_, rfl⟩

end Liteset.Dashboard
