import Liteset.Lib.Paths
import Liteset.Dashboard.LayoutSafety

/-!
# The parents of created components

`newEntitiesFromDrop` gives each component it creates a list of parents.  The list is the path
from `ROOT_ID`, but for the tab inside new tabs, which gets the list of the tabs.
-/

set_option autoImplicit false

namespace Liteset.Dashboard

open Lib
open Lib.Paths (Path)
open Lib.JsObject (Record)
open Lib.JsArray (splice)

section Spread
variable {state entities : Layout} {d top k : String} {dropEntity : LayoutItem} {index : Int}

/-- The layout after fresh entities are created, `top` being listed at the destination. -/
def planted (state entities : Layout) (d top : String) (dropEntity : LayoutItem) (index : Int) :
    Layout :=
  Record.spread state
    (entities.set d { dropEntity with children := splice dropEntity.children index 0 [top] })

theorem planted_entry {component : LayoutItem} (other : k ≠ d)
    (found : entities.entry k = some component) :
    (planted state entities d top dropEntity index).entry k = some component := by
  rw [planted, Record.entry_spread, Record.entry_set, if_neg other, found, Option.some_or]

theorem child_planted_iff : Child (planted state entities d top dropEntity index) d k ↔
    k = top ∨ k ∈ dropEntity.children := by
  rw [Child, childrenOf, planted, Record.entry_spread, Record.entry_set, if_pos rfl, Option.some_or]
  simpa using (JsArray.splice_insert_perm dropEntity.children index [top]).mem_iff (a := k)

theorem created_entry {component : LayoutItem} (found : state.entry d = some dropEntity)
    (absent : state.entry k = none)
    (created : (planted state entities d top dropEntity index).entry k = some component) :
    entities.entry k = some component := by
  rw [planted, Record.entry_spread, Record.entry_set, absent, Option.or_none] at created
  split at created
  · next same =>
    rw [same, found] at absent
    cases absent
  · exact created

theorem path_planted {above : List String} (found : state.entry d = some dropEntity)
    (fresh : ∀ k, entities.entry k ≠ none → state.entry k = none)
    (path : Path (Child state) dashboardRootId above k) :
    Path (Child (planted state entities d top dropEntity index)) dashboardRootId above k := by
  refine path.mono fun i j edge => ?_
  by_cases same : i = d
  · subst same
    rw [child_planted_iff, ← childrenOf_of_entry found]
    exact .inr edge
  · have there := entry_of_child edge
    have kept : entities.entry i = none := by
      by_contra here
      exact there (fresh i here)
    rw [Child, childrenOf, planted, Record.entry_spread, Record.entry_set, if_neg same, kept,
      Option.none_or]
    exact edge

end Spread

section Created
variable {state next : Layout} {cache cacheAfter : ParentCache} {ids : NanoIds}
    {dropResult : DropResult}
  {destination : DropPlace} {dragging : Dragging} {dropEntity : LayoutItem}

theorem sizedDropChild_parents {source : Option DropPlace} {child : LayoutItem}
    (ran : sizedDropChild cache ids source destination dragging dropEntity state =
      some (child, cacheAfter)) :
    child.parents = pathBelow dropEntity := by
  unfold sizedDropChild at ran
  split at ran
  · cases source with
    | none => cases ran
    | some source =>
      dsimp only at ran
      split at ran
      · cases ran
      · cases ran
        rfl
  · cases ran
    rfl

theorem createComponent_cases (isDestination : dropResult.destination = some destination)
    (isDragging : dropResult.dragging = some dragging)
    (found : state.entry destination.id = some dropEntity)
    (ran : createComponent cache ids dropResult state = some (next, cacheAfter)) :
    ∃ child : LayoutItem, child.id = uuid dragging.type ids.child ∧ child.type = dragging.type ∧
    child.children = [] ∧ child.parents = pathBelow dropEntity ∧
      next = planted state (entitiesAround ids dragging.type dropEntity child).1 destination.id
        (entitiesAround ids dragging.type dropEntity child).2 dropEntity destination.index := by
  rw [createComponent, newEntitiesFromDrop, isDestination, isDragging] at ran
  simp only [found] at ran
  cases sized : sizedDropChild cache ids dropResult.source destination dragging dropEntity
    state with
  | none =>
    rw [sized] at ran
    cases ran
  | some result =>
    rw [sized] at ran
    cases ran
    obtain ⟨isId, isType, leaf⟩ := sizedDropChild_spec sized
    exact ⟨result.1, isId, isType, leaf, sizedDropChild_parents sized, rfl⟩

/-- Every created component has its path as parents, exactly when it is not tabs that
are dropped. -/
theorem created_paths_iff (wellFormed : WellFormed state) (fresh : Fresh state ids)
    (isDestination : dropResult.destination = some destination)
    (isDragging : dropResult.dragging = some dragging)
    (found : state.entry destination.id = some dropEntity)
    (exact : Path (Child state) dashboardRootId dropEntity.parents destination.id)
    (ran : createComponent cache ids dropResult state = some (next, cacheAfter)) :
    (∀ k component, state.entry k = none → next.entry k = some component →
      Path (Child next) dashboardRootId component.parents k) ↔ dragging.type ≠ .tabs := by
  obtain ⟨child, isId, isType, leaf, parents, rfl⟩ :=
    createComponent_cases isDestination isDragging found ran
  obtain ⟨_, tree, _, _⟩ := entitiesAround_freshTree dropEntity fresh isId isType leaf
  have unused := tree.fresh
  have below : pathBelow dropEntity = dropEntity.parents ++ [destination.id] := by
    rw [pathBelow, wellFormed.keyed _ _ found]
  have freshChild : child.id ≠ destination.id := by
    intro same
    have absent := fresh.at_child dragging.type
    rw [← isId, same, found] at absent
    cases absent
  -- the path to what is put into the destination
  have topPath :
    Path (Child (planted state (entitiesAround ids dragging.type dropEntity child).1 destination.id
      (entitiesAround ids dragging.type dropEntity child).2 dropEntity destination.index))
        dashboardRootId
      (pathBelow dropEntity) (entitiesAround ids dragging.type dropEntity child).2 := by
    rw [below]
    exact (path_planted found unused exact).step (child_planted_iff.mpr (.inl rfl))
  by_cases wraps : shouldWrapChildInRow dropEntity.type dragging.type = true
  · have notTabs : dragging.type ≠ .tabs := by
      rintro isTabs
      rw [isTabs] at wraps
      simp [shouldWrapChildInRow] at wraps
    refine iff_of_true (fun k component absent created => ?_) notTabs
    have entry := created_entry found absent created
    simp only [entitiesAround, if_pos wraps] at entry topPath
    rw [Record.entry_set, Record.entry_set] at entry
    split at entry
    · next isRow =>
      obtain rfl := Option.some.inj entry
      rw [isRow]
      simp only [entitiesAround, if_pos wraps]
      exact topPath
    · split at entry
      · next isChild =>
        obtain rfl := Option.some.inj entry
        subst isChild
        simp only [entitiesAround, if_pos wraps]
        refine topPath.step ?_
        have freshRow : (rowWrapper ids dropEntity child).id ≠ destination.id := by
          intro same
          have absentRow := fresh.at_row .row
          rw [show uuid .row ids.row = destination.id from same, found] at absentRow
          cases absentRow
        rw [Child, childrenOf_of_entry (planted_entry freshRow (if_pos rfl))]
        exact List.mem_singleton_self _
      · cases entry
  · by_cases isTabs : dragging.type = .tabs
    · refine iff_of_false (fun all => ?_) fun other => other isTabs
      simp only [entitiesAround, if_neg wraps, if_pos isTabs] at all
      have absentTab : state.entry (tabChild ids dropEntity).id = none := fresh.at_tab .tab
      have freshTab : (tabChild ids dropEntity).id ≠ destination.id := by
        intro same
        rw [same, found] at absentTab
        cases absentTab
      have path := all _ _ absentTab (planted_entry freshTab (if_pos rfl))
      rw [show (tabChild ids dropEntity).parents = dropEntity.parents ++ [destination.id] from
        below] at path
      -- the last of the list is the destination, whose children the tab is not among
      obtain isTop | listed := child_planted_iff.mp path.last_edge
      · exact fresh.child_ne_tab dragging.type .tab (isId.symm.trans isTop.symm)
      · rw [← childrenOf_of_entry found] at listed
        exact wellFormed.listed _ _ listed absentTab
    · refine iff_of_true (fun k component absent created => ?_) isTabs
      have entry := created_entry found absent created
      simp only [entitiesAround, if_neg wraps, if_neg isTabs] at entry topPath ⊢
      rw [Record.entry_set] at entry
      split at entry
      · next isChild =>
        obtain rfl := Option.some.inj entry
        rw [isChild, parents]
        exact topPath
      · cases entry

end Created

def dropOnGrid (type : ComponentType) : DropResult :=
  { source := some ⟨newComponentsSourceId, none, 0⟩,
    destination := some ⟨dashboardGridId, some .grid, 0⟩,
    dragging := some ⟨"NEW_ID", type, JsObject.empty⟩, position := some .top }

def rootedGrid : Layout :=
  layoutOf [component dashboardRootId .root [dashboardGridId],
    { component dashboardGridId .grid [] with parents := [dashboardRootId] }]

theorem rootedGrid_fresh : Fresh rootedGrid sampleIds := fresh_of_dashless (by decide) (by decide)

theorem rootedGrid_path :
    Path (Child rootedGrid) dashboardRootId [dashboardRootId] dashboardGridId :=
  Path.root.step (by decide)

theorem chart_path_exact : ∃ next cacheAfter,
    createComponent noCache sampleIds (dropOnGrid .chart) rootedGrid = some (next, cacheAfter) ∧
    ((∀ k component, rootedGrid.entry k = none → next.entry k = some component →
      Path (Child next) dashboardRootId component.parents k) ↔ ComponentType.chart ≠ .tabs) := by
  have dragging : (dropOnGrid .chart).dragging = some ⟨"NEW_ID", .chart, JsObject.empty⟩ := rfl
  have destination : (dropOnGrid .chart).destination = some ⟨dashboardGridId, some .grid, 0⟩ := rfl
  obtain ⟨result, ran⟩ :
    ∃ result, createComponent noCache sampleIds (dropOnGrid .chart) rootedGrid = some result :=
    ⟨_, rfl⟩
  exact ⟨result.1, result.2, ran,
    created_paths_iff (wellFormed_of_checked rootedGrid (by decide)).1 rootedGrid_fresh
    destination dragging rfl rootedGrid_path ran⟩

/-- The tab in new tabs has the tabs left out of its parents. -/
theorem tab_path_short : ∃ next cacheAfter,
    createComponent noCache sampleIds (dropOnGrid .tabs) rootedGrid = some (next, cacheAfter) ∧
    (next.entry "TAB-d").map LayoutItem.parents = some [dashboardRootId, dashboardGridId] ∧
    ¬∀ k component, rootedGrid.entry k = none → next.entry k = some component →
      Path (Child next) dashboardRootId component.parents k := by
  refine ⟨_, _, rfl, by decide, fun all => ?_⟩
  have path : Path _ _ ([dashboardRootId] ++ [dashboardGridId]) "TAB-d" :=
    all "TAB-d" _ (by decide) rfl
  exact absurd path.last_edge (by decide)

end Liteset.Dashboard
