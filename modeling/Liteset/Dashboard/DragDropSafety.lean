import Liteset.Dashboard.DragDropTargets

/-!
# What a drop leaves

A drop keeps every component below the root unless it puts a component into its own
subtree, or makes tabs the top level that do not lie in the grid.
-/

set_option autoImplicit false

namespace Liteset.Dashboard

open Lib List
open Lib.JsArray (item)
open Lib.Forest (Under SingleParent)

/-- Every component hangs below the root through one parent; a grid that is kept aside
holds nothing. -/
structure Intact (layout : Layout) : Prop where
  hung : ∀ k, layout.entry k ≠ none → k ≠ dashboardRootId → k ≠ dashboardHeaderId →
    k ≠ dashboardGridId → Under (Child layout) dashboardRootId k ∧ ∃! p, Child layout p k
  aside : ¬Child layout dashboardRootId dashboardGridId → childrenOf layout dashboardGridId = []

theorem WellFormed.intact {layout : Layout} (wellFormed : WellFormed layout) : Intact layout where
  hung k here not_root not_header not_grid := by
    have reached := wellFormed.reachable k here not_root not_header not_grid
    refine ⟨reached, ?_⟩
    rcases Forest.under_cases reached with same | ⟨p, _, edge⟩
    · exact (not_root same.symm).elim
    · exact ⟨p, edge, fun q other => wellFormed.single q p k other edge⟩
  aside := wellFormed.gridEmpty

section Source
variable {c : String}

theorem deleteEmptySource_of_child {source : DropPlace} (store : Store)
    (edge : Child store.layout source.id c) : deleteEmptySource source store = store := by
  obtain ⟨sourceComponent, found⟩ := exists_entry (entry_of_child edge)
  unfold Child at edge
  rw [childrenOf_of_entry found] at edge
  unfold deleteEmptySource
  rw [found]
  dsimp only
  rw [if_neg]
  rintro ⟨_, empty⟩
  rw [length_eq_zero_iff.mp empty] at edge
  cases edge

variable (source : DropPlace)

/-- The source is left alone, or it is an empty row or tabs and is deleted from its parent. -/
theorem deleteEmptySource_cases (store : Store) :
    (deleteEmptySource source store).layout = store.layout
      ∨ ((typeOf store.layout source.id = some .tabs ∨ typeOf store.layout source.id = some .row)
        ∧ childrenOf store.layout source.id = []
        ∧ ∃ g cache, (findParentIdWithCache store.cache source.id store.layout).1 = some g
          ∧ (deleteEmptySource source store).layout =
            (deleteComponent cache source.id (some g) store.layout).1) := by
  unfold deleteEmptySource
  cases found : store.layout.entry source.id with
  | none => exact .inl rfl
  | some sourceComponent =>
    dsimp only
    split
    · rename_i empty
      cases parent : (findParentIdWithCache store.cache source.id store.layout).1 with
      | none => exact .inl rfl
      | some g =>
        refine .inr ⟨?_, ?_, g, _, rfl, rfl⟩
        · rw [typeOf_of_entry found, Option.some_inj, Option.some_inj]
          exact empty.1
        · rw [childrenOf_of_entry found]
          exact length_eq_zero_iff.mp empty.2
    · exact .inl rfl

theorem deleteEmptySource_shrunk (store : Store) (keyed : Keyed store.layout) :
    Shrunk store.layout (deleteEmptySource source store).layout
      fun k => k = source.id ∨ Child store.layout k source.id := by
  rcases deleteEmptySource_cases source store with same | ⟨_, leaf, g, cache, found, ran⟩
  · rw [same]
    exact Shrunk.refl _ _
  · rw [ran]
    refine (deleteComponent_shrunk cache leaf).mono fun k gone => ?_
    rcases gone with same | same
    · exact .inl same
    · exact .inr (same ▸ child_of_findParentIdWithCache keyed found)

theorem deleteEmptySource_wellFormed {store : Store}
    (wellFormed : WellFormed store.layout) (anchored : Anchored store.layout) :
    WellFormed (deleteEmptySource source store).layout := by
  rcases deleteEmptySource_cases source store with same | ⟨type, _, g, cache, found, ran⟩
  · rw [same]
    exact wellFormed
  · rw [ran]
    refine (deleteComponent_wellFormed wellFormed anchored
      (child_of_findParentIdWithCache wellFormed.keyed found) ?_).1
    rcases type with tabs | row
    · exact ne_grid_of_typeOf anchored tabs (by decide)
    · exact ne_grid_of_typeOf anchored row (by decide)

end Source

section Move
variable {layout after : Layout} {dragged : DraggingItem} {destination top : String}
  {inner : Option String}

section
variable (loaded : Loaded layout) (is_dragged : Dragged layout dragged)
    (grafted : Grafted layout after destination top inner)
    (shape : (top = dragged.id ∧ inner = none) ∨
      (layout.entry top = none ∧ inner = some dragged.id))
    (inside : Under (Child layout) dragged.id destination)
include loaded is_dragged grafted shape inside

theorem not_under_of_grafted_inside : ¬Under (Child after) dashboardRootId dragged.id := by
  have newDragged : newParent destination top inner dragged.id ≠ none := by
    rw [Ne, newParent_eq_none]
    rcases shape with ⟨same, _⟩ | ⟨_, same⟩
    · exact fun both => both.1 same.symm
    · exact fun both => both.2 same
  refine Forest.not_under_of_parents_inside (fun k => Under (Child layout) dragged.id k ∨
    k = top) ?_ ?_
    (.inl Relation.ReflTransGen.refl)
  · intro p k edge member
    cases new : newParent destination top inner k with
    | none =>
      have old : Child layout p k := (grafted.edges p k new).mp edge
      have under := member.resolve_right (newParent_eq_none.mp new).1
      rcases Forest.under_parent loaded.wellFormed.single old under with same | above
      · exact (newDragged (same ▸ new)).elim
      · exact .inl above
    | some q =>
      rw [(grafted.moved p k q new).mp edge]
      rcases newParent_cases new with ⟨_, rfl⟩ | ⟨_, rfl⟩
      · exact .inl inside
      · exact .inr rfl
  · rintro (under | at_top)
    · rcases Forest.under_cases under with same | ⟨p, _, edge⟩
      · exact is_dragged.ne_root loaded same
      · exact loaded.anchored.rootOnTop p edge
    · rcases shape with ⟨same, _⟩ | ⟨absent, _⟩
      · exact is_dragged.ne_root loaded (same.symm.trans at_top.symm)
      · exact loaded.wellFormed.rooted (at_top ▸ absent)

theorem not_intact_of_inside (cache : ParentCache) :
    ¬Intact (deleteEmptySource dragged.parent ⟨after, cache⟩).layout := by
  have shrunk := deleteEmptySource_shrunk dragged.parent ⟨after, cache⟩ grafted.keyed
  have present : layout.entry dragged.id ≠ none := loaded.wellFormed.listed _ _ is_dragged.child
  have stays : after.entry dragged.id ≠ none := by
    rw [Ne, ← typeOf_eq_none, grafted.kept _ present, typeOf_eq_none]
    exact present
  have sourceOld : newParent destination top inner dragged.parent.id = none := by
    have distinct : dragged.parent.id ≠ dragged.id := by
      intro same
      have loop := is_dragged.child
      rw [same] at loop
      exact loaded.wellFormed.acyclic _ (Relation.TransGen.single loop)
    have sourcePresent := entry_of_child is_dragged.child
    refine newParent_eq_none.mpr ⟨?_, ?_⟩
    · rcases shape with ⟨same, _⟩ | ⟨absent, _⟩
      · exact same ▸ distinct
      · rintro rfl
        exact sourcePresent absent
    · rcases shape with ⟨_, same⟩ | ⟨_, same⟩
      · rw [same]
        simp
      · rw [same]
        exact fun at_source => distinct (Option.some.inj at_source).symm
  have survives : ¬(dragged.id = dragged.parent.id ∨ Child after dragged.id dragged.parent.id) := by
    rintro (same | back)
    · have loop := is_dragged.child
      rw [← same] at loop
      exact loaded.wellFormed.acyclic _ (Relation.TransGen.single loop)
    · have old := (grafted.edges _ _ sourceOld).mp back
      exact loaded.wellFormed.acyclic _
        (Relation.TransGen.head old (Relation.TransGen.single is_dragged.child))
  intro intact
  have hung := intact.hung dragged.id (shrunk.entries _ survives stays) (is_dragged.ne_root loaded)
    (is_dragged.ne_header loaded) (is_dragged.ne_grid loaded)
  exact not_under_of_grafted_inside loaded is_dragged grafted shape inside
    (Forest.under_mono shrunk.edges hung.1)

end

end Move

section Raise
variable {layout after : Layout} {dragged : DraggingItem} {tab : String}

theorem not_intact_of_elsewhere (loaded : Loaded layout) (is_dragged : Dragged layout dragged)
    (none_found : topLevelTabs layout = none)
    (firstTab : Child layout dragged.id tab)
    (types : ∀ k, typeOf after k = typeOf layout k)
    (lists : ∀ k, childrenOf after k = raisedList layout dragged.id tab k)
    (elsewhere : dragged.parent.id ≠ dashboardGridId) :
    ¬Intact after ∧ Child after dragged.parent.id dragged.id := by
  have notTab : dragged.parent.id ≠ tab := by
    rintro rfl
    exact loaded.wellFormed.acyclic _
      (Relation.TransGen.head firstTab (Relation.TransGen.single is_dragged.child))
  have notRoot := is_dragged.parent_ne_root loaded none_found
  have stillThere : Child after dragged.parent.id dragged.id := by
    unfold Child
    rw [lists]
    unfold raisedList
    rw [if_neg notTab, if_neg elsewhere, if_neg notRoot]
    exact is_dragged.child
  have tabNotRoot : tab ≠ dashboardRootId :=
    fun same => loaded.anchored.rootOnTop _ (same ▸ firstTab)
  have onTop : Child after dashboardRootId dragged.id := by
    unfold Child
    rw [lists]
    unfold raisedList
    rw [if_neg tabNotRoot.symm, if_neg root_ne_grid, if_pos rfl]
    exact mem_singleton_self _
  have present : layout.entry dragged.id ≠ none := loaded.wellFormed.listed _ _ is_dragged.child
  refine ⟨fun intact => ?_, stillThere⟩
  have stays : after.entry dragged.id ≠ none := by
    rw [Ne, ← typeOf_eq_none, types, typeOf_eq_none]
    exact present
  obtain ⟨_, once⟩ := intact.hung dragged.id stays (is_dragged.ne_root loaded)
    (is_dragged.ne_header loaded) (is_dragged.ne_grid loaded)
  exact notRoot (once.unique stillThere onTop)

theorem not_intact_of_beside (loaded : Loaded layout) (is_dragged : Dragged layout dragged)
    {beside : String}
    (types : ∀ k, typeOf after k = typeOf layout k)
    (lists : ∀ k, childrenOf after k = raisedList layout dragged.id tab k)
    (inGrid : dragged.parent.id = dashboardGridId) (edge : Child layout dashboardRootId beside)
    (other : beside ≠ dashboardGridId) (tabNotRoot : tab ≠ dashboardRootId) : ¬Intact after := by
  have once : ∀ p, Child layout p beside → p = dashboardRootId := fun p old =>
    loaded.wellFormed.single p _ beside old edge
  intro intact
  have stays : after.entry beside ≠ none := by
    rw [Ne, ← typeOf_eq_none, types, typeOf_eq_none]
    exact loaded.wellFormed.listed _ _ edge
  obtain ⟨_, p, held, _⟩ := intact.hung beside stays
    (fun same => loaded.anchored.rootOnTop _ (same ▸ edge))
    (fun same => loaded.headerApart _ (same ▸ edge)) other
  unfold Child at held
  rw [lists] at held
  unfold raisedList at held
  split at held
  · rcases mem_append.mp held with own | moved
    · exact tabNotRoot (once tab own)
    · exact root_ne_grid (once _ (mem_of_mem_filter moved)).symm
  · split at held
    · cases held
    · split at held
      · have same := mem_singleton.mp held
        have child := is_dragged.child
        rw [inGrid, ← same] at child
        exact root_ne_grid (once _ child).symm
      · rename_i notRoot
        exact notRoot (once p held)

end Raise

/-- The drop is refused, or the container is not in the subtree of what is dragged; and
tabs that have a tab come from a grid that is all there is when they are put on top. -/
structure KeepsTree (layout : Layout) (dragged : DraggingItem) (container : LayoutItem) : Prop where
  outside : nestsTopLevelTab dragged.parent ⟨container.id, some container.type, 0⟩ layout = true
    ∨ ¬Under (Child layout) dragged.id container.id
  fromGrid : container.id = dashboardRootId → childrenOf layout dragged.id ≠ [] →
    dragged.parent.id = dashboardGridId ∧ childrenOf layout dashboardRootId = [dashboardGridId]

section Drop
variable {layout : Layout} {cache : ParentCache} {ids : NanoIds} {dragged : DraggingItem}
  {destination : DropPlace} {position : DropPosition} {container : LayoutItem}

def droppedAt (dragged : DraggingItem) (destination : DropPlace) (position : DropPosition) :
    DropResult :=
  ⟨some dragged.parent, some destination, some ⟨dragged.id, dragged.type, dragged.metadata⟩,
    some position⟩

theorem exists_other_of_head? {list : List String} {x : String} (first : list.head? = some x)
    (distinct : list.Nodup) (more : list ≠ [x]) : ∃ y ∈ list, y ≠ x := by
  cases list with
  | nil => cases first
  | cons a rest =>
    obtain rfl : a = x := Option.some.inj first
    cases rest with
    | nil => exact (more rfl).elim
    | cons b rest =>
      refine ⟨b, by simp, ?_⟩
      rintro rfl
      simp at distinct

theorem root_accepts (loaded : Loaded layout) (is_dragged : Dragged layout dragged)
    {rootComponent : LayoutItem} (at_root : layout.entry dashboardRootId = some rootComponent)
    {pointer : Pointer}
    (accepted : getDropPosition (Target.root rootComponent).props dragged pointer =
      some (.at position)) :
    dragged.type = .tabs := by
  have rootType : rootComponent.type = .root := by
    have found := loaded.anchored.rootType
    rw [typeOf_of_entry at_root] at found
    exact Option.some.inj found
  by_contra other
  have notSibling : validSibling (Target.root rootComponent).props dragged = false := rfl
  have notChild : validChild (Target.root rootComponent).props dragged = false := by
    have drawn := is_dragged.drawn
    unfold validChild
    simp only [Target.props, Option.map_some, rootType]
    cases type : dragged.type with
    | tabs => exact (other type).elim
    | grid =>
      rw [type] at drawn
      exact absurd drawn (by decide)
    | _ => rfl
  unfold getDropPosition at accepted
  rw [notSibling, notChild] at accepted
  split at accepted
  · cases accepted
  · cases accepted

theorem droppedOnRoot_intact (loaded : Loaded layout) (is_dragged : Dragged layout dragged)
    (none_found : topLevelTabs layout = none)
    (tabs : dragged.type = .tabs) (at_destination : destination.id = dashboardRootId) :
    Intact (dispatchDrop ids (droppedAt dragged destination position) ⟨layout, cache⟩).layout
      ↔ (childrenOf layout dragged.id ≠ [] →
        dragged.parent.id = dashboardGridId ∧ childrenOf layout dashboardRootId =
          [dashboardGridId]) := by
  obtain ⟨rootComponent, at_root⟩ := exists_entry loaded.wellFormed.rooted
  obtain ⟨k, filled⟩ := is_dragged.root_filled loaded
  have first := head_of_no_topLevelTabs loaded none_found filled
  have gridEdge : Child layout dashboardRootId dashboardGridId := mem_of_mem_head? first
  obtain ⟨topLevelComponent, at_grid⟩ := exists_entry (loaded.wellFormed.listed _ _ gridEdge)
  have firstOfRoot : firstKey rootComponent.children = dashboardGridId := by
    rw [childrenOf_of_entry at_root] at first
    unfold firstKey
    rw [first]
    rfl
  obtain ⟨dragging, at_dragging⟩ := exists_entry (loaded.wellFormed.listed _ _ is_dragged.child)
  have reduced :
    Store.reduce ⟨layout, cache⟩ (.createTopLevelTabs (droppedAt dragged destination position) ids)
      = (raiseExistingTabs dragged.id rootComponent topLevelComponent layout).map fun next =>
        ⟨next, cache⟩ := by
    unfold Store.reduce layoutReducer createTopLevelTabs droppedAt
    dsimp only
    rw [at_root]
    dsimp only
    rw [if_pos is_dragged.existing, firstOfRoot, at_grid, Option.map_map]
    rfl
  have dispatched : ∀ r, Store.reduce ⟨layout, cache⟩
        (.createTopLevelTabs (droppedAt dragged destination position) ids) = r →
      dispatchDrop ids (droppedAt dragged destination position) ⟨layout, cache⟩ =
        r.elim ⟨layout, cache⟩ fun next => if dragged.parent.id = newComponentsSourceId then next
          else deleteEmptySource dragged.parent next := by
    rintro r rfl
    unfold dispatchDrop droppedAt
    dsimp only
    rw [if_pos at_destination]
    cases Store.reduce ⟨layout, cache⟩ (.createTopLevelTabs _ ids) <;> rfl
  rw [dispatched _ reduced]
  by_cases empty : childrenOf layout dragged.id = []
  · have throws : raiseExistingTabs dragged.id rootComponent topLevelComponent layout = none := by
      have noTab : firstKey dragging.children = "undefined" := by
        rw [← childrenOf_of_entry at_dragging, empty]
        rfl
      unfold raiseExistingTabs
      rw [at_dragging]
      dsimp only
      rw [noTab, loaded.unnamed]
    rw [throws]
    exact ⟨fun _ filled => (filled empty).elim, fun _ => loaded.wellFormed.intact⟩
  · obtain ⟨tab, rest, list⟩ := exists_cons_of_ne_nil empty
    have firstTab : (childrenOf layout dragged.id).head? = some tab := by rw [list]; rfl
    have tabEdge : Child layout dragged.id tab := mem_of_mem_head? firstTab
    have tabNotRoot : tab ≠ dashboardRootId :=
      fun same => loaded.anchored.rootOnTop _ (same ▸ tabEdge)
    have tabNotGrid : tab ≠ dashboardGridId := fun same =>
      is_dragged.ne_root loaded (loaded.anchored.gridUnderRoot _ (same ▸ tabEdge))
    obtain ⟨after, ran, keyed, types, lists⟩ :=
      raiseExistingTabs_lists loaded.wellFormed.keyed at_root
      firstOfRoot at_grid firstTab (loaded.wellFormed.listed _ _ tabEdge) tabNotRoot tabNotGrid
    rw [ran]
    simp only [Option.map_some, Option.elim_some, if_neg is_dragged.existing]
    by_cases inGrid : dragged.parent.id = dashboardGridId
    · have kept : (deleteEmptySource dragged.parent ⟨after, cache⟩).layout = after := by
        rcases deleteEmptySource_cases dragged.parent ⟨after, cache⟩ with same | ⟨type, _⟩
        · exact same
        · dsimp only at type
          rw [inGrid, types, loaded.anchored.gridType] at type
          simp at type
      rw [kept]
      by_cases gridOnly : childrenOf layout dashboardRootId = [dashboardGridId]
      · refine ⟨fun _ _ => ⟨inGrid, gridOnly⟩, fun _ => ?_⟩
        have list := childrenOf_of_entry at_root
        have inside : Child layout dashboardGridId dragged.id := inGrid ▸ is_dragged.child
        obtain ⟨raisedLayout, ranRaised, raised⟩ := raiseExistingTabs_raised loaded.wellFormed
          loaded.anchored at_root (list.symm.trans gridOnly) at_grid inside
          (by rw [is_dragged.named.type, tabs]) firstTab
        rw [ran] at ranRaised
        cases ranRaised
        exact (loaded.wellFormed.raised loaded.anchored gridOnly raised).1.intact
      · refine ⟨fun intact => ?_, fun holds => (gridOnly (holds empty).2).elim⟩
        obtain ⟨beside, edge, other⟩ :=
          exists_other_of_head? first (loaded.wellFormed.distinct dashboardRootId) gridOnly
        exact (not_intact_of_beside loaded is_dragged types lists inGrid edge other tabNotRoot
          intact).elim
    · obtain ⟨broken, stillThere⟩ :=
        not_intact_of_elsewhere loaded is_dragged none_found tabEdge types lists inGrid
      rw [deleteEmptySource_of_child ⟨after, cache⟩ stillThere]
      exact ⟨fun intact => (broken intact).elim, fun holds => (inGrid (holds empty).1).elim⟩

theorem droppedElsewhere_intact (loaded : Loaded layout) (fresh : Fresh layout ids)
    (is_dragged : Dragged layout dragged) (not_root : destination.id ≠ dashboardRootId)
    (placed : Placed container destination) (found : layout.entry container.id = some container)
    (reached : Under (Child layout) dashboardRootId container.id) :
    Intact (dispatchDrop ids (droppedAt dragged destination position) ⟨layout, cache⟩).layout
      ↔ (nestsTopLevelTab dragged.parent ⟨container.id, some container.type, 0⟩ layout = true
        ∨ ¬Under (Child layout) dragged.id container.id) := by
  have wellFormed := loaded.wellFormed
  have real := placed.names found
  have sameTest : nestsTopLevelTab dragged.parent destination layout
      = nestsTopLevelTab dragged.parent ⟨container.id, some container.type, 0⟩ layout := by
    unfold nestsTopLevelTab
    rw [placed.id, placed.type]
  rw [← sameTest]
  have reduced : ∀ dropResult, dropResult = droppedAt dragged destination position →
      (dispatchDrop ids dropResult ⟨layout, cache⟩).layout =
        if nestsTopLevelTab dragged.parent destination layout = true then layout
        else if destination.id = dragged.parent.id ∧ destination.index = dragged.parent.index then
          (deleteEmptySource dragged.parent ⟨layout, cache⟩).layout
        else (Store.reduce ⟨layout, cache⟩ (.moveComponent dropResult ids)).elim layout fun next =>
          (deleteEmptySource dragged.parent next).layout := by
    rintro dropResult rfl
    cases ran : Store.reduce ⟨layout, cache⟩
      (.moveComponent (droppedAt dragged destination position) ids) with
    | none =>
      unfold droppedAt at ran
      simp only [dispatchDrop, droppedAt, if_neg not_root, if_neg is_dragged.existing, ran]
      split
      · rfl
      · split <;> rfl
    | some next =>
      unfold droppedAt at ran
      simp only [dispatchDrop, droppedAt, if_neg not_root, if_neg is_dragged.existing, ran]
      split
      · rfl
      · split <;> rfl
  rw [reduced _ rfl]
  by_cases nests : nestsTopLevelTab dragged.parent destination layout = true
  · rw [if_pos nests]
    exact ⟨fun _ => .inl nests, fun _ => wellFormed.intact⟩
  rw [if_neg nests]
  by_cases still : destination.id = dragged.parent.id ∧ destination.index = dragged.parent.index
  · rw [if_pos still, deleteEmptySource_of_child ⟨layout, cache⟩ is_dragged.child]
    refine ⟨fun _ => .inr fun under => ?_, fun _ => wellFormed.intact⟩
    rw [← placed.id, still.1] at under
    exact wellFormed.acyclic _ (Relation.TransGen.tail' under is_dragged.child)
  rw [if_neg still]
  have reachedDestination : Under (Child layout) dashboardRootId destination.id := by
    rw [placed.id]
    exact reached
  by_cases inside : Under (Child layout) dragged.id container.id
  · obtain ⟨after, cacheAfter, top, inner, ran, grafted, shape, _⟩ :=
      moveComponent_grafted cache (some position) wellFormed.keyed
        wellFormed.distinct wellFormed.single wellFormed.listed wellFormed.wrapped
          is_dragged.named.place
        is_dragged.named.type real.type real.present real.nonnegative real.inside
          (fresh.at_row .row)
        fun resizable => sized_of_dragged wellFormed loaded.anchored is_dragged.named.type
          reachedDestination resizable
    have moved : Store.reduce ⟨layout, cache⟩
      (.moveComponent (droppedAt dragged destination position) ids)
        = some ⟨after, cacheAfter⟩ := by
      unfold Store.reduce layoutReducer droppedAt
      dsimp only
      rw [ran]
      rfl
    rw [moved]
    rw [← placed.id] at inside
    refine ⟨fun intact => ?_, fun holds => ?_⟩
    · exact (not_intact_of_inside loaded is_dragged grafted shape inside cacheAfter intact).elim
    · rw [← placed.id] at holds
      exact (holds.resolve_left nests inside).elim
  · refine ⟨fun _ => .inr inside, fun _ => ?_⟩
    have named : Named layout (.moveComponent (droppedAt dragged destination position) ids) := by
      refine ⟨fresh, _, _, _, rfl, rfl, rfl, is_dragged.named, real, ?_⟩
      rw [placed.id]
      exact inside
    have shown : Shown layout (.moveComponent (droppedAt dragged destination position) ids) := by
      refine ⟨fun place same => ?_, fun dragging same => ?_⟩
      · cases same
        exact reachedDestination
      · cases same
        exact is_dragged.ne_grid loaded
    obtain ⟨next, ran, left, held⟩ :=
      reduce_wellFormed ⟨layout, cache⟩ wellFormed loaded.anchored named shown
    rw [ran]
    exact (deleteEmptySource_wellFormed dragged.parent left held).intact

end Drop

/-- Dropping onto a rendered target keeps the tree exactly when the drop does not put the
component into its own subtree, and does not put tabs on top that come from elsewhere than
a grid that is all there is. -/
theorem handleComponentDrop_intact {store : Store} {ids : NanoIds} {dragged : DraggingItem}
    {target : Target} {pointer : Pointer} {position : DropPosition} {dropResult : DropResult}
    {cache : ParentCache} (loaded : Loaded store.layout) (fresh : Fresh store.layout ids)
    (rendered : Rendered store.layout target) (is_dragged : Dragged store.layout dragged)
    (accepted : getDropPosition target.props dragged pointer = some (.at position))
    (dropped : handleDrop target.props dragged position = some dropResult)
    (fits : dropOverflowsParent ids dropResult store = some (false, cache)) :
    Intact (handleComponentDrop ids dropResult store).layout
      ↔ KeepsTree store.layout dragged (target.container dragged.type) := by
  obtain ⟨layout, before⟩ := store
  have nonnegative := (JsArray.item_bounds is_dragged.named.place).1
  obtain ⟨destination, ran, placed⟩ := handleDrop_placed position rendered nonnegative
  rw [ran] at dropped
  cases dropped
  obtain ⟨found, reached⟩ := rendered.container loaded is_dragged dragged.type
  unfold handleComponentDrop
  rw [fits]
  change Intact (dispatchDrop ids (droppedAt dragged destination position) ⟨layout, cache⟩).layout ↔
    _
  by_cases at_root : (target.container dragged.type).id = dashboardRootId
  · obtain ⟨rootComponent, rfl⟩ := rendered.root_target loaded at_root
    have tabs := root_accepts loaded is_dragged rendered.2 accepted
    rw [droppedOnRoot_intact loaded is_dragged rendered.1 tabs (placed.id.trans at_root)]
    refine ⟨fun holds => ⟨.inr fun under => ?_, fun _ => holds⟩,
      fun keeps => keeps.fromGrid at_root⟩
    rw [at_root] at under
    rcases Forest.under_cases under with same | ⟨p, _, edge⟩
    · exact is_dragged.ne_root loaded same
    · exact loaded.anchored.rootOnTop p edge
  · rw [droppedElsewhere_intact loaded fresh is_dragged
      (fun same => at_root (placed.id.symm.trans same))
      placed found reached]
    exact ⟨fun holds => ⟨holds, fun same => (at_root same).elim⟩, fun keeps => keeps.outside⟩

def middle : Pointer := ⟨true, some ⟨0, 0⟩, some ⟨0, 0, 0, 0⟩⟩

def columnLayout : Layout :=
  layoutOf [component dashboardRootId .root [dashboardGridId],
    component dashboardGridId .grid ["ROW"],
    component "ROW" .row ["COLUMN", "CHART"], component "COLUMN" .column ["INNER"],
    component "INNER" .row [], component "CHART" .chart []]

theorem column_loaded : Loaded columnLayout where
  wellFormed := (wellFormed_of_checked columnLayout (by decide)).1
  anchored := (wellFormed_of_checked columnLayout (by decide)).2
  headerApart p edge := by
    have key := columnLayout.listed p (entry_of_child edge)
    have none_lists : ∀ k ∈ columnLayout.keys, dashboardHeaderId ∉ childrenOf columnLayout k := by
      decide
    exact none_lists p key edge
  unnamed := by decide

theorem row_onPage : OnPage columnLayout (component "ROW" .row ["COLUMN", "CHART"]) 2 :=
  OnPage.inGrid (show dashboardGridId ∈ gridIds columnLayout by decide)
    (rfl : columnLayout.entry dashboardGridId = some (component dashboardGridId .grid ["ROW"]))
    (mem_singleton_self _) rfl

theorem column_onPage : OnPage columnLayout (component "COLUMN" .column ["INNER"]) 3 :=
  row_onPage.inRow rfl mem_cons_self rfl

theorem chart_onPage : OnPage columnLayout (component "CHART" .chart []) 3 :=
  row_onPage.inRow rfl (mem_cons_of_mem _ (mem_singleton_self _)) rfl

theorem inner_onPage : OnPage columnLayout (component "INNER" .row []) 4 :=
  column_onPage.inColumn rfl (mem_singleton_self _) rfl

def draggedColumn : DraggingItem :=
  ⟨"COLUMN", .column, JsObject.empty, ⟨"ROW", some .row, 0⟩⟩

def innerStart : Target := .rowStart (component "INNER" .row []) 4

def draggedChart : DraggingItem :=
  ⟨"CHART", .chart, JsObject.empty, ⟨"ROW", some .row, 1⟩⟩

def columnEnd : Target := .columnAfter (component "COLUMN" .column ["INNER"]) 3 0

def dropInColumn : DropResult := droppedAt draggedChart ⟨"COLUMN", some .column, 1⟩ .right

/-- The chart is dragged into the column. -/
theorem handleComponentDrop_intact_chart :
    ∃ cache, dropOverflowsParent sampleIds dropInColumn ⟨columnLayout, noCache⟩ =
      some (false, cache)
      ∧ Intact (handleComponentDrop sampleIds dropInColumn ⟨columnLayout, noCache⟩).layout := by
  have answered : (dropOverflowsParent sampleIds dropInColumn ⟨columnLayout, noCache⟩).any
      (fun answer => answer.1 = false) = true := by decide
  obtain ⟨⟨overflows, cache⟩, fits, holds⟩ := (Option.any_eq_true _ _).mp answered
  obtain rfl : overflows = false := by simpa using holds
  have is_dragged : Dragged columnLayout draggedChart :=
    ⟨.inl ⟨_, _, chart_onPage, rfl⟩, by decide, by decide,
      ⟨by decide, by decide, by decide⟩⟩
  have rendered : Rendered columnLayout columnEnd := ⟨column_onPage, rfl, by decide⟩
  have fresh : Fresh columnLayout sampleIds :=
    fresh_of_dashless (by decide +kernel) (by decide +kernel)
  have accepted : getDropPosition columnEnd.props draggedChart middle = some (.at .right) := by
    decide +kernel
  refine ⟨cache, fits,
    (handleComponentDrop_intact column_loaded fresh rendered is_dragged accepted rfl
    fits).mpr ⟨.inr ?_, ?_⟩⟩
  · exact not_under_of_closed ["CHART"] (by decide) (by decide +kernel) (by decide)
  · intro same
    exact absurd same (by decide)

/-- A drop that is accepted and fits, after which not every component hangs below the root
through one parent. -/
def Detaches (layout : Layout) (dragged : DraggingItem) (target : Target) : Prop :=
  Loaded layout ∧ Fresh layout sampleIds ∧ Rendered layout target ∧ Dragged layout dragged
    ∧ ∃ position dropResult cache,
      getDropPosition target.props dragged middle = some (.at position)
        ∧ handleDrop target.props dragged position = some dropResult
        ∧ dropOverflowsParent sampleIds dropResult ⟨layout, noCache⟩ = some (false, cache)
        ∧ ¬Intact (handleComponentDrop sampleIds dropResult ⟨layout, noCache⟩).layout

theorem column_detaches : Detaches columnLayout draggedColumn innerStart := by
  have answered :
    (dropOverflowsParent sampleIds (droppedAt draggedColumn ⟨"INNER", some .row, 0⟩ .top)
      ⟨columnLayout, noCache⟩).any (fun answer => answer.1 = false) = true := by decide
  obtain ⟨⟨overflows, cache⟩, fits, holds⟩ := (Option.any_eq_true _ _).mp answered
  obtain rfl : overflows = false := by simpa using holds
  refine ⟨column_loaded, fresh_of_dashless (by decide +kernel) (by decide +kernel),
    ⟨inner_onPage, rfl⟩, ⟨.inl ⟨_, _, column_onPage, rfl⟩, by decide, by decide,
      ⟨by decide +kernel, by decide +kernel, by decide +kernel⟩⟩, .top, _, cache,
      by decide +kernel, rfl, fits, fun intact => ?_⟩
  have hung := intact.hung "COLUMN" (by decide +kernel) (by decide) (by decide) (by decide)
  exact not_under_of_closed [dashboardRootId, dashboardGridId, "ROW", "CHART"] (by decide)
    (by decide +kernel) (by decide)
    hung.1

def nestedTabsLayout : Layout :=
  layoutOf [component dashboardRootId .root [dashboardGridId],
    component dashboardGridId .grid ["ROW"],
    component "ROW" .row ["COLUMN"], component "COLUMN" .column ["TABS"],
    component "TABS" .tabs ["TAB"], component "TAB" .tab []]

def draggedTabs : DraggingItem :=
  ⟨"TABS", .tabs, JsObject.empty, ⟨"COLUMN", some .column, 0⟩⟩

def aroundHeader : Target := .root (component dashboardRootId .root [dashboardGridId])

theorem nested_tabs_detach : Detaches nestedTabsLayout draggedTabs aroundHeader := by
  have answered :
    (dropOverflowsParent sampleIds (droppedAt draggedTabs ⟨dashboardRootId, some .root, 0⟩ .bottom)
      ⟨nestedTabsLayout, noCache⟩).any (fun answer => answer.1 = false) = true := by decide
  obtain ⟨⟨overflows, cache⟩, fits, holds⟩ := (Option.any_eq_true _ _).mp answered
  obtain rfl : overflows = false := by simpa using holds
  have checked := wellFormed_of_checked nestedTabsLayout (by decide)
  have row : OnPage nestedTabsLayout (component "ROW" .row ["COLUMN"]) 2 :=
    OnPage.inGrid (show dashboardGridId ∈ gridIds nestedTabsLayout by decide)
      (rfl : nestedTabsLayout.entry dashboardGridId =
        some (component dashboardGridId .grid ["ROW"]))
      (mem_singleton_self _) rfl
  have column : OnPage nestedTabsLayout (component "COLUMN" .column ["TABS"]) 3 :=
    row.inRow rfl (mem_singleton_self _) rfl
  have tabs : OnPage nestedTabsLayout (component "TABS" .tabs ["TAB"]) 4 :=
    column.inColumn rfl (mem_singleton_self _) rfl
  have none_lists :
      ∀ k ∈ nestedTabsLayout.keys, dashboardHeaderId ∉ childrenOf nestedTabsLayout k := by
    decide
  refine ⟨⟨checked.1, checked.2,
    fun p edge => none_lists p (nestedTabsLayout.listed p (entry_of_child edge)) edge,
      by decide⟩, fresh_of_dashless (by decide) (by decide), ⟨rfl, rfl⟩,
    ⟨.inl ⟨_, _, tabs, rfl⟩, by decide, by decide, ⟨by decide, by decide, by decide⟩⟩,
    .bottom, _, cache, by decide, rfl, fits, fun intact => ?_⟩
  obtain ⟨_, once⟩ := intact.hung "TABS" (by decide) (by decide) (by decide) (by decide)
  exact absurd (once.unique (show Child _ dashboardRootId "TABS" by decide)
    (show Child _ "COLUMN" "TABS" by decide)) (by decide)

/-- A column dropped into a row that it holds is cut off with all it holds, and tabs
put on top from a column hang below it as well. -/
theorem drops_detach : Detaches columnLayout draggedColumn innerStart
    ∧ Detaches nestedTabsLayout draggedTabs aroundHeader :=
  ⟨column_detaches, nested_tabs_detach⟩

end Liteset.Dashboard
