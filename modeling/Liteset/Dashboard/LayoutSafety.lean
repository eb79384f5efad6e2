import Liteset.Lib.Runs
import Liteset.Dashboard.LayoutMove
import Liteset.Dashboard.LayoutTopLevel
import Liteset.Dashboard.LayoutWidths

/-!
# Runs of the layout reducer

Every run of drops and deletions that name what is really there keeps the layout
well-formed, as long as things are dropped where the dashboard shows them.
-/

set_option autoImplicit false

namespace Liteset.Dashboard

open Lib
open Lib.JsObject (Record)
open Lib.JsArray (item splice)
open Lib.Forest (Under)
open Lib.Runs (Reaches)

structure NamesDragged (layout : Layout) (source : DropPlace) (dragging : Dragging) : Prop where
  place : item (childrenOf layout source.id) source.index = some dragging.id
  sourceType : source.type = typeOf layout source.id
  type : typeOf layout dragging.id = some dragging.type

structure NamesDestination (layout : Layout) (destination : DropPlace) : Prop where
  present : layout.entry destination.id ≠ none
  type : destination.type = typeOf layout destination.id
  nonnegative : 0 ≤ destination.index
  inside : destination.index ≤ (childrenOf layout destination.id).length

def Named (layout : Layout) : Action → Prop
  | .createComponent dropResult ids =>
    Fresh layout ids ∧ ∃ source destination dragging, dropResult.source = some source
      ∧ dropResult.destination = some destination ∧ dropResult.dragging = some dragging
      ∧ source.id = newComponentsSourceId ∧ NamesDestination layout destination
  | .moveComponent dropResult ids =>
    Fresh layout ids ∧ ∃ source destination dragging, dropResult.source = some source
      ∧ dropResult.destination = some destination ∧ dropResult.dragging = some dragging
      ∧ NamesDragged layout source dragging ∧ NamesDestination layout destination
      ∧ ¬Under (Child layout) dragging.id destination.id
  | .deleteComponent id parentId => ∃ parent, parentId = some parent ∧ Child layout parent id
  | .createTopLevelTabs dropResult ids =>
    childrenOf layout dashboardRootId = [dashboardGridId]
      ∧ ∃ source destination dragging, dropResult.source = some source
      ∧ dropResult.destination = some destination ∧ dropResult.dragging = some dragging
      ∧ dragging.type = .tabs ∧ NamesDestination layout destination
      ∧ ((source.id = newComponentsSourceId ∧ Fresh layout ids)
        ∨ (source.id = dashboardGridId ∧ NamesDragged layout source dragging
          ∧ ¬Under (Child layout) dragging.id destination.id))
  | .deleteTopLevelTabs => True

/-- Things are dropped where the dashboard shows them, the grid is neither dragged nor
deleted, and top-level tabs are made and removed as a whole. -/
def Shown (layout : Layout) : Action → Prop
  | .createComponent dropResult _ => ∀ destination, dropResult.destination = some destination →
      Under (Child layout) dashboardRootId destination.id
  | .moveComponent dropResult _ =>
    (∀ destination, dropResult.destination = some destination →
      Under (Child layout) dashboardRootId destination.id)
    ∧ ∀ dragging, dropResult.dragging = some dragging → dragging.id ≠ dashboardGridId
  | .deleteComponent id _ => id ≠ dashboardGridId
  | .createTopLevelTabs dropResult _ => ∀ source destination dragging,
      dropResult.source = some source → dropResult.destination = some destination →
      dropResult.dragging = some dragging →
        (source.id = newComponentsSourceId → destination.id = dashboardRootId)
        ∧ (source.id ≠ newComponentsSourceId → childrenOf layout dragging.id ≠ [])
  | .deleteTopLevelTabs => ∃ top, (childrenOf layout dashboardRootId).head? = some top
      ∧ (typeOf layout top = some .tabs → childrenOf layout dashboardRootId = [top]
        ∧ ∀ tab, Child layout top tab → typeOf layout tab = some .tab)

section Steps
variable {layout : Layout} {cache : ParentCache}

def Yields (result : Option (Layout × ParentCache)) : Prop :=
  ∃ next cacheAfter, result = some (next, cacheAfter) ∧ WellFormed next ∧ Anchored next

variable {ids : NanoIds}

theorem sized_of_new (wellFormed : WellFormed layout) (anchored : Anchored layout)
    {source destination : DropPlace} {dragging : Dragging}
    (new : source.id = newComponentsSourceId)
    (reached : Under (Child layout) dashboardRootId destination.id)
    (resizable : componentIsResizable dragging.type = true) :
    ∃ width, getComponentWidthFromDrop cache source destination
      (draggedComponent ids source dragging layout) layout = some width := by
  unfold draggedComponent
  rw [if_pos new]
  refine getComponentWidthFromDrop_total wellFormed anchored cache reached ?_ resizable
  intro c member
  cases member

theorem sized_of_dragged (wellFormed : WellFormed layout) (anchored : Anchored layout)
    {source destination : DropPlace} {dragging : Dragging}
    (type : typeOf layout dragging.id = some dragging.type)
    (reached : Under (Child layout) dashboardRootId destination.id)
    (resizable : componentIsResizable dragging.type = true) :
    ∃ width, getComponentWidthFromDrop cache source destination
      (draggedComponent ids source dragging layout) layout = some width := by
  by_cases new : source.id = newComponentsSourceId
  · exact sized_of_new wellFormed anchored new reached resizable
  · have present : layout.entry dragging.id ≠ none := by
      rw [Ne, ← typeOf_eq_none, type]
      simp
    obtain ⟨component, found⟩ := exists_entry present
    have same : component.type = dragging.type := by
      rw [typeOf_of_entry found] at type
      exact Option.some.inj type
    unfold draggedComponent
    rw [if_neg new, found]
    refine getComponentWidthFromDrop_total wellFormed anchored cache reached ?_ (same ▸ resizable)
    intro c member
    refine wellFormed.listed dragging.id c ?_
    rw [Child, childrenOf_of_entry found]
    exact member

variable {dropResult : DropResult}

section
variable (wellFormed : WellFormed layout) (anchored : Anchored layout)
include wellFormed anchored

theorem createComponent_yields (named : Named layout (.createComponent dropResult ids))
    (shown : Shown layout (.createComponent dropResult ids)) :
    Yields (createComponent cache ids dropResult layout) := by
  obtain ⟨fresh, source, destination, dragging, at_source, at_destination, at_dragging, new,
    real⟩ := named
  have reached := shown destination at_destination
  obtain ⟨_, _, _, position⟩ := dropResult
  cases at_source
  cases at_destination
  cases at_dragging
  obtain ⟨next, cacheAfter, top, inner, ran, grafted, unused, wrapped⟩ :=
    createComponent_grafted wellFormed.keyed wellFormed.distinct wellFormed.listed fresh
      real.present
      fun resizable => sized_of_new wellFormed anchored new reached resizable
  have absent : ∀ k, newParent destination.id top inner k ≠ none → layout.entry k = none := by
    intro k moved
    obtain ⟨p, found⟩ := Option.ne_none_iff_exists'.mp moved
    rcases newParent_cases found with ⟨same, _⟩ | ⟨at_inner, _⟩
    · exact unused k (Or.inl same)
    · exact unused k (Or.inr at_inner)
  refine ⟨next, cacheAfter, ran, wellFormed.grafted anchored grafted reached ?_ ?_ wrapped⟩
  · intro k moved under
    have leaf : ∀ c, ¬Child layout k c := fun c edge => entry_of_child edge (absent k moved)
    have present := real.present
    rw [Forest.under_leaf leaf under] at present
    exact present (absent k moved)
  · by_contra moved
    have gridType := anchored.gridType
    rw [typeOf_eq_none.mpr (absent _ moved)] at gridType
    cases gridType

theorem moveComponent_yields (named : Named layout (.moveComponent dropResult ids))
    (shown : Shown layout (.moveComponent dropResult ids)) :
    Yields (moveComponent cache ids dropResult layout) := by
  obtain ⟨fresh, source, destination, dragging, at_source, at_destination, at_dragging,
    dragged, real, outside⟩ := named
  have reached := shown.1 destination at_destination
  have notGrid := shown.2 dragging at_dragging
  obtain ⟨_, _, _, position⟩ := dropResult
  cases at_source
  cases at_destination
  cases at_dragging
  obtain ⟨next, cacheAfter, top, inner, ran, grafted, shape, wrapped⟩ :=
    moveComponent_grafted cache position wellFormed.keyed wellFormed.distinct wellFormed.single
      wellFormed.listed
      wellFormed.wrapped dragged.place dragged.type real.type real.present real.nonnegative
        real.inside
      (fresh.at_row .row) fun resizable =>
        sized_of_dragged wellFormed anchored dragged.type reached resizable
  have moves : ∀ k, newParent destination.id top inner k ≠ none →
      k = dragging.id ∨ layout.entry k = none := by
    intro k moved
    obtain ⟨p, found⟩ := Option.ne_none_iff_exists'.mp moved
    rcases shape with ⟨at_top, at_inner⟩ | ⟨absent, at_inner⟩
    · rcases newParent_cases found with ⟨same, _⟩ | ⟨same, _⟩
      · exact Or.inl (same.trans at_top)
      · rw [at_inner] at same
        cases same
    · rcases newParent_cases found with ⟨same, _⟩ | ⟨same, _⟩
      · exact Or.inr (same ▸ absent)
      · rw [at_inner] at same
        exact Or.inl (Option.some.inj same).symm
  refine ⟨next, cacheAfter, ran, wellFormed.grafted anchored grafted reached ?_ ?_ wrapped⟩
  · intro k moved under
    rcases moves k moved with same | absent
    · exact outside (same ▸ under)
    · have leaf : ∀ c, ¬Child layout k c := fun c edge => entry_of_child edge absent
      have present := real.present
      rw [Forest.under_leaf leaf under] at present
      exact present absent
  · by_contra moved
    rcases moves _ moved with same | absent
    · exact notGrid same.symm
    · have gridType := anchored.gridType
      rw [typeOf_eq_none.mpr absent] at gridType
      cases gridType

theorem createTopLevelTabs_yields (named : Named layout (.createTopLevelTabs dropResult ids))
    (shown : Shown layout (.createTopLevelTabs dropResult ids)) :
    Yields (createTopLevelTabs cache ids dropResult layout) := by
  obtain ⟨gridOnly, source, destination, dragging, at_source, at_destination, at_dragging,
    tabs, real, origin⟩ := named
  obtain ⟨onRoot, hasTab⟩ := shown source destination dragging at_source at_destination at_dragging
  obtain ⟨_, _, _, position⟩ := dropResult
  cases at_source
  cases at_destination
  cases at_dragging
  obtain ⟨rootComponent, at_root⟩ := exists_entry wellFormed.rooted
  have gridEdge : Child layout dashboardRootId dashboardGridId := by simp [Child, gridOnly]
  obtain ⟨topLevelComponent, at_grid⟩ := exists_entry (wellFormed.listed _ _ gridEdge)
  have rootList : rootComponent.children = [dashboardGridId] := by
    rw [← childrenOf_of_entry at_root]
    exact gridOnly
  have firstOfRoot : firstKey rootComponent.children = dashboardGridId := by
    rw [rootList]
    rfl
  unfold createTopLevelTabs
  rw [at_root]
  dsimp only
  rcases origin with ⟨new, fresh⟩ | ⟨inGrid, dragged, _⟩
  · obtain ⟨destinationId, destinationType, index⟩ := destination
    have at_drop : destinationId = dashboardRootId := onRoot new
    subst at_drop
    have notResizable : componentIsResizable dragging.type = false := by
      rw [tabs]
      rfl
    have sized : sizedDropChild cache ids (some source) ⟨dashboardRootId, destinationType, index⟩
        dragging rootComponent layout = some (newDropChild ids dragging rootComponent, cache) := by
      unfold sizedDropChild
      rw [notResizable]
      rfl
    have at_id : (newDropChild ids dragging rootComponent).id = uuid .tabs ids.child := by
      rw [← tabs]
      rfl
    obtain ⟨after, ran, raised⟩ :=
      raiseNewTabs_raised wellFormed anchored fresh at_root rootList at_grid
      at_id tabs (splice rootComponent.children index 0
        [(newDropChild ids dragging rootComponent).id])
    have entities : newEntitiesFromDrop cache ids
        ⟨some source, some ⟨dashboardRootId, destinationType, index⟩, some dragging,
          position⟩ layout
        = some (newTabs ids rootComponent (newDropChild ids dragging rootComponent) dashboardRootId
          (splice rootComponent.children index 0 [(newDropChild ids dragging rootComponent).id]),
          cache) := by
      unfold newEntitiesFromDrop
      dsimp only
      rw [at_root]
      dsimp only
      rw [sized]
      dsimp only
      rw [tabs, entitiesAround_tabs]
      rfl
    rw [if_neg (not_not.mpr new), entities]
    dsimp only
    rw [firstOfRoot, at_grid]
    dsimp only
    rw [ran]
    exact ⟨after, cache, rfl, wellFormed.raised anchored gridOnly raised⟩
  · have existing : source.id ≠ newComponentsSourceId := by
      rw [inGrid]
      decide
    have inside : Child layout dashboardGridId dragging.id := by
      have member := JsArray.mem_of_item dragged.place
      rwa [inGrid] at member
    have type : typeOf layout dragging.id = some .tabs := by rw [dragged.type, tabs]
    obtain ⟨tab, rest, list⟩ := List.exists_cons_of_ne_nil (hasTab existing)
    obtain ⟨after, ran, raised⟩ :=
      raiseExistingTabs_raised wellFormed anchored at_root rootList at_grid
      inside type (by rw [list]; rfl)
    rw [if_pos existing, firstOfRoot, at_grid]
    dsimp only
    rw [ran]
    exact ⟨after, cache, rfl, wellFormed.raised anchored gridOnly raised⟩

theorem deleteTopLevelTabs_yields (shown : Shown layout .deleteTopLevelTabs) :
    ∃ next, deleteTopLevelTabs layout = some next ∧ WellFormed next ∧ Anchored next := by
  obtain ⟨top, first, whole⟩ := shown
  by_cases tabs : typeOf layout top = some .tabs
  · obtain ⟨topOnly, tabTypes⟩ := whole tabs
    have notGrid : top ≠ dashboardGridId := by
      rintro rfl
      rw [anchored.gridType] at tabs
      cases tabs
    obtain ⟨next, ran, lowered⟩ := deleteTopLevelTabs_lowered wellFormed anchored topOnly tabs
    exact ⟨next, ran, wellFormed.lowered anchored topOnly notGrid tabTypes lowered⟩
  · exact ⟨layout, deleteTopLevelTabs_of_other wellFormed first tabs, wellFormed, anchored⟩

end

theorem layoutReducer_yields (cache : ParentCache) (wellFormed : WellFormed layout)
    (anchored : Anchored layout)
    (action : Action) (named : Named layout action) (shown : Shown layout action) :
    Yields (layoutReducer cache layout action) := by
  cases action with
  | createComponent dropResult ids => exact createComponent_yields wellFormed anchored named shown
  | moveComponent dropResult ids => exact moveComponent_yields wellFormed anchored named shown
  | deleteComponent id parentId =>
    obtain ⟨parent, rfl, edge⟩ := named
    exact ⟨_, _, rfl, deleteComponent_wellFormed wellFormed anchored edge shown⟩
  | createTopLevelTabs dropResult ids =>
    exact createTopLevelTabs_yields wellFormed anchored named shown
  | deleteTopLevelTabs =>
    obtain ⟨next, ran, kept⟩ := deleteTopLevelTabs_yields wellFormed anchored shown
    refine ⟨next, cache, ?_, kept⟩
    simp only [layoutReducer, ran, Option.map_some]

end Steps

theorem reduce_wellFormed (store : Store) (wellFormed : WellFormed store.layout)
    (anchored : Anchored store.layout) {action : Action} (named : Named store.layout action)
    (shown : Shown store.layout action) :
    ∃ next, store.reduce action = some next ∧ WellFormed next.layout ∧ Anchored next.layout := by
  obtain ⟨layout, cache, ran, kept⟩ :=
    layoutReducer_yields store.cache wellFormed anchored action named shown
  refine ⟨⟨layout, cache⟩, ?_, kept⟩
  unfold Store.reduce
  rw [ran]
  rfl

/-- In every run of such actions the layout stays well-formed, and every such action can
be taken. -/
theorem layout_wellFormed {start store : Store} (wellFormed : WellFormed start.layout)
    (anchored : Anchored start.layout)
    (reached : Reaches Store.reduce
      (fun store action => Named store.layout action ∧ Shown store.layout action) start store) :
    (WellFormed store.layout ∧ Anchored store.layout)
      ∧ ∀ action, Named store.layout action → Shown store.layout action →
        ∃ next, store.reduce action = some next ∧ WellFormed next.layout := by
  have kept : WellFormed store.layout ∧ Anchored store.layout := by
    refine reached.invariant (fun store => WellFormed store.layout ∧ Anchored store.layout)
      ⟨wellFormed, anchored⟩ ?_
    intro earlier action later held allowed taken
    obtain ⟨next, ran, still⟩ := reduce_wellFormed earlier held.1 held.2 allowed.1 allowed.2
    rw [ran] at taken
    cases taken
    exact still
  refine ⟨kept, fun action named shown => ?_⟩
  obtain ⟨next, ran, still, _⟩ := reduce_wellFormed store kept.1 kept.2 named shown
  exact ⟨next, ran, still⟩

def layoutOf (items : List LayoutItem) : Layout :=
  items.foldl (fun layout item => layout.set item.id item) Record.empty

def component (id : String) (type : ComponentType) (children : List String) : LayoutItem where
  children := children
  parents := []
  type := type
  id := id
  metadata := typeToDefaultMetaData type

def noCache : ParentCache := fun _ => none

/-- `getEmptyLayout()` -/
def getEmptyLayout : Layout :=
  layoutOf [component dashboardRootId .root [dashboardGridId], component dashboardGridId .grid []]

def sampleIds : NanoIds := { child := "a", probe := "b", row := "c", tab := "d" }

theorem fresh_of_dashless {layout : Layout} {ids : NanoIds}
    (dashless : ∀ k ∈ layout.keys, '-' ∉ k.toList)
    (distinct : [ids.child, ids.probe, ids.row, ids.tab].Nodup) : Fresh layout ids where
  unused := by
    intro type nanoid _
    by_contra here
    apply dashless _ (layout.listed _ here)
    simp [uuid, String.toList_append]
  distinct := distinct

def chartOnGrid : Action :=
  .createComponent
    { source := some ⟨newComponentsSourceId, none, 0⟩,
      destination := some ⟨dashboardGridId, some .grid, 0⟩,
      dragging := some ⟨"NEW_CHART_ID", .chart, JsObject.empty⟩, position := some .top } sampleIds

/-- A chart dropped on the grid of an empty dashboard is put into a row. -/
theorem layout_wellFormed_new_chart :
    ∃ store, Store.reduce ⟨getEmptyLayout, noCache⟩ chartOnGrid = some store
      ∧ childrenOf store.layout dashboardGridId = ["ROW-c"] ∧ childrenOf store.layout "ROW-c" =
        ["CHART-a"]
      ∧ WellFormed store.layout := by
  have start := wellFormed_of_checked getEmptyLayout (by decide)
  have named : Named getEmptyLayout chartOnGrid := by
    refine ⟨fresh_of_dashless (by decide) (by decide), _, _, _, rfl, rfl, rfl, rfl, ?_⟩
    exact ⟨by decide, by decide, by decide, by decide⟩
  have shown : Shown getEmptyLayout chartOnGrid := by
    intro destination at_destination
    cases at_destination
    exact Relation.ReflTransGen.single (by decide)
  have lists : (Store.reduce ⟨getEmptyLayout, noCache⟩ chartOnGrid).any (fun store =>
      decide (childrenOf store.layout dashboardGridId = ["ROW-c"]
        ∧ childrenOf store.layout "ROW-c" = ["CHART-a"])) = true := by decide
  obtain ⟨store, ran, holds⟩ := (Option.any_eq_true _ _).mp lists
  rw [decide_eq_true_eq] at holds
  have reached : Reaches Store.reduce (fun store action => Named store.layout action
      ∧ Shown store.layout action) ⟨getEmptyLayout, noCache⟩ store :=
    Reaches.start.next chartOnGrid ⟨named, shown⟩ ran
  exact ⟨store, ran, holds.1, holds.2, (layout_wellFormed start.1 start.2 reached).1.1⟩

/-- A well-formed layout that an action breaks although it names only what is there. -/
def Breaks (layout : Layout) (action : Action) : Prop :=
  WellFormed layout ∧ Named layout action
    ∧ ∃ store, Store.reduce ⟨layout, noCache⟩ action = some store ∧ ¬WellFormed store.layout

theorem breaks_of_any {layout : Layout} {action : Action} (checked : Checked layout)
    (named : Named layout action) (bad : Layout → Prop) [DecidablePred bad]
    (found : (Store.reduce ⟨layout, noCache⟩ action).any
      (fun store => decide (bad store.layout)) = true)
    (excluded : ∀ next, bad next → ¬WellFormed next) : Breaks layout action := by
  obtain ⟨store, ran, holds⟩ := (Option.any_eq_true _ _).mp found
  rw [decide_eq_true_eq] at holds
  exact ⟨(wellFormed_of_checked layout checked).1, named, store, ran, excluded store.layout holds⟩

def tabbedLayout : Layout :=
  layoutOf [component dashboardRootId .root ["TABS"], component dashboardGridId .grid [],
    component "TABS" .tabs ["TAB"], component "TAB" .tab ["ROW"], component "ROW" .row ["CHART"],
    component "CHART" .chart []]

def rowToHiddenGrid : Action :=
  .moveComponent
    { source := some ⟨"TAB", some .tab, 0⟩, destination := some ⟨dashboardGridId, some .grid, 0⟩,
      dragging := some ⟨"ROW", .row, JsObject.empty⟩, position := some .bottom } sampleIds

theorem hidden_grid_breaks : Breaks tabbedLayout rowToHiddenGrid := by
  refine breaks_of_any (by decide) ?_ (fun next => ¬Child next dashboardRootId dashboardGridId
    ∧ childrenOf next dashboardGridId ≠ []) (by decide) fun next bad kept =>
      bad.2 (kept.gridEmpty bad.1)
  refine ⟨fresh_of_dashless (by decide) (by decide), _, _, _, rfl, rfl, rfl, ?_, ?_, ?_⟩
  · exact ⟨by decide, by decide, by decide⟩
  · exact ⟨by decide, by decide, by decide, by decide⟩
  · exact not_under_of_closed ["ROW", "CHART"] (by decide) (by decide) (by decide)

def rowBesideGrid : Layout :=
  layoutOf [component dashboardRootId .root [dashboardGridId, "ROW"],
    component dashboardGridId .grid ["HEADER"], component "ROW" .row [],
    component "HEADER" .header []]

def gridIntoRow : Action :=
  .moveComponent
    { source := some ⟨dashboardRootId, some .root, 0⟩, destination := some ⟨"ROW", some .row, 0⟩,
      dragging := some ⟨dashboardGridId, .grid, JsObject.empty⟩, position := some .left } sampleIds

theorem dragged_grid_breaks : Breaks rowBesideGrid gridIntoRow := by
  refine breaks_of_any (by decide) ?_ (fun next => ¬Child next dashboardRootId dashboardGridId
    ∧ childrenOf next dashboardGridId ≠ []) (by decide) fun next bad kept =>
      bad.2 (kept.gridEmpty bad.1)
  refine ⟨fresh_of_dashless (by decide) (by decide), _, _, _, rfl, rfl, rfl, ?_, ?_, ?_⟩
  · exact ⟨by decide, by decide, by decide⟩
  · exact ⟨by decide, by decide, by decide, by decide⟩
  · exact not_under_of_closed [dashboardGridId, "HEADER"] (by decide) (by decide) (by decide)

def titleInGrid : Layout :=
  layoutOf [component dashboardRootId .root [dashboardGridId],
    component dashboardGridId .grid ["TITLE"],
    component "TITLE" .header []]

def topLevelTabsElsewhere : Action :=
  .createTopLevelTabs
    { source := some ⟨newComponentsSourceId, none, 0⟩,
      destination := some ⟨"TITLE", some .header, 0⟩,
      dragging := some ⟨"NEW_TABS_ID", .tabs, JsObject.empty⟩, position := some .top } sampleIds

theorem tabs_elsewhere_break : Breaks titleInGrid topLevelTabsElsewhere := by
  refine breaks_of_any (by decide) ?_ (fun next => Child next dashboardRootId "TABS-a"
    ∧ Child next "TITLE" "TABS-a") (by decide) fun next bad kept =>
      absurd (kept.single _ _ _ bad.1 bad.2) (by decide)
  refine ⟨by decide, _, _, _, rfl, rfl, rfl, rfl, ?_, Or.inl ⟨rfl, ?_⟩⟩
  · exact ⟨by decide, by decide, by decide, by decide⟩
  · exact fresh_of_dashless (by decide) (by decide)

def headerBesideTabs : Layout :=
  layoutOf [component dashboardRootId .root ["TABS", "HEADER"], component dashboardGridId .grid [],
    component "TABS" .tabs [], component "HEADER" .header []]

theorem beside_tabs_breaks : Breaks headerBesideTabs .deleteTopLevelTabs := by
  refine breaks_of_any (by decide) trivial (fun next => next.entry "HEADER" ≠ none
    ∧ ∀ k ∈ [dashboardRootId, dashboardGridId], ∀ c ∈ childrenOf next k,
      c ∈ [dashboardRootId, dashboardGridId]) (by decide) fun next bad kept => ?_
  exact not_under_of_closed _ (by decide) bad.2 (by decide)
    (kept.reachable "HEADER" bad.1 (by decide) (by decide) (by decide))

/-- Naming only what is there is not enough: each of these breaks a well-formed layout. -/
theorem named_actions_break : Breaks tabbedLayout rowToHiddenGrid ∧ Breaks rowBesideGrid gridIntoRow
    ∧ Breaks titleInGrid topLevelTabsElsewhere ∧ Breaks headerBesideTabs .deleteTopLevelTabs :=
  ⟨hidden_grid_breaks, dragged_grid_breaks, tabs_elsewhere_break, beside_tabs_breaks⟩

end Liteset.Dashboard
