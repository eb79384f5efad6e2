import Liteset.Dashboard.LayoutTree
import Liteset.Dashboard.LayoutCreate

/-!
# Top-level tabs

Making tabs the top level of a dashboard moves everything that was in the grid into
their first tab, and keeps the empty grid aside; removing them moves everything
back.
-/

set_option autoImplicit false

namespace Liteset.Dashboard

open Lib List
open Lib.JsObject (Record)
open Lib.JsArray (splice)
open Lib.Forest (Under SingleParent)

/-- `tabs` is now all there is below the root; `tab`, below it, took over what the grid
held, and the grid is empty. -/
structure Raised (before after : Layout) (tabs tab : String) : Prop where
  keyed : Keyed after
  kept : ∀ k, before.entry k ≠ none → typeOf after k = typeOf before k
  added : ∀ k, after.entry k ≠ none → before.entry k = none → k = tabs ∨ k = tab
  tabsType : typeOf after tabs = some .tabs
  tabPresent : after.entry tab ≠ none
  rootList : childrenOf after dashboardRootId = [tabs]
  gridList : childrenOf after dashboardGridId = []
  tabList : childrenOf after tab = childrenOf before tab
    ++ (childrenOf before dashboardGridId).filter fun id => id ≠ tabs
  tabsList : ∀ b, Child after tabs b ↔ b = tab ∨ Child before tabs b
  tabsDistinct : (childrenOf after tabs).Nodup
  others : ∀ k, k ≠ dashboardRootId → k ≠ dashboardGridId → k ≠ tab → k ≠ tabs →
    childrenOf after k = childrenOf before k
  tabsParent : ∀ a, Child before a tabs → a = dashboardGridId
  tabParent : ∀ a, Child before a tab → a = tabs
  differ : tab ≠ tabs
  tabsNotRoot : tabs ≠ dashboardRootId
  tabsNotGrid : tabs ≠ dashboardGridId
  tabNotRoot : tab ≠ dashboardRootId
  tabNotGrid : tab ≠ dashboardGridId

section Raised
variable {before after : Layout} {tabs tab : String}

theorem root_ne_grid : dashboardRootId ≠ dashboardGridId := by decide

/-- Every edge after raising: below the root hang the tabs, below them the tab, below
that what was in the grid; the grid hangs nowhere. -/
theorem Raised.child_iff (raised : Raised before after tabs tab) (wellFormed : WellFormed before)
    (anchored : Anchored before) (gridOnly : childrenOf before dashboardRootId = [dashboardGridId])
    (a b : String) :
    Child after a b ↔
      (b = tabs ∧ a = dashboardRootId) ∨ (b = tab ∧ a = tabs)
      ∨ (b ≠ tabs ∧ b ≠ tab ∧ b ≠ dashboardGridId ∧ Child before dashboardGridId b ∧ a = tab)
      ∨ (b ≠ tabs ∧ b ≠ tab ∧ b ≠ dashboardGridId ∧ ¬Child before dashboardGridId b ∧
        Child before a b) := by
  have gridHung : Child before dashboardRootId dashboardGridId := by simp [Child, gridOnly]
  have rootChild : ∀ c, Child before dashboardRootId c → c = dashboardGridId := by
    intro c edge
    simpa [Child, gridOnly] using edge
  have notSelf : ¬Child before dashboardGridId dashboardGridId := fun edge =>
    root_ne_grid (anchored.gridUnderRoot _ edge).symm
  by_cases at_root : a = dashboardRootId
  · have list : Child after a b ↔ b = tabs := by simp [Child, at_root, raised.rootList]
    rw [list, at_root]
    have := raised.tabsNotRoot
    have := raised.tabNotRoot
    have old : Child before dashboardRootId b → b = dashboardGridId := rootChild b
    grind
  · by_cases at_grid : a = dashboardGridId
    · have list : ¬Child after a b := by simp [Child, at_grid, raised.gridList]
      have := raised.tabsNotGrid
      have := raised.tabNotGrid
      rw [at_grid] at list ⊢
      have := root_ne_grid
      grind
    · by_cases at_tab : a = tab
      · have list : Child after a b ↔ Child before tab b ∨
            (Child before dashboardGridId b ∧ b ≠ tabs) := by
          simp [Child, at_tab, raised.tabList]
        rw [list, at_tab]
        have tabsElsewhere : ¬Child before tab tabs := fun edge =>
          raised.tabNotGrid (raised.tabsParent tab edge)
        have notLoop : ¬Child before tab tab :=
          fun edge => raised.differ (raised.tabParent tab edge)
        have gridElsewhere : ¬Child before tab dashboardGridId := fun edge =>
          raised.tabNotRoot (anchored.gridUnderRoot tab edge)
        have tabNotInGrid : ¬Child before dashboardGridId tab := fun edge =>
          raised.tabsNotGrid (raised.tabParent _ edge).symm
        have := raised.differ
        have := raised.tabNotRoot
        grind
      · by_cases at_tabs : a = tabs
        · rw [at_tabs, raised.tabsList b]
          have notLoop : ¬Child before tabs tabs := fun edge =>
            raised.tabsNotGrid (raised.tabsParent tabs edge)
          have gridElsewhere : ¬Child before tabs dashboardGridId := fun edge =>
            raised.tabsNotRoot (anchored.gridUnderRoot tabs edge)
          have once : Child before tabs b → ¬Child before dashboardGridId b := fun edge other =>
            raised.tabsNotGrid (wellFormed.single _ _ b edge other)
          have := raised.differ
          have := raised.tabsNotRoot
          grind
        · have same : Child after a b ↔ Child before a b := by
            unfold Child
            rw [raised.others a at_root at_grid at_tab at_tabs]
          rw [same]
          have tabsElsewhere : ¬Child before a tabs :=
            fun edge => at_grid (raised.tabsParent a edge)
          have tabElsewhere : ¬Child before a tab := fun edge => at_tabs (raised.tabParent a edge)
          have gridElsewhere : ¬Child before a dashboardGridId := fun edge =>
            at_root (anchored.gridUnderRoot a edge)
          have once : Child before a b → ¬Child before dashboardGridId b := fun edge other =>
            at_grid (wellFormed.single _ _ b edge other)
          grind

theorem WellFormed.raised (wellFormed : WellFormed before) (anchored : Anchored before)
    (gridOnly : childrenOf before dashboardRootId = [dashboardGridId])
    (raised : Raised before after tabs tab) : WellFormed after ∧ Anchored after := by
  have edges := raised.child_iff wellFormed anchored gridOnly
  have entries : ∀ k, before.entry k ≠ none → after.entry k ≠ none := by
    intro k present
    rw [Ne, ← typeOf_eq_none, raised.kept k present, typeOf_eq_none]
    exact present
  have gridPresent : before.entry dashboardGridId ≠ none := by
    rw [Ne, ← typeOf_eq_none, anchored.gridType]
    simp
  have tabsEdge : Child after dashboardRootId tabs := (edges _ _).mpr (.inl ⟨rfl, rfl⟩)
  have tabEdge : Child after tabs tab := (edges _ _).mpr (.inr (.inl ⟨rfl, rfl⟩))
  have reached_tabs : Under (Child after) dashboardRootId tabs :=
    Relation.ReflTransGen.single tabsEdge
  have reached_tab : Under (Child after) dashboardRootId tab := reached_tabs.tail tabEdge
  have reached : ∀ k, Under (Child before) dashboardRootId k →
      k = dashboardGridId ∨ Under (Child after) dashboardRootId k := by
    intro k way
    induction way with
    | refl => exact .inr Relation.ReflTransGen.refl
    | @tail j k up last ih =>
      by_cases at_grid : k = dashboardGridId
      · exact .inl at_grid
      · right
        by_cases at_tabs : k = tabs
        · rw [at_tabs]
          exact reached_tabs
        · by_cases at_tab : k = tab
          · rw [at_tab]
            exact reached_tab
          · by_cases moved : Child before dashboardGridId k
            · exact reached_tab.tail
                ((edges _ _).mpr (.inr (.inr (.inl ⟨at_tabs, at_tab, at_grid, moved, rfl⟩))))
            · rcases ih with same | above
              · exact (moved (same ▸ last)).elim
              · exact above.tail
                  ((edges _ _).mpr (.inr (.inr (.inr ⟨at_tabs, at_tab, at_grid, moved, last⟩))))
  have reachable : ∀ k, after.entry k ≠ none → k ≠ dashboardRootId → k ≠ dashboardHeaderId →
      k ≠ dashboardGridId → Under (Child after) dashboardRootId k := by
    intro k here not_root not_header not_grid
    by_cases old : before.entry k = none
    · rcases raised.added k here old with same | same
      · rw [same]
        exact reached_tabs
      · rw [same]
        exact reached_tab
    · rcases reached k (wellFormed.reachable k old not_root not_header not_grid) with same | way
      · exact (not_grid same).elim
      · exact way
  have rootOnTop : ∀ a, ¬Child after a dashboardRootId := by
    intro a edge
    rcases (edges a _).mp edge with ⟨same, _⟩ | ⟨same, _⟩ | ⟨_, _, _, old, _⟩ | ⟨_, _, _, _, old⟩
    · exact raised.tabsNotRoot same.symm
    · exact raised.tabNotRoot same.symm
    · exact anchored.rootOnTop _ old
    · exact anchored.rootOnTop _ old
  have gridNowhere : ∀ a, ¬Child after a dashboardGridId := by
    intro a edge
    rcases (edges a _).mp edge with ⟨same, _⟩ | ⟨same, _⟩ | ⟨_, _, other, _⟩ | ⟨_, _, other, _⟩
    · exact raised.tabsNotGrid same.symm
    · exact raised.tabNotGrid same.symm
    · exact other rfl
    · exact other rfl
  have single : SingleParent (Child after) := by
    intro p q c edge other
    have once : Child before p c → Child before q c → p = q := wellFormed.single p q c
    have := raised.differ
    rw [edges] at edge other
    grind
  have header : ¬Child after dashboardHeaderId dashboardHeaderId := by
    intro loop
    have not_root : dashboardHeaderId ≠ dashboardRootId := by decide
    rcases (edges _ _).mp loop with ⟨_, same⟩ | ⟨at_tab, at_tabs⟩ | ⟨_, other, _, _, same⟩ |
      ⟨_, _, _, _, old⟩
    · exact not_root same
    · exact raised.differ (at_tab.symm.trans at_tabs)
    · exact other same
    · exact wellFormed.acyclic _ (Relation.TransGen.single old)
  refine ⟨⟨raised.keyed, entries _ wellFormed.rooted, ?_, ?_, single,
    acyclic_of_reachable single reachable rootOnTop
      (fun a edge => (gridNowhere a edge).elim) header,
    reachable, fun _ => raised.gridList, ?_⟩,
    ⟨rootOnTop, fun a edge => (gridNowhere a edge).elim, ?_, ?_⟩⟩
  · intro a b edge
    rcases (edges a b).mp edge with ⟨same, _⟩ | ⟨same, _⟩ | ⟨_, _, _, old, _⟩ | ⟨_, _, _, _, old⟩
    · rw [same, Ne, ← typeOf_eq_none, raised.tabsType]
      simp
    · rw [same]
      exact raised.tabPresent
    · exact entries b (wellFormed.listed _ b old)
    · exact entries b (wellFormed.listed _ b old)
  · intro k
    by_cases at_root : k = dashboardRootId
    · rw [at_root, raised.rootList]
      exact nodup_singleton tabs
    · by_cases at_grid : k = dashboardGridId
      · rw [at_grid, raised.gridList]
        exact nodup_nil
      · by_cases at_tab : k = tab
        · rw [at_tab, raised.tabList]
          refine List.Nodup.append (wellFormed.distinct tab) ((wellFormed.distinct _).filter _) ?_
          intro c own moved
          exact raised.tabNotGrid (wellFormed.single tab _ c own (mem_of_mem_filter moved))
        · by_cases at_tabs : k = tabs
          · rw [at_tabs]
            exact raised.tabsDistinct
          · rw [raised.others k at_root at_grid at_tab at_tabs]
            exact wellFormed.distinct k
  · intro a b edge parentType childType found foundChild
    rcases (edges a b).mp edge with ⟨_, at_root⟩ | ⟨_, at_tabs⟩ | ⟨_, _, _, old, _⟩ |
      ⟨_, _, _, _, old⟩
    · rw [at_root, raised.kept _ wellFormed.rooted, anchored.rootType] at found
      cases found
      simp
    · rw [at_tabs, raised.tabsType] at found
      cases found
      simp
    · rw [raised.kept b (wellFormed.listed _ b old)] at foundChild
      have bare := wellFormed.wrapped _ b old .grid childType anchored.gridType foundChild
      exact fun both => bare ⟨by simp, both.2⟩
    · rw [raised.kept b (wellFormed.listed _ b old)] at foundChild
      rw [raised.kept a (entry_of_child old)] at found
      exact wellFormed.wrapped a b old parentType childType found foundChild
  · rw [raised.kept _ wellFormed.rooted]
    exact anchored.rootType
  · rw [raised.kept _ gridPresent]
    exact anchored.gridType

def raisedList (before : Layout) (tabs tab k : String) : List String :=
  if k = tab then
    childrenOf before tab ++ (childrenOf before dashboardGridId).filter fun id => id ≠ tabs
  else if k = dashboardGridId then [] else if k = dashboardRootId then [tabs]
    else childrenOf before k

theorem raiseExistingTabs_lists (keyed : Keyed before)
    {rootComponent topLevelComponent : LayoutItem}
    (at_root : before.entry dashboardRootId = some rootComponent)
    (firstOfRoot : firstKey rootComponent.children = dashboardGridId)
    (at_grid : before.entry dashboardGridId = some topLevelComponent)
    (firstTab : (childrenOf before tabs).head? = some tab) (tabPresent : before.entry tab ≠ none)
    (tabNotRoot : tab ≠ dashboardRootId) (tabNotGrid : tab ≠ dashboardGridId) :
    ∃ after, raiseExistingTabs tabs rootComponent topLevelComponent before = some after
      ∧ Keyed after ∧ (∀ k, typeOf after k = typeOf before k)
      ∧ ∀ k, childrenOf after k = raisedList before tabs tab k := by
  have tabEdge : Child before tabs tab := mem_of_mem_head? firstTab
  obtain ⟨draggingTabs, at_tabs⟩ := exists_entry (entry_of_child tabEdge)
  obtain ⟨draggingTab, at_tab⟩ := exists_entry tabPresent
  have firstOfTabs : firstKey draggingTabs.children = tab := by
    rw [childrenOf_of_entry at_tabs] at firstTab
    unfold firstKey
    rw [firstTab]
    rfl
  have at_grid_later : (before.set dashboardRootId { rootComponent with children := [tabs] }).entry
      dashboardGridId = some topLevelComponent := by
    rw [Record.entry_set, if_neg root_ne_grid.symm]
    exact at_grid
  have at_tab_later : ((before.set dashboardRootId { rootComponent with children := [tabs] }).set
      dashboardGridId { topLevelComponent with children := [] }).entry tab = some draggingTab := by
    rw [Record.entry_set, if_neg tabNotGrid, Record.entry_set, if_neg tabNotRoot]
    exact at_tab
  refine ⟨((before.set dashboardRootId { rootComponent with children := [tabs] }).set
      dashboardGridId { topLevelComponent with children := [] }).set tab { draggingTab with
        children := draggingTab.children ++ topLevelComponent.children.filter fun id => id ≠ tabs },
    ?_, ?_, ?_, ?_⟩
  · unfold raiseExistingTabs
    rw [at_tabs]
    dsimp only
    rw [firstOfTabs, at_tab, firstOfRoot]
  · exact ((keyed.setChildren at_root _).setChildren at_grid_later _).setChildren at_tab_later _
  · intro k
    rw [typeOf_set_entry at_tab_later, typeOf_set_entry at_grid_later, typeOf_set_entry at_root]
  · intro k
    unfold raisedList
    rw [childrenOf_set, childrenOf_set, childrenOf_set, childrenOf_of_entry at_tab,
      childrenOf_of_entry at_grid]

theorem raiseExistingTabs_raised (wellFormed : WellFormed before) (anchored : Anchored before)
    {rootComponent topLevelComponent : LayoutItem}
    (at_root : before.entry dashboardRootId = some rootComponent)
    (gridOnly : rootComponent.children = [dashboardGridId])
    (at_grid : before.entry dashboardGridId = some topLevelComponent)
    (inGrid : Child before dashboardGridId tabs) (tabsType : typeOf before tabs = some .tabs)
    (firstTab : (childrenOf before tabs).head? = some tab) :
    ∃ after, raiseExistingTabs tabs rootComponent topLevelComponent before = some after
      ∧ Raised before after tabs tab := by
  have tabEdge : Child before tabs tab := mem_of_mem_head? firstTab
  have tabPresent := wellFormed.listed _ _ tabEdge
  have firstOfRoot : firstKey rootComponent.children = dashboardGridId := by
    rw [gridOnly]
    rfl
  have differ : tab ≠ tabs := by
    rintro rfl
    exact wellFormed.acyclic _ (Relation.TransGen.single tabEdge)
  have tabsNotRoot : tabs ≠ dashboardRootId := fun same => anchored.rootOnTop _ (same ▸ inGrid)
  have tabsNotGrid : tabs ≠ dashboardGridId := by
    rintro rfl
    exact wellFormed.acyclic _ (Relation.TransGen.single inGrid)
  have tabNotRoot : tab ≠ dashboardRootId := fun same => anchored.rootOnTop _ (same ▸ tabEdge)
  have tabNotGrid : tab ≠ dashboardGridId := fun same =>
    tabsNotRoot (anchored.gridUnderRoot _ (same ▸ tabEdge))
  obtain ⟨after, ran, keyed, types, lists⟩ :=
    raiseExistingTabs_lists wellFormed.keyed at_root firstOfRoot
    at_grid firstTab tabPresent tabNotRoot tabNotGrid
  have sameTabs : childrenOf after tabs = childrenOf before tabs := by
    rw [lists]
    unfold raisedList
    rw [if_neg differ.symm, if_neg tabsNotGrid, if_neg tabsNotRoot]
  refine ⟨after, ran, keyed, fun k _ => types k, ?_, ?_, ?_, ?_, ?_, ?_, ?_, ?_, ?_,
    fun a edge => wellFormed.single a _ tabs edge inGrid,
    fun a edge => wellFormed.single a _ tab edge tabEdge, differ, tabsNotRoot, tabsNotGrid,
      tabNotRoot, tabNotGrid⟩
  · intro k here absent
    rw [Ne, ← typeOf_eq_none, types, typeOf_eq_none] at here
    exact (here absent).elim
  · rw [types]
    exact tabsType
  · rw [Ne, ← typeOf_eq_none, types, typeOf_eq_none]
    exact tabPresent
  · rw [lists]
    unfold raisedList
    rw [if_neg tabNotRoot.symm, if_neg root_ne_grid, if_pos rfl]
  · rw [lists]
    unfold raisedList
    rw [if_neg tabNotGrid.symm, if_pos rfl]
  · rw [lists]
    exact if_pos rfl
  · intro b
    unfold Child
    rw [sameTabs]
    exact ⟨.inr, fun either => either.elim (fun same => same ▸ tabEdge) id⟩
  · rw [sameTabs]
    exact wellFormed.distinct tabs
  · intro k not_root not_grid not_tab _
    rw [lists]
    unfold raisedList
    rw [if_neg not_tab, if_neg not_grid, if_neg not_root]

theorem findOfType_eq {entities : Layout} {key : String} {component : LayoutItem}
    {type : ComponentType} (found : entities.entry key = some component)
    (has : component.type = type)
    (only : ∀ k other, entities.entry k = some other → other.type = type → k = key) :
    findOfType entities type = some key := by
  have exists_key : (findOfType entities type).isSome := by
    unfold findOfType
    rw [find?_isSome]
    refine ⟨key, Record.mem_enumerate.mpr (entities.listed key (by simp [found])), ?_⟩
    simp [found, has]
  obtain ⟨other, at_other⟩ := Option.isSome_iff_exists.mp exists_key
  have at_find := at_other
  unfold findOfType at at_find
  have holds := find?_some at_find
  cases entry : entities.entry other with
  | none => simp [entry] at holds
  | some otherComponent =>
    simp only [entry, decide_eq_true_eq] at holds
    rw [at_other, only other otherComponent entry holds]

def newTabs (ids : NanoIds) (dropEntity child : LayoutItem) (destinationId : String)
    (list : List String) : Record LayoutItem :=
  ((Record.empty.set child.id { child with children := [(tabChild ids dropEntity).id] }).set
    (tabChild ids dropEntity).id (tabChild ids dropEntity)).set destinationId
      { dropEntity with children := list }

theorem entitiesAround_tabs (ids : NanoIds) (dropEntity child : LayoutItem) :
    entitiesAround ids .tabs dropEntity child
      = ((Record.empty.set child.id { child with children := [(tabChild ids dropEntity).id] }).set
        (tabChild ids dropEntity).id (tabChild ids dropEntity), child.id) := by
  unfold entitiesAround
  rw [if_neg (by simp [shouldWrapChildInRow]), if_pos rfl]

theorem raiseNewTabs_raised (wellFormed : WellFormed before) (anchored : Anchored before)
    {ids : NanoIds} (fresh : Fresh before ids) {rootComponent topLevelComponent child : LayoutItem}
    (at_root : before.entry dashboardRootId = some rootComponent)
    (gridOnly : rootComponent.children = [dashboardGridId])
    (at_grid : before.entry dashboardGridId = some topLevelComponent)
    (at_id : child.id = uuid .tabs ids.child) (childType : child.type = .tabs)
    (list : List String) :
    ∃ after, raiseNewTabs rootComponent topLevelComponent
        (newTabs ids rootComponent child dashboardRootId list) before = some after
      ∧ Raised before after child.id (tabChild ids rootComponent).id := by
  have freshTabs : before.entry child.id = none := by
    rw [at_id]
    exact fresh.at_child .tabs
  have freshTab : before.entry (tabChild ids rootComponent).id = none := fresh.at_tab .tab
  have differ : (tabChild ids rootComponent).id ≠ child.id := by
    rw [at_id]
    exact (fresh.child_ne_tab .tabs .tab).symm
  have tabsNotRoot : child.id ≠ dashboardRootId := fun same => by simp [same, at_root] at freshTabs
  have tabsNotGrid : child.id ≠ dashboardGridId := fun same => by simp [same, at_grid] at freshTabs
  have tabNotRoot : (tabChild ids rootComponent).id ≠ dashboardRootId := fun same => by
    simp [same, at_root] at freshTab
  have tabNotGrid : (tabChild ids rootComponent).id ≠ dashboardGridId := fun same => by
    simp [same, at_grid] at freshTab
  have grid_ne_root : dashboardGridId ≠ dashboardRootId := by decide
  have firstOfRoot : firstKey rootComponent.children = dashboardGridId := by
    rw [gridOnly]
    rfl
  have rootType : rootComponent.type = .root := by
    have found := anchored.rootType
    rw [typeOf_of_entry at_root] at found
    exact Option.some.inj found
  have entries : ∀ k, (newTabs ids rootComponent child dashboardRootId list).entry k
      = if k = dashboardRootId then some { rootComponent with children := list }
        else if k = (tabChild ids rootComponent).id then some (tabChild ids rootComponent)
        else if k = child.id then some { child with children := [(tabChild ids rootComponent).id] }
        else none := fun k => rfl
  have at_tab : (newTabs ids rootComponent child dashboardRootId list).entry
      (tabChild ids rootComponent).id = some (tabChild ids rootComponent) := by
    rw [entries, if_neg tabNotRoot, if_pos rfl]
  have at_tabs : (newTabs ids rootComponent child dashboardRootId list).entry child.id
      = some { child with children := [(tabChild ids rootComponent).id] } := by
    rw [entries, if_neg tabsNotRoot, if_neg differ.symm, if_pos rfl]
  have tabFound : findOfType (newTabs ids rootComponent child dashboardRootId list) .tab
      = some (tabChild ids rootComponent).id := by
    refine findOfType_eq at_tab rfl ?_
    intro k other found type
    rw [entries] at found
    split at found
    · cases found
      simp [rootType] at type
    · split at found
      · assumption
      · split at found
        · cases found
          simp [childType] at type
        · cases found
  have tabsFound : findOfType (newTabs ids rootComponent child dashboardRootId list) .tabs
      = some child.id := by
    refine findOfType_eq at_tabs childType ?_
    intro k other found type
    rw [entries] at found
    split at found
    · cases found
      simp [rootType] at type
    · split at found
      · cases found
        cases type
      · split at found
        · assumption
        · cases found
  refine ⟨Record.spread before ((((newTabs ids rootComponent child dashboardRootId list).set
      (tabChild ids rootComponent).id
        { tabChild ids rootComponent with children := topLevelComponent.children }).set
      dashboardGridId { topLevelComponent with children := [] }).set
      dashboardRootId { rootComponent with children := [child.id] }), ?_, ?_⟩
  · unfold raiseNewTabs
    rw [tabFound, tabsFound]
    dsimp only
    rw [at_tab, at_tabs, firstOfRoot]
  generalize after_eq : Record.spread before ((((newTabs ids rootComponent child dashboardRootId
      list).set (tabChild ids rootComponent).id
        { tabChild ids rootComponent with children := topLevelComponent.children }).set
      dashboardGridId { topLevelComponent with children := [] }).set
      dashboardRootId { rootComponent with children := [child.id] }) = after
  have after_entry : ∀ k, after.entry k
      = if k = dashboardRootId then some { rootComponent with children := [child.id] }
        else if k = dashboardGridId then some { topLevelComponent with children := [] }
        else if k = (tabChild ids rootComponent).id then
          some { tabChild ids rootComponent with children := topLevelComponent.children }
        else if k = child.id then some { child with children := [(tabChild ids rootComponent).id] }
        else before.entry k := by
    intro k
    rw [← after_eq, Record.entry_spread, Record.entry_set, Record.entry_set,
      Record.entry_set, entries]
    split
    · rfl
    · split
      · rfl
      · split
        · rfl
        · split
          · rfl
          · rw [Option.none_or]
  clear after_eq
  have root_entry := after_entry dashboardRootId
  have grid_entry := after_entry dashboardGridId
  have tab_entry := after_entry (tabChild ids rootComponent).id
  have tabs_entry := after_entry child.id
  rw [if_pos rfl] at root_entry
  rw [if_neg grid_ne_root, if_pos rfl] at grid_entry
  rw [if_neg tabNotRoot, if_neg tabNotGrid, if_pos rfl] at tab_entry
  rw [if_neg tabsNotRoot, if_neg tabsNotGrid, if_neg differ.symm, if_pos rfl] at tabs_entry
  have old_entry : ∀ k, k ≠ dashboardRootId → k ≠ dashboardGridId →
    k ≠ (tabChild ids rootComponent).id →
      k ≠ child.id → after.entry k = before.entry k := by
    intro k not_root not_grid not_tab not_tabs
    rw [after_entry, if_neg not_root, if_neg not_grid, if_neg not_tab, if_neg not_tabs]
  refine ⟨?_, ?_, ?_, ?_, ?_, ?_, ?_, ?_, ?_, ?_, ?_, ?_, ?_, differ, tabsNotRoot, tabsNotGrid,
    tabNotRoot, tabNotGrid⟩
  · intro k component found
    rw [after_entry] at found
    split at found
    · rename_i same
      cases found
      exact (wellFormed.keyed _ rootComponent at_root).trans same.symm
    · split at found
      · rename_i same
        cases found
        exact (wellFormed.keyed _ topLevelComponent at_grid).trans same.symm
      · split at found
        · rename_i same
          cases found
          exact same.symm
        · split at found
          · rename_i same
            cases found
            exact same.symm
          · exact wellFormed.keyed k component found
  · intro k present
    by_cases at_k : k = dashboardRootId
    · rw [at_k, typeOf_of_entry root_entry, typeOf_of_entry at_root]
    · by_cases at_k_grid : k = dashboardGridId
      · rw [at_k_grid, typeOf_of_entry grid_entry, typeOf_of_entry at_grid]
      · have not_tab : k ≠ (tabChild ids rootComponent).id := fun same => present (same ▸ freshTab)
        have not_tabs : k ≠ child.id := fun same => present (same ▸ freshTabs)
        unfold typeOf
        rw [old_entry k at_k at_k_grid not_tab not_tabs]
  · intro k here absent
    by_contra neither
    rw [not_or] at neither
    have not_root : k ≠ dashboardRootId := fun same => by simp [same, at_root] at absent
    have not_grid : k ≠ dashboardGridId := fun same => by simp [same, at_grid] at absent
    rw [old_entry k not_root not_grid neither.2 neither.1] at here
    exact here absent
  · rw [typeOf_of_entry tabs_entry, childType]
  · simp [tab_entry]
  · rw [childrenOf_of_entry root_entry]
  · rw [childrenOf_of_entry grid_entry]
  · have notInGrid : child.id ∉ topLevelComponent.children := by
      intro inside
      refine wellFormed.listed dashboardGridId child.id ?_ freshTabs
      unfold Child
      rw [childrenOf_of_entry at_grid]
      exact inside
    rw [childrenOf_of_entry tab_entry, childrenOf_of_none freshTab, childrenOf_of_entry at_grid,
      nil_append, filter_eq_self.mpr]
    intro c member
    simp only [decide_eq_true_eq]
    rintro rfl
    exact notInGrid member
  · intro b
    unfold Child
    rw [childrenOf_of_entry tabs_entry, childrenOf_of_none freshTabs]
    simp
  · rw [childrenOf_of_entry tabs_entry]
    exact nodup_singleton _
  · intro k not_root not_grid not_tab not_tabs
    unfold childrenOf
    rw [old_entry k not_root not_grid not_tab not_tabs]
  · exact fun a edge => (wellFormed.listed a _ edge freshTabs).elim
  · exact fun a edge => (wellFormed.listed a _ edge freshTab).elim

end Raised

structure Lowered (before after : Layout) (topLevelId : String) : Prop where
  keyed : Keyed after
  gone : ∀ k, k = topLevelId ∨ Child before topLevelId k → after.entry k = none
  types : ∀ k, k ≠ topLevelId → ¬Child before topLevelId k → typeOf after k = typeOf before k
  rootList : childrenOf after dashboardRootId = [dashboardGridId]
  gridList : childrenOf after dashboardGridId
    = (childrenOf before topLevelId).flatMap (childrenOf before)
  others : ∀ k, k ≠ dashboardRootId → k ≠ dashboardGridId → k ≠ topLevelId →
    ¬Child before topLevelId k → childrenOf after k = childrenOf before k

section Lowered
variable {before after : Layout} {topLevelId : String}

theorem Lowered.child_iff (lowered : Lowered before after topLevelId)
    (wellFormed : WellFormed before)
    (anchored : Anchored before) (topOnly : childrenOf before dashboardRootId = [topLevelId])
    (notGrid : topLevelId ≠ dashboardGridId) (a b : String) :
    Child after a b ↔
      (b = dashboardGridId ∧ a = dashboardRootId)
      ∨ (a = dashboardGridId ∧ ∃ tab, Child before topLevelId tab ∧ Child before tab b)
      ∨ (b ≠ topLevelId ∧ ¬Child before topLevelId b
        ∧ (¬∃ tab, Child before topLevelId tab ∧ Child before tab b) ∧ Child before a b) := by
  have topEdge : Child before dashboardRootId topLevelId := by simp [Child, topOnly]
  have rootChild : ∀ c, Child before dashboardRootId c → c = topLevelId := by
    intro c edge
    simpa [Child, topOnly] using edge
  have gridNowhere : ∀ c, ¬Child before c dashboardGridId := by
    intro c edge
    have at_root := anchored.gridUnderRoot c edge
    rw [at_root] at edge
    exact notGrid (rootChild _ edge).symm
  have gridEmpty : ∀ c, ¬Child before dashboardGridId c := by
    intro c edge
    unfold Child at edge
    rw [wellFormed.gridEmpty (gridNowhere _)] at edge
    cases edge
  have topNotRoot : topLevelId ≠ dashboardRootId :=
    fun same => anchored.rootOnTop _ (same ▸ topEdge)
  by_cases gone : a = topLevelId ∨ Child before topLevelId a
  · have left : ¬Child after a b := fun edge => entry_of_child edge (lowered.gone a gone)
    have aNotGrid : a ≠ dashboardGridId := by
      rintro rfl
      exact gone.elim (fun same => notGrid same.symm) (gridNowhere _)
    have aNotRoot : a ≠ dashboardRootId := by
      rintro rfl
      exact gone.elim (fun same => topNotRoot same.symm) (anchored.rootOnTop _)
    refine iff_of_false left ?_
    rintro (⟨_, same⟩ | ⟨same, _⟩ | ⟨_, notTab, notMoved, old⟩)
    · exact aNotRoot same
    · exact aNotGrid same
    · rcases gone with same | edge
      · exact notTab (same ▸ old)
      · exact notMoved ⟨a, edge, old⟩
  · rw [not_or] at gone
    by_cases at_root : a = dashboardRootId
    · have list : Child after a b ↔
        b = dashboardGridId := by simp [Child, at_root, lowered.rootList]
      rw [list, at_root]
      have := root_ne_grid
      have old : Child before dashboardRootId b → b = topLevelId := rootChild b
      grind
    · by_cases at_grid : a = dashboardGridId
      · have list : Child after a b ↔ ∃ tab, Child before topLevelId tab ∧ Child before tab b := by
          simp [Child, at_grid, lowered.gridList, mem_flatMap]
        rw [list, at_grid]
        have := root_ne_grid
        have old := gridEmpty b
        grind
      · have same : Child after a b ↔ Child before a b := by
          unfold Child
          rw [lowered.others a at_root at_grid gone.1 gone.2]
        rw [same]
        constructor
        · intro edge
          refine .inr (.inr ⟨?_, ?_, ?_, edge⟩)
          · rintro rfl
            exact at_root (wellFormed.single _ _ _ edge topEdge)
          · intro other
            exact gone.1 (wellFormed.single _ _ _ edge other)
          · rintro ⟨tab, under, other⟩
            exact gone.2 (wellFormed.single _ _ _ edge other ▸ under)
        · rintro (⟨_, other⟩ | ⟨other, _⟩ | ⟨_, _, _, edge⟩)
          · exact (at_root other).elim
          · exact (at_grid other).elim
          · exact edge

theorem WellFormed.lowered (wellFormed : WellFormed before) (anchored : Anchored before)
    (topOnly : childrenOf before dashboardRootId = [topLevelId])
    (notGrid : topLevelId ≠ dashboardGridId)
    (tabTypes : ∀ tab, Child before topLevelId tab → typeOf before tab = some .tab)
    (lowered : Lowered before after topLevelId) : WellFormed after ∧ Anchored after := by
  have edges := lowered.child_iff wellFormed anchored topOnly notGrid
  have topEdge : Child before dashboardRootId topLevelId := by simp [Child, topOnly]
  have topNotRoot : topLevelId ≠ dashboardRootId :=
    fun same => anchored.rootOnTop _ (same ▸ topEdge)
  have gridNotTab : ¬Child before topLevelId dashboardGridId := fun edge =>
    topNotRoot (anchored.gridUnderRoot _ edge)
  have rootNotTab : ¬Child before topLevelId dashboardRootId := anchored.rootOnTop _
  have gridPresent : before.entry dashboardGridId ≠ none := by
    rw [Ne, ← typeOf_eq_none, anchored.gridType]
    simp
  have entry_iff : ∀ k, k ≠ topLevelId → ¬Child before topLevelId k →
      (after.entry k ≠ none ↔ before.entry k ≠ none) := by
    intro k not_top not_tab
    rw [Ne, ← typeOf_eq_none, lowered.types k not_top not_tab, typeOf_eq_none]
  have stays : ∀ k, after.entry k ≠ none → k ≠ topLevelId ∧ ¬Child before topLevelId k := by
    intro k here
    refine ⟨fun same => here (lowered.gone k (.inl same)),
      fun edge => here (lowered.gone k (.inr edge))⟩
  have gridEdge : Child after dashboardRootId dashboardGridId := (edges _ _).mpr (.inl ⟨rfl, rfl⟩)
  have reached_grid : Under (Child after) dashboardRootId dashboardGridId :=
    Relation.ReflTransGen.single gridEdge
  have reached : ∀ k, Under (Child before) dashboardRootId k →
      k = topLevelId ∨ Child before topLevelId k ∨ Under (Child after) dashboardRootId k := by
    intro k way
    induction way with
    | refl => exact .inr (.inr Relation.ReflTransGen.refl)
    | @tail j k up last ih =>
      by_cases at_top : k = topLevelId
      · exact .inl at_top
      · by_cases at_tab : Child before topLevelId k
        · exact .inr (.inl at_tab)
        · right
          right
          by_cases moved : ∃ tab, Child before topLevelId tab ∧ Child before tab k
          · exact reached_grid.tail ((edges _ _).mpr (.inr (.inl ⟨rfl, moved⟩)))
          · rcases ih with same | edge | above
            · exact (at_tab (same ▸ last)).elim
            · exact (moved ⟨j, edge, last⟩).elim
            · exact above.tail ((edges _ _).mpr (.inr (.inr ⟨at_top, at_tab, moved, last⟩)))
  have reachable : ∀ k, after.entry k ≠ none → k ≠ dashboardRootId → k ≠ dashboardHeaderId →
      k ≠ dashboardGridId → Under (Child after) dashboardRootId k := by
    intro k here not_root not_header not_grid
    obtain ⟨not_top, not_tab⟩ := stays k here
    have old := (entry_iff k not_top not_tab).mp here
    rcases reached k
      (wellFormed.reachable k old not_root not_header not_grid) with same | edge | way
    · exact (not_top same).elim
    · exact (not_tab edge).elim
    · exact way
  have rootOnTop : ∀ a, ¬Child after a dashboardRootId := by
    intro a edge
    rcases (edges a _).mp edge with ⟨same, _⟩ | ⟨_, tab, _, old⟩ | ⟨_, _, _, old⟩
    · exact root_ne_grid same
    · exact anchored.rootOnTop _ old
    · exact anchored.rootOnTop _ old
  have gridUnderRoot : ∀ a, Child after a dashboardGridId → a = dashboardRootId := by
    intro a edge
    rcases (edges a _).mp edge with ⟨_, same⟩ | ⟨_, tab, under, old⟩ | ⟨_, _, _, old⟩
    · exact same
    · exact (rootNotTab (anchored.gridUnderRoot _ old ▸ under)).elim
    · exact anchored.gridUnderRoot a old
  have single : SingleParent (Child after) := by
    intro p q c edge other
    have once : Child before p c → Child before q c → p = q := wellFormed.single p q c
    have gridOnce : ∀ r, Child before r dashboardGridId → r = dashboardRootId :=
      anchored.gridUnderRoot
    have top : ∀ r, ¬Child before r dashboardRootId := anchored.rootOnTop
    rw [edges] at edge other
    grind
  have header : ¬Child after dashboardHeaderId dashboardHeaderId := by
    intro loop
    have not_grid : dashboardHeaderId ≠ dashboardGridId := by decide
    rcases (edges _ _).mp loop with ⟨same, _⟩ | ⟨same, _⟩ | ⟨_, _, _, old⟩
    · exact not_grid same
    · exact not_grid same
    · exact wellFormed.acyclic _ (Relation.TransGen.single old)
  refine ⟨⟨lowered.keyed, (entry_iff _ topNotRoot.symm rootNotTab).mpr wellFormed.rooted, ?_,
    ?_, single, acyclic_of_reachable single reachable rootOnTop gridUnderRoot header,
    reachable, fun unhung => (unhung gridEdge).elim, ?_⟩, ⟨rootOnTop, gridUnderRoot, ?_, ?_⟩⟩
  · intro a b edge
    rcases (edges a b).mp edge with ⟨same, _⟩ | ⟨_, tab, under, old⟩ | ⟨not_top, not_tab, _, old⟩
    · rw [same]
      exact (entry_iff _ notGrid.symm gridNotTab).mpr gridPresent
    · refine (entry_iff b ?_ ?_).mpr (wellFormed.listed tab b old)
      · rintro rfl
        exact rootNotTab (wellFormed.single _ _ _ old topEdge ▸ under)
      · intro tabEdge
        rw [wellFormed.single tab topLevelId b old tabEdge] at under
        exact wellFormed.acyclic _ (Relation.TransGen.single under)
    · exact (entry_iff b not_top not_tab).mpr (wellFormed.listed a b old)
  · intro k
    by_cases at_root : k = dashboardRootId
    · rw [at_root, lowered.rootList]
      exact nodup_singleton _
    · by_cases at_grid : k = dashboardGridId
      · rw [at_grid, lowered.gridList, nodup_flatMap]
        refine ⟨fun tab _ => wellFormed.distinct tab, ?_⟩
        refine (wellFormed.distinct topLevelId).imp ?_
        intro tab other different c inTab inOther
        exact different (wellFormed.single tab other c inTab inOther)
      · by_cases here : after.entry k = none
        · rw [childrenOf_of_none here]
          exact nodup_nil
        · obtain ⟨not_top, not_tab⟩ := stays k here
          rw [lowered.others k at_root at_grid not_top not_tab]
          exact wellFormed.distinct k
  · intro a b edge parentType childType found foundChild
    have rootType : typeOf after dashboardRootId = some .root := by
      rw [lowered.types _ topNotRoot.symm rootNotTab]
      exact anchored.rootType
    have childStays := stays b (by
      rw [Ne, ← typeOf_eq_none, foundChild]
      simp)
    rw [lowered.types b childStays.1 childStays.2] at foundChild
    rcases (edges a b).mp edge with ⟨_, same⟩ | ⟨_, tab, under, old⟩ | ⟨_, _, _, old⟩
    · rw [same, rootType] at found
      cases found
      simp
    · have bare := wellFormed.wrapped tab b old .tab childType (tabTypes tab under) foundChild
      exact fun both => bare ⟨by simp, both.2⟩
    · have parentStays := stays a (entry_of_child edge)
      rw [lowered.types a parentStays.1 parentStays.2] at found
      exact wellFormed.wrapped a b old parentType childType found foundChild
  · rw [lowered.types _ topNotRoot.symm rootNotTab]
    exact anchored.rootType
  · rw [lowered.types _ notGrid.symm gridNotTab]
    exact anchored.gridType

theorem entry_foldl_delete (keys : List String) (layout : Layout) (k : String) :
    (keys.foldl Record.delete layout).entry k = if k ∈ keys then none else layout.entry k := by
  induction keys generalizing layout with
  | nil => simp
  | cons key rest ih =>
    rw [foldl_cons, ih, Record.entry_delete]
    by_cases at_key : k = key
    · simp [at_key]
    · simp [at_key]

theorem childrenToMove_eq {state : Layout} {tabs : List String}
    (present : ∀ tab ∈ tabs, state.entry tab ≠ none) :
    childrenToMove state tabs = some (tabs.flatMap (childrenOf state)) := by
  induction tabs with
  | nil => rfl
  | cons tab rest ih =>
    obtain ⟨component, found⟩ := exists_entry (present tab mem_cons_self)
    have later := ih fun other member => present other (mem_cons_of_mem tab member)
    simp only [childrenToMove, found, later, Option.map_some, flatMap_cons,
      childrenOf_of_entry found]

theorem deleteTopLevelTabs_lowered (wellFormed : WellFormed before) (anchored : Anchored before)
    (topOnly : childrenOf before dashboardRootId = [topLevelId])
    (tabsType : typeOf before topLevelId = some .tabs) :
    ∃ after, deleteTopLevelTabs before = some after ∧ Lowered before after topLevelId := by
  obtain ⟨rootComponent, at_root⟩ := exists_entry wellFormed.rooted
  have topEdge : Child before dashboardRootId topLevelId := by simp [Child, topOnly]
  obtain ⟨topLevelTabs, at_top⟩ := exists_entry (wellFormed.listed _ _ topEdge)
  have gridPresent : before.entry dashboardGridId ≠ none := by
    rw [Ne, ← typeOf_eq_none, anchored.gridType]
    simp
  obtain ⟨grid, at_grid⟩ := exists_entry gridPresent
  have isTabs : topLevelTabs.type = .tabs := by
    rw [typeOf_of_entry at_top] at tabsType
    exact Option.some.inj tabsType
  have firstOfRoot : firstKey rootComponent.children = topLevelId := by
    rw [← childrenOf_of_entry at_root, topOnly]
    rfl
  have topChildren : childrenOf before topLevelId = topLevelTabs.children :=
    childrenOf_of_entry at_top
  have moved := childrenToMove_eq fun tab member =>
    wellFormed.listed topLevelId tab (by rw [Child, topChildren]; exact member)
  have topNotRoot : topLevelId ≠ dashboardRootId :=
    fun same => anchored.rootOnTop _ (same ▸ topEdge)
  have topNotGrid : topLevelId ≠ dashboardGridId := by
    rintro rfl
    rw [anchored.gridType] at tabsType
    cases tabsType
  have gridNotTab : ¬Child before topLevelId dashboardGridId := fun edge =>
    topNotRoot (anchored.gridUnderRoot _ edge)
  refine ⟨(((topLevelTabs.children.foldl Record.delete before).delete topLevelId).set
      dashboardRootId { rootComponent with children := [dashboardGridId] }).set dashboardGridId
        { grid with children := topLevelTabs.children.flatMap (childrenOf before) }, ?_, ?_⟩
  · unfold deleteTopLevelTabs
    rw [at_root]
    dsimp only
    rw [firstOfRoot, at_top]
    dsimp only
    rw [if_neg (not_not.mpr isTabs), moved, at_grid]
  generalize after_eq : (((topLevelTabs.children.foldl Record.delete before).delete topLevelId).set
      dashboardRootId { rootComponent with children := [dashboardGridId] }).set dashboardGridId
        { grid with children := topLevelTabs.children.flatMap (childrenOf before) } = after
  have entries : ∀ k, after.entry k
      = if k = dashboardGridId then
          some { grid with children := topLevelTabs.children.flatMap (childrenOf before) }
        else if k = dashboardRootId then some { rootComponent with children := [dashboardGridId] }
        else if k = topLevelId then none
        else if k ∈ topLevelTabs.children then none
        else before.entry k := by
    intro k
    rw [← after_eq, Record.entry_set, Record.entry_set, Record.entry_delete, entry_foldl_delete]
  clear after_eq
  have grid_entry := entries dashboardGridId
  have root_entry := entries dashboardRootId
  rw [if_pos rfl] at grid_entry
  rw [if_neg root_ne_grid, if_pos rfl] at root_entry
  have old_entry : ∀ k, k ≠ dashboardRootId → k ≠ dashboardGridId → k ≠ topLevelId →
      ¬Child before topLevelId k → after.entry k = before.entry k := by
    intro k not_root not_grid not_top not_tab
    rw [Child, topChildren] at not_tab
    rw [entries, if_neg not_grid, if_neg not_root, if_neg not_top, if_neg not_tab]
  refine ⟨?_, ?_, ?_, ?_, ?_, ?_⟩
  · intro k component found
    by_cases at_k_grid : k = dashboardGridId
    · rw [at_k_grid, grid_entry] at found
      cases found
      exact (wellFormed.keyed _ grid at_grid).trans at_k_grid.symm
    · by_cases at_k : k = dashboardRootId
      · rw [at_k, root_entry] at found
        cases found
        exact (wellFormed.keyed _ rootComponent at_root).trans at_k.symm
      · rw [entries, if_neg at_k_grid, if_neg at_k] at found
        split at found
        · cases found
        · split at found
          · cases found
          · exact wellFormed.keyed k component found
  · intro k removed
    have not_grid : k ≠ dashboardGridId := by
      rintro rfl
      exact removed.elim (fun same => topNotGrid same.symm) gridNotTab
    have not_root : k ≠ dashboardRootId := by
      rintro rfl
      exact removed.elim (fun same => topNotRoot same.symm) (anchored.rootOnTop _)
    rw [Child, topChildren] at removed
    rw [entries, if_neg not_grid, if_neg not_root]
    split
    · rfl
    · rename_i not_top
      rw [if_pos (removed.resolve_left not_top)]
  · intro k not_top not_tab
    by_cases at_k_grid : k = dashboardGridId
    · rw [at_k_grid, typeOf_of_entry grid_entry, typeOf_of_entry at_grid]
    · by_cases at_k : k = dashboardRootId
      · rw [at_k, typeOf_of_entry root_entry, typeOf_of_entry at_root]
      · unfold typeOf
        rw [old_entry k at_k at_k_grid not_top not_tab]
  · rw [childrenOf_of_entry root_entry]
  · rw [childrenOf_of_entry grid_entry, topChildren]
  · intro k not_root not_grid not_top not_tab
    unfold childrenOf
    rw [old_entry k not_root not_grid not_top not_tab]

theorem deleteTopLevelTabs_of_other (wellFormed : WellFormed before)
    (first : (childrenOf before dashboardRootId).head? = some topLevelId)
    (other : typeOf before topLevelId ≠ some .tabs) : deleteTopLevelTabs before = some before := by
  obtain ⟨rootComponent, at_root⟩ := exists_entry wellFormed.rooted
  have topEdge : Child before dashboardRootId topLevelId := mem_of_mem_head? first
  obtain ⟨topLevel, at_top⟩ := exists_entry (wellFormed.listed _ _ topEdge)
  have firstOfRoot : firstKey rootComponent.children = topLevelId := by
    rw [childrenOf_of_entry at_root] at first
    unfold firstKey
    rw [first]
    rfl
  rw [typeOf_of_entry at_top, Ne, Option.some_inj] at other
  unfold deleteTopLevelTabs
  rw [at_root]
  dsimp only
  rw [firstOfRoot, at_top]
  dsimp only
  rw [if_pos other]

end Lowered

end Liteset.Dashboard
