import Liteset.Dashboard.DragDrop

/-!
# What is on the page

Every component and every drop target that is rendered belongs to the tree below the
root, and a drop on a target names a place in the component that the target is for.
-/

set_option autoImplicit false

namespace Liteset.Dashboard

open Lib
open Lib.JsArray (item)
open Lib.Forest (Under)

/-- A layout as it is loaded: the header is kept apart from the tree. -/
structure Loaded (layout : Layout) : Prop where
  wellFormed : WellFormed layout
  anchored : Anchored layout
  headerApart : ∀ p, ¬Child layout p dashboardHeaderId
  unnamed : layout.entry "undefined" = none

section Page
variable {layout : Layout} {dragged : DraggingItem} {type : ComponentType}

theorem ne_root_of_typeOf (anchored : Anchored layout) {k : String}
    (found : typeOf layout k = some type) (other : type ≠ .root) : k ≠ dashboardRootId := by
  rintro rfl
  rw [anchored.rootType] at found
  exact other (Option.some.inj found).symm

theorem ne_grid_of_typeOf (anchored : Anchored layout) {k : String}
    (found : typeOf layout k = some type) (other : type ≠ .grid) : k ≠ dashboardGridId := by
  rintro rfl
  rw [anchored.gridType] at found
  exact other (Option.some.inj found).symm

theorem under_of_child (loaded : Loaded layout) {p k : String} (edge : Child layout p k) :
    Under (Child layout) dashboardRootId k :=
  (under_root_of_child loaded.wellFormed loaded.anchored edge).tail edge

theorem entry_id (loaded : Loaded layout) {k : String} {component : LayoutItem}
    (found : layout.entry k = some component) :
    component.id = k ∧ layout.entry component.id = some component := by
  have same := loaded.wellFormed.keyed k component found
  rw [same]
  exact ⟨rfl, found⟩

theorem topLevelTabs_child (loaded : Loaded layout) {tabs : LayoutItem}
    (found : topLevelTabs layout = some tabs) :
    layout.entry tabs.id = some tabs ∧ Child layout dashboardRootId tabs.id := by
  unfold topLevelTabs at found
  cases first : (childrenOf layout dashboardRootId).head? with
  | none =>
    rw [first] at found
    exact absurd (found.symm.trans loaded.unnamed) (by simp)
  | some rootChildId =>
    simp only [first] at found
    split at found
    · obtain ⟨same, at_tabs⟩ := entry_id loaded found
      refine ⟨at_tabs, ?_⟩
      rw [same]
      exact List.mem_of_mem_head? first
    · cases found

theorem head_of_no_topLevelTabs (loaded : Loaded layout) (none_found : topLevelTabs layout = none)
    {k : String} (filled : Child layout dashboardRootId k) :
    (childrenOf layout dashboardRootId).head? = some dashboardGridId := by
  unfold topLevelTabs at none_found
  cases first : (childrenOf layout dashboardRootId).head? with
  | none =>
    rw [List.head?_eq_none_iff] at first
    unfold Child at filled
    rw [first] at filled
    cases filled
  | some rootChildId =>
    simp only [first] at none_found
    split at none_found
    · exact (loaded.wellFormed.listed _ _ (List.mem_of_mem_head? first) none_found).elim
    · rename_i at_grid
      rw [not_not.mp at_grid]

def Listed (layout : Layout) (k : String) : Prop :=
  ∃ p, Child layout p k ∧ (topLevelTabs layout = none → p ≠ dashboardRootId)

theorem listed_of_typeOf (anchored : Anchored layout) {p k : String}
    (edge : Child layout p k) (found : typeOf layout p = some type) (other : type ≠ .root) :
    Listed layout k :=
  ⟨p, edge, fun _ => ne_root_of_typeOf anchored found other⟩

theorem gridId_ne_root (loaded : Loaded layout) {gridId : String}
    (member : gridId ∈ gridIds layout) :
    gridId ≠ dashboardRootId := by
  unfold gridIds at member
  cases found : topLevelTabs layout with
  | none =>
    rw [found] at member
    rw [List.mem_singleton.mp member]
    decide
  | some tabs =>
    rw [found] at member
    obtain ⟨at_tabs, _⟩ := topLevelTabs_child loaded found
    rintro rfl
    exact loaded.anchored.rootOnTop _ (child_of_entry at_tabs member)

/-- The children of a listed component that is not the root are listed. -/
theorem listed_child (loaded : Loaded layout) {parent component : LayoutItem}
    (at_parent : layout.entry parent.id = some parent) (type : parent.type ≠ .root) {k : String}
    (member : k ∈ parent.children) (at_component : layout.entry k = some component) :
    layout.entry component.id = some component ∧ Listed layout component.id := by
  obtain ⟨same, at_id⟩ := entry_id loaded at_component
  refine ⟨at_id, ?_⟩
  rw [same]
  exact listed_of_typeOf loaded.anchored (child_of_entry at_parent member)
    (typeOf_of_entry at_parent) type

theorem OnPage.listed (loaded : Loaded layout) {component : LayoutItem} {depth : Int}
    (onPage : OnPage layout component depth) :
    layout.entry component.id = some component ∧ Listed layout component.id := by
  induction onPage with
  | topLevel found =>
    obtain ⟨at_tabs, edge⟩ := topLevelTabs_child loaded found
    refine ⟨at_tabs, _, edge, fun absent => ?_⟩
    rw [absent] at found
    cases found
  | inGrid isGrid found member at_component =>
    obtain ⟨same, at_id⟩ := entry_id loaded at_component
    refine ⟨at_id, _, ?_, fun _ => gridId_ne_root loaded isGrid⟩
    rw [same]
    exact child_of_entry found member
  | inRow _ type member at_component ih | inColumn _ type member at_component ih
  | inTabs _ type member at_component _ ih | inTab _ type member at_component ih =>
    exact listed_child loaded ih.1 (by rw [type]; decide) member at_component

theorem OnPage.under (loaded : Loaded layout) {component : LayoutItem} {depth : Int}
    (onPage : OnPage layout component depth) :
    Under (Child layout) dashboardRootId component.id := by
  obtain ⟨_, p, edge, _⟩ := onPage.listed loaded
  exact under_of_child loaded edge

theorem Dragged.child (is_dragged : Dragged layout dragged) :
    Child layout dragged.parent.id dragged.id := JsArray.mem_of_item is_dragged.named.place

section
variable (loaded : Loaded layout) (is_dragged : Dragged layout dragged)
include loaded is_dragged

theorem Dragged.ne_root : dragged.id ≠ dashboardRootId :=
  fun same => loaded.anchored.rootOnTop _ (same ▸ is_dragged.child)

theorem Dragged.ne_header : dragged.id ≠ dashboardHeaderId :=
  fun same => loaded.headerApart _ (same ▸ is_dragged.child)

theorem Dragged.ne_grid : dragged.id ≠ dashboardGridId := by
  refine ne_grid_of_typeOf loaded.anchored is_dragged.named.type ?_
  intro same
  have drawn := is_dragged.drawn
  dsimp only at same
  rw [same] at drawn
  exact absurd drawn (by decide)

theorem Dragged.parent_ne_root
    (none_found : topLevelTabs layout = none) : dragged.parent.id ≠ dashboardRootId := by
  have listed : Listed layout dragged.id := by
    rcases is_dragged.onPage with ⟨component, _, onPage, same⟩ | ⟨tabs, _, onPage, type, member⟩
    · rw [← same]
      exact (onPage.listed loaded).2
    · obtain ⟨at_tabs, _⟩ := onPage.listed loaded
      exact listed_of_typeOf loaded.anchored (child_of_entry at_tabs member)
        (typeOf_of_entry at_tabs)
        (by rw [type]; decide)
  obtain ⟨p, edge, not_root⟩ := listed
  rw [loaded.wellFormed.single _ _ _ is_dragged.child edge]
  exact not_root none_found

theorem Dragged.root_filled : ∃ k, Child layout dashboardRootId k := by
  have reached := under_of_child loaded is_dragged.child
  rcases Relation.ReflTransGen.cases_head reached with same | ⟨k, edge, _⟩
  · exact (is_dragged.ne_root loaded same.symm).elim
  · exact ⟨k, edge⟩

end

theorem under_gridId (loaded : Loaded layout) (is_dragged : Dragged layout dragged)
    {gridId : String}
    (member : gridId ∈ gridIds layout) : Under (Child layout) dashboardRootId gridId := by
  unfold gridIds at member
  cases found : topLevelTabs layout with
  | none =>
    rw [found] at member
    obtain ⟨k, filled⟩ := is_dragged.root_filled loaded
    have first := head_of_no_topLevelTabs loaded found filled
    rw [List.mem_singleton.mp member]
    exact Relation.ReflTransGen.single (List.mem_of_mem_head? first)
  | some tabs =>
    rw [found] at member
    exact under_of_child loaded (child_of_entry (topLevelTabs_child loaded found).1 member)

theorem Rendered.container (loaded : Loaded layout) (is_dragged : Dragged layout dragged)
    {target : Target} (rendered : Rendered layout target) (type : ComponentType) :
    layout.entry (target.container type).id = some (target.container type)
      ∧ Under (Child layout) dashboardRootId (target.container type).id := by
  have grid : ∀ gridComponent, (∃ id ∈ gridIds layout, layout.entry id = some gridComponent) →
      layout.entry gridComponent.id = some gridComponent
        ∧ Under (Child layout) dashboardRootId gridComponent.id := by
    rintro gridComponent ⟨id, member, found⟩
    obtain ⟨same, at_id⟩ := entry_id loaded found
    refine ⟨at_id, ?_⟩
    rw [same]
    exact under_gridId loaded is_dragged member
  have page : ∀ {component depth}, OnPage layout component depth →
      layout.entry component.id = some component
        ∧ Under (Child layout) dashboardRootId component.id := fun onPage =>
    ⟨(onPage.listed loaded).1, onPage.under loaded⟩
  cases target with
  | root rootComponent =>
    obtain ⟨same, at_id⟩ := entry_id loaded rendered.2
    refine ⟨at_id, ?_⟩
    change Under (Child layout) dashboardRootId rootComponent.id
    rw [same]
  | gridTop gridComponent => exact grid gridComponent rendered
  | gridAfter gridComponent index => exact grid gridComponent rendered.1
  | rowStart rowComponent depth => exact page rendered.1
  | rowAfter rowComponent depth itemIndex => exact page rendered.1
  | columnStart columnComponent depth => exact page rendered.1
  | columnAfter columnComponent depth itemIndex => exact page rendered.1
  | tabTop tabComponent depth => exact page rendered.1
  | tabAfter tabComponent depth componentIndex => exact page rendered.1
  | tabTitle tabComponent tabsComponent depth index =>
    obtain ⟨onPage, _, _, id, at_index, found⟩ := rendered
    unfold Target.container
    dsimp only
    split
    · exact page onPage
    · obtain ⟨same, at_id⟩ := entry_id loaded found
      refine ⟨at_id, ?_⟩
      rw [same]
      exact under_of_child loaded
        (child_of_entry (onPage.listed loaded).1 (List.mem_of_getElem? at_index))

theorem Rendered.root_target (loaded : Loaded layout) {target : Target}
    (rendered : Rendered layout target)
    (at_root : (target.container type).id = dashboardRootId) :
    ∃ rootComponent, target = .root rootComponent := by
  have notPage : ∀ {component depth}, OnPage layout component depth →
      component.id ≠ dashboardRootId := by
    intro component depth onPage same
    obtain ⟨_, p, edge, _⟩ := onPage.listed loaded
    exact loaded.anchored.rootOnTop p (same ▸ edge)
  have notGrid : ∀ gridComponent, (∃ id ∈ gridIds layout, layout.entry id = some gridComponent) →
      gridComponent.id ≠ dashboardRootId := by
    rintro gridComponent ⟨id, member, found⟩
    rw [(entry_id loaded found).1]
    exact gridId_ne_root loaded member
  cases target with
  | root rootComponent => exact ⟨rootComponent, rfl⟩
  | gridTop gridComponent => exact (notGrid gridComponent rendered at_root).elim
  | gridAfter gridComponent index => exact (notGrid gridComponent rendered.1 at_root).elim
  | rowStart rowComponent depth => exact (notPage rendered.1 at_root).elim
  | rowAfter rowComponent depth itemIndex => exact (notPage rendered.1 at_root).elim
  | columnStart columnComponent depth => exact (notPage rendered.1 at_root).elim
  | columnAfter columnComponent depth itemIndex => exact (notPage rendered.1 at_root).elim
  | tabTop tabComponent depth => exact (notPage rendered.1 at_root).elim
  | tabAfter tabComponent depth componentIndex => exact (notPage rendered.1 at_root).elim
  | tabTitle tabComponent tabsComponent depth index =>
    obtain ⟨onPage, _, _, id, at_index, found⟩ := rendered
    unfold Target.container at at_root
    dsimp only at at_root
    split at at_root
    · exact (notPage onPage at_root).elim
    · rw [(entry_id loaded found).1] at at_root
      have edge := child_of_entry (onPage.listed loaded).1 (List.mem_of_getElem? at_index)
      exact (loaded.anchored.rootOnTop _ (at_root ▸ edge)).elim

end Page

structure Placed (container : LayoutItem) (destination : DropPlace) : Prop where
  id : destination.id = container.id
  type : destination.type = some container.type
  nonnegative : 0 ≤ destination.index
  inside : destination.index ≤ container.children.length

theorem Placed.names {layout : Layout} {container : LayoutItem} {destination : DropPlace}
    (placed : Placed container destination) (found : layout.entry container.id = some container) :
    NamesDestination layout destination where
  present := by
    rw [placed.id, found]
    simp
  type := by
    rw [placed.id, placed.type, typeOf_of_entry found]
  nonnegative := placed.nonnegative
  inside := by
    rw [placed.id, childrenOf_of_entry found]
    exact placed.inside

section Place
variable {layout : Layout} {dragged : DraggingItem}

theorem dropDestination_sibling (props : DropProps) (dragged : DraggingItem)
    {parentComponent : LayoutItem}
    (sibling : props.dropToChild dragged.type = false)
    (parent : props.parentComponent = some parentComponent) :
    ∃ index, dropDestination props dragged
        = some { id := parentComponent.id, type := some parentComponent.type, index := index }
      ∧ (index = props.index
        ∨ (index = props.index - 1 ∧ dragged.parent.index < props.index
          ∧ some dragged.type ≠ props.component.map LayoutItem.type)) := by
  unfold dropDestination
  rw [sibling, parent]
  dsimp only
  refine ⟨_, if_neg Bool.false_ne_true, ?_⟩
  split
  · rename_i lower
    exact Or.inr ⟨rfl, lower.2⟩
  · exact Or.inl rfl

theorem startProps_placed (component : LayoutItem) (depth : Int) (orientation : Orientation)
    (nonnegative : 0 ≤ dragged.parent.index) :
    ∃ destination, dropDestination (startProps component depth orientation) dragged =
      some destination
      ∧ Placed component destination := by
  unfold startProps
  split
  · exact ⟨_, rfl, rfl, rfl, Int.natCast_nonneg _, le_refl _⟩
  · obtain ⟨index, ran, bounds⟩ := dropDestination_sibling
      { component := none, parentComponent := some component, depth, index := 0, orientation,
        dropToChild := fun _ => false, forceFirst := false } dragged rfl rfl
    dsimp only at bounds
    refine ⟨_, ran, rfl, rfl, ?_, ?_⟩
    · dsimp only
      omega
    · dsimp only
      omega

theorem afterProps_placed (component : LayoutItem) (depth : Int) {itemIndex : Nat}
    (orientation : Orientation) (bound : itemIndex < component.children.length) :
    ∃ destination, dropDestination (afterProps component depth itemIndex orientation) dragged
        = some destination ∧ Placed component destination := by
  obtain ⟨index, ran, bounds⟩ := dropDestination_sibling
    (afterProps component depth itemIndex orientation) dragged rfl rfl
  have start : (afterProps component depth itemIndex orientation).index = itemIndex + 1 := rfl
  refine ⟨_, ran, rfl, rfl, ?_, ?_⟩
  · dsimp only
    omega
  · dsimp only
    omega

theorem handleDrop_placed_of (position : DropPosition) (props : DropProps) {container : LayoutItem}
    (found : ∃ destination, dropDestination props dragged = some destination
      ∧ Placed container destination) :
    ∃ destination, handleDrop props dragged position
        = some ⟨some dragged.parent, some destination,
          some ⟨dragged.id, dragged.type, dragged.metadata⟩,
            some position⟩ ∧ Placed container destination := by
  obtain ⟨destination, ran, placed⟩ := found
  unfold handleDrop
  rw [ran]
  refine ⟨_, rfl, ?_⟩
  split
  · exact ⟨placed.id, placed.type, le_refl _, Int.natCast_nonneg _⟩
  · exact placed

/-- On a rendered target `handleDrop` does not throw, and the destination is a place in the
component the target is for. -/
theorem handleDrop_placed (position : DropPosition) {target : Target}
    (rendered : Rendered layout target)
    (nonnegative : 0 ≤ dragged.parent.index) :
    ∃ destination, handleDrop target.props dragged position
        = some ⟨some dragged.parent, some destination,
          some ⟨dragged.id, dragged.type, dragged.metadata⟩,
            some position⟩ ∧ Placed (target.container dragged.type) destination := by
  apply handleDrop_placed_of
  cases target with
  | root rootComponent => exact ⟨_, rfl, rfl, rfl, le_refl _, Int.natCast_nonneg _⟩
  | gridTop gridComponent =>
    unfold dropDestination
    split
    · exact ⟨_, rfl, rfl, rfl, Int.natCast_nonneg _, le_refl _⟩
    · exact ⟨_, rfl, rfl, rfl, le_refl _, Int.natCast_nonneg _⟩
  | gridAfter gridComponent index =>
    have bound := rendered.2
    refine ⟨_, rfl, rfl, rfl, ?_, ?_⟩ <;> simp only [Target.props, Target.container] <;> omega
  | rowStart rowComponent depth => exact startProps_placed rowComponent depth .row nonnegative
  | rowAfter rowComponent depth itemIndex =>
    exact afterProps_placed rowComponent depth .row rendered.2.2
  | columnStart columnComponent depth =>
    exact startProps_placed columnComponent depth .column nonnegative
  | columnAfter columnComponent depth itemIndex =>
    exact afterProps_placed columnComponent depth .column rendered.2.2
  | tabTop tabComponent depth =>
    unfold dropDestination
    split
    · exact ⟨_, rfl, rfl, rfl, Int.natCast_nonneg _, le_refl _⟩
    · exact ⟨_, rfl, rfl, rfl, le_refl _, Int.natCast_nonneg _⟩
  | tabAfter tabComponent depth componentIndex =>
    have bound := rendered.2.2
    refine ⟨_, rfl, rfl, rfl, ?_, ?_⟩ <;> simp only [Target.props, Target.container] <;> omega
  | tabTitle tabComponent tabsComponent depth index =>
    obtain ⟨_, _, isTab, id, at_index, _⟩ := rendered
    obtain ⟨bound, _⟩ := List.getElem?_eq_some_iff.mp at_index
    by_cases type : dragged.type = .tab
    · -- a tab dropped on the title of a tab goes next to it
      have container :
        (Target.tabTitle tabComponent tabsComponent depth index).container dragged.type
          = tabsComponent := if_pos type
      rw [container]
      obtain ⟨place, ran, bounds⟩ := dropDestination_sibling
        (Target.tabTitle tabComponent tabsComponent depth index).props dragged
        (by simp [Target.props, type]) rfl
      have start : (Target.tabTitle tabComponent tabsComponent depth index).props.index = index :=
        rfl
      refine ⟨_, ran, rfl, rfl, ?_, ?_⟩
      · dsimp only
        omega
      · dsimp only
        omega
    · have container :
        (Target.tabTitle tabComponent tabsComponent depth index).container dragged.type
          = tabComponent := if_neg type
      rw [container]
      unfold dropDestination
      rw [if_pos (by simp [Target.props, type])]
      exact ⟨_, rfl, rfl, rfl, Int.natCast_nonneg _, le_refl _⟩

end Place

end Liteset.Dashboard
