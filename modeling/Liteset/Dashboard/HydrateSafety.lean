import Liteset.Dashboard.HydrateGrowth

/-!
# When a hydrated layout is a tree with the right parents

The rows that are added get no parents and the holders in them get none either, so
the layout is right only if something else makes the parents be rebuilt.  A holder
whose id is in use takes the place of the component that had it.
-/

set_option autoImplicit false

namespace Liteset.Dashboard.Hydrate

open Lib List
open Lib.Forest (Under)
open Lib.Paths (Path EdgeList)
open Lib.JsObject (Record)

def toItem (component : StoredComponent) : LayoutItem where
  children := component.children
  parents := component.parents.getD []
  type := component.type
  id := component.id
  metadata :=
    match component.chartId with
    | some chartId =>
      JsObject.spread component.metadata (JsObject.single "chartId" (JsObject.number chartId))
    | none => component.metadata

/-- `Object.values(layout)`; the version text has no type and is no item. -/
def layoutItems (layout : StoredLayout) : List LayoutItem :=
  layout.values.filterMap fun entry =>
    match entry with
    | .component component => some (toItem component)
    | .text _ => none

def wholeDashboard : FilterScope.NativeFilterScope where
  rootPath := [dashboardRootId]
  excluded := []
  selectedLayers := none

def sliceIds (charts : List Slice) : List JsObject.Value :=
  charts.map fun slice => some (.int slice.sliceId)

/-- The layout is a tree with the right parents, and all charts are in it. -/
structure Hydrated (layout : StoredLayout) (charts : List Slice) : Prop where
  tree : Tree layout
  exact : Exact layout
  placed : ∀ slice ∈ charts, ∃ k component, componentAt layout k = some component
    ∧ component.type = .chart ∧ component.chartId = some slice.sliceId
  inScope : ∀ slice ∈ charts, some (.int slice.sliceId)
    ∈ FilterScope.getChartIdsInFilterScope wholeDashboard (sliceIds charts) (layoutItems layout)

/-- A container is found, nothing that is written is in the tree, and if a chart is
added, then the container is in the tree and something other than an overwritten
component has no parents. -/
structure Hydratable (layout : StoredLayout) (charts : List Slice) : Prop where
  container : ∃ parentId, findFirstParentContainerId layout = some parentId ∧
    ((∃ n, Adds layout charts n) → Under (Child layout) dashboardRootId parentId)
  header : ¬Under (Child layout) dashboardRootId dashboardHeaderId
  holders : ∀ n, Adds layout charts n → ¬Under (Child layout) dashboardRootId (holderId n)
  rebuilt : (∃ n, Adds layout charts n) →
    ∃ k, lackingAt layout k = true ∧ ∀ n, Adds layout charts n → k ≠ holderId n

theorem chartIdOf_toItem {component : StoredComponent} {n : Int}
    (chart : component.chartId = some n) :
    FilterScope.chartIdOf (toItem component) = some (.int n) := by
  unfold FilterScope.chartIdOf toItem
  rw [chart]
  dsimp only
  rw [JsObject.get_spread_of_has (JsObject.has_single_iff.mpr rfl), JsObject.get_single_self]
  rfl

variable {layout : StoredLayout}

theorem inScope_of_placed {charts : List Slice} (tree : Tree layout) (exact : Exact layout)
    (placed : ∀ slice ∈ charts, ∃ k component, componentAt layout k = some component
      ∧ component.type = .chart ∧ component.chartId = some slice.sliceId)
    {slice : Slice} (listed : slice ∈ charts) :
    some (.int slice.sliceId)
      ∈ FilterScope.getChartIdsInFilterScope wholeDashboard (sliceIds charts)
        (layoutItems layout) := by
  show some (.int slice.sliceId)
    ∈ FilterScope.chartsUnderRootPath wholeDashboard (sliceIds charts) (layoutItems layout)
  unfold FilterScope.chartsUnderRootPath
  rw [mem_filter, decide_eq_true_eq]
  refine ⟨mem_map.mpr ⟨slice, listed, rfl⟩, not_mem_nil, ?_⟩
  unfold FilterScope.underRootPath
  obtain ⟨k, component, found, type, chart⟩ := placed slice listed
  have item : toItem component ∈ layoutItems layout :=
    mem_filterMap.mpr ⟨_, Record.mem_values.mpr ⟨k, entry_of_componentAt found⟩, rfl⟩
  cases first : (layoutItems layout).find? fun item =>
      item.type = .chart ∧ FilterScope.chartIdOf item = some (.int slice.sliceId) with
  | none =>
    have none := find?_eq_none.mp first (toItem component) item
    exact (none (decide_eq_true ⟨type, chartIdOf_toItem chart⟩)).elim
  | some other =>
    have isChart : other.type = .chart := by
      have tested := find?_some first
      rw [decide_eq_true_eq] at tested
      exact tested.1
    obtain ⟨entry, stored, same⟩ := mem_filterMap.mp (mem_of_find?_eq_some first)
    cases entry with
    | text value => cases same
    | component held =>
      cases same
      obtain ⟨l, at_l⟩ := Record.mem_values.mp stored
      have at_l := componentAt_of_entry at_l
      have reached : Under (Child layout) dashboardRootId l := by
        by_contra away
        exact (tree.aside l held at_l away).1 isChart
      have below : l ≠ dashboardRootId := by
        rintro rfl
        obtain ⟨root, foundRoot, rootType⟩ := tree.rootType
        have same : root = held := Option.some.inj (foundRoot.symm.trans at_l)
        have isChart : held.type = .chart := isChart
        rw [← same, rootType] at isChart
        cases isChart
      have above := Path.head_mem tree.single tree.rootOnTop (exact l held at_l reached) below
      exact any_eq_true.mpr ⟨dashboardRootId, above, decide_eq_true mem_cons_self⟩

section Hydrate
variable {nanoid : Nat → String} {start : StoredLayout} {parentId : String}

theorem filled_noneAdded (fresh : ∀ i, start.entry (rowId nanoid i) = none) :
    Filled nanoid start parentId (fun _ => False) (noneAdded start) := by
  refine ⟨fun _ none => none.elim,
    fun _ _ => rfl, fun _ _ => rfl, fun _ none => none.elim, ?_, ?_, ?_,
    fun _ none => none.elim, ?_, fun _ => rfl⟩
  · exact ⟨fun k component _ found => ⟨component, found, rfl, rfl, rfl, fun _ member => member⟩,
      fun _ _ none => none, fun _ _ => rfl⟩
  · intro i _
    show componentAt start (rowId nanoid i) = none
    unfold componentAt
    rw [fresh i]
  · intro i
    show (start.entry (rowId nanoid i)).any lacksParents = false
    rw [fresh i]
    rfl
  · rintro (⟨_, none⟩ | wide)
    · exact none.elim
    · exact (wide rfl).elim

variable (names : Function.Injective nanoid) (fresh : ∀ i, start.entry (rowId nanoid i) = none)
    (tree : Tree start) {parent : StoredComponent}
  (foundParent : componentAt start parentId = some parent) (parentParents : List String)
  (charts : List Slice)
include names fresh tree foundParent

theorem filled_placeSlices : ∃ after,
    placeSlices nanoid parentId parentParents (noneAdded start) charts = some after
      ∧ Filled nanoid start parentId (Adds start charts) after
      ∧ (Under (Child start) dashboardRootId parentId →
        ¬Under (Child start) dashboardRootId dashboardHeaderId →
        (∀ n, Adds start charts n → ¬Under (Child start) dashboardRootId (holderId n)) →
        Grown start parentId (fun n => ∃ slice ∈ charts, slice.sliceId = n)
          (Adds start charts) after)
      ∧ ((∀ n, ¬Adds start charts n) →
        SameShape start after.layout ∧ (Exact start → Exact after.layout))
      ∧ (¬Under (Child start) dashboardRootId parentId → NothingEnters start after) := by
  let wanted : Int → Prop := fun n => ∃ slice ∈ charts, slice.sliceId = n
  let P : (Int → Prop) → Filling → Prop := fun added filling =>
    (Under (Child start) dashboardRootId parentId →
      ¬Under (Child start) dashboardRootId dashboardHeaderId →
      (∀ n, Adds start charts n → ¬Under (Child start) dashboardRootId (holderId n)) →
      Grown start parentId wanted added filling)
    ∧ ((∀ n, ¬Adds start charts n) →
      SameShape start filling.layout ∧ (Exact start → Exact filling.layout))
    ∧ (¬Under (Child start) dashboardRootId parentId → NothingEnters start filling)
  have keeps : ∀ slice ∈ charts, ∀ added filling after, Filled nanoid start parentId added filling →
    P added filling →
      placeSlice nanoid parentId parentParents filling slice = some after →
      P (fun n => added n ∨ n = slice.sliceId ∧ Missing start n) after := by
    intro slice listed added filling after filled ⟨grows, unchanged, nothing⟩ run
    refine ⟨fun reached header clear => ?_, fun none => ?_, fun outside => ?_⟩
    · exact (grows reached header clear).placeSlice names fresh foundParent reached
        (fun n want missing => clear n ⟨want, missing⟩) filled tree ⟨slice, listed, rfl⟩ run
    · have kept : addIfMissing nanoid parentId parentParents filling slice = filling := by
        unfold addIfMissing
        rw [if_neg fun test =>
          none slice.sliceId ⟨⟨slice, listed, rfl⟩, (filled.given_iff.mp test.1).1⟩]
      obtain ⟨shape, stays⟩ := unchanged none
      unfold placeSlice at run
      rw [kept] at run
      rcases filled.syncName tree.keyed fresh slice with same | ⟨key, component, found, named⟩
      · rw [same] at run
        exact Option.some.inj run ▸ ⟨shape, stays⟩
      · rw [named] at run
        cases run
        exact ⟨shape.trans (sameShape_set found rfl), fun exact => (stays exact).named found _⟩
    · exact (nothing outside).placeSlice names fresh foundParent outside filled tree run
  have start_holds : P (fun _ => False) (noneAdded start) :=
    ⟨fun reached header clear =>
      ⟨tree, reached, header, fun n want missing _ => clear n ⟨want, missing⟩,
        fun _ none => none.elim⟩,
      fun _ => ⟨.refl _, id⟩, fun _ _ => id⟩
  obtain ⟨after, run, filled, holds⟩ :=
    placeSlices_run parentParents names fresh foundParent tree P charts _ _ keeps
      (filled_noneAdded fresh) start_holds
  simp only [false_or] at filled holds
  exact ⟨after, run, filled, holds⟩

end Hydrate

/-- Where the parents are built anew, they are right; where they are not, they are what
they were. -/
theorem buildParents_spec (tree : Tree layout)
    (rootParents : ∀ root, componentAt layout dashboardRootId = some root →
      root.parents.getD [] = [])
    (right : (∃ k, lackingAt layout k = true) ∨ Exact layout) :
    ∃ after, buildParents layout = some after ∧ SameShape layout after ∧ Exact after := by
  unfold buildParents
  by_cases lacks : layout.values.any lacksParents = true
  · rw [if_pos lacks]
    obtain ⟨root, found, _⟩ := tree.rootType
    have empty := rootParents root found
    obtain ⟨after, run, rebuilt⟩ :=
      update_rebuilds tree (layout.keys.length + 1) dashboardRootId root layout (.refl _) found
        (by rw [empty]; exact .root) (by rw [empty]; exact Nat.zero_add _)
    rw [entry_of_componentAt found]
    refine ⟨after, run, rebuilt.shape, fun k component at_k reached => ?_⟩
    rw [rebuilt.shape.child_eq] at reached ⊢
    exact rebuilt.placed dashboardRootId mem_cons_self k reached component at_k
  · rw [if_neg lacks]
    refine ⟨layout, rfl, .refl _, right.resolve_left fun some =>
      lacks (any_lacksParents_iff.mpr some)⟩

theorem rootParents_eq_nil (tree : Tree layout) (exact : Exact layout) {root : StoredComponent}
    (found : componentAt layout dashboardRootId = some root) : root.parents.getD [] = [] :=
  Path.unique tree.single tree.rootOnTop (exact dashboardRootId root found .refl) .root

theorem sameShape_buildParents {built : StoredLayout} (build : buildParents layout = some built) :
    SameShape layout built := by
  unfold buildParents at build
  split at build
  · split at build
    · cases build
      exact .refl _
    · cases build
    · exact sameShape_update _ _ _ _ build
  · cases build
    exact .refl _

/-- `layout[DASHBOARD_HEADER_ID]` is set last. -/
abbrev headed (layout : StoredLayout) (title : String) : StoredLayout :=
  layout.set dashboardHeaderId (.component (dashboardHeader title))

section Headed
variable {nanoid : Nat → String} {start built : StoredLayout} {parentId title : String}
    {charts : List Slice} {filled : Filling}
  (fresh : ∀ i, start.entry (rowId nanoid i) = none)
  (inv : Filled nanoid start parentId (Adds start charts) filled)
  (shape : SameShape filled.layout built) (hydrated : Hydrated (headed built title) charts)

include shape in
theorem child_headed (title : String) {a b : String} (other : a ≠ dashboardHeaderId)
    (edge : Child filled.layout a b) : Child (headed built title) a b := by
  rw [← shape.child_eq] at edge
  show b ∈ childrenOf _ a
  unfold childrenOf
  rw [componentAt_set, if_neg other]
  exact edge

include shape in
theorem componentAt_headed (title : String) {k : String} {component : StoredComponent}
    (found : componentAt filled.layout k = some component) (other : k ≠ dashboardHeaderId) :
    ∃ now, componentAt (headed built title) k = some now ∧ now.type = component.type ∧
      now.chartId = component.chartId := by
  obtain ⟨now, foundNow, same⟩ := shape.symm.exists_component found
  rw [componentAt_set, if_neg other]
  exact ⟨now, foundNow, congrArg (fun shape => shape.2.1) same,
    congrArg (fun shape => shape.2.2.2) same⟩

include fresh inv shape in
/-- A chart that was missing has its holder; the others kept their components. -/
theorem placed_headed (title : String) (tree : Tree start) (able : Hydratable start charts)
    {slice : Slice} (listed : slice ∈ charts) :
    ∃ k component, componentAt (headed built title) k = some component ∧
      component.type = .chart ∧ component.chartId = some slice.sliceId := by
  by_cases missing : Missing start slice.sliceId
  · obtain ⟨holder, found, type, chart, _⟩ :=
      inv.holders slice.sliceId ⟨⟨slice, listed, rfl⟩, missing⟩
    obtain ⟨now, foundNow, type', chart'⟩ :=
      componentAt_headed shape title found (holderId_ne_header _)
    exact ⟨_, now, foundNow, type'.trans type, chart'.trans chart⟩
  · obtain ⟨id, stored, _⟩ := given_eq_true_iff.mp (Bool.eq_true_of_not_eq_false missing)
    obtain ⟨component, found, type, chart⟩ := chartIdToLayoutId_spec tree.keyed stored
    have reached : Under (Child start) dashboardRootId id := by
      by_contra away
      exact (tree.aside id component found away).1 type
    have old : Old nanoid (Adds start charts) id :=
      ⟨ne_rowId fresh found, fun n new same => able.holders n new (same ▸ reached)⟩
    obtain ⟨kept, foundKept, type', chart', _, _⟩ := inv.ext.kept id component old found
    obtain ⟨now, foundNow, type'', chart''⟩ :=
      componentAt_headed shape title foundKept fun same => able.header (same ▸ reached)
    exact ⟨id, now, foundNow, type''.trans (type'.trans type), chart''.trans (chart'.trans chart)⟩

include hydrated in
/-- The header has no parents and is not the root. -/
theorem header_outside : ¬Under (Child (headed built title)) dashboardRootId dashboardHeaderId := by
  intro way
  have path := hydrated.exact dashboardHeaderId (dashboardHeader title)
    (by rw [componentAt_set, if_pos rfl]) way
  exact header_ne_root path.eq_root

include fresh inv shape hydrated

/-- A component that is overwritten and still listed where it was has two parents. -/
theorem under_headed {k : String} (way : Under (Child start) dashboardRootId k) :
    Under (Child (headed built title)) dashboardRootId k ∧
      ∀ n, Adds start charts n → k ≠ holderId n := by
  induction way with
  | refl => exact ⟨.refl, fun n _ => (holderId_ne_root n).symm⟩
  | @tail p k up last ih =>
    obtain ⟨component, found, _⟩ := exists_component_of_child last
    have old : Old nanoid (Adds start charts) p := ⟨ne_rowId fresh found, ih.2⟩
    have noHeader : p ≠ dashboardHeaderId := fun same => header_outside hydrated (same ▸ ih.1)
    have edge := child_headed shape title noHeader (inv.ext.child old last)
    refine ⟨ih.1.tail edge, ?_⟩
    rintro n new rfl
    obtain ⟨_, _, _, _, _, i, listed⟩ := inv.holders n new
    have second := child_headed shape title (rowId_ne_header nanoid i) listed
    exact old.1 i (hydrated.tree.single _ _ _ edge second)

omit fresh in
/-- The row hangs below the container, and nothing else leads to a container outside. -/
theorem under_of_adds {n : Int} (new : Adds start charts n)
    (place : Under (Child start) dashboardRootId parentId ∨ parentId = "undefined")
    (nothing : ¬Under (Child start) dashboardRootId parentId → NothingEnters start filled) :
    Under (Child start) dashboardRootId parentId := by
  by_contra outside
  obtain rfl := place.resolve_left outside
  obtain ⟨i, _, _, _, _, listed⟩ := inv.row (Or.inl ⟨n, new⟩)
  have held := inv.held fun n _ => (holderId_ne n (by decide)).symm
  have edge := child_headed shape title (by decide) (listed held)
  refine outside (nothing outside _ (Lib.Forest.under_mono (fun a b final => ?_)
    (hydrated.tree.under_of_child edge)))
  rw [← shape.child_eq]
  exact child_of_set rfl final

/-- Where nothing is rebuilt, the row keeps the empty list it was made with. -/
theorem lacking_of_adds {n : Int} (new : Adds start charts n)
    (build : buildParents filled.layout = some built)
    (reached : Under (Child start) dashboardRootId parentId) :
    ∃ k, lackingAt start k = true ∧ ∀ n, Adds start charts n → k ≠ holderId n := by
  by_cases lacks : ∃ k, lackingAt filled.layout k = true
  · obtain ⟨k, lacks⟩ := lacks
    exact ⟨k, (inv.lacking_iff fresh).mp lacks⟩
  · have same : built = filled.layout := by
      unfold buildParents at build
      rw [if_neg fun some => lacks (any_lacksParents_iff.mp some)] at build
      exact (Option.some.inj build).symm
    obtain ⟨way, apart⟩ := under_headed fresh inv shape hydrated reached
    obtain ⟨i, row, _, foundRow, parents, listed⟩ := inv.row (Or.inl ⟨n, new⟩)
    have noHeader : parentId ≠ dashboardHeaderId := fun same =>
      header_outside hydrated (same ▸ way)
    have edge := child_headed shape title noHeader (listed (inv.held apart))
    have path := hydrated.exact (rowId nanoid i) row
      (by rw [componentAt_set, if_neg (rowId_ne_header nanoid i), same]; exact foundRow)
      (way.tail edge)
    rw [parents] at path
    exact (rowId_ne_root nanoid i path.eq_root).elim

end Headed

section Directions
variable {nanoid : Nat → String} {positionData : Option StoredLayout} {charts : List Slice}
    {title : String}
  (names : Function.Injective nanoid)
  (fresh : ∀ i, (startingLayout positionData).entry (rowId nanoid i) = none)
  (tree : Tree (startingLayout positionData))
include names fresh tree

theorem hydratable_of_hydrated {layout : StoredLayout}
    (hydrate : hydrateLayout nanoid positionData charts title = some layout)
    (hydrated : Hydrated layout charts) :
    Hydratable (startingLayout positionData) charts := by
  let start := startingLayout positionData
  unfold hydrateLayout at hydrate
  dsimp only at hydrate
  cases container : findFirstParentContainerId (startingLayout positionData) with
  | none =>
    rw [container] at hydrate
    cases hydrate
  | some parentId =>
    rw [container] at hydrate
    dsimp only at hydrate
    obtain ⟨⟨_, foundParent⟩, place⟩ := findFirstParentContainerId_spec tree container
    obtain ⟨filled, run, inv, _, _, nothing⟩ := filled_placeSlices names fresh tree foundParent
      (((componentAt start parentId).bind StoredComponent.parents).getD []) charts
    rw [run] at hydrate
    dsimp only at hydrate
    cases build : buildParents filled.layout with
    | none =>
      rw [build] at hydrate
      cases hydrate
    | some built =>
      rw [build] at hydrate
      cases hydrate
      have shape := sameShape_buildParents build
      have inside := fun k => under_headed (k := k) fresh inv shape hydrated
      have reached : (∃ n, Adds start charts n) →
          Under (Child start) dashboardRootId parentId := fun ⟨_, new⟩ =>
        under_of_adds inv shape hydrated new place nothing
      exact ⟨⟨parentId, container, reached⟩,
        fun way => header_outside hydrated (inside _ way).1,
        fun n new way => (inside _ way).2 n new rfl,
        fun ⟨n, new⟩ => lacking_of_adds fresh inv shape hydrated new build (reached ⟨n, new⟩)⟩

variable (exact : Exact (startingLayout positionData))
include exact

theorem hydrated_of_hydratable (able : Hydratable (startingLayout positionData) charts) :
    ∃ layout, hydrateLayout nanoid positionData charts title = some layout ∧
    Hydrated layout charts := by
  let start := startingLayout positionData
  obtain ⟨parentId, container, reached⟩ := able.container
  obtain ⟨⟨_, foundParent⟩, _⟩ := findFirstParentContainerId_spec tree container
  obtain ⟨filled, run, inv, grows, unchanged, _⟩ := filled_placeSlices names fresh tree foundParent
    (((componentAt start parentId).bind StoredComponent.parents).getD []) charts
  obtain ⟨grown, header⟩ : Tree filled.layout ∧
      ¬Under (Child filled.layout) dashboardRootId dashboardHeaderId := by
    by_cases some : ∃ n, Adds start charts n
    · have grown := grows (reached some) able.header able.holders
      exact ⟨grown.tree, grown.header⟩
    · obtain ⟨shape, _⟩ := unchanged (not_exists.mp some)
      refine ⟨tree.of_sameShape shape, ?_⟩
      rw [shape.child_eq]
      exact able.header
  have rootOld : Old nanoid (Adds start charts) dashboardRootId :=
    ⟨fun i => (rowId_ne_root nanoid i).symm, fun n _ => (holderId_ne_root n).symm⟩
  have rootParents : ∀ root, componentAt filled.layout dashboardRootId = some root →
      root.parents.getD [] = [] := by
    intro root found
    obtain ⟨first, foundFirst, _⟩ := tree.rootType
    obtain ⟨now, foundNow, _, _, parents, _⟩ := inv.ext.kept _ first rootOld foundFirst
    rw [foundNow] at found
    cases found
    rw [parents]
    exact rootParents_eq_nil tree exact foundFirst
  have right : (∃ k, lackingAt filled.layout k = true) ∨ Exact filled.layout := by
    by_cases some : ∃ n, Adds start charts n
    · obtain ⟨k, lacks, others⟩ := able.rebuilt some
      exact Or.inl ⟨k, (inv.lacking_iff fresh).mpr ⟨lacks, others⟩⟩
    · exact Or.inr ((unchanged (not_exists.mp some)).2 exact)
  obtain ⟨built, build, shape, exactBuilt⟩ := buildParents_spec grown rootParents right
  have treeBuilt := grown.of_sameShape shape
  have outside : ¬Under (Child built) dashboardRootId (dashboardHeader title).id := by
    rw [shape.child_eq]
    exact header
  have treeAfter := treeBuilt.set_aside outside rfl nofun
  have exactAfter := treeBuilt.exact_set outside rfl exactBuilt
  have placed : ∀ slice ∈ charts, ∃ k component,
      componentAt (headed built title) k = some component ∧
        component.type = .chart ∧ component.chartId = some slice.sliceId :=
    fun slice listed => placed_headed fresh inv shape title tree able listed
  refine ⟨_, ?_, treeAfter, exactAfter, placed,
    fun slice listed => inScope_of_placed treeAfter exactAfter placed listed⟩
  unfold hydrateLayout
  dsimp only
  rw [container]
  dsimp only
  rw [run]
  dsimp only
  rw [build]
  rfl

end Directions

section Checking
variable {layout : StoredLayout} {a b key : String}

theorem key_of_componentAt {component : StoredComponent}
    (found : componentAt layout key = some component) :
    key ∈ layout.keys := by
  refine layout.listed key ?_
  rw [entry_of_componentAt found]
  exact Option.some_ne_none _

def edges (layout : StoredLayout) : List (String × String) :=
  layout.keys.flatMap fun key => (childrenOf layout key).map fun child => (key, child)

theorem mem_edges_iff : (a, b) ∈ edges layout ↔ Child layout a b := by
  unfold edges
  rw [mem_flatMap]
  constructor
  · rintro ⟨key, _, member⟩
    obtain ⟨child, listed, same⟩ := mem_map.mp member
    cases same
    exact listed
  · intro edge
    obtain ⟨component, found, _⟩ := exists_component_of_child edge
    exact ⟨a, key_of_componentAt found, mem_map_of_mem edge⟩

def aboveOf (layout : StoredLayout) (key : String) : List String :=
  ((componentAt layout key).bind StoredComponent.parents).getD []

/-- What is read off the keys of a layout that is a tree with the right parents. -/
@[mk_iff]
structure Checked (layout : StoredLayout) : Prop where
  keyed : ∀ key ∈ layout.keys, ∀ component ∈ componentAt layout key, component.id = key
  rootType : ∃ root ∈ componentAt layout dashboardRootId, root.type = .root
  distinct : ((edges layout).map Prod.snd).Nodup
  top : dashboardRootId ∉ (edges layout).map Prod.snd
  held : ∀ edge ∈ edges layout, edge.1 = dashboardRootId ∨ edge.1 ∈ (edges layout).map Prod.snd
  start : aboveOf layout dashboardRootId = []
  grows : ∀ edge ∈ edges layout, aboveOf layout edge.2 = aboveOf layout edge.1 ++ [edge.1]
  listed : ∀ edge ∈ edges layout, (componentAt layout edge.2).isSome = true
  aside : ∀ key ∈ layout.keys, ∀ component ∈ componentAt layout key,
    (key = dashboardRootId ∨ key ∈ (edges layout).map Prod.snd) ∨ component.type ≠ .chart ∧
    component.children = []

instance (layout : StoredLayout) : Decidable (Checked layout) :=
  decidable_of_iff _ (checked_iff layout).symm

variable (checked : Checked layout)
include checked

theorem Checked.edgeList :
    EdgeList (Child layout) dashboardRootId (edges layout) (aboveOf layout) where
  mem_iff _ _ := mem_edges_iff
  distinct := checked.distinct
  top := checked.top
  held := checked.held
  start := checked.start
  grows := checked.grows

theorem tree_of_checked : Tree layout where
  keyed key component found := checked.keyed key (key_of_componentAt found) component found
  rootType := by
    obtain ⟨root, found, isRoot⟩ := checked.rootType
    exact ⟨root, found, isRoot⟩
  rootOnTop := checked.edgeList.not_edge_root
  listed a b edge := Option.isSome_iff_ne_none.mp (checked.listed _ (mem_edges_iff.mpr edge))
  distinct key := by
    have parts := checked.distinct
    rw [edges, map_flatMap, nodup_flatMap] at parts
    by_cases member : key ∈ layout.keys
    · have own := parts.1 key member
      rwa [map_map, show Prod.snd ∘ (fun child => (key, child)) = id from rfl, map_id] at own
    · cases found : componentAt layout key with
      | none =>
        unfold childrenOf
        rw [found]
        exact nodup_nil
      | some component => exact absurd (key_of_componentAt found) member
  single := checked.edgeList.single
  aside key component found away :=
    (checked.aside key (key_of_componentAt found) component found).resolve_left fun entered =>
      away (checked.edgeList.under_iff.mpr entered)

theorem exact_of_checked : Exact layout := by
  intro key component found reached
  have path := checked.edgeList.path reached
  rwa [aboveOf, found] at path

end Checking

theorem hydrates_iff (nanoid : Nat → String) (positionData : Option StoredLayout)
    (charts : List Slice)
    (title : String) (names : Function.Injective nanoid)
    (fresh : ∀ i, (startingLayout positionData).entry (uuid .row (nanoid i)) = none)
    (tree : Tree (startingLayout positionData)) (exact : Exact (startingLayout positionData)) :
    (∃ layout, hydrateLayout nanoid positionData charts title = some layout ∧
      Hydrated layout charts)
      ↔ Hydratable (startingLayout positionData) charts :=
  ⟨fun ⟨_, hydrate, hydrated⟩ => hydratable_of_hydrated names fresh tree hydrate hydrated,
    hydrated_of_hydratable names fresh tree exact⟩

def gridRow : StoredComponent where
  id := dashboardGridId
  type := .grid
  children := ["ROW-1"]
  parents := some [dashboardRootId]
  chartId := none
  metadata := JsObject.empty

def birthsRow : StoredComponent where
  id := "ROW-1"
  type := .row
  children := ["CHART-1"]
  parents := some [dashboardRootId, dashboardGridId]
  chartId := none
  metadata := JsObject.empty

def birthsHolder : StoredComponent where
  id := "CHART-1"
  type := .chart
  children := []
  parents := some [dashboardRootId, dashboardGridId, "ROW-1"]
  chartId := some 5
  metadata := JsObject.empty

/-- A layout that was saved with one chart and the header. -/
def birthsLayout : StoredLayout :=
  (((getEmptyLayout.set dashboardGridId (.component gridRow)).set dashboardHeaderId
    (.component (dashboardHeader "Names"))).set "ROW-1" (.component birthsRow)).set "CHART-1"
      (.component birthsHolder)

def threeCharts : List Slice := [⟨7, "girls"⟩, ⟨5, "births"⟩, ⟨9, "boys"⟩]

def drawnId (i : Nat) : String := "drawn" ++ toString i

theorem drawnId_injective : Function.Injective drawnId := by
  intro i j same
  have texts : toString i = toString j := by simpa [drawnId] using same
  exact Nat.repr_injective texts

theorem notIn_of_drawn {layout : StoredLayout} (i : Nat)
    (others : ∀ key ∈ layout.keys, (key.toList[4]? == some 'd') = false) :
    layout.entry (uuid .row (drawnId i)) = none := by
  by_contra held
  have other := others _ (layout.listed _ held)
  simp [uuid, drawnId, ComponentType.name, String.toList_append] at other

theorem hydratable_birthsLayout : Hydratable birthsLayout threeCharts := by
  have checked : Checked birthsLayout := by decide
  refine ⟨⟨dashboardGridId, by decide, fun _ => checked.edgeList.under_iff.mpr (by decide)⟩,
    fun reached => ?_, fun n adds reached => ?_, fun _ => ⟨"DASHBOARD_VERSION_KEY", by decide, ?_⟩⟩
  · exact absurd (checked.edgeList.under_iff.mp reached) (by decide)
  · have entered := checked.edgeList.under_iff.mp reached
    obtain ⟨slice, listed, rfl⟩ := adds.1
    simp only [threeCharts, mem_cons, not_mem_nil, or_false] at listed
    rcases listed with rfl | rfl | rfl <;> exact absurd entered (by decide)
  · intro n adds
    obtain ⟨slice, listed, rfl⟩ := adds.1
    simp only [threeCharts, mem_cons, not_mem_nil, or_false] at listed
    rcases listed with rfl | rfl | rfl <;> decide

/-- Two charts are added to a stored layout; the text of the version makes the parents be
rebuilt. -/
theorem birthsLayout_hydrates :
    ∃ layout, hydrateLayout drawnId (some birthsLayout) threeCharts "Names" = some layout
      ∧ Hydrated layout threeCharts := by
  have checked : Checked birthsLayout := by decide
  exact (hydrates_iff drawnId (some birthsLayout) threeCharts "Names" drawnId_injective
    (fun i => notIn_of_drawn i (by decide)) (tree_of_checked checked)
      (exact_of_checked checked)).mpr
    hydratable_birthsLayout

def emptyRoot : StoredComponent where
  id := dashboardRootId
  type := .root
  children := [dashboardGridId]
  parents := none
  chartId := none
  metadata := JsObject.empty

def emptyGrid : StoredComponent := { gridRow with children := [] }

def unversionedLayout : StoredLayout :=
  (Record.empty.set dashboardRootId (.component emptyRoot)).set dashboardGridId
    (.component emptyGrid)

/-- The layout of an import has the parents it should have; the row of the chart that
is added has none. -/
theorem unversioned_not_hydrated :
    Tree unversionedLayout ∧ Exact unversionedLayout
      ∧ (∀ i : Nat, unversionedLayout.entry (uuid .row (drawnId i)) = none)
      ∧ ¬∃ layout, hydrateLayout drawnId (some unversionedLayout) [⟨5, "births"⟩] "Sales" =
        some layout
        ∧ Hydrated layout [⟨5, "births"⟩] := by
  have checked : Checked unversionedLayout := by decide
  have fresh : ∀ i : Nat, unversionedLayout.entry (uuid .row (drawnId i)) = none :=
    fun i => notIn_of_drawn i (by decide)
  refine ⟨tree_of_checked checked, exact_of_checked checked, fresh, ?_⟩
  rintro ⟨layout, run, hydrated⟩
  have able : Hydratable (startingLayout (some unversionedLayout)) [⟨5, "births"⟩] :=
    hydratable_of_hydrated drawnId_injective fresh (tree_of_checked checked) run hydrated
  obtain ⟨k, lacks, _⟩ := able.rebuilt ⟨5, ⟨⟨5, "births"⟩, mem_singleton.mpr rfl, rfl⟩, by decide⟩
  have keys : ∀ key ∈ unversionedLayout.keys, lackingAt unversionedLayout key = false := by decide
  have stored : unversionedLayout.entry k ≠ none := by
    intro absent
    change lackingAt unversionedLayout k = true at lacks
    rw [lackingAt, absent] at lacks
    cases lacks
  exact Bool.noConfusion (lacks.symm.trans (keys k (unversionedLayout.listed k stored)))

end Liteset.Dashboard.Hydrate
