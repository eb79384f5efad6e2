import Liteset.Lib.Paths
import Liteset.Dashboard.FilterScope

/-!
# A scope holds the charts it was made from

On a layout whose parents are the paths from `ROOT_ID`, both readings of the scope
that is found for some charts give these charts back.
-/

set_option autoImplicit false

namespace Liteset.Dashboard.FilterScope

open Lib List
open Lib.Forest (Under SingleParent)
open Lib.JsObject (Record Value)
open Lib.Paths (Path)

structure Aside (component : LayoutItem) : Prop where
  noChart : component.type ≠ .chart
  empty : component.children = []
  parents : component.parents = [] ∨ component.parents = [dashboardRootId]

/-- The children form a tree below `ROOT_ID` with the charts as leaves, and the
parents of a component are its path. -/
structure PathTree (layout : Layout) : Prop where
  keyed : Keyed layout
  rootType : typeOf layout dashboardRootId = some .root
  rootOnTop : ∀ a, ¬Child layout a dashboardRootId
  listed : ∀ a b, Child layout a b → layout.entry b ≠ none
  single : SingleParent (Child layout)
  leaves : ∀ k, typeOf layout k = some .chart → childrenOf layout k = []
  paths : ∀ k component, layout.entry k = some component → Under (Child layout) dashboardRootId k →
    Path (Child layout) dashboardRootId component.parents k
  aside : ∀ k component, layout.entry k = some component → ¬Under (Child layout) dashboardRootId k →
    Aside component
  /-- The keys of layers are no ids of charts, and every id has some text. -/
  ids : ∀ k, layout.entry k ≠ none →
    k ≠ "" ∧ (typeOf layout k = some .chart → matchLayerKey k = none)

/-- No two charts have the same chart id. -/
def DistinctChartIds (layout : Layout) : Prop :=
  ∀ k l first second, layout.entry k = some first → layout.entry l = some second →
    first.type = .chart → second.type = .chart → chartIdOf first = chartIdOf second → k = l

section Tree
variable {layout : Layout} (tree : PathTree layout)
include tree

theorem entry_of_under {k : String} (reached : Under (Child layout) dashboardRootId k) :
    ∃ component, layout.entry k = some component := by
  rcases Forest.under_cases reached with same | ⟨p, _, last⟩
  · subst same
    obtain ⟨component, found, _⟩ := Option.map_eq_some_iff.mp tree.rootType
    exact ⟨component, found⟩
  · exact exists_entry (tree.listed p k last)

variable {component : LayoutItem}

theorem path_of_entry {k : String} (found : layout.entry k = some component)
    (reached : Under (Child layout) dashboardRootId k) :
    Path (Child layout) dashboardRootId component.parents k :=
  tree.paths k component found reached

theorem under_of_chart {k : String} (found : layout.entry k = some component)
    (chart : component.type = .chart) : Under (Child layout) dashboardRootId k := by
  by_contra outside
  exact (tree.aside k component found outside).noChart chart

theorem ne_root_of_chart {k : String} (found : layout.entry k = some component)
    (chart : component.type = .chart) : k ≠ dashboardRootId := by
  rintro rfl
  have type := tree.rootType
  rw [typeOf_of_entry found, chart] at type
  cases type

theorem parents_of_child {p k : String} {parent component : LayoutItem}
    (foundParent : layout.entry p = some parent)
    (found : layout.entry k = some component) (reached : Under (Child layout) dashboardRootId p)
    (edge : Child layout p k) : component.parents = parent.parents ++ [p] :=
  Path.of_edge tree.single tree.rootOnTop (tree.paths p parent foundParent reached) edge
    (tree.paths k component found (reached.tail edge))

theorem child_of_getLast {k item : String} {component parent : LayoutItem}
    (found : layout.entry k = some component)
    (foundParent : layout.entry item = some parent) (hidden : isShowTypeInTree parent = false)
    (last : component.parents.getLast? = some item) : Child layout item k := by
  by_cases reached : Under (Child layout) dashboardRootId k
  · have path := tree.paths k component found reached
    generalize component.parents = parents at path last
    cases path with
    | root => cases last
    | step _ edge =>
      rw [getLast?_concat] at last
      cases last
      exact edge
  · rcases (tree.aside k component found reached).parents with none | root
    · rw [none] at last
      cases last
    · rw [root] at last
      have same : dashboardRootId = item := Option.some.inj last
      subst same
      have type := tree.rootType
      rw [typeOf_of_entry foundParent] at type
      unfold isShowTypeInTree at hidden
      rw [Option.some.inj type] at hidden
      cases hidden

theorem addInvisibleParents_spec {item : String}
    (found : layout.entry item = some component) :
    ∃ below, addInvisibleParents layout item = some below ∧ ∀ x, x ∈ below ↔
    Child layout item x := by
  unfold addInvisibleParents
  rw [found]
  refine ⟨_, rfl, fun x => ?_⟩
  rw [mem_append, ← childrenOf_of_entry found]
  refine or_iff_left_of_imp fun invisible => ?_
  cases shown : isShowTypeInTree component with
  | true =>
    rw [shown, if_pos rfl] at invisible
    cases invisible
  | false =>
    rw [shown, if_neg Bool.false_ne_true] at invisible
    obtain ⟨val, member, rfl⟩ := mem_map.mp invisible
    obtain ⟨isValue, last⟩ := mem_filter.mp member
    obtain ⟨key, at_key⟩ := Record.mem_values.mp isValue
    rw [tree.keyed key val at_key]
    exact child_of_getLast tree at_key found shown (of_decide_eq_true last)

end Tree

def Checked (layout : Layout) (excluded : List Value) (item : String) : Prop :=
  ∃ component, layout.entry item = some component ∧ component.type = .chart ∧
    chartIdOf component ∉ excluded

variable {layout : Layout}

theorem mem_checkedChart {excluded : List Value} {item x : String} :
    x ∈ checkedChart layout excluded item ↔ x = item ∧ Checked layout excluded item := by
  unfold checkedChart Checked
  cases found : layout.entry item with
  | none => simp
  | some component =>
    by_cases checked : component.type = .chart ∧ chartIdOf component ∉ excluded
    · simp [checked]
    · simp [checked]

theorem collect_spec {check : String → Option (List String)} {P : String → String → Prop}
    (items : List String)
    (each : ∀ item ∈ items, ∃ out, check item = some out ∧ ∀ x, x ∈ out ↔ P item x) :
    ∃ out, collect check items = some out ∧ ∀ x, x ∈ out ↔ ∃ item ∈ items, P item x := by
  induction items with
  | nil => exact ⟨[], rfl, by simp⟩
  | cons item rest ih =>
    obtain ⟨first, checked, isFirst⟩ := each item mem_cons_self
    obtain ⟨others, collected, isOther⟩ :=
      ih fun other member => each other (mem_cons_of_mem _ member)
    refine ⟨first ++ others, by rw [collect, checked, collected], fun x => ?_⟩
    rw [mem_append, isFirst, isOther]
    simp

section Walk
variable {layout : Layout} (tree : PathTree layout) (excluded : List Value) (deepest : Nat)
  (bounded : ∀ k component, layout.entry k = some component → component.parents.length ≤ deepest)
include tree bounded

/-- With fuel for the depth that is left, the walk finds the unexcluded charts below its items. -/
theorem checkTreeItem_spec (fuel : Nat) :
    ∀ items : List String,
      (∀ k ∈ items, Under (Child layout) dashboardRootId k
        ∧ ∀ component, layout.entry k = some component →
        deepest < fuel + component.parents.length) →
      ∃ out, checkTreeItem layout excluded fuel items = some out
        ∧ ∀ x, x ∈ out ↔ ∃ k ∈ items, Checked layout excluded x ∧ Under (Child layout) k x := by
  induction fuel with
  | zero =>
    intro items fueled
    cases items with
    | nil => exact ⟨[], rfl, by simp⟩
    | cons k rest =>
      obtain ⟨reached, enough⟩ := fueled k mem_cons_self
      obtain ⟨component, found⟩ := entry_of_under tree reached
      have short := bounded k component found
      have long := enough component found
      omega
  | succ fuel ih =>
    intro items fueled
    refine collect_spec items fun item member => ?_
    obtain ⟨reached, enough⟩ := fueled item member
    obtain ⟨component, found⟩ := entry_of_under tree reached
    obtain ⟨below, invisible, isBelow⟩ := addInvisibleParents_spec tree found
    have deeper : ∀ k ∈ below, Under (Child layout) dashboardRootId k
        ∧ ∀ child, layout.entry k = some child → deepest < fuel + child.parents.length := by
      intro k inBelow
      have edge := (isBelow k).mp inBelow
      refine ⟨reached.tail edge, fun child foundChild => ?_⟩
      rw [parents_of_child tree found foundChild reached edge, length_append, length_singleton]
      have room := enough component found
      omega
    obtain ⟨checked, walked, isChecked⟩ := ih below deeper
    refine ⟨checked ++ checkedChart layout excluded item,
      by rw [invisible]; dsimp only; rw [walked], fun x => ?_⟩
    rw [mem_append, isChecked, mem_checkedChart]
    constructor
    · rintro (⟨k, inBelow, isChart, way⟩ | ⟨rfl, isChart⟩)
      · exact ⟨isChart, way.head ((isBelow k).mp inBelow)⟩
      · exact ⟨isChart, .refl⟩
    · rintro ⟨isChart, way⟩
      rcases Relation.ReflTransGen.cases_head way with rfl | ⟨k, edge, rest⟩
      · exact Or.inr ⟨rfl, isChart⟩
      · exact Or.inl ⟨k, (isBelow k).mpr edge, isChart, rest⟩

end Walk

theorem mapM_spec {α β : Type} {f : α → Option β} {Q : α → β → Prop} (list : List α)
    (each : ∀ x ∈ list, ∃ y, f x = some y ∧ Q x y) :
    ∃ ys, list.mapM f = some ys ∧ (∀ y ∈ ys, ∃ x ∈ list, Q x y) ∧ ∀ x ∈ list, ∃ y ∈ ys, Q x y := by
  induction list with
  | nil => exact ⟨[], rfl, by simp, by simp⟩
  | cons x rest ih =>
    obtain ⟨y, mapped, good⟩ := each x mem_cons_self
    obtain ⟨ys, mappedRest, back, forth⟩ := ih fun z member => each z (mem_cons_of_mem _ member)
    refine ⟨y :: ys, by rw [mapM_cons, mapped, mappedRest]; rfl,
      fun z member => ?_, fun z member => ?_⟩
    · rcases mem_cons.mp member with rfl | old
      · exact ⟨x, mem_cons_self, good⟩
      · obtain ⟨w, inRest, fits⟩ := back z old
        exact ⟨w, mem_cons_of_mem _ inRest, fits⟩
    · rcases mem_cons.mp member with rfl | old
      · exact ⟨y, mem_cons_self, good⟩
      · obtain ⟨w, inRest, fits⟩ := forth z old
        exact ⟨w, mem_cons_of_mem _ inRest, fits⟩

/-- Every list is cut at the length of the shortest, so that each gives one of its members. -/
theorem commonParents_spec (lists : List (List String))
    (nonempty : ∀ parents ∈ lists, parents ≠ []) :
    ∃ rootPath, commonParents lists = some rootPath
      ∧ (∀ r ∈ rootPath, ∃ parents ∈ lists, r ∈ parents)
      ∧ ∀ parents ∈ lists, ∃ r ∈ rootPath, r ∈ parents := by
  have perm := perm_insertionSort (fun p1 p2 : List String => p1.length ≤ p2.length) lists
  have sorted := pairwise_insertionSort (fun p1 p2 : List String => p1.length ≤ p2.length) lists
  unfold commonParents
  dsimp only
  generalize lists.insertionSort (fun p1 p2 => p1.length ≤ p2.length) = ordered at perm sorted
  cases ordered with
  | nil =>
    refine ⟨[], rfl, by simp, fun parents member => ?_⟩
    cases perm.mem_iff.mpr member
  | cons shortest rest =>
    have positive : shortest.length ≠ 0 := by
      rw [Ne, length_eq_zero_iff]
      exact nonempty shortest (perm.mem_iff.mp mem_cons_self)
    obtain ⟨rootPath, mapped, back, forth⟩ :=
      mapM_spec (f := fun parents : List String =>
          if shortest.length = 0 then none else parents[shortest.length - 1]?)
        (Q := fun parents r => r ∈ parents) (shortest :: rest) fun parents member => by
          have least : shortest.length ≤ parents.length := by
            rcases mem_cons.mp member with rfl | later
            · exact le_refl _
            · exact (pairwise_cons.mp sorted).1 parents later
          have inside : shortest.length - 1 < parents.length := by omega
          refine ⟨parents[shortest.length - 1], ?_, getElem_mem inside⟩
          rw [if_neg positive, getElem?_eq_getElem inside]
    refine ⟨rootPath, mapped, fun r member => ?_, fun parents member => ?_⟩
    · obtain ⟨parents, isOrdered, inside⟩ := back r member
      exact ⟨parents, perm.mem_iff.mp isOrdered, inside⟩
    · exact forth parents (perm.mem_iff.mpr member)

section Encode
variable {layout : Layout} (tree : PathTree layout) {S : List String}
  (charts : ∀ k ∈ S, typeOf layout k = some .chart)
include tree charts

theorem entry_of_selected {k : String} (member : k ∈ S) :
    ∃ component, layout.entry k = some component ∧ component.type = .chart
      ∧ Path (Child layout) dashboardRootId component.parents k := by
  obtain ⟨component, found, type⟩ := Option.map_eq_some_iff.mp (charts k member)
  exact ⟨component, found, type,
    path_of_entry tree found (under_of_chart tree found type)⟩

theorem selectedChartKeys_eq : selectedChartKeys S layout = S := by
  have kept : (S.filter fun key => typeOf layout key = some .chart || !namesLayer key) = S :=
    filter_eq_self.mpr fun k member => by simp [charts k member]
  have unchanged : ∀ (keys : List String) (chartKeys : List String),
    (∀ k ∈ keys, matchLayerKey k = none) →
      keys.foldl (addLayerChart layout) chartKeys = chartKeys := by
    intro keys
    induction keys with
    | nil => exact fun _ _ => rfl
    | cons key rest ih =>
      intro chartKeys noLayers
      rw [foldl_cons, addLayerChart, noLayers key mem_cons_self]
      exact ih chartKeys fun k member => noLayers k (mem_cons_of_mem _ member)
  unfold selectedChartKeys
  rw [kept, unchanged]
  intro k member
  have inS := mem_of_mem_filter member
  obtain ⟨component, found, _⟩ := entry_of_selected tree charts inS
  exact (tree.ids k (by rw [found]; exact Option.some_ne_none component)).2 (charts k inS)

theorem visibleParents_spec {k : String} (member : k ∈ S) :
    ∃ visible, visibleParents layout k = some visible ∧ visible ≠ []
      ∧ ∀ component, layout.entry k = some component → ∀ r ∈ visible, r ∈ component.parents := by
  obtain ⟨component, found, type, path⟩ := entry_of_selected tree charts member
  have rootAbove : dashboardRootId ∈ component.parents :=
    Path.head_mem tree.single tree.rootOnTop path (ne_root_of_chart tree found type)
  have inside : ∀ r ∈ dashboardRootId :: component.parents, r ∈ component.parents := by
    intro r isParent
    rcases mem_cons.mp isParent with rfl | above
    · exact rootAbove
    · exact above
  have present :
      ((dashboardRootId :: component.parents).all fun parent => (layout.entry parent).isSome) =
        true := by
    refine all_eq_true.mpr fun r isParent => ?_
    have reached := ((Path.mem_iff tree.single tree.rootOnTop path).mp (inside r isParent)).1
    obtain ⟨parent, foundParent⟩ := entry_of_under tree reached
    rw [foundParent]
    rfl
  unfold visibleParents
  rw [found]
  simp only [Option.map_some, Option.getD_some]
  rw [if_pos present]
  refine ⟨_, rfl, ?_, fun other same r shown => ?_⟩
  · refine ne_nil_of_mem (mem_filter.mpr ⟨mem_cons_self (a := dashboardRootId), ?_⟩)
    obtain ⟨root, foundRoot, rootType⟩ := Option.map_eq_some_iff.mp tree.rootType
    rw [foundRoot]
    simp [isShowTypeInTree, rootType]
  · cases same
    exact inside r (mem_of_mem_filter shown)

end Encode

theorem isExcluded_iff {rootPath chartKeys parents : List String} {key : String}
    (named : ∀ r ∈ rootPath, r ≠ "") :
    isExcluded rootPath chartKeys key parents = true ↔
      key ∉ chartKeys ∧ ∃ r ∈ dashboardRootId :: parents, r ∈ rootPath := by
  unfold isExcluded
  cases found : (dashboardRootId :: parents).find? fun parent =>
    decide (parent ∈ rootPath ∧ key ∉ chartKeys) with
  | none =>
    have none := find?_eq_none.mp found
    refine ⟨fun impossible => (Bool.false_ne_true impossible).elim,
      fun ⟨outside, r, isParent, inPath⟩ => ?_⟩
    exact (none r isParent (decide_eq_true ⟨inPath, outside⟩)).elim
  | some parent =>
    have chosen : parent ∈ rootPath ∧ key ∉ chartKeys := by simpa using find?_some found
    obtain ⟨inPath, outside⟩ := chosen
    exact ⟨fun _ => ⟨outside, parent, mem_of_find?_eq_some found, inPath⟩,
      fun _ => decide_eq_true (named parent inPath)⟩

theorem mem_excludedCharts {rootPath chartKeys : List String} {chartId : Value} :
    chartId ∈ excludedCharts layout rootPath chartKeys ↔
      ∃ key value, layout.entry key = some value ∧ value.type = .chart
        ∧ isExcluded rootPath chartKeys key value.parents = true ∧ chartIdOf value = chartId := by
  unfold excludedCharts
  rw [mem_filterMap]
  constructor
  · rintro ⟨key, _, given⟩
    cases found : layout.entry key with
    | none =>
      rw [found] at given
      cases given
    | some value =>
      rw [found] at given
      dsimp only at given
      by_cases out : value.type = .chart ∧ isExcluded rootPath chartKeys key value.parents = true
      · rw [if_pos out] at given
        exact ⟨key, value, found, out.1, out.2, Option.some.inj given⟩
      · rw [if_neg out] at given
        cases given
  · rintro ⟨key, value, found, chart, out, rfl⟩
    refine ⟨key, Record.mem_enumerate.mpr (layout.listed key (by simp [found])), ?_⟩
    rw [found]
    exact if_pos ⟨chart, out⟩

/-- What a scope found for the charts of `S` says of every chart: it lies below a
component of the root path, and it is excluded, or not, as it is picked. -/
structure Encodes (layout : Layout) (S : List String) (scope : NativeFilterScope) : Prop where
  noLayers : scope.selectedLayers = none
  reached : ∀ r ∈ scope.rootPath, Under (Child layout) dashboardRootId r
  covers : ∀ k ∈ S, ∀ component, layout.entry k = some component → ∃ r ∈ scope.rootPath,
    r ∈ component.parents
  inner : ∀ r ∈ scope.rootPath, typeOf layout r ≠ some .chart
  excludes : ∀ k component, layout.entry k = some component → component.type = .chart →
    (∃ r ∈ scope.rootPath, r ∈ component.parents) → (chartIdOf component ∈ scope.excluded ↔ k ∉ S)

theorem findFilterScope_encodes (tree : PathTree layout) (distinct : DistinctChartIds layout)
    {S : List String} (charts : ∀ k ∈ S, typeOf layout k = some .chart) :
    ∃ scope, findFilterScope S layout = some scope ∧ Encodes layout S scope := by
  cases S with
  | nil =>
    exact ⟨_, rfl, rfl, by simp, by simp, by simp, fun _ _ _ _ ⟨r, member, _⟩ => by cases member⟩
  | cons first rest =>
    obtain ⟨lists, mapped, back, forth⟩ := mapM_spec (f := visibleParents layout)
      (Q := fun k visible => visible ≠ [] ∧
        ∀ component, layout.entry k = some component → ∀ r ∈ visible, r ∈ component.parents)
      (first :: rest) fun k member => visibleParents_spec tree charts member
    obtain ⟨rootPath, common, fromLists, toLists⟩ :=
      commonParents_spec lists fun visible member => by
      obtain ⟨_, _, nonempty, _⟩ := back visible member
      exact nonempty
    have keys := selectedChartKeys_eq tree charts
    have allCharts : (first :: rest).filter (isChart layout) = first :: rest :=
      filter_eq_self.mpr fun k member => decide_eq_true (charts k member)
    have above : ∀ r ∈ rootPath, ∃ k, Under (Child layout) dashboardRootId r
        ∧ Relation.TransGen (Child layout) r k := by
      intro r member
      obtain ⟨visible, isList, inside⟩ := fromLists r member
      obtain ⟨k, isSelected, _, parents⟩ := back visible isList
      obtain ⟨component, found, _, path⟩ := entry_of_selected tree charts isSelected
      exact ⟨k, (Path.mem_iff tree.single tree.rootOnTop path).mp
        (parents component found r inside)⟩
    have named : ∀ r ∈ rootPath, r ≠ "" := by
      intro r member
      obtain ⟨k, reached, _⟩ := above r member
      obtain ⟨component, found⟩ := entry_of_under tree reached
      exact (tree.ids r (by rw [found]; exact Option.some_ne_none component)).1
    refine ⟨{ rootPath := rootPath.eraseDups
              excluded := excludedCharts layout rootPath (first :: rest)
              selectedLayers := none }, ?_, rfl, ?_, ?_, ?_, ?_⟩
    · unfold findFilterScope
      rw [if_neg (by simp), keys]
      dsimp only
      rw [allCharts, mapped]
      dsimp only
      rw [common]
    · intro r member
      exact (above r (mem_eraseDups.mp member)).choose_spec.1
    · intro k member component found
      obtain ⟨visible, isList, _, parents⟩ := forth k member
      obtain ⟨r, inPath, inside⟩ := toLists visible isList
      exact ⟨r, mem_eraseDups.mpr inPath, parents component found r inside⟩
    · intro r member chart
      obtain ⟨k, _, way⟩ := above r (mem_eraseDups.mp member)
      obtain ⟨child, edge, _⟩ := Relation.TransGen.head'_iff.mp way
      rw [Child, tree.leaves r chart] at edge
      cases edge
    · intro k component found chart below
      obtain ⟨r, inPath, isParent⟩ := below
      rw [mem_excludedCharts]
      constructor
      · rintro ⟨l, value, foundValue, isChartValue, out, same⟩
        rw [← distinct l k value component foundValue found isChartValue chart same]
        exact ((isExcluded_iff named).mp out).1
      · intro outside
        exact ⟨k, component, found, chart, (isExcluded_iff named).mpr
          ⟨outside, r, mem_cons_of_mem _ isParent, mem_eraseDups.mp inPath⟩, rfl⟩

theorem underRootPath_iff (distinct : DistinctChartIds layout) {k : String} {component : LayoutItem}
    (found : layout.entry k = some component)
    (chart : component.type = .chart) (rootPath : List String) :
    underRootPath rootPath layout.values (chartIdOf component) = true ↔
      ∃ r ∈ rootPath, r ∈ component.parents := by
  unfold underRootPath
  cases first : layout.values.find? fun item =>
      decide (item.type = .chart ∧ chartIdOf item = chartIdOf component) with
  | none =>
    have absent := find?_eq_none.mp first component (Record.mem_values.mpr ⟨k, found⟩)
    exact (absent (decide_eq_true ⟨chart, rfl⟩)).elim
  | some item =>
    have chosen : item.type = .chart ∧ chartIdOf item = chartIdOf component := by
      simpa using find?_some first
    obtain ⟨l, at_l⟩ := Record.mem_values.mp (mem_of_find?_eq_some first)
    have same := distinct l k item component at_l found chosen.1 chart chosen.2
    subst same
    rw [found] at at_l
    cases at_l
    rw [any_eq_true]
    exact ⟨fun ⟨r, isParent, inPath⟩ => ⟨r, of_decide_eq_true inPath, isParent⟩,
      fun ⟨r, inPath, isParent⟩ => ⟨r, isParent, decide_eq_true inPath⟩⟩

section RoundTrip
variable {layout : Layout} (tree : PathTree layout) (distinct : DistinctChartIds layout)
    {S : List String}
  {scope : NativeFilterScope} (encodes : Encodes layout S scope)
  (charts : ∀ k ∈ S, typeOf layout k = some .chart)
include tree encodes charts

theorem checked_iff {k : String} :
    (∃ r ∈ scope.rootPath, Checked layout scope.excluded k ∧ Under (Child layout) r k) ↔ k ∈ S := by
  constructor
  · rintro ⟨r, inPath, ⟨component, found, chart, included⟩, way⟩
    by_contra outside
    have path := path_of_entry tree found (under_of_chart tree found chart)
    have proper : Relation.TransGen (Child layout) r k := by
      rcases Relation.reflTransGen_iff_eq_or_transGen.mp way with rfl | proper
      · exact (encodes.inner k inPath (by rw [typeOf_of_entry found, chart])).elim
      · exact proper
    have isParent :=
      (Path.mem_iff tree.single tree.rootOnTop path).mpr ⟨encodes.reached r inPath, proper⟩
    exact included ((encodes.excludes k component found chart ⟨r, inPath, isParent⟩).mpr outside)
  · intro member
    obtain ⟨component, found, chart, path⟩ := entry_of_selected tree charts member
    obtain ⟨r, inPath, isParent⟩ := encodes.covers k member component found
    refine ⟨r, inPath, ⟨component, found, chart, fun excluded => ?_⟩,
      ((Path.mem_iff tree.single tree.rootOnTop path).mp isParent).2.to_reflTransGen⟩
    exact (encodes.excludes k component found chart ⟨r, inPath, isParent⟩).mp excluded member

theorem getTreeCheckedItems_iff :
    ∃ least, ∀ fuel, least ≤ fuel → ∃ items, getTreeCheckedItems fuel scope layout none = some items
      ∧ ∀ k, k ∈ items ↔ k ∈ S := by
  obtain ⟨deepest, bounded⟩ : ∃ n, ∀ k component, layout.entry k = some component →
      component.parents.length ≤ n := by
    have some_bound : ∀ values : List LayoutItem, ∃ n, ∀ v ∈ values, v.parents.length ≤ n := by
      intro values
      induction values with
      | nil => exact ⟨0, by simp⟩
      | cons v rest ih =>
        obtain ⟨n, bound⟩ := ih
        refine ⟨n + v.parents.length, fun u member => ?_⟩
        rcases mem_cons.mp member with rfl | later
        · omega
        · have smaller := bound u later
          omega
    obtain ⟨n, bound⟩ := some_bound layout.values
    exact ⟨n, fun k component found => bound component (Record.mem_values.mpr ⟨k, found⟩)⟩
  refine ⟨deepest + 1, fun fuel enough => ?_⟩
  obtain ⟨out, walked, isOut⟩ :=
    checkTreeItem_spec tree scope.excluded deepest bounded fuel scope.rootPath
    fun r inPath => ⟨encodes.reached r inPath, fun _ _ => by omega⟩
  refine ⟨out.eraseDups, ?_, fun k => ?_⟩
  · unfold getTreeCheckedItems
    rw [walked]
  · rw [mem_eraseDups, isOut]
    exact checked_iff tree encodes charts

include distinct in
theorem getChartIdsInFilterScope_iff {chartIds : List Value}
    (all : ∀ k component, layout.entry k = some component → component.type = .chart →
      chartIdOf component ∈ chartIds) (chartId : Value) :
    chartId ∈ getChartIdsInFilterScope scope chartIds layout.values ↔
      ∃ k ∈ S, ∃ component, layout.entry k = some component ∧ chartIdOf component = chartId := by
  have plain : getChartIdsInFilterScope scope chartIds layout.values =
      chartsUnderRootPath scope chartIds layout.values := by
    unfold getChartIdsInFilterScope
    rw [encodes.noLayers]
  rw [plain, chartsUnderRootPath, mem_filter, decide_eq_true_eq]
  constructor
  · rintro ⟨_, included, below⟩
    have someItem : ∃ item ∈ layout.values, item.type = .chart ∧ chartIdOf item = chartId := by
      unfold underRootPath at below
      cases first : layout.values.find? fun item =>
        decide (item.type = .chart ∧ chartIdOf item = chartId) with
      | none =>
        rw [first] at below
        cases below
      | some item =>
        exact ⟨item, mem_of_find?_eq_some first, by simpa using find?_some first⟩
    obtain ⟨component, isValue, chart, rfl⟩ := someItem
    obtain ⟨k, found⟩ := Record.mem_values.mp isValue
    have parents := (underRootPath_iff distinct found chart scope.rootPath).mp below
    refine ⟨k, ?_, component, found, rfl⟩
    by_contra outside
    exact included ((encodes.excludes k component found chart parents).mpr outside)
  · rintro ⟨k, member, component, found, rfl⟩
    obtain ⟨other, same, chart, _⟩ := entry_of_selected tree charts member
    rw [found] at same
    cases same
    have parents := encodes.covers k member component found
    refine ⟨all k component found chart, fun excluded => ?_, ?_⟩
    · exact (encodes.excludes k component found chart parents).mp excluded member
    · exact (underRootPath_iff distinct found chart scope.rootPath).mpr parents

end RoundTrip

/-- Both readings of the scope found for some charts give these charts back. -/
theorem scope_round_trip {layout : Layout} (tree : PathTree layout)
    (distinct : DistinctChartIds layout)
    (S : List String) (charts : ∀ k ∈ S, typeOf layout k = some .chart) (chartIds : List Value)
    (all : ∀ k component, layout.entry k = some component → component.type = .chart →
      chartIdOf component ∈ chartIds) :
    ∃ scope, findFilterScope S layout = some scope
      ∧ (∃ least, ∀ fuel, least ≤ fuel →
        ∃ items, getTreeCheckedItems fuel scope layout none = some items
          ∧ ∀ k, k ∈ items ↔ k ∈ S)
      ∧ ∀ chartId, chartId ∈ getChartIdsInFilterScope scope chartIds layout.values ↔
          ∃ k ∈ S, ∃ component, layout.entry k = some component ∧
          chartIdOf component = chartId := by
  obtain ⟨scope, found, encodes⟩ := findFilterScope_encodes tree distinct charts
  exact ⟨scope, found, getTreeCheckedItems_iff tree encodes charts,
    getChartIdsInFilterScope_iff tree distinct encodes charts all⟩

def chained (layout : Layout) : String → List String → Bool
  | _, [] => true
  | p, q :: rest => decide (Child layout p q) && chained layout q rest

/-- `above` leads from the root down to `k`. -/
def isPath (layout : Layout) (k : String) : List String → Bool
  | [] => k = dashboardRootId
  | top :: rest => top = dashboardRootId && chained layout top (rest ++ [k])

theorem path_of_chained {k : String} (rest : List String) :
    ∀ (p : String) (above : List String), Path (Child layout) dashboardRootId above p →
      chained layout p (rest ++ [k]) = true →
      Path (Child layout) dashboardRootId (above ++ p :: rest) k := by
  induction rest with
  | nil =>
    intro p above path edges
    simp only [nil_append, chained, Bool.and_true, decide_eq_true_eq] at edges
    exact path.step edges
  | cons q rest ih =>
    intro p above path edges
    simp only [cons_append, chained, Bool.and_eq_true, decide_eq_true_eq] at edges
    have longer := ih q (above ++ [p]) (path.step edges.1) edges.2
    rwa [append_assoc, singleton_append] at longer

theorem path_of_isPath {k : String} {above : List String} (found : isPath layout k above = true) :
    Path (Child layout) dashboardRootId above k := by
  cases above with
  | nil =>
    simp only [isPath, decide_eq_true_eq] at found
    rw [found]
    exact .root
  | cons top rest =>
    simp only [isPath, Bool.and_eq_true, decide_eq_true_eq] at found
    obtain ⟨rfl, edges⟩ := found
    exact path_of_chained rest dashboardRootId [] .root edges

abbrev Checks (layout : Layout) : Prop :=
  typeOf layout dashboardRootId = some .root
  ∧ (∀ k ∈ layout.keys, (layout.entry k).all (fun component =>
      component.id = k && isPath layout k component.parents) = true)
  ∧ (∀ a ∈ layout.keys,
    ∀ b ∈ childrenOf layout a, b ≠ dashboardRootId ∧ (layout.entry b).isSome = true
      ∧ ∀ p ∈ layout.keys, Child layout p b → p = a)
  ∧ (∀ k ∈ layout.keys, k ≠ "" ∧ (typeOf layout k = some .chart →
      childrenOf layout k = [] ∧ matchLayerKey k = none))

theorem pathTree_of_checks (layout : Layout) (checks : Checks layout) : PathTree layout := by
  obtain ⟨rootType, components, children, leaves⟩ := checks
  have key : ∀ {a b}, Child layout a b → a ∈ layout.keys :=
    fun edge => layout.listed _ (entry_of_child edge)
  have listed : ∀ {k component}, layout.entry k = some component → k ∈ layout.keys := fun found =>
    layout.listed _ (by rw [found]; exact Option.some_ne_none _)
  have pathOf : ∀ {k component}, layout.entry k = some component →
      Path (Child layout) dashboardRootId component.parents k := by
    intro k component found
    have checked := components k (listed found)
    rw [found, Option.all_some, Bool.and_eq_true] at checked
    exact path_of_isPath checked.2
  refine ⟨fun k component found => ?_, rootType,
    fun a edge => ?_, fun a b edge => ?_, fun p q c first second => ?_,
    fun k chart => ?_, fun k component found _ => pathOf found, fun k component found outside => ?_,
    fun k present => ?_⟩
  · have checked := components k (listed found)
    rw [found, Option.all_some, Bool.and_eq_true] at checked
    exact of_decide_eq_true checked.1
  · exact (children a (key edge) dashboardRootId edge).1 rfl
  · exact Option.isSome_iff_ne_none.mp (children a (key edge) b edge).2.1
  · exact ((children q (key second) c second).2.2 p (key first) first)
  · obtain ⟨component, found, _⟩ := Option.map_eq_some_iff.mp chart
    exact ((leaves k (listed found)).2 chart).1
  · exact (outside (pathOf found).under).elim
  · have member := layout.listed k present
    exact ⟨(leaves k member).1, fun chart => ((leaves k member).2 chart).2⟩

theorem distinctChartIds_of_checks (layout : Layout)
    (checks : ∀ k ∈ layout.keys, ∀ l ∈ layout.keys, (layout.entry k).all (fun first =>
      (layout.entry l).all fun second =>
        !(first.type = .chart && second.type = .chart && chartIdOf first = chartIdOf second) ||
          k = l) = true) :
    DistinctChartIds layout := by
  intro k l first second foundFirst foundSecond chartFirst chartSecond same
  have checked :=
    checks k (layout.listed k (by simp [foundFirst])) l (layout.listed l (by simp [foundSecond]))
  rw [foundFirst, Option.all_some, foundSecond, Option.all_some] at checked
  simpa [chartFirst, chartSecond, same] using checked

def placed (id : String) (type : ComponentType) (parents children : List String) : LayoutItem where
  children := children
  parents := parents
  type := type
  id := id
  metadata := JsObject.empty

def placedChart (id : String) (chartId : Int) (parents : List String) : LayoutItem where
  children := []
  parents := parents
  type := .chart
  id := id
  metadata := JsObject.single "chartId" (JsObject.number chartId)

def twoTabs : Layout :=
  [placed "ROOT_ID" .root [] ["TABS-1"],
    placed "TABS-1" .tabs ["ROOT_ID"] ["TAB-1", "TAB-2"],
    placed "TAB-1" .tab ["ROOT_ID", "TABS-1"] ["ROW-1"],
    placed "TAB-2" .tab ["ROOT_ID", "TABS-1"] ["CHART-3"],
    placed "ROW-1" .row ["ROOT_ID", "TABS-1", "TAB-1"] ["CHART-1", "CHART-2"],
    placedChart "CHART-1" 1 ["ROOT_ID", "TABS-1", "TAB-1", "ROW-1"],
    placedChart "CHART-2" 2 ["ROOT_ID", "TABS-1", "TAB-1", "ROW-1"],
    placedChart "CHART-3" 3 ["ROOT_ID", "TABS-1", "TAB-2"]].foldl
    (fun layout item => layout.set item.id item) Record.empty

theorem twoTabs_round_trip :
    ∃ scope, findFilterScope ["CHART-3", "CHART-1"] twoTabs = some scope
      ∧ (∃ least, ∀ fuel, least ≤ fuel →
        ∃ items, getTreeCheckedItems fuel scope twoTabs none = some items
          ∧ ∀ k, k ∈ items ↔ k ∈ ["CHART-3", "CHART-1"])
      ∧ ∀ chartId, chartId ∈ getChartIdsInFilterScope scope [some (.int 1), some (.int 2),
        some (.int 3)]
            twoTabs.values ↔
          ∃ k ∈ ["CHART-3", "CHART-1"], ∃ component, twoTabs.entry k = some component
            ∧ chartIdOf component = chartId :=
  scope_round_trip (pathTree_of_checks twoTabs (by decide))
    (distinctChartIds_of_checks twoTabs (by decide)) ["CHART-3", "CHART-1"] (by decide)
    [some (.int 1), some (.int 2), some (.int 3)] (by
      intro k component found chart
      have member := twoTabs.listed k (by simp [found])
      have checked : ∀ k ∈ twoTabs.keys, (twoTabs.entry k).all (fun component =>
          !(component.type = .chart) || chartIdOf component ∈
            [some (.int 1), some (.int 2), some (.int 3)]) = true := by
        decide
      have known := checked k member
      rw [found, Option.all_some] at known
      simpa [chart] using known)

end Liteset.Dashboard.FilterScope
