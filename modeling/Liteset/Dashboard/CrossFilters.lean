import Mathlib.Data.List.Induction
import Mathlib.Data.List.Perm.Subperm
import Std.Data.String.ToInt
import Liteset.Dashboard.FilterScopeRoundTrip

/-!
# The charts a filter applies to

`getCrossFiltersConfiguration` lists, for each chart that filters others, the charts
in its scope; `getRelatedCharts` reads a filter's scope back as ids of slices.
-/

set_option autoImplicit false

namespace Liteset.Dashboard.CrossFilters

open Lib
open Lib.JsObject (Record Value)
open FilterScope (NativeFilterScope chartIdOf getChartIdsInFilterScope underRootPath)

inductive Behavior where
  | interactiveChart
  | nativeFilter
  | drillToDetail
  | drillBy
  deriving DecidableEq, Repr

structure Chart where
  id : Int
  /-- `form_data?.viz_type` -/
  vizType : Option String

/-- A chart has its own scope or points to the scope of the dashboard. -/
inductive CrossFilterScope where
  | global
  | custom (scope : NativeFilterScope)

structure ChartCrossFiltersConfig where
  scope : CrossFilterScope
  chartsInScope : List Value

structure ChartConfigurationItem where
  id : Int
  crossFilters : ChartCrossFiltersConfig

abbrev ChartConfiguration := Record ChartConfigurationItem

structure GlobalChartCrossFilterConfig where
  scope : NativeFilterScope
  chartsInScope : List Value

structure Metadata where
  chartConfiguration : Option ChartConfiguration
  /-- `global_chart_configuration?.scope` -/
  globalScope : Option NativeFilterScope

def defaultCrossFilterScoping : NativeFilterScope :=
  { rootPath := [dashboardRootId], excluded := [], selectedLayers := none }

section Configuration

-- The chart metadata registry: the behaviors of a registered type of chart.
variable (registry : Option String → Option (List Behavior)) (layout : Layout) (metadata : Metadata)
  (charts : Record Chart)

def chartLayoutItems : List LayoutItem := layout.values.filter fun item => item.type = .chart

/-- `Object.values(charts).map(chart => chart.id)` -/
def chartIds : List Value := charts.values.map fun chart => some (.int chart.id)

def globalChartConfiguration : GlobalChartCrossFilterConfig :=
  match metadata.globalScope with
  | some scope =>
    { scope := scope
      chartsInScope := getChartIdsInFilterScope scope (chartIds charts) (chartLayoutItems layout) }
  | none => { scope := defaultCrossFilterScoping, chartsInScope := chartIds charts }

def isInteractive (chartId : Int) : Bool :=
  let vizType := (charts.entry (toString chartId)).bind Chart.vizType
  .interactiveChart ∈ (registry vizType).getD []

def chartsInScope (chartId : Int) : CrossFilterScope → List Value
  | .global =>
    (globalChartConfiguration layout metadata charts).chartsInScope.filter fun id =>
      id ≠ some (.int chartId)
  | .custom scope => getChartIdsInFilterScope scope (chartIds charts) (chartLayoutItems layout)

def stored (chartId : Int) : Option ChartConfigurationItem :=
  metadata.chartConfiguration.bind fun configuration => configuration.entry (toString chartId)

/-- The stored configuration, else the one of an earlier round, else a new one. -/
def current (chartConfiguration : ChartConfiguration) (chartId : Int) : ChartConfigurationItem :=
  match stored metadata chartId, chartConfiguration.entry (toString chartId) with
  | some configuration, _ => configuration
  | none, some configuration => configuration
  | none, none => { id := chartId, crossFilters := { scope := .global, chartsInScope := [] } }

/-- One round of the loop; an item whose `chartId` is not defined is passed over. -/
def addConfiguration (chartConfiguration : ChartConfiguration) (layoutItem : LayoutItem) :
    ChartConfiguration :=
  match chartIdOf layoutItem with
  | some (.int chartId) =>
    if isInteractive registry charts chartId then
      let configuration := current metadata chartConfiguration chartId
      chartConfiguration.set (toString chartId)
        { configuration with
          crossFilters :=
            { configuration.crossFilters with
              chartsInScope :=
                chartsInScope layout metadata charts chartId configuration.crossFilters.scope } }
    else chartConfiguration
  | _ => chartConfiguration

def getCrossFiltersConfiguration : ChartConfiguration × GlobalChartCrossFilterConfig :=
  ((chartLayoutItems layout).foldl (addConfiguration registry layout metadata charts) Record.empty,
    globalChartConfiguration layout metadata charts)

def scopeOf (chartId : Int) : CrossFilterScope :=
  ((stored metadata chartId).map fun configuration => configuration.crossFilters.scope).getD .global

def configured (chartId : Int) : ChartCrossFiltersConfig :=
  { scope := scopeOf metadata chartId
    chartsInScope := chartsInScope layout metadata charts chartId (scopeOf metadata chartId) }

/-- The chart is placed by one of the items and filters others. -/
def Configures (items : List LayoutItem) (chartId : Int) : Prop :=
  isInteractive registry charts chartId = true ∧ ∃ item ∈ items,
    chartIdOf item = some (.int chartId)

/-- After the rounds for `items`, the charts these place are configured and no others. -/
def Built (items : List LayoutItem) (chartConfiguration : ChartConfiguration) : Prop :=
  ∀ chartId config,
    (∃ configuration, chartConfiguration.entry (toString chartId) = some configuration
      ∧ configuration.crossFilters = config) ↔
      Configures registry charts items chartId ∧ config = configured layout metadata charts chartId

end Configuration

section Loop
variable {registry : Option String → Option (List Behavior)} {layout : Layout} {metadata : Metadata}
  {charts : Record Chart}

variable {items : List LayoutItem}

theorem configures_append {item : LayoutItem} {chartId : Int} :
    Configures registry charts (items ++ [item]) chartId ↔
      Configures registry charts items chartId
        ∨ isInteractive registry charts chartId = true ∧ chartIdOf item = some (.int chartId) := by
  simp only [Configures, List.mem_append, List.mem_singleton]
  constructor
  · rintro ⟨interactive, placed, member | rfl, named⟩
    · exact .inl ⟨interactive, placed, member, named⟩
    · exact .inr ⟨interactive, named⟩
  · rintro (⟨interactive, placed, member, named⟩ | ⟨interactive, named⟩)
    · exact ⟨interactive, placed, .inl member, named⟩
    · exact ⟨interactive, item, .inr rfl, named⟩

theorem scope_current {chartConfiguration : ChartConfiguration}
    (built : Built registry layout metadata charts items chartConfiguration) (chartId : Int) :
    (current metadata chartConfiguration chartId).crossFilters.scope =
      scopeOf metadata chartId := by
  unfold current
  split
  · next configuration isStored => rw [scopeOf, isStored, Option.map_some, Option.getD_some]
  · next configuration notStored earlier =>
      have same := ((built chartId configuration.crossFilters).mp ⟨configuration, earlier, rfl⟩).2
      rw [same, configured]
  · next notStored _ => rw [scopeOf, notStored, Option.map_none, Option.getD_none]

theorem addConfiguration_built {chartConfiguration : ChartConfiguration}
    (built : Built registry layout metadata charts items chartConfiguration) (item : LayoutItem) :
    Built registry layout metadata charts (items ++ [item])
      (addConfiguration registry layout metadata charts chartConfiguration item) := by
  intro chartId config
  rw [configures_append]
  unfold addConfiguration
  split
  · next placedId placed =>
      by_cases same : chartId = placedId
      · subst same
        split
        · next interactive =>
            have scope := scope_current built chartId
            simp only [Record.entry_set, if_true, Option.some.injEq, exists_eq_left', scope]
            rw [eq_comm, and_iff_right (.inr ⟨interactive, placed⟩), configured]
        · next passive =>
          simp only [built chartId config, Configures, passive, Bool.false_eq_true, false_and,
            or_false]
      · have otherId : chartIdOf item ≠ some (.int chartId) := by
          rw [placed]
          simpa using Ne.symm same
        have otherKey : toString chartId ≠ toString placedId := fun h => same (Int.repr_injective h)
        simp only [otherId, and_false, or_false]
        rw [← built chartId config]
        split
        · rw [Record.entry_set, if_neg otherKey]
        · rfl
  · next unplaced =>
      have otherId : chartIdOf item ≠ some (.int chartId) := unplaced chartId
      simp only [otherId, and_false, or_false]
      exact built chartId config

theorem foldl_built (items : List LayoutItem) :
    Built registry layout metadata charts items
      (items.foldl (addConfiguration registry layout metadata charts) Record.empty) := by
  induction items using List.reverseRecOn with
  | nil =>
    intro chartId config
    simp [Configures]
  | append_singleton items item ih =>
    rw [List.foldl_append]
    exact addConfiguration_built ih item

end Loop

/-- One of the selected layers is a layer of the chart. -/
def HasSelectedLayer (scope : NativeFilterScope) (chartId : Int) : Prop :=
  ∃ key ∈ scope.selectedLayers.getD [], ∃ layer, matchLayerKey key = some (chartId, layer)

def Selects (scope : NativeFilterScope) (layout : Layout) (chartId : Int) : Prop :=
  HasSelectedLayer scope chartId
    ∨ some (.int chartId) ∉ scope.excluded
      ∧ underRootPath scope.rootPath (chartLayoutItems layout) (some (.int chartId)) = true

theorem mem_addNew {list new : List Value} {chartId : Value} :
    chartId ∈ new.foldl (fun found id => if id ∈ found then found else found ++ [id]) list ↔
      chartId ∈ list ∨ chartId ∈ new := by
  induction new generalizing list with
  | nil => simp
  | cons id rest ih =>
    rw [List.foldl_cons, ih, List.mem_cons]
    split
    · next known =>
        constructor
        · rintro (old | later)
          · exact .inl old
          · exact .inr (.inr later)
        · rintro (old | rfl | later)
          · exact .inl old
          · exact .inl known
          · exact .inr later
    · rw [List.mem_append, List.mem_singleton, or_assoc]

theorem mem_layeredCharts {layers : List String} {ids : List Value} {chartId : Int} :
    some (.int chartId) ∈ FilterScope.layeredCharts layers ids ↔
      some (.int chartId) ∈ ids ∧ ∃ key ∈ layers,
        ∃ layer, matchLayerKey key = some (chartId, layer) := by
  unfold FilterScope.layeredCharts
  induction layers using List.reverseRecOn with
  | nil => simp
  | append_singleton layers key ih =>
    rw [List.foldl_append, List.foldl_cons, List.foldl_nil]
    split
    · next unmatched => simp [ih, unmatched, or_and_right, exists_or]
    · next matchedId layer matched =>
        split <;> grind

theorem mem_chartsUnderRootPath {scope : NativeFilterScope} {layout : Layout} {ids : List Value}
    {chartId : Value} :
    chartId ∈ FilterScope.chartsUnderRootPath scope ids (chartLayoutItems layout) ↔
      chartId ∈ ids ∧ chartId ∉ scope.excluded
        ∧ underRootPath scope.rootPath (chartLayoutItems layout) chartId = true := by
  rw [FilterScope.chartsUnderRootPath, List.mem_filter, decide_eq_true_eq]

theorem mem_getChartIdsInFilterScope {scope : NativeFilterScope} {layout : Layout}
    {ids : List Value} {chartId : Int} :
    some (.int chartId) ∈ getChartIdsInFilterScope scope ids (chartLayoutItems layout) ↔
      some (.int chartId) ∈ ids ∧ Selects scope layout chartId := by
  unfold getChartIdsInFilterScope Selects HasSelectedLayer
  split
  · next noLayers => simp [mem_chartsUnderRootPath, noLayers]
  · next noLayers => simp [mem_chartsUnderRootPath, noLayers]
  · next layers _ selected =>
      have layered : some (Json.int chartId) ∈
          (layers.filterMap fun key => (matchLayerKey key).map fun ids => some (Json.int ids.1)) ↔
            ∃ key ∈ layers, ∃ layer, matchLayerKey key = some (chartId, layer) := by
        simp
      simp only [mem_addNew, mem_layeredCharts, List.mem_filter, mem_chartsUnderRootPath,
        decide_eq_true_eq, layered, selected, Option.getD_some]
      by_cases named : ∃ key ∈ layers, ∃ layer, matchLayerKey key = some (chartId, layer)
      · simp only [named, and_true, not_true, and_false, or_false, true_or]
      · simp only [named, and_false, not_false_eq_true, and_true, false_or]

/-- The ids of the store of slices, where each slice stands under its own id. -/
structure Slices where
  ids : List Int
  distinct : ids.Nodup

/-- `filter.scope`: a list of charts, or the scope of a native filter. -/
inductive ScopeField where
  | charts (ids : List Int)
  | native (scope : NativeFilterScope)

structure Filter where
  filterType : Option String
  /-- `filterElement.hasOwnProperty('values')` -/
  hasValues : Bool
  type : Option String
  scope : ScopeField
  chartsInScope : Option (List Int)

def isAppliedCrossFilterType (filter : Filter) : Bool :=
  filter.filterType = none && filter.hasValues

def isAppliedNativeFilterType (filter : Filter) : Bool :=
  filter.filterType = some "filter_select" && filter.hasValues

def isNativeFilter (filter : Filter) : Bool := filter.type = some "NATIVE_FILTER"

/-- `slices[filterKey]` -/
def sliceOf (slices : Slices) (filterKey : String) : Option Int :=
  slices.ids.find? fun id => toString id = filterKey

def isGlobalScope (scope : List Int) (slices : Slices) : Bool := scope.length = slices.ids.length

def getRelatedChartsForSelectFilter (slices : Slices) (chartsInScope : List Int) : List Int :=
  if isGlobalScope chartsInScope slices then slices.ids
  else slices.ids.filter fun id => id ∈ chartsInScope

def getRelatedChartsForCrossFilter (filterKey : String) (slices : Slices) (scope : List Int) :
    List Int :=
  match sliceOf slices filterKey with
  | none => []
  | some source =>
    let fullScope := (scope.filter fun id => toString id ≠ filterKey) ++ [source]
    slices.ids.filter fun id => id ≠ source && (isGlobalScope fullScope slices || id ∈ scope)

def isCrossFilter (filterKey : String) (filter : Filter) (slices : Slices) : Bool :=
  (sliceOf slices filterKey).isSome && isAppliedCrossFilterType filter

def filterScope (filter : Filter) : List Int :=
  match filter.scope with
  | .charts ids => ids
  | .native _ => filter.chartsInScope.getD []

def getRelatedCharts (filterKey : String) (filter : Filter) (slices : Slices) : List Int :=
  let related :=
    if isCrossFilter filterKey filter slices then
      getRelatedChartsForCrossFilter filterKey slices (filterScope filter)
    else []
  if !isCrossFilter filterKey filter slices || isAppliedNativeFilterType filter ||
    isNativeFilter filter then
    getRelatedChartsForSelectFilter slices (filterScope filter)
  else related

/-- The filter is one of a chart, and none of the dashboard's own. -/
def isFromChart (filterKey : String) (filter : Filter) (slices : Slices) : Bool :=
  isCrossFilter filterKey filter slices && !isNativeFilter filter

/-- Not the source chart of a cross filter. -/
def isTarget (filterKey : String) (filter : Filter) (slices : Slices) (id : Int) : Bool :=
  !isFromChart filterKey filter slices || toString id ≠ filterKey

/-- A list with as many entries as there are ids covers these when it repeats none and
names no other. -/
theorem covers_iff {ids scope : List Int} (distinct : ids.Nodup) :
    (scope.length = ids.length → ids ⊆ scope) ↔
    (scope.length = ids.length → scope.Nodup ∧ scope ⊆ ids) := by
  constructor
  · intro covers sameLength
    have perm : ids.Perm scope :=
      (List.subperm_of_subset distinct (covers sameLength)).perm_of_length_le sameLength.le
    exact ⟨perm.nodup_iff.mp distinct, perm.symm.subset⟩
  · intro exact_ sameLength
    obtain ⟨unrepeated, known⟩ := exact_ sameLength
    have perm : scope.Perm ids :=
      (List.subperm_of_subset unrepeated known).perm_of_length_le sameLength.ge
    exact perm.symm.subset

theorem mem_related_iff {ids scope : List Int} {all : Bool} {source : Int → Bool} :
    (∀ id, id ∈ (ids.filter fun id => source id && (all || id ∈ scope)) ↔
        id ∈ ids ∧ id ∈ scope ∧ source id = true) ↔
      (all = true → ids.filter source ⊆ scope.filter source) := by
  simp only [List.mem_filter, Bool.and_eq_true, Bool.or_eq_true, decide_eq_true_eq]
  constructor
  · intro related isAll id member
    obtain ⟨known, target⟩ := List.mem_filter.mp member
    exact List.mem_filter.mpr ⟨((related id).mp ⟨known, target, .inl isAll⟩).2.1, target⟩
  · intro covers id
    constructor
    · rintro ⟨known, target, isAll | inScope⟩
      · have member := covers isAll (List.mem_filter.mpr ⟨known, target⟩)
        exact ⟨known, List.mem_of_mem_filter member, target⟩
      · exact ⟨known, inScope, target⟩
    · rintro ⟨known, inScope, target⟩
      exact ⟨known, target, .inr inScope⟩

theorem selectFilter_eq (slices : Slices) (scope : List Int) :
    getRelatedChartsForSelectFilter slices scope =
      slices.ids.filter fun id => isGlobalScope scope slices || id ∈ scope := by
  unfold getRelatedChartsForSelectFilter
  split
  · next isGlobal => simp [isGlobal]
  · next partly => simp [partly]

theorem sliceOf_eq_some {slices : Slices} {filterKey : String} {source : Int}
    (found : sliceOf slices filterKey = some source) :
    source ∈ slices.ids ∧ toString source = filterKey :=
  ⟨List.mem_of_find?_eq_some found, by simpa using List.find?_some found⟩

theorem crossFilter_eq {slices : Slices} {filterKey : String} {scope : List Int}
    (isKey : (sliceOf slices filterKey).isSome = true) :
    getRelatedChartsForCrossFilter filterKey slices scope =
      slices.ids.filter fun id => decide (toString id ≠ filterKey)
        && (decide ((scope.filter fun id => toString id ≠ filterKey).length =
            (slices.ids.filter fun id => toString id ≠ filterKey).length) || id ∈ scope) := by
  obtain ⟨source, found⟩ := Option.isSome_iff_exists.mp isKey
  obtain ⟨known, rfl⟩ := sliceOf_eq_some found
  have otherKey : ∀ id : Int, (toString id ≠ toString source) = (id ≠ source) := by
    intro id
    rw [ne_eq, (show Function.Injective fun id : Int => toString id from
      fun _ _ => Int.repr_injective).eq_iff]
  have others : (slices.ids.filter fun id => id ≠ source).length + 1 = slices.ids.length := by
    have erased : (slices.ids.filter fun id => id ≠ source) = slices.ids.erase source := by
      rw [slices.distinct.erase_eq_filter]
      exact List.filter_congr fun id _ => by simp [bne, beq_eq_decide]
    rw [erased, List.length_erase_of_mem known, Nat.sub_add_cancel (List.length_pos_of_mem known)]
  unfold getRelatedChartsForCrossFilter isGlobalScope
  rw [found]
  simp only [otherKey, List.length_append, List.length_singleton, ← others,
    Nat.add_right_cancel_iff]

theorem getRelatedCharts_eq (filterKey : String) (filter : Filter) (slices : Slices) :
    getRelatedCharts filterKey filter slices =
      slices.ids.filter fun id => isTarget filterKey filter slices id
        && (decide (((filterScope filter).filter (isTarget filterKey filter slices)).length =
            (slices.ids.filter (isTarget filterKey filter slices)).length) ||
            id ∈ filterScope filter) := by
  unfold getRelatedCharts
  cases fromChart : isFromChart filterKey filter slices with
  | false =>
    have allTargets : isTarget filterKey filter slices = fun _ => true := by
      funext id
      rw [isTarget, fromChart, Bool.not_false, Bool.true_or]
    have overrides : (!isCrossFilter filterKey filter slices || isAppliedNativeFilterType filter
        || isNativeFilter filter) = true := by
      revert fromChart
      unfold isFromChart
      cases isCrossFilter filterKey filter slices <;> cases isNativeFilter filter <;> simp
    simp [overrides, allTargets, selectFilter_eq, isGlobalScope]
  | true =>
    obtain ⟨isCross, notNative⟩ := Bool.and_eq_true_iff.mp fromChart
    obtain ⟨isKey, applied⟩ := Bool.and_eq_true_iff.mp isCross
    have targets :
        isTarget filterKey filter slices = fun id => decide (toString id ≠ filterKey) := by
      funext id
      rw [isTarget, fromChart, Bool.not_true, Bool.false_or]
    have noType : filter.filterType = none := by
      have both := Bool.and_eq_true_iff.mp applied
      exact of_decide_eq_true both.1
    have notApplied : isAppliedNativeFilterType filter = false := by
      rw [isAppliedNativeFilterType, noType]
      rfl
    simp only [isCross, notApplied, (Bool.not_eq_true' _).mp notNative, Bool.not_true,
      Bool.or_self, if_true, Bool.false_eq_true, if_false, targets]
    exact crossFilter_eq isKey

/-- No chart is in its own scope exactly when no custom scope selects its own chart;
the related charts are those in scope exactly when a scope with as many other charts
as there are repeats none of them and names no chart that is gone. -/
theorem in_scope_iff (registry : Option String → Option (List Behavior)) (layout : Layout)
    (metadata : Metadata)
    (charts : Record Chart) (filterKey : String) (filter : Filter) (slices : Slices) :
    ((∀ chartId configuration,
        (getCrossFiltersConfiguration registry layout metadata charts).1.entry (toString chartId) =
            some configuration →
          some (.int chartId) ∉ configuration.crossFilters.chartsInScope) ↔
      ∀ chartId scope, Configures registry charts (chartLayoutItems layout) chartId →
        scopeOf metadata chartId = .custom scope → some (.int chartId) ∈ chartIds charts →
          ¬Selects scope layout chartId)
    ∧ ((∀ id, id ∈ getRelatedCharts filterKey filter slices ↔
        id ∈ slices.ids ∧ id ∈ filterScope filter ∧ isTarget filterKey filter slices id = true) ↔
      let others := (filterScope filter).filter (isTarget filterKey filter slices)
      let targets := slices.ids.filter (isTarget filterKey filter slices)
      others.length = targets.length → others.Nodup ∧ others ⊆ targets) := by
  refine ⟨?_, ?_⟩
  · constructor
    · intro excluded chartId scope configures custom exists_ selects
      obtain ⟨configuration, found, same⟩ :=
        (foldl_built (chartLayoutItems layout) chartId _).mpr ⟨configures, rfl⟩
      have outside := excluded chartId configuration found
      rw [same, configured, custom, chartsInScope, mem_getChartIdsInFilterScope] at outside
      exact outside ⟨exists_, selects⟩
    · intro unselected chartId configuration found inScope
      obtain ⟨configures, same⟩ :=
        (foldl_built (chartLayoutItems layout) chartId _).mp ⟨configuration, found, rfl⟩
      rw [same, configured] at inScope
      cases custom : scopeOf metadata chartId with
      | global => simp [custom, chartsInScope] at inScope
      | custom scope =>
        rw [custom, chartsInScope, mem_getChartIdsInFilterScope] at inScope
        exact unselected chartId scope configures custom inScope.1 inScope.2
  · rw [getRelatedCharts_eq, mem_related_iff, decide_eq_true_eq]
    exact covers_iff (slices.distinct.filter _)

def threeCharts : Record Chart :=
  [(1 : Int), 2, 3].foldl
    (fun charts id => charts.set (toString id) { id := id, vizType := some "table" }) Record.empty

/-- The first chart filters all charts of the dashboard. -/
def everyChart : Metadata where
  chartConfiguration := some
    (Record.empty.set "1"
      { id := 1, crossFilters := { scope := .custom defaultCrossFilterScoping,
                                   chartsInScope := [] } })
  globalScope := none

def namesOneTwice : Filter where
  filterType := some "filter_select"
  hasValues := false
  type := some "NATIVE_FILTER"
  scope := .native defaultCrossFilterScoping
  chartsInScope := some [1, 1]

theorem own_chart_in_scope :
    FilterScope.PathTree FilterScope.twoTabs
    ∧ (∃ configuration,
        (getCrossFiltersConfiguration (fun _ => some [.interactiveChart]) FilterScope.twoTabs
          everyChart
            threeCharts).1.entry (toString (1 : Int)) = some configuration
          ∧ some (.int 1) ∈ configuration.crossFilters.chartsInScope)
    ∧ 2 ∈ getRelatedCharts "NATIVE_FILTER-1" namesOneTwice ⟨[1, 2], by decide⟩
    ∧ 2 ∉ filterScope namesOneTwice :=
  ⟨FilterScope.pathTree_of_checks FilterScope.twoTabs (by decide), ⟨_, rfl, by decide⟩, by decide,
    by decide⟩

end Liteset.Dashboard.CrossFilters
