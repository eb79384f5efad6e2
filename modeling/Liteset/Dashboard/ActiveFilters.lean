import Liteset.Dashboard.LayerKeys

/-!
# Active filters of a dashboard

`getAllActiveFilters` computes for each filter of the data mask the charts it applies
to.  A filter without selected layers takes, when another filter has some, the layers
and the exclusions of that filter.
-/

set_option autoImplicit false

namespace Liteset.Dashboard.ActiveFilters

open Lib List
open Lib.JsObject (Record Value)

structure DataMaskItem where
  id : String
  /-- `none` is `undefined`. -/
  extraFormData : Value

/-- `NativeFilterScope`; `none` where the object lacks the key. -/
structure FilterScope where
  selectedLayers : Option (List String)
  excluded : Option (List Int)

structure NativeFilter where
  chartsInScope : Option (List Int)
  filterType : Option String
  targets : Value
  scope : Option FilterScope

structure Input where
  /-- `chartConfiguration?.[id]?.crossFilters?.chartsInScope`; the id is `none` for `NaN`. -/
  crossFilterScope : Option Int → Option (List Int)
  /-- `Object.values(dataMask)` -/
  dataMask : List DataMaskItem
  nativeFilters : String → Option NativeFilter
  allSliceIds : Option (List Int)

structure ActiveFilter where
  scope : List Int
  targets : Value
  values : Value
  filterType : Option String
  layerScope : Option (List (Int × List Int))

def isSpace (c : Char) : Bool :=
  c.toNat ∈ [9, 10, 11, 12, 13, 32, 160, 5760, 8232, 8233, 8239, 8287, 12288, 65279]
    ∨ 8192 ≤ c.toNat ∧ c.toNat ≤ 8202

/-- `parseInt(text, 10)`; `none` is `NaN`. -/
def parseInt (text : String) : Option Int :=
  let unsigned (chars : List Char) : Option Nat :=
    match chars.takeWhile Char.isDigit with
    | [] => none
    | digits => some (Record.decimal digits)
  match text.toList.dropWhile isSpace with
  | '-' :: rest => (unsigned rest).map fun n => -(n : Int)
  | '+' :: rest => (unsigned rest).map fun n => (n : Int)
  | rest => (unsigned rest).map fun n => (n : Int)

/-- `set.add(value)` on the values in the order they were added. -/
def setAdd (set : List Int) (value : Int) : List Int := if value ∈ set then set else set ++ [value]

structure LayerInfo where
  layerMap : List (Int × List Int)
  chartIds : List Int

/-- `layerMap[chartId].push(layerIndex)`, on a list made before where there is none. -/
def pushLayer (layerMap : List (Int × List Int)) (chartId layerIndex : Int) :
    List (Int × List Int) :=
  if chartId ∈ layerMap.map Prod.fst then
    layerMap.map fun entry => if entry.1 = chartId then (entry.1, entry.2 ++ [layerIndex])
    else entry
  else layerMap ++ [(chartId, [layerIndex])]

def extractLayer (info : LayerInfo) (layerKey : String) : LayerInfo :=
  match matchLayerKey layerKey with
  | none => info
  | some (chartId, layerIndex) =>
    { layerMap := pushLayer info.layerMap chartId layerIndex
      chartIds := setAdd info.chartIds chartId }

def extractLayerIndicesFromKeys (selectedLayers : List String) : LayerInfo :=
  selectedLayers.foldl extractLayer { layerMap := [], chartIds := [] }

variable (input : Input)

/-- `nativeFilters?.[filterId]?.scope?.selectedLayers` -/
def selectedLayersOf (filterId : String) : Option (List String) :=
  ((input.nativeFilters filterId).bind NativeFilter.scope).bind FilterScope.selectedLayers

/-- `nativeFilters?.[filterId]?.scope?.excluded || []` -/
def excludedOf (filterId : String) : List Int :=
  (((input.nativeFilters filterId).bind NativeFilter.scope).bind FilterScope.excluded).getD []

/-- `selectedLayers && selectedLayers.length > 0` -/
def NonEmpty (selectedLayers : Option (List String)) : Prop := selectedLayers.getD [] ≠ []

instance (selectedLayers : Option (List String)) : Decidable (NonEmpty selectedLayers) :=
  inferInstanceAs (Decidable (selectedLayers.getD [] ≠ []))

def hasLayerSelectionsInAnyFilter : Bool :=
  input.dataMask.any fun item => NonEmpty (selectedLayersOf input item.id)

/-- `masterSelectedLayers` and `masterExcluded` -/
def master : List String × List Int :=
  if hasLayerSelectionsInAnyFilter input then
    input.dataMask.foldl
      (fun found item =>
        if NonEmpty (selectedLayersOf input item.id) then
          ((selectedLayersOf input item.id).getD [], excludedOf input item.id)
        else found)
      ([], [])
  else ([], [])

/-- `nativeFilters?.[filterId]?.chartsInScope ?? … ?? allSliceIds ?? []` -/
def chartsInScope (filterId : String) : List Int :=
  (((input.nativeFilters filterId).bind NativeFilter.chartsInScope).or
    ((input.crossFilterScope (parseInt filterId)).or input.allSliceIds)).getD []

/-- `key.startsWith(...)` of the keys of a chart's layers -/
def isLayerOf (chartId : Int) (key : String) : Bool :=
  ("chart-" ++ toString chartId ++ "-layer-").toList.isPrefixOf key.toList

def targetChart (selectedLayers : List String) (excludedCharts explicitlyTargetedCharts : List Int)
    (chartId : Int) : List Int :=
  if chartId ∉ excludedCharts ∧ selectedLayers.any (isLayerOf chartId) = false then
    setAdd explicitlyTargetedCharts chartId
  else explicitlyTargetedCharts

def layeredScope (scope : List Int) (selectedLayers : List String) (excludedCharts : List Int) :
    List Int :=
  scope.foldl (targetChart selectedLayers excludedCharts)
    (extractLayerIndicesFromKeys selectedLayers).chartIds

/-- The last `forEach`, for one item of the data mask. -/
def activeFilter (item : DataMaskItem) : ActiveFilter :=
  let nativeFilter := input.nativeFilters item.id
  let scope := chartsInScope input item.id
  let own := selectedLayersOf input item.id
  let (selectedLayers, excludedCharts) :=
    if hasLayerSelectionsInAnyFilter input ∧ ¬NonEmpty own then master input
    else (own.getD [], excludedOf input item.id)
  { scope :=
      if selectedLayers ≠ [] then layeredScope scope selectedLayers excludedCharts
      else scope.filter fun chartId => chartId ∉ excludedCharts
    targets := JsObject.either (nativeFilter.bind NativeFilter.targets) (some (.list []))
    values := if item.extraFormData = none then some (.object []) else item.extraFormData
    filterType := nativeFilter.bind NativeFilter.filterType
    layerScope :=
      if selectedLayers ≠ [] then some (extractLayerIndicesFromKeys selectedLayers).layerMap
        else none }

def getAllActiveFilters : Record ActiveFilter :=
  input.dataMask.foldl
    (fun activeFilters item => activeFilters.set item.id (activeFilter input item))
    Record.empty

/-- The inputs agree on the data mask, the configuration and the scope of the filter. -/
structure SameOwn (first second : Input) (filterId : String) : Prop where
  items : first.dataMask.filter (fun item => item.id = filterId) =
    second.dataMask.filter fun item => item.id = filterId
  nativeFilter : first.nativeFilters filterId = second.nativeFilters filterId
  crossFilterScope :
    first.crossFilterScope (parseInt filterId) = second.crossFilterScope (parseInt filterId)
  allSliceIds : first.allSliceIds = second.allSliceIds

/-- The layers and exclusions a filter goes by: its own if it has layers or no filter
of the data mask has, else those of the last filter that has. -/
def layerSelection (filterId : String) : List String × List Int :=
  let own := ((selectedLayersOf input filterId).getD [], excludedOf input filterId)
  if NonEmpty (selectedLayersOf input filterId) then own
  else
    match (input.dataMask.filter fun item =>
      NonEmpty (selectedLayersOf input item.id)).getLast? with
    | none => own
    | some item => ((selectedLayersOf input item.id).getD [], excludedOf input item.id)

/-- The chart has a layer among the selected ones. -/
def Named (selectedLayers : List String) (chartId : Int) : Prop :=
  ∃ layerKey ∈ selectedLayers, ∃ layerIndex, matchLayerKey layerKey = some (chartId, layerIndex)

theorem foldl_last {α β : Type} (chosen : α → Bool) (value : α → β) (items : List α) :
    ∀ start : β, items.foldl (fun found item => if chosen item then value item else found) start =
      (((items.filter chosen).getLast?).map value).getD start := by
  induction items with
  | nil => intro start; rfl
  | cons item rest ih =>
    intro start
    rw [foldl_cons, ih]
    by_cases is : chosen item = true
    · rw [if_pos is, filter_cons_of_pos is, getLast?_cons]
      cases (rest.filter chosen).getLast? with
      | none => rfl
      | some last => rfl
    · rw [if_neg is, filter_cons_of_neg is]

theorem entry_foldl_set {α : Type} (value : DataMaskItem → α) (filterId : String)
    (items : List DataMaskItem) (record : Record α) :
    (items.foldl (fun record item => record.set item.id (value item)) record).entry filterId =
      (((items.filter fun item => item.id = filterId).getLast?).map fun item =>
        some (value item)).getD
        (record.entry filterId) := by
  rw [← foldl_last (fun item => item.id = filterId) (fun item => some (value item)) items]
  induction items generalizing record with
  | nil => rfl
  | cons item rest ih =>
    rw [foldl_cons, foldl_cons, ih, Record.entry_set]
    by_cases same : item.id = filterId
    · simp [same]
    · simp [same, Ne.symm same]

theorem master_eq :
    master input =
      (((input.dataMask.filter fun item => NonEmpty (selectedLayersOf input item.id)).getLast?).map
        fun item => ((selectedLayersOf input item.id).getD [], excludedOf input item.id)).getD
          ([], []) := by
  have last := foldl_last (fun item => decide (NonEmpty (selectedLayersOf input item.id)))
    (fun item => ((selectedLayersOf input item.id).getD [], excludedOf input item.id))
      input.dataMask ([], [])
  simp only [decide_eq_true_eq] at last
  unfold master
  cases any : hasLayerSelectionsInAnyFilter input with
  | true =>
    rw [if_pos rfl]
    exact last
  | false =>
    have none : (input.dataMask.filter fun item =>
      decide (NonEmpty (selectedLayersOf input item.id))) = [] :=
      filter_eq_nil_iff.mpr fun item member selected =>
        any_eq_false.mp any item member selected
    rw [if_neg Bool.false_ne_true, none]
    rfl

theorem hasLayerSelections_iff :
    hasLayerSelectionsInAnyFilter input = true ↔
      (input.dataMask.filter fun item => NonEmpty (selectedLayersOf input item.id)).getLast? ≠
        none := by
  rw [Ne, getLast?_eq_none_iff, filter_eq_nil_iff, hasLayerSelectionsInAnyFilter, any_eq_true]
  simp

/-- The function takes the layers and exclusions of `layerSelection`. -/
theorem selection_eq (filterId : String) :
    (if hasLayerSelectionsInAnyFilter input ∧ ¬NonEmpty (selectedLayersOf input filterId) then
      master input
      else ((selectedLayersOf input filterId).getD [], excludedOf input filterId)) =
      layerSelection input filterId := by
  have any := hasLayerSelections_iff input
  have taken := master_eq input
  unfold layerSelection
  by_cases own : NonEmpty (selectedLayersOf input filterId)
  · rw [if_neg fun both => both.2 own, if_pos own]
  · rw [if_neg own]
    cases last : (input.dataMask.filter fun item =>
      NonEmpty (selectedLayersOf input item.id)).getLast? with
    | none => rw [if_neg fun both => any.mp both.1 last]
    | some item =>
      rw [if_pos ⟨any.mpr (by rw [last]; exact Option.some_ne_none item), own⟩, taken, last]
      rfl

def entryFor (nativeFilter : Option NativeFilter) (scope : List Int)
    (selection : List String × List Int)
    (extraFormData : Value) : ActiveFilter :=
  { scope :=
      if selection.1 ≠ [] then layeredScope scope selection.1 selection.2
      else scope.filter fun chartId => chartId ∉ selection.2
    targets := JsObject.either (nativeFilter.bind NativeFilter.targets) (some (.list []))
    values := if extraFormData = none then some (.object []) else extraFormData
    filterType := nativeFilter.bind NativeFilter.filterType
    layerScope := if selection.1 ≠ [] then some (extractLayerIndicesFromKeys selection.1).layerMap
      else none }

theorem activeFilter_eq (item : DataMaskItem) :
    activeFilter input item =
      entryFor (input.nativeFilters item.id) (chartsInScope input item.id)
        (layerSelection input item.id)
        item.extraFormData := by
  have selection := selection_eq input item.id
  unfold activeFilter entryFor
  dsimp only
  rw [selection]

theorem entry_getAllActiveFilters (filterId : String) :
    (getAllActiveFilters input).entry filterId =
      ((input.dataMask.filter fun item => item.id = filterId).getLast?).map fun item =>
        entryFor (input.nativeFilters filterId) (chartsInScope input filterId)
          (layerSelection input filterId) item.extraFormData := by
  rw [getAllActiveFilters, entry_foldl_set]
  cases last : (input.dataMask.filter fun item => item.id = filterId).getLast? with
  | none => rfl
  | some item =>
    have same : item.id = filterId := by
      simpa using of_mem_filter (mem_of_getLast? last)
    simp only [Option.map_some, Option.getD_some]
    rw [activeFilter_eq, same]

theorem mem_setAdd {set : List Int} {value x : Int} (member : x ∈ setAdd set value) :
    x ∈ set ∨ x = value := by
  unfold setAdd at member
  by_cases present : value ∈ set
  · rw [if_pos present] at member
    exact .inl member
  · rw [if_neg present] at member
    simpa using member

variable {selectedLayers : List String}

theorem extractLayer_named {layerKey : String} (inside : layerKey ∈ selectedLayers)
    {info : LayerInfo} (named : ∀ chartId ∈ info.chartIds, Named selectedLayers chartId) :
    ∀ chartId ∈ (extractLayer info layerKey).chartIds, Named selectedLayers chartId := by
  intro chartId member
  unfold extractLayer at member
  cases parsed : matchLayerKey layerKey with
  | none =>
    rw [parsed] at member
    exact named chartId member
  | some pair =>
    rw [parsed] at member
    rcases mem_setAdd member with old | rfl
    · exact named chartId old
    · exact ⟨layerKey, inside, pair.2, parsed⟩

theorem extractLayers_named (keys : List String) :
    ∀ info : LayerInfo, (∀ key ∈ keys, key ∈ selectedLayers) →
      (∀ chartId ∈ info.chartIds, Named selectedLayers chartId) →
      ∀ chartId ∈ (keys.foldl extractLayer info).chartIds, Named selectedLayers chartId := by
  induction keys with
  | nil => exact fun _ _ named => named
  | cons key rest ih =>
    intro info inside named
    exact ih _ (fun k member => inside k (mem_cons_of_mem _ member))
      (extractLayer_named (inside key mem_cons_self) named)

theorem targetChart_mem {excludedCharts targeted : List Int} {chartId x : Int}
    (member : x ∈ targetChart selectedLayers excludedCharts targeted chartId) :
    x ∈ targeted ∨ x = chartId := by
  unfold targetChart at member
  by_cases taken : chartId ∉ excludedCharts ∧ selectedLayers.any (isLayerOf chartId) = false
  · rw [if_pos taken] at member
    exact mem_setAdd member
  · rw [if_neg taken] at member
    exact .inl member

theorem targetCharts_mem {excludedCharts : List Int} {x : Int}
    (scope : List Int) :
    ∀ targeted : List Int, x ∈ scope.foldl (targetChart selectedLayers excludedCharts) targeted →
      x ∈ targeted ∨ x ∈ scope := by
  induction scope with
  | nil => exact fun _ member => .inl member
  | cons chart rest ih =>
    intro targeted member
    rcases ih _ member with before | later
    · rcases targetChart_mem before with old | rfl
      · exact .inl old
      · exact .inr mem_cons_self
    · exact .inr (mem_cons_of_mem _ later)

theorem mem_layeredScope {scope : List Int} {excludedCharts : List Int}
    {chartId : Int} (member : chartId ∈ layeredScope scope selectedLayers excludedCharts) :
    chartId ∈ scope ∨ Named selectedLayers chartId := by
  rcases targetCharts_mem scope _ member with layered | inScope
  · exact .inr (extractLayers_named selectedLayers _ (fun _ same => same) (by simp) chartId layered)
  · exact .inl inScope

theorem mem_entryFor_scope {nativeFilter : Option NativeFilter} {scope : List Int}
    {selection : List String × List Int} {extraFormData : Value} {chartId : Int}
    (member : chartId ∈ (entryFor nativeFilter scope selection extraFormData).scope) :
    chartId ∈ scope ∨ Named selection.1 chartId := by
  unfold entryFor at member
  by_cases layers : selection.1 ≠ []
  · dsimp only at member
    rw [if_pos layers] at member
    exact mem_layeredScope member
  · dsimp only at member
    rw [if_neg layers] at member
    exact .inl (mem_of_mem_filter member)

section Confined
variable (first second : Input) (filterId : String)

/-- A filter that has layers, or any filter as long as none has, goes by its own selection. -/
theorem layerSelection_own (alone : NonEmpty (selectedLayersOf input filterId)
      ∨ ∀ item ∈ input.dataMask, ¬NonEmpty (selectedLayersOf input item.id)) :
    layerSelection input filterId =
      ((selectedLayersOf input filterId).getD [], excludedOf input filterId) := by
  unfold layerSelection
  rcases alone with layers | none
  · rw [if_pos layers]
  · have empty :
      (input.dataMask.filter fun item => decide (NonEmpty (selectedLayersOf input item.id))) = [] :=
      filter_eq_nil_iff.mpr fun item member selected =>
        none item member (of_decide_eq_true selected)
    rw [empty]
    exact ite_self _

/-- The entry of a filter depends on its own data and on the selection it goes by; its
scope holds its own charts and those of that selection, which is its own if it has
layers or no filter has. -/
theorem entry_confined (own : SameOwn first second filterId)
    (selection : layerSelection first filterId = layerSelection second filterId) :
    (getAllActiveFilters first).entry filterId = (getAllActiveFilters second).entry filterId
      ∧ (∀ entry, (getAllActiveFilters first).entry filterId = some entry →
          ∀ chartId ∈ entry.scope,
            chartId ∈ chartsInScope first filterId ∨
            Named (layerSelection first filterId).1 chartId)
      ∧ ((NonEmpty (selectedLayersOf first filterId)
            ∨ ∀ item ∈ first.dataMask, ¬NonEmpty (selectedLayersOf first item.id)) →
          layerSelection first filterId =
            ((selectedLayersOf first filterId).getD [], excludedOf first filterId)) := by
  refine ⟨?_, ?_, layerSelection_own first filterId⟩
  · have scopes : chartsInScope first filterId = chartsInScope second filterId := by
      rw [chartsInScope, chartsInScope, own.nativeFilter, own.crossFilterScope, own.allSliceIds]
    rw [entry_getAllActiveFilters, entry_getAllActiveFilters, own.items, own.nativeFilter, scopes,
      selection]
  · intro entry found chartId member
    rw [entry_getAllActiveFilters] at found
    obtain ⟨item, _, rfl⟩ := Option.map_eq_some_iff.mp found
    exact mem_entryFor_scope member

def regionFilter (excluded : List Int) : NativeFilter :=
  { chartsInScope := some [1]
    filterType := some "filter_select"
    targets := none
    scope := some { selectedLayers := none, excluded := some excluded } }

def layersFilter (selectedLayers : List String) : NativeFilter :=
  { chartsInScope := some [9]
    filterType := some "filter_select"
    targets := none
    scope := some { selectedLayers := some selectedLayers, excluded := none } }

def twoFilters (excluded : List Int) (selectedLayers : List String) : Input :=
  { crossFilterScope := fun _ => none
    dataMask := [{ id := "NATIVE_FILTER-1", extraFormData := none },
      { id := "NATIVE_FILTER-2", extraFormData := none }]
    nativeFilters := fun id =>
      if id = "NATIVE_FILTER-1" then some (regionFilter excluded)
      else if id = "NATIVE_FILTER-2" then some (layersFilter selectedLayers)
      else none
    allSliceIds := some [1, 9] }

theorem excluded_confined :
    (getAllActiveFilters (twoFilters [] ["chart-9-layer-0"])).entry "NATIVE_FILTER-2" =
      (getAllActiveFilters (twoFilters [1] ["chart-9-layer-0"])).entry "NATIVE_FILTER-2" :=
  (entry_confined (twoFilters [] ["chart-9-layer-0"])
    (twoFilters [1] ["chart-9-layer-0"]) "NATIVE_FILTER-2"
    ⟨rfl, rfl, rfl, rfl⟩ rfl).1

/-- A filter without layers takes those another filter selects. -/
theorem selectedLayers_leak :
    SameOwn (twoFilters [] []) (twoFilters [] ["chart-9-layer-0"]) "NATIVE_FILTER-1"
      ∧ ((getAllActiveFilters (twoFilters [] [])).entry "NATIVE_FILTER-1").map
        ActiveFilter.scope = some [1]
      ∧ ((getAllActiveFilters (twoFilters [] ["chart-9-layer-0"])).entry "NATIVE_FILTER-1").map
          ActiveFilter.scope = some [9, 1]
      ∧ 9 ∉ chartsInScope (twoFilters [] ["chart-9-layer-0"]) "NATIVE_FILTER-1"
      ∧ selectedLayersOf (twoFilters [] ["chart-9-layer-0"]) "NATIVE_FILTER-1" = none :=
  ⟨⟨rfl, rfl, rfl, rfl⟩, by rfl, by rfl, by decide, rfl⟩

end Confined

end Liteset.Dashboard.ActiveFilters
