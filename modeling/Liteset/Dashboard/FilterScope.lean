import Liteset.Dashboard.LayerKeys
import Liteset.Dashboard.LayoutEdits

/-!
# Scopes of native filters

A scope names the top components a filter applies to and the charts below them that
it leaves out.  `findFilterScope` encodes the charts picked in the scoping tree;
`getTreeCheckedItems` and `getChartIdsInFilterScope` read a scope back.
-/

set_option autoImplicit false

namespace Liteset.Dashboard.FilterScope

open Lib
open Lib.JsObject (Record Value)

structure NativeFilterScope where
  rootPath : List String
  excluded : List Value
  /-- `none` where the scope has no such key. -/
  selectedLayers : Option (List String)

def isShowTypeInTree (item : LayoutItem) : Bool := item.type ∈ [.tab, .chart, .root]

/-- `item.meta.chartId` -/
def chartIdOf (item : LayoutItem) : Value := JsObject.get item.metadata "chartId"

/-- `none` where `isShowTypeInTree` is called without a component. -/
def addInvisibleParents (layout : Layout) (item : String) : Option (List String) :=
  let below := layout.values.filter fun val => val.parents.getLast? = some item
  match layout.entry item with
  | some component =>
    some (component.children
      ++ if isShowTypeInTree component then [] else below.map LayoutItem.id)
  | none => if below.isEmpty then some [] else none

def collect (check : String → Option (List String)) : List String → Option (List String)
  | [] => some []
  | item :: rest =>
    match check item, collect check rest with
    | some first, some others => some (first ++ others)
    | _, _ => none

def checkedChart (layout : Layout) (excluded : List Value) (item : String) : List String :=
  match layout.entry item with
  | some component =>
    if component.type = .chart ∧ chartIdOf component ∉ excluded then [item] else []
  | none => []

/-- `fuel` bounds the depth of the recursion; the source descends for ever on a cycle. -/
def checkTreeItem (layout : Layout) (excluded : List Value) : Nat → List String →
    Option (List String)
  | 0, items => if items.isEmpty then some [] else none
  | fuel + 1, items =>
    collect
      (fun item =>
        match addInvisibleParents layout item with
        | none => none
        | some below =>
          match checkTreeItem layout excluded fuel below with
          | none => none
          | some checked => some (checked ++ checkedChart layout excluded item))
      items

def withoutLayered (layout : Layout) (selectedLayers : List String) (checkedItems : List String) :
    List String :=
  let parentChartIds :=
    selectedLayers.filterMap fun layerKey => (matchLayerKey layerKey).map Prod.fst
  checkedItems.filter fun item =>
    match layout.entry item with
    | some component =>
      if component.type = .chart then
        if JsObject.truthy (chartIdOf component) then
          chartIdOf component ∉ parentChartIds.map fun chartId => some (Json.int chartId)
        else true
      else true
    | none => true

def getTreeCheckedItems (fuel : Nat) (scope : NativeFilterScope) (layout : Layout)
    (selectedLayers : Option (List String)) : Option (List String) :=
  match checkTreeItem layout scope.excluded fuel scope.rootPath with
  | none => none
  | some checkedItems =>
    match selectedLayers with
    | none | some [] => some checkedItems.eraseDups
    | some layers => some (withoutLayered layout layers checkedItems ++ layers).eraseDups

def includes (part : List Char) : List Char → Bool
  | [] => part.isEmpty
  | c :: text => part.isPrefixOf (c :: text) || includes part text

/-- `key.includes('-layer-')` -/
def namesLayer (key : String) : Bool := includes "-layer-".toList key.toList

def addLayerChart (layout : Layout) (chartKeys : List String) (layerKey : String) : List String :=
  match matchLayerKey layerKey with
  | none => chartKeys
  | some (chartId, _) =>
    let chartLayoutKey := (Record.enumerate layout.keys).find? fun key =>
      match layout.entry key with
      | some component => chartIdOf component = some (.int chartId)
      | none => false
    match chartLayoutKey with
    | some key => if key ≠ "" ∧ key ∉ chartKeys then chartKeys ++ [key] else chartKeys
    | none => chartKeys

def selectedChartKeys (checkedKeys : List String) (layout : Layout) : List String :=
  (checkedKeys.filter namesLayer).foldl (addLayerChart layout)
    (checkedKeys.filter fun key => typeOf layout key = some .chart || !namesLayer key)

def isChart (layout : Layout) (key : String) : Bool := typeOf layout key = some .chart

/-- The parents of a chart that the scoping tree shows; `none` if one is missing. -/
def visibleParents (layout : Layout) (key : String) : Option (List String) :=
  let parents := dashboardRootId :: ((layout.entry key).map LayoutItem.parents).getD []
  if parents.all fun parent => (layout.entry parent).isSome then
    some (parents.filter fun parent => (layout.entry parent).any isShowTypeInTree)
  else none

/-- The parents of all charts at the depth of the shortest list; `none` where that is
`undefined`. -/
def commonParents (checkedItemParents : List (List String)) : Option (List String) :=
  let sorted := checkedItemParents.insertionSort fun p1 p2 => p1.length ≤ p2.length
  match sorted with
  | [] => some []
  | shortest :: _ =>
    sorted.mapM fun parents => if shortest.length = 0 then none else parents[shortest.length - 1]?

/-- `[DASHBOARD_ROOT_ID, ...parents]?.find(parent => isExcluded(parent, key))` is truthy. -/
def isExcluded (rootPath chartKeys : List String) (key : String) (parents : List String) : Bool :=
  match (dashboardRootId :: parents).find? fun parent => parent ∈ rootPath ∧ key ∉ chartKeys with
  | some parent => parent ≠ ""
  | none => false

def excludedCharts (layout : Layout) (rootPath chartKeys : List String) : List Value :=
  (Record.enumerate layout.keys).filterMap fun key =>
    match layout.entry key with
    | some value =>
      if value.type = .chart ∧ isExcluded rootPath chartKeys key value.parents = true then
        some (chartIdOf value)
      else none
    | none => none

def findFilterScope (checkedKeys : List String) (layout : Layout) : Option NativeFilterScope :=
  if checkedKeys.isEmpty then some { rootPath := [], excluded := [], selectedLayers := none }
  else
    let chartKeys := selectedChartKeys checkedKeys layout
    match (chartKeys.filter (isChart layout)).mapM (visibleParents layout) with
    | none => none
    | some checkedItemParents =>
      match commonParents checkedItemParents with
      | none => none
      | some rootPath =>
        some
          { rootPath := rootPath.eraseDups
            excluded := excludedCharts layout rootPath chartKeys
            selectedLayers := none }

def underRootPath (rootPath : List String) (layoutItems : List LayoutItem)
    (chartId : Value) : Bool :=
  match layoutItems.find? fun item => item.type = .chart ∧ chartIdOf item = chartId with
  | some item => item.parents.any fun elementId => elementId ∈ rootPath
  | none => false

def chartsUnderRootPath (filterScope : NativeFilterScope) (chartIds : List Value)
    (layoutItems : List LayoutItem) : List Value :=
  chartIds.filter fun chartId =>
    chartId ∉ filterScope.excluded ∧ underRootPath filterScope.rootPath layoutItems chartId = true

def layeredCharts (selectedLayers : List String) (chartIds : List Value) : List Value :=
  selectedLayers.foldl
    (fun targetChartIds selectionKey =>
      match matchLayerKey selectionKey with
      | none => targetChartIds
      | some (chartId, _) =>
        if some (.int chartId) ∈ chartIds ∧ some (.int chartId) ∉ targetChartIds then
          targetChartIds ++ [some (.int chartId)]
        else targetChartIds)
    []

def getChartIdsInFilterScope (filterScope : NativeFilterScope) (chartIds : List Value)
    (layoutItems : List LayoutItem) : List Value :=
  match filterScope.selectedLayers with
  | none | some [] => chartsUnderRootPath filterScope chartIds layoutItems
  | some layers =>
    let chartsWithLayerSelections : List Value :=
      layers.filterMap fun key => (matchLayerKey key).map fun ids => some (Json.int ids.1)
    let regularChartIds :=
      (chartsUnderRootPath filterScope chartIds layoutItems).filter fun chartId =>
        chartId ∉ chartsWithLayerSelections
    regularChartIds.foldl
      (fun targetChartIds chartId =>
        if chartId ∈ targetChartIds then targetChartIds else targetChartIds ++ [chartId])
      (layeredCharts layers chartIds)

end Liteset.Dashboard.FilterScope
