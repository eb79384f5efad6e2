import Liteset.Dashboard.FilterScope

/-!
# The layout a dashboard starts with

`hydrateDashboard` takes the stored layout, adds a chart holder for each chart that
has none, in rows at the end of the first container, and computes the parents of all
components if one of them has none.  `none` stands for a call that throws.
-/

set_option autoImplicit false

namespace Liteset.Dashboard.Hydrate

open Lib
open Lib.JsObject (Object Record text)

structure StoredComponent where
  id : String
  type : ComponentType
  children : List String
  /-- `none` where the component has no such key. -/
  parents : Option (List String)
  /-- `meta.chartId` -/
  chartId : Option Int
  /-- The rest of `meta`. -/
  metadata : Object

inductive Entry where
  | component (component : StoredComponent)
  | text (value : String)

abbrev StoredLayout := Record Entry

def componentAt (layout : StoredLayout) (key : String) : Option StoredComponent :=
  match layout.entry key with
  | some (.component component) => some component
  | _ => none

def childrenOf (layout : StoredLayout) (key : String) : List String :=
  ((componentAt layout key).map StoredComponent.children).getD []

abbrev Child (layout : StoredLayout) (parent child : String) : Prop :=
  child ∈ childrenOf layout parent

def getEmptyLayout : StoredLayout :=
  ((Record.empty.set "DASHBOARD_VERSION_KEY" (.text "v2")).set dashboardRootId
      (.component
        { id := dashboardRootId, type := .root, children := [dashboardGridId], parents := none,
          chartId := none, metadata := JsObject.empty })).set dashboardGridId
    (.component
      { id := dashboardGridId, type := .grid, children := [], parents := some [dashboardRootId],
        chartId := none, metadata := JsObject.empty })

def startingLayout (positionData : Option StoredLayout) : StoredLayout :=
  match positionData with
  | some layout => if layout.keys.isEmpty then getEmptyLayout else layout
  | none => getEmptyLayout

/-- `layout[parent.children[0]]`; where there is no child the key is the text of
`undefined`. -/
def firstChild (layout : StoredLayout) (parent : StoredComponent) : Option StoredComponent :=
  componentAt layout (parent.children.headD "undefined")

def findFirstParentContainerId (layout : StoredLayout) : Option String :=
  match componentAt layout dashboardRootId with
  | none => none
  | some root =>
    match firstChild layout root with
    | none => none
    | some top =>
      if root.children.length ≠ 0 ∧ top.type = .tabs
        then (firstChild layout top).map StoredComponent.id
      else some top.id

structure Slice where
  sliceId : Int
  sliceName : String

/-- `{ ...items }` of a list. -/
def spreadList (items : List String) : Object :=
  JsObject.ofList (items.mapIdx fun index item => (toString index, text item))

/-- `entityFactory(type, meta, parents)`, with `chartId` apart from the rest of `meta`. -/
def newComponentFactory (type : ComponentType) (chartId : Option Int) (metadata : Object)
    (parents : List String) (nanoid : String) : StoredComponent where
  id := uuid type nanoid
  type := type
  children := []
  parents := some parents
  chartId := chartId
  metadata := JsObject.spread (typeToDefaultMetaData type) metadata

structure Filling where
  layout : StoredLayout
  /-- `chartIdToLayoutId` -/
  layoutIds : Int → Option String
  /-- The id of `newSlicesContainer`. -/
  container : String
  newSlicesContainerWidth : Int
  /-- The ids drawn by `nanoid()` so far. -/
  drawn : Nat
  slicesFromExploreCount : Int → Nat
  /-- `parent` is still what the layout holds under its id. -/
  parentHeld : Bool

/-- `chartIdToLayoutId` of the stored layout: the last component of a chart counts. -/
def chartIdToLayoutId (layout : StoredLayout) : Int → Option String :=
  layout.values.foldl
    (fun layoutIds entry =>
      match entry with
      | .component component =>
        if component.type = .chart then
          fun chartId => if component.chartId = some chartId then some component.id
            else layoutIds chartId
        else layoutIds
      | .text _ => layoutIds)
    fun _ => none

def given (layoutId : Option String) : Bool :=
  match layoutId with
  | some id => id ≠ ""
  | none => false

/-- `layout[key].children.push(child)` -/
def pushChild (layout : StoredLayout) (key child : String) : StoredLayout :=
  match componentAt layout key with
  | some component =>
    layout.set key (.component { component with children := component.children ++ [child] })
  | none => layout

variable (nanoid : Nat → String) (parentId : String) (parentParents : List String)

/-- A fresh row at the end of the parent.  The parents are passed where `meta` is
expected, so that the row gets the empty list. -/
def addRow (filling : Filling) : Filling :=
  let row := newComponentFactory .row none (spreadList parentParents) [] (nanoid filling.drawn)
  let layout := filling.layout.set row.id (.component row)
  { filling with
    layout := if filling.parentHeld then pushChild layout parentId row.id else layout
    container := row.id
    newSlicesContainerWidth := 0
    drawn := filling.drawn + 1 }

def chartHolderId (sliceId : Int) (count : Nat) : String :=
  "CHART-explore-" ++ toString sliceId ++ "-" ++ toString count

def addHolder (filling : Filling) (slice : Slice) : Filling :=
  let parents :=
    ((componentAt filling.layout filling.container).bind StoredComponent.parents).getD []
  let count := filling.slicesFromExploreCount slice.sliceId + 1
  let id := chartHolderId slice.sliceId count
  let chartHolder :=
    { newComponentFactory .chart (some slice.sliceId) JsObject.empty parents
      (nanoid filling.drawn) with
      id := id }
  { layout := pushChild (filling.layout.set id (.component chartHolder)) filling.container id
    layoutIds := fun chartId => if chartId = slice.sliceId then some id
      else filling.layoutIds chartId
    container := filling.container
    newSlicesContainerWidth := filling.newSlicesContainerWidth + gridDefaultChartWidth
    drawn := filling.drawn + 1
    slicesFromExploreCount := fun chartId =>
      if chartId = slice.sliceId then count else filling.slicesFromExploreCount chartId
    parentHeld := filling.parentHeld && id ≠ parentId }

/-- `layout[layoutId].meta.sliceName = slice.slice_name` -/
def syncName (filling : Filling) (slice : Slice) : Option Filling :=
  match filling.layoutIds slice.sliceId with
  | none => some filling
  | some layoutId =>
    if layoutId = "" then some filling
    else
      match filling.layout.entry layoutId with
      | none => some filling
      | some (.text _) => none
      | some (.component component) =>
        some { filling with
          layout := filling.layout.set layoutId
            (.component { component with
              metadata := JsObject.spread component.metadata
                (JsObject.single "sliceName" (text slice.sliceName)) }) }

def withRow (filling : Filling) : Filling :=
  if filling.newSlicesContainerWidth = 0
      ∨ filling.newSlicesContainerWidth + gridDefaultChartWidth > gridColumnCount then
    addRow nanoid parentId parentParents filling
  else filling

def addIfMissing (filling : Filling) (slice : Slice) : Filling :=
  if given (filling.layoutIds slice.sliceId) = false ∧ (filling.layout.entry parentId).isSome =
    true then
    addHolder nanoid parentId (withRow nanoid parentId parentParents filling) slice
  else filling

/-- The body of `charts.forEach`. -/
def placeSlice (filling : Filling) (slice : Slice) : Option Filling :=
  syncName (addIfMissing nanoid parentId parentParents filling slice) slice

def placeSlices : Filling → List Slice → Option Filling
  | filling, [] => some filling
  | filling, slice :: rest =>
    match placeSlice nanoid parentId parentParents filling slice with
    | none => none
    | some filling => placeSlices filling rest

/-- The body of `currentComponent.children.forEach`.  A version text among the children
is none of a layout. -/
def updateChild (update : StoredComponent → StoredLayout → Option StoredLayout)
    (parentsList : List String)
    (layout : StoredLayout) (childId : String) : Option StoredLayout :=
  match layout.entry childId with
  | none => some layout
  | some (.text _) => none
  | some (.component child) =>
    let moved := { child with parents := some parentsList }
    update moved (layout.set childId (.component moved))

/-- `fuel` bounds the depth; the source never returns on a cycle. -/
def updateComponentParentsList : Nat → StoredComponent → StoredLayout → Option StoredLayout
  | 0, _, _ => none
  | fuel + 1, currentComponent, layout =>
    match layout.entry currentComponent.id with
    | none => some layout
    | some _ =>
      let parentsList := currentComponent.parents.getD [] ++ [currentComponent.id]
      currentComponent.children.foldlM
        (updateChild (updateComponentParentsList fuel) parentsList) layout

/-- `element.id !== DASHBOARD_ROOT_ID && !element.parents` -/
def lacksParents : Entry → Bool
  | .component component => component.id ≠ dashboardRootId && component.parents.isNone
  | .text _ => true

def buildParents (layout : StoredLayout) : Option StoredLayout :=
  if layout.values.any lacksParents then
    match layout.entry dashboardRootId with
    | none => some layout
    | some (.text _) => none
    | some (.component root) => updateComponentParentsList (layout.keys.length + 1) root layout
  else some layout

def dashboardHeader (title : String) : StoredComponent where
  id := dashboardHeaderId
  type := .header
  children := []
  parents := none
  chartId := none
  metadata := JsObject.single "text" (text title)

def noneAdded (layout : StoredLayout) : Filling where
  layout := layout
  layoutIds := chartIdToLayoutId layout
  container := ""
  newSlicesContainerWidth := 0
  drawn := 0
  slicesFromExploreCount := fun _ => 0
  parentHeld := true

/-- The layout that `hydrateDashboard` dispatches. -/
def hydrateLayout (positionData : Option StoredLayout) (charts : List Slice) (title : String) :
    Option StoredLayout :=
  let layout := startingLayout positionData
  match findFirstParentContainerId layout with
  | none => none
  | some parentId =>
    let parentParents := ((componentAt layout parentId).bind StoredComponent.parents).getD []
    match placeSlices nanoid parentId parentParents (noneAdded layout) charts with
    | none => none
    | some filled =>
      match buildParents filled.layout with
      | none => none
      | some layout => some (layout.set dashboardHeaderId (.component (dashboardHeader title)))

end Liteset.Dashboard.Hydrate
