import Mathlib.Algebra.Ring.Int.Defs
import Liteset.Lib.JsObject
import Liteset.Lib.JsArray

/-!
# Components of a dashboard layout

A layout maps the id of each component to the component, which lists its children
by id.  Besides the data this file holds what the reducer asks of a layout: fresh
components, the parent of a component, and the width a component takes when it is
dropped.  `none` stands for a call that throws.
-/

set_option autoImplicit false

namespace Liteset.Dashboard

open Lib
open Lib.JsObject (Object Record Value number text)

inductive ComponentType where
  | chart
  | column
  | header
  | grid
  | root
  | divider
  | markdown
  | newComponentSource
  | row
  | tabs
  | tab
  | dynamic
deriving DecidableEq, Repr

def ComponentType.name : ComponentType → String
  | .chart => "CHART"
  | .column => "COLUMN"
  | .header => "HEADER"
  | .grid => "GRID"
  | .root => "ROOT"
  | .divider => "DIVIDER"
  | .markdown => "MARKDOWN"
  | .newComponentSource => "NEW_COMPONENT_SOURCE"
  | .row => "ROW"
  | .tabs => "TABS"
  | .tab => "TAB"
  | .dynamic => "DYNAMIC"

def dashboardGridId : String := "GRID_ID"
def dashboardHeaderId : String := "HEADER_ID"
def dashboardRootId : String := "ROOT_ID"
def newComponentsSourceId : String := "NEW_COMPONENTS_SOURCE_ID"

def gridColumnCount : Int := 12
def gridMinColumnCount : Int := 1
def gridDefaultChartWidth : Int := 4

structure LayoutItem where
  children : List String
  parents : List String
  type : ComponentType
  id : String
  metadata : Object

abbrev Layout := Record LayoutItem

def childrenOf (layout : Layout) (key : String) : List String :=
  match layout.entry key with
  | none => []
  | some component => component.children

def typeToDefaultMetaData : ComponentType → Object
  | .chart | .markdown =>
    JsObject.ofList [("width", number gridDefaultChartWidth), ("height", number 50)]
  | .column =>
    JsObject.ofList [("width", number gridDefaultChartWidth),
      ("background", text "BACKGROUND_TRANSPARENT")]
  | .header =>
    JsObject.ofList [("text", text "New header"), ("headerSize", text "MEDIUM_HEADER"),
      ("background", text "BACKGROUND_TRANSPARENT")]
  | .row => JsObject.ofList [("background", text "BACKGROUND_TRANSPARENT")]
  | .tab =>
    JsObject.ofList [("text", text ""), ("defaultText", text "Tab title"),
      ("placeholder", text "Tab title")]
  | .dynamic =>
    JsObject.ofList [("width", number gridColumnCount),
      ("background", text "BACKGROUND_TRANSPARENT")]
  | _ => JsObject.empty

def uuid (type : ComponentType) (nanoid : String) : String := type.name ++ "-" ++ nanoid

/-- `entityFactory(type, meta)` with the id drawn by `nanoid()`. -/
def newComponentFactory (type : ComponentType) (metadata : Object) (nanoid : String) :
    LayoutItem where
  type := type
  id := uuid type nanoid
  children := []
  parents := []
  metadata := JsObject.spread (typeToDefaultMetaData type) metadata

def componentIsResizable (type : ComponentType) : Bool :=
  type ∈ [.column, .chart, .markdown, .dynamic]

def shouldWrapChildInRow (parentType childType : ComponentType) : Bool :=
  parentType ∈ [.grid, .tab] && childType ∈ [.chart, .column, .markdown]

/-- The module-level `cache`, from an id to the parent found last. -/
abbrev ParentCache := String → Option String

/-- The first key other than `childId` whose children include it. -/
def findParentId (childId : String) (layout : Layout) : Option String :=
  (Record.enumerate layout.keys).find? fun id =>
    decide (id ≠ childId) && decide (childId ∈ childrenOf layout id)

/-- What `findParentIdWithCache` answers without looking through the layout. -/
def cachedParentId (cache : ParentCache) (childId : String) (layout : Layout) : Option String :=
  match cache childId with
  | none => none
  | some cachedValue =>
    if cachedValue = "" then none
    else
      match layout.entry cachedValue with
      | none => none
      | some lastParent => if childId ∈ lastParent.children then some lastParent.id else none

def findParentIdWithCache (cache : ParentCache) (childId : String) (layout : Layout) :
    Option String × ParentCache :=
  match cachedParentId cache childId layout with
  | some id => (some id, cache)
  | none =>
    (findParentId childId layout,
      fun k => if k = childId then findParentId childId layout else cache k)

/-- The key read by `layout[id]` for an `id` that may be `null`. -/
def idKey (id : Option String) : String := id.getD "null"

/-- A width that is a number; `none` is undefined. -/
def widthOf (metadata : Object) : Option Int :=
  match JsObject.get metadata "width" with
  | some (.int width) => some width
  | _ => none

/-- `width || fallback` -/
def widthOr (width : Option Int) (fallback : Int) : Int :=
  match width with
  | none => fallback
  | some n => if n = 0 then fallback else n

def getTotalChildWidth (id : String) (components : Layout) : Int :=
  ((childrenOf components id).map fun childId =>
    match components.entry childId with
    | none => 0
    | some child => widthOr (widthOf child.metadata) 0).sum

structure DetailedWidth where
  width : Option Int := none
  occupiedWidth : Option Int := none
  minimumWidth : Option Int := none

def widestRow (components : Layout) : List String → Int → Option Int
  | [], widest => some widest
  | childId :: rest, widest =>
    match components.entry childId with
    | none => none
    | some child =>
      if child.type = .row then
        widestRow components rest (max widest (getTotalChildWidth childId components))
      else widestRow components rest widest

/-- `fuel` bounds the rows inside rows that are climbed; the source climbs for ever
when they form a cycle. -/
def getDetailedComponentWidth : Nat → ParentCache → Option LayoutItem → Layout →
    Option (DetailedWidth × ParentCache)
  | _, cache, none, _ => some ({}, cache)
  | 0, _, some _, _ => none
  | fuel + 1, cache, some component, components =>
    let own := widthOf component.metadata
    match component.type with
    | .row =>
      let parent := findParentIdWithCache cache component.id components
      match getDetailedComponentWidth fuel parent.2 (components.entry (idKey parent.1))
        components with
      | none => none
      | some (above, cache) =>
        let occupied := getTotalChildWidth component.id components
        some ({ width := some (widthOr above.width gridColumnCount), occupiedWidth := some occupied,
                minimumWidth := some (widthOr (some occupied) gridMinColumnCount) }, cache)
    | .column =>
      match widestRow components component.children gridMinColumnCount with
      | none => none
      | some widest =>
        some ({ width := own, occupiedWidth := some 0, minimumWidth := some widest }, cache)
    | .dynamic | .markdown | .chart =>
      some ({ width := own, occupiedWidth := own, minimumWidth := some gridMinColumnCount }, cache)
    | _ => some ({ width := own, occupiedWidth := own }, cache)

/-- `a - b`, where `none` is `NaN`. -/
def capacity (width occupied : Option Int) : Option Int :=
  match width, occupied with
  | some a, some b => some (a - b)
  | _, _ => none

structure DropPlace where
  id : String
  type : Option ComponentType
  index : Int

structure Dragging where
  id : String
  type : ComponentType
  metadata : Object

inductive DropPosition where
  | top
  | right
  | bottom
  | left
deriving DecidableEq, Repr

structure DropResult where
  source : Option DropPlace
  destination : Option DropPlace
  dragging : Option Dragging
  position : Option DropPosition

def widthFuel (components : Layout) : Nat := components.keys.length + 2

def destinationCapacity (cache : ParentCache) (destinationId : String) (components : Layout) :
    Option (Option Int × ParentCache) :=
  match getDetailedComponentWidth (widthFuel components) cache (components.entry destinationId)
      components with
  | none => none
  | some (destination, cache) =>
    match capacity destination.width destination.occupiedWidth with
    | some room => some (some room, cache)
    | none =>
      let grandparent := findParentIdWithCache cache destinationId components
      match getDetailedComponentWidth (widthFuel components) grandparent.2
          (components.entry (idKey grandparent.1)) components with
      | none => none
      | some (above, cache) => some (capacity above.width above.occupiedWidth, cache)

/-- The width that fits, or `-1`. -/
def fittingWidth (room width minimum : Option Int) : Option Int :=
  match room, width with
  | none, _ => width
  | _, none => none
  | some room, some width =>
    if room ≥ width then some width
    else
      match minimum with
      | none => some (-1)
      | some least => if room ≥ least then some room else some (-1)

/-- `component` is the dragged component, or a fresh one of its type. -/
def getComponentWidthFromDrop (cache : ParentCache) (source destination : DropPlace)
    (component : Option LayoutItem) (components : Layout) : Option (Option Int × ParentCache) :=
  if source.id = destination.id then
    match component with
    | none => none
    | some component => some (widthOf component.metadata, cache)
  else
    match getDetailedComponentWidth (widthFuel components) cache component components with
    | none => none
    | some (dragged, cache) =>
      match destinationCapacity cache destination.id components with
      | none => none
      | some (room, cache) => some (fittingWidth room dragged.width dragged.minimumWidth, cache)

/-- `width || undefined` -/
def nonzeroWidth (width : Option Int) : Option Int :=
  match width with
  | some 0 => none
  | other => other

/-- `{ ...meta, width }` -/
def withWidth (metadata : Object) (width : Option Int) : Object :=
  JsObject.spread metadata (JsObject.single "width" (width.map Json.int))

end Liteset.Dashboard
