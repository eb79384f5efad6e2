import Mathlib.Algebra.Order.Ring.Rat
import Liteset.Dashboard.LayoutSafety

/-!
# Dragging and dropping components

The drop targets a dashboard renders in edit mode, where a drop on each of them puts
the dragged component, and what the drop then dispatches.
-/

set_option autoImplicit false

namespace Liteset.Dashboard

open Lib
open Lib.JsArray (item)

def dashboardRootDepth : Int := 0

def parentMaxDepthLookup : ComponentType → ComponentType → Option Int
  | .root, .tabs => some dashboardRootDepth
  | .root, .grid => some dashboardRootDepth
  | .grid, .chart => some (dashboardRootDepth + 1)
  | .grid, .dynamic => some (dashboardRootDepth + 1)
  | .grid, .markdown => some (dashboardRootDepth + 1)
  | .grid, .column => some (dashboardRootDepth + 1)
  | .grid, .divider => some (dashboardRootDepth + 1)
  | .grid, .header => some (dashboardRootDepth + 1)
  | .grid, .row => some (dashboardRootDepth + 1)
  | .grid, .tabs => some (dashboardRootDepth + 1)
  | .row, .chart => some (dashboardRootDepth + 4)
  | .row, .dynamic => some (dashboardRootDepth + 4)
  | .row, .markdown => some (dashboardRootDepth + 4)
  | .row, .column => some (dashboardRootDepth + 4)
  | .tabs, .tab => some (dashboardRootDepth + 3)
  | .tab, .chart => some (dashboardRootDepth + 5)
  | .tab, .dynamic => some (dashboardRootDepth + 5)
  | .tab, .markdown => some (dashboardRootDepth + 5)
  | .tab, .column => some (dashboardRootDepth + 3)
  | .tab, .divider => some (dashboardRootDepth + 5)
  | .tab, .header => some (dashboardRootDepth + 5)
  | .tab, .row => some (dashboardRootDepth + 3)
  | .tab, .tabs => some (dashboardRootDepth + 3)
  | .column, .chart => some (dashboardRootDepth + 5)
  | .column, .header => some (dashboardRootDepth + 5)
  | .column, .markdown => some (dashboardRootDepth + 5)
  | .column, .row => some (dashboardRootDepth + 3)
  | .column, .divider => some (dashboardRootDepth + 3)
  | .column, .tabs => some (dashboardRootDepth + 3)
  | _, _ => none

def isValidChild (parentType : Option ComponentType) (parentDepth : Int)
    (childType : ComponentType) : Bool :=
  match parentType with
  | none => false
  | some parentType =>
    match parentMaxDepthLookup parentType childType with
    | none => false
    | some maxParentDepth => parentDepth ≤ maxParentDepth

inductive Orientation where
  | row
  | column
deriving DecidableEq, Repr

structure DraggingItem where
  id : String
  type : ComponentType
  metadata : JsObject.Object
  parent : DropPlace

/-- The props of a drop target.  Rows and columns also pass an id or a list of ids as
`component`; these have no id, type or children, and are `none`. -/
structure DropProps where
  component : Option LayoutItem
  parentComponent : Option LayoutItem
  depth : Int
  index : Int
  orientation : Orientation
  dropToChild : ComponentType → Bool
  /-- `onDrop` is `handleTopDropTargetDrop`. -/
  forceFirst : Bool

structure Point where
  x : Rat
  y : Rat

structure Rect where
  top : Rat
  bottom : Rat
  left : Rat
  right : Rat

/-- What the pointer does: `offset` is the client offset of the monitor or the one
cached for the component. -/
structure Pointer where
  isDraggingOverShallow : Bool
  offset : Option Point
  bounds : Option Rect

/-- `none` is `null`. -/
inductive DropAnswer where
  | forbidden
  | at (position : DropPosition)
deriving DecidableEq, Repr

def siblingDropThreshold : Rat := 20
def nonShallowDropThreshold : Rat := 20

def childPosition (props : DropProps) : DropPosition :=
  let hasChildren := match props.component with
    | none => false
    | some component => !component.children.isEmpty
  match props.orientation with
  | .row => if hasChildren then .right else .left
  | .column => if hasChildren then .bottom else .top

def siblingPosition (props : DropProps) (offset : Point) (bounds : Rect) : DropPosition :=
  match props.orientation with
  | .column =>
    if offset.x < bounds.left + (bounds.right - bounds.left) / 2 then .left else .right
  | .row =>
    if offset.y < bounds.top + (bounds.bottom - bounds.top) / 2 then .top else .bottom

def boundaryPosition (props : DropProps) (offset : Point) (bounds : Rect) : DropPosition :=
  match props.orientation with
  | .column =>
    if |offset.x - bounds.left| < siblingDropThreshold then .left
    else if |offset.x - bounds.right| < siblingDropThreshold then .right
    else childPosition props
  | .row =>
    if |offset.y - bounds.top| < siblingDropThreshold then .top
    else if |offset.y - bounds.bottom| < siblingDropThreshold then .bottom
    else childPosition props

def farFromEdges (offset : Point) (bounds : Rect) : Bool :=
  [|offset.y - bounds.top|, |offset.y - bounds.bottom|, |offset.x - bounds.left|,
    |offset.x - bounds.right|].all fun delta => delta > nonShallowDropThreshold

def validChild (props : DropProps) (draggingItem : DraggingItem) : Bool :=
  isValidChild (props.component.map LayoutItem.type) props.depth draggingItem.type

def validSibling (props : DropProps) (draggingItem : DraggingItem) : Bool :=
  let parentType := props.parentComponent.map LayoutItem.type
  isValidChild parentType
    (props.depth + if parentType = some .tab ∨ parentType = some .tabs then 0 else -1)
      draggingItem.type

def getDropPosition (props : DropProps) (draggingItem : DraggingItem) (pointer : Pointer) :
    Option DropAnswer :=
  if props.component.map LayoutItem.id = some draggingItem.id then none
  else if !validChild props draggingItem && !validSibling props draggingItem then some .forbidden
  else if validChild props draggingItem && !validSibling props draggingItem then
    some (.at (childPosition props))
  else
    match pointer.offset, pointer.bounds with
    | some offset, some bounds =>
      if !pointer.isDraggingOverShallow && farFromEdges offset bounds then none
      else if !validChild props draggingItem then some (.at (siblingPosition props offset bounds))
      else some (.at (boundaryPosition props offset bounds))
    | _, _ => none

/-- Where the drop puts the component; `none` where the source throws. -/
def dropDestination (props : DropProps) (draggingItem : DraggingItem) : Option DropPlace :=
  if props.dropToChild draggingItem.type then
    props.component.map fun component =>
      { id := component.id, type := some component.type, index := component.children.length }
  else
    match props.parentComponent with
    | none =>
      props.component.map fun component =>
        { id := component.id, type := some component.type, index := props.index }
    | some parentComponent =>
      -- the "missing" index upon movement within the list
      let sameParentLowerIndex := draggingItem.parent.id = parentComponent.id
        ∧ draggingItem.parent.index < props.index
        ∧ some draggingItem.type ≠ props.component.map LayoutItem.type
      some { id := parentComponent.id, type := some parentComponent.type,
             index := if sameParentLowerIndex then props.index - 1 else props.index }

/-- The drop result that `onDrop` hands to `handleComponentDrop`. -/
def handleDrop (props : DropProps) (draggingItem : DraggingItem) (position : DropPosition) :
    Option DropResult :=
  (dropDestination props draggingItem).map fun destination =>
    { source := some draggingItem.parent
      destination :=
        some (if props.forceFirst then { destination with index := 0 } else destination)
      dragging := some ⟨draggingItem.id, draggingItem.type, draggingItem.metadata⟩
      position := some position }

def deleteEmptySource (source : DropPlace) (store : Store) : Store :=
  match store.layout.entry source.id with
  | none => store
  | some sourceComponent =>
    if (sourceComponent.type = .tabs ∨ sourceComponent.type = .row)
        ∧ sourceComponent.children.length = 0 then
      let parent := findParentIdWithCache store.cache source.id store.layout
      (Store.reduce { store with cache := parent.2 } (.deleteComponent source.id parent.1)).getD
        store
    else store

/-- The answer and the cache after it; `none` where the source throws. -/
def dropOverflowsParent (ids : NanoIds) (dropResult : DropResult) (store : Store) :
    Option (Bool × ParentCache) :=
  match dropResult.source, dropResult.destination, dropResult.dragging with
  | some source, some destination, some dragging =>
    (getComponentWidthFromDrop store.cache source destination
        (draggedComponent ids source dragging store.layout) store.layout).map fun result =>
      (match result.1 with
        | none => false
        | some childWidth => childWidth < 0, result.2)
  | _, _, _ => none

def nestsTopLevelTab (source destination : DropPlace) (layout : Layout) : Bool :=
  source.type = some .tabs && destination.type = some .tabs
    && (childrenOf layout dashboardRootId).head? = some source.id
    && (childrenOf layout dashboardRootId).head? ≠ some destination.id

def dispatchDrop (ids : NanoIds) (dropResult : DropResult) (store : Store) : Store :=
  match dropResult.source, dropResult.destination with
  | some source, some destination =>
    if destination.id = dashboardRootId then
      match store.reduce (.createTopLevelTabs dropResult ids) with
      | none => store
      | some next =>
        if source.id = newComponentsSourceId then next else deleteEmptySource source next
    else if source.id = newComponentsSourceId then
      (store.reduce (.createComponent dropResult ids)).getD store
    else if nestsTopLevelTab source destination store.layout then store
    else if destination.id = source.id ∧ destination.index = source.index then
      deleteEmptySource source store
    else
      match store.reduce (.moveComponent dropResult ids) with
      | none => store
      | some next => deleteEmptySource source next
  | _, _ => store

def handleComponentDrop (ids : NanoIds) (dropResult : DropResult) (store : Store) : Store :=
  match dropOverflowsParent ids dropResult store with
  | none => store
  | some (overflowsParent, cache) =>
    if overflowsParent then { store with cache := cache }
    else dispatchDrop ids dropResult { store with cache := cache }

def topLevelTabs (layout : Layout) : Option LayoutItem :=
  match (childrenOf layout dashboardRootId).head? with
  | none => layout.entry "undefined"
  | some rootChildId => if rootChildId ≠ dashboardGridId then layout.entry rootChildId else none

def gridIds (layout : Layout) : List String :=
  match topLevelTabs layout with
  | none => [dashboardGridId]
  | some tabs => tabs.children

/-- `DashboardComponent` renders the component at a depth.  The content of top-level tabs
is shown by the grids instead. -/
inductive OnPage (layout : Layout) : LayoutItem → Int → Prop
  | topLevel {tabs : LayoutItem} : topLevelTabs layout = some tabs →
      OnPage layout tabs (dashboardRootDepth + 1)
  | inGrid {gridComponent component : LayoutItem} {gridId id : String} : gridId ∈ gridIds layout →
      layout.entry gridId = some gridComponent → id ∈ gridComponent.children →
      layout.entry id = some component → OnPage layout component (dashboardRootDepth + 2)
  | inRow {row component : LayoutItem} {depth : Int} {id : String} : OnPage layout row depth →
      row.type = .row → id ∈ row.children → layout.entry id = some component →
      OnPage layout component (depth + 1)
  | inColumn {column component : LayoutItem} {depth : Int} {id : String} :
      OnPage layout column depth →
      column.type = .column → id ∈ column.children → layout.entry id = some component →
      OnPage layout component (depth + 1)
  | inTabs {tabs component : LayoutItem} {depth : Int} {id : String} : OnPage layout tabs depth →
      tabs.type = .tabs → id ∈ tabs.children → layout.entry id = some component →
      (topLevelTabs layout).map LayoutItem.id ≠ some tabs.id → OnPage layout component depth
  | inTab {tab component : LayoutItem} {depth : Int} {id : String} : OnPage layout tab depth →
      tab.type = .tab → id ∈ tab.children → layout.entry id = some component →
      OnPage layout component depth

inductive Target where
  | root (rootComponent : LayoutItem)
  | gridTop (gridComponent : LayoutItem)
  | gridAfter (gridComponent : LayoutItem) (index : Nat)
  | rowStart (rowComponent : LayoutItem) (depth : Int)
  | rowAfter (rowComponent : LayoutItem) (depth : Int) (itemIndex : Nat)
  | columnStart (columnComponent : LayoutItem) (depth : Int)
  | columnAfter (columnComponent : LayoutItem) (depth : Int) (itemIndex : Nat)
  | tabTop (tabComponent : LayoutItem) (depth : Int)
  | tabAfter (tabComponent : LayoutItem) (depth : Int) (componentIndex : Nat)
  | tabTitle (tabComponent tabsComponent : LayoutItem) (depth : Int) (index : Nat)

def startProps (component : LayoutItem) (depth : Int) (orientation : Orientation) : DropProps :=
  if component.children.length = 0 then
    { component := some component, parentComponent := some component, depth, index := 0,
      orientation, dropToChild := fun _ => true, forceFirst := false }
  else
    { component := none, parentComponent := some component, depth, index := 0, orientation,
      dropToChild := fun _ => false, forceFirst := false }

def afterProps (component : LayoutItem) (depth : Int) (itemIndex : Nat)
    (orientation : Orientation) :
    DropProps :=
  { component := none, parentComponent := some component, depth, index := itemIndex + 1,
    orientation, dropToChild := fun _ => false, forceFirst := false }

def Target.props : Target → DropProps
  | .root rootComponent =>
    { component := some rootComponent, parentComponent := none, depth := dashboardRootDepth,
      index := 0, orientation := .column, dropToChild := fun _ => false, forceFirst := false }
  | .gridTop gridComponent =>
    { component := some gridComponent, parentComponent := none, depth := dashboardRootDepth + 1,
      index := 0, orientation := .column,
      dropToChild := fun _ => gridComponent.children.length = 0, forceFirst := true }
  | .gridAfter gridComponent index =>
    { component := some gridComponent, parentComponent := none, depth := dashboardRootDepth + 1,
      index := index + 1, orientation := .column, dropToChild :=
        fun _ => false, forceFirst := false }
  | .rowStart rowComponent depth => startProps rowComponent depth .row
  | .rowAfter rowComponent depth itemIndex => afterProps rowComponent depth itemIndex .row
  | .columnStart columnComponent depth => startProps columnComponent depth .column
  | .columnAfter columnComponent depth itemIndex =>
    afterProps columnComponent depth itemIndex .column
  | .tabTop tabComponent depth =>
    { component := some tabComponent, parentComponent := none, depth, index := 0,
      orientation := .column, dropToChild := fun _ => tabComponent.children.length = 0,
      forceFirst := tabComponent.children.length = 0 }
  | .tabAfter tabComponent depth componentIndex =>
    { component := some tabComponent, parentComponent := none, depth, index := componentIndex + 1,
      orientation := .column, dropToChild := fun _ => false, forceFirst := false }
  | .tabTitle tabComponent tabsComponent depth index =>
    { component := some tabComponent, parentComponent := some tabsComponent, depth, index,
      orientation := .column, dropToChild := fun type => type ≠ .tab, forceFirst := false }

def Rendered (layout : Layout) : Target → Prop
  | .root rootComponent =>
    topLevelTabs layout = none ∧ layout.entry dashboardRootId = some rootComponent
  | .gridTop gridComponent =>
    ∃ id ∈ gridIds layout, layout.entry id = some gridComponent
  | .gridAfter gridComponent index =>
    (∃ id ∈ gridIds layout, layout.entry id = some gridComponent) ∧
      index < gridComponent.children.length
  | .rowStart rowComponent depth => OnPage layout rowComponent depth ∧ rowComponent.type = .row
  | .rowAfter rowComponent depth itemIndex =>
    OnPage layout rowComponent depth ∧ rowComponent.type = .row
      ∧ itemIndex < rowComponent.children.length
  | .columnStart columnComponent depth =>
    OnPage layout columnComponent depth ∧ columnComponent.type = .column
  | .columnAfter columnComponent depth itemIndex =>
    OnPage layout columnComponent depth ∧ columnComponent.type = .column
      ∧ itemIndex < columnComponent.children.length
  | .tabTop tabComponent depth => OnPage layout tabComponent depth ∧ tabComponent.type = .tab
  | .tabAfter tabComponent depth componentIndex =>
    OnPage layout tabComponent depth ∧ tabComponent.type = .tab
      ∧ componentIndex < tabComponent.children.length
  | .tabTitle tabComponent tabsComponent depth index =>
    OnPage layout tabsComponent depth ∧ tabsComponent.type = .tabs ∧ tabComponent.type = .tab
      ∧ ∃ id, tabsComponent.children[index]? = some id ∧ layout.entry id = some tabComponent

def Target.container (target : Target) (type : ComponentType) : LayoutItem :=
  match target with
  | .root rootComponent => rootComponent
  | .gridTop gridComponent => gridComponent
  | .gridAfter gridComponent _ => gridComponent
  | .rowStart rowComponent _ => rowComponent
  | .rowAfter rowComponent _ _ => rowComponent
  | .columnStart columnComponent _ => columnComponent
  | .columnAfter columnComponent _ _ => columnComponent
  | .tabTop tabComponent _ => tabComponent
  | .tabAfter tabComponent _ _ => tabComponent
  | .tabTitle tabComponent tabsComponent _ _ => if type = .tab then tabsComponent else tabComponent

def componentLookup : List ComponentType :=
  [.chart, .markdown, .column, .divider, .header, .row, .tab, .tabs, .dynamic]

/-- The item is of a component on the page or of the title of a tab, and names the place
it really has. -/
structure Dragged (layout : Layout) (item : DraggingItem) : Prop where
  onPage : (∃ component depth, OnPage layout component depth ∧ component.id = item.id)
    ∨ ∃ tabs depth, OnPage layout tabs depth ∧ tabs.type = .tabs ∧ item.id ∈ tabs.children
  drawn : item.type ∈ componentLookup
  existing : item.parent.id ≠ newComponentsSourceId
  named : NamesDragged layout item.parent ⟨item.id, item.type, item.metadata⟩

end Liteset.Dashboard
