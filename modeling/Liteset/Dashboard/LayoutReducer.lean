import Liteset.Dashboard.LayoutItem

/-!
# The layout reducer

The handlers of `layoutReducer` that create, move and delete components.  A handler
gives `none` where the source throws, or where what it returns is no layout any
more: a list of children with `undefined` in it, or a component without an id.
-/

set_option autoImplicit false

namespace Liteset.Dashboard

open Lib
open Lib.JsObject (Record)
open Lib.JsArray (item setItem splice spliceStart)

/-- What `nanoid()` returns to the factories a handler may call. -/
structure NanoIds where
  child : String
  probe : String
  row : String
  tab : String

inductive Action where
  | createComponent (dropResult : DropResult) (ids : NanoIds)
  | moveComponent (dropResult : DropResult) (ids : NanoIds)
  | deleteComponent (id : String) (parentId : Option String)
  | createTopLevelTabs (dropResult : DropResult) (ids : NanoIds)
  | deleteTopLevelTabs

def removeFromParent (componentId parentKey : String) (nextComponents : Layout) : Layout :=
  match nextComponents.entry parentKey with
  | none => nextComponents
  | some parent =>
    if componentId ∈ parent.children then
      nextComponents.set parentKey { parent with children := parent.children.erase componentId }
    else nextComponents

/-- Every call deletes a key before it recurs, so `fuel` need not exceed their number. -/
def deleteWithin : Nat → String → String → Layout → Layout
  | 0, _, _, nextComponents => nextComponents
  | fuel + 1, componentId, parentKey, nextComponents =>
    match nextComponents.entry componentId with
    | none => nextComponents
    | some component =>
      removeFromParent componentId parentKey
        (component.children.foldl (fun next childId => deleteWithin fuel childId componentId next)
          (nextComponents.delete componentId))

def recursivelyDeleteChildren (componentId : String) (componentParentId : Option String)
    (nextComponents : Layout) : Layout :=
  deleteWithin nextComponents.keys.length componentId (idKey componentParentId) nextComponents

def deleteEmptyRow (cache : ParentCache) (parentId : String) (nextComponents : Layout) :
    Layout × ParentCache :=
  match nextComponents.entry parentId with
  | none => (nextComponents, cache)
  | some nextParent =>
    if nextParent.type = .row ∧ nextParent.children.length = 0 then
      let grandparent := findParentIdWithCache cache parentId nextComponents
      (recursivelyDeleteChildren parentId grandparent.1 nextComponents, grandparent.2)
    else (nextComponents, cache)

def deleteComponent (cache : ParentCache) (id : String) (parentId : Option String)
    (state : Layout) :
    Layout × ParentCache :=
  match parentId with
  | none => (state, cache)
  | some parentId =>
    if parentId = "" ∨ id = "" ∨ state.entry id = none ∨ state.entry parentId = none then
      (state, cache)
    else deleteEmptyRow cache parentId (recursivelyDeleteChildren id (some parentId) state)

def pathBelow (dropEntity : LayoutItem) : List String := dropEntity.parents ++ [dropEntity.id]

def draggedComponent (ids : NanoIds) (source : DropPlace) (dragging : Dragging)
    (components : Layout) :
    Option LayoutItem :=
  if source.id = newComponentsSourceId then
    some (newComponentFactory dragging.type JsObject.empty ids.probe)
  else components.entry dragging.id

def newDropChild (ids : NanoIds) (dragging : Dragging) (dropEntity : LayoutItem) : LayoutItem :=
  { newComponentFactory dragging.type dragging.metadata ids.child with
    parents := pathBelow dropEntity }

def sizedDropChild (cache : ParentCache) (ids : NanoIds) (source : Option DropPlace)
    (destination : DropPlace) (dragging : Dragging) (dropEntity : LayoutItem) (layout : Layout) :
    Option (LayoutItem × ParentCache) :=
  if componentIsResizable dragging.type then
    match source with
    | none => none
    | some source =>
      match getComponentWidthFromDrop cache source destination
          (draggedComponent ids source dragging layout) layout with
      | none => none
      | some (width, cache) =>
        some ({ newDropChild ids dragging dropEntity with
                metadata := withWidth (newDropChild ids dragging dropEntity).metadata
                  (nonzeroWidth width) }, cache)
  else some (newDropChild ids dragging dropEntity, cache)

def rowWrapper (ids : NanoIds) (dropEntity child : LayoutItem) : LayoutItem :=
  { newComponentFactory .row JsObject.empty ids.row with
    children := [child.id], parents := pathBelow dropEntity }

def tabChild (ids : NanoIds) (dropEntity : LayoutItem) : LayoutItem :=
  { newComponentFactory .tab JsObject.empty ids.tab with parents := pathBelow dropEntity }

def entitiesAround (ids : NanoIds) (dragType : ComponentType) (dropEntity child : LayoutItem) :
    Record LayoutItem × String :=
  if shouldWrapChildInRow dropEntity.type dragType then
    ((Record.empty.set child.id
        { child with
          parents := (rowWrapper ids dropEntity child).parents ++
            [(rowWrapper ids dropEntity child).id] }).set
      (rowWrapper ids dropEntity child).id (rowWrapper ids dropEntity child),
      (rowWrapper ids dropEntity child).id)
  else if dragType = .tabs then
    ((Record.empty.set child.id { child with children := [(tabChild ids dropEntity).id] }).set
      (tabChild ids dropEntity).id (tabChild ids dropEntity), child.id)
  else (Record.empty.set child.id child, child.id)

def newEntitiesFromDrop (cache : ParentCache) (ids : NanoIds) (dropResult : DropResult)
    (layout : Layout) : Option (Record LayoutItem × ParentCache) :=
  match dropResult.dragging, dropResult.destination with
  | some dragging, some destination =>
    match layout.entry destination.id with
    | none => none
    | some dropEntity =>
      match sizedDropChild cache ids dropResult.source destination dragging dropEntity layout with
      | none => none
      | some (child, cache) =>
        some ((entitiesAround ids dragging.type dropEntity child).1.set destination.id
          { dropEntity with
            children := splice dropEntity.children destination.index 0
              [(entitiesAround ids dragging.type dropEntity child).2] }, cache)
  | _, _ => none

def createComponent (cache : ParentCache) (ids : NanoIds) (dropResult : DropResult)
    (state : Layout) :
    Option (Layout × ParentCache) :=
  match newEntitiesFromDrop cache ids dropResult state with
  | none => none
  | some (newEntities, cache) => some (Record.spread state newEntities, cache)

/-- `none` when nothing is at `startIndex`, for then `undefined` is put at `endIndex`. -/
def reorder (list : List String) (startIndex endIndex : Int) : Option (List String) :=
  match list[spliceStart list startIndex]? with
  | none => none
  | some removed => some (splice (splice list startIndex 1 []) endIndex 0 [removed])

def isTabsType (source destination : DropPlace) : Bool :=
  source.type.isSome && destination.type = some .tabs

def sameTabSourceIndex (source destination : DropPlace) (position : Option DropPosition) : Bool :=
  (position = some .right && source.index = destination.index + 1)
    || (position = some .left && source.index = destination.index - 1)

def dropIndexInSameTabs (source destination : DropPlace) (position : Option DropPosition) : Int :=
  let dropIndex :=
    match position with
    | some .left => max destination.index 0
    | some .right => destination.index + 1
    | _ => destination.index
  if dropIndex > source.index then dropIndex - 1 else dropIndex

def dropIndexInOtherTabs (currentLength : Nat) (destination : DropPlace)
    (position : Option DropPosition) : Int :=
  match position with
  | some .left => max destination.index 0
  | some .right => min (destination.index + 1) (currentLength - 1)
  | _ => destination.index

def reorderSameList (entitiesMap : Layout) (source destination : DropPlace)
    (position : Option DropPosition) (container : LayoutItem) : Option Layout :=
  if isTabsType source destination && sameTabSourceIndex source destination position then
    some entitiesMap
  else
    match reorder container.children source.index
        (if isTabsType source destination then dropIndexInSameTabs source destination position
          else destination.index) with
    | none => none
    | some reordered => some (entitiesMap.set source.id { container with children := reordered })

def reorderItem (entitiesMap : Layout) (source destination : DropPlace)
    (position : Option DropPosition) : Option Layout :=
  match entitiesMap.entry source.id, entitiesMap.entry destination.id with
  | some current, some next =>
    if source.id = destination.id then
      reorderSameList entitiesMap source destination position current
    else
      match item current.children source.index with
      | none => none
      | some target =>
        some ((entitiesMap.set source.id
            { current with children := splice current.children source.index 1 [] }).set
          destination.id
            { next with
              children := splice next.children
                (if isTabsType source destination then
                    dropIndexInOtherTabs current.children.length destination position
                  else destination.index) 0 [target] })
  | _, _ => none

def resizeDragged (cache : ParentCache) (ids : NanoIds) (source destination : DropPlace)
    (dragging : Dragging) (state nextEntities : Layout) : Option (Layout × ParentCache) :=
  match nextEntities.entry dragging.id with
  | none => none
  | some dragged =>
    if componentIsResizable dragged.type then
      match getComponentWidthFromDrop cache source destination
          (draggedComponent ids source dragging state) state with
      | none => none
      | some (width, cache) =>
        if widthOf dragged.metadata ≠ nonzeroWidth width then
          some (nextEntities.set dragging.id
            { dragged with metadata := withWidth dragged.metadata (nonzeroWidth width) }, cache)
        else some (nextEntities, cache)
    else some (nextEntities, cache)

def newRow (ids : NanoIds) (destinationEntity : LayoutItem) (destinationId childId : String) :
    LayoutItem :=
  { newComponentFactory .row JsObject.empty ids.row with
    children := [childId], parents := destinationEntity.parents ++ [destinationId] }

def wrapInRow (ids : NanoIds) (destination : DropPlace) (nextEntities : Layout) : Option Layout :=
  match nextEntities.entry destination.id with
  | none => none
  | some destinationEntity =>
    match item destinationEntity.children destination.index with
    | none => none
    | some childId =>
      some ((nextEntities.set destination.id
          { destinationEntity with
            children := setItem destinationEntity.children destination.index
              (newRow ids destinationEntity destination.id childId).id }).set
        (newRow ids destinationEntity destination.id childId).id
        (newRow ids destinationEntity destination.id childId))

def wrapsDropped (destination : DropPlace) (dragging : Dragging) : Bool :=
  match destination.type with
  | none => false
  | some parentType => shouldWrapChildInRow parentType dragging.type

def moveComponent (cache : ParentCache) (ids : NanoIds) (dropResult : DropResult) (state : Layout) :
    Option (Layout × ParentCache) :=
  match dropResult.source, dropResult.destination, dropResult.dragging with
  | some source, some destination, some dragging =>
    match reorderItem state source destination dropResult.position with
    | none => none
    | some reordered =>
      match resizeDragged cache ids source destination dragging state reordered with
      | none => none
      | some (nextEntities, cache) =>
        -- `nextEntities` has every key of `state`, so that spreading it over `state` is it
        if wrapsDropped destination dragging then
          match wrapInRow ids destination nextEntities with
          | none => none
          | some wrapped => some (wrapped, cache)
        else some (nextEntities, cache)
  | _, _, _ => some (state, cache)

/-- The key read by `state[children[0]]`. -/
def firstKey (children : List String) : String := children.head?.getD "undefined"

def raiseExistingTabs (draggingId : String) (rootComponent topLevelComponent : LayoutItem)
    (state : Layout) : Option Layout :=
  match state.entry draggingId with
  | none => none
  | some draggingTabs =>
    match state.entry (firstKey draggingTabs.children) with
    | none => none
    | some draggingTab =>
      some (((state.set dashboardRootId { rootComponent with children := [draggingId] }).set
          (firstKey rootComponent.children) { topLevelComponent with children := [] }).set
        (firstKey draggingTabs.children)
          { draggingTab with
            children := draggingTab.children
              ++ topLevelComponent.children.filter fun id => id ≠ draggingId })

/-- The first key of the entities, in the order of `Object.values`, with this type. -/
def findOfType (entities : Record LayoutItem) (type : ComponentType) : Option String :=
  (Record.enumerate entities.keys).find? fun key =>
    match entities.entry key with
    | none => false
    | some component => component.type = type

def raiseNewTabs (rootComponent topLevelComponent : LayoutItem) (newEntities : Record LayoutItem)
    (state : Layout) : Option Layout :=
  match findOfType newEntities .tab, findOfType newEntities .tabs with
  | some tabKey, some tabsKey =>
    match newEntities.entry tabKey, newEntities.entry tabsKey with
    | some tabComponent, some tabsComponent =>
      some (Record.spread state
        (((newEntities.set tabKey { tabComponent with children := topLevelComponent.children }).set
            (firstKey rootComponent.children) { topLevelComponent with children := [] }).set
          dashboardRootId { rootComponent with children := [tabsComponent.id] }))
    | _, _ => none
  | _, _ => none

def createTopLevelTabs (cache : ParentCache) (ids : NanoIds) (dropResult : DropResult)
    (state : Layout) : Option (Layout × ParentCache) :=
  match state.entry dashboardRootId, dropResult.source, dropResult.dragging with
  | some rootComponent, some source, some dragging =>
    if source.id ≠ newComponentsSourceId then
      match state.entry (firstKey rootComponent.children) with
      | none => none
      | some topLevelComponent =>
        (raiseExistingTabs dragging.id rootComponent topLevelComponent state).map fun next =>
          (next, cache)
    else
      match newEntitiesFromDrop cache ids dropResult state with
      | none => none
      | some (newEntities, cache) =>
        match state.entry (firstKey rootComponent.children) with
        | none => none
        | some topLevelComponent =>
          (raiseNewTabs rootComponent topLevelComponent newEntities state).map fun next =>
            (next, cache)
  | _, _, _ => none

def childrenToMove (state : Layout) : List String → Option (List String)
  | [] => some []
  | tabId :: rest =>
    match state.entry tabId with
    | none => none
    | some tabComponent =>
      (childrenToMove state rest).map fun moved => tabComponent.children ++ moved

def deleteTopLevelTabs (state : Layout) : Option Layout :=
  match state.entry dashboardRootId with
  | none => none
  | some rootComponent =>
    match state.entry (firstKey rootComponent.children) with
    | none => none
    | some topLevelTabs =>
      if topLevelTabs.type ≠ .tabs then some state
      else
        match childrenToMove state topLevelTabs.children, state.entry dashboardGridId with
        | some moved, some grid =>
          some ((((topLevelTabs.children.foldl Record.delete state).delete
              (firstKey rootComponent.children)).set
            dashboardRootId { rootComponent with children := [dashboardGridId] }).set
          dashboardGridId { grid with children := moved })
        | _, _ => none

def layoutReducer (cache : ParentCache) (state : Layout) : Action → Option (Layout × ParentCache)
  | .createComponent dropResult ids => createComponent cache ids dropResult state
  | .moveComponent dropResult ids => moveComponent cache ids dropResult state
  | .deleteComponent id parentId => some (deleteComponent cache id parentId state)
  | .createTopLevelTabs dropResult ids => createTopLevelTabs cache ids dropResult state
  | .deleteTopLevelTabs => (deleteTopLevelTabs state).map fun next => (next, cache)

structure Store where
  layout : Layout
  cache : ParentCache

def Store.reduce (store : Store) (action : Action) : Option Store :=
  (layoutReducer store.cache store.layout action).map fun next =>
    { layout := next.1, cache := next.2 }

end Liteset.Dashboard
