import Liteset.SqlLab.Edits

/-!
# The initial state of SQL Lab

`getInitialState` joins the tabs of the backend with what the browser kept in its
local storage.  Editors are collected under `tabViewId ?? id`, while the tab
history holds ids.  The tables and queries of the initial state are taken as
given.
-/

set_option autoImplicit false

namespace Liteset.SqlLab

open Liteset.Lib Liteset.Lib.JsObject

/-- An item of `tab_state_ids`. -/
structure TabStateId where
  id : Int
  label : Value

/-- `active_tab` of the bootstrap data. -/
structure ActiveTab where
  id : Int
  label : Value
  sql : Value
  latestQueryId : Value
  savedQueryId : Value
  autorun : Value
  templateParams : Value
  databaseId : Value
  catalog : Value
  schema : Value
  queryLimit : Value
  hideLeftBar : Value
  /-- `extra_json.version`, `extra_json.immutableId` and `extra_json.updatedAt` -/
  version : Value
  immutableId : Value
  updatedAt : Value

structure Bootstrap where
  tabStateIds : List TabStateId
  activeTab : Option ActiveTab
  defaultQueryLimit : Value
  /-- `nanoid(11)` for the immutable id of a tab. -/
  nanoid : Int → String
  tables : List Object
  queries : Queries

/-- `sqlLab` of the local storage, when there is one that can be read. -/
structure Persisted where
  queryEditors : List Object
  unsavedQueryEditor : Option Object
  tabHistory : List Json
  destroyedQueryEditors : List (String × Json)

def queryEditorVersionV1 : Value := number 1

def latestQueryEditorVersion : Value := number 1

def activeEditor (boot : Bootstrap) (tab : ActiveTab) : Object :=
  ofList
    [("version", nullish tab.version queryEditorVersionV1), ("id", text (toString tab.id)),
     ("immutableId", nullish tab.immutableId (text (boot.nanoid tab.id))),
     ("loaded", some (.bool true)), ("name", tab.label), ("sql", either tab.sql (text "")),
     ("selectedText", undefined), ("latestQueryId", nullish tab.latestQueryId (some .null)),
     ("remoteId", either tab.savedQueryId (some .null)),
     ("autorun", some (.bool (truthy tab.autorun))),
     ("templateParams", either tab.templateParams undefined), ("dbId", tab.databaseId),
     ("catalog", tab.catalog), ("schema", tab.schema), ("queryLimit", tab.queryLimit),
     ("hideLeftBar", tab.hideLeftBar), ("updatedAt", tab.updatedAt)]

/-- `dummy state, actual state will be loaded on tab switch` -/
def dummyEditor (boot : Bootstrap) (tab : TabStateId) : Object :=
  ofList
    [("version", latestQueryEditorVersion), ("immutableId", text (boot.nanoid tab.id)),
     ("loaded", some (.bool false)), ("name", tab.label), ("sql", text ""),
     ("latestQueryId", some .null), ("autorun", some (.bool false)), ("dbId", undefined),
     ("queryLimit", boot.defaultQueryLimit), ("hideLeftBar", some (.bool false)),
     ("remoteId", some .null),
     ("cursorPosition", some (.object [("column", .int 0), ("row", .int 0)])),
     ("id", text (toString tab.id))]

def backendEditor (boot : Bootstrap) (tab : TabStateId) : Object :=
  match boot.activeTab with
  | some active => if active.id = tab.id then activeEditor boot active else dummyEditor boot tab
  | none => dummyEditor boot tab

def backendEditors (boot : Bootstrap) : Record Object :=
  boot.tabStateIds.foldl (fun editors tab =>
    editors.set (toString tab.id) (backendEditor boot tab)) Record.empty

/-- `a > b` on numbers. -/
def greater (a b : Value) : Bool :=
  match a, b with
  | some x, some y =>
    match x.number, y.number with
    | some p, some q => decide (q < p)
    | _, _ => false
  | _, _ => false

/-- `hasUnsavedUpdateSinceLastSave` -/
def updatedSince (qe : Object) (unsavedUpdatedAt : Value) : Bool :=
  truthy (get qe "updatedAt")
    && (!truthy unsavedUpdatedAt || greater (get qe "updatedAt") unsavedUpdatedAt)

def recordKey (qe : Object) : String := propertyKey (editorKey qe)

def cachedEditor (backend : Option Object) (qe : Object) : Object :=
  match backend with
  | none => qe
  | some existing => if updatedSince qe (get existing "updatedAt") then qe else empty

def mergedEditor (backend : Option Object) (unsaved qe : Object) : Object :=
  let existing := backend.getD empty
  let cached := cachedEditor backend qe
  spread (spread (spread (spread existing cached)
    (single "name" (either (either (get cached "title") (get cached "name"))
      (get existing "name"))))
    (spreadIf (truthy (get cached "id") = true ∧ get unsaved "id" = get qe "id") unsaved))
    (ofList [("inLocalStorage", some (.bool backend.isNone)), ("loaded", some (.bool true))])

def mergeEditors (unsaved : Object) (editors : Record Object) (persisted : List Object) :
    Record Object :=
  persisted.foldl (fun editors qe =>
    editors.set (recordKey qe) (mergedEditor (editors.entry (recordKey qe)) unsaved qe)) editors

def Persisted.isMerged (p : Persisted) : Bool :=
  !(p.queryEditors.isEmpty && p.destroyedQueryEditors.isEmpty)

/-- `sqlLab.destroyedQueryEditors?.[tabId]` -/
def Persisted.destroyed (p : Persisted) (key : String) : Value :=
  (p.destroyedQueryEditors.find? fun d => d.1 = key).map Prod.snd

def Persisted.keptHistory (p : Persisted) : List Value :=
  (p.tabHistory.map some).filter fun tabId => !truthy (p.destroyed (propertyKey tabId))

def dedupeTabHistory (tabHistory : List Value) : List Value :=
  tabHistory.foldl (fun result tabId =>
    if (result.getLast?).getD undefined = tabId then result
    else result ++ [tabId]) []

def backendHistory (boot : Bootstrap) : List Value :=
  (boot.activeTab.map fun tab => text (toString tab.id)).toList

def allEditors (boot : Bootstrap) (p : Persisted) : Record Object :=
  p.destroyedQueryEditors.foldl (fun editors d => editors.delete d.1)
    (mergeEditors (p.unsavedQueryEditor.getD empty) (backendEditors boot) p.queryEditors)

/-- `getInitialState(…).sqlLab`.  `storage` is `none` when the local storage has no
readable state. -/
def getInitialState (boot : Bootstrap) (storage : Option Persisted) (now : Int) : State :=
  match storage.filter Persisted.isMerged with
  | none =>
    { queryEditors := (backendEditors boot).values
      unsavedQueryEditor := empty
      tabHistory := dedupeTabHistory (backendHistory boot)
      tables := boot.tables
      queries := boot.queries
      queriesLastUpdate := now
      destroyedQueryEditors := empty }
  | some p =>
    { queryEditors := (allEditors boot p).values
      unsavedQueryEditor := p.unsavedQueryEditor.getD empty
      tabHistory := dedupeTabHistory (backendHistory boot ++ p.keptHistory)
      tables := boot.tables
      queries := boot.queries
      queriesLastUpdate := now
      destroyedQueryEditors := ofList (p.destroyedQueryEditors.map fun d => (d.1, some d.2)) }

end Liteset.SqlLab
