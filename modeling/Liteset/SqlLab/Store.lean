import Liteset.Lib.JsObject

/-!
# The store of SQL Lab

The actions of `SqlLab/reducers/sqlLab.js` that touch query editors, the tab
history and queries, with the helpers of `reduxUtils.ts` they are built from.
The current content of a tab is its entry in `queryEditors` overlaid with
`unsavedQueryEditor` while that has the same id.

A reducer that throws leaves the state as it is; `now` is the clock at the
dispatch.
-/

set_option autoImplicit false

namespace Liteset.SqlLab

open Liteset.Lib Liteset.Lib.JsObject

scoped instance instLawfulBEqField : LawfulBEq (Option Json) := inferInstance

/-- `queries`, from query ids. -/
abbrev Queries := String → Option Object

structure State where
  queryEditors : List Object
  unsavedQueryEditor : Object
  tabHistory : List Value
  tables : List Object
  queries : Queries
  queriesLastUpdate : Int
  destroyedQueryEditors : Object

/-- `alterInArr` on the items of a list. -/
def alterInArr (items : List Object) (obj alterations : Object) (idKey : String) : List Object :=
  items.map fun item =>
    if get obj idKey = get item idKey then spread item alterations else item

/-- `removeFromArr` on the items of a list. -/
def removeFromArr (items : List Object) (obj : Object) : List Object :=
  items.filter fun item => get obj "id" ≠ get item "id"

/-- `getFromArr`: the last item with the id. -/
def getFromArr (items : List Object) (id : Value) (idKey : String) : Option Object :=
  items.reverse.find? fun item => get item idKey = id

/-- `alterInObject` on `queries`. -/
def alterInObject (queries : Queries) (obj alterations : Object) : Queries := fun k =>
  if k = propertyKey (get obj "id") then some (spread ((queries k).getD empty) alterations)
  else queries k

/-- `addToObject` on `queries`, for an object that has an id. -/
def addToObject (queries : Queries) (obj : Object) : Queries := fun k =>
  if k = propertyKey (get obj "id") then some obj else queries k

/-- `qe.tabViewId ?? qe.id` -/
def editorKey (qe : Object) : Value := nullish (get qe "tabViewId") (get qe "id")

/-- `state.tabHistory[state.tabHistory.length - 1]` -/
def activeTab (s : State) : Value := (s.tabHistory.getLast?).getD undefined

def findEditor (s : State) (id : Value) : Option Object :=
  s.queryEditors.find? fun qe => get qe "id" = id

/-- `getUpToDateQuery` -/
def upToDateQuery (s : State) (id : Value) : Object :=
  spread (spread (single "id" id) ((findEditor s id).getD empty))
    (spreadIf (id = get s.unsavedQueryEditor "id") s.unsavedQueryEditor)

def mergeUnsaved (s : State) : List Object :=
  alterInArr s.queryEditors s.unsavedQueryEditor s.unsavedQueryEditor "id"

def alterUnsavedQueryEditorState (now : Int) (s : State) (updatedState : Object) (id : Value)
    (silent : Bool) : State :=
  if activeTab s ≠ id then
    { s with queryEditors := alterInArr s.queryEditors (single "id" id) updatedState "id" }
  else
    { s with
      unsavedQueryEditor :=
        spread
          (spread (spreadIf (get s.unsavedQueryEditor "id" = id) s.unsavedQueryEditor)
            (if truthy id then spread (single "id" id) updatedState else s.unsavedQueryEditor))
          (spreadIf (silent = false) (single "updatedAt" (number now))) }

/-- `addQueryEditor`: the editor an ADD_QUERY_EDITOR action carries. -/
def newQueryEditor (queryEditor : Object) (id immutableId : String) : Object :=
  spread queryEditor (ofList
    [("id", text id), ("immutableId", text immutableId), ("loaded", some (.bool true)),
     ("inLocalStorage", some (.bool true))])

def addQueryEditor (now : Int) (s : State) (queryEditor : Object) : State :=
  { s with
    queryEditors := mergeUnsaved s ++ [spread queryEditor (single "updatedAt" (number now))]
    tabHistory := s.tabHistory ++ [get queryEditor "id"] }

/-- `value ? value : null` -/
def orNull (value : Value) : Value := if truthy value then value else some .null

def clonedQueryEditor (s : State) (queryEditor query : Object) : Object :=
  let progenitor := spread queryEditor
    (spreadIf (get s.unsavedQueryEditor "id" = get queryEditor "id") s.unsavedQueryEditor)
  ofList
    [("remoteId", get progenitor "remoteId"),
     ("name", text ("Copy of " ++ propertyKey (get progenitor "name"))),
     ("dbId", orNull (get query "dbId")), ("catalog", orNull (get query "catalog")),
     ("schema", orNull (get query "schema")), ("autorun", some (.bool true)),
     ("sql", get query "sql"), ("queryLimit", get query "queryLimit"),
     ("maxRow", get query "maxRow")]

def cloneQueryToNewTab (now : Int) (s : State) (query : Object) (id immutableId : String) :
    Option State :=
  match findEditor s (activeTab s) with
  | none => none
  | some queryEditor =>
    some (addQueryEditor now { s with unsavedQueryEditor := empty }
      (newQueryEditor (clonedQueryEditor s queryEditor query) id immutableId))

def removeQueryEditor (now : Int) (s : State) (removed : Object) : State :=
  let queryEditor := spread removed
    (spreadIf (get removed "id" = get s.unsavedQueryEditor "id") s.unsavedQueryEditor)
  let queryEditors := removeFromArr s.queryEditors queryEditor
  let qeIds := queryEditors.map editorKey
  let tabHistory := s.tabHistory.filter fun id => id ∈ qeIds
  { s with
    queryEditors := queryEditors
    queries := fun k => (s.queries k).filter fun query => get query "sqlEditorId" ∈ qeIds
    tables := s.tables.filter fun table => get table "queryEditorId" ≠ editorKey queryEditor
    tabHistory :=
      if tabHistory = [] then (queryEditors.getLast?.map fun qe => get qe "id").toList
      else tabHistory
    unsavedQueryEditor :=
      spreadIf (get removed "id" ≠ get s.unsavedQueryEditor "id") s.unsavedQueryEditor
    destroyedQueryEditors :=
      spread s.destroyedQueryEditors (spreadIf (truthy (get queryEditor "inLocalStorage") = false)
        (single (propertyKey (editorKey queryEditor)) (number now))) }

def setActiveQueryEditor (s : State) (queryEditor : Object) : State :=
  if get queryEditor "id" ∈ s.queryEditors.map (fun qe => get qe "id")
      ∧ activeTab s ≠ get queryEditor "id" then
    { s with
      queryEditors :=
        if get queryEditor "id" = get s.unsavedQueryEditor "id" then
          alterInArr (mergeUnsaved s) queryEditor (spread queryEditor s.unsavedQueryEditor) "id"
        else mergeUnsaved s
      unsavedQueryEditor := empty
      tabHistory := s.tabHistory ++ [get queryEditor "id"] }
  else s

def loadQueryEditor (s : State) (queryEditor : Object) : State :=
  { s with queryEditors := alterInArr (mergeUnsaved s) queryEditor queryEditor "id" }

/-- `newQueryEditor` of `syncQueryEditor` -/
def syncedQueryEditor (queryEditor : Object) (tabViewId : String) : Object :=
  spread queryEditor (ofList
    [("inLocalStorage", some (.bool false)), ("loaded", some (.bool true)),
     ("tabViewId", text tabViewId)])

def migrateQueryEditor (s : State) (oldQueryEditor : Object) (tabViewId : String) : State :=
  { s with
    queryEditors := alterInArr s.queryEditors oldQueryEditor
      (syncedQueryEditor oldQueryEditor tabViewId) "id" }

def queryEditorSaved (s : State) (name remoteId clientId : Value) : Option State :=
  match findEditor s clientId with
  | none => if s.queryEditors = [] then some s else none
  | some existing =>
    some { s with
      queryEditors := alterInArr s.queryEditors existing
        (ofList [("remoteId", remoteId), ("name", name)]) "id" }

def updateQueryEditor (s : State) (alterations : Object) : State :=
  match s.queryEditors.find? fun qe => get qe "remoteId" = get alterations "remoteId" with
  | none => s
  | some existing =>
    { s with queryEditors := alterInArr s.queryEditors existing alterations "remoteId" }

inductive Setter where
  | setDb (dbId : Value)
  | setCatalog (catalog : Value)
  | setSchema (schema : Value)
  | setTitle (name : Value)
  | setSql (sql : String) (queryId : Value)
  | setCursorPosition (position : Value)
  | setQueryLimit (queryLimit : Value)
  | setTemplateParams (templateParams : Value)
  | setSelectedText (sql : Value)
  | setAutorun (autorun : Value)
  | persistHeight (northPercent southPercent : Value)
  | toggleLeftBar (hideLeftBar : Value)

def Setter.field : Setter → String × Value
  | .setDb dbId => ("dbId", dbId)
  | .setCatalog catalog => ("catalog", catalog)
  | .setSchema schema => ("schema", schema)
  | .setTitle name => ("name", name)
  | .setSql sql _ => ("sql", text sql)
  | .setCursorPosition position => ("cursorPosition", position)
  | .setQueryLimit queryLimit => ("queryLimit", queryLimit)
  | .setTemplateParams templateParams => ("templateParams", templateParams)
  | .setSelectedText sql => ("selectedText", sql)
  | .setAutorun autorun => ("autorun", autorun)
  | .persistHeight northPercent _ => ("northPercent", northPercent)
  | .toggleLeftBar hideLeftBar => ("hideLeftBar", hideLeftBar)

def Setter.updatedState (setter : Setter) : Object :=
  match setter with
  | .setSql sql queryId =>
    spread (single "sql" (text sql))
      (spreadIf (truthy queryId = true) (single "latestQueryId" queryId))
  | .persistHeight northPercent southPercent =>
    ofList [("northPercent", northPercent), ("southPercent", southPercent)]
  | other => single other.field.1 other.field.2

def Setter.silent : Setter → Bool
  | .setSelectedText _ => true
  | _ => false

def Setter.skips (setter : Setter) (s : State) (id : Value) : Prop :=
  match setter with
  | .setSql sql _ =>
    get s.unsavedQueryEditor "id" = id ∧ get s.unsavedQueryEditor "sql" = text sql
  | _ => False

instance (setter : Setter) (s : State) (id : Value) : Decidable (setter.skips s id) :=
  match setter with
  | .setSql _ _ => inferInstanceAs (Decidable (_ ∧ _))
  | .setDb _ | .setCatalog _ | .setSchema _ | .setTitle _ | .setCursorPosition _
  | .setQueryLimit _ | .setTemplateParams _ | .setSelectedText _ | .setAutorun _
  | .persistHeight _ _ | .toggleLeftBar _ => inferInstanceAs (Decidable False)

def setQueryEditor (now : Int) (s : State) (id : Value) (setter : Setter) : State :=
  if setter.skips s id then s
  else alterUnsavedQueryEditorState now s setter.updatedState id setter.silent

namespace QueryState

def stopped : Value := text "stopped"
def failed : Value := text "failed"
def running : Value := text "running"
def success : Value := text "success"
def fetching : Value := text "fetching"

/-- The enum has no such member: reading it gives `undefined`. -/
def STOPPED : Value := undefined

end QueryState

def startedEditor (s : State) (query : Object) : Value :=
  if truthy (get query "sqlEditorId") then
    match getFromArr s.queryEditors (get query "sqlEditorId") "tabViewId" with
    | none => get query "sqlEditorId"
    | some queryEditorByTabId =>
      nullish (get queryEditorByTabId "id") (get query "sqlEditorId")
  else undefined

/-- `{ ...results, data: [], query: null }` -/
def clearedResults (results : Value) : Json :=
  let kept : List (String × Json) :=
    match results with
    | some (.object members) => members.filter fun m => m.1 ≠ "data" && m.1 ≠ "query"
    | _ => []
  .object (kept ++ [("data", .list []), ("query", .null)])

def clearedQueries (s : State) (query : Object) : Queries :=
  if truthy (get query "sqlEditorId") then
    let sqlEditorId := startedEditor s query
    let qe := spread ((getFromArr s.queryEditors sqlEditorId "id").getD empty)
      (spreadIf (sqlEditorId = get s.unsavedQueryEditor "id") s.unsavedQueryEditor)
    let latest := get qe "latestQueryId"
    match s.queries (propertyKey latest) with
    | some q =>
      if truthy latest then
        addToObject s.queries
          (spread q (single "results" (some (clearedResults (get q "results")))))
      else s.queries
    | none => s.queries
  else s.queries

def startQuery (now : Int) (s : State) (query : Object) : State :=
  alterUnsavedQueryEditorState now
    { s with queries := addToObject (clearedQueries s query) query }
    (single "latestQueryId" (get query "id")) (startedEditor s query)
    (truthy (get query "isDataPreview"))

def stopQuery (s : State) (query : Object) : State :=
  { s with
    queries := alterInObject s.queries query
      (ofList [("state", QueryState.stopped), ("results", some (.list []))]) }

def requestQueryResults (s : State) (query : Object) : State :=
  { s with queries := alterInObject s.queries query (single "state" QueryState.fetching) }

/-- `action.results`: its status and its query. -/
structure Results where
  status : Value
  query : Object
  value : Json

/-- `value || 0` -/
def orZero (value : Value) : Value := if truthy value then value else number 0

/-- `alts` of QUERY_SUCCESS -/
def successAlterations (now : Int) (results : Results) : Object :=
  let resultsKey := get results.query "resultsKey"
  spread
    (ofList
      [("endDttm", number now), ("progress", number 100), ("results", some results.value),
       ("rows", orZero (get results.query "rows")), ("state", QueryState.success),
       ("executedSql", get results.query "executedSql"),
       ("limitingFactor", get results.query "limitingFactor"),
       ("tempSchema", get results.query "tempSchema"),
       ("tempTable", get results.query "tempTable"), ("errorMessage", some .null),
       ("cached", some (.bool false))])
    (spreadIf (truthy resultsKey = true) (single "resultsKey" resultsKey))

def querySuccess (now : Int) (s : State) (query : Object) (results : Results) : State :=
  if get query "state" = QueryState.STOPPED ∨ results.status ≠ QueryState.success then s
  else { s with queries := alterInObject s.queries query (successAlterations now results) }

/-- `alts` of QUERY_FAILED -/
def failureAlterations (now : Int) (msg link errors : Value) : Object :=
  ofList
    [("state", QueryState.failed), ("errors", errors), ("errorMessage", msg),
     ("endDttm", number now), ("link", link)]

def queryFailed (now : Int) (s : State) (query : Object) (msg link errors : Value) : State :=
  if get query "state" = QueryState.stopped then s
  else { s with queries := alterInObject s.queries query (failureAlterations now msg link errors) }

section Refresh
variable (timestamp : Value → Option Int) (toNumber : Value → Value)

def refreshedState (previous current : Value) : Value :=
  if current = QueryState.success
      ∧ previous ∈ [QueryState.fetching, QueryState.success, QueryState.running] then previous
  else current

def refreshedQuery (previous changedQuery : Object) : Object :=
  let startDttm := get changedQuery "startDttm"
  let endDttm := get changedQuery "endDttm"
  spread (spread (spread (spread previous changedQuery)
    (spreadIf (truthy startDttm = true) (single "startDttm" (toNumber startDttm))))
    (spreadIf (truthy endDttm = true) (single "endDttm" (toNumber endDttm))))
    (single "state" (refreshedState (get previous "state") (get changedQuery "state")))

def refreshable (s : State) (id : String) : Bool :=
  match s.queries id with
  | none => true
  | some query =>
    get query "state" ≠ QueryState.stopped && get query "state" ≠ QueryState.failed

/-- REFRESH_QUERIES.  `Date.parse(normalizeTimestamp(…))` and `Number` are
parameters. -/
def refreshQueries (s : State) (alteredQueries : List (String × Object)) : State :=
  let altered := alteredQueries.filter fun entry => refreshable s entry.1
  { s with
    queries := fun k =>
      match altered.reverse.find? fun entry => entry.1 = k with
      | some entry => some (refreshedQuery toNumber ((s.queries k).getD empty) entry.2)
      | none => s.queries k
    queriesLastUpdate := altered.foldl (fun last entry =>
      match timestamp (get entry.2 "changed_on") with
      | some changed => if last < changed then changed else last
      | none => last) s.queriesLastUpdate }

end Refresh

inductive Action where
  | addQueryEditor (queryEditor : Object) (id immutableId : String)
  | cloneQueryToNewTab (query : Object) (id immutableId : String)
  | removeQueryEditor (queryEditor : Object)
  | setActiveQueryEditor (queryEditor : Object)
  | loadQueryEditor (queryEditor : Object)
  | migrateQueryEditor (oldQueryEditor : Object) (tabViewId : String)
  | queryEditorSaved (name remoteId clientId : Value)
  | updateQueryEditor (alterations : Object)
  | setQueryEditor (id : Value) (setter : Setter)
  | startQuery (query : Object)
  | stopQuery (query : Object)
  | requestQueryResults (query : Object)
  | querySuccess (query : Object) (results : Results)
  | queryFailed (query : Object) (msg link errors : Value)
  | refreshQueries (alteredQueries : List (String × Object))

section Reducer
variable (timestamp : Value → Option Int) (toNumber : Value → Value)

/-- `sqlLabReducer` -/
def reduce (now : Int) (s : State) : Action → State
  | .addQueryEditor queryEditor id immutableId =>
    addQueryEditor now s (newQueryEditor queryEditor id immutableId)
  | .cloneQueryToNewTab query id immutableId =>
    (cloneQueryToNewTab now s query id immutableId).getD s
  | .removeQueryEditor queryEditor => removeQueryEditor now s queryEditor
  | .setActiveQueryEditor queryEditor => setActiveQueryEditor s queryEditor
  | .loadQueryEditor queryEditor => loadQueryEditor s queryEditor
  | .migrateQueryEditor oldQueryEditor tabViewId => migrateQueryEditor s oldQueryEditor tabViewId
  | .queryEditorSaved name remoteId clientId => (queryEditorSaved s name remoteId clientId).getD s
  | .updateQueryEditor alterations => updateQueryEditor s alterations
  | .setQueryEditor id setter => setQueryEditor now s id setter
  | .startQuery query => startQuery now s query
  | .stopQuery query => stopQuery s query
  | .requestQueryResults query => requestQueryResults s query
  | .querySuccess query results => querySuccess now s query results
  | .queryFailed query msg link errors => queryFailed now s query msg link errors
  | .refreshQueries alteredQueries => refreshQueries timestamp toNumber s alteredQueries

def reduceAll (s : State) (actions : List (Int × Action)) : State :=
  actions.foldl (fun s a => reduce timestamp toNumber a.1 s a.2) s

end Reducer

end Liteset.SqlLab
