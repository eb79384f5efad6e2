import Liteset.Lib.Json

/-!
# Chart data for embedded guests

`raise_for_access(query_context=…)` of `security/manager.py` for a guest user,
with embedding enabled: the comparison of the payload with the stored chart, and
the dashboard fallback with its three kinds of resources.  `form_data` is
whatever the client sent; the rows of dashboards, charts and columns are the
application's own.  A Python exception other than the denials is `raised`.
-/

set_option autoImplicit false

namespace Liteset.Security.Guest

open Liteset.Lib

inductive DatasourceType where
  | table
  | query
  | savedQuery
  deriving DecidableEq, Repr

structure Database where
  databaseName : String
  perm : String
  deriving DecidableEq, Repr

structure Datasource where
  type : DatasourceType
  id : Nat
  perm : String := ""
  schemaPerm : String := ""
  catalog : String := ""
  database : Option Database := none
  owners : List Nat := []
  deriving DecidableEq, Repr

structure TableColumn where
  tableId : Nat
  columnName : String
  groupby : Option Bool
  deriving DecidableEq, Repr

structure NativeFilterTarget where
  datasetId : Json
  column : Option String
  deriving DecidableEq

structure NativeFilter where
  id : Json
  targets : List NativeFilterTarget
  deriving DecidableEq

inductive StoredJson where
  | absent
  | invalid
  | value (json : Json)
  deriving DecidableEq

/-- `params` is `params_dict`; the dataset is the `table` relationship. -/
structure Slice where
  id : Nat
  datasetId : Option Nat
  params : List (String × Json) := []
  queryContext : StoredJson := .absent
  deriving DecidableEq

/-- `nativeFilters` is the `native_filter_configuration` of a non-empty
`json_metadata`, `embedded` the uuid of the first embedded configuration. -/
structure Dashboard where
  id : Nat
  slices : List Nat := []
  embedded : Option String := none
  nativeFilters : Option (List NativeFilter) := none
  deriving DecidableEq

structure Store where
  dashboards : List Dashboard := []
  slices : List Slice := []
  columns : List TableColumn := []
  deriving DecidableEq

structure Resource where
  type : String
  id : String
  deriving DecidableEq, Repr

structure GuestUser where
  id : Nat := 0
  roles : List String := []
  resources : List Resource := []
  permissions : List (String × String) := []
  deriving DecidableEq, Repr

/-- `bind` is what the database driver makes of a value that is compared with an
integer key, `parseInt` is Python's `int` on a text. -/
structure Settings where
  adminRoleName : String := "Admin"
  bind : Json → Option Nat
  parseInt : String → Option Int

structure QueryObject where
  columns : List Json := []
  metrics : Option (List Json) := none
  orderby : List Json := []
  deriving DecidableEq

structure QueryContext where
  datasource : Datasource
  formData : Option (List (String × Json))
  queries : List QueryObject := []
  slice : Option Slice := none
  deriving DecidableEq

/-- `getattr(query, key, []) or []`; a query object has no `groupby`. -/
def QueryObject.values (query : QueryObject) (key : String) : List Json :=
  if key = "metrics" then query.metrics.getD []
  else if key = "columns" then query.columns
  else if key = "orderby" then query.orderby
  else []

def findSlice (store : Store) (id : Nat) : Option Slice := store.slices.find? fun s => s.id = id

def findDashboard (store : Store) (id : Nat) : Option Dashboard :=
  store.dashboards.find? fun d => d.id = id

/-- The chart that `_resolve_stored_slice` attaches for a guest. -/
def storedSlice (settings : Settings) (store : Store) (formData : Option (List (String × Json))) :
    Option Slice :=
  let sliceId := Json.get (formData.getD []) "slice_id"
  match sliceId.toInt settings.parseInt with
  | some (.ofNat n) => findSlice store n
  | _ => none

/-- The `queries` of the stored query context, each a JSON object. -/
def storedQueries (slice : Slice) : Option (List (List (String × Json))) :=
  match slice.queryContext with
  | .absent => some []
  | .invalid => none
  | .value json =>
    if json.truthy then
      match json with
      | .object members =>
        ((Json.get members "queries").iterateOrEmpty).bind fun queries =>
          queries.mapM fun query =>
            match query with
            | .object members => some members
            | _ => none
      | _ => none
    else some []

def storedValues (slice : Slice) (key : String) (equivalent : List String) : Option (List Json) :=
  ((Json.get slice.params key).iterateOrEmpty).bind fun own =>
    (storedQueries slice).bind fun queries =>
      (queries.mapM fun query =>
        (equivalent.mapM fun k => (Json.get query k).iterateOrEmpty).map List.flatten).map
        fun more => own ++ more.flatten

def keyModified (formData : List (String × Json)) (slice : Slice) (queries : List QueryObject)
    (key : String) (equivalent : List String) : Option Bool :=
  ((Json.get formData key).iterateOrEmpty).bind fun requested =>
    ((Json.get slice.params key).iterateOrEmpty).bind fun own =>
      if requested ⊆ own then
        (storedValues slice key equivalent).map fun stored =>
          !decide (queries.flatMap (fun q => q.values key) ⊆ stored)
      else some true

def comparedKeys : List (String × List String) :=
  [("metrics", ["metrics"]), ("columns", ["columns", "groupby"]),
    ("groupby", ["columns", "groupby"]), ("orderby", ["orderby"])]

def anyModified (formData : List (String × Json)) (slice : Slice) (queries : List QueryObject) :
    List (String × List String) → Option Bool
  | [] => some false
  | (key, equivalent) :: rest =>
    (keyModified formData slice queries key equivalent).bind fun modified =>
      if modified then some true else anyModified formData slice queries rest

def queryContextModified (ctx : QueryContext) : Option Bool :=
  match ctx.formData, ctx.slice with
  | some formData, some slice =>
    if (Json.get formData "slice_id").equalsNat slice.id then
      if slice.queryContext = .invalid then none
      else anyModified formData slice ctx.queries comparedKeys
    else some true
  | _, _ => some false

section Access
variable (settings : Settings) (store : Store) (user : GuestUser)

def hasAccess (permission view : String) : Bool := (permission, view) ∈ user.permissions

def canAccessDatabase (database : Database) : Bool :=
  hasAccess user "all_datasource_access" "all_datasource_access" ||
    hasAccess user "all_database_access" "all_database_access" ||
    (database.perm ≠ "" && hasAccess user "database_access" database.perm)

def canAccessCatalog (database : Database) (catalog : String) : Bool :=
  canAccessDatabase user database ||
    hasAccess user "catalog_access" ("[" ++ database.databaseName ++ "].[" ++ catalog ++ "]")

def canAccessDatasourceSchema (datasource : Datasource) : Bool :=
  hasAccess user "all_datasource_access" "all_datasource_access" ||
    (datasource.database.any fun database => canAccessDatabase user database) ||
    (datasource.catalog ≠ "" &&
      datasource.database.any fun database => canAccessCatalog user database datasource.catalog) ||
    (datasource.schemaPerm ≠ "" && hasAccess user "schema_access" datasource.schemaPerm)

def isAdmin : Bool := settings.adminRoleName ∈ user.roles

def isOwner (datasource : Datasource) : Bool :=
  isAdmin settings user || user.id ∈ datasource.owners

def hasDirectAccess (datasource : Datasource) : Bool :=
  canAccessDatasourceSchema user datasource ||
    hasAccess user "datasource_access" datasource.perm ||
    isOwner settings user datasource

def hasGuestAccess (dashboard : Dashboard) : Bool :=
  (user.resources.any fun r => r.type = "dashboard" && r.id = toString dashboard.id) ||
    dashboard.embedded.any fun uuid =>
      user.resources.any fun r => r.type = "dashboard" && r.id = uuid

def canAccessDashboard (dashboard : Dashboard) : Bool :=
  isAdmin settings user || hasGuestAccess user dashboard

def isNativeFilter (formData : List (String × Json)) : Bool :=
  Json.get formData "type" = .str "NATIVE_FILTER"

def nativeFilterValid (formData : List (String × Json)) (dashboard : Dashboard)
    (datasource : Datasource) : Bool :=
  let nativeFilterId := Json.get formData "native_filter_id"
  nativeFilterId.truthy && dashboard.nativeFilters.any fun filters =>
    filters.any fun fltr =>
      nativeFilterId.equals fltr.id &&
        fltr.targets.any fun target => target.datasetId.equalsNat datasource.id

def sliceOn (slice : Slice) (dashboard : Dashboard) (datasource : Datasource) : Bool :=
  slice.id ∈ dashboard.slices && datasource.type = .table && slice.datasetId = some datasource.id

def chartValid (formData : List (String × Json)) (dashboard : Dashboard)
    (datasource : Datasource) : Bool :=
  let sliceId := Json.get formData "slice_id"
  sliceId.truthy && ((settings.bind sliceId).bind (findSlice store)).any fun slice =>
    sliceOn slice dashboard datasource

def drillableColumns (datasource : Datasource) : List String :=
  (store.columns.filter fun c => c.tableId = datasource.id ∧ c.groupby = some true).map
    TableColumn.columnName

/-- `set(dimensions).issubset(drillable_columns)`; a list or an object among the
dimensions is not hashable. -/
def dimensionsDrillable (dimensions : List Json) (drillable : List String) : Option Bool :=
  if dimensions.any fun d => match d with | .list _ | .object _ => true | _ => false then none
  else some (dimensions.all fun d => match d with | .str s => s ∈ drillable | _ => false)

/-- `_has_drill_by_access`, which looks at `form_data` only. -/
def hasDrillByAccess (formData : List (String × Json)) (dashboard : Dashboard)
    (datasource : Datasource) : Option Bool :=
  let chartId := Json.get formData "chart_id"
  let dimensions := Json.get formData "groupby"
  if isNativeFilter formData then some false
  else if !(Json.get formData "slice_id").equalsNat 0 then some false
  else if !chartId.truthy then some false
  else if !((settings.bind chartId).bind (findSlice store)).any fun slice =>
      sliceOn slice dashboard datasource then some false
  else if !dimensions.truthy then some false
  else if drillableColumns store datasource = [] then some false
  else
    dimensions.iterate.bind fun items =>
      dimensionsDrillable items (drillableColumns store datasource)

def resourceValid (formData : List (String × Json)) (dashboard : Dashboard)
    (datasource : Datasource) : Option Bool :=
  if isNativeFilter formData then some (nativeFilterValid formData dashboard datasource)
  else if chartValid settings store formData dashboard datasource then some true
  else hasDrillByAccess settings store formData dashboard datasource

def dashboardFallback (formData : Option (List (String × Json))) (datasource : Datasource) :
    Option Bool :=
  match formData with
  | none => some false
  | some formData =>
    let dashboardId := Json.get formData "dashboardId"
    if dashboardId.truthy then
      match (settings.bind dashboardId).bind (findDashboard store) with
      | none => some false
      | some dashboard =>
        (resourceValid settings store formData dashboard datasource).map fun valid =>
          valid && canAccessDashboard settings user dashboard
    else some false

inductive AccessError where
  | guestPayloadModified (message : String)
  | datasourceAccess
  | raised
  deriving DecidableEq, Repr

/-- `raise_for_access(query_context=…)` for a guest. -/
def raiseForAccess (ctx : QueryContext) : Except AccessError Unit :=
  match queryContextModified ctx with
  | none => .error .raised
  | some true => .error (.guestPayloadModified "Guest user cannot modify chart payload")
  | some false =>
    if hasDirectAccess settings user ctx.datasource then .ok ()
    else
      match dashboardFallback settings store user ctx.formData ctx.datasource with
      | none => .error .raised
      | some true => .ok ()
      | some false => .error .datasourceAccess

/-- The processor's `raise_for_access`: the stored chart is attached first. -/
def processorRaiseForAccess (ctx : QueryContext) : Except AccessError Unit :=
  raiseForAccess settings store user
    { ctx with slice := storedSlice settings store ctx.formData }

end Access

end Liteset.Security.Guest
