import Liteset.Security.Access
import Liteset.Sql.TableExtraction

/-!
# Access to the tables of SQL Lab

`raise_for_access` for a query and for a table of a database.  A part that the table
leaves out is filled from the query and the engine; a part that is still missing then
becomes an empty name in the permission strings and drops out of the search for datasets.
-/

set_option autoImplicit false

namespace Liteset.Security.TableAccess

open Liteset.Security.Access
open Liteset.Sql.TableExtraction (Table)

/-- Python `or` of two optional strings. -/
def either (value other : Option String) : Option String := if truthy value then value else other

def qualify (table : Table) (catalog schema : Option String) : Table where
  table := table.table
  schema := either table.schema schema
  catalog := either table.catalog catalog

def hexDigit (value : Nat) : Char := Char.ofNat (if value < 10 then 48 + value else 55 + value)

def percentEncoded (byte : UInt8) : List Char :=
  ['%', hexDigit (byte.toNat / 16), hexDigit (byte.toNat % 16)]

/-- `urllib.parse.quote(part, safe="")` with the dots encoded as well. -/
def quote (part : String) : String :=
  String.ofList (part.toList.flatMap fun c =>
    if c.isAlphanum ∨ c ∈ ['_', '-', '~'] then [c]
      else (String.utf8EncodeChar c).flatMap percentEncoded)

def str (table : Table) : String :=
  String.intercalate "."
    (([table.catalog, table.schema, some table.table].filter truthy).map fun part =>
      quote (part.getD ""))

/-- A `Database` object with what its engine spec answers. -/
structure Connection where
  database : Database
  verboseName : Option String := none
  defaultCatalog : Option String := none
  defaultSchema : Option String := none
deriving DecidableEq

/-- `Database.name`, which `str(database)` gives. -/
def Connection.name (connection : Connection) : String :=
  if truthy connection.verboseName then connection.verboseName.getD ""
    else connection.database.databaseName

structure Dataset where
  tableName : String
  databaseId : Nat
  schema : Option String
  datasource : Datasource
deriving DecidableEq

/-- `query.catalog`, what `get_default_schema_for_query` answers for the query and the
tables that `process_jinja_sql` extracts. -/
structure Query where
  catalog : Option String := none
  defaultSchema : Option String := none
  tables : List Table
deriving DecidableEq

inductive Request where
  | query (query : Query)
  | table (table : Table)
deriving DecidableEq

def Request.tables (connection : Connection) : Request → List Table
  | .query sql =>
    sql.tables.map fun table =>
      qualify table (either sql.catalog connection.defaultCatalog) sql.defaultSchema
  | .table asked => [qualify asked connection.defaultCatalog none]

section Decision

variable (settings : Settings) (grants : Grants) (user : User) (connection : Connection)
    (datasets : List Dataset)

def selected (tableName : String) (schema catalog : Option String) (dataset : Dataset) : Bool :=
  dataset.tableName = tableName && dataset.databaseId = connection.database.id
    && (schema.all fun name => dataset.schema = some name)
    && (catalog.all fun name => dataset.datasource.catalog = some name)

def opens (dataset : Dataset) : Bool :=
  canAccessDatasource settings grants user dataset.datasource ||
    isOwner settings user dataset.datasource.owners

def canAccessTableDatasource (tableName : String) (schema catalog : Option String) : Bool :=
  (datasets.filter (selected connection tableName schema catalog)).any (opens settings grants user)

/-- `getattr(table_, "table", None) or str(table_)` -/
def lookupName (table : Table) : String := if table.table ≠ "" then table.table else str table

/-- One round of the loop, `true` for `continue`. -/
def passes (table : Table) : Bool :=
  holds grants user catalogAccess
    (getCatalogPerm connection.database.databaseName (some (table.catalog.getD "")))
    || holds grants user schemaAccess
      (getSchemaPerm connection.name table.catalog (some (table.schema.getD "")))
    || canAccessTableDatasource settings grants user connection datasets
      (lookupName table) table.schema table.catalog

def getTableAccessErrorMsg (tables : List Table) : String :=
  "You need access to the following tables: " ++ String.intercalate ", "
    (tables.map fun table => "`" ++ str table ++ "`")
    ++ ",\n            `all_database_access` or `all_datasource_access` permission"

def getTableAccessErrorObject (tables : List Table) : SupersetError where
  errorType := "TABLE_SECURITY_ACCESS_ERROR"
  message := getTableAccessErrorMsg tables
  level := "warning"

/-- `raise_for_access(query=…)` and `raise_for_access(database=…, table=…)` -/
def raiseForAccess (request : Request) : Except SupersetError Unit :=
  if canAccessDatabase grants user connection.database then .ok ()
  else
    let denied := (request.tables connection).filter fun table =>
      !passes settings grants user connection datasets table
    if denied.isEmpty then .ok () else .error (getTableAccessErrorObject denied)

end Decision

def Request.completed (connection : Connection) (request : Request) (table : Table) : Table :=
  match request with
  | .query _ => table
  | .table _ => qualify table none connection.defaultSchema

section Coverage

variable (settings : Settings) (grants : Grants) (user : User) (connection : Connection)
    (datasets : List Dataset)

def IsOf (dataset : Dataset) (table : Table) : Prop :=
  dataset.databaseId = connection.database.id ∧ dataset.tableName = table.table ∧
    dataset.schema.getD "" = table.schema.getD "" ∧ dataset.datasource.catalog.getD "" =
      table.catalog.getD ""

/-- Access to the table's own catalog, to its own schema, or to a dataset over it. -/
inductive Covered (table : Table) : Prop where
  | catalog (named : truthy table.catalog = true)
      (access : hasAccess grants user catalogAccess
        (bracketed connection.database.databaseName (table.catalog.getD "")) = true)
  | schema (named : truthy table.schema = true)
      (access : holds grants user schemaAccess
        (getSchemaPerm connection.database.databaseName table.catalog table.schema) = true)
  | dataset (dataset : Dataset) (row : dataset ∈ datasets) (same : IsOf connection dataset table)
      (access : opens settings grants user dataset = true)

/-- When the request is let through, every table of it is covered. -/
def PerTable (request : Request) : Prop :=
  raiseForAccess settings grants user connection datasets request = .ok () →
    ∀ table ∈ (request.tables connection).map (request.completed connection),
      Covered settings grants user connection datasets table

/-- What lets a table of the loop pass on account of something else: the permission on the
empty catalog or the empty schema, the permission on a schema under the verbose name, or a
dataset of the database that is not over the completed table. -/
inductive Stray (table completed : Table) : Prop where
  | emptyCatalog (missing : truthy table.catalog = false)
      (access : hasAccess grants user catalogAccess
        (bracketed connection.database.databaseName "") = true)
  | emptySchema (missing : truthy table.schema = false)
      (access : holds grants user schemaAccess
        (getSchemaPerm connection.name table.catalog (some "")) = true)
  | verboseName (other : connection.name ≠ connection.database.databaseName)
      (named : truthy table.schema = true)
      (access : holds grants user schemaAccess
        (getSchemaPerm connection.name table.catalog table.schema) = true)
  | namesake (dataset : Dataset) (row : dataset ∈ datasets)
      (found : selected connection (lookupName table) table.schema table.catalog dataset = true)
      (different : ¬ IsOf connection dataset completed)
      (access : opens settings grants user dataset = true)

end Coverage

section Passing

variable {settings : Settings} {grants : Grants} {user : User} {connection : Connection}
    {datasets : List Dataset}

theorem eq_some_of_truthy {name : Option String} (named : truthy name = true) :
    name = some (name.getD "") := by
  cases name with
  | none => simp [truthy] at named
  | some text => rfl

theorem getD_of_not_truthy {name : Option String} (missing : truthy name = false) :
    name.getD "" = "" := by
  cases name with
  | none => rfl
  | some text => simpa [truthy] using missing

theorem truthy_congr {name other : Option String} (same : name.getD "" = other.getD "") :
    truthy name = truthy other := by
  cases name <;> cases other <;> simp_all [truthy, eq_comm]

theorem getSchemaPerm_congr (databaseName : String) (schema : Option String)
    {catalog other : Option String}
    (same : catalog.getD "" = other.getD "") :
    getSchemaPerm databaseName catalog schema = getSchemaPerm databaseName other schema := by
  cases schema with
  | none => rfl
  | some schema => rw [getSchemaPerm, getSchemaPerm, truthy_congr same, same]

theorem truthy_either (value other : Option String) (named : truthy value = true) :
    either value other = value :=
  if_pos named

theorem completed_catalog (request : Request) (table : Table) :
    (request.completed connection table).catalog.getD "" = table.catalog.getD "" := by
  cases request with
  | query sql => rfl
  | table asked =>
    cases named : truthy table.catalog with
    | true => simp [Request.completed, qualify, either, named]
    | false => simp [Request.completed, qualify, either, named, getD_of_not_truthy named]

theorem completed_schema (request : Request) (table : Table) (named : truthy table.schema = true) :
    (request.completed connection table).schema = table.schema := by
  cases request with
  | query sql => rfl
  | table asked => exact truthy_either _ _ named

theorem passes_iff (table : Table) :
    passes settings grants user connection datasets table = true ↔
      hasAccess grants user catalogAccess
        (bracketed connection.database.databaseName (table.catalog.getD "")) = true ∨
        holds grants user schemaAccess
          (getSchemaPerm connection.name table.catalog (some (table.schema.getD ""))) = true ∨
        ∃ dataset ∈ datasets,
          selected connection (lookupName table) table.schema table.catalog dataset = true ∧
          opens settings grants user dataset = true := by
  have named : truthy (some (bracketed connection.database.databaseName (table.catalog.getD ""))) =
      true := by
    simp [truthy, bracketed]
  have view : getCatalogPerm connection.database.databaseName (some (table.catalog.getD "")) =
      some (bracketed connection.database.databaseName (table.catalog.getD "")) := rfl
  rw [passes, Bool.or_eq_true, Bool.or_eq_true, or_assoc, view, holds, named, Bool.true_and]
  simp only [Option.getD_some, canAccessTableDatasource, List.any_eq_true, List.mem_filter,
    and_assoc]

theorem raiseForAccess_ok_iff (outsider : canAccessDatabase grants user connection.database = false)
    (request : Request) :
    raiseForAccess settings grants user connection datasets request = .ok () ↔
      ∀ table ∈ request.tables connection,
        passes settings grants user connection datasets table = true := by
  rw [raiseForAccess, outsider, if_neg Bool.false_ne_true]
  dsimp only
  cases none : ((request.tables connection).filter fun table =>
      !passes settings grants user connection datasets table).isEmpty with
  | true => simpa using none
  | false => simpa using none

theorem covered_or_stray (request : Request) (table : Table)
    (continued : passes settings grants user connection datasets table = true) :
    Covered settings grants user connection datasets (request.completed connection table) ∨
      Stray settings grants user connection datasets table
        (request.completed connection table) := by
  rcases passes_iff table |>.mp continued with catalog | schema | ⟨dataset, row, found, access⟩
  · cases named : truthy table.catalog with
    | false => exact .inr (.emptyCatalog named (by rwa [getD_of_not_truthy named] at catalog))
    | true =>
      rw [← completed_catalog request table] at catalog
      exact .inl (.catalog (by rwa [truthy_congr (completed_catalog request table)]) catalog)
  · cases named : truthy table.schema with
    | false => exact .inr (.emptySchema named (by rwa [getD_of_not_truthy named] at schema))
    | true =>
      rw [← eq_some_of_truthy named] at schema
      by_cases same : connection.name = connection.database.databaseName
      · rw [same, ← completed_schema request table named,
          ← getSchemaPerm_congr _ _ (completed_catalog request table)] at schema
        exact .inl (.schema (by rwa [completed_schema request table named]) schema)
      · exact .inr (.verboseName same named schema)
  · by_cases same : IsOf connection dataset (request.completed connection table)
    · exact .inl (.dataset dataset row same access)
    · exact .inr (.namesake dataset row found same access)

end Passing

/-- The database `sales` with the default schema `main`. -/
def sales : Connection := { database := ⟨1, "sales"⟩, defaultSchema := some "main" }

/-- A dataset over `orders` of the schema `archive`. -/
def archivedOrders : Dataset where
  tableName := "orders"
  databaseId := 1
  schema := some "archive"
  datasource :=
    { perm := some "[sales].[orders](id:7)", schemaPerm := some "[sales].[archive]",
      database := some ⟨1, "sales"⟩ }

def analyst : User :=
  { id := some 5, permissions := some [("datasource_access", "[sales].[orders](id:7)")] }

def mainOrders : Dataset where
  tableName := "orders"
  databaseId := 1
  schema := some "main"
  datasource := { perm := some "[sales].[orders](id:8)", schemaPerm := some "[sales].[main]"
                  database := some ⟨1, "sales"⟩ }

def reader : User where
  id := some 6
  permissions :=
    some [("datasource_access", "[sales].[orders](id:8)"), ("schema_access", "[sales].[web]")]

/-- `orders` of the default schema and `web.visits`, with a dataset of the same name in the
schema `archive`. -/
def ordersQuery : Request :=
  .query { defaultSchema := some "main", tables := [⟨"orders", none, none⟩,
    ⟨"visits", some "web", none⟩] }

end Liteset.Security.TableAccess
