import Liteset.Lib.SqlLike
import Liteset.Security.Metadata

/-!
# `AsyncPermissionManager`

The lifecycle callbacks of `security/permission_manager.py` as functions on the
metadata tables.  A `select … one_or_none()` is a `find?`: on well-formed tables
at most one row matches.  Statements run in the order of the source, each on the
tables the previous one left.  Log lines are left out, and so is
`bump_auth_epoch(redis)`, which the callbacks reach with `redis=None`.
-/

set_option autoImplicit false

namespace Liteset.Security

open Liteset.Lib.SqlLike

def DATABASE_ACCESS : String := "database_access"
def SCHEMA_ACCESS : String := "schema_access"
def DATASOURCE_ACCESS : String := "datasource_access"
def CATALOG_ACCESS : String := "catalog_access"

namespace Metadata

def findPermission (md : Metadata) (name : String) : Option Permission :=
  md.permissions.find? fun p => p.name = name

def findViewMenu (md : Metadata) (name : String) : Option ViewMenu :=
  md.viewMenus.find? fun vm => vm.name = name

def findPermissionViewMenu (md : Metadata) (permissionName viewMenuName : String) :
    Option PermissionView :=
  md.permissionViews.find? fun pv => md.Joins pv permissionName viewMenuName

/-- `session.add(Permission(name=…))`, flushed. -/
def insertPermission (md : Metadata) (name : String) : Metadata × Permission :=
  ({ md with
      permissions := md.permissions ++ [⟨md.permissionSeq, name⟩]
      permissionSeq := md.permissionSeq + 1 }, ⟨md.permissionSeq, name⟩)

def insertViewMenu (md : Metadata) (name : String) : Metadata × ViewMenu :=
  ({ md with
      viewMenus := md.viewMenus ++ [⟨md.viewMenuSeq, name⟩]
      viewMenuSeq := md.viewMenuSeq + 1 }, ⟨md.viewMenuSeq, name⟩)

def insertPermissionView (md : Metadata) (permissionId viewMenuId : Nat) :
    Metadata × PermissionView :=
  ({ md with
      permissionViews := md.permissionViews ++ [⟨md.permissionViewSeq, permissionId, viewMenuId⟩]
      permissionViewSeq := md.permissionViewSeq + 1 },
    ⟨md.permissionViewSeq, permissionId, viewMenuId⟩)

def findOrCreatePermission (md : Metadata) (name : String) : Metadata × Permission :=
  match md.findPermission name with
  | some permission => (md, permission)
  | none => md.insertPermission name

def findOrCreateViewMenu (md : Metadata) (name : String) : Metadata × ViewMenu :=
  match md.findViewMenu name with
  | some viewMenu => (md, viewMenu)
  | none => md.insertViewMenu name

def addPermissionViewMenu (md : Metadata) (permissionName : String)
    (viewMenuName : Option String) : Metadata × Option PermissionView :=
  match viewMenuName with
  | none => (md, none)
  | some viewMenuName =>
    if viewMenuName = "" then (md, none)
    else
      match md.findPermissionViewMenu permissionName viewMenuName with
      | some existing => (md, some existing)
      | none =>
        let (md, permission) := md.findOrCreatePermission permissionName
        let (md, viewMenu) := md.findOrCreateViewMenu viewMenuName
        let (md, pvm) := md.insertPermissionView permission.id viewMenu.id
        (md, some pvm)

def deletePvm (md : Metadata) (pvm : PermissionView) : Metadata :=
  let md : Metadata := { md with
    permissionViewRoles := md.permissionViewRoles.filter fun g => g.permissionViewId ≠ pvm.id }
  let md : Metadata :=
    { md with permissionViews := md.permissionViews.filter fun pv => pv.id ≠ pvm.id }
  if md.permissionViews.any fun pv => pv.viewMenuId = pvm.viewMenuId then md
  else { md with viewMenus := md.viewMenus.filter fun vm => vm.id ≠ pvm.viewMenuId }

def delPermissionViewMenu (md : Metadata) (permissionName viewMenuName : String) : Metadata :=
  match md.findPermissionViewMenu permissionName viewMenuName with
  | none => md
  | some pvm => md.deletePvm pvm

/-- `update(ViewMenu).where(ViewMenu.id == id).values(name=…)` -/
def setViewMenuName (md : Metadata) (id : Nat) (name : String) : Metadata :=
  { md with viewMenus := md.viewMenus.map fun vm => if vm.id = id then { vm with name } else vm }

def renameViewMenu (md : Metadata) (oldName newName : String) : Metadata × Option ViewMenu :=
  match md.findViewMenu oldName with
  | none => (md, none)
  | some vm =>
    match md.findViewMenu newName with
    | some existing => (md, some existing)
    | none =>
      let md := md.setViewMenuName vm.id newName
      (md, md.findViewMenu newName)

def onDatabaseCreated (md : Metadata) (database : Database) : Metadata :=
  (md.addPermissionViewMenu DATABASE_ACCESS
    (some (getDatabasePerm database.id database.databaseName))).1

/-- The `schema_access` and `catalog_access` rows whose view-menu name is `LIKE`
the pattern `[name].[%]`; the name enters the pattern unescaped. -/
def schemaCatalogPvms (md : Metadata) (databaseName : String) : List PermissionView :=
  let dbPrefix := "[" ++ databaseName ++ "].[%]"
  md.permissionViews.filter fun pv =>
    (md.permissions.any fun p =>
        p.id = pv.permissionId && (p.name = SCHEMA_ACCESS || p.name = CATALOG_ACCESS)) &&
      md.viewMenus.any fun vm => vm.id = pv.viewMenuId && like dbPrefix.toList vm.name.toList

def onDatabaseDeleted (md : Metadata) (database : Database) : Metadata :=
  let dbPerm := getDatabasePerm database.id database.databaseName
  let md := md.delPermissionViewMenu DATABASE_ACCESS dbPerm
  (md.schemaCatalogPvms database.databaseName).foldl deletePvm md

/-- One iteration of the loop of `_rename_datasource_perms_for_database`. -/
def renameDatasourcePerm (oldDatabaseName newDatabaseName : String) (md : Metadata)
    (dataset : SqlaTable) : Metadata :=
  let oldVmName := getDatasetPerm dataset.id dataset.tableName oldDatabaseName
  let newVmName := getDatasetPerm dataset.id dataset.tableName newDatabaseName
  match md.findViewMenu newVmName with
  | some _ => md
  | none =>
    let md := (md.renameViewMenu oldVmName newVmName).1
    let md : Metadata := { md with tables := md.tables.map fun t =>
      if t.id = dataset.id ∧ t.perm = some oldVmName then { t with perm := some newVmName }
      else t }
    { md with slices := md.slices.map fun s =>
      if s.perm = some oldVmName then { s with perm := some newVmName } else s }

def renameDatasourcePermsForDatabase (md : Metadata) (database : Database)
    (oldDatabaseName : String) : Metadata :=
  let datasets := md.tables.filter fun t => t.databaseId = database.id
  datasets.foldl (renameDatasourcePerm oldDatabaseName database.databaseName) md

def onDatabaseUpdated (md : Metadata) (database : Database)
    (oldDatabaseName : Option String) : Metadata :=
  match oldDatabaseName with
  | none => md
  | some oldDatabaseName =>
    if oldDatabaseName = database.databaseName then md
    else
      let newName := database.databaseName
      let oldDbPerm := getDatabasePerm database.id oldDatabaseName
      let newDbPerm := getDatabasePerm database.id newName
      let md :=
        match md.findPermissionViewMenu DATABASE_ACCESS newDbPerm with
        | some _ =>
          let md := md.delPermissionViewMenu DATABASE_ACCESS oldDbPerm
          (md.schemaCatalogPvms oldDatabaseName).foldl deletePvm md
        | none =>
          match md.findPermissionViewMenu DATABASE_ACCESS oldDbPerm with
          | some _ => (md.renameViewMenu oldDbPerm newDbPerm).1
          | none => (md.addPermissionViewMenu DATABASE_ACCESS (some newDbPerm)).1
      md.renameDatasourcePermsForDatabase database oldDatabaseName

/-- `update(SqlaTable).where(SqlaTable.id == id)` -/
def updateTable (md : Metadata) (id : Nat) (change : SqlaTable → SqlaTable) : Metadata :=
  { md with tables := md.tables.map fun t => if t.id = id then change t else t }

/-- `update(Slice).where(datasource_id == id, datasource_type == "table")` -/
def updateCharts (md : Metadata) (id : Nat) (change : Slice → Slice) : Metadata :=
  { md with slices := md.slices.map fun s =>
      if s.datasourceId = some id ∧ s.datasourceType = some "table" then change s else s }

def findDatabase (md : Metadata) (id : Nat) : Option Database :=
  md.dbs.find? fun d => d.id = id

def onDatasetCreated (md : Metadata) (dataset : SqlaTable) (database : Option Database) :
    Metadata :=
  match database <|> md.findDatabase dataset.databaseId with
  | none => md
  | some database =>
    let dbName := database.databaseName
    let datasetPerm := getDatasetPerm dataset.id dataset.tableName dbName
    let md := (md.addPermissionViewMenu DATASOURCE_ACCESS (some datasetPerm)).1
    let schemaPerm :=
      if truthy dataset.schema then getSchemaPerm dbName dataset.catalog dataset.schema else none
    let md := (md.addPermissionViewMenu SCHEMA_ACCESS schemaPerm).1
    let catalogPerm :=
      if truthy dataset.catalog then getCatalogPerm dbName dataset.catalog else none
    let md := (md.addPermissionViewMenu CATALOG_ACCESS catalogPerm).1
    md.updateTable dataset.id fun t =>
      { t with
        perm := if dataset.perm ≠ some datasetPerm then some datasetPerm else t.perm
        schemaPerm := schemaPerm <|> t.schemaPerm
        catalogPerm := catalogPerm <|> t.catalogPerm }

def onDatasetDeleted (md : Metadata) (dataset : SqlaTable) (database : Option Database) :
    Metadata :=
  match database <|> md.findDatabase dataset.databaseId with
  | none => md
  | some database =>
    md.delPermissionViewMenu DATASOURCE_ACCESS
      (getDatasetPerm dataset.id dataset.tableName database.databaseName)

/-- The old values `on_dataset_updated` is told; `None` reads as unchanged. -/
structure OldDataset where
  tableName : Option String := none
  databaseId : Option Nat := none
  databaseName : Option String := none
  schema : Option String := none
  catalog : Option String := none

/-- The datasource-access part of `on_dataset_updated`. -/
def updateDatasetPerm (md : Metadata) (datasetId : Nat) (oldPerm newPerm : String) : Metadata :=
  match md.findViewMenu newPerm with
  | some _ => md
  | none =>
    match md.findViewMenu oldPerm with
    | some _ =>
      let md := (md.renameViewMenu oldPerm newPerm).1
      let md := md.updateTable datasetId fun t => { t with perm := some newPerm }
      md.updateCharts datasetId fun s => { s with perm := some newPerm }
    | none => (md.addPermissionViewMenu DATASOURCE_ACCESS (some newPerm)).1

/-- The schema and catalog part of `on_dataset_updated`. -/
def updateDatasetSchemaPerm (md : Metadata) (datasetId : Nat)
    (newCatalogPerm newSchemaPerm : Option String) : Metadata :=
  let md := if truthy newCatalogPerm then
      (md.addPermissionViewMenu CATALOG_ACCESS newCatalogPerm).1 else md
  let md := if truthy newSchemaPerm then
      (md.addPermissionViewMenu SCHEMA_ACCESS newSchemaPerm).1 else md
  let md := md.updateTable datasetId fun t =>
    { t with catalogPerm := newCatalogPerm, schemaPerm := newSchemaPerm }
  md.updateCharts datasetId fun s =>
    { s with catalogPerm := newCatalogPerm, schemaPerm := newSchemaPerm }

def onDatasetUpdated (md : Metadata) (dataset : SqlaTable) (old : OldDataset) : Metadata :=
  match md.findDatabase dataset.databaseId with
  | none => md
  | some db =>
    let currentDbName := db.databaseName
    let currentTableName := dataset.tableName
    let effOldDbName := if truthy old.databaseName then old.databaseName.getD ""
      else currentDbName
    let effOldTableName := if truthy old.tableName then old.tableName.getD ""
      else currentTableName
    let dbChanged := old.databaseId.any fun i => i ≠ dataset.databaseId
    let tableNameChanged := old.tableName.any fun n => n ≠ currentTableName
    let md :=
      if dbChanged || tableNameChanged then
        md.updateDatasetPerm dataset.id
          (getDatasetPerm dataset.id effOldTableName effOldDbName)
          (getDatasetPerm dataset.id currentTableName currentDbName)
      else md
    let schemaChanged := old.schema.any fun s => some s ≠ dataset.schema
    let catalogChanged := old.catalog.any fun c => some c ≠ dataset.catalog
    if dbChanged || schemaChanged || catalogChanged then
      md.updateDatasetSchemaPerm dataset.id
        (getCatalogPerm currentDbName dataset.catalog)
        (getSchemaPerm currentDbName dataset.catalog dataset.schema)
    else md

end Metadata

end Liteset.Security
