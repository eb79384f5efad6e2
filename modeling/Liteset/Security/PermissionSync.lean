import Liteset.Lib.Runs
import Liteset.Security.PermissionSpecs

/-!
# Denormalised permissions under the permission manager

Databases, datasets and charts change and the callbacks of
`AsyncPermissionManager` follow each change, with the true old values.  `InStep`
is what the copies of the permission strings should look like; `Orderly` is the
condition on the changes under which the callbacks keep them so.
-/

set_option autoImplicit false

namespace Liteset.Security.Sync

open Metadata

/-- `get_schema_perm`, null when the schema is null or empty. -/
def expectedSchemaPerm (databaseName : String) (catalog schema : Option String) : Option String :=
  if truthy schema then getSchemaPerm databaseName catalog schema else none

/-- `get_catalog_perm`, null when the catalog is null or empty. -/
def expectedCatalogPerm (databaseName : String) (catalog : Option String) : Option String :=
  if truthy catalog then getCatalogPerm databaseName catalog else none

def OnDataset (s : Slice) (t : SqlaTable) : Prop :=
  s.datasourceId = some t.id ∧ s.datasourceType = some "table"

/-- The chart carries the permission strings of the dataset. -/
def Carries (s : Slice) (t : SqlaTable) : Prop :=
  s.perm = t.perm ∧ s.schemaPerm = t.schemaPerm ∧ s.catalogPerm = t.catalogPerm

instance (s : Slice) (t : SqlaTable) : Decidable (OnDataset s t) :=
  inferInstanceAs (Decidable (_ ∧ _))

instance (s : Slice) (t : SqlaTable) : Decidable (Carries s t) :=
  inferInstanceAs (Decidable (_ ∧ _ ∧ _))

def RowInStep (databaseName : String) (t : SqlaTable) : Prop :=
  t.perm = some (getDatasetPerm t.id t.tableName databaseName) ∧
    t.schemaPerm = expectedSchemaPerm databaseName t.catalog t.schema ∧
    t.catalogPerm = expectedCatalogPerm databaseName t.catalog

instance (databaseName : String) (t : SqlaTable) : Decidable (RowInStep databaseName t) :=
  inferInstanceAs (Decidable (_ ∧ _ ∧ _))

def HasRow (md : Metadata) (t : SqlaTable) : Prop :=
  (∀ v ∈ t.perm, md.Has DATASOURCE_ACCESS v) ∧ (∀ v ∈ t.schemaPerm, md.Has SCHEMA_ACCESS v) ∧
    ∀ v ∈ t.catalogPerm, md.Has CATALOG_ACCESS v

instance (md : Metadata) (t : SqlaTable) : Decidable (HasRow md t) :=
  inferInstanceAs (Decidable (_ ∧ _ ∧ _))

/-- Every dataset row, every chart on it and the permission views are in step. -/
def InStep (md : Metadata) : Prop :=
  ∀ t ∈ md.tables, (∃ db ∈ md.dbs, db.id = t.databaseId ∧ RowInStep db.databaseName t) ∧
    HasRow md t ∧ ∀ s ∈ md.slices, OnDataset s t → Carries s t

instance (md : Metadata) : Decidable (InStep md) :=
  inferInstanceAs (Decidable (∀ t ∈ md.tables, _))

/-- A role that held a dataset before the change holds it after. -/
def KeepsRoles (md md' : Metadata) : Prop :=
  ∀ t ∈ md.tables, ∀ t' ∈ md'.tables, t'.id = t.id → ∀ v ∈ t.perm, ∀ v' ∈ t'.perm,
    ∀ roleId, md.Holds roleId DATASOURCE_ACCESS v → md'.Holds roleId DATASOURCE_ACCESS v'

/-- The metadata tables with the next primary keys of `dbs` and `tables`. -/
structure World where
  md : Metadata := {}
  nextDatabaseId : Nat := 1
  nextTableId : Nat := 1
  deriving DecidableEq

inductive Event where
  | createDatabase (name : String)
  | renameDatabase (id : Nat) (newName : String)
  | createDataset (tableName : String) (databaseId : Nat) (schema catalog : Option String)
      (passDatabase : Bool)
  | updateDataset (id : Nat) (tableName : String) (databaseId : Nat)
      (schema catalog : Option String)
  | deleteDataset (id : Nat)
  | createChart (id datasetId : Nat)
  | grant (roleId permissionViewId : Nat)
  | revoke (roleId permissionViewId : Nat)

def findTable (md : Metadata) (id : Nat) : Option SqlaTable := md.tables.find? fun t => t.id = id

section Changes
variable (w : World)

def createDatabase (name : String) : Option World :=
  if w.md.dbs.any fun d => d.databaseName = name then none
  else
    let database : Database := ⟨w.nextDatabaseId, name⟩
    let md : Metadata := { w.md with dbs := w.md.dbs ++ [database] }
    some { w with
      md := md.onDatabaseCreated database
      nextDatabaseId := w.nextDatabaseId + 1 }

def renameDatabase (id : Nat) (newName : String) : Option World :=
  match w.md.findDatabase id with
  | none => none
  | some old =>
    if w.md.dbs.any fun d => d.id ≠ id && d.databaseName = newName then none
    else
      let database : Database := ⟨id, newName⟩
      let md : Metadata :=
        { w.md with dbs := w.md.dbs.map fun d => if d.id = id then database else d }
      some { w with md := md.onDatabaseUpdated database (some old.databaseName) }

def createDataset (tableName : String) (databaseId : Nat) (schema catalog : Option String)
    (passDatabase : Bool) : Option World :=
  match w.md.findDatabase databaseId with
  | none => none
  | some database =>
    let dataset : SqlaTable := { id := w.nextTableId, tableName, databaseId, schema, catalog }
    let md : Metadata := { w.md with tables := w.md.tables ++ [dataset] }
    some { w with
      md := md.onDatasetCreated dataset (if passDatabase then some database else none)
      nextTableId := w.nextTableId + 1 }

def updateDataset (id : Nat) (tableName : String) (databaseId : Nat)
    (schema catalog : Option String) : Option World :=
  match findTable w.md id, w.md.findDatabase databaseId with
  | some old, some _ =>
    let dataset : SqlaTable := { old with tableName, databaseId, schema, catalog }
    let md := w.md.updateTable id fun t => { t with tableName, databaseId, schema, catalog }
    some { w with md := md.onDatasetUpdated dataset {
      tableName := some old.tableName
      databaseId := some old.databaseId
      databaseName := (w.md.findDatabase old.databaseId).map (·.databaseName)
      schema := old.schema
      catalog := old.catalog } }
  | _, _ => none

def deleteDataset (id : Nat) : Option World :=
  (findTable w.md id).map fun dataset =>
    let md : Metadata := { w.md with tables := w.md.tables.filter fun t => t.id ≠ id }
    { w with md := md.onDatasetDeleted dataset none }

def createChart (id datasetId : Nat) : Option World :=
  (findTable w.md datasetId).map fun t =>
    let chart : Slice := {
      id
      datasourceId := some datasetId
      datasourceType := some "table"
      perm := t.perm
      schemaPerm := t.schemaPerm
      catalogPerm := t.catalogPerm }
    { w with md := { w.md with slices := w.md.slices ++ [chart] } }

def grant (roleId permissionViewId : Nat) : Option World :=
  if w.md.permissionViews.any fun pv => pv.id = permissionViewId then
    some { w with md := { w.md with
      permissionViewRoles := w.md.permissionViewRoles ++ [⟨permissionViewId, roleId⟩] } }
  else none

def revoke (roleId permissionViewId : Nat) : Option World :=
  some { w with md := { w.md with
    permissionViewRoles := w.md.permissionViewRoles.filter fun g =>
      g ≠ ⟨permissionViewId, roleId⟩ } }

def step : Event → Option World
  | .createDatabase name => createDatabase w name
  | .renameDatabase id newName => renameDatabase w id newName
  | .createDataset tableName databaseId schema catalog passDatabase =>
    createDataset w tableName databaseId schema catalog passDatabase
  | .updateDataset id tableName databaseId schema catalog =>
    updateDataset w id tableName databaseId schema catalog
  | .deleteDataset id => deleteDataset w id
  | .createChart id datasetId => createChart w id datasetId
  | .grant roleId permissionViewId => grant w roleId permissionViewId
  | .revoke roleId permissionViewId => revoke w roleId permissionViewId

end Changes

/-- `on_dataset_updated` recomputes the schema and catalog strings: an old schema
or catalog that was null counts as unchanged. -/
def Recomputes (t : SqlaTable) (databaseId : Nat) (schema catalog : Option String) : Prop :=
  databaseId ≠ t.databaseId ∨ (t.schema ≠ none ∧ t.schema ≠ schema) ∨
    t.catalog ≠ none ∧ t.catalog ≠ catalog

instance (t : SqlaTable) (databaseId : Nat) (schema catalog : Option String) :
    Decidable (Recomputes t databaseId schema catalog) :=
  inferInstanceAs (Decidable (_ ∨ _ ∨ _))

def OrderlyRename (w : World) (id : Nat) (newName : String) : Prop :=
  (∃ db ∈ w.md.dbs, db.id = id ∧ db.databaseName ≠ newName) →
    ∀ t ∈ w.md.tables, t.databaseId = id → truthy t.schema = false ∧ truthy t.catalog = false

/-- A schema or catalog that was null stays null or empty unless the strings are
recomputed, none is set to the empty string when they are, and no empty name is
given up. -/
def OrderlyUpdate (w : World) (t : SqlaTable) (tableName : String) (databaseId : Nat)
    (schema catalog : Option String) : Prop :=
  (Recomputes t databaseId schema catalog → schema ≠ some "" ∧ catalog ≠ some "") ∧
  (¬ Recomputes t databaseId schema catalog →
    (t.schema = none → truthy schema = false) ∧ (t.catalog = none → truthy catalog = false)) ∧
  (tableName ≠ t.tableName → t.tableName ≠ "") ∧
  (databaseId ≠ t.databaseId → ∀ db ∈ w.md.dbs, db.id = t.databaseId → db.databaseName ≠ "")

instance (w : World) (id : Nat) (newName : String) : Decidable (OrderlyRename w id newName) :=
  inferInstanceAs (Decidable ((∃ db ∈ w.md.dbs, _) → _))

instance (w : World) (t : SqlaTable) (tableName : String) (databaseId : Nat)
    (schema catalog : Option String) :
    Decidable (OrderlyUpdate w t tableName databaseId schema catalog) :=
  inferInstanceAs (Decidable (_ ∧ _ ∧ _ ∧ _))

def Orderly (w : World) : Event → Prop
  | .renameDatabase id newName => OrderlyRename w id newName
  | .updateDataset id tableName databaseId schema catalog => ∀ t ∈ w.md.tables, t.id = id →
      OrderlyUpdate w t tableName databaseId schema catalog
  | _ => True

instance (w : World) : (e : Event) → Decidable (Orderly w e)
  | .renameDatabase id newName => inferInstanceAs (Decidable (OrderlyRename w id newName))
  | .updateDataset id tableName databaseId schema catalog =>
    inferInstanceAs (Decidable (∀ t ∈ w.md.tables, t.id = id →
      OrderlyUpdate w t tableName databaseId schema catalog))
  | .createDatabase _ | .createDataset _ _ _ _ _ | .deleteDataset _ | .createChart _ _
  | .grant _ _ | .revoke _ _ => isTrue trivial

def Event.isRename : Event → Bool
  | .renameDatabase _ _ | .updateDataset _ _ _ _ _ => true
  | _ => false

end Liteset.Security.Sync
