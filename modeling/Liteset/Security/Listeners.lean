import Liteset.Security.PermissionSync

/-!
# The mapper listeners of `models/_listeners.py`

The listeners run inside a flush, on the live connection.  A flush saves one object
after the other; an object in memory may be older than its row, so each save says
which values the session had loaded, and the ORM writes only attributes that differ
from those.  A statement that breaks the unique name of a view menu aborts the flush.
-/

set_option autoImplicit false

namespace Liteset.Security.Listeners

open Metadata Sync

/-- `SUBSTR(text, 1, LENGTH(start)) = start` -/
def StartsWith (start text : String) : Prop := start.toList <+: text.toList

instance (start text : String) : Decidable (StartsWith start text) :=
  inferInstanceAs (Decidable (_ <+: _))

/-- `:new || SUBSTR(text, LENGTH(old) + 1)` for the texts that start with `old`. -/
def replaceStart (old new text : String) : String :=
  if StartsWith old text then new ++ String.ofList (text.toList.drop old.toList.length) else text

section Connection
variable (md : Metadata)

def ensurePermission (name : String) : Metadata × Permission := md.findOrCreatePermission name

def ensureViewMenu (name : String) : Metadata × ViewMenu := md.findOrCreateViewMenu name

def ensurePvm (permName viewMenuName : String) : Metadata :=
  let (md, permission) := ensurePermission md permName
  let (md, viewMenu) := ensureViewMenu md viewMenuName
  if md.permissionViews.any fun pv =>
      pv.permissionId = permission.id && pv.viewMenuId = viewMenu.id then md
  else (md.insertPermissionView permission.id viewMenu.id).1

def deletePvmById (pvm : PermissionView) : Metadata := md.deletePvm pvm

def deletePvm (permName viewMenuName : String) : Metadata :=
  match md.findPermissionViewMenu permName viewMenuName with
  | none => md
  | some pvm => deletePvmById md pvm

/-- `UPDATE ab_view_menu SET name = …`, which fails when two rows get one name. -/
def renameViewMenus (rename : String → String) : Option Metadata :=
  let viewMenus := md.viewMenus.map fun vm => { vm with name := rename vm.name }
  if (viewMenus.map ViewMenu.name).Nodup then some { md with viewMenus } else none

def renameViewMenu (oldName newName : String) : Option Metadata :=
  renameViewMenus md fun name => if name = oldName then newName else name

end Connection

section Databases
variable (md : Metadata) (target : Database)

def databasePermFor : String := getDatabasePerm target.id target.databaseName

def databaseAfterInsert : Metadata := ensurePvm md DATABASE_ACCESS (databasePermFor target)

/-- `deleted` is the old name in the attribute history, when the session had
loaded one and it changed. -/
def databaseAfterUpdate (deleted : Option String) : Option Metadata :=
  match deleted with
  | none => some md
  | some oldName =>
    let newName := target.databaseName
    if oldName = newName then some md
    else
      let oldPrefix := "[" ++ oldName ++ "]."
      let newPrefix := "[" ++ newName ++ "]."
      do
        let md ← renameViewMenu md (getDatabasePerm target.id oldName) (databasePermFor target)
        let md ← renameViewMenus md (replaceStart oldPrefix newPrefix)
        some { md with
          tables := md.tables.map fun t =>
            { t with perm := t.perm.map (replaceStart oldPrefix newPrefix) }
          slices := md.slices.map fun s =>
            { s with perm := s.perm.map (replaceStart oldPrefix newPrefix) } }

/-- The `schema_access` and `catalog_access` rows whose name starts with `[name].`. -/
def prefixedPvms (databaseName : String) : List PermissionView :=
  md.permissionViews.filter fun pv =>
    (md.permissions.any fun p =>
        p.id = pv.permissionId && (p.name = SCHEMA_ACCESS || p.name = CATALOG_ACCESS)) &&
      md.viewMenus.any fun vm =>
        vm.id = pv.viewMenuId && decide (StartsWith ("[" ++ databaseName ++ "].") vm.name)

def databaseAfterDelete : Metadata :=
  let md := deletePvm md DATABASE_ACCESS (databasePermFor target)
  (prefixedPvms md target.databaseName).foldl deletePvmById md

end Databases

section Datasets
variable (md : Metadata)

def databaseNameFor (databaseId : Nat) : Option String :=
  (md.findDatabase databaseId).map Database.databaseName

def datasetPerm (target : SqlaTable) : Option String :=
  (databaseNameFor md target.databaseId).map fun name =>
    getDatasetPerm target.id target.tableName name

def updateDatasetPerm (oldName : Option String) (newName : String) (targetId : Nat) :
    Option Metadata :=
  if newName = "" then some md
  else
    match md.findViewMenu newName with
    | some _ => some md
    | none =>
      match if truthy oldName then md.findViewMenu (oldName.getD "") else none with
      | none => some (ensurePvm md DATASOURCE_ACCESS newName)
      | some _ => do
          let md ← renameViewMenu md (oldName.getD "") newName
          let md := md.updateTable targetId fun t => { t with perm := some newName }
          some (md.updateCharts targetId fun s => { s with perm := some newName })

def updateDatasetCatalogSchemaPerm (catalogPerm schemaPerm : Option String) (targetId : Nat) :
    Metadata :=
  let md := if truthy catalogPerm then ensurePvm md CATALOG_ACCESS (catalogPerm.getD "") else md
  let md := if truthy schemaPerm then ensurePvm md SCHEMA_ACCESS (schemaPerm.getD "") else md
  let md := md.updateTable targetId fun t => { t with catalogPerm, schemaPerm }
  md.updateCharts targetId fun s => { s with catalogPerm, schemaPerm }

/-- The target is the object in memory; its `perm` is the one the session loaded. -/
def sqlatableBeforeUpdate (target : SqlaTable) : Option (Metadata × SqlaTable) :=
  match findTable md target.id with
  | none => some (md, { target with perm := datasetPerm md target <|> target.perm })
  | some current =>
    let databaseName := (databaseNameFor md target.databaseId).getD "None"
    let newName := getDatasetPerm target.id target.tableName databaseName
    let catalogPerm := getCatalogPerm databaseName target.catalog
    let schemaPerm := getSchemaPerm databaseName target.catalog target.schema
    do
      let (md, target) ←
        if current.databaseId ≠ target.databaseId then do
          let md ← updateDatasetPerm md target.perm newName target.id
          some (updateDatasetCatalogSchemaPerm md catalogPerm schemaPerm target.id,
            { target with perm := some newName })
        else some (md, target)
      let (md, target) ←
        if current.tableName ≠ target.tableName then do
          let oldName := getDatasetPerm target.id current.tableName databaseName
          let md ← updateDatasetPerm md (some oldName) newName target.id
          some (md, { target with perm := some newName })
        else some (md, target)
      if current.catalog ≠ target.catalog ∨ current.schema ≠ target.schema then
        some (updateDatasetCatalogSchemaPerm md catalogPerm schemaPerm target.id, target)
      else some (md, target)

def sqlatableAfterInsert (target : SqlaTable) : Metadata :=
  match datasetPerm md target with
  | none => md
  | some perm =>
    let md := ensurePvm md DATASOURCE_ACCESS perm
    let md := md.updateTable target.id fun t => { t with perm := some perm }
    let databaseName := (databaseNameFor md target.databaseId).getD "None"
    let schemaPerm := getSchemaPerm databaseName target.catalog target.schema
    let catalogPerm := getCatalogPerm databaseName target.catalog
    let md := if truthy target.schema && truthy schemaPerm then
        ensurePvm md SCHEMA_ACCESS (schemaPerm.getD "") else md
    let md := if truthy target.catalog && truthy catalogPerm then
        ensurePvm md CATALOG_ACCESS (catalogPerm.getD "") else md
    md.updateTable target.id fun t =>
      { t with
        schemaPerm := if truthy target.schema then schemaPerm else t.schemaPerm
        catalogPerm := if truthy target.catalog then catalogPerm else t.catalogPerm }

def sqlatableAfterDelete (loadedPerm : Option String) : Metadata :=
  if truthy loadedPerm then deletePvm md DATASOURCE_ACCESS (loadedPerm.getD "") else md

end Datasets

structure Strings where
  perm : Option String
  schemaPerm : Option String
  catalogPerm : Option String
  deriving DecidableEq, Repr

/-- `target.datasource_type or "table"` is `"table"`. -/
def tableType (datasourceType : Option String) : Bool :=
  !truthy datasourceType || datasourceType == some "table"

/-- The strings that `_slice_set_related_perm` assigns, if it assigns any. -/
def sliceSetRelatedPerm (md : Metadata) (datasourceId : Option Nat)
    (datasourceType : Option String) : Option Strings :=
  match datasourceId with
  | none => none
  | some id =>
    if id = 0 || !tableType datasourceType then none
    else (findTable md id).map fun t => ⟨t.perm, t.schemaPerm, t.catalogPerm⟩

inductive Save where
  | insertDatabase (name : String)
  | updateDatabase (id : Nat) (newName : String) (deleted : Option String)
  | deleteDatabase (id : Nat) (name : String)
  | insertDataset (tableName : String) (databaseId : Nat) (schema catalog : Option String)
  | updateDataset (id : Nat) (tableName : String) (databaseId : Nat)
      (schema catalog : Option String) (loadedPerm : Option String)
  | deleteDataset (id : Nat) (loadedPerm : Option String)
  | insertChart (id : Nat) (datasourceId : Option Nat) (datasourceType : Option String)
  | updateChart (id : Nat) (datasourceId : Option Nat) (datasourceType : Option String)
      (loaded : Strings)
  | deleteChart (id : Nat)

/-- What an `UPDATE` leaves in a column: an attribute that equals the loaded value
is not written. -/
def written (loaded assigned stored : Option String) : Option String :=
  if assigned = loaded then stored else assigned

section Saves
variable (w : World)

def insertDatabase (name : String) : Option World :=
  if w.md.dbs.any fun d => d.databaseName = name then none
  else
    let target : Database := ⟨w.nextDatabaseId, name⟩
    let md : Metadata := { w.md with dbs := w.md.dbs ++ [target] }
    some { w with
      md := databaseAfterInsert md target
      nextDatabaseId := w.nextDatabaseId + 1 }

def updateDatabase (id : Nat) (newName : String) (deleted : Option String) : Option World :=
  match w.md.findDatabase id with
  | none => none
  | some _ =>
    if w.md.dbs.any fun d => d.id ≠ id && d.databaseName = newName then none
    else do
      let target : Database := ⟨id, newName⟩
      let md : Metadata :=
        { w.md with dbs := w.md.dbs.map fun d => if d.id = id then target else d }
      let md ← databaseAfterUpdate md target deleted
      some { w with md }

/-- The foreign key of `tables` keeps a database that has datasets. -/
def deleteDatabase (id : Nat) (name : String) : Option World :=
  match w.md.findDatabase id with
  | none => none
  | some _ =>
    if w.md.tables.any fun t => t.databaseId = id then none
    else
      let md : Metadata := { w.md with dbs := w.md.dbs.filter fun d => d.id ≠ id }
      some { w with md := databaseAfterDelete md ⟨id, name⟩ }

def insertDataset (tableName : String) (databaseId : Nat) (schema catalog : Option String) :
    Option World :=
  match w.md.findDatabase databaseId with
  | none => none
  | some _ =>
    let target : SqlaTable := { id := w.nextTableId, tableName, databaseId, schema, catalog }
    let md : Metadata := { w.md with tables := w.md.tables ++ [target] }
    some { w with
      md := sqlatableAfterInsert md target
      nextTableId := w.nextTableId + 1 }

def updateDataset (id : Nat) (tableName : String) (databaseId : Nat)
    (schema catalog : Option String) (loadedPerm : Option String) : Option World :=
  match findTable w.md id, w.md.findDatabase databaseId with
  | some row, some _ => do
      let (md, target) ← sqlatableBeforeUpdate w.md
        { row with tableName, databaseId, schema, catalog, perm := loadedPerm }
      some { w with md := (md.updateTable id fun t =>
        { t with tableName, databaseId, schema, catalog,
                 perm := written loadedPerm target.perm t.perm }) }
  | _, _ => none

def deleteDataset (id : Nat) (loadedPerm : Option String) : Option World :=
  (findTable w.md id).map fun _ =>
    let md : Metadata := { w.md with tables := w.md.tables.filter fun t => t.id ≠ id }
    { w with md := sqlatableAfterDelete md loadedPerm }

def insertChart (id : Nat) (datasourceId : Option Nat) (datasourceType : Option String) :
    Option World :=
  if w.md.slices.any fun s => s.id = id then none
  else
    let strings := (sliceSetRelatedPerm w.md datasourceId datasourceType).getD ⟨none, none, none⟩
    let chart : Slice := {
      id := id
      datasourceId := datasourceId
      datasourceType := datasourceType
      perm := strings.perm
      schemaPerm := strings.schemaPerm
      catalogPerm := strings.catalogPerm }
    some { w with md := { w.md with slices := w.md.slices ++ [chart] } }

def updateChart (id : Nat) (datasourceId : Option Nat) (datasourceType : Option String)
    (loaded : Strings) : Option World :=
  if w.md.slices.any fun s => s.id = id then
    let strings := (sliceSetRelatedPerm w.md datasourceId datasourceType).getD loaded
    let change (s : Slice) : Slice := { s with
      datasourceId := datasourceId
      datasourceType := datasourceType
      perm := written loaded.perm strings.perm s.perm
      schemaPerm := written loaded.schemaPerm strings.schemaPerm s.schemaPerm
      catalogPerm := written loaded.catalogPerm strings.catalogPerm s.catalogPerm }
    some { w with md := { w.md with
      slices := w.md.slices.map fun s => if s.id = id then change s else s } }
  else none

def deleteChart (id : Nat) : Option World :=
  some { w with md := { w.md with slices := w.md.slices.filter fun s => s.id ≠ id } }

def save : Save → Option World
  | .insertDatabase name => insertDatabase w name
  | .updateDatabase id newName deleted => updateDatabase w id newName deleted
  | .deleteDatabase id name => deleteDatabase w id name
  | .insertDataset tableName databaseId schema catalog =>
    insertDataset w tableName databaseId schema catalog
  | .updateDataset id tableName databaseId schema catalog loadedPerm =>
    updateDataset w id tableName databaseId schema catalog loadedPerm
  | .deleteDataset id loadedPerm => deleteDataset w id loadedPerm
  | .insertChart id datasourceId datasourceType => insertChart w id datasourceId datasourceType
  | .updateChart id datasourceId datasourceType loaded =>
    updateChart w id datasourceId datasourceType loaded
  | .deleteChart id => deleteChart w id

end Saves

def flush (w : World) : List Save → Option World
  | [] => some w
  | s :: rest => (save w s).bind fun w' => flush w' rest

inductive Event where
  | flushed (saves : List Save)
  | granted (roleId permissionViewId : Nat)
  | revoked (roleId permissionViewId : Nat)

def step (w : World) : Event → Option World
  | .flushed saves => flush w saves
  | .granted roleId permissionViewId => grant w roleId permissionViewId
  | .revoked roleId permissionViewId => revoke w roleId permissionViewId

inductive Object where
  | database (id : Nat)
  | schema (databaseId : Nat) (catalog schema : Option String)
  | catalog (databaseId : Nat) (catalog : Option String)
  | dataset (id : Nat)

def Object.permission : Object → String
  | .database _ => DATABASE_ACCESS
  | .schema _ _ _ => SCHEMA_ACCESS
  | .catalog _ _ => CATALOG_ACCESS
  | .dataset _ => DATASOURCE_ACCESS

def view (md : Metadata) : Object → Option String
  | .database id => (md.findDatabase id).map fun d => getDatabasePerm id d.databaseName
  | .schema id catalog schema =>
    (md.findDatabase id).bind fun d => getSchemaPerm d.databaseName catalog schema
  | .catalog id catalog => (md.findDatabase id).bind fun d => getCatalogPerm d.databaseName catalog
  | .dataset id => (findTable md id).bind SqlaTable.perm

def Present (md : Metadata) : Object → Prop
  | .database id | .schema id _ _ | .catalog id _ => (md.findDatabase id).isSome
  | .dataset id => (findTable md id).isSome

def Granted (md : Metadata) (roleId : Nat) (object : Object) : Prop :=
  ∃ v ∈ view md object, md.Holds roleId object.permission v

/-- A role holds an object after the change exactly when it held it before: no
object that is there afterwards gained or lost a grant, and a new one has none. -/
def Follows (md md' : Metadata) : Prop :=
  ∀ roleId object, Present md' object → (Granted md roleId object ↔ Granted md' roleId object)

def Extends (name longer : String) : Prop := StartsWith (name ++ "].") longer

instance (name longer : String) : Decidable (Extends name longer) :=
  inferInstanceAs (Decidable (StartsWith _ _))

def Apart (name other : String) : Prop := ¬ Continues name other ∧ ¬ Continues other name

instance (name other : String) : Decidable (Apart name other) :=
  inferInstanceAs (Decidable (_ ∧ _))

section Orderly
variable (w : World)

def Moved (t : SqlaTable) (databaseId : Nat) (schema catalog : Option String) : Prop :=
  t.databaseId ≠ databaseId ∨ t.catalog ≠ catalog ∨ t.schema ≠ schema

instance (t : SqlaTable) (databaseId : Nat) (schema catalog : Option String) :
    Decidable (Moved t databaseId schema catalog) :=
  inferInstanceAs (Decidable (_ ∨ _ ∨ _))

/-- The name history is the stored name, no name on either side runs into another
database's strings, and the new name does not go on after the old one. -/
def OrderlyDatabase (d : Database) (newName : String) (deleted : Option String) : Prop :=
  if d.databaseName = newName then ∀ v ∈ deleted, v = newName
  else deleted = some d.databaseName ∧ ¬ Extends d.databaseName newName ∧
    ∀ o ∈ w.md.dbs, o.id ≠ d.id → ¬ Extends d.databaseName o.databaseName ∧
      Apart newName o.databaseName

instance (d : Database) (newName : String) (deleted : Option String) :
    Decidable (OrderlyDatabase w d newName deleted) := by
  unfold OrderlyDatabase
  infer_instance

/-- A dataset that changes its database is known under its stored `perm`, and no
string is recomputed from an empty schema or catalog. -/
def OrderlyDataset (t : SqlaTable) (databaseId : Nat) (schema catalog : Option String)
    (loadedPerm : Option String) : Prop :=
  (t.databaseId ≠ databaseId → loadedPerm = t.perm) ∧
    (Moved t databaseId schema catalog → schema ≠ some "" ∧ catalog ≠ some "")

instance (t : SqlaTable) (databaseId : Nat) (schema catalog : Option String)
    (loadedPerm : Option String) :
    Decidable (OrderlyDataset t databaseId schema catalog loadedPerm) :=
  inferInstanceAs (Decidable (_ ∧ _))

def OrderlyStrings (strings loaded : Strings) (s : Slice) : Prop :=
  (strings.perm = loaded.perm → s.perm = strings.perm) ∧
    (strings.schemaPerm = loaded.schemaPerm → s.schemaPerm = strings.schemaPerm) ∧
    (strings.catalogPerm = loaded.catalogPerm → s.catalogPerm = strings.catalogPerm)

instance (strings loaded : Strings) (s : Slice) : Decidable (OrderlyStrings strings loaded s) :=
  inferInstanceAs (Decidable (_ ∧ _ ∧ _))

def Drawn (datasourceId : Option Nat) (datasourceType : Option String) : Prop :=
  datasourceType = some "table" → ∀ id ∈ datasourceId, id < w.nextTableId

instance (datasourceId : Option Nat) (datasourceType : Option String) :
    Decidable (Drawn w datasourceId datasourceType) :=
  inferInstanceAs (Decidable (_ → _))

def OrderlySave : Save → Prop
  | .insertDatabase name => ∀ o ∈ w.md.dbs, Apart name o.databaseName
  | .updateDatabase id newName deleted => ∀ d ∈ w.md.dbs, d.id = id →
      OrderlyDatabase w d newName deleted
  | .deleteDatabase id name => ∀ d ∈ w.md.dbs, d.id = id → name = d.databaseName ∧
      ∀ o ∈ w.md.dbs, o.id ≠ id → ¬ Extends d.databaseName o.databaseName
  | .insertDataset _ _ _ _ => True
  | .updateDataset id _ databaseId schema catalog loadedPerm => ∀ t ∈ w.md.tables, t.id = id →
      OrderlyDataset t databaseId schema catalog loadedPerm
  | .deleteDataset id loadedPerm => ∀ t ∈ w.md.tables, t.id = id → loadedPerm = t.perm
  | .insertChart _ datasourceId datasourceType => Drawn w datasourceId datasourceType
  | .updateChart id datasourceId datasourceType loaded =>
    Drawn w datasourceId datasourceType ∧
      ∀ strings ∈ sliceSetRelatedPerm w.md datasourceId datasourceType,
        ∀ s ∈ w.md.slices, s.id = id → OrderlyStrings strings loaded s
  | .deleteChart _ => True

instance : (s : Save) → Decidable (OrderlySave w s)
  | .insertDatabase _ => inferInstanceAs (Decidable (∀ o ∈ w.md.dbs, _))
  | .updateDatabase _ _ _ | .deleteDatabase _ _ =>
    inferInstanceAs (Decidable (∀ d ∈ w.md.dbs, _ → _))
  | .updateDataset _ _ _ _ _ _ | .deleteDataset _ _ =>
    inferInstanceAs (Decidable (∀ t ∈ w.md.tables, _ → _))
  | .insertChart _ datasourceId datasourceType =>
    inferInstanceAs (Decidable (Drawn w datasourceId datasourceType))
  | .updateChart _ _ _ _ =>
    inferInstanceAs (Decidable (_ ∧ ∀ strings ∈ _, ∀ s ∈ w.md.slices, _ → _))
  | .insertDataset _ _ _ _ | .deleteChart _ => isTrue trivial

/-- The datasets whose schema and catalog strings still name an old database:
a rename adds those of the database, and a save that recomputes takes one away. -/
def staleAfter (stale : List Nat) : Save → List Nat
  | .updateDatabase id newName _ =>
    if w.md.dbs.any fun d => d.id = id && d.databaseName ≠ newName then
      stale ++ (w.md.tables.filter fun t =>
        t.databaseId = id && (truthy t.schema || truthy t.catalog)).map SqlaTable.id
    else stale
  | .updateDataset id _ databaseId schema catalog _ =>
    if ∃ t ∈ w.md.tables, t.id = id ∧ Moved t databaseId schema catalog then
      stale.filter fun i => i ≠ id
    else stale
  | .deleteDataset id _ => stale.filter fun i => i ≠ id
  | _ => stale

end Orderly

def OrderlySaves (w : World) (stale : List Nat) : List Save → Prop
  | [] => stale = []
  | s :: rest => OrderlySave w s ∧
      match save w s with
      | none => True
      | some w' => OrderlySaves w' (staleAfter w stale s) rest

instance decidableOrderlySaves (w : World) (stale : List Nat) :
    (saves : List Save) → Decidable (OrderlySaves w stale saves)
  | [] => inferInstanceAs (Decidable (stale = []))
  | s :: rest =>
    match taken : save w s with
    | none => decidable_of_iff (OrderlySave w s) (by simp [OrderlySaves, taken])
    | some w' =>
      have := decidableOrderlySaves w' (staleAfter w stale s) rest
      decidable_of_iff (OrderlySave w s ∧ OrderlySaves w' (staleAfter w stale s) rest)
        (by simp [OrderlySaves, taken])

def Orderly (w : World) : Event → Prop
  | .flushed saves => OrderlySaves w [] saves
  | .granted _ _ | .revoked _ _ => True

instance (w : World) : (e : Event) → Decidable (Orderly w e)
  | .flushed saves => inferInstanceAs (Decidable (OrderlySaves w [] saves))
  | .granted _ _ | .revoked _ _ => isTrue trivial

end Liteset.Security.Listeners
