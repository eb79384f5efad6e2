import Liteset.Security.PermissionSyncDatabases

/-!
# Runs of orderly changes

The changes of datasets, charts and grants keep the invariant as well, so it holds
in every state that a run of orderly changes reaches from empty tables; renames
and moves keep the roles.
-/

set_option autoImplicit false

namespace Liteset.Security.Sync

open Metadata Lib.Runs List

variable {md : Metadata}

theorem WellFormed.withTables (wf : md.WellFormed) {tables : List SqlaTable}
    (slices : List Slice) (ids : (tables.map SqlaTable.id).Nodup) :
    ({ md with tables, slices } : Metadata).WellFormed :=
  { wf with tableIds := ids }

theorem updateTable_ids (md : Metadata) (id : Nat) {change : SqlaTable → SqlaTable}
    (keeps : ∀ t, (change t).id = t.id) :
    (md.updateTable id change).tables.map SqlaTable.id = md.tables.map SqlaTable.id := by
  rw [updateTable, map_map]
  apply map_congr_left
  intro t _
  by_cases hit : t.id = id
  · simp only [Function.comp, if_pos hit, keeps]
  · simp only [Function.comp, if_neg hit]

theorem WellFormed.updateTable (wf : md.WellFormed) (id : Nat)
    (change : SqlaTable → SqlaTable) (keeps : ∀ t, (change t).id = t.id) :
    (md.updateTable id change).WellFormed := by
  refine WellFormed.withTables wf md.slices ?_
  have ids := updateTable_ids md id keeps
  exact ids ▸ wf.tableIds

theorem WellFormed.updateCharts (wf : md.WellFormed) (id : Nat)
    (change : Slice → Slice) : (md.updateCharts id change).WellFormed :=
  { wf with }

def datasetViews (databaseName : String) (t : SqlaTable) : List (String × String) :=
  [(DATASOURCE_ACCESS, getDatasetPerm t.id t.tableName databaseName)] ++
    (expectedSchemaPerm databaseName t.catalog t.schema).toList.map (fun v => (SCHEMA_ACCESS, v)) ++
    (expectedCatalogPerm databaseName t.catalog).toList.map fun v => (CATALOG_ACCESS, v)

def inStepRow (databaseName : String) (t : SqlaTable) : SqlaTable :=
  { t with
    perm := some (getDatasetPerm t.id t.tableName databaseName)
    schemaPerm := expectedSchemaPerm databaseName t.catalog t.schema
    catalogPerm := expectedCatalogPerm databaseName t.catalog }

theorem inStepRow_inStep (databaseName : String) (t : SqlaTable) :
    RowInStep databaseName (inStepRow databaseName t) :=
  ⟨rfl, rfl, rfl⟩

theorem expectedSchemaPerm_ne_empty {name v : String} {catalog schema : Option String}
    (built : v ∈ expectedSchemaPerm name catalog schema) : v ≠ "" := by
  obtain ⟨inner, rfl⟩ := expectedSchemaPerm_bracketed built
  exact bracketed_ne_empty name inner

theorem expectedCatalogPerm_ne_empty {name v : String} {catalog : Option String}
    (built : v ∈ expectedCatalogPerm name catalog) : v ≠ "" := by
  obtain ⟨inner, rfl⟩ := expectedCatalogPerm_bracketed built
  exact bracketed_ne_empty name inner

theorem datasetViews_cases {name p v : String} {t : SqlaTable}
    (listed : (p, v) ∈ datasetViews name t) :
    v = getDatasetPerm t.id t.tableName name ∨ ∃ other inner, v = bracketed other inner := by
  unfold datasetViews at listed
  rcases mem_append.mp listed with first | isCatalog
  · rcases mem_append.mp first with isOwn | isSchema
    · exact .inl (Prod.mk.inj (mem_singleton.mp isOwn)).2
    · obtain ⟨w, built, same⟩ := mem_map.mp isSchema
      obtain ⟨inner, shape⟩ := expectedSchemaPerm_bracketed (Option.mem_toList.mp built)
      exact .inr ⟨name, inner, (Prod.mk.inj same).2.symm.trans shape⟩
  · obtain ⟨w, built, same⟩ := mem_map.mp isCatalog
    obtain ⟨inner, shape⟩ := expectedCatalogPerm_bracketed (Option.mem_toList.mp built)
    exact .inr ⟨name, inner, (Prod.mk.inj same).2.symm.trans shape⟩

theorem hasRow_inStepRow {name : String} {t : SqlaTable}
    (has : ∀ p v, (p, v) ∈ datasetViews name t → md.Has p v) : HasRow md (inStepRow name t) := by
  refine ⟨?_, ?_, ?_⟩
  · intro v isPerm
    apply has
    rw [← Option.some.inj isPerm]
    exact mem_append_left _ (mem_append_left _ mem_cons_self)
  · intro v isPerm
    apply has
    exact mem_append_left _ (mem_append_right _
      (mem_map_of_mem (Option.mem_toList.mpr isPerm)))
  · intro v isPerm
    apply has
    exact mem_append_right _ (mem_map_of_mem (Option.mem_toList.mpr isPerm))

/-- The columns `on_dataset_created` sets: a string that is null leaves its column. -/
def newStrings (databaseName : String) (dataset t : SqlaTable) : SqlaTable :=
  let datasetPerm := getDatasetPerm dataset.id dataset.tableName databaseName
  { t with
    perm := if dataset.perm ≠ some datasetPerm then some datasetPerm else t.perm
    schemaPerm := expectedSchemaPerm databaseName dataset.catalog dataset.schema <|> t.schemaPerm
    catalogPerm := expectedCatalogPerm databaseName dataset.catalog <|> t.catalogPerm }

variable {database : Database}

/-- `on_dataset_created` adds the permission views, then sets the strings of the row. -/
theorem onDatasetCreated_adds (wf : md.WellFormed) (dataset : SqlaTable)
    {passed : Option Database}
    (found : (passed <|> md.findDatabase dataset.databaseId) = some database)
    (blank : dataset.perm = none ∧ dataset.schemaPerm = none ∧ dataset.catalogPerm = none) :
    ∃ md' change, Adds md md' (datasetViews database.databaseName dataset) ∧
      md.onDatasetCreated dataset passed = md'.updateTable dataset.id change ∧
      (∀ t, (change t).id = t.id) ∧ change dataset = inStepRow database.databaseName dataset := by
  have own := addPermissionViewMenu_adds_some wf DATASOURCE_ACCESS _
    (getDatasetPerm_ne_empty dataset.id dataset.tableName database.databaseName)
  have schema := addPermissionViewMenu_adds own.wellFormed SCHEMA_ACCESS
    (expectedSchemaPerm database.databaseName dataset.catalog dataset.schema)
    fun v built => expectedSchemaPerm_ne_empty built
  have catalog := addPermissionViewMenu_adds schema.wellFormed CATALOG_ACCESS
    (expectedCatalogPerm database.databaseName dataset.catalog)
    fun v built => expectedCatalogPerm_ne_empty built
  refine ⟨_, newStrings database.databaseName dataset, (own.trans schema).trans catalog, ?_,
    fun _ => rfl, ?_⟩
  · simp only [Metadata.onDatasetCreated, found]
    rfl
  · simp [newStrings, inStepRow, blank]

theorem Inv.appendDataset {stale : List Nat} {w : World} {md' : Metadata} {dataset : SqlaTable}
    (inv : Inv stale w) (inDbs : database ∈ w.md.dbs)
    (isDatabase : database.id = dataset.databaseId) (isNext : dataset.id = w.nextTableId)
    (wf : md'.WellFormed) (dbs : md'.dbs = w.md.dbs)
    (slices : md'.slices = w.md.slices)
    (tables : ∀ t ∈ md'.tables, t ∈ w.md.tables ∨ t = inStepRow database.databaseName dataset)
    (has : ∀ p v, md'.Has p v ↔ w.md.Has p v ∨ (p, v) ∈ datasetViews database.databaseName dataset)
    (named : ∀ v, md'.Named v ↔
      w.md.Named v ∨ ∃ p, (p, v) ∈ datasetViews database.databaseName dataset) :
    Inv stale ⟨md', w.nextDatabaseId, w.nextTableId + 1⟩ := by
  obtain ⟨nameOf, synced, fromDatabase⟩ := inv.synced
  have older : ∀ t ∈ w.md.tables, t.id ≠ w.nextTableId :=
    fun t member => Nat.ne_of_lt (inv.datasets.ids t member)
  have datasetNamed : ∀ id table name, md'.Named (getDatasetPerm id table name) →
      w.md.Named (getDatasetPerm id table name) ∨
        getDatasetPerm id table name =
          getDatasetPerm dataset.id dataset.tableName database.databaseName := by
    intro id table name isNamed
    rcases (named _).mp isNamed with old | ⟨p, listed⟩
    · exact .inl old
    · rcases datasetViews_cases listed with isOwn | ⟨other, inner, shape⟩
      · exact .inr isOwn
      · exact absurd shape (getDatasetPerm_ne_bracketed _ _ _ _ _)
  have updated : ∀ t ∈ w.md.tables,
      Function.update nameOf dataset.id database.databaseName t.id = nameOf t.id :=
    fun t old => Function.update_of_ne (isNext ▸ older t old) _ _
  have updatedNew : Function.update nameOf dataset.id database.databaseName
      (inStepRow database.databaseName dataset).id = database.databaseName :=
    Function.update_self _ _ _
  have newHas := hasRow_inStepRow fun p v listed => (has p v).mpr (.inr listed)
  refine ⟨wf, ⟨Function.update nameOf dataset.id database.databaseName,
    ⟨?_, ?_, ?_, ?_, ?_, ?_⟩, ?_⟩, inv.databases.frame dbs ?_ ?_, ⟨?_, ?_, ?_⟩⟩
  · intro t member
    rcases tables t member with old | rfl
    · rw [updated t old]
      exact synced.perms t old
    · rw [updatedNew]
      rfl
  · intro t member v isPerm
    rcases tables t member with old | rfl
    · exact (has _ v).mpr (.inl (synced.hasPerm t old v isPerm))
    · exact newHas.1 v isPerm
  · intro t member fresh
    rcases tables t member with old | rfl
    · rw [updated t old]
      exact synced.rows t old fresh
    · rw [updatedNew]
      exact inStepRow_inStep _ _
  · intro t member fresh
    rcases tables t member with old | rfl
    · obtain ⟨perm, schemaPerm, catalogPerm⟩ := synced.has t old fresh
      exact ⟨fun v isPerm => (has _ v).mpr (.inl (perm v isPerm)),
        fun v isPerm => (has _ v).mpr (.inl (schemaPerm v isPerm)),
        fun v isPerm => (has _ v).mpr (.inl (catalogPerm v isPerm))⟩
    · exact newHas
  · intro t member s inSlices on
    rw [slices] at inSlices
    rcases tables t member with old | rfl
    · exact synced.charts t old s inSlices on
    · -- no chart points at an id that has not been drawn
      have below := inv.datasets.charts s inSlices dataset.id (Prod.ext on.1 on.2)
      omega
  · intro t member table name isNamed
    rcases tables t member with old | rfl
    · rcases datasetNamed t.id table name isNamed with inOld | same
      · exact synced.menus t old table name inOld
      · have sameId := getDatasetPerm_id _ _ _ _ _ _ same
        exact absurd (sameId.trans isNext) (older t old)
    · rcases datasetNamed dataset.id table name isNamed with inOld | same
      · exact absurd inOld (inv.datasets.menus _ _ _ (Nat.le_of_eq isNext.symm))
      · exact congrArg some same.symm
  · intro t member
    rw [dbs]
    rcases tables t member with old | rfl
    · rw [updated t old]
      exact fromDatabase t old
    · exact ⟨database, inDbs, isDatabase, updatedNew.symm⟩
  · intro p v _ old
    exact (has p v).mpr (.inl old)
  · intro id name isNamed
    rcases (named _).mp isNamed with old | ⟨p, listed⟩
    · exact old
    · rcases datasetViews_cases listed with isOwn | ⟨other, inner, shape⟩
      · exact absurd isOwn (notDataset_databasePerm _ _ _ _ _)
      · exact absurd shape (getDatabasePerm_ne_bracketed _ _ _ _)
  · intro t member
    rcases tables t member with old | rfl
    · exact Nat.lt_succ_of_lt (inv.datasets.ids t old)
    · exact Nat.lt_succ_of_le (Nat.le_of_eq isNext)
  · intro id table name drawn isNamed
    rcases datasetNamed id table name isNamed with old | same
    · exact inv.datasets.menus id table name (Nat.le_of_succ_le drawn) old
    · have sameId := getDatasetPerm_id _ _ _ _ _ _ same
      rw [sameId, isNext] at drawn
      exact absurd drawn (Nat.not_succ_le_self _)
  · intro s member id isId
    exact Nat.lt_succ_of_lt (inv.datasets.charts s (slices ▸ member) id isId)

theorem Inv.onDatasetCreated {w : World} {dataset : SqlaTable} {passed : Option Database}
    (inv : Inv [] w) (isNext : dataset.id = w.nextTableId)
    (inDbs : database ∈ w.md.dbs) (isDatabase : database.id = dataset.databaseId)
    (blank : dataset.perm = none ∧ dataset.schemaPerm = none ∧ dataset.catalogPerm = none)
    (found : (passed <|> w.md.findDatabase dataset.databaseId) = some database) :
    Inv [] ⟨Metadata.onDatasetCreated { w.md with tables := w.md.tables ++ [dataset] }
      dataset passed, w.nextDatabaseId, w.nextTableId + 1⟩ := by
  have older : ∀ t ∈ w.md.tables, t.id ≠ dataset.id :=
    fun t member => isNext ▸ Nat.ne_of_lt (inv.datasets.ids t member)
  have wf : ({ w.md with tables := w.md.tables ++ [dataset] } : Metadata).WellFormed :=
    WellFormed.withTables inv.wellFormed w.md.slices
      (nodup_map_append inv.wellFormed.tableIds older)
  obtain ⟨md', change, adds, result, keepsId, newRow⟩ :=
    onDatasetCreated_adds wf dataset found blank
  have tables : md'.tables = w.md.tables ++ [dataset] := adds.objects.tables
  refine result.symm ▸ inv.appendDataset inDbs isDatabase isNext ?_ adds.objects.dbs
    adds.objects.slices ?_ adds.has adds.named
  · exact WellFormed.updateTable adds.wellFormed dataset.id change keepsId
  · intro t member
    obtain ⟨old, inTables, rfl⟩ := mem_map.mp member
    rw [tables] at inTables
    rcases mem_append.mp inTables with inOld | isNew
    · rw [if_neg (older old inOld)]
      exact .inl inOld
    · rw [mem_singleton.mp isNew, if_pos rfl]
      exact .inr newRow

variable {w w' : World}

theorem Inv.createDataset {tableName : String} {databaseId : Nat}
    {schema catalog : Option String} {passDatabase : Bool} (inv : Inv [] w)
    (taken : createDataset w tableName databaseId schema catalog passDatabase = some w') :
    Inv [] w' := by
  unfold Sync.createDataset at taken
  cases found : w.md.findDatabase databaseId with
  | none => simp [found] at taken
  | some database =>
    obtain ⟨inDbs, isDatabase⟩ := findDatabase_eq_some found
    simp only [found, Option.some.injEq] at taken
    subst taken
    refine inv.onDatasetCreated rfl inDbs isDatabase ⟨rfl, rfl, rfl⟩ ?_
    cases passDatabase with
    | true => rfl
    | false => exact found

def carry (row : SqlaTable) (s : Slice) : Slice :=
  { s with perm := row.perm, schemaPerm := row.schemaPerm, catalogPerm := row.catalogPerm }

structure Rewrites (md md' : Metadata) (id : Nat) (oldPerm newPerm name : String)
    (row : SqlaTable) : Prop where
  moves : Moves md md' oldPerm newPerm name
  dbs : md'.dbs = md.dbs
  tables : md'.tables = md.tables.map fun t => if t.id = id then row else t
  slices : md'.slices = md.slices.map fun s =>
    if s.datasourceId = some id ∧ s.datasourceType = some "table" then carry row s else s

theorem Rewrites.next {md md₁ md₂ : Metadata} {id : Nat} {oldPerm newPerm newerPerm name : String}
    {row : SqlaTable} (rewrites : Rewrites md md₁ id oldPerm newPerm name row) (isRow : row.id = id)
    (change : SqlaTable → SqlaTable) (changeChart : Slice → Slice)
    (charts : ∀ s, changeChart (carry row s) = carry (change row) s)
    (moves : Moves md md₂ oldPerm newerPerm name) (dbs : md₂.dbs = md₁.dbs)
    (tables : md₂.tables = (md₁.updateTable id change).tables)
    (slices : md₂.slices = (md₁.updateCharts id changeChart).slices) :
    Rewrites md md₂ id oldPerm newerPerm name (change row) := by
  refine ⟨moves, dbs.trans rewrites.dbs, ?_, ?_⟩
  · rw [tables, updateTable, rewrites.tables, map_map]
    apply map_congr_left
    intro t _
    by_cases hit : t.id = id
    · simp only [Function.comp, if_pos hit, if_pos isRow]
    · simp only [Function.comp, if_neg hit]
  · rw [slices, updateCharts, rewrites.slices, map_map]
    apply map_congr_left
    intro s _
    by_cases on : s.datasourceId = some id ∧ s.datasourceType = some "table"
    · have onAfter : (carry row s).datasourceId = some id ∧
          (carry row s).datasourceType = some "table" := on
      simp only [Function.comp, if_pos on, if_pos onAfter, charts]
    · simp only [Function.comp, if_neg on]

section Change
variable {stale : List Nat} {w : World} {old : SqlaTable} {nameOf : Nat → String} {md : Metadata}

theorem rewrites_updateTable (wf : md.WellFormed)
    (synced : Synced stale nameOf md) (member : old ∈ md.tables) {oldPerm : String}
    (isOld : old.perm = some oldPerm)
    (change : SqlaTable → SqlaTable) (keeps : ∀ t, (change t).id = t.id)
    (strings : (change old).perm = old.perm ∧ (change old).schemaPerm = old.schemaPerm ∧
      (change old).catalogPerm = old.catalogPerm) (name : String) :
    Rewrites md (md.updateTable old.id change) old.id oldPerm oldPerm name (change old) := by
  have hasOld := synced.hasPerm old member oldPerm isOld
  have stays := Moves.refl wf hasOld name
  refine ⟨⟨WellFormed.updateTable wf old.id change keeps, stays.has, stays.hasNew, stays.origin,
    stays.named, stays.holds⟩, rfl, ?_, ?_⟩
  · apply map_congr_left
    intro t inTables
    by_cases hit : t.id = old.id
    · rw [table_eq_of_id wf inTables member hit, if_pos rfl]
    · rw [if_neg hit, if_neg hit]
  · rw [show (md.updateTable old.id change).slices = md.slices from rfl]
    conv_lhs => rw [← map_id md.slices]
    apply map_congr_left
    intro s inSlices
    by_cases on : s.datasourceId = some old.id ∧ s.datasourceType = some "table"
    · obtain ⟨perm, schemaPerm, catalogPerm⟩ := synced.charts old member s inSlices on
      rw [if_pos on, carry, strings.1, strings.2.1, strings.2.2, ← perm, ← schemaPerm,
        ← catalogPerm]
      rfl
    · rw [if_neg on]
      rfl

variable {oldPerm newPerm name : String} {row : SqlaTable}

theorem Rewrites.updateDatasetPerm {md md₁ : Metadata} {id : Nat}
    (rewrites : Rewrites md md₁ id oldPerm oldPerm name row) (isRow : row.id = id)
    (isOld : row.perm = some oldPerm) (unbracketed : ∀ inner, oldPerm ≠ bracketed name inner)
    (only : md₁.Named newPerm → newPerm = oldPerm) :
    Rewrites md (md₁.updateDatasetPerm id oldPerm newPerm) id oldPerm newPerm name
      { row with perm := some newPerm } := by
  unfold Metadata.updateDatasetPerm
  cases found : md₁.findViewMenu newPerm with
  | some vm =>
    obtain ⟨inMenus, named⟩ := findViewMenu_eq_some found
    have same := only ⟨vm, inMenus, named⟩
    rw [same, ← isOld]
    exact rewrites
  | none =>
    have hasOld := rewrites.moves.hasNew
    cases foundOld : md₁.findViewMenu oldPerm with
    | none => exact absurd hasOld.named (findViewMenu_none_iff.mp foundOld)
    | some vm =>
      have renames := renameViewMenu_renames rewrites.moves.wellFormed hasOld.named
        (findViewMenu_none_iff.mp found)
      have moved := Moves.of_renames renames hasOld name
      have wf := WellFormed.updateTable renames.wellFormed id
        (fun t => { t with perm := some newPerm }) fun _ => rfl
      refine rewrites.next isRow (fun t => { t with perm := some newPerm })
        (fun s => { s with perm := some newPerm }) (fun _ => rfl)
        (rewrites.moves.after ⟨WellFormed.updateCharts wf id _, moved.has, moved.hasNew,
          moved.origin, moved.named, moved.holds⟩ unbracketed) renames.objects.dbs ?_ ?_
      · simp only [updateTable, updateCharts, renames.objects.tables]
      · simp only [updateTable, updateCharts, renames.objects.slices]

/-- `if new_perm: await self.add_permission_view_menu(...)` -/
theorem adds_ifTruthy (wf : md.WellFormed) (permission : String)
    {name : String} (view : Option String) (shape : ∀ v ∈ view, ∃ inner, v = bracketed name inner) :
    Adds md (if truthy view then (md.addPermissionViewMenu permission view).1 else md)
      (view.toList.map fun v => (permission, v)) := by
  have nonempty : ∀ v ∈ view, v ≠ "" := by
    intro v isView
    obtain ⟨inner, rfl⟩ := shape v isView
    exact bracketed_ne_empty name inner
  cases view with
  | none => exact Adds.nil wf
  | some v =>
    rw [if_pos (by simpa [truthy] using nonempty v rfl)]
    exact addPermissionViewMenu_adds_some wf permission v (nonempty v rfl)

theorem Rewrites.updateDatasetSchemaPerm {md md₁ : Metadata} {id : Nat}
    (rewrites : Rewrites md md₁ id oldPerm newPerm name row) (isRow : row.id = id)
    (catalogPerm schemaPerm : Option String)
    (catalogShape : ∀ v ∈ catalogPerm, ∃ inner, v = bracketed name inner)
    (schemaShape : ∀ v ∈ schemaPerm, ∃ inner, v = bracketed name inner) :
    Rewrites md (md₁.updateDatasetSchemaPerm id catalogPerm schemaPerm) id oldPerm newPerm name
        { row with catalogPerm, schemaPerm } ∧
      (∀ v ∈ catalogPerm,
        (md₁.updateDatasetSchemaPerm id catalogPerm schemaPerm).Has CATALOG_ACCESS v) ∧
      ∀ v ∈ schemaPerm,
        (md₁.updateDatasetSchemaPerm id catalogPerm schemaPerm).Has SCHEMA_ACCESS v := by
  have first := adds_ifTruthy rewrites.moves.wellFormed CATALOG_ACCESS catalogPerm catalogShape
  have second := adds_ifTruthy first.wellFormed SCHEMA_ACCESS schemaPerm schemaShape
  have both := first.trans second
  have moved := rewrites.moves.adds both (by
    intro p v isNew
    rcases mem_append.mp isNew with isCatalog | isSchema
    · obtain ⟨u, listed, same⟩ := mem_map.mp isCatalog
      obtain ⟨rfl, rfl⟩ := Prod.mk.inj same
      exact ⟨.inr rfl, catalogShape u (Option.mem_toList.mp listed)⟩
    · obtain ⟨u, listed, same⟩ := mem_map.mp isSchema
      obtain ⟨rfl, rfl⟩ := Prod.mk.inj same
      exact ⟨.inl rfl, schemaShape u (Option.mem_toList.mp listed)⟩)
  have wf := WellFormed.updateTable both.wellFormed id
    (fun t => { t with catalogPerm, schemaPerm }) fun _ => rfl
  refine ⟨?_, ?_, ?_⟩
  · refine rewrites.next isRow (fun t => { t with catalogPerm, schemaPerm })
      (fun s => { s with catalogPerm, schemaPerm }) (fun _ => rfl)
      ⟨WellFormed.updateCharts wf id _, moved.has, moved.hasNew, moved.origin, moved.named,
        moved.holds⟩ both.objects.dbs ?_ ?_
    · simp only [Metadata.updateDatasetSchemaPerm, updateTable, updateCharts, both.objects.tables]
    · simp only [Metadata.updateDatasetSchemaPerm, updateTable, updateCharts, both.objects.slices]
  · intro v isPerm
    exact (both.has CATALOG_ACCESS v).mpr (.inr (mem_append_left _
      (mem_map_of_mem (Option.mem_toList.mpr isPerm))))
  · intro v isPerm
    exact (both.has SCHEMA_ACCESS v).mpr (.inr (mem_append_right _
      (mem_map_of_mem (Option.mem_toList.mpr isPerm))))

theorem Inv.rewritten {stale' : List Nat} {md' : Metadata} {oldPerm newPerm : String}
    {database : Database} (inv : Inv stale w) (member : old ∈ w.md.tables)
    (isOld : old.perm = some oldPerm)
    (rewrites : Rewrites w.md md' old.id oldPerm newPerm database.databaseName row)
    (isRow : row.id = old.id) (isNew : row.perm = some newPerm)
    (newShape : newPerm = getDatasetPerm row.id row.tableName database.databaseName)
    (inStep : row.id ∉ stale' → RowInStep database.databaseName row ∧ HasRow md' row)
    (others : ∀ id, id ≠ old.id → id ∉ stale' → id ∉ stale) (inDbs : database ∈ w.md.dbs)
    (isDatabase : database.id = row.databaseId) : Inv stale' { w with md := md' } ∧
    KeepsRoles w.md md' := by
  obtain ⟨nameOf, synced, fromDatabase⟩ := inv.synced
  have rows : ∀ t ∈ md'.tables, t = row ∨ t ∈ w.md.tables ∧ t.id ≠ old.id :=
    rewrites.tables ▸ row_or_other
  have charts : ∀ s' ∈ md'.slices, ∃ s ∈ w.md.slices,
      (OnDataset s' row ∧ s' = carry row s ∨ ¬ OnDataset s' row ∧ s' = s) ∧
      chartKey s = chartKey s' := by
    intro s' inSlices
    rw [rewrites.slices, ← isRow] at inSlices
    obtain ⟨s, inOld, rfl⟩ := mem_map.mp inSlices
    by_cases on : s.datasourceId = some row.id ∧ s.datasourceType = some "table"
    · rw [if_pos on]
      exact ⟨s, inOld, .inl ⟨on, rfl⟩, rfl⟩
    · rw [if_neg on]
      exact ⟨s, inOld, .inr ⟨on, rfl⟩, rfl⟩
  obtain ⟨has, named, datasetNamed⟩ :=
    rewrites.moves.names synced member isOld isRow newShape
  refine ⟨⟨rewrites.moves.wellFormed, ⟨Function.update nameOf old.id database.databaseName, ?_, ?_⟩,
    inv.databases.frame rewrites.dbs has named, inv.datasets.frame ?_ ?_ datasetNamed⟩,
    rewrites.moves.keepsRoles inv.wellFormed synced member isOld isRow isNew rows⟩
  · refine synced.replace member isOld isRow isNew newShape rewrites.moves.hasNew inStep others rows
      ?_ ?_ rewrites.moves.has fun _ _ _ => rewrites.moves.datasetNamed
    · intro s' inSlices on
      obtain ⟨s, inOld, ⟨-, rfl⟩ | ⟨off, -⟩, -⟩ := charts s' inSlices
      · exact ⟨rfl, rfl, rfl⟩
      · exact absurd on off
    · intro t inTables other s' inSlices on
      obtain ⟨s, inOld, ⟨onRow, -⟩ | ⟨-, rfl⟩, -⟩ := charts s' inSlices
      · have sameId := Option.some.inj (onRow.1.symm.trans on.1)
        exact absurd (sameId.symm.trans isRow) other
      · exact synced.charts t inTables s' inOld on
  · intro t inTables
    rw [rewrites.dbs]
    rcases rows t inTables with rfl | ⟨inOld, other⟩
    · exact ⟨database, inDbs, isDatabase, by rw [isRow, Function.update_self]⟩
    · rw [Function.update_of_ne other]
      exact fromDatabase t inOld
  · intro t inTables
    rcases rows t inTables with rfl | ⟨inOld, -⟩
    · exact ⟨old, member, isRow.symm⟩
    · exact ⟨t, inOld, rfl⟩
  · intro s' inSlices
    obtain ⟨s, inOld, -, same⟩ := charts s' inSlices
    exact ⟨s, inOld, same⟩

theorem findTable_eq_some {id : Nat} {t : SqlaTable}
    (found : findTable md id = some t) : t ∈ md.tables ∧ t.id = id :=
  ⟨mem_of_find?_eq_some found, by simpa using find?_some found⟩

/-- `old or current`, where an empty old value stands for an empty current one. -/
theorem effective_old {oldName current : String} (whenEmpty : oldName = "" → current = oldName) :
    (if truthy (some oldName) then (some oldName).getD "" else current) = oldName := by
  by_cases empty : oldName = ""
  · rw [if_neg (by simp [truthy, empty])]
    exact whenEmpty empty
  · rw [if_pos (by simpa [truthy] using empty)]
    rfl

/-- `on_dataset_updated` with the true old values of an orderly change. -/
theorem onDatasetUpdated_eq {dataset : SqlaTable} {database : Database}
    {oldTable oldDatabaseName : String} {oldDatabaseId : Nat} {oldSchema oldCatalog : Option String}
    (found : md.findDatabase dataset.databaseId = some database)
    (table : oldTable = "" → dataset.tableName = oldTable)
    (name : oldDatabaseName = "" → database.databaseName = oldDatabaseName) :
    md.onDatasetUpdated dataset ⟨some oldTable, some oldDatabaseId, some oldDatabaseName, oldSchema,
        oldCatalog⟩ =
      let md₁ :=
        if oldDatabaseId ≠ dataset.databaseId ∨ oldTable ≠ dataset.tableName then
          md.updateDatasetPerm dataset.id (getDatasetPerm dataset.id oldTable oldDatabaseName)
            (getDatasetPerm dataset.id dataset.tableName database.databaseName)
        else md
      if oldDatabaseId ≠ dataset.databaseId ∨ (oldSchema ≠ none ∧ oldSchema ≠ dataset.schema) ∨
          oldCatalog ≠ none ∧ oldCatalog ≠ dataset.catalog then
        md₁.updateDatasetSchemaPerm dataset.id
          (getCatalogPerm database.databaseName dataset.catalog)
          (getSchemaPerm database.databaseName dataset.catalog dataset.schema)
      else md₁ := by
  have changed : ∀ old new : Option String,
      (old.any fun value => decide (some value ≠ new)) = true ↔ old ≠ none ∧ old ≠ new := by
    intro old new
    cases old <;> simp
  simp only [Metadata.onDatasetUpdated, found, effective_old table, effective_old name,
    Bool.or_eq_true, changed, Option.any_some, decide_eq_true_eq, or_assoc]

/-- The strings that `on_dataset_updated` does not recompute are those of the new values. -/
theorem expected_unchanged {t : SqlaTable} {databaseId : Nat} {schema catalog : Option String}
    (name : String) (unchanged : ¬ Recomputes t databaseId schema catalog)
    (stays : (t.schema = none → truthy schema = false) ∧
      (t.catalog = none → truthy catalog = false)) :
    expectedSchemaPerm name catalog schema = expectedSchemaPerm name t.catalog t.schema ∧
      expectedCatalogPerm name catalog = expectedCatalogPerm name t.catalog := by
  have either : ∀ old new : Option String, ¬ (old ≠ none ∧ old ≠ new) →
      (old = none → truthy new = false) → old = new ∨ truthy old = false ∧ truthy new = false := by
    intro old new same blank
    cases old with
    | none => exact .inr ⟨rfl, blank rfl⟩
    | some value =>
      left
      by_contra differs
      exact same ⟨by simp, differs⟩
  have schemas := either t.schema schema (fun both => unchanged (.inr (.inl both))) stays.1
  have catalogs := either t.catalog catalog (fun both => unchanged (.inr (.inr both))) stays.2
  refine ⟨?_, ?_⟩
  · rcases schemas with rfl | ⟨oldBlank, newBlank⟩
    · rcases catalogs with rfl | ⟨oldBlank, newBlank⟩
      · rfl
      · unfold expectedSchemaPerm getSchemaPerm
        cases t.schema with
        | none => rfl
        | some value => simp only [oldBlank, newBlank, Bool.false_eq_true, if_false]
    · simp only [expectedSchemaPerm, oldBlank, newBlank, Bool.false_eq_true, if_false]
  · rcases catalogs with rfl | ⟨oldBlank, newBlank⟩
    · rfl
    · simp only [expectedCatalogPerm, oldBlank, newBlank, Bool.false_eq_true, if_false]

theorem getSchemaPerm_expected (name : String) (catalog : Option String) {schema : Option String}
    (nonempty : schema ≠ some "") :
    getSchemaPerm name catalog schema = expectedSchemaPerm name catalog schema := by
  cases schema with
  | none => rfl
  | some value =>
    rw [expectedSchemaPerm, if_pos]
    simpa [truthy] using nonempty

theorem getCatalogPerm_expected (name : String) {catalog : Option String}
    (nonempty : catalog ≠ some "") :
    getCatalogPerm name catalog = expectedCatalogPerm name catalog := by
  cases catalog with
  | none => rfl
  | some value =>
    rw [expectedCatalogPerm, if_pos]
    simpa [truthy] using nonempty

theorem findDatabase_of_mem (wf : md.WellFormed) {db : Database}
    (member : db ∈ md.dbs) : md.findDatabase db.id = some db := by
  cases found : md.findDatabase db.id with
  | none =>
    have absent := find?_eq_none.mp found db member
    simp at absent
  | some other =>
    obtain ⟨inDbs, sameId⟩ := findDatabase_eq_some found
    rw [database_eq_of_id wf inDbs member sameId]

theorem HasRow.moved {md md' : Metadata}
    (moves : Moves md md' oldPerm newPerm name) (dataset : ¬ NotDataset oldPerm)
    (inStep : RowInStep name row) (isNew : row.perm = some newPerm)
    (schemaPerm : ∀ v ∈ row.schemaPerm, md.Has SCHEMA_ACCESS v)
    (catalogPerm : ∀ v ∈ row.catalogPerm, md.Has CATALOG_ACCESS v) : HasRow md' row := by
  refine ⟨?_, ?_, ?_⟩
  · intro v isPerm
    rw [← Option.some.inj (isNew.symm.trans isPerm)]
    exact moves.hasNew
  · intro v isPerm
    obtain ⟨inner, rfl⟩ := expectedSchemaPerm_bracketed (inStep.2.1.symm.trans isPerm)
    refine moves.has _ _ (schemaPerm _ isPerm) ?_
    intro same
    exact dataset (same ▸ notDataset_bracketed name inner)
  · intro v isPerm
    obtain ⟨inner, rfl⟩ := expectedCatalogPerm_bracketed (inStep.2.2.symm.trans isPerm)
    refine moves.has _ _ (catalogPerm _ isPerm) ?_
    intro same
    exact dataset (same ▸ notDataset_bracketed name inner)

section Updated
variable {database oldDb : Database} {change : SqlaTable → SqlaTable}

theorem Inv.movedDataset (inv : Inv stale w) (member : old ∈ w.md.tables)
    (keeps : ∀ t, (change t).id = t.id)
    (strings : (change old).perm = old.perm ∧ (change old).schemaPerm = old.schemaPerm ∧
      (change old).catalogPerm = old.catalogPerm)
    (inDbs : database ∈ w.md.dbs) (isDatabase : database.id = (change old).databaseId)
    (inDbs₀ : oldDb ∈ w.md.dbs) (isDatabase₀ : oldDb.id = old.databaseId)
    (isOld : old.perm = some (getDatasetPerm old.id old.tableName oldDb.databaseName)) :
    Rewrites w.md
      (if old.databaseId ≠ (change old).databaseId ∨ old.tableName ≠ (change old).tableName then
        (w.md.updateTable old.id change).updateDatasetPerm old.id
          (getDatasetPerm old.id old.tableName oldDb.databaseName)
          (getDatasetPerm old.id (change old).tableName database.databaseName)
        else w.md.updateTable old.id change)
      old.id (getDatasetPerm old.id old.tableName oldDb.databaseName)
      (getDatasetPerm old.id (change old).tableName database.databaseName) database.databaseName
      { change old with
        perm := some (getDatasetPerm old.id (change old).tableName database.databaseName) } := by
  obtain ⟨nameOf, synced, -⟩ := inv.synced
  have changed := rewrites_updateTable inv.wellFormed synced member isOld change keeps strings
    database.databaseName
  by_cases moved : old.databaseId ≠ (change old).databaseId ∨ old.tableName ≠ (change old).tableName
  · rw [if_pos moved]
    refine changed.updateDatasetPerm (keeps old) (strings.1.trans isOld)
      (fun inner => getDatasetPerm_ne_bracketed _ _ _ _ inner) ?_
    intro isNamed
    have isOwn := synced.menus old member _ _ isNamed
    exact Option.some.inj (isOwn.symm.trans isOld)
  · rw [if_neg moved]
    rw [not_or, not_not, not_not] at moved
    obtain ⟨sameDatabase, sameTable⟩ := moved
    have isOldDb := database_eq_of_id inv.wellFormed inDbs₀ inDbs
      (isDatabase₀.trans (sameDatabase.trans isDatabase.symm))
    rw [← isOldDb] at changed ⊢
    rw [← sameTable, ← isOld, ← strings.1]
    exact changed

theorem Inv.recomputedDataset {stale' : List Nat} {md₁ : Metadata} {oldPerm : String}
    (inv : Inv stale w) (row : SqlaTable)
    (member : old ∈ w.md.tables) (isOld : old.perm = some oldPerm)
    (moved : Rewrites w.md md₁ old.id oldPerm
      (getDatasetPerm old.id row.tableName database.databaseName) database.databaseName row)
    (isRow : row.id = old.id)
    (isNew : row.perm = some (getDatasetPerm old.id row.tableName database.databaseName))
    (nonempty : row.schema ≠ some "" ∧ row.catalog ≠ some "")
    (others : ∀ id, id ≠ old.id → id ∉ stale' → id ∉ stale) (inDbs : database ∈ w.md.dbs)
    (isDatabase : database.id = row.databaseId) :
    Inv stale' { w with md := (md₁.updateDatasetSchemaPerm old.id
        (getCatalogPerm database.databaseName row.catalog)
        (getSchemaPerm database.databaseName row.catalog row.schema)) } ∧
      KeepsRoles w.md (md₁.updateDatasetSchemaPerm old.id
        (getCatalogPerm database.databaseName row.catalog)
        (getSchemaPerm database.databaseName row.catalog row.schema)) := by
  rw [getCatalogPerm_expected _ nonempty.2, getSchemaPerm_expected _ _ nonempty.1]
  obtain ⟨rewrites, hasCatalog, hasSchema⟩ := moved.updateDatasetSchemaPerm isRow
    (expectedCatalogPerm database.databaseName row.catalog)
    (expectedSchemaPerm database.databaseName row.catalog row.schema)
    (fun v built => expectedCatalogPerm_bracketed built)
    (fun v built => expectedSchemaPerm_bracketed built)
  refine inv.rewritten member isOld rewrites isRow isNew (by rw [isRow])
    (fun _ => ⟨⟨?_, rfl, rfl⟩, ?_, hasSchema, hasCatalog⟩) others inDbs isDatabase
  · rw [isNew, ← isRow]
  · intro v isPerm
    rw [← Option.some.inj (isNew.symm.trans isPerm)]
    exact rewrites.moves.hasNew

theorem Inv.unchangedDataset {md₁ : Metadata} {oldPerm : String} (inv : Inv stale w)
    (row : SqlaTable) (member : old ∈ w.md.tables) (isOld : old.perm = some oldPerm)
    (moved : Rewrites w.md md₁ old.id oldPerm
      (getDatasetPerm old.id row.tableName database.databaseName) database.databaseName row)
    (isRow : row.id = old.id)
    (isNew : row.perm = some (getDatasetPerm old.id row.tableName database.databaseName))
    (strings : row.schemaPerm = old.schemaPerm ∧ row.catalogPerm = old.catalogPerm)
    (expected : old.id ∉ stale →
      old.schemaPerm = expectedSchemaPerm database.databaseName row.catalog row.schema ∧
        old.catalogPerm = expectedCatalogPerm database.databaseName row.catalog)
    (inDbs : database ∈ w.md.dbs) (isDatabase : database.id = row.databaseId) :
    Inv stale { w with md := md₁ } ∧ KeepsRoles w.md md₁ := by
  obtain ⟨nameOf, synced, -⟩ := inv.synced
  refine inv.rewritten member isOld moved isRow isNew (by rw [isRow]) ?_ (fun _ _ fresh => fresh)
    inDbs isDatabase
  intro fresh
  rw [isRow] at fresh
  obtain ⟨-, hasSchema, hasCatalog⟩ := synced.has old member fresh
  have inStep : RowInStep database.databaseName row :=
    ⟨by rw [isNew, ← isRow], strings.1.trans (expected fresh).1,
      strings.2.trans (expected fresh).2⟩
  refine ⟨inStep, ?_⟩
  refine HasRow.moved moved.moves ?_ inStep isNew (strings.1 ▸ hasSchema) (strings.2 ▸ hasCatalog)
  intro plain
  exact plain _ _ _ (Option.some.inj (isOld.symm.trans (synced.perms old member)))

theorem Inv.onDatasetUpdated {md' : Metadata} (inv : Inv [] w) (change : SqlaTable → SqlaTable)
    (member : old ∈ w.md.tables) (keeps : ∀ t, (change t).id = t.id)
    (strings : (change old).perm = old.perm ∧ (change old).schemaPerm = old.schemaPerm ∧
      (change old).catalogPerm = old.catalogPerm)
    (found : w.md.findDatabase (change old).databaseId = some database)
    (orderly : OrderlyUpdate w old (change old).tableName (change old).databaseId
      (change old).schema (change old).catalog)
    (result : md' = (w.md.updateTable old.id change).onDatasetUpdated (change old)
      ⟨some old.tableName, some old.databaseId,
        (w.md.findDatabase old.databaseId).map (·.databaseName), old.schema, old.catalog⟩) :
    Inv [] { w with md := md' } ∧ KeepsRoles w.md md' := by
  obtain ⟨nameOf, synced, fromDatabase⟩ := inv.synced
  obtain ⟨inDbs, isDatabase⟩ := findDatabase_eq_some found
  obtain ⟨oldDb, inDbs₀, isDatabase₀, named⟩ := fromDatabase old member
  have row := synced.rows old member not_mem_nil
  rw [← named] at row
  obtain ⟨recomputed, unchanged, tableNonempty, databaseNonempty⟩ := orderly
  have foundOld : w.md.findDatabase old.databaseId = some oldDb :=
    isDatabase₀ ▸ findDatabase_of_mem inv.wellFormed inDbs₀
  have sameDatabase : (change old).databaseId = old.databaseId → database = oldDb := fun same =>
    database_eq_of_id inv.wellFormed inDbs inDbs₀ (isDatabase.trans (same.trans isDatabase₀.symm))
  have moved := inv.movedDataset member keeps strings inDbs isDatabase inDbs₀ isDatabase₀ row.1
  let newPerm := getDatasetPerm old.id (change old).tableName database.databaseName
  have foundAfter : (w.md.updateTable old.id change).findDatabase (change old).databaseId =
      some database := found
  rw [foundOld, Option.map_some, onDatasetUpdated_eq foundAfter, keeps old] at result
  · by_cases recomputes : Recomputes old (change old).databaseId (change old).schema
      (change old).catalog
    · have condition : old.databaseId ≠ (change old).databaseId ∨ _ := recomputes.imp_left Ne.symm
      simp only [if_pos condition] at result
      have final := inv.recomputedDataset { change old with perm := some newPerm } member row.1
        moved (keeps old) rfl
        (recomputed recomputes) (fun _ _ fresh => fresh) inDbs isDatabase
      exact result ▸ final
    · have condition : ¬ (old.databaseId ≠ (change old).databaseId ∨ _) :=
        fun either => recomputes (either.imp_left Ne.symm)
      simp only [if_neg condition] at result
      have isSame : (change old).databaseId = old.databaseId := by
        by_contra differs
        exact recomputes (.inl differs)
      have expected := expected_unchanged database.databaseName recomputes (unchanged recomputes)
      have oldStrings := row.2
      rw [← sameDatabase isSame] at oldStrings
      have final := inv.unchangedDataset { change old with perm := some newPerm } member row.1 moved
        (keeps old) rfl strings.2
        (fun _ => ⟨oldStrings.1.trans expected.1.symm, oldStrings.2.trans expected.2.symm⟩) inDbs
        isDatabase
      exact result ▸ final
  · intro empty
    by_contra differs
    exact tableNonempty differs empty
  · intro empty
    by_contra differs
    refine databaseNonempty ?_ oldDb inDbs₀ isDatabase₀ empty
    intro same
    exact differs (by rw [sameDatabase same])

theorem Inv.updateDataset {w' : World} {id : Nat} {tableName : String} {databaseId : Nat}
    {schema catalog : Option String} (inv : Inv [] w)
    (orderly : ∀ t ∈ w.md.tables, t.id = id →
      OrderlyUpdate w t tableName databaseId schema catalog)
    (taken : updateDataset w id tableName databaseId schema catalog = some w') :
    Inv [] w' ∧ KeepsRoles w.md w'.md := by
  unfold Sync.updateDataset at taken
  cases foundTable : findTable w.md id with
  | none => simp [foundTable] at taken
  | some old =>
    cases found : w.md.findDatabase databaseId with
    | none => simp [foundTable, found] at taken
    | some database =>
      obtain ⟨member, rfl⟩ := findTable_eq_some foundTable
      simp only [foundTable, found, Option.some.injEq] at taken
      subst taken
      exact inv.onDatasetUpdated (fun t => { t with tableName, databaseId, schema, catalog })
        member (fun _ => rfl) ⟨rfl, rfl, rfl⟩ found (orderly old member rfl) rfl

end Updated

end Change

theorem Inv.dropDataset {stale stale' : List Nat} {w : World} {md' : Metadata}
    (inv : Inv stale w) (gone : SqlaTable) (name : String)
    (others : ∀ id, id ≠ gone.id → id ∉ stale' → id ∉ stale) (wf : md'.WellFormed)
    (objects : md'.dbs = w.md.dbs ∧ md'.slices = w.md.slices)
    (tables : ∀ t ∈ md'.tables, t ∈ w.md.tables ∧ t.id ≠ gone.id)
    (has : ∀ p v, w.md.Has p v →
      ¬ (p = DATASOURCE_ACCESS ∧ v = getDatasetPerm gone.id gone.tableName name) → md'.Has p v)
    (named : ∀ v, md'.Named v → w.md.Named v) : Inv stale' { w with md := md' } := by
  obtain ⟨nameOf, synced, fromDatabase⟩ := inv.synced
  have keepsPerm : ∀ t ∈ md'.tables, ∀ v ∈ t.perm, md'.Has DATASOURCE_ACCESS v := by
    intro t member v isPerm
    obtain ⟨inOld, other⟩ := tables t member
    refine has _ v (synced.hasPerm t inOld v isPerm) ?_
    intro isGone
    exact synced.perm_ne inOld other gone.tableName name (isGone.2 ▸ isPerm)
  refine ⟨wf, ⟨nameOf, ⟨?_, keepsPerm, ?_, ?_, ?_, ?_⟩, ?_⟩,
    inv.databases.frame objects.1 ?_ fun id other => named _, inv.datasets.frame ?_ ?_ ?_⟩
  · intro t member
    exact synced.perms t (tables t member).1
  · intro t member fresh
    obtain ⟨inOld, other⟩ := tables t member
    exact synced.rows t inOld (others t.id other fresh)
  · intro t member fresh
    obtain ⟨inOld, other⟩ := tables t member
    obtain ⟨-, schemaPerm, catalogPerm⟩ := synced.has t inOld (others t.id other fresh)
    refine ⟨keepsPerm t member, ?_, ?_⟩
    · intro v isPerm
      exact has _ v (schemaPerm v isPerm) fun isGone => absurd isGone.1 (by decide)
    · intro v isPerm
      exact has _ v (catalogPerm v isPerm) fun isGone => absurd isGone.1 (by decide)
  · intro t member s inSlices
    exact synced.charts t (tables t member).1 s (objects.2 ▸ inSlices)
  · intro t member table other isNamed
    exact synced.menus t (tables t member).1 table other (named _ isNamed)
  · intro t member
    obtain ⟨db, inDbs, same⟩ := fromDatabase t (tables t member).1
    exact ⟨db, objects.1 ▸ inDbs, same⟩
  · intro p v plain hasOld
    exact has p v hasOld fun isGone => plain _ _ _ isGone.2
  · intro t member
    exact ⟨t, (tables t member).1, rfl⟩
  · intro s member
    exact ⟨s, objects.2 ▸ member, rfl⟩
  · intro id table other isNamed
    exact ⟨table, other, named _ isNamed⟩

theorem onDatasetDeleted_eq {dataset : SqlaTable}
    (found : md.findDatabase dataset.databaseId = some database) :
    md.onDatasetDeleted dataset none = md.delPermissionViewMenu DATASOURCE_ACCESS
      (getDatasetPerm dataset.id dataset.tableName database.databaseName) := by
  have chosen : (none <|> md.findDatabase dataset.databaseId) = some database := found
  simp only [onDatasetDeleted, chosen]

theorem Inv.deleteDataset {id : Nat} (inv : Inv [] w)
    (taken : deleteDataset w id = some w') : Inv [] w' := by
  unfold Sync.deleteDataset at taken
  cases foundTable : findTable w.md id with
  | none => simp [foundTable] at taken
  | some dataset =>
    obtain ⟨member, rfl⟩ := findTable_eq_some foundTable
    simp only [foundTable, Option.map_some, Option.some.injEq] at taken
    subst taken
    have ids : ((w.md.tables.filter fun t => t.id ≠ dataset.id).map SqlaTable.id).Nodup :=
      inv.wellFormed.tableIds.sublist (filter_sublist.map _)
    have wf : ({ w.md with tables := w.md.tables.filter fun t => t.id ≠ dataset.id } :
        Metadata).WellFormed := WellFormed.withTables inv.wellFormed w.md.slices ids
    have rows : ∀ t ∈ w.md.tables.filter fun t => t.id ≠ dataset.id,
        t ∈ w.md.tables ∧ t.id ≠ dataset.id := by
      intro t inFilter
      simpa using mem_filter.mp inFilter
    obtain ⟨nameOf, synced, fromDatabase⟩ := inv.synced
    obtain ⟨database, inDbs, isDatabase, -⟩ := fromDatabase dataset member
    have found : w.md.findDatabase dataset.databaseId = some database :=
      isDatabase ▸ findDatabase_of_mem inv.wellFormed inDbs
    have result : Metadata.onDatasetDeleted
        { w.md with tables := w.md.tables.filter fun t => t.id ≠ dataset.id } dataset none = _ :=
      onDatasetDeleted_eq found
    have objects := delPermissionViewMenu_objects
      { w.md with tables := w.md.tables.filter fun t => t.id ≠ dataset.id } DATASOURCE_ACCESS
      (getDatasetPerm dataset.id dataset.tableName database.databaseName)
    refine result ▸ inv.dropDataset dataset database.databaseName (fun _ _ fresh => fresh)
      (WellFormed.delPermissionViewMenu wf _ _) ⟨objects.dbs, objects.slices⟩ ?_ ?_ ?_
    · rw [objects.tables]
      exact rows
    · intro p v has other
      exact (has_delPermissionViewMenu wf _ _ p v).mpr ⟨has, other⟩
    · intro v named
      have named₀ : Metadata.Named { w.md with
          tables := w.md.tables.filter fun t => t.id ≠ dataset.id } v :=
        named_of_named_delPermissionViewMenu named
      exact named₀

theorem Inv.withCharts {stale : List Nat} {w : World} {slices : List Slice}
    {grants : List PermissionViewRole} (inv : Inv stale w)
    (grantRef : ∀ g ∈ grants, ∃ pv ∈ w.md.permissionViews, pv.id = g.permissionViewId)
    (charts : ∀ t ∈ w.md.tables, ∀ s ∈ slices, OnDataset s t → Carries s t)
    (keys : ∀ s ∈ slices, ∀ id, chartKey s = (some id, some "table") → id < w.nextTableId) :
    Inv stale { w with md := { w.md with slices, permissionViewRoles := grants } } := by
  obtain ⟨nameOf, synced, fromDatabase⟩ := inv.synced
  exact ⟨{ inv.wellFormed with grantRef },
    ⟨nameOf, ⟨synced.perms, synced.hasPerm, synced.rows, synced.has, charts, synced.menus⟩,
      fromDatabase⟩,
    ⟨inv.databases.has, inv.databases.only, inv.databases.fresh, inv.databases.ids⟩,
    ⟨inv.datasets.ids, inv.datasets.menus, keys⟩⟩

theorem Inv.createChart {id datasetId : Nat} (inv : Inv [] w)
    (taken : createChart w id datasetId = some w') : Inv [] w' := by
  unfold Sync.createChart at taken
  cases found : findTable w.md datasetId with
  | none => simp [found] at taken
  | some dataset =>
    obtain ⟨member, rfl⟩ := findTable_eq_some found
    simp only [found, Option.map_some, Option.some.injEq] at taken
    subst taken
    obtain ⟨nameOf, synced, fromDatabase⟩ := inv.synced
    refine inv.withCharts inv.wellFormed.grantRef ?_ ?_
    · intro t inTables s inSlices on
      rcases mem_append.mp inSlices with inOld | isNew
      · exact synced.charts t inTables s inOld on
      · rw [mem_singleton.mp isNew] at on ⊢
        have same := table_eq_of_id inv.wellFormed member inTables (Option.some.inj on.1)
        rw [same]
        exact ⟨rfl, rfl, rfl⟩
    · intro s inSlices chartOn isId
      rcases mem_append.mp inSlices with inOld | isNew
      · exact inv.datasets.charts s inOld chartOn isId
      · rw [mem_singleton.mp isNew] at isId
        rw [← Option.some.inj (congrArg Prod.fst isId)]
        exact inv.datasets.ids dataset member

theorem Inv.grant {roleId permissionViewId : Nat} (inv : Inv [] w)
    (taken : grant w roleId permissionViewId = some w') : Inv [] w' := by
  unfold Sync.grant at taken
  split at taken
  · rename_i exists_
    rw [Option.some.injEq] at taken
    subst taken
    obtain ⟨nameOf, synced, -⟩ := inv.synced
    refine inv.withCharts ?_ synced.charts inv.datasets.charts
    refine forall_mem_append_singleton inv.wellFormed.grantRef ?_
    simpa using exists_
  · cases taken

theorem Inv.revoke {roleId permissionViewId : Nat} (inv : Inv [] w)
    (taken : revoke w roleId permissionViewId = some w') : Inv [] w' := by
  unfold Sync.revoke at taken
  rw [Option.some.injEq] at taken
  subst taken
  obtain ⟨nameOf, synced, -⟩ := inv.synced
  refine inv.withCharts ?_ synced.charts inv.datasets.charts
  intro g member
  exact inv.wellFormed.grantRef g (mem_filter.mp member).1

theorem Inv.start : Inv [] {} := by
  refine ⟨?_, ⟨fun _ => "", ⟨?_, ?_, ?_, ?_, ?_, ?_⟩, ?_⟩, ⟨?_, ?_, ?_, ?_⟩, ⟨?_, ?_, ?_⟩⟩
  · constructor <;> simp
  all_goals simp [FromDatabase, Named]

theorem Inv.step {e : Event} (inv : Inv [] w) (orderly : Orderly w e)
    (taken : step w e = some w') : Inv [] w' ∧ (e.isRename = true → KeepsRoles w.md w'.md) := by
  cases e with
  | createDatabase name => exact ⟨inv.createDatabase taken, by simp [Event.isRename]⟩
  | renameDatabase id newName =>
    obtain ⟨after, roles⟩ := inv.renameDatabase orderly taken
    exact ⟨after, fun _ => roles⟩
  | createDataset tableName databaseId schema catalog passDatabase =>
    exact ⟨inv.createDataset taken, by simp [Event.isRename]⟩
  | updateDataset id tableName databaseId schema catalog =>
    obtain ⟨after, roles⟩ := inv.updateDataset orderly taken
    exact ⟨after, fun _ => roles⟩
  | deleteDataset id => exact ⟨inv.deleteDataset taken, by simp [Event.isRename]⟩
  | createChart id datasetId => exact ⟨inv.createChart taken, by simp [Event.isRename]⟩
  | grant roleId permissionViewId => exact ⟨inv.grant taken, by simp [Event.isRename]⟩
  | revoke roleId permissionViewId => exact ⟨inv.revoke taken, by simp [Event.isRename]⟩

theorem inv_of_reaches {w : World} (reached : Reaches step Orderly {} w) : Inv [] w :=
  reached.invariant (Inv []) Inv.start fun _ _ _ inv orderly taken => (inv.step orderly taken).1

/-- In every run of orderly changes the strings stay in step and the renames keep
the roles. -/
theorem inStep_of_orderly (w : World) (reached : Reaches step Orderly {} w) :
    InStep w.md ∧ ∀ e w', Orderly w e → step w e = some w' → e.isRename = true →
      InStep w'.md ∧ KeepsRoles w.md w'.md := by
  have inv := inv_of_reaches reached
  refine ⟨inv.inStep, ?_⟩
  intro e w' orderly taken isRename
  obtain ⟨after, roles⟩ := inv.step orderly taken
  exact ⟨after.inStep, roles isRename⟩

def orderlyRun : List Event :=
  [.createDatabase "a", .createDatabase "b", .createDataset "t" 1 none none true, .createChart 1 1,
    .grant 7 3, .renameDatabase 1 "c", .updateDataset 1 "u" 2 (some "s") none]

/-- The run can be taken, and the role still holds the dataset at its end. -/
theorem inStep_orderlyRun :
    ∃ w, Reaches step Orderly {} w ∧ InStep w.md ∧
      w.md.Holds 7 DATASOURCE_ACCESS (getDatasetPerm 1 "u" "b") := by
  obtain ⟨w, reached, holds⟩ := exists_reaches_of_runWithin step Orderly {} orderlyRun
    (fun w => w.md.Holds 7 DATASOURCE_ACCESS (getDatasetPerm 1 "u" "b")) (by decide)
  exact ⟨w, reached, (inStep_of_orderly w reached).1, holds⟩

/-- The rename of a database leaves `[a].[s]` on the dataset and its chart. -/
theorem not_inStep_renamed : ∃ w, Reaches step anyStep {} w ∧ ¬ InStep w.md :=
  exists_reaches_of_runWithin step anyStep {}
    [.createDatabase "a", .createDataset "t" 1 (some "s") none true, .createChart 1 1,
      .renameDatabase 1 "b"]
    (fun w => ¬ InStep w.md) (by decide)

end Liteset.Security.Sync
