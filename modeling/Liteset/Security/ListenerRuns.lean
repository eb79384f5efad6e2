import Liteset.Security.ListenerDatasets

/-!
# Runs of orderly flushes

An update rewrites the dataset row and its charts at most three times before the ORM
writes the columns of the row.  With it every save keeps the invariant and the grants
follow, and so does every run of orderly flushes, grants and revocations from empty
tables.
-/

set_option autoImplicit false

namespace Liteset.Security.Listeners

open Metadata Sync Lib.Runs

section Rewriting
variable {md md₁ md₂ : Metadata} {id : Nat} {oldPerm newPerm name : String} {row : SqlaTable}

/-- `_update_dataset_perm`, when the old name is that of the row. -/
theorem rewrites_updateDatasetPerm (rewrites : Rewrites md md₁ id oldPerm oldPerm name row)
    (isRow : row.id = id)
    (isOld : row.perm = some oldPerm) (unbracketed : ∀ inner, oldPerm ≠ bracketed name inner)
    (nonempty : oldPerm ≠ "" ∧ newPerm ≠ "") (only : md₁.Named newPerm → newPerm = oldPerm)
    (taken : updateDatasetPerm md₁ (some oldPerm) newPerm id = some md₂) :
    Rewrites md md₂ id oldPerm newPerm name { row with perm := some newPerm } := by
  have hasOld := rewrites.moves.hasNew
  have isTruthy : truthy (some oldPerm) = true := by simpa [truthy] using nonempty.1
  unfold Listeners.updateDatasetPerm at taken
  rw [if_neg nonempty.2] at taken
  cases found : md₁.findViewMenu newPerm with
  | some vm =>
    rw [found, Option.some.injEq] at taken
    subst taken
    obtain ⟨inMenus, named⟩ := findViewMenu_eq_some found
    rw [only ⟨vm, inMenus, named⟩, ← isOld]
    exact rewrites
  | none =>
    cases foundOld : md₁.findViewMenu oldPerm with
    | none => exact absurd hasOld.named (findViewMenu_none_iff.mp foundOld)
    | some vm =>
      simp only [found, isTruthy, if_true, Option.getD_some, foundOld, Option.bind_eq_bind,
        Option.bind_eq_some_iff, Option.some.injEq] at taken
      obtain ⟨md', renamed', rfl⟩ := taken
      have renames := Listeners.renameViewMenu_renames rewrites.moves.wellFormed renamed'
      have moved := Moves.of_renames renames hasOld name
      have wf := WellFormed.updateTable renames.wellFormed id
        (fun t => { t with perm := some newPerm }) fun _ => rfl
      refine rewrites.next isRow (fun t => { t with perm := some newPerm })
        (fun s => { s with perm := some newPerm }) (fun _ => rfl)
        (rewrites.moves.after ⟨WellFormed.updateCharts wf id _, moved.has, moved.hasNew,
          moved.origin, moved.named, moved.holds⟩ unbracketed) renames.objects.dbs ?_ ?_
      · simp only [updateTable, updateCharts, renames.objects.tables]
      · simp only [updateTable, updateCharts, renames.objects.slices]

/-- `_update_dataset_perm` does nothing when the new name is taken. -/
theorem updateDatasetPerm_named {old : Option String} (named : md.Named newPerm) :
    updateDatasetPerm md old newPerm id = some md := by
  unfold Listeners.updateDatasetPerm
  split
  · rfl
  cases found : md.findViewMenu newPerm with
  | some vm => rfl
  | none => exact absurd named (findViewMenu_none_iff.mp found)

/-- `_ensure_pvm` under a test of its name is `add_permission_view_menu` under that test. -/
theorem ensurePvm_ifTruthy (wf : md.WellFormed) (permission : String) (view : Option String) :
    (if truthy view then ensurePvm md permission (view.getD "") else md) =
        (if truthy view then (md.addPermissionViewMenu permission view).1 else md) ∧
      (if truthy view then (md.addPermissionViewMenu permission view).1 else md).WellFormed := by
  cases view with
  | none => exact ⟨rfl, wf⟩
  | some v =>
    by_cases empty : v = ""
    · rw [empty]
      exact ⟨rfl, wf⟩
    · have isTruthy : truthy (some v) = true := by simpa [truthy] using empty
      rw [if_pos isTruthy, if_pos isTruthy, Option.getD_some]
      exact ⟨ensurePvm_eq wf permission v empty,
        (addPermissionViewMenu_adds_some wf permission v empty).wellFormed⟩

/-- `_update_dataset_catalog_schema_perm` on well-formed tables. -/
theorem updateDatasetCatalogSchemaPerm_eq (wf : md.WellFormed)
    (catalogPerm schemaPerm : Option String) :
    updateDatasetCatalogSchemaPerm md catalogPerm schemaPerm id =
      md.updateDatasetSchemaPerm id catalogPerm schemaPerm := by
  obtain ⟨catalogSame, wfCatalog⟩ := ensurePvm_ifTruthy wf CATALOG_ACCESS catalogPerm
  obtain ⟨schemaSame, -⟩ := ensurePvm_ifTruthy wfCatalog SCHEMA_ACCESS schemaPerm
  unfold Listeners.updateDatasetCatalogSchemaPerm Metadata.updateDatasetSchemaPerm
  dsimp only
  rw [catalogSame, schemaSame]

end Rewriting

section Update
variable {stale : List Nat} {w : World} {old : SqlaTable} {oldPerm name : String}
    {md₁ md₂ : Metadata}

def Stage (w : World) (old : SqlaTable) (oldPerm name : String) (md₁ : Metadata) (perm : String)
    (schemaPerm catalogPerm : Option String) : Prop :=
  ∃ row, Rewrites w.md md₁ old.id oldPerm perm name row ∧ row.id = old.id ∧ row.perm = some perm ∧
    row.schemaPerm = schemaPerm ∧ row.catalogPerm = catalogPerm

def HasStrings (md : Metadata) (name : String) (schema catalog : Option String) : Prop :=
  (∀ v ∈ expectedSchemaPerm name catalog schema, md.Has SCHEMA_ACCESS v) ∧
    ∀ v ∈ expectedCatalogPerm name catalog, md.Has CATALOG_ACCESS v

theorem Kept.stage (kept : Kept stale w) (member : old ∈ w.md.tables)
    (isOld : old.perm = some oldPerm)
    (name : String) : Stage w old oldPerm name w.md oldPerm old.schemaPerm old.catalogPerm := by
  obtain ⟨nameOf, synced, -⟩ := kept.inv.synced
  have same : w.md.updateTable old.id id = w.md := by
    have rows : ∀ t ∈ w.md.tables, (if t.id = old.id then id t else t) = t := fun t _ => ite_self t
    rw [updateTable, List.map_congr_left rows, List.map_id']
  have rewrites :=
    rewrites_updateTable kept.inv.wellFormed synced member isOld id (fun _ => rfl)
      ⟨rfl, rfl, rfl⟩ name
  rw [same] at rewrites
  exact ⟨old, rewrites, rfl, isOld, rfl, rfl⟩

theorem Stage.updateDatasetPerm {newPerm : String} {schemaPerm catalogPerm : Option String}
    (stage : Stage w old oldPerm name md₁ oldPerm schemaPerm catalogPerm)
    (unbracketed : ∀ inner, oldPerm ≠ bracketed name inner) (nonempty : oldPerm ≠ "" ∧ newPerm ≠ "")
    (only : md₁.Named newPerm → newPerm = oldPerm)
    (taken : updateDatasetPerm md₁ (some oldPerm) newPerm old.id = some md₂) :
    Stage w old oldPerm name md₂ newPerm schemaPerm catalogPerm := by
  obtain ⟨row, rewrites, isRow, isOld, schemaSame, catalogSame⟩ := stage
  exact ⟨_, rewrites_updateDatasetPerm rewrites isRow isOld unbracketed nonempty only taken, isRow,
    rfl, schemaSame, catalogSame⟩

theorem Stage.recompute {perm : String} {schemaPerm catalogPerm schema catalog : Option String}
    (stage : Stage w old oldPerm name md₁ perm schemaPerm catalogPerm)
    (nonempty : schema ≠ some "" ∧ catalog ≠ some "")
    (taken : updateDatasetCatalogSchemaPerm md₁ (getCatalogPerm name catalog)
      (getSchemaPerm name catalog schema) old.id
      = md₂) :
    Stage w old oldPerm name md₂ perm (expectedSchemaPerm name catalog schema)
      (expectedCatalogPerm name catalog) ∧
      HasStrings md₂ name schema catalog := by
  obtain ⟨row, rewrites, isRow, isNew, -, -⟩ := stage
  rw [updateDatasetCatalogSchemaPerm_eq rewrites.moves.wellFormed,
    getCatalogPerm_expected _ nonempty.2,
    getSchemaPerm_expected _ _ nonempty.1] at taken
  subst taken
  obtain ⟨rewritten, hasCatalog, hasSchema⟩ := rewrites.updateDatasetSchemaPerm isRow
    (expectedCatalogPerm name catalog) (expectedSchemaPerm name catalog schema)
    (fun v built => expectedCatalogPerm_bracketed built)
      (fun v built => expectedSchemaPerm_bracketed built)
  exact ⟨⟨_, rewritten, isRow, isNew, rfl, rfl⟩, hasSchema, hasCatalog⟩

def Listened (w : World) (old : SqlaTable) (oldPerm newPerm name : String) (databaseId : Nat)
    (schema catalog : Option String) (md₂ : Metadata) : Prop :=
  ∃ schemaPerm catalogPerm, Stage w old oldPerm name md₂ newPerm schemaPerm catalogPerm ∧
    if Moved old databaseId schema catalog then
      schemaPerm = expectedSchemaPerm name catalog schema ∧
      catalogPerm = expectedCatalogPerm name catalog ∧
        HasStrings md₂ name schema catalog
    else schemaPerm = old.schemaPerm ∧ catalogPerm = old.catalogPerm

variable {databaseId : Nat}

theorem Stage.listened {newPerm : String} {schemaPerm catalogPerm : Option String}
    {schema catalog : Option String}
    (stage : Stage w old oldPerm name md₁ newPerm schemaPerm catalogPerm)
    (left : old.databaseId ≠ databaseId → schemaPerm = expectedSchemaPerm name catalog schema ∧
      catalogPerm = expectedCatalogPerm name catalog ∧ HasStrings md₁ name schema catalog)
    (stayed : old.databaseId = databaseId → schemaPerm = old.schemaPerm ∧
      catalogPerm = old.catalogPerm)
    (nonempty : Moved old databaseId schema catalog → schema ≠ some "" ∧ catalog ≠ some "")
    (last : md₂ = if old.catalog ≠ catalog ∨ old.schema ≠ schema then
      updateDatasetCatalogSchemaPerm md₁ (getCatalogPerm name catalog)
        (getSchemaPerm name catalog schema) old.id
      else md₁) : Listened w old oldPerm newPerm name databaseId schema catalog md₂ := by
  by_cases changed : old.catalog ≠ catalog ∨ old.schema ≠ schema
  · have moved : Moved old databaseId schema catalog := .inr changed
    rw [if_pos changed] at last
    obtain ⟨after, has⟩ := stage.recompute (nonempty moved) last.symm
    refine ⟨_, _, after, ?_⟩
    rw [if_pos moved]
    exact ⟨rfl, rfl, has⟩
  · rw [if_neg changed] at last
    subst last
    refine ⟨_, _, stage, ?_⟩
    by_cases same : old.databaseId = databaseId
    · rw [if_neg fun moved => moved.elim (fun differs => differs same) changed]
      exact stayed same
    · have moved : Moved old databaseId schema catalog := .inl same
      rw [if_pos moved]
      exact left same

variable {schema catalog loadedPerm : Option String}

/-- The parts of `_sqlatable_before_update`. -/
theorem sqlatableBeforeUpdate_cases {md : Metadata} {database : Database} {tableName : String}
    {target : SqlaTable} (found : findTable md old.id = some old)
    (named : databaseNameFor md databaseId = some database.databaseName)
    (taken : sqlatableBeforeUpdate md
      { old with tableName, databaseId, schema, catalog, perm := loadedPerm }
      = some (md₂, target)) :
    ∃ mdA mdB,
      (if old.databaseId ≠ databaseId then
        ∃ md', updateDatasetPerm md loadedPerm
          (getDatasetPerm old.id tableName database.databaseName) old.id = some md' ∧
          mdA = updateDatasetCatalogSchemaPerm md' (getCatalogPerm database.databaseName catalog)
            (getSchemaPerm database.databaseName catalog schema) old.id
        else mdA = md) ∧
      (if old.tableName ≠ tableName then
        updateDatasetPerm mdA (some (getDatasetPerm old.id old.tableName database.databaseName))
          (getDatasetPerm old.id tableName database.databaseName) old.id = some mdB
        else mdB = mdA) ∧
      (md₂ = if old.catalog ≠ catalog ∨ old.schema ≠ schema then
        updateDatasetCatalogSchemaPerm mdB (getCatalogPerm database.databaseName catalog)
          (getSchemaPerm database.databaseName catalog schema) old.id
        else mdB) ∧
      target.perm = if old.databaseId = databaseId ∧ old.tableName = tableName then loadedPerm
        else some (getDatasetPerm old.id tableName database.databaseName) := by
  unfold Listeners.sqlatableBeforeUpdate at taken
  simp only [found, named, Option.getD_some] at taken
  have last : ∀ {mdB : Metadata} {t : SqlaTable},
      (if old.catalog ≠ catalog ∨ old.schema ≠ schema then
        some (updateDatasetCatalogSchemaPerm mdB (getCatalogPerm database.databaseName catalog)
          (getSchemaPerm database.databaseName catalog schema) old.id, t)
        else some (mdB, t)) = some (md₂, target) →
      (md₂ = if old.catalog ≠ catalog ∨ old.schema ≠ schema then
        updateDatasetCatalogSchemaPerm mdB (getCatalogPerm database.databaseName catalog)
          (getSchemaPerm database.databaseName catalog schema) old.id
        else mdB) ∧ target = t := by
    intro mdB t result
    split at result
    · rename_i changed
      obtain ⟨rfl, rfl⟩ := Prod.mk.inj (Option.some.inj result)
      exact ⟨(if_pos changed).symm, rfl⟩
    · rename_i unchanged
      obtain ⟨rfl, rfl⟩ := Prod.mk.inj (Option.some.inj result)
      exact ⟨(if_neg unchanged).symm, rfl⟩
  by_cases sameDatabase : old.databaseId = databaseId
  · by_cases sameTable : old.tableName = tableName
    · simp only [sameDatabase, sameTable, ne_eq, not_true_eq_false, if_false, Option.bind_eq_bind,
        Option.bind_some] at taken
      obtain ⟨result, rfl⟩ := last taken
      exact ⟨md, md, by rw [if_neg (not_not.mpr sameDatabase)],
        by rw [if_neg (not_not.mpr sameTable)], result,
        (if_pos ⟨sameDatabase, sameTable⟩).symm⟩
    · simp only [sameDatabase, sameTable, ne_eq, not_true_eq_false, if_false,
        not_false_eq_true, if_true,
        Option.bind_eq_bind, Option.bind_some, Option.bind_eq_some_iff] at taken
      obtain ⟨mdB, renamed', taken⟩ := taken
      obtain ⟨result, rfl⟩ := last taken
      refine ⟨md, mdB, by rw [if_neg (not_not.mpr sameDatabase)], ?_, result, ?_⟩
      · rw [if_pos sameTable]
        exact renamed'
      · rw [if_neg fun both => sameTable both.2]
  · by_cases sameTable : old.tableName = tableName
    · simp only [sameDatabase, sameTable, ne_eq, not_true_eq_false, not_false_eq_true,
        if_false, if_true, Option.bind_eq_bind, Option.bind_some, Option.bind_eq_some_iff] at taken
      obtain ⟨mdA, renamed', taken⟩ := taken
      obtain ⟨result, rfl⟩ := last taken
      refine ⟨_, _, ?_, by rw [if_neg (not_not.mpr sameTable)], result, ?_⟩
      · rw [if_pos sameDatabase]
        exact ⟨mdA, renamed', rfl⟩
      · rw [if_neg fun both => sameDatabase both.1]
    · simp only [sameDatabase, sameTable, ne_eq, not_false_eq_true, if_true, Option.bind_eq_bind,
        Option.bind_some, Option.bind_eq_some_iff] at taken
      obtain ⟨mdA, moved', mdB, renamed', taken⟩ := taken
      obtain ⟨result, rfl⟩ := last taken
      refine ⟨updateDatasetCatalogSchemaPerm mdA (getCatalogPerm database.databaseName catalog)
        (getSchemaPerm database.databaseName catalog schema) old.id, mdB, ?_, ?_, result, ?_⟩
      · rw [if_pos sameDatabase]
        exact ⟨mdA, moved', rfl⟩
      · rw [if_pos sameTable]
        exact renamed'
      · rw [if_neg fun both => sameDatabase both.1]

/-- The listener leaves the row with the strings of the new values, and the object in
memory has no other new string. -/
theorem Kept.sqlatableBeforeUpdate (kept : Kept stale w) (member : old ∈ w.md.tables)
    {database oldDb : Database}
    {tableName : String}
    (found : w.md.findDatabase databaseId = some database) (inDbs₀ : oldDb ∈ w.md.dbs)
    (isDatabase₀ : oldDb.id = old.databaseId)
    (isOld : old.perm = some (getDatasetPerm old.id old.tableName oldDb.databaseName))
    (orderly : OrderlyDataset old databaseId schema catalog loadedPerm) {target : SqlaTable}
    (taken : sqlatableBeforeUpdate w.md
      { old with tableName, databaseId, schema, catalog, perm := loadedPerm }
      = some (md₂, target)) :
    Listened w old (getDatasetPerm old.id old.tableName oldDb.databaseName)
        (getDatasetPerm old.id tableName database.databaseName) database.databaseName databaseId
          schema catalog md₂ ∧
      written loadedPerm target.perm
        (some (getDatasetPerm old.id tableName database.databaseName)) =
        some (getDatasetPerm old.id tableName database.databaseName) := by
  obtain ⟨inDbs, isDatabase⟩ := findDatabase_eq_some found
  obtain ⟨nameOf, synced, -⟩ := kept.inv.synced
  have foundRow : findTable w.md old.id = some old :=
    (findTable_eq_some_iff kept.inv.wellFormed).mpr ⟨member, rfl⟩
  have named : databaseNameFor w.md databaseId = some database.databaseName := by
    rw [databaseNameFor, found, Option.map_some]
  obtain ⟨mdA, mdB, moved, renamed', last, perm⟩ := sqlatableBeforeUpdate_cases foundRow named taken
  have start := kept.stage member isOld database.databaseName
  have nonempty := And.intro (getDatasetPerm_ne_empty old.id old.tableName oldDb.databaseName)
    (getDatasetPerm_ne_empty old.id tableName database.databaseName)
  -- the only string with the id of the row is its own
  have only : w.md.Named (getDatasetPerm old.id tableName database.databaseName) →
      getDatasetPerm old.id tableName database.databaseName =
        getDatasetPerm old.id old.tableName oldDb.databaseName :=
    fun taken => Option.some.inj ((synced.menus old member _ _ taken).symm.trans isOld)
  by_cases sameDatabase : old.databaseId = databaseId
  · rw [if_neg (not_not.mpr sameDatabase)] at moved
    subst moved
    obtain rfl : database = oldDb := database_eq_of_id kept.inv.wellFormed inDbs inDbs₀
      (isDatabase.trans (sameDatabase.symm.trans isDatabase₀.symm))
    by_cases sameTable : old.tableName = tableName
    · rw [if_neg (not_not.mpr sameTable)] at renamed'
      subst renamed' sameTable
      rw [if_pos ⟨sameDatabase, rfl⟩] at perm
      refine ⟨start.listened (fun differs => absurd sameDatabase differs)
        (fun _ => ⟨rfl, rfl⟩) orderly.2 last, ?_⟩
      rw [perm]
      exact if_pos rfl
    · rw [if_pos sameTable] at renamed'
      have stage := start.updateDatasetPerm (fun inner => getDatasetPerm_ne_bracketed _ _ _ _ inner)
        nonempty only renamed'
      rw [if_neg fun both => sameTable both.2] at perm
      refine ⟨stage.listened (fun differs => absurd sameDatabase differs)
        (fun _ => ⟨rfl, rfl⟩) orderly.2 last, ?_⟩
      rw [perm]
      unfold written
      split <;> rfl
  · rw [if_pos sameDatabase] at moved
    obtain ⟨md', taken', rfl⟩ := moved
    rw [orderly.1 sameDatabase, isOld] at taken'
    have moves : Moved old databaseId schema catalog := .inl sameDatabase
    have stage := start.updateDatasetPerm (fun inner => getDatasetPerm_ne_bracketed _ _ _ _ inner)
      nonempty only taken'
    obtain ⟨recomputed, has⟩ := stage.recompute (orderly.2 moves) rfl
    -- the table name was taken over with the database
    obtain rfl : mdB = updateDatasetCatalogSchemaPerm md'
      (getCatalogPerm database.databaseName catalog)
        (getSchemaPerm database.databaseName catalog schema) old.id := by
      by_cases sameTable : old.tableName = tableName
      · rwa [if_neg (not_not.mpr sameTable)] at renamed'
      · rw [if_pos sameTable] at renamed'
        obtain ⟨row, rewrites, -⟩ := recomputed
        rw [updateDatasetPerm_named rewrites.moves.hasNew.named] at renamed'
        exact (Option.some.inj renamed').symm
    rw [if_neg fun both => sameDatabase both.1] at perm
    refine ⟨recomputed.listened (fun _ => ⟨rfl, rfl, has⟩) (fun same => absurd same sameDatabase)
      orderly.2 last, ?_⟩
    rw [perm]
    unfold written
    split <;> rfl

theorem Stage.columns {perm : String} {loaded assigned schemaPerm catalogPerm : Option String}
    (stage : Stage w old oldPerm name md₁ perm schemaPerm catalogPerm)
    (stays : written loaded assigned (some perm) = some perm) (tableName : String)
    (databaseId : Nat)
    (schema catalog : Option String) :
    ∃ row, Rewrites w.md (md₁.updateTable old.id fun t =>
        { t with tableName, databaseId, schema, catalog, perm := written loaded assigned t.perm })
          old.id oldPerm perm name
          row ∧
      row.id = old.id ∧ row.tableName = tableName ∧ row.databaseId = databaseId ∧
      row.schema = schema ∧
      row.catalog = catalog ∧ row.perm = some perm ∧ row.schemaPerm = schemaPerm ∧
      row.catalogPerm = catalogPerm := by
  obtain ⟨row, rewrites, isRow, isNew, schemaSame, catalogSame⟩ := stage
  have permStays : written loaded assigned row.perm = row.perm := by rw [isNew, stays]
  have moves := rewrites.moves
  have wf := WellFormed.updateTable moves.wellFormed old.id (fun t =>
    { t with tableName, databaseId, schema, catalog, perm := written loaded assigned t.perm })
      fun _ => rfl
  refine ⟨{ row with
    tableName, databaseId, schema, catalog, perm :=
    written loaded assigned row.perm }, ?_, isRow, rfl,
    rfl, rfl, rfl, permStays.trans isNew, schemaSame, catalogSame⟩
  refine rewrites.next isRow (fun t =>
    { t with tableName, databaseId, schema, catalog, perm := written loaded assigned t.perm }) id ?_
    ⟨wf, moves.has, moves.hasNew, moves.origin, moves.named, moves.holds⟩ rfl rfl ?_
  · intro s
    simp only [carry, id, permStays]
  · have same : ∀ s ∈ md₁.slices,
        (if s.datasourceId = some old.id ∧ s.datasourceType = some "table" then id s else s) = s :=
      fun s _ => ite_self s
    change md₁.slices = md₁.slices.map _
    rw [List.map_congr_left same, List.map_id']

theorem Kept.rewritten {stale' : List Nat} {md' : Metadata} {newPerm : String} {row : SqlaTable}
    {database : Database}
    (kept : Kept stale w) (member : old ∈ w.md.tables) (isOld : old.perm = some oldPerm)
    (rewrites : Rewrites w.md md' old.id oldPerm newPerm database.databaseName row)
    (isRow : row.id = old.id)
    (isNew : row.perm = some newPerm)
    (newShape : newPerm = getDatasetPerm row.id row.tableName database.databaseName)
    (inStep : row.id ∉ stale' → RowInStep database.databaseName row ∧ HasRow md' row)
    (others : ∀ id, id ≠ old.id → id ∉ stale' → id ∉ stale) (inDbs : database ∈ w.md.dbs)
    (isDatabase : database.id = row.databaseId) : Saved stale' w { w with md := md' } := by
  obtain ⟨nameOf, synced, -⟩ := kept.inv.synced
  have wf := kept.inv.wellFormed
  have moves := rewrites.moves
  have oldShape : oldPerm = getDatasetPerm old.id old.tableName (nameOf old.id) :=
    Option.some.inj (isOld.symm.trans (synced.perms old member))
  have rows : ∀ t ∈ md'.tables, t = row ∨ t ∈ w.md.tables ∧ t.id ≠ old.id :=
    rewrites.tables ▸ row_or_other
  have inRow : row ∈ md'.tables := by
    rw [rewrites.tables]
    exact List.mem_map.mpr ⟨old, member, if_pos rfl⟩
  have inOther : ∀ t ∈ w.md.tables, t.id ≠ old.id → t ∈ md'.tables := by
    intro t inTables other
    rw [rewrites.tables]
    exact List.mem_map.mpr ⟨t, inTables, if_neg other⟩
  have inv :=
    (kept.inv.rewritten member isOld rewrites isRow isNew newShape inStep others inDbs isDatabase).1
  have plainOld : ∀ {v}, NotDataset v → v ≠ oldPerm := fun plain => oldShape ▸ plain _ _ _
  have plainNew : ∀ {v}, NotDataset v → v ≠ newPerm := fun plain => newShape ▸ plain _ _ _
  refine ⟨⟨inv, ?_, ?_, rewrites.dbs ▸ kept.apart, kept.positive.1, ?_⟩, ?_,
    ⟨?_, Nat.le_refl _, Nat.le_refl _⟩⟩
  · intro p v has
    rcases moves.origin p v has with ⟨u, hasOld, rfl⟩ | ofSchema
    · rcases kept.kinds p u hasOld with ⟨isOwn, d, inOld, rfl⟩ |
        ⟨d, inOld, kind, inner, rfl⟩ | ⟨rfl, t, inTables, isPerm⟩
      · rw [renamed_other (plainOld (notDataset_databasePerm _ _))]
        exact .inl ⟨isOwn, d, rewrites.dbs ▸ inOld, rfl⟩
      · rw [renamed_other (plainOld (notDataset_bracketed _ _))]
        exact .inr (.inl ⟨d, rewrites.dbs ▸ inOld, kind, inner, rfl⟩)
      · by_cases hit : t.id = old.id
        · rw [table_eq_of_id wf inTables member hit] at isPerm
          rw [Option.some.inj (isPerm.symm.trans isOld), renamed_old]
          exact .inr (.inr ⟨rfl, row, inRow, isNew⟩)
        · have differs : u ≠ oldPerm := by
            intro same
            exact synced.perm_ne inTables hit _ _
              (isPerm.trans (congrArg some (same.trans oldShape)))
          rw [renamed_other differs]
          exact .inr (.inr ⟨rfl, t, inOther t inTables hit, isPerm⟩)
    · exact .inr (.inl ⟨database, rewrites.dbs ▸ inDbs, ofSchema⟩)
  · intro v named
    rcases moves.named v named with rfl | ⟨namedOld, differs⟩ | ⟨p, has, -⟩
    · exact ⟨_, moves.hasNew⟩
    · obtain ⟨p, has⟩ := kept.used v namedOld
      exact ⟨p, moves.has p v has differs⟩
    · exact ⟨p, has⟩
  · intro t inTables
    rcases rows t inTables with rfl | ⟨inOld, -⟩
    · exact isRow ▸ kept.positive.2 old member
    · exact kept.positive.2 t inOld
  · refine follows_of_datasets (renamed oldPerm newPerm) (fun _ _ => False) wf moves.wellFormed
      rewrites.dbs ?_ ?_
      (fun _ _ _ => not_false) ?_ (fun _ _ _ _ _ _ _ => not_false) ?_
    · intro role p v
      simp only [not_false_eq_true, true_and]
      exact moves.holds role p v
    · intro u v plain
      by_cases hit : u = oldPerm
      · rw [hit, renamed_old]
        exact iff_of_false (plainNew plain).symm (plainOld plain).symm
      · rw [renamed_other hit]
    · intro t inTables
      rcases rows t inTables with rfl | ⟨inOld, -⟩
      · exact ⟨newPerm, isNew⟩
      · exact ⟨_, synced.perms t inOld⟩
    · intro t' inTables v' isPerm u has _
      rcases rows t' inTables with rfl | ⟨inOld, other⟩
      · obtain rfl : newPerm = v' := Option.some.inj (isNew.symm.trans isPerm)
        constructor
        · intro same
          refine ⟨old, member, isRow.symm, ?_⟩
          by_cases hit : u = oldPerm
          · rw [hit, isOld]
          · rw [renamed_other hit] at same
            rw [same, newShape, isRow] at has
            rw [same, newShape, isRow]
            exact synced.menus old member _ _ has.named
        · intro fromRow
          obtain ⟨t, inOld, sameId, isPerm'⟩ := fromRow
          rw [table_eq_of_id wf inOld member (sameId.trans isRow), isOld] at isPerm'
          rw [← Option.some.inj isPerm', renamed_old]
      · have notOld : v' ≠ oldPerm := by
          intro same
          exact synced.perm_ne inOld other _ _ (isPerm.trans (congrArg some (same.trans oldShape)))
        constructor
        · intro same
          refine ⟨t', inOld, rfl, ?_⟩
          by_cases hit : u = oldPerm
          · rw [hit, renamed_old, newShape, isRow] at same
            exact absurd (isPerm.trans (congrArg some same.symm)) (synced.perm_ne inOld other _ _)
          · rw [renamed_other hit] at same
            exact isPerm.trans (congrArg some same.symm)
        · intro fromRow
          obtain ⟨t, inOld', sameId, isPerm'⟩ := fromRow
          rw [table_eq_of_id wf inOld' inOld sameId] at isPerm'
          have same : u = v' := Option.some.inj (isPerm'.symm.trans isPerm)
          rw [same, renamed_other notOld]
  · intro object present
    refine .inl (present_of_rows wf moves.wellFormed ?_ ?_ present)
    · exact fun d inNew => ⟨d, rewrites.dbs ▸ inNew, rfl⟩
    · intro t inTables
      rcases rows t inTables with rfl | ⟨inOld, -⟩
      · exact ⟨old, member, isRow.symm⟩
      · exact ⟨t, inOld, rfl⟩

theorem Kept.updateDataset {w' : World} {id : Nat} {tableName : String}
    (kept : Kept stale w)
    (orderly : ∀ t ∈ w.md.tables, t.id = id → OrderlyDataset t databaseId schema catalog loadedPerm)
    (taken : updateDataset w id tableName databaseId schema catalog loadedPerm = some w') :
    Saved (staleAfter w stale (.updateDataset id tableName databaseId schema catalog loadedPerm))
      w w' := by
  unfold Listeners.updateDataset at taken
  cases foundRow : findTable w.md id with
  | none =>
    rw [foundRow] at taken
    cases taken
  | some old =>
    cases found : w.md.findDatabase databaseId with
    | none =>
      rw [foundRow, found] at taken
      cases taken
    | some database =>
      rw [foundRow, found] at taken
      obtain ⟨member, rfl⟩ := findTable_eq_some foundRow
      obtain ⟨inDbs, isDatabase⟩ := findDatabase_eq_some found
      obtain ⟨⟨md₂, target⟩, listened, result⟩ := Option.bind_eq_some_iff.mp taken
      rw [Option.some.injEq] at result
      subst result
      obtain ⟨nameOf, synced, fromDatabase⟩ := kept.inv.synced
      obtain ⟨oldDb, inDbs₀, isDatabase₀, named⟩ := fromDatabase old member
      have isOld : old.perm = some (getDatasetPerm old.id old.tableName oldDb.databaseName) :=
        named ▸ synced.perms old member
      obtain ⟨⟨schemaPerm, catalogPerm, stage, strings⟩, stays⟩ :=
        kept.sqlatableBeforeUpdate member found inDbs₀
        isDatabase₀ isOld (orderly old member rfl) listened
      obtain ⟨row, rewrites, isRow, isTable, isDatabaseId, isSchema, isCatalog, isNew, schemaSame,
        catalogSame⟩ :=
        stage.columns stays tableName databaseId schema catalog
      have newShape : getDatasetPerm old.id tableName database.databaseName =
          getDatasetPerm row.id row.tableName database.databaseName := by rw [isRow, isTable]
      unfold staleAfter
      dsimp only
      by_cases moved : Moved old databaseId schema catalog
      · rw [if_pos moved] at strings
        obtain ⟨schemaNew, catalogNew, hasSchema, hasCatalog⟩ := strings
        rw [if_pos ⟨old, member, rfl, moved⟩]
        refine kept.rewritten member isOld rewrites isRow isNew newShape (fun _ => ?_) ?_ inDbs
          (isDatabase.trans isDatabaseId.symm)
        · have schemaStep :
              row.schemaPerm = expectedSchemaPerm database.databaseName row.catalog row.schema := by
            rw [schemaSame, schemaNew, isCatalog, isSchema]
          have catalogStep :
              row.catalogPerm = expectedCatalogPerm database.databaseName row.catalog := by
            rw [catalogSame, catalogNew, isCatalog]
          refine ⟨⟨isNew.trans (congrArg some newShape), schemaStep, catalogStep⟩, ?_, ?_, ?_⟩
          · intro v isPerm
            rw [← Option.some.inj (isNew.symm.trans isPerm)]
            exact rewrites.moves.hasNew
          · intro v isPerm
            exact hasSchema v ((schemaSame.trans schemaNew).symm.trans isPerm)
          · intro v isPerm
            exact hasCatalog v ((catalogSame.trans catalogNew).symm.trans isPerm)
        · intro id other fresh inStale
          exact fresh (List.mem_filter.mpr ⟨inStale, by simpa using other⟩)
      · rw [if_neg moved] at strings
        obtain ⟨schemaOld, catalogOld⟩ := strings
        have still : ¬ ∃ t ∈ w.md.tables, t.id = old.id ∧ Moved t databaseId schema catalog := by
          intro some_
          obtain ⟨t, inTables, sameId, moves⟩ := some_
          exact moved (table_eq_of_id kept.inv.wellFormed inTables member sameId ▸ moves)
        rw [if_neg still]
        refine kept.rewritten member isOld rewrites isRow isNew newShape (fun fresh => ?_)
          (fun _ _ fresh => fresh) inDbs
          (isDatabase.trans isDatabaseId.symm)
        have sameDatabase : old.databaseId = databaseId :=
          by_contra fun differs => moved (.inl differs)
        have sameCatalog : old.catalog = catalog :=
          by_contra fun differs => moved (.inr (.inl differs))
        have sameSchema : old.schema = schema :=
          by_contra fun differs => moved (.inr (.inr differs))
        obtain rfl : database = oldDb := database_eq_of_id kept.inv.wellFormed inDbs inDbs₀
          (isDatabase.trans (sameDatabase.symm.trans isDatabase₀.symm))
        rw [isRow] at fresh
        obtain ⟨-, schemaRow, catalogRow⟩ := synced.rows old member fresh
        obtain ⟨-, hasSchema, hasCatalog⟩ := synced.has old member fresh
        rw [← named] at schemaRow catalogRow
        have inStep : RowInStep database.databaseName row := by
          refine ⟨isNew.trans (congrArg some newShape), ?_, ?_⟩
          · rw [schemaSame, schemaOld, schemaRow, isCatalog, isSchema, sameCatalog, sameSchema]
          · rw [catalogSame, catalogOld, catalogRow, isCatalog, sameCatalog]
        refine ⟨inStep,
          HasRow.moved rewrites.moves (fun plain => plain _ _ _ rfl) inStep isNew ?_ ?_⟩
        · exact fun v isPerm => hasSchema v ((schemaSame.trans schemaOld).symm.trans isPerm)
        · exact fun v isPerm => hasCatalog v ((catalogSame.trans catalogOld).symm.trans isPerm)

end Update

theorem Kept.save {w w' : World} {stale : List Nat} {s : Save} (kept : Kept stale w)
    (orderly : OrderlySave w s)
    (taken : save w s = some w') : Saved (staleAfter w stale s) w w' := by
  cases s with
  | insertDatabase name => exact kept.insertDatabase orderly taken
  | updateDatabase id newName deleted => exact kept.updateDatabase orderly taken
  | deleteDatabase id name => exact kept.deleteDatabase orderly taken
  | insertDataset tableName databaseId schema catalog => exact kept.insertDataset taken
  | updateDataset id tableName databaseId schema catalog loadedPerm =>
    exact kept.updateDataset orderly taken
  | deleteDataset id loadedPerm => exact kept.deleteDataset orderly taken
  | insertChart id datasourceId datasourceType => exact kept.insertChart orderly taken
  | updateChart id datasourceId datasourceType loaded =>
    exact kept.updateChart orderly.1 orderly.2 taken
  | deleteChart id => exact kept.deleteChart taken

theorem Kept.flush {w w' : World} {stale : List Nat} {saves : List Save} (kept : Kept stale w)
    (orderly : OrderlySaves w stale saves) (taken : flush w saves = some w') : Saved [] w w' := by
  induction saves generalizing w stale with
  | nil =>
    cases taken
    cases orderly
    exact kept.refl
  | cons s rest ih =>
    obtain ⟨world, saved, taken⟩ := Option.bind_eq_some_iff.mp taken
    obtain ⟨orderlySave, later⟩ := orderly
    rw [saved] at later
    have first := kept.save orderlySave saved
    exact Saved.trans kept first (ih first.kept later taken)

theorem Kept.start : Kept [] {} where
  inv := Inv.start
  kinds := fun _ _ has => by simp [Has] at has
  used := fun _ named => by simp [Named] at named
  apart := fun _ member => by simp at member
  positive := ⟨Nat.one_pos, fun _ member => by simp at member⟩

theorem Kept.grant {w w' : World} {roleId permissionViewId : Nat} (kept : Kept [] w)
    (taken : grant w roleId permissionViewId = some w') : Kept [] w' := by
  unfold Sync.grant at taken
  split at taken
  · rename_i exists_
    rw [Option.some.injEq] at taken
    subst taken
    obtain ⟨nameOf, synced, -⟩ := kept.inv.synced
    refine kept.withCharts (forall_mem_append_singleton kept.inv.wellFormed.grantRef ?_)
      synced.charts
      kept.inv.datasets.charts
    simpa using exists_
  · cases taken

theorem Kept.revoke {w w' : World} {roleId permissionViewId : Nat} (kept : Kept [] w)
    (taken : revoke w roleId permissionViewId = some w') : Kept [] w' := by
  unfold Sync.revoke at taken
  rw [Option.some.injEq] at taken
  subst taken
  obtain ⟨nameOf, synced, -⟩ := kept.inv.synced
  refine kept.withCharts (fun g member => ?_) synced.charts kept.inv.datasets.charts
  exact kept.inv.wellFormed.grantRef g (List.mem_filter.mp member).1

theorem kept_of_reaches {w : World} (reached : Reaches step Orderly {} w) : Kept [] w := by
  refine reached.invariant (Kept []) Kept.start fun w e w' kept orderly taken => ?_
  cases e with
  | flushed saves => exact (kept.flush orderly taken).kept
  | granted roleId permissionViewId => exact kept.grant taken
  | revoked roleId permissionViewId => exact kept.revoke taken

/-- In every run of orderly flushes the strings are in step and the names of view menus
unique, and over every further flush the grants follow their objects. -/
theorem inStep_of_orderlyFlushes (w : World) (reached : Reaches step Orderly {} w) :
    InStep w.md ∧ (w.md.viewMenus.map ViewMenu.name).Nodup ∧
      ∀ saves w', OrderlySaves w [] saves → flush w saves = some w' →
      InStep w'.md ∧ Follows w.md w'.md := by
  have kept := kept_of_reaches reached
  refine ⟨kept.inv.inStep, kept.inv.wellFormed.viewMenuNames, fun saves w' orderly taken => ?_⟩
  have saved := kept.flush orderly taken
  exact ⟨saved.kept.inv.inStep, saved.follows⟩

/-- Two databases, a dataset with a schema and a chart on it, a grant on the dataset, and
one flush that renames the database and moves the dataset to a schema of the other. -/
def orderlyFlushes : List Event :=
  [.flushed [.insertDatabase "a", .insertDatabase "b"],
    .flushed [.insertDataset "t" 1 (some "s") none],
    .flushed [.insertChart 1 (some 1) (some "table")], .granted 7 3,
    .flushed [.updateDatabase 1 "c" (some "a"),
      .updateDataset 1 "u" 2 (some "s") none (some "[c].[t](id:1)")]]

/-- The run can be taken, and the role holds the dataset under its new string. -/
theorem inStep_orderlyFlushes :
    ∃ w, Reaches step Orderly {} w ∧ InStep w.md ∧
    w.md.Holds 7 DATASOURCE_ACCESS (getDatasetPerm 1 "u" "b") := by
  obtain ⟨w, reached, holds⟩ := exists_reaches_of_runWithin step Orderly {} orderlyFlushes
    (fun w => w.md.Holds 7 DATASOURCE_ACCESS (getDatasetPerm 1 "u" "b")) (by decide)
  exact ⟨w, reached, (inStep_of_orderlyFlushes w reached).1, holds⟩

/-- The rename of a database leaves `[a].[s]` on its datasets. -/
theorem not_inStep_flushed : ∃ w, Reaches step anyStep {} w ∧ ¬ InStep w.md :=
  exists_reaches_of_runWithin step anyStep {}
    [.flushed [.insertDatabase "a"], .flushed [.insertDataset "t" 1 (some "s") none],
      .flushed [.updateDatabase 1 "b" (some "a")]]
    (fun w => ¬ InStep w.md) (by decide)

end Liteset.Security.Listeners
