import Liteset.Security.ListenerRenames

/-!
# Datasets under the listeners

Inserting, deleting and updating a dataset keep the invariant, and the grants follow.
An update is one or two rewritings of the row with its charts, and at last the columns
that the ORM writes.
-/

set_option autoImplicit false

namespace Liteset.Security.Listeners

open Metadata Sync List

section Datasets
variable {stale : List Nat} {w : World}

theorem Kept.droppedDataset {md' : Metadata} {t : SqlaTable} {perm : String} (kept : Kept stale w)
    (member : t ∈ w.md.tables) (isPerm : t.perm = some perm)
    (removes : Removes { w.md with tables := w.md.tables.filter fun o => o.id ≠ t.id } md'
      fun p v => p = DATASOURCE_ACCESS ∧ v = perm) :
    Saved (stale.filter fun i => i ≠ t.id) w { w with md := md' } := by
  obtain ⟨nameOf, synced, fromDatabase⟩ := kept.inv.synced
  have wf := kept.inv.wellFormed
  have shape : perm = getDatasetPerm t.id t.tableName (nameOf t.id) :=
    Option.some.inj (isPerm.symm.trans (synced.perms t member))
  have dbs : md'.dbs = w.md.dbs := removes.objects.dbs
  have tables : ∀ o ∈ md'.tables, o ∈ w.md.tables ∧ o.id ≠ t.id := by
    intro o inTables
    rw [removes.objects.tables] at inTables
    simpa using mem_filter.mp inTables
  have inv : Inv (stale.filter fun i => i ≠ t.id) { w with md := md' } := by
    refine kept.inv.dropDataset t (nameOf t.id) ?_ removes.wellFormed ⟨dbs, removes.objects.slices⟩
      tables ?_
      removes.named
    · intro id other fresh inStale
      exact fresh (mem_filter.mpr ⟨inStale, by simpa using other⟩)
    · intro p v has other
      exact (removes.has p v).mpr ⟨has, shape ▸ other⟩
  refine ⟨⟨inv, ?_, (used_iff removes.wellFormed).mp removes.used, dbs ▸ kept.apart,
    kept.positive.1, ?_⟩, ?_, ⟨?_, Nat.le_refl _, Nat.le_refl _⟩⟩
  · intro p v has
    obtain ⟨hasOld, notLost⟩ := (removes.has p v).mp has
    rcases kept.kinds p v hasOld with ⟨isDatabase, d, inDbs, same⟩ | ⟨d, inDbs, ofSchema⟩ |
      ⟨rfl, o, inTables, isOwn⟩
    · exact .inl ⟨isDatabase, d, dbs ▸ inDbs, same⟩
    · exact .inr (.inl ⟨d, dbs ▸ inDbs, ofSchema⟩)
    · refine .inr (.inr ⟨rfl, o, ?_, isOwn⟩)
      rw [removes.objects.tables]
      refine mem_filter.mpr ⟨inTables, ?_⟩
      rw [decide_eq_true_eq]
      intro sameId
      rw [table_eq_of_id wf inTables member sameId, isPerm] at isOwn
      exact notLost ⟨rfl, (Option.some.inj isOwn).symm⟩
  · intro o inTables
    exact kept.positive.2 o (tables o inTables).1
  · refine follows_of_datasets id (fun p v => p = DATASOURCE_ACCESS ∧ v = perm) wf
      removes.wellFormed dbs ?_ (fun _ _ _ => Iff.rfl) ?_ ?_ ?_ ?_
    · intro role p v
      rw [removes.holds]
      constructor
      · intro held
        exact ⟨v, held.1, held.2, rfl⟩
      · intro held
        obtain ⟨u, holds, notLost, rfl⟩ := held
        exact ⟨holds, notLost⟩
    · intro p v plain lost
      exact plain _ _ _ (lost.2.trans shape)
    · intro o inTables
      exact ⟨_, synced.perms o (tables o inTables).1⟩
    · intro o inTables o' inTables' sameId v isOwn lost
      obtain ⟨-, other⟩ := tables o' inTables'
      refine synced.perm_ne inTables (sameId ▸ other) t.tableName (nameOf t.id) ?_
      rw [← shape, ← lost.2]
      exact isOwn
    · intro o' inTables' v' isOwn u _ _
      obtain ⟨inTables, -⟩ := tables o' inTables'
      constructor
      · intro same
        exact ⟨o', inTables, rfl, isOwn.trans (congrArg some same.symm)⟩
      · intro row
        obtain ⟨o, inOld, sameId, isPerm'⟩ := row
        rw [table_eq_of_id wf inOld inTables sameId] at isPerm'
        exact Option.some.inj (isPerm'.symm.trans isOwn)
  · intro object present
    refine .inl (present_of_rows wf removes.wellFormed ?_ ?_ present)
    · exact fun d inDbs => ⟨d, dbs ▸ inDbs, rfl⟩
    · exact fun o inTables => ⟨o, (tables o inTables).1, rfl⟩

theorem Kept.deleteDataset {w' : World} {id : Nat} {loadedPerm : Option String}
    (kept : Kept stale w)
    (orderly : ∀ t ∈ w.md.tables, t.id = id → loadedPerm = t.perm)
    (taken : deleteDataset w id loadedPerm = some w') :
    Saved (staleAfter w stale (.deleteDataset id loadedPerm)) w w' := by
  unfold Listeners.deleteDataset at taken
  obtain ⟨t, found, rfl⟩ := Option.map_eq_some_iff.mp taken
  obtain ⟨member, rfl⟩ := findTable_eq_some found
  obtain ⟨nameOf, synced, -⟩ := kept.inv.synced
  have isPerm := synced.perms t member
  obtain rfl := orderly t member rfl
  have ids : ((w.md.tables.filter fun o => o.id ≠ t.id).map SqlaTable.id).Nodup :=
    kept.inv.wellFormed.tableIds.sublist (filter_sublist.map _)
  have nonempty : truthy t.perm = true := by
    rw [isPerm]
    simpa [truthy] using getDatasetPerm_ne_empty t.id t.tableName (nameOf t.id)
  have result : ∀ md : Metadata, sqlatableAfterDelete md t.perm =
      deletePvm md DATASOURCE_ACCESS (getDatasetPerm t.id t.tableName (nameOf t.id)) := by
    intro md
    rw [sqlatableAfterDelete, if_pos nonempty, isPerm, Option.getD_some]
  dsimp only
  rw [result]
  exact kept.droppedDataset member isPerm (deletePvm_removes
    (WellFormed.withTables kept.inv.wellFormed w.md.slices ids)
    ((used_iff kept.inv.wellFormed).mpr kept.used) DATASOURCE_ACCESS _)

variable (md : Metadata) (id : Nat) (change : SqlaTable → SqlaTable) (name : String)

theorem findOrCreatePermission_updateTable :
    (md.updateTable id change).findOrCreatePermission name =
      ((md.findOrCreatePermission name).1.updateTable id change,
        (md.findOrCreatePermission name).2) := by
  have found : (md.updateTable id change).findPermission name = md.findPermission name := rfl
  unfold findOrCreatePermission
  rw [found]
  cases md.findPermission name <;> rfl

theorem findOrCreateViewMenu_updateTable :
    (md.updateTable id change).findOrCreateViewMenu name =
      ((md.findOrCreateViewMenu name).1.updateTable id change,
        (md.findOrCreateViewMenu name).2) := by
  have found : (md.updateTable id change).findViewMenu name = md.findViewMenu name := rfl
  unfold findOrCreateViewMenu
  rw [found]
  cases md.findViewMenu name <;> rfl

/-- `_ensure_pvm` does not look at the datasets. -/
theorem ensurePvm_updateTable (permission view : String) :
    ensurePvm (md.updateTable id change) permission view =
      (ensurePvm md permission view).updateTable id change := by
  unfold ensurePvm ensurePermission ensureViewMenu
  rw [findOrCreatePermission_updateTable]
  dsimp only
  rw [findOrCreateViewMenu_updateTable]
  simp only [updateTable]
  split
  · rename_i there
    exact if_pos there
  · rename_i absent
    exact if_neg absent

theorem updateTable_updateTable (first second : SqlaTable → SqlaTable)
    (keeps : ∀ t, (first t).id = t.id) :
    (md.updateTable id first).updateTable id second = md.updateTable id fun t =>
      second (first t) := by
  simp only [updateTable, map_map]
  congr 1
  apply map_congr_left
  intro t _
  by_cases hit : t.id = id
  · simp only [Function.comp, if_pos hit, keeps]
  · simp only [Function.comp, if_neg hit]

/-- `_ensure_pvm` for a string, if there is one. -/
def ensureEach (md : Metadata) (permission : String) (view : Option String) : Metadata :=
  view.elim md (ensurePvm md permission)

theorem ensureEach_adds {md : Metadata} (wf : md.WellFormed) (permission : String)
    {view : Option String}
    (nonempty : ∀ v ∈ view, v ≠ "") :
    Adds md (ensureEach md permission view) (view.toList.map fun v => (permission, v)) := by
  cases view with
  | none => exact Adds.nil wf
  | some v => exact ensurePvm_adds wf permission v (nonempty v rfl)

theorem ensureEach_updateTable (permission : String)
    (view : Option String) :
    ensureEach (md.updateTable id change) permission view =
      (ensureEach md permission view).updateTable id change := by
  cases view with
  | none => rfl
  | some v => exact ensurePvm_updateTable md id change permission v

theorem ensureEach_schemaPerm (catalog schema : Option String) :
    (if truthy schema && truthy (getSchemaPerm name catalog schema) then
      ensurePvm md SCHEMA_ACCESS ((getSchemaPerm name catalog schema).getD "") else md) =
      ensureEach md SCHEMA_ACCESS (expectedSchemaPerm name catalog schema) := by
  unfold expectedSchemaPerm
  cases isSchema : truthy schema with
  | false => rfl
  | true =>
    cases built : getSchemaPerm name catalog schema with
    | none => rfl
    | some v =>
      obtain ⟨inner, rfl⟩ := (getSchemaPerm_eq_some name v).mp ⟨catalog, schema, built⟩
      have nonempty : truthy (some (bracketed name inner)) = true := by
        simpa [truthy] using bracketed_ne_empty name inner
      rw [nonempty]
      rfl

theorem ensureEach_catalogPerm (catalog : Option String) :
    (if truthy catalog && truthy (getCatalogPerm name catalog) then
      ensurePvm md CATALOG_ACCESS ((getCatalogPerm name catalog).getD "") else md) =
      ensureEach md CATALOG_ACCESS (expectedCatalogPerm name catalog) := by
  unfold expectedCatalogPerm
  cases isCatalog : truthy catalog with
  | false => rfl
  | true =>
    cases built : getCatalogPerm name catalog with
    | none => rfl
    | some v =>
      obtain ⟨inner, rfl⟩ := (getCatalogPerm_eq_some name v).mp ⟨catalog, built⟩
      have nonempty : truthy (some (bracketed name inner)) = true := by
        simpa [truthy] using bracketed_ne_empty name inner
      rw [nonempty]
      rfl

def insertedStrings (databaseName : String) (target t : SqlaTable) : SqlaTable :=
  { t with
    perm := some (getDatasetPerm target.id target.tableName databaseName)
    schemaPerm := if truthy target.schema
      then getSchemaPerm databaseName target.catalog target.schema else t.schemaPerm
    catalogPerm := if truthy target.catalog then getCatalogPerm databaseName target.catalog
      else t.catalogPerm }

theorem sqlatableAfterInsert_adds {md : Metadata} (wf : md.WellFormed) (target : SqlaTable)
    {database : Database}
    (found : md.findDatabase target.databaseId = some database)
    (blank : target.schemaPerm = none ∧ target.catalogPerm = none) :
    ∃ md', Adds md md' (datasetViews database.databaseName target) ∧
      sqlatableAfterInsert md target = md'.updateTable target.id
        (insertedStrings database.databaseName target) ∧
      insertedStrings database.databaseName target target =
        inStepRow database.databaseName target := by
  have own := ensurePvm_adds wf DATASOURCE_ACCESS _
    (getDatasetPerm_ne_empty target.id target.tableName database.databaseName)
  have schema := ensureEach_adds own.wellFormed SCHEMA_ACCESS
    fun v (built : v ∈ expectedSchemaPerm database.databaseName target.catalog target.schema) =>
      expectedSchemaPerm_ne_empty built
  have catalog := ensureEach_adds schema.wellFormed CATALOG_ACCESS
    fun v (built : v ∈ expectedCatalogPerm database.databaseName target.catalog) =>
      expectedCatalogPerm_ne_empty built
  have named : databaseNameFor md target.databaseId = some database.databaseName := by
    rw [databaseNameFor, found, Option.map_some]
  have namedAfter : ∀ change, databaseNameFor ((ensurePvm md DATASOURCE_ACCESS
      (getDatasetPerm target.id target.tableName database.databaseName)).updateTable
        target.id change)
        target.databaseId = some database.databaseName := by
    intro change
    rw [← named]
    exact congrArg
      (fun dbs : List Database =>
        (dbs.find? fun d => d.id = target.databaseId).map (·.databaseName))
      own.objects.dbs
  refine ⟨_, (own.trans schema).trans catalog, ?_, ?_⟩
  · simp only [sqlatableAfterInsert, datasetPerm, named, Option.map_some, Option.getD_some,
      namedAfter, ensureEach_schemaPerm, ensureEach_catalogPerm, ensureEach_updateTable]
    exact updateTable_updateTable _ _ _ _ fun _ => rfl
  · simp only [insertedStrings, inStepRow, expectedSchemaPerm, expectedCatalogPerm, blank]

theorem kind_of_datasetViews {md : Metadata} {database : Database} (inDbs : database ∈ md.dbs)
    {target row : SqlaTable}
    (inTables : row ∈ md.tables)
    (isPerm : row.perm = some (getDatasetPerm target.id target.tableName database.databaseName))
    {p v : String} (listed : (p, v) ∈ datasetViews database.databaseName target) : Kind md p v := by
  unfold datasetViews at listed
  rcases mem_append.mp listed with first | isCatalog
  · rcases mem_append.mp first with isOwn | isSchema
    · obtain ⟨rfl, rfl⟩ := Prod.mk.inj (mem_singleton.mp isOwn)
      exact .inr (.inr ⟨rfl, row, inTables, isPerm⟩)
    · obtain ⟨u, built, same⟩ := mem_map.mp isSchema
      obtain ⟨rfl, rfl⟩ := Prod.mk.inj same
      exact .inr (.inl ⟨database, inDbs, .inl rfl,
        expectedSchemaPerm_bracketed (Option.mem_toList.mp built)⟩)
  · obtain ⟨u, built, same⟩ := mem_map.mp isCatalog
    obtain ⟨rfl, rfl⟩ := Prod.mk.inj same
    exact .inr (.inl ⟨database, inDbs, .inr rfl,
      expectedCatalogPerm_bracketed (Option.mem_toList.mp built)⟩)

theorem Kept.appendedDataset {md₁ : Metadata} {target : SqlaTable} {database : Database}
    {change : SqlaTable → SqlaTable}
    (kept : Kept stale w) (inDbs : database ∈ w.md.dbs)
    (isDatabase : database.id = target.databaseId)
    (isNext : target.id = w.nextTableId)
    (adds : Adds { w.md with tables := w.md.tables ++ [target] } md₁
      (datasetViews database.databaseName target))
    (keeps : ∀ t, (change t).id = t.id)
    (isRow : change target = inStepRow database.databaseName target) :
    Saved stale w ⟨md₁.updateTable target.id change, w.nextDatabaseId, w.nextTableId + 1⟩ := by
  obtain ⟨nameOf, synced, -⟩ := kept.inv.synced
  have wf := kept.inv.wellFormed
  have older : ∀ t ∈ w.md.tables, t.id ≠ target.id :=
    fun t member => isNext ▸ Nat.ne_of_lt (kept.inv.datasets.ids t member)
  have dbs : md₁.dbs = w.md.dbs := adds.objects.dbs
  have tables : (md₁.updateTable target.id change).tables = w.md.tables ++
      [inStepRow database.databaseName target] := by
    have before : md₁.tables = w.md.tables ++ [target] := adds.objects.tables
    have same : ∀ t ∈ w.md.tables, (if t.id = target.id then change t else t) = t :=
      fun t member => if_neg (older t member)
    change md₁.tables.map (fun t => if t.id = target.id then change t else t) = _
    rw [before, map_append, map_singleton, if_pos rfl, isRow, map_congr_left same, map_id']
  have rows : ∀ t ∈ (md₁.updateTable target.id change).tables,
      t ∈ w.md.tables ∨ t = inStepRow database.databaseName target := by
    intro t member
    rw [tables] at member
    rcases mem_append.mp member with old | new
    · exact .inl old
    · exact .inr (mem_singleton.mp new)
  have wellFormed := WellFormed.updateTable adds.wellFormed target.id change keeps
  have inv := kept.inv.appendDataset inDbs isDatabase isNext wellFormed dbs adds.objects.slices rows
    adds.has adds.named
  refine ⟨⟨inv, ?_, ?_, dbs ▸ kept.apart, Nat.succ_pos _, ?_⟩, ?_,
    ⟨?_, Nat.le_refl _, Nat.le_succ _⟩⟩
  · intro p v has
    rcases (adds.has p v).mp has with old | listed
    · refine (kept.kinds p v old).mono (dbs ▸ Subset.refl _) fun t member isPerm => ⟨t, ?_, isPerm⟩
      rw [tables]
      exact mem_append_left _ member
    · have member :
          inStepRow database.databaseName target ∈ (md₁.updateTable target.id change).tables := by
        rw [tables]
        exact mem_append_right _ mem_cons_self
      exact kind_of_datasetViews (dbs ▸ inDbs) member rfl listed
  · intro v named
    rcases (adds.named v).mp named with old | ⟨p, listed⟩
    · obtain ⟨p, has⟩ := kept.used v old
      exact ⟨p, (adds.has p v).mpr (.inl has)⟩
    · exact ⟨p, (adds.has p v).mpr (.inr listed)⟩
  · intro t member
    rcases rows t member with old | rfl
    · exact kept.positive.2 t old
    · exact Nat.ne_of_gt (isNext ▸ kept.positive.1)
  · refine follows_of_datasets id (fun _ _ => False) wf wellFormed dbs ?_ (fun _ _ _ => Iff.rfl)
      (fun _ _ _ => not_false) ?_ (fun _ _ _ _ _ _ _ => not_false) ?_
    · intro role p v
      simp only [not_false_eq_true, true_and, id_eq, exists_eq_right]
      exact adds.holds role p v
    · intro t member
      rcases rows t member with old | rfl
      · exact ⟨_, synced.perms t old⟩
      · exact ⟨_, rfl⟩
    · intro t' member v' isPerm u has _
      rcases rows t' member with old | rfl
      · constructor
        · intro same
          exact ⟨t', old, rfl, isPerm.trans (congrArg some same.symm)⟩
        · intro row
          obtain ⟨t, inTables, sameId, isOld⟩ := row
          rw [table_eq_of_id wf inTables old sameId] at isOld
          exact Option.some.inj (isOld.symm.trans isPerm)
      · -- the string of the new row is not there yet, and no old row has its id
        refine iff_of_false ?_ ?_
        · intro same
          refine kept.inv.datasets.menus target.id target.tableName database.databaseName
            (Nat.le_of_eq isNext.symm) ?_
          rw [Option.some.inj isPerm, ← same]
          exact has.named
        · intro row
          obtain ⟨t, inTables, sameId, -⟩ := row
          exact older t inTables sameId
  · intro object present
    cases ofDatabase : object.databaseId with
    | some id =>
      obtain ⟨d, inNew, same⟩ := (present_iff wellFormed ofDatabase).mp present
      exact .inl ((present_iff wf ofDatabase).mpr ⟨d, dbs ▸ inNew, same⟩)
    | none =>
      obtain ⟨id, rfl⟩ := eq_dataset ofDatabase
      obtain ⟨t, member, rfl⟩ := (present_dataset_iff wellFormed).mp present
      rcases rows t member with old | rfl
      · exact .inl ((present_dataset_iff wf).mpr ⟨t, old, rfl⟩)
      · exact .inr (Nat.le_of_eq isNext.symm)

theorem Kept.insertDataset {w' : World} {tableName : String} {databaseId : Nat}
    {schema catalog : Option String}
    (kept : Kept stale w) (taken : insertDataset w tableName databaseId schema catalog = some w') :
    Saved stale w w' := by
  unfold Listeners.insertDataset at taken
  cases found : w.md.findDatabase databaseId with
  | none =>
    rw [found] at taken
    cases taken
  | some database =>
    obtain ⟨inDbs, isDatabase⟩ := findDatabase_eq_some found
    simp only [found, Option.some.injEq] at taken
    subst taken
    have older : ∀ t ∈ w.md.tables, t.id ≠ w.nextTableId :=
      fun t member => Nat.ne_of_lt (kept.inv.datasets.ids t member)
    have wf :
      ({ w.md with
        tables := w.md.tables ++
          [{ id := w.nextTableId, tableName, databaseId, schema, catalog }] } :
        Metadata).WellFormed :=
      WellFormed.withTables kept.inv.wellFormed w.md.slices
        (nodup_map_append kept.inv.wellFormed.tableIds older)
    obtain ⟨md₁, adds, result, isRow⟩ := sqlatableAfterInsert_adds wf
      { id := w.nextTableId, tableName, databaseId, schema, catalog } found ⟨rfl, rfl⟩
    rw [result]
    exact kept.appendedDataset inDbs isDatabase rfl adds (fun _ => rfl) isRow

end Datasets

end Liteset.Security.Listeners
