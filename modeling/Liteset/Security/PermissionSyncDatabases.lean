import Liteset.Security.PermissionSyncSafety

/-!
# New and renamed databases keep the invariant

A new database gets its view menu.  A rename is followed by the view menu of the
database and then by those of its datasets, one after the other.
-/

set_option autoImplicit false

namespace Liteset.Security.Sync

open Metadata List

theorem findDatabase_eq_some {md : Metadata} {id : Nat} {db : Database}
    (found : md.findDatabase id = some db) : db ∈ md.dbs ∧ db.id = id :=
  ⟨mem_of_find?_eq_some found, by simpa using find?_some found⟩

theorem database_eq_of_id {md : Metadata} (wf : md.WellFormed) {a b : Database}
    (ha : a ∈ md.dbs) (hb : b ∈ md.dbs) (same : a.id = b.id) : a = b :=
  inj_on_of_nodup_map wf.dbIds ha hb same

theorem WellFormed.withDbs {md : Metadata} (wf : md.WellFormed) {dbs : List Database}
    (ids : (dbs.map Database.id).Nodup) : ({ md with dbs } : Metadata).WellFormed :=
  { wf with dbIds := ids }

theorem Synced.withDbs {stale : List Nat} {nameOf : Nat → String} {md : Metadata}
    (synced : Synced stale nameOf md) (dbs : List Database) :
    Synced stale nameOf ({ md with dbs } : Metadata) :=
  ⟨synced.perms, synced.hasPerm, synced.rows, synced.has, synced.charts, synced.menus⟩

theorem Inv.addDatabase {stale : List Nat} {w : World} {md' : Metadata} {name : String}
    (inv : Inv stale w) (adds : Adds { w.md with dbs := w.md.dbs ++ [⟨w.nextDatabaseId, name⟩] } md'
      [(DATABASE_ACCESS, getDatabasePerm w.nextDatabaseId name)]) :
    Inv stale ⟨md', w.nextDatabaseId + 1, w.nextTableId⟩ := by
  obtain ⟨nameOf, synced, fromDatabase⟩ := inv.synced
  have dbs : md'.dbs = w.md.dbs ++ [⟨w.nextDatabaseId, name⟩] := adds.objects.dbs
  have onlyNew : ∀ p v, (p, v) ∈ [(DATABASE_ACCESS, getDatabasePerm w.nextDatabaseId name)] →
      v = getDatabasePerm w.nextDatabaseId name := by
    intro p v isNew
    exact (Prod.mk.inj (mem_singleton.mp isNew)).2
  have rows : ∀ db ∈ md'.dbs, db ∈ w.md.dbs ∨ db = ⟨w.nextDatabaseId, name⟩ := by
    intro db member
    rw [dbs] at member
    rcases mem_append.mp member with inOld | isNew
    · exact .inl inOld
    · exact .inr (mem_singleton.mp isNew)
  have names : ∀ id other, md'.Named (getDatabasePerm id other) →
      w.md.Named (getDatabasePerm id other) ∨ id = w.nextDatabaseId ∧ other = name := by
    intro id other named
    rcases (adds.named _).mp named with old | ⟨p, isNew⟩
    · exact .inl old
    · have same := onlyNew p _ isNew
      have sameId := getDatabasePerm_id _ _ _ _ same
      subst sameId
      exact .inr ⟨rfl, getDatabasePerm_name same⟩
  refine ⟨adds.wellFormed, ⟨nameOf, ?_, ?_⟩, ⟨?_, ?_, ?_, ?_⟩, inv.datasets.frame ?_ ?_ ?_⟩
  · refine (synced.withDbs _).adds adds ?_
    intro p v isNew
    rw [onlyNew p v isNew]
    exact notDataset_databasePerm _ _
  · intro t member
    obtain ⟨db, inDbs, same⟩ := fromDatabase t (adds.objects.tables ▸ member)
    exact ⟨db, dbs ▸ mem_append_left _ inDbs, same⟩
  · intro db member
    rcases rows db member with inOld | rfl
    · exact (adds.has _ _).mpr (.inl (inv.databases.has db inOld))
    · exact (adds.has _ _).mpr (.inr mem_cons_self)
  · intro db member other named
    rcases rows db member with inOld | rfl
    · rcases names db.id other named with old | ⟨sameId, -⟩
      · exact inv.databases.only db inOld other old
      · exact absurd sameId (Nat.ne_of_lt (inv.databases.ids db inOld))
    · rcases names _ other named with old | ⟨-, same⟩
      · exact absurd old (inv.databases.fresh _ other (Nat.le_refl _))
      · exact same
  · intro id other drawn named
    rcases names id other named with old | ⟨sameId, -⟩
    · exact inv.databases.fresh id other (Nat.le_of_succ_le drawn) old
    · exact absurd (sameId ▸ drawn) (Nat.not_succ_le_self _)
  · intro db member
    rcases rows db member with inOld | rfl
    · exact Nat.lt_succ_of_lt (inv.databases.ids db inOld)
    · exact Nat.lt_succ_self _
  · intro t member
    exact ⟨t, adds.objects.tables ▸ member, rfl⟩
  · intro s member
    exact ⟨s, adds.objects.slices ▸ member, rfl⟩
  · intro id table other named
    rcases (adds.named _).mp named with old | ⟨p, isNew⟩
    · exact ⟨table, other, old⟩
    · exact absurd (onlyNew p _ isNew).symm (notDataset_databasePerm _ _ _ _ _)

theorem Inv.createDatabase {w w' : World} {name : String} (inv : Inv [] w)
    (taken : createDatabase w name = some w') : Inv [] w' := by
  unfold Sync.createDatabase at taken
  split at taken
  · cases taken
  rw [Option.some.injEq] at taken
  subst taken
  have ids : ((w.md.dbs ++ [(⟨w.nextDatabaseId, name⟩ : Database)]).map Database.id).Nodup :=
    nodup_map_append inv.wellFormed.dbIds fun db member =>
      Nat.ne_of_lt (inv.databases.ids db member)
  exact inv.addDatabase (addPermissionViewMenu_adds_some (WellFormed.withDbs inv.wellFormed ids)
    DATABASE_ACCESS _ (getDatabasePerm_ne_empty _ _))

section RenameDatabase
variable {stale : List Nat} {w : World} {old : Database} {newName : String}

/-- The rows of `dbs` after the name changed. -/
def renamedDbs (w : World) (id : Nat) (newName : String) : List Database :=
  w.md.dbs.map fun d => if d.id = id then ⟨id, newName⟩ else d

theorem mem_renamedDbs {id : Nat} {db : Database} (member : db ∈ renamedDbs w id newName) :
    db = ⟨id, newName⟩ ∨ db ∈ w.md.dbs ∧ db.id ≠ id := by
  obtain ⟨d, inDbs, rfl⟩ := mem_map.mp member
  by_cases hit : d.id = id
  · exact .inl (if_pos hit)
  · rw [if_neg hit]
    exact .inr ⟨inDbs, hit⟩

theorem renamedDbs_ids (id : Nat) :
    (renamedDbs w id newName).map Database.id = w.md.dbs.map Database.id := by
  rw [renamedDbs, map_map]
  apply map_congr_left
  intro d _
  by_cases hit : d.id = id
  · simp only [Function.comp, hit, if_true]
  · simp only [Function.comp, if_neg hit]

theorem mem_renamedDbs_of_mem {id : Nat} {db : Database} (member : db ∈ w.md.dbs)
    (other : db.id ≠ id) : db ∈ renamedDbs w id newName :=
  mem_map.mpr ⟨db, member, if_neg other⟩

theorem new_mem_renamedDbs (member : old ∈ w.md.dbs) :
    (⟨old.id, newName⟩ : Database) ∈ renamedDbs w old.id newName :=
  mem_map.mpr ⟨old, member, if_pos rfl⟩

theorem Inv.wellFormed_renamedDbs (inv : Inv stale w) (id : Nat) :
    ({ w.md with dbs := renamedDbs w id newName } : Metadata).WellFormed :=
  WellFormed.withDbs inv.wellFormed (by rw [renamedDbs_ids]; exact inv.wellFormed.dbIds)

theorem Inv.sameDatabaseName (inv : Inv stale w) (member : old ∈ w.md.dbs)
    (same : old.databaseName = newName) :
    Inv stale { w with md := { w.md with dbs := renamedDbs w old.id newName } } := by
  have rows : renamedDbs w old.id newName = w.md.dbs := by
    conv_rhs => rw [← map_id w.md.dbs]
    apply map_congr_left
    intro d inDbs
    by_cases hit : d.id = old.id
    · rw [database_eq_of_id inv.wellFormed inDbs member hit, if_pos rfl, ← same]
      rfl
    · rw [if_neg hit]
      rfl
  rw [rows]
  exact inv

theorem Inv.databases_renamed {md₁ : Metadata} (inv : Inv stale w) (member : old ∈ w.md.dbs)
    (renames : Renames { w.md with dbs := renamedDbs w old.id newName } md₁
      (renamed (getDatabasePerm old.id old.databaseName) (getDatabasePerm old.id newName))) :
    DatabaseMenus md₁ w.nextDatabaseId := by
  have dbs : md₁.dbs = renamedDbs w old.id newName := renames.objects.dbs
  have names : ∀ id name, md₁.Named (getDatabasePerm id name) →
      id = old.id ∧ name = newName ∨ w.md.Named (getDatabasePerm id name) ∧
        getDatabasePerm id name ≠ getDatabasePerm old.id old.databaseName := by
    intro id name named
    obtain ⟨v, namedOld, same⟩ := (renames.named _).mp named
    by_cases hit : v = getDatabasePerm old.id old.databaseName
    · rw [hit, renamed_old] at same
      have sameId := getDatabasePerm_id _ _ _ _ same
      subst sameId
      exact .inl ⟨rfl, (getDatabasePerm_name same).symm⟩
    · rw [renamed_other hit] at same
      subst same
      exact .inr ⟨namedOld, hit⟩
  refine ⟨?_, ?_, ?_, ?_⟩
  · intro db inDbs
    rcases mem_renamedDbs (dbs ▸ inDbs) with rfl | ⟨inOld, other⟩
    · exact (renames.has _ _).mpr ⟨_, inv.databases.has old member, renamed_old _ _⟩
    · refine (renames.has _ _).mpr ⟨_, inv.databases.has db inOld, renamed_other ?_⟩
      intro same
      exact other (getDatabasePerm_id _ _ _ _ same)
  · intro db inDbs name named
    rcases mem_renamedDbs (dbs ▸ inDbs) with rfl | ⟨inOld, other⟩
    · rcases names _ _ named with ⟨-, same⟩ | ⟨namedOld, notOld⟩
      · exact same
      · exact absurd (by rw [inv.databases.only old member name namedOld]) notOld
    · rcases names _ _ named with ⟨sameId, -⟩ | ⟨namedOld, -⟩
      · exact absurd sameId other
      · exact inv.databases.only db inOld name namedOld
  · intro id name drawn named
    rcases names id name named with ⟨sameId, -⟩ | ⟨namedOld, -⟩
    · have below := inv.databases.ids old member
      omega
    · exact inv.databases.fresh id name drawn namedOld
  · intro db inDbs
    rcases mem_renamedDbs (dbs ▸ inDbs) with rfl | ⟨inOld, -⟩
    · exact inv.databases.ids old member
    · exact inv.databases.ids db inOld

theorem Inv.fromDatabase_renamed {nameOf : Nat → String} {md' : Metadata} (inv : Inv stale w)
    (member : old ∈ w.md.dbs) (fromDatabase : FromDatabase nameOf w.md)
    (dbs : md'.dbs = renamedDbs w old.id newName)
    (cores : md'.tables.map core = w.md.tables.map core) :
    FromDatabase (fun id => if id ∈ (w.md.tables.filter fun t => t.databaseId = old.id).map
      SqlaTable.id then newName else nameOf id) md' := by
  intro t' member'
  obtain ⟨t, inTables, same⟩ := mem_map.mp
    (cores ▸ mem_map_of_mem member' : core t' ∈ w.md.tables.map core)
  obtain ⟨sameId, -, sameDatabase, -, -⟩ := core_fields same
  rw [dbs, ← sameDatabase, ← sameId]
  by_cases own : t.databaseId = old.id
  · refine ⟨⟨old.id, newName⟩, new_mem_renamedDbs member, own.symm, (if_pos ?_).symm⟩
    exact mem_map_of_mem (mem_filter.mpr ⟨inTables, by simpa using own⟩)
  · obtain ⟨db, inDbs, sameDb, named⟩ := fromDatabase t inTables
    refine ⟨db, mem_renamedDbs_of_mem inDbs (by rw [sameDb]; exact own), sameDb,
      named.trans (if_neg ?_).symm⟩
    intro listed
    obtain ⟨d, inFilter, sameRow⟩ := mem_map.mp listed
    obtain ⟨inTables', isOwn⟩ := mem_filter.mp inFilter
    rw [table_eq_of_id inv.wellFormed inTables' inTables sameRow] at isOwn
    exact own (by simpa using isOwn)

theorem onDatabaseUpdated_eq {md : Metadata} {id : Nat} {oldName newName : String}
    (differs : oldName ≠ newName) (free : ¬ md.Named (getDatabasePerm id newName))
    (has : md.Has DATABASE_ACCESS (getDatabasePerm id oldName)) :
    md.onDatabaseUpdated ⟨id, newName⟩ (some oldName) =
      renameDatasourcePermsForDatabase
        (md.renameViewMenu (getDatabasePerm id oldName) (getDatabasePerm id newName)).1
        ⟨id, newName⟩ oldName := by
  have noNew : md.findPermissionViewMenu DATABASE_ACCESS (getDatabasePerm id newName) = none :=
    findPermissionViewMenu_none_iff.mpr fun hasNew => free hasNew.named
  simp only [onDatabaseUpdated, if_neg differs, noNew]
  cases found : md.findPermissionViewMenu DATABASE_ACCESS (getDatabasePerm id oldName) with
  | none => exact absurd has (findPermissionViewMenu_none_iff.mp found)
  | some pv => rfl

theorem unrenamed_dataset {id datasetId : Nat} {oldName newName v table name : String}
    (same : renamed (getDatabasePerm id oldName) (getDatabasePerm id newName) v =
      getDatasetPerm datasetId table name) : v = getDatasetPerm datasetId table name := by
  by_cases hit : v = getDatabasePerm id oldName
  · rw [hit, renamed_old] at same
    exact absurd same (notDataset_databasePerm _ _ _ _ _)
  · rwa [renamed_other hit] at same

theorem Inv.renamedDatasets {md₁ : Metadata} (inv : Inv [] w) (member : old ∈ w.md.dbs)
    (plain : ∀ t ∈ w.md.tables, t.databaseId = old.id →
      truthy t.schema = false ∧ truthy t.catalog = false)
    (renames : Renames { w.md with dbs := renamedDbs w old.id newName } md₁
      (renamed (getDatabasePerm old.id old.databaseName) (getDatabasePerm old.id newName))) :
    Inv [] { w with
      md := md₁.renameDatasourcePermsForDatabase ⟨old.id, newName⟩ old.databaseName } ∧
      KeepsRoles w.md
        (md₁.renameDatasourcePermsForDatabase ⟨old.id, newName⟩ old.databaseName) := by
  obtain ⟨nameOf, synced, fromDatabase⟩ := inv.synced
  have tables : md₁.tables = w.md.tables := renames.objects.tables
  have slices : md₁.slices = w.md.slices := renames.objects.slices
  have databases := inv.databases_renamed member renames
  have synced₁ : Synced [] nameOf md₁ := (synced.withDbs _).renames renames
    (notDataset_databasePerm _ _) (notDataset_databasePerm _ _)
    fun name inner => getDatabasePerm_ne_bracketed _ _ name inner
  have loop := renameDatasourcePerms_renamed old.databaseName newName
    (md₁.tables.filter fun t => t.databaseId = old.id) renames.wellFormed synced₁ ?_ ?_ ?_ ?_
  · have cores : (md₁.renameDatasourcePermsForDatabase ⟨old.id, newName⟩
        old.databaseName).tables.map core = w.md.tables.map core := by
      rw [← tables]
      exact loop.frame.cores
    have chartKeys : (md₁.renameDatasourcePermsForDatabase ⟨old.id, newName⟩
        old.databaseName).slices.map chartKey = w.md.slices.map chartKey := by
      rw [← slices]
      exact loop.frame.chartKeys
    have dbs := loop.frame.dbs.trans renames.objects.dbs
    refine ⟨⟨loop.wellFormed, ⟨_, loop.synced, ?_⟩, ?_, ?_⟩, ?_⟩
    · rw [tables]
      exact inv.fromDatabase_renamed member fromDatabase dbs cores
    · exact databases.frame loop.frame.dbs loop.frame.has loop.frame.named
    · refine inv.datasets.frame ?_ ?_ ?_
      · intro t' inTables
        have listed := mem_map_of_mem (f := core) inTables
        rw [cores] at listed
        obtain ⟨t, inOld, same⟩ := mem_map.mp listed
        exact ⟨t, inOld, (core_fields same).1⟩
      · intro s' inSlices
        have listed := mem_map_of_mem (f := chartKey) inSlices
        exact mem_map.mp (chartKeys ▸ listed)
      · intro id table name named
        obtain ⟨table', name', named₁⟩ := loop.frame.datasetNamed id table name named
        obtain ⟨v, namedOld, same⟩ := (renames.named _).mp named₁
        refine ⟨table', name', ?_⟩
        rw [← unrenamed_dataset same]
        exact namedOld
    · refine KeepsRoles.trans (KeepsRoles.of_sameTables inv.wellFormed ?_ ?_) loop.roles ?_
      · rw [tables]
        exact fun t inTables => ⟨t, inTables, rfl, rfl⟩
      · intro t inTables v isPerm role held
        refine (renames.holds role _ v).mpr ⟨v, held, renamed_other ?_⟩
        rw [← Option.some.inj ((synced.perms t inTables).symm.trans isPerm)]
        exact (notDataset_databasePerm _ _ _ _ _).symm
      · rw [tables]
        exact fun t inTables => ⟨t, inTables, rfl, _, synced.perms t inTables⟩
  · intro d listed
    exact ⟨d, (mem_filter.mp listed).1, rfl⟩
  · exact renames.wellFormed.tableIds.sublist (filter_sublist.map _)
  · intro d listed
    obtain ⟨inTables, isOwn⟩ := mem_filter.mp listed
    obtain ⟨db, inDbs, sameDb, named⟩ := fromDatabase d (tables ▸ inTables)
    have isOld := database_eq_of_id inv.wellFormed inDbs member
      (sameDb.trans (by simpa using isOwn))
    rw [← named, isOld]
  · intro d listed
    obtain ⟨inTables, isOwn⟩ := mem_filter.mp listed
    exact plain d (tables ▸ inTables) (by simpa using isOwn)

theorem Inv.renameDatabase {w' : World} {id : Nat} (inv : Inv [] w)
    (orderly : OrderlyRename w id newName) (taken : renameDatabase w id newName = some w') :
    Inv [] w' ∧ KeepsRoles w.md w'.md := by
  obtain ⟨nameOf, synced, fromDatabase⟩ := inv.synced
  unfold Sync.renameDatabase at taken
  cases found : w.md.findDatabase id with
  | none => simp [found] at taken
  | some old =>
    obtain ⟨member, rfl⟩ := findDatabase_eq_some found
    simp only [found] at taken
    split at taken
    · cases taken
    rw [Option.some.injEq] at taken
    subst taken
    by_cases same : old.databaseName = newName
    · refine ⟨?_, ?_⟩
      · simp only [onDatabaseUpdated, same, if_true]
        exact inv.sameDatabaseName member same
      · simp only [onDatabaseUpdated, same, if_true]
        exact KeepsRoles.of_sameTables inv.wellFormed (fun t inTables => ⟨t, inTables, rfl, rfl⟩)
          fun _ _ _ _ _ held => held
    · have wf₀ : ({ w.md with dbs := renamedDbs w old.id newName } : Metadata).WellFormed :=
        inv.wellFormed_renamedDbs old.id
      have free : ¬ w.md.Named (getDatabasePerm old.id newName) := by
        intro named
        exact same (inv.databases.only old member newName named).symm
      have hasOld := inv.databases.has old member
      have renames : Renames { w.md with dbs := renamedDbs w old.id newName } _ _ :=
        renameViewMenu_renames wf₀ hasOld.named free
      have final := inv.renamedDatasets member (orderly ⟨old, member, rfl, same⟩) renames
      have result : Metadata.onDatabaseUpdated { w.md with dbs := renamedDbs w old.id newName }
          ⟨old.id, newName⟩ (some old.databaseName) = _ := onDatabaseUpdated_eq same free hasOld
      exact result.symm ▸ final

end RenameDatabase

end Liteset.Security.Sync
