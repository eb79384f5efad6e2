import Mathlib.Logic.Function.Basic
import Liteset.Security.PermissionSync

/-!
# Orderly changes keep the permissions in step

The invariant `Synced` says which database name each dataset's strings were built
from, and that the view menu of a dataset is the only one with its id.  Every
callback replaces the strings of one dataset at a time (`Synced.replace`).  The
schema and catalog strings of the datasets listed as stale may be anything: there
are none between the callbacks, but a flush may pass through such states.
-/

set_option autoImplicit false

namespace Liteset.Security.Sync

open Metadata List

theorem expectedSchemaPerm_bracketed {name v : String} {catalog schema : Option String}
    (built : expectedSchemaPerm name catalog schema = some v) :
    ∃ inner, v = bracketed name inner := by
  unfold expectedSchemaPerm at built
  split at built
  · exact (getSchemaPerm_eq_some name v).mp ⟨catalog, schema, built⟩
  · cases built

theorem expectedCatalogPerm_bracketed {name v : String} {catalog : Option String}
    (built : expectedCatalogPerm name catalog = some v) : ∃ inner, v = bracketed name inner := by
  unfold expectedCatalogPerm at built
  split at built
  · exact (getCatalogPerm_eq_some name v).mp ⟨catalog, built⟩
  · cases built

def NotDataset (view : String) : Prop := ∀ id table name, view ≠ getDatasetPerm id table name

theorem notDataset_bracketed (name inner : String) : NotDataset (bracketed name inner) :=
  fun id table other same => getDatasetPerm_ne_bracketed id table other name inner same.symm

theorem notDataset_databasePerm (id : Nat) (name : String) : NotDataset (getDatabasePerm id name) :=
  fun datasetId table other => getDatabasePerm_ne_getDatasetPerm id datasetId name table other

theorem getDatasetPerm_ne_empty (id : Nat) (table name : String) :
    getDatasetPerm id table name ≠ "" := by
  intro same
  have chars := congrArg String.toList same
  simp [getDatasetPerm] at chars

theorem getDatabasePerm_ne_empty (id : Nat) (name : String) : getDatabasePerm id name ≠ "" := by
  intro same
  have chars := congrArg String.toList same
  simp [getDatabasePerm] at chars

theorem bracketed_ne_empty (name inner : String) : bracketed name inner ≠ "" := by
  intro same
  have chars := congrArg String.toList same
  simp [bracketed] at chars

/-- The strings of the dataset with an id are built from `nameOf` that id. -/
structure Synced (stale : List Nat) (nameOf : Nat → String) (md : Metadata) : Prop where
  perms : ∀ t ∈ md.tables, t.perm = some (getDatasetPerm t.id t.tableName (nameOf t.id))
  hasPerm : ∀ t ∈ md.tables, ∀ v ∈ t.perm, md.Has DATASOURCE_ACCESS v
  rows : ∀ t ∈ md.tables, t.id ∉ stale → RowInStep (nameOf t.id) t
  has : ∀ t ∈ md.tables, t.id ∉ stale → HasRow md t
  charts : ∀ t ∈ md.tables, ∀ s ∈ md.slices, OnDataset s t → Carries s t
  menus : ∀ t ∈ md.tables, ∀ table name, md.Named (getDatasetPerm t.id table name) →
    t.perm = some (getDatasetPerm t.id table name)

variable {md md' : Metadata}

theorem HasRow.kept {t : SqlaTable} {name gone : String}
    (row : RowInStep name t) (has : HasRow md t)
    (kept : ∀ p v, md.Has p v → v ≠ gone → md'.Has p v)
    (dataset : ∃ id table other, gone = getDatasetPerm id table other)
    (own : t.perm ≠ some gone) : HasRow md' t := by
  obtain ⟨id, table, other, rfl⟩ := dataset
  refine ⟨?_, ?_, ?_⟩
  · intro v isPerm
    refine kept _ v (has.1 v isPerm) ?_
    intro same
    exact own (same ▸ isPerm)
  · intro v isPerm
    obtain ⟨inner, built⟩ := expectedSchemaPerm_bracketed (row.2.1.symm.trans isPerm)
    exact kept _ v (has.2.1 v isPerm) (built ▸ notDataset_bracketed name inner id table other)
  · intro v isPerm
    obtain ⟨inner, built⟩ := expectedCatalogPerm_bracketed (row.2.2.symm.trans isPerm)
    exact kept _ v (has.2.2 v isPerm) (built ▸ notDataset_bracketed name inner id table other)

variable {nameOf : Nat → String} {md : Metadata} {stale : List Nat}

theorem Synced.perm_ne
    (synced : Synced stale nameOf md) {t : SqlaTable} (member : t ∈ md.tables) {id : Nat}
    (other : t.id ≠ id) (table name : String) :
    t.perm ≠ some (getDatasetPerm id table name) := by
  intro same
  rw [synced.perms t member, Option.some.injEq] at same
  exact other (getDatasetPerm_id _ _ _ _ _ _ same)

variable {oldPerm newPerm name : String}

theorem Synced.replace (synced : Synced stale nameOf md) {stale' : List Nat} {t₀ row : SqlaTable}
    (member : t₀ ∈ md.tables) (isOld : t₀.perm = some oldPerm)
    (sameId : row.id = t₀.id) (isNew : row.perm = some newPerm)
    (newShape : newPerm = getDatasetPerm row.id row.tableName name)
    (hasNew : md'.Has DATASOURCE_ACCESS newPerm)
    (inStep : row.id ∉ stale' → RowInStep name row ∧ HasRow md' row)
    (others : ∀ id, id ≠ t₀.id → id ∉ stale' → id ∉ stale)
    (tables : ∀ t ∈ md'.tables, t = row ∨ t ∈ md.tables ∧ t.id ≠ t₀.id)
    (rowCharts : ∀ s ∈ md'.slices, OnDataset s row → Carries s row)
    (otherCharts : ∀ t ∈ md.tables, t.id ≠ t₀.id → ∀ s ∈ md'.slices, OnDataset s t → Carries s t)
    (kept : ∀ p v, md.Has p v → v ≠ oldPerm → md'.Has p v)
    (menus : ∀ id table other, md'.Named (getDatasetPerm id table other) →
      getDatasetPerm id table other = newPerm ∨
        md.Named (getDatasetPerm id table other) ∧ getDatasetPerm id table other ≠ oldPerm) :
    Synced stale' (Function.update nameOf t₀.id name) md' := by
  have oldShape := (synced.perms t₀ member).symm.trans isOld
  have oldDataset : ∃ id table other, oldPerm = getDatasetPerm id table other :=
    ⟨_, _, _, (Option.some.inj oldShape).symm⟩
  have notOld : ∀ t ∈ md.tables, t.id ≠ t₀.id → t.perm ≠ some oldPerm := by
    intro t inOld other
    rw [← Option.some.inj oldShape]
    exact synced.perm_ne inOld other _ _
  refine ⟨?_, ?_, ?_, ?_, ?_, ?_⟩
  · intro t inTables
    rcases tables t inTables with rfl | ⟨inOld, other⟩
    · rw [sameId, Function.update_self, isNew, newShape, sameId]
    · rw [Function.update_of_ne other]
      exact synced.perms t inOld
  · intro t inTables v isPerm
    rcases tables t inTables with rfl | ⟨inOld, other⟩
    · rw [← Option.some.inj (isNew.symm.trans isPerm)]
      exact hasNew
    · refine kept _ v (synced.hasPerm t inOld v isPerm) ?_
      intro same
      exact notOld t inOld other (same ▸ isPerm)
  · intro t inTables fresh
    rcases tables t inTables with rfl | ⟨inOld, other⟩
    · rw [sameId, Function.update_self]
      exact (inStep fresh).1
    · rw [Function.update_of_ne other]
      exact synced.rows t inOld (others t.id other fresh)
  · intro t inTables fresh
    rcases tables t inTables with rfl | ⟨inOld, other⟩
    · exact (inStep fresh).2
    · have freshOld := others t.id other fresh
      exact HasRow.kept (synced.rows t inOld freshOld) (synced.has t inOld freshOld) kept oldDataset
        (notOld t inOld other)
  · intro t inTables s inSlices on
    rcases tables t inTables with rfl | ⟨inOld, other⟩
    · exact rowCharts s inSlices on
    · exact otherCharts t inOld other s inSlices on
  · intro t inTables table other named
    rcases tables t inTables with rfl | ⟨inOld, different⟩
    · rcases menus t.id table other named with same | ⟨namedOld, differs⟩
      · rw [isNew, same]
      · rw [sameId] at namedOld differs
        have isOwn := isOld.symm.trans (synced.menus t₀ member table other namedOld)
        exact absurd (Option.some.inj isOwn).symm differs
    · rcases menus t.id table other named with same | ⟨namedOld, -⟩
      · rw [newShape] at same
        exact absurd ((getDatasetPerm_id _ _ _ _ _ _ same).trans sameId) different
      · exact synced.menus t inOld table other namedOld

theorem Synced.adds
    {added : List (String × String)} (synced : Synced stale nameOf md) (adds : Adds md md' added)
    (plain : ∀ p v, (p, v) ∈ added → NotDataset v) : Synced stale nameOf md' where
  perms := adds.objects.tables ▸ synced.perms
  hasPerm := by
    rw [adds.objects.tables]
    exact fun t member v isPerm => (adds.has _ v).mpr (.inl (synced.hasPerm t member v isPerm))
  rows := adds.objects.tables ▸ synced.rows
  has := by
    rw [adds.objects.tables]
    intro t member fresh
    obtain ⟨perm, schemaPerm, catalogPerm⟩ := synced.has t member fresh
    exact ⟨fun v isPerm => (adds.has _ v).mpr (.inl (perm v isPerm)),
      fun v isPerm => (adds.has _ v).mpr (.inl (schemaPerm v isPerm)),
      fun v isPerm => (adds.has _ v).mpr (.inl (catalogPerm v isPerm))⟩
  charts := by
    rw [adds.objects.tables, adds.objects.slices]
    exact synced.charts
  menus := by
    rw [adds.objects.tables]
    intro t member table name named
    rcases (adds.named _).mp named with old | ⟨p, isNew⟩
    · exact synced.menus t member table name old
    · exact absurd rfl (plain p _ isNew _ _ _)

theorem Synced.renames {oldName newName : String} (synced : Synced stale nameOf md)
    (renames : Renames md md' (renamed oldName newName)) (plainOld : NotDataset oldName)
    (plainNew : NotDataset newName) (unbracketed : ∀ name inner, oldName ≠ bracketed name inner) :
    Synced stale nameOf md' := by
  have keeps : ∀ p v, md.Has p v → v ≠ oldName → md'.Has p v :=
    fun p v has other => (renames.has p v).mpr ⟨v, has, renamed_other other⟩
  have keepsPerm : ∀ t ∈ md.tables, ∀ v ∈ t.perm, md'.Has DATASOURCE_ACCESS v := by
    intro t member v isPerm
    refine keeps _ v (synced.hasPerm t member v isPerm) ?_
    rw [← Option.some.inj ((synced.perms t member).symm.trans isPerm)]
    exact (plainOld _ _ _).symm
  refine ⟨renames.objects.tables ▸ synced.perms, renames.objects.tables ▸ keepsPerm,
    renames.objects.tables ▸ synced.rows, ?_, ?_, ?_⟩
  · rw [renames.objects.tables]
    intro t member fresh
    have row := synced.rows t member fresh
    obtain ⟨-, schemaPerm, catalogPerm⟩ := synced.has t member fresh
    refine ⟨keepsPerm t member, ?_, ?_⟩
    · intro v isPerm
      obtain ⟨inner, rfl⟩ := expectedSchemaPerm_bracketed (row.2.1.symm.trans isPerm)
      exact keeps _ _ (schemaPerm _ isPerm) (unbracketed _ _).symm
    · intro v isPerm
      obtain ⟨inner, rfl⟩ := expectedCatalogPerm_bracketed (row.2.2.symm.trans isPerm)
      exact keeps _ _ (catalogPerm _ isPerm) (unbracketed _ _).symm
  · rw [renames.objects.tables, renames.objects.slices]
    exact synced.charts
  · rw [renames.objects.tables]
    intro t member table name named
    obtain ⟨w, namedOld, same⟩ := (renames.named _).mp named
    by_cases hit : w = oldName
    · rw [hit, renamed_old] at same
      exact absurd same (plainNew _ _ _)
    · rw [renamed_other hit] at same
      exact synced.menus t member table name (same ▸ namedOld)

def core (t : SqlaTable) : SqlaTable :=
  { t with perm := none, schemaPerm := none, catalogPerm := none }

def chartKey (s : Slice) : Option Nat × Option String := (s.datasourceId, s.datasourceType)

structure DatasetFrame (md md' : Metadata) : Prop where
  cores : md'.tables.map core = md.tables.map core
  dbs : md'.dbs = md.dbs
  chartKeys : md'.slices.map chartKey = md.slices.map chartKey
  has : ∀ p v, NotDataset v → md.Has p v → md'.Has p v
  named : ∀ id name, md'.Named (getDatabasePerm id name) → md.Named (getDatabasePerm id name)
  datasetNamed : ∀ id table name, md'.Named (getDatasetPerm id table name) →
    ∃ table' name', md.Named (getDatasetPerm id table' name')

theorem DatasetFrame.refl (md : Metadata) : DatasetFrame md md :=
  ⟨rfl, rfl, rfl, fun _ _ _ has => has, fun _ _ named => named,
    fun _ table name named => ⟨table, name, named⟩⟩

variable {a b c : Metadata}

theorem DatasetFrame.trans (first : DatasetFrame a b)
    (second : DatasetFrame b c) : DatasetFrame a c where
  cores := second.cores.trans first.cores
  dbs := second.dbs.trans first.dbs
  chartKeys := second.chartKeys.trans first.chartKeys
  has p v plain has := second.has p v plain (first.has p v plain has)
  named id name named := first.named id name (second.named id name named)
  datasetNamed id table name named := by
    obtain ⟨table', name', named'⟩ := second.datasetNamed id table name named
    exact first.datasetNamed id table' name' named'

theorem DatasetFrame.row_after (frame : DatasetFrame md md') {t : SqlaTable}
    (member : t ∈ md.tables) : ∃ t' ∈ md'.tables, core t' = core t := by
  have inCores : core t ∈ md'.tables.map core := frame.cores ▸ mem_map_of_mem member
  exact mem_map.mp inCores

theorem core_fields {t t' : SqlaTable} (same : core t' = core t) :
    t'.id = t.id ∧ t'.tableName = t.tableName ∧ t'.databaseId = t.databaseId ∧
      t'.schema = t.schema ∧ t'.catalog = t.catalog := by
  simpa [core] using same

theorem table_eq_of_id (wf : md.WellFormed) {a b : SqlaTable}
    (ha : a ∈ md.tables) (hb : b ∈ md.tables) (same : a.id = b.id) : a = b :=
  inj_on_of_nodup_map wf.tableIds ha hb same

theorem KeepsRoles.trans (first : KeepsRoles a b) (second : KeepsRoles b c)
    (rows : ∀ t ∈ a.tables, ∃ t' ∈ b.tables, t'.id = t.id ∧ ∃ v, t'.perm = some v) :
    KeepsRoles a c := by
  intro t inA t'' inC sameId v isPerm v'' isPerm'' role holds
  obtain ⟨t', inB, sameId', v', isPerm'⟩ := rows t inA
  have middle := first t inA t' inB sameId' v isPerm v' isPerm' role holds
  exact second t' inB t'' inC (sameId.trans sameId'.symm) v' isPerm' v'' isPerm'' role middle

theorem KeepsRoles.of_sameTables (wf : md.WellFormed)
    (perms : ∀ t' ∈ md'.tables, ∃ t ∈ md.tables, t.id = t'.id ∧ t.perm = t'.perm)
    (holds : ∀ t ∈ md.tables, ∀ v ∈ t.perm, ∀ role, md.Holds role DATASOURCE_ACCESS v →
      md'.Holds role DATASOURCE_ACCESS v) : KeepsRoles md md' := by
  intro t inOld t' inNew sameId v isPerm v' isPerm' role held
  obtain ⟨t₁, inOld₁, sameId₁, samePerm⟩ := perms t' inNew
  rw [table_eq_of_id wf inOld₁ inOld (sameId₁.trans sameId), isPerm] at samePerm
  have same : v = v' := Option.some.inj (samePerm.trans isPerm')
  exact same ▸ holds t inOld v isPerm role held

/-- A view of a schema or catalog of the database `name`. -/
def SchemaView (name permission view : String) : Prop :=
  (permission = SCHEMA_ACCESS ∨ permission = CATALOG_ACCESS) ∧ ∃ inner, view = bracketed name inner

/-- The view menu of a dataset is renamed to another string with its id; schema and
catalog views of the database `name` may be added. -/
structure Moves (md md' : Metadata) (oldPerm newPerm name : String) : Prop where
  wellFormed : md'.WellFormed
  has : ∀ p v, md.Has p v → v ≠ oldPerm → md'.Has p v
  hasNew : md'.Has DATASOURCE_ACCESS newPerm
  origin : ∀ p v, md'.Has p v →
    (∃ u, md.Has p u ∧ renamed oldPerm newPerm u = v) ∨ SchemaView name p v
  named : ∀ v, md'.Named v → v = newPerm ∨ (md.Named v ∧ v ≠ oldPerm) ∨
    ∃ p, md'.Has p v ∧ SchemaView name p v
  holds : ∀ role p v, md'.Holds role p v ↔
    ∃ u, md.Holds role p u ∧ renamed oldPerm newPerm u = v

theorem Moves.of_renames {oldPerm newPerm : String}
    (renames : Renames md md' (renamed oldPerm newPerm))
    (has : md.Has DATASOURCE_ACCESS oldPerm) (name : String) :
    Moves md md' oldPerm newPerm name where
  __ := renames
  has p v hasOld other := (renames.has p v).mpr ⟨v, hasOld, renamed_other other⟩
  hasNew := (renames.has _ _).mpr ⟨oldPerm, has, renamed_old oldPerm newPerm⟩
  origin p v hasNew := .inl ((renames.has p v).mp hasNew)
  named := by
    intro v named
    obtain ⟨w, namedOld, same⟩ := (renames.named v).mp named
    by_cases hit : w = oldPerm
    · rw [hit, renamed_old] at same
      exact .inl same.symm
    · rw [renamed_other hit] at same
      subst same
      exact .inr (.inl ⟨namedOld, hit⟩)

theorem Moves.refl (wf : md.WellFormed) {perm : String}
    (has : md.Has DATASOURCE_ACCESS perm) (name : String) : Moves md md perm perm name where
  wellFormed := wf
  has _ _ hasOld _ := hasOld
  hasNew := has
  origin p v hasOld := .inl ⟨v, hasOld, renamed_self perm v⟩
  named := by
    intro v named
    by_cases same : v = perm
    · exact .inl same
    · exact .inr (.inl ⟨named, same⟩)
  holds role p v := by
    simp only [renamed_self, exists_eq_right]

theorem Moves.after (first : Moves a b oldPerm oldPerm name)
    (second : Moves b c oldPerm newPerm name)
    (unbracketed : ∀ inner, oldPerm ≠ bracketed name inner) : Moves a c oldPerm newPerm name where
  __ := second
  has p v has other := second.has p v (first.has p v has other) other
  origin := by
    intro p v hasC
    rcases second.origin p v hasC with ⟨u, hasB, same⟩ | added
    · rcases first.origin p u hasB with ⟨x, hasA, sameA⟩ | addedB
      · rw [renamed_self] at sameA
        exact .inl ⟨u, sameA ▸ hasA, same⟩
      · obtain ⟨kind, inner, shape⟩ := addedB
        have other : u ≠ oldPerm := fun hit => unbracketed inner (hit ▸ shape)
        rw [renamed_other other] at same
        exact .inr ⟨kind, inner, same ▸ shape⟩
    · exact .inr added
  named := by
    intro v named
    rcases second.named v named with isNew | ⟨inB, other⟩ | added
    · exact .inl isNew
    · rcases first.named v inB with isOld | old | ⟨p, hasB, view⟩
      · exact absurd isOld other
      · exact .inr (.inl old)
      · exact .inr (.inr ⟨p, second.has p v hasB other, view⟩)
    · exact .inr (.inr added)
  holds role p v := by
    rw [second.holds]
    simp only [first.holds, renamed_self, exists_eq_right]

theorem Moves.datasetNamed {oldPerm newPerm source : String}
    (moves : Moves md md' oldPerm newPerm source) {id : Nat} {table name : String}
    (named : md'.Named (getDatasetPerm id table name)) :
    getDatasetPerm id table name = newPerm ∨
      md.Named (getDatasetPerm id table name) ∧ getDatasetPerm id table name ≠ oldPerm := by
  rcases moves.named _ named with same | old | ⟨-, -, -, inner, same⟩
  · exact .inl same
  · exact .inr old
  · exact absurd same (getDatasetPerm_ne_bracketed _ _ _ _ _)

theorem Moves.adds {md md₁ md₂ : Metadata}
    {added : List (String × String)} (moves : Moves md md₁ oldPerm newPerm name)
    (adds : Adds md₁ md₂ added) (shape : ∀ p v, (p, v) ∈ added → SchemaView name p v) :
    Moves md md₂ oldPerm newPerm name where
  wellFormed := adds.wellFormed
  has p v hasOld other := (adds.has p v).mpr (.inl (moves.has p v hasOld other))
  hasNew := (adds.has _ _).mpr (.inl moves.hasNew)
  origin := by
    intro p v has
    rcases (adds.has p v).mp has with inOld | isNew
    · exact moves.origin p v inOld
    · exact .inr (shape p v isNew)
  named := by
    intro v named
    rcases (adds.named v).mp named with inOld | ⟨p, isNew⟩
    · rcases moves.named v inOld with isNew | old | ⟨p, has, view⟩
      · exact .inl isNew
      · exact .inr (.inl old)
      · exact .inr (.inr ⟨p, (adds.has p v).mpr (.inl has), view⟩)
    · exact .inr (.inr ⟨p, (adds.has p v).mpr (.inr isNew), shape p v isNew⟩)
  holds role p v := (adds.holds role p v).trans (moves.holds role p v)

section Move
variable {stale : List Nat} {nameOf : Nat → String} {md md' : Metadata} {t₀ row : SqlaTable}
  {oldPerm newPerm name source : String}

theorem Moves.keepsRoles (moves : Moves md md' oldPerm newPerm source) (wf : md.WellFormed)
    (synced : Synced stale nameOf md) (member : t₀ ∈ md.tables) (isOld : t₀.perm = some oldPerm)
    (sameId : row.id = t₀.id) (isNew : row.perm = some newPerm)
    (tables : ∀ t ∈ md'.tables, t = row ∨ t ∈ md.tables ∧ t.id ≠ t₀.id) : KeepsRoles md md' := by
  intro t inOld t' inNew same v isPerm v' isPerm' role held
  have moved := (moves.holds role _ _).mpr ⟨v, held, rfl⟩
  rcases tables t' inNew with rfl | ⟨inOld', other⟩
  · have sameRow := table_eq_of_id wf inOld member (same.symm.trans sameId)
    subst sameRow
    have isOldPerm : v = oldPerm := Option.some.inj (isPerm.symm.trans isOld)
    have isNewPerm : v' = newPerm := Option.some.inj (isPerm'.symm.trans isNew)
    rw [isOldPerm, renamed_old] at moved
    exact isNewPerm ▸ moved
  · have sameRow := table_eq_of_id wf inOld' inOld same
    subst sameRow
    have sameValue : v = v' := Option.some.inj (isPerm.symm.trans isPerm')
    have notOld : v ≠ oldPerm := by
      intro isOldPerm
      have shape := (synced.perms t₀ member).symm.trans isOld
      refine synced.perm_ne inOld other t₀.tableName (nameOf t₀.id) ?_
      rw [show t'.perm = some v from isPerm, isOldPerm, Option.some.inj shape]
    rw [renamed_other notOld] at moved
    exact sameValue ▸ moved

theorem Moves.names (moves : Moves md md' oldPerm newPerm source) (synced : Synced stale nameOf md)
    (member : t₀ ∈ md.tables) (isOld : t₀.perm = some oldPerm) (sameId : row.id = t₀.id)
    (newShape : newPerm = getDatasetPerm row.id row.tableName name) :
    (∀ p v, NotDataset v → md.Has p v → md'.Has p v) ∧
      (∀ id name, md'.Named (getDatabasePerm id name) → md.Named (getDatabasePerm id name)) ∧
      ∀ id table other, md'.Named (getDatasetPerm id table other) →
        ∃ table' other', md.Named (getDatasetPerm id table' other') := by
  have oldShape := Option.some.inj ((synced.perms t₀ member).symm.trans isOld)
  refine ⟨?_, ?_, ?_⟩
  · intro p v plain has
    refine moves.has p v has ?_
    rw [← oldShape]
    exact plain _ _ _
  · intro id name named
    rcases moves.named _ named with same | ⟨namedOld, -⟩ | ⟨-, -, -, inner, same⟩
    · rw [newShape] at same
      exact absurd same (notDataset_databasePerm _ _ _ _ _)
    · exact namedOld
    · exact absurd same (getDatabasePerm_ne_bracketed _ _ _ _)
  · intro id table other named
    rcases moves.datasetNamed named with same | ⟨namedOld, -⟩
    · rw [newShape] at same
      have isId := (getDatasetPerm_id _ _ _ _ _ _ same).trans sameId
      refine ⟨t₀.tableName, nameOf t₀.id, ?_⟩
      rw [isId]
      exact (synced.hasPerm t₀ member _ (synced.perms t₀ member)).named
    · exact ⟨table, other, namedOld⟩

end Move

theorem rowInStep_of_plain {t : SqlaTable} {name other : String} (row : RowInStep name t)
    (plain : truthy t.schema = false ∧ truthy t.catalog = false) :
    t.schemaPerm = expectedSchemaPerm other t.catalog t.schema ∧
      t.catalogPerm = expectedCatalogPerm other t.catalog := by
  obtain ⟨-, schemaPerm, catalogPerm⟩ := row
  simp only [expectedSchemaPerm, expectedCatalogPerm, plain.1, plain.2, Bool.false_eq_true,
    if_false] at schemaPerm catalogPerm ⊢
  exact ⟨schemaPerm, catalogPerm⟩

structure Renamed (nameOf : Nat → String) (md md' : Metadata) : Prop where
  wellFormed : md'.WellFormed
  synced : Synced [] nameOf md'
  frame : DatasetFrame md md'
  roles : KeepsRoles md md'

theorem row_or_other {olds : List SqlaTable} {row : SqlaTable} {id : Nat} :
    ∀ t ∈ olds.map (fun t => if t.id = id then row else t), t = row ∨ t ∈ olds ∧ t.id ≠ id := by
  intro t inTables
  obtain ⟨old, inOld, rfl⟩ := mem_map.mp inTables
  by_cases hit : old.id = id
  · exact .inl (if_pos hit)
  · rw [if_neg hit]
    exact .inr ⟨inOld, hit⟩

theorem renamed_of_moves {t₀ row : SqlaTable}
    (wf : md.WellFormed) (synced : Synced [] nameOf md)
    (member : t₀ ∈ md.tables) (isOld : t₀.perm = some oldPerm) (sameCore : core row = core t₀)
    (inStep : RowInStep name row) (isNew : row.perm = some newPerm)
    (moves : Moves md md' oldPerm newPerm name)
    (tables : md'.tables = md.tables.map fun t => if t.id = t₀.id then row else t)
    (dbs : md'.dbs = md.dbs)
    (chartKeys : md'.slices.map chartKey = md.slices.map chartKey)
    (rowCharts : ∀ s ∈ md'.slices, OnDataset s row → Carries s row)
    (otherCharts : ∀ t ∈ md.tables, t.id ≠ t₀.id → ∀ s ∈ md'.slices, OnDataset s t → Carries s t)
    (hasRow : HasRow md' row) : Renamed (Function.update nameOf t₀.id name) md md' := by
  obtain ⟨sameId, -, -, -, -⟩ := core_fields sameCore
  have newShape := Option.some.inj (isNew.symm.trans inStep.1)
  have rows : ∀ t ∈ md'.tables, t = row ∨ t ∈ md.tables ∧ t.id ≠ t₀.id := tables ▸ row_or_other
  obtain ⟨has, named, datasetNamed⟩ := moves.names synced member isOld sameId newShape
  refine ⟨moves.wellFormed, ?_, ⟨?_, dbs, chartKeys, has, named, datasetNamed⟩,
    moves.keepsRoles wf synced member isOld sameId isNew rows⟩
  · exact synced.replace member isOld sameId isNew newShape moves.hasNew
      (fun _ => ⟨inStep, hasRow⟩) (fun _ _ fresh => fresh) rows rowCharts otherCharts moves.has
      fun _ _ _ => moves.datasetNamed
  · rw [tables, map_map]
    apply map_congr_left
    intro t inTables
    by_cases hit : t.id = t₀.id
    · simp only [Function.comp, if_pos hit]
      rw [table_eq_of_id wf inTables member hit]
      exact sameCore
    · simp only [Function.comp, if_neg hit]

theorem renameDatasourcePerm_renamed {t₀ : SqlaTable}
    {oldName : String} (wf : md.WellFormed) (synced : Synced [] nameOf md) (member : t₀ ∈ md.tables)
    (isOld : nameOf t₀.id = oldName) (plain : truthy t₀.schema = false ∧ truthy t₀.catalog = false)
    (newName : String) (d : SqlaTable) (same : core t₀ = core d) :
    Renamed (Function.update nameOf t₀.id newName) md
      (renameDatasourcePerm oldName newName md d) := by
  obtain ⟨sameId, sameTable, -, -, -⟩ := core_fields same
  have row := synced.rows t₀ member not_mem_nil
  have hasRow := synced.has t₀ member not_mem_nil
  have oldPerm : t₀.perm = some (getDatasetPerm t₀.id t₀.tableName oldName) := isOld ▸ row.1
  have hasOld := hasRow.1 _ oldPerm
  have onlyRow : ∀ t ∈ md.tables, t = t₀ ∨ t ∈ md.tables ∧ t.id ≠ t₀.id := by
    intro t inTables
    by_cases hit : t.id = t₀.id
    · exact .inl (table_eq_of_id wf inTables member hit)
    · exact .inr ⟨inTables, hit⟩
  have wellFormed := wf.renameDatasourcePerm oldName newName d
  simp only [renameDatasourcePerm, ← sameId, ← sameTable] at wellFormed ⊢
  cases found : md.findViewMenu (getDatasetPerm t₀.id t₀.tableName newName) with
  | some vm =>
    -- the only view menu with this id is the dataset's own
    obtain ⟨inMenus, named⟩ := findViewMenu_eq_some found
    have isNew := synced.menus t₀ member t₀.tableName newName ⟨vm, inMenus, named⟩
    have samePerm := Option.some.inj (oldPerm.symm.trans isNew)
    have stays := Moves.refl wf hasOld newName
    refine ⟨wf, ?_, DatasetFrame.refl md, ?_⟩
    · exact synced.replace member oldPerm rfl isNew rfl (samePerm ▸ hasOld)
        (fun _ => ⟨⟨isNew, rowInStep_of_plain row plain⟩, hasRow⟩) (fun _ _ fresh => fresh) onlyRow
        (synced.charts t₀ member) (fun t inTables _ => synced.charts t inTables) stays.has
        fun _ _ _ namedOld => samePerm ▸ stays.datasetNamed namedOld
    · exact stays.keepsRoles wf synced member oldPerm rfl oldPerm onlyRow
  | none =>
    have free := findViewMenu_none_iff.mp found
    have renames := renameViewMenu_renames wf hasOld.named free
    have moved := Moves.of_renames renames hasOld newName
    rw [found] at wellFormed
    simp only at wellFormed ⊢
    rw [renames.objects.tables, renames.objects.slices] at wellFormed ⊢
    have plainRow : t₀.schemaPerm = expectedSchemaPerm newName t₀.catalog t₀.schema ∧
        t₀.catalogPerm = expectedCatalogPerm newName t₀.catalog := rowInStep_of_plain row plain
    have inStep : RowInStep newName
        { t₀ with perm := some (getDatasetPerm t₀.id t₀.tableName newName) } :=
      ⟨rfl, plainRow⟩
    refine renamed_of_moves wf synced member oldPerm ?_ inStep rfl
      ⟨wellFormed, moved.has, moved.hasNew, moved.origin, moved.named,
        moved.holds⟩ ?_ renames.objects.dbs
      ?_ ?_ ?_ ?_
    · rfl
    · apply map_congr_left
      intro t inTables
      by_cases hit : t.id = t₀.id
      · rw [table_eq_of_id wf inTables member hit, if_pos ⟨rfl, oldPerm⟩, if_pos rfl]
      · rw [if_neg (fun both => hit both.1), if_neg hit]
    · simp only [map_map]
      apply map_congr_left
      intro s _
      simp only [Function.comp]
      split <;> rfl
    · intro s inSlices on
      obtain ⟨old, inOld, rfl⟩ := mem_map.mp inSlices
      have onOld : OnDataset old t₀ := by
        split at on <;> exact on
      have carries := synced.charts t₀ member old inOld onOld
      rw [if_pos (carries.1.trans oldPerm)]
      exact ⟨rfl, carries.2⟩
    · intro t inTables other s inSlices on
      obtain ⟨old, inOld, rfl⟩ := mem_map.mp inSlices
      have onOld : OnDataset old t := by
        split at on <;> exact on
      have carries := synced.charts t inTables old inOld onOld
      have notOld := synced.perm_ne inTables other t₀.tableName oldName
      rw [← carries.1] at notOld
      rw [if_neg notOld]
      exact carries
    · have none : t₀.schemaPerm = none ∧ t₀.catalogPerm = none := by
        obtain ⟨-, isSchema, isCatalog⟩ := row
        simp only [expectedSchemaPerm, expectedCatalogPerm, plain.1, plain.2,
          Bool.false_eq_true, if_false] at isSchema isCatalog
        exact ⟨isSchema, isCatalog⟩
      refine ⟨?_, ?_, ?_⟩
      · intro v isPerm
        rw [← Option.some.inj isPerm]
        exact moved.hasNew
      · intro v isPerm
        simp [none.1] at isPerm
      · intro v isPerm
        simp [none.2] at isPerm

theorem Renamed.trans {nameOf nameOf' : Nat → String}
    (first : Renamed nameOf a b) (second : Renamed nameOf' b c) : Renamed nameOf' a c where
  __ := second
  frame := first.frame.trans second.frame
  roles := by
    refine first.roles.trans second.roles ?_
    intro t member
    obtain ⟨t', inB, same⟩ := first.frame.row_after member
    exact ⟨t', inB, (core_fields same).1, _, first.synced.perms t' inB⟩

theorem Renamed.refl (wf : md.WellFormed)
    (synced : Synced [] nameOf md) : Renamed nameOf md md where
  wellFormed := wf
  synced := synced
  frame := DatasetFrame.refl md
  roles := KeepsRoles.of_sameTables wf (fun t member => ⟨t, member, rfl, rfl⟩)
    fun _ _ _ _ _ held => held

/-- The loop of `_rename_datasource_perms_for_database`: the induction is on the
datasets that are left, each of which still has a row with its fields. -/
theorem renameDatasourcePerms_renamed
    (oldName newName : String) (datasets : List SqlaTable) (wf : md.WellFormed)
    (synced : Synced [] nameOf md) (rows : ∀ d ∈ datasets, ∃ t ∈ md.tables, core t = core d)
    (distinct : (datasets.map SqlaTable.id).Nodup)
    (isOld : ∀ d ∈ datasets, nameOf d.id = oldName)
    (plain : ∀ d ∈ datasets, truthy d.schema = false ∧ truthy d.catalog = false) :
    Renamed (fun id => if id ∈ datasets.map SqlaTable.id then newName else nameOf id) md
      (datasets.foldl (renameDatasourcePerm oldName newName) md) := by
  induction datasets generalizing md nameOf with
  | nil => simpa using Renamed.refl wf synced
  | cons d rest ih =>
    obtain ⟨t₀, member, same⟩ := rows d mem_cons_self
    obtain ⟨sameId, -, -, sameSchema, sameCatalog⟩ := core_fields same
    have plain₀ := plain d mem_cons_self
    rw [← sameSchema, ← sameCatalog] at plain₀
    have isOld₀ := isOld d mem_cons_self
    rw [← sameId] at isOld₀
    have first := renameDatasourcePerm_renamed wf synced member isOld₀ plain₀ newName d same
    rw [map_cons, nodup_cons] at distinct
    have second := ih first.wellFormed first.synced ?_ distinct.2 ?_ ?_
    · have whole := first.trans second
      rw [foldl_cons]
      refine cast (congrArg (fun f => Renamed f md _) ?_) whole
      funext id
      by_cases hit : id = d.id
      · rw [hit, if_neg distinct.1, sameId, Function.update_self, if_pos (by simp)]
      · have differs : id ≠ t₀.id := by rw [sameId]; exact hit
        by_cases later : id ∈ rest.map SqlaTable.id
        · rw [if_pos later, if_pos (by rw [map_cons]; exact mem_cons_of_mem _ later)]
        · rw [if_neg later, Function.update_of_ne differs, if_neg]
          rw [map_cons, mem_cons, not_or]
          exact ⟨hit, later⟩
    · intro e inRest
      obtain ⟨t, inTables, sameE⟩ := rows e (mem_cons_of_mem _ inRest)
      obtain ⟨t', inAfter, sameT⟩ := first.frame.row_after inTables
      exact ⟨t', inAfter, sameT.trans sameE⟩
    · intro e inRest
      have differs : e.id ≠ t₀.id := by
        rw [sameId]
        intro hit
        exact distinct.1 (hit ▸ mem_map_of_mem inRest)
      rw [Function.update_of_ne differs]
      exact isOld e (mem_cons_of_mem _ inRest)
    · intro e inRest
      exact plain e (mem_cons_of_mem _ inRest)

theorem getDatabasePerm_name {id : Nat} {name other : String}
    (same : getDatabasePerm id name = getDatabasePerm id other) : name = other := by
  have chars := congrArg String.toList same
  simp only [getDatabasePerm, String.toList_append, append_assoc] at chars
  rw [← String.toList_inj]
  exact append_cancel_right (append_cancel_left chars)

structure DatabaseMenus (md : Metadata) (next : Nat) : Prop where
  has : ∀ db ∈ md.dbs, md.Has DATABASE_ACCESS (getDatabasePerm db.id db.databaseName)
  only : ∀ db ∈ md.dbs, ∀ name, md.Named (getDatabasePerm db.id name) → name = db.databaseName
  fresh : ∀ id name, next ≤ id → ¬ md.Named (getDatabasePerm id name)
  ids : ∀ db ∈ md.dbs, db.id < next

structure DatasetKeys (md : Metadata) (next : Nat) : Prop where
  ids : ∀ t ∈ md.tables, t.id < next
  menus : ∀ id table name, next ≤ id → ¬ md.Named (getDatasetPerm id table name)
  charts : ∀ s ∈ md.slices, ∀ id, chartKey s = (some id, some "table") → id < next

def FromDatabase (nameOf : Nat → String) (md : Metadata) : Prop :=
  ∀ t ∈ md.tables, ∃ db ∈ md.dbs, db.id = t.databaseId ∧ db.databaseName = nameOf t.id

structure Inv (stale : List Nat) (w : World) : Prop where
  wellFormed : w.md.WellFormed
  synced : ∃ nameOf, Synced stale nameOf w.md ∧ FromDatabase nameOf w.md
  databases : DatabaseMenus w.md w.nextDatabaseId
  datasets : DatasetKeys w.md w.nextTableId

theorem Inv.inStep {w : World} (inv : Inv [] w) : InStep w.md := by
  obtain ⟨nameOf, synced, fromDatabase⟩ := inv.synced
  intro t member
  obtain ⟨db, inDbs, sameId, named⟩ := fromDatabase t member
  refine ⟨⟨db, inDbs, sameId, ?_⟩, synced.has t member not_mem_nil, synced.charts t member⟩
  rw [named]
  exact synced.rows t member not_mem_nil

theorem DatabaseMenus.frame {next : Nat} (menus : DatabaseMenus md next)
    (dbs : md'.dbs = md.dbs) (has : ∀ p v, NotDataset v → md.Has p v → md'.Has p v)
    (named : ∀ id name, md'.Named (getDatabasePerm id name) → md.Named (getDatabasePerm id name)) :
    DatabaseMenus md' next where
  has := by
    rw [dbs]
    exact fun db member => has _ _ (notDataset_databasePerm _ _) (menus.has db member)
  only := by
    rw [dbs]
    exact fun db member name isNamed => menus.only db member name (named _ _ isNamed)
  fresh id name drawn isNamed := menus.fresh id name drawn (named _ _ isNamed)
  ids := dbs ▸ menus.ids

theorem DatasetKeys.frame {next : Nat} (keys : DatasetKeys md next)
    (tables : ∀ t' ∈ md'.tables, ∃ t ∈ md.tables, t.id = t'.id)
    (slices : ∀ s' ∈ md'.slices, ∃ s ∈ md.slices, chartKey s = chartKey s')
    (named : ∀ id table name, md'.Named (getDatasetPerm id table name) →
      ∃ table' name', md.Named (getDatasetPerm id table' name')) : DatasetKeys md' next where
  ids := by
    intro t' member
    obtain ⟨t, inOld, same⟩ := tables t' member
    exact same ▸ keys.ids t inOld
  menus := by
    intro id table name drawn isNamed
    obtain ⟨table', name', isNamed'⟩ := named id table name isNamed
    exact keys.menus id table' name' drawn isNamed'
  charts := by
    intro s' member id isId
    obtain ⟨s, inOld, same⟩ := slices s' member
    exact keys.charts s inOld id (same.trans isId)

end Liteset.Security.Sync
