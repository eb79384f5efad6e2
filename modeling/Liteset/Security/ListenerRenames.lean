import Liteset.Security.ListenerSafety

/-!
# Renamed databases under the listeners

An orderly rename moves the strings of the database and no others.  The schema and
catalog strings of its datasets keep the old name: these rows are stale until a later
save of the flush recomputes them.
-/

set_option autoImplicit false

namespace Liteset.Security.Listeners

open Metadata Sync List

/-- The second `UPDATE` of a rename. -/
def moved (oldName newName : String) : String → String :=
  replaceStart ("[" ++ oldName ++ "].") ("[" ++ newName ++ "].")

def newNameOf (old : Database) (newName : String) (d : Database) : String :=
  if d.id = old.id then newName else d.databaseName

structure Movable (w : World) (old : Database) (newName : String) : Prop where
  member : old ∈ w.md.dbs
  differs : old.databaseName ≠ newName
  alone : ∀ o ∈ w.md.dbs, o.id ≠ old.id → ¬ Extends old.databaseName o.databaseName
  apart : ∀ o ∈ w.md.dbs, o.id ≠ old.id → newName ≠ o.databaseName ∧ Apart newName o.databaseName

theorem dotted_inj {name rest tail : String} (same : dotted name rest = dotted name tail) :
    rest = tail := by
  unfold dotted at same
  exact String.append_right_inj _ |>.mp same

theorem named_rename {object : Object} {name v : String}
    (schema : SchemaView name object.permission v)
    (named : object.named name = some v) :
    ∃ inner, v = bracketed name inner ∧ ∀ other,
      object.named other = some (bracketed other inner) := by
  cases object with
  | dataset id => cases named
  | database id =>
    rcases schema.1 with isSchema | isCatalog
    · exact absurd isSchema (show DATABASE_ACCESS ≠ SCHEMA_ACCESS by decide)
    · exact absurd isCatalog (show DATABASE_ACCESS ≠ CATALOG_ACCESS by decide)
  | catalog id catalog =>
    cases catalog with
    | none => cases named
    | some catalog =>
      refine ⟨catalog, (Option.some.inj named).symm, fun other => rfl⟩
  | schema id catalog schema' =>
    cases schema' with
    | none => cases named
    | some schema' =>
      simp only [Object.named, getSchemaPerm] at named ⊢
      split at named
      · rename_i given
        refine ⟨catalog.getD "" ++ "].[" ++ schema', ?_, fun other => ?_⟩
        · rw [← Option.some.inj named]
          simp [bracketed, String.append_assoc]
        · rw [if_pos given]
          simp [bracketed, String.append_assoc]
      · rename_i given
        refine ⟨schema', (Option.some.inj named).symm, fun other => ?_⟩
        rw [if_neg given]
        rfl

section Moved
variable {stale : List Nat} {w : World} {old : Database} {newName : String} {d : Database}

section
variable (kept : Kept stale w) (movable : Movable w old newName)
include kept movable

theorem Kept.moved_dotted (inDbs : d ∈ w.md.dbs) {rest : String} (shape : Rest rest) :
    moved old.databaseName newName (dotted d.databaseName rest) =
      dotted (newNameOf old newName d) rest := by
  unfold moved newNameOf
  by_cases own : d.id = old.id
  · rw [database_eq_of_id kept.inv.wellFormed inDbs movable.member own, replaceStart_dotted,
      if_pos rfl]
  · rw [if_neg own]
    exact replaceStart_other (kept.not_startsWith movable.member movable.alone inDbs own shape)

theorem Kept.moved_databasePerm (inDbs : d ∈ w.md.dbs) (id : Nat) :
    moved old.databaseName newName (getDatabasePerm id d.databaseName)
      = getDatabasePerm id (newNameOf old newName d) := by
  rw [getDatabasePerm_dotted, getDatabasePerm_dotted]
  exact kept.moved_dotted movable inDbs (rest_databasePerm id)

theorem Kept.moved_datasetPerm (inDbs : d ∈ w.md.dbs) (id : Nat) (table : String) :
    moved old.databaseName newName (getDatasetPerm id table d.databaseName)
      = getDatasetPerm id table (newNameOf old newName d) := by
  rw [getDatasetPerm_dotted, getDatasetPerm_dotted]
  exact kept.moved_dotted movable inDbs (rest_datasetPerm table id)

theorem Kept.moved_bracketed (inDbs : d ∈ w.md.dbs) (inner : String) :
    moved old.databaseName newName (bracketed d.databaseName inner)
      = bracketed (newNameOf old newName d) inner := by
  rw [bracketed_dotted, bracketed_dotted]
  exact kept.moved_dotted movable inDbs (rest_bracketed inner)

theorem Kept.newNames_apart {a b : Database}
    (inA : a ∈ w.md.dbs) (inB : b ∈ w.md.dbs) (differs : a.id ≠ b.id) :
    newNameOf old newName a ≠ newNameOf old newName b ∧
    Apart (newNameOf old newName a) (newNameOf old newName b) := by
  unfold newNameOf
  by_cases ownA : a.id = old.id
  · have otherB : b.id ≠ old.id := fun ownB => differs (ownA.trans ownB.symm)
    rw [if_pos ownA, if_neg otherB]
    exact movable.apart b inB otherB
  · rw [if_neg ownA]
    by_cases ownB : b.id = old.id
    · rw [if_pos ownB]
      obtain ⟨names, left, right⟩ := movable.apart a inA ownA
      exact ⟨names.symm, right, left⟩
    · rw [if_neg ownB]
      exact kept.apart a inA b inB differs

theorem Kept.newName_bracketed {a b : Database}
    (inA : a ∈ w.md.dbs) (inB : b ∈ w.md.dbs) {inner outer : String}
    (same : bracketed (newNameOf old newName a) inner = bracketed (newNameOf old newName b) outer) :
    a = b ∧ inner = outer := by
  by_cases ids : a.id = b.id
  · have equal := database_eq_of_id kept.inv.wellFormed inA inB ids
    subst equal
    refine ⟨rfl, ?_⟩
    rw [bracketed_dotted, bracketed_dotted] at same
    have inside := dotted_inj same
    rw [String.append_assoc, String.append_assoc] at inside
    exact String.append_left_inj _ |>.mp (String.append_right_inj _ |>.mp inside)
  · obtain ⟨names, left, right⟩ := kept.newNames_apart movable inA inB ids
    rcases bracketed_eq _ _ _ _ same with equal | continues | continues
    · exact absurd equal names
    · exact absurd continues left
    · exact absurd continues right

end

theorem Kept.perm_eq (kept : Kept stale w) {t : SqlaTable} (inTables : t ∈ w.md.tables) :
    ∃ d ∈ w.md.dbs,
      d.id = t.databaseId ∧ t.perm = some (getDatasetPerm t.id t.tableName d.databaseName) := by
  obtain ⟨nameOf, synced, fromDatabase⟩ := kept.inv.synced
  obtain ⟨d, inDbs, sameId, named⟩ := fromDatabase t inTables
  refine ⟨d, inDbs, sameId, ?_⟩
  rw [named]
  exact synced.perms t inTables

theorem Kept.moved_injective (kept : Kept stale w) (movable : Movable w old newName)
    {p u v : String}
    (kindU : Kind w.md p u) (kindV : Kind w.md p v)
    (same : moved old.databaseName newName u = moved old.databaseName newName v) : u = v := by
  have wf := kept.inv.wellFormed
  rcases kindU with ⟨rfl, a, inA, rfl⟩ | ⟨a, inA, kind, inner, rfl⟩ | ⟨rfl, s, inS, isU⟩
  · rcases kindV with ⟨-, b, inB, rfl⟩ | ⟨b, inB, kind, outer, rfl⟩ | ⟨isDataset, -⟩
    · rw [kept.moved_databasePerm movable inA, kept.moved_databasePerm movable inB] at same
      rw [database_eq_of_id wf inA inB (getDatabasePerm_id _ _ _ _ same)]
    · rcases kind with isSchema | isCatalog
      · exact absurd isSchema (by decide)
      · exact absurd isCatalog (by decide)
    · exact absurd isDataset (by decide)
  · rcases kindV with ⟨rfl, b, inB, rfl⟩ | ⟨b, inB, -, outer, rfl⟩ | ⟨rfl, t, inT, isV⟩
    · rcases kind with isSchema | isCatalog
      · exact absurd isSchema (by decide)
      · exact absurd isCatalog (by decide)
    · rw [kept.moved_bracketed movable inA, kept.moved_bracketed movable inB] at same
      obtain ⟨rfl, rfl⟩ := kept.newName_bracketed movable inA inB same
      rfl
    · rcases kind with isSchema | isCatalog
      · exact absurd isSchema (by decide)
      · exact absurd isCatalog (by decide)
  · rcases kindV with ⟨isDatabase, -⟩ | ⟨b, inB, kind, outer, rfl⟩ | ⟨-, t, inT, isV⟩
    · exact absurd isDatabase (by decide)
    · rcases kind with isSchema | isCatalog
      · exact absurd isSchema (by decide)
      · exact absurd isCatalog (by decide)
    · obtain ⟨a, inA, -, permS⟩ := kept.perm_eq inS
      obtain ⟨b, inB, -, permT⟩ := kept.perm_eq inT
      obtain rfl : _ = u := Option.some.inj (permS.symm.trans isU)
      obtain rfl : _ = v := Option.some.inj (permT.symm.trans isV)
      rw [kept.moved_datasetPerm movable inA, kept.moved_datasetPerm movable inB] at same
      have rows := table_eq_of_id wf inS inT (getDatasetPerm_id _ _ _ _ _ _ same)
      subst rows
      exact Option.some.inj (permS.symm.trans permT)

theorem Kept.named_moved (kept : Kept stale w) (movable : Movable w old newName)
    (inDbs : d ∈ w.md.dbs) {object : Object} {v : String}
    (ofDatabase : object.databaseId = some d.id)
    (named : object.named d.databaseName = some v) :
    Kind w.md object.permission v
      ∧ object.named (newNameOf old newName d) = some (moved old.databaseName newName v) := by
  rcases named_cases ofDatabase named with ⟨isDatabase, rfl⟩ | ofSchema
  · refine ⟨.inl ⟨isDatabase, d, inDbs, rfl⟩, ?_⟩
    cases object with
    | database id =>
      cases ofDatabase
      exact congrArg some (kept.moved_databasePerm movable inDbs d.id).symm
    | schema id catalog schema =>
      exact absurd isDatabase (show SCHEMA_ACCESS ≠ DATABASE_ACCESS by decide)
    | catalog id catalog =>
      exact absurd isDatabase (show CATALOG_ACCESS ≠ DATABASE_ACCESS by decide)
    | dataset id => cases named
  · obtain ⟨inner, rfl, others⟩ := named_rename ofSchema named
    refine ⟨.inr (.inl ⟨d, inDbs, ofSchema⟩), ?_⟩
    rw [others, kept.moved_bracketed movable inDbs]

/-- The rows of the tables after the three `UPDATE` statements. -/
structure Renaming (w : World) (old : Database) (newName : String) (md' : Metadata) : Prop where
  wellFormed : md'.WellFormed
  dbs : md'.dbs = renamedDbs w old.id newName
  tables : md'.tables = w.md.tables.map fun t =>
    { t with perm := t.perm.map (moved old.databaseName newName) }
  slices : md'.slices = w.md.slices.map fun s =>
    { s with perm := s.perm.map (moved old.databaseName newName) }
  has : ∀ p v, md'.Has p v ↔ ∃ u, w.md.Has p u ∧ moved old.databaseName newName u = v
  named : ∀ v, md'.Named v ↔ ∃ u, w.md.Named u ∧ moved old.databaseName newName u = v
  holds : ∀ role p v, md'.Holds role p v ↔
    ∃ u, w.md.Holds role p u ∧ moved old.databaseName newName u = v

theorem renaming_of_taken {md' : Metadata} (kept : Kept stale w) (movable : Movable w old newName)
    (unextended : ¬ Extends old.databaseName newName)
    (taken : databaseAfterUpdate { w.md with dbs := renamedDbs w old.id newName } ⟨old.id, newName⟩
      (some old.databaseName) = some md') : Renaming w old newName md' := by
  obtain ⟨md₁, renames, -, rfl⟩ :=
    databaseAfterUpdate_renames (kept.inv.wellFormed_renamedDbs old.id) movable.differs
      unextended taken
  have ids : ∀ tables : List SqlaTable, tables.map SqlaTable.id = md₁.tables.map SqlaTable.id →
      (tables.map SqlaTable.id).Nodup := fun tables same => same ▸ renames.wellFormed.tableIds
  refine ⟨WellFormed.withTables renames.wellFormed _ (ids _ ?_), renames.objects.dbs, rfl, rfl,
    renames.has, renames.named, renames.holds⟩
  rw [renames.objects.tables, map_map]
  rfl

section After
variable {md' : Metadata}

theorem Kept.kind_renamed (kept : Kept stale w) (movable : Movable w old newName)
    (renamedMd : Renaming w old newName md')
    {p v : String} (kind : Kind w.md p v) : Kind md' p (moved old.databaseName newName v) := by
  have row : ∀ d ∈ w.md.dbs, (⟨d.id, newNameOf old newName d⟩ : Database) ∈ md'.dbs := by
    intro d inDbs
    rw [renamedMd.dbs]
    unfold newNameOf
    by_cases own : d.id = old.id
    · rw [if_pos own, own]
      exact new_mem_renamedDbs movable.member
    · rw [if_neg own]
      exact mem_renamedDbs_of_mem inDbs own
  rcases kind with ⟨rfl, d, inDbs, rfl⟩ | ⟨d, inDbs, access, inner, rfl⟩ |
    ⟨rfl, t, inTables, isPerm⟩
  · exact .inl ⟨rfl, _, row d inDbs, kept.moved_databasePerm movable inDbs d.id⟩
  · exact .inr (.inl ⟨_, row d inDbs, access, inner, kept.moved_bracketed movable inDbs inner⟩)
  · refine .inr (.inr ⟨rfl, { t with perm := t.perm.map (moved old.databaseName newName) }, ?_, ?_⟩)
    · rw [renamedMd.tables]
      exact mem_map_of_mem inTables
    · rw [isPerm]
      rfl

theorem Kept.used_kind (kept : Kept stale w) {v : String} (named : w.md.Named v) :
    ∃ p, w.md.Has p v ∧ Kind w.md p v := by
  obtain ⟨p, has⟩ := kept.used v named
  exact ⟨p, has, kept.kinds p v has⟩

theorem Kept.databaseNamed_renamed (kept : Kept stale w) (movable : Movable w old newName)
    (renamedMd : Renaming w old newName md') {id : Nat} {name : String}
    (named : md'.Named (getDatabasePerm id name)) :
    ∃ d ∈ w.md.dbs, d.id = id ∧ newNameOf old newName d = name ∧
    w.md.Named (getDatabasePerm d.id d.databaseName) := by
  obtain ⟨u, namedOld, same⟩ := (renamedMd.named _).mp named
  obtain ⟨p, -, kind⟩ := kept.used_kind namedOld
  rcases kind with ⟨-, d, inDbs, rfl⟩ | ⟨d, inDbs, -, inner, rfl⟩ | ⟨-, t, inTables, isPerm⟩
  · rw [kept.moved_databasePerm movable inDbs] at same
    obtain rfl := getDatabasePerm_id _ _ _ _ same
    exact ⟨d, inDbs, rfl, getDatabasePerm_name same, namedOld⟩
  · rw [kept.moved_bracketed movable inDbs] at same
    exact absurd same.symm (getDatabasePerm_ne_bracketed _ _ _ _)
  · obtain ⟨d, inDbs, -, perm⟩ := kept.perm_eq inTables
    obtain rfl : _ = u := Option.some.inj (perm.symm.trans isPerm)
    rw [kept.moved_datasetPerm movable inDbs] at same
    exact absurd same.symm (getDatabasePerm_ne_getDatasetPerm _ _ _ _ _)

theorem Kept.datasetNamed_renamed (kept : Kept stale w) (movable : Movable w old newName)
    (renamedMd : Renaming w old newName md') {id : Nat} {table name : String}
    (named : md'.Named (getDatasetPerm id table name)) :
    ∃ t ∈ w.md.tables, t.id = id ∧ t.perm.map (moved old.databaseName newName) =
      some (getDatasetPerm id table name) := by
  obtain ⟨u, namedOld, same⟩ := (renamedMd.named _).mp named
  obtain ⟨p, -, kind⟩ := kept.used_kind namedOld
  rcases kind with ⟨-, d, inDbs, rfl⟩ | ⟨d, inDbs, -, inner, rfl⟩ | ⟨-, t, inTables, isPerm⟩
  · rw [kept.moved_databasePerm movable inDbs] at same
    exact absurd same (getDatabasePerm_ne_getDatasetPerm _ _ _ _ _)
  · rw [kept.moved_bracketed movable inDbs] at same
    exact absurd same.symm (getDatasetPerm_ne_bracketed _ _ _ _ _)
  · obtain ⟨d, inDbs, -, perm⟩ := kept.perm_eq inTables
    refine ⟨t, inTables, ?_, by rw [isPerm, Option.map_some, same]⟩
    rw [isPerm, Option.some.injEq] at perm
    rw [perm, kept.moved_datasetPerm movable inDbs] at same
    exact getDatasetPerm_id _ _ _ _ _ _ same

def leftBehind (w : World) (old : Database) : List Nat :=
  (w.md.tables.filter fun t => t.databaseId = old.id && (truthy t.schema || truthy t.catalog)).map
    SqlaTable.id

theorem plain_of_not_leftBehind {t : SqlaTable} (inTables : t ∈ w.md.tables)
    (own : t.databaseId = old.id)
    (fresh : t.id ∉ leftBehind w old) : truthy t.schema = false ∧ truthy t.catalog = false := by
  rw [← Bool.or_eq_false_iff, ← Bool.not_eq_true]
  intro either
  refine fresh (mem_map_of_mem (mem_filter.mpr ⟨inTables, ?_⟩))
  rw [either, Bool.and_true, decide_eq_true_eq]
  exact own

def nameAfter (w : World) (old : Database) (newName : String) (nameOf : Nat → String) (id : Nat) :
    String :=
  if id ∈ (w.md.tables.filter fun t => t.databaseId = old.id).map SqlaTable.id then newName
    else nameOf id

variable {nameOf : Nat → String}

theorem nameAfter_own {t : SqlaTable} (inTables : t ∈ w.md.tables)
    (own : t.databaseId = old.id) : nameAfter w old newName nameOf t.id = newName :=
  if_pos (mem_map_of_mem (mem_filter.mpr ⟨inTables, decide_eq_true own⟩))

theorem nameAfter_other (wf : w.md.WellFormed) {t : SqlaTable} (inTables : t ∈ w.md.tables)
    (other : t.databaseId ≠ old.id) : nameAfter w old newName nameOf t.id = nameOf t.id := by
  refine if_neg fun listed => ?_
  obtain ⟨row, inFilter, same⟩ := mem_map.mp listed
  obtain ⟨inTables', own⟩ := mem_filter.mp inFilter
  rw [table_eq_of_id wf inTables' inTables same] at own
  exact other (of_decide_eq_true own)

section
variable (kept : Kept stale w) (movable : Movable w old newName)
    (renamedMd : Renaming w old newName md')
include kept movable renamedMd

theorem Kept.row_renamed (synced : Synced stale nameOf w.md)
    (fromDatabase : FromDatabase nameOf w.md)
    {t : SqlaTable} (inTables : t ∈ w.md.tables) :
    (t.perm.map (moved old.databaseName newName)
        = some (getDatasetPerm t.id t.tableName (nameAfter w old newName nameOf t.id)))
      ∧ (t.id ∉ stale ++ leftBehind w old →
        RowInStep (nameAfter w old newName nameOf t.id)
          { t with perm := t.perm.map (moved old.databaseName newName) }
          ∧ (∀ v ∈ t.schemaPerm, md'.Has SCHEMA_ACCESS v) ∧ ∀ v ∈ t.catalogPerm,
            md'.Has CATALOG_ACCESS v) := by
  obtain ⟨d, inDbs, sameId, named⟩ := fromDatabase t inTables
  have perm : t.perm.map (moved old.databaseName newName)
      = some (getDatasetPerm t.id t.tableName (newNameOf old newName d)) := by
    rw [synced.perms t inTables, ← named, Option.map_some, kept.moved_datasetPerm movable inDbs]
  by_cases own : t.databaseId = old.id
  · have newName' : newNameOf old newName d = newName := if_pos (sameId.trans own)
    rw [nameAfter_own inTables own]
    rw [newName'] at perm
    refine ⟨perm, fun fresh => ?_⟩
    rw [mem_append, not_or] at fresh
    have plain := plain_of_not_leftBehind inTables own fresh.2
    have row := synced.rows t inTables fresh.1
    have strings : t.schemaPerm = expectedSchemaPerm newName t.catalog t.schema
        ∧ t.catalogPerm = expectedCatalogPerm newName t.catalog := rowInStep_of_plain row plain
    obtain ⟨schemaNew, catalogNew⟩ := strings
    refine ⟨⟨perm, schemaNew, catalogNew⟩, ?_, ?_⟩
    · intro v isPerm
      rw [schemaNew] at isPerm
      unfold expectedSchemaPerm at isPerm
      rw [plain.1] at isPerm
      cases isPerm
    · intro v isPerm
      rw [catalogNew] at isPerm
      unfold expectedCatalogPerm at isPerm
      rw [plain.2] at isPerm
      cases isPerm
  · have sameName : newNameOf old newName d = d.databaseName :=
      if_neg fun ownId => own (sameId.symm.trans ownId)
    rw [nameAfter_other kept.inv.wellFormed inTables own, ← named]
    rw [sameName] at perm
    refine ⟨perm, fun fresh => ?_⟩
    rw [mem_append, not_or] at fresh
    obtain ⟨-, schemaStep, catalogStep⟩ := synced.rows t inTables fresh.1
    obtain ⟨-, hasSchema, hasCatalog⟩ := synced.has t inTables fresh.1
    rw [← named] at schemaStep catalogStep
    have stays : ∀ inner, moved old.databaseName newName (bracketed d.databaseName inner) =
        bracketed d.databaseName inner := by
      intro inner
      rw [kept.moved_bracketed movable inDbs, sameName]
    refine ⟨⟨perm, schemaStep, catalogStep⟩, fun v isPerm => ?_, fun v isPerm => ?_⟩
    · obtain ⟨inner, rfl⟩ := expectedSchemaPerm_bracketed (schemaStep.symm.trans isPerm)
      exact (renamedMd.has _ _).mpr ⟨_, hasSchema _ isPerm, stays inner⟩
    · obtain ⟨inner, rfl⟩ := expectedCatalogPerm_bracketed (catalogStep.symm.trans isPerm)
      exact (renamedMd.has _ _).mpr ⟨_, hasCatalog _ isPerm, stays inner⟩

theorem Kept.synced_renamed (synced : Synced stale nameOf w.md)
    (fromDatabase : FromDatabase nameOf w.md) :
    Synced (stale ++ leftBehind w old) (nameAfter w old newName nameOf) md' := by
  have rows : ∀ t' ∈ md'.tables, ∃ t ∈ w.md.tables,
      t' = { t with perm := t.perm.map (moved old.databaseName newName) } := by
    intro t' member'
    rw [renamedMd.tables] at member'
    obtain ⟨t, inTables, rfl⟩ := mem_map.mp member'
    exact ⟨t, inTables, rfl⟩
  have hasPerm : ∀ t ∈ w.md.tables, ∀ v ∈ t.perm.map (moved old.databaseName newName),
      md'.Has DATASOURCE_ACCESS v := by
    intro t inTables v isPerm
    obtain ⟨u, isOld, same⟩ := Option.map_eq_some_iff.mp isPerm
    exact (renamedMd.has _ _).mpr ⟨u, synced.hasPerm t inTables u isOld, same⟩
  refine ⟨?_, ?_, ?_, ?_, ?_, ?_⟩
  · intro t' member'
    obtain ⟨t, inTables, rfl⟩ := rows t' member'
    exact (kept.row_renamed movable renamedMd synced fromDatabase inTables).1
  · intro t' member'
    obtain ⟨t, inTables, rfl⟩ := rows t' member'
    exact hasPerm t inTables
  · intro t' member' fresh
    obtain ⟨t, inTables, rfl⟩ := rows t' member'
    exact ((kept.row_renamed movable renamedMd synced fromDatabase inTables).2 fresh).1
  · intro t' member' fresh
    obtain ⟨t, inTables, rfl⟩ := rows t' member'
    exact ⟨hasPerm t inTables,
      ((kept.row_renamed movable renamedMd synced fromDatabase inTables).2 fresh).2⟩
  · intro t' member' s' inSlices on
    obtain ⟨t, inTables, rfl⟩ := rows t' member'
    rw [renamedMd.slices] at inSlices
    obtain ⟨s, inOld, rfl⟩ := mem_map.mp inSlices
    obtain ⟨perm, schemaPerm, catalogPerm⟩ := synced.charts t inTables s inOld on
    exact ⟨congrArg (Option.map _) perm, schemaPerm, catalogPerm⟩
  · intro t' member' table name named
    obtain ⟨t, inTables, rfl⟩ := rows t' member'
    obtain ⟨other, inTables', sameId, perm⟩ := kept.datasetNamed_renamed movable renamedMd named
    rw [table_eq_of_id kept.inv.wellFormed inTables' inTables sameId] at perm
    exact perm

theorem Kept.inv_renamed : Inv (stale ++ leftBehind w old) { w with md := md' } := by
  obtain ⟨nameOf, synced, fromDatabase⟩ := kept.inv.synced
  have wf := kept.inv.wellFormed
  have cores : md'.tables.map core = w.md.tables.map core := by
    rw [renamedMd.tables, map_map]
    rfl
  refine ⟨renamedMd.wellFormed, ⟨_, kept.synced_renamed movable renamedMd synced fromDatabase, ?_⟩,
    ⟨?_, ?_, ?_, ?_⟩, ⟨?_, ?_, ?_⟩⟩
  · exact kept.inv.fromDatabase_renamed movable.member fromDatabase renamedMd.dbs cores
  · intro d' inDbs
    rw [renamedMd.dbs] at inDbs
    rcases mem_renamedDbs inDbs with rfl | ⟨inOld, other⟩
    · refine (renamedMd.has _ _).mpr ⟨_, kept.inv.databases.has old movable.member, ?_⟩
      rw [kept.moved_databasePerm movable movable.member]
      exact congrArg (getDatabasePerm old.id) (if_pos rfl)
    · refine (renamedMd.has _ _).mpr ⟨_, kept.inv.databases.has d' inOld, ?_⟩
      rw [kept.moved_databasePerm movable inOld]
      exact congrArg (getDatabasePerm d'.id) (if_neg other)
  · intro d' inDbs name named
    obtain ⟨d, inOld, sameId, same, -⟩ := kept.databaseNamed_renamed movable renamedMd named
    rw [renamedMd.dbs] at inDbs
    rw [← same]
    rcases mem_renamedDbs inDbs with rfl | ⟨inDbs', other⟩
    · exact if_pos sameId
    · rw [database_eq_of_id wf inOld inDbs' sameId]
      exact if_neg other
  · intro id name drawn named
    obtain ⟨d, inOld, sameId, -, -⟩ := kept.databaseNamed_renamed movable renamedMd named
    exact absurd (sameId ▸ kept.inv.databases.ids d inOld) (Nat.not_lt.mpr drawn)
  · intro d' inDbs
    rw [renamedMd.dbs] at inDbs
    rcases mem_renamedDbs inDbs with rfl | ⟨inOld, -⟩
    · exact kept.inv.databases.ids old movable.member
    · exact kept.inv.databases.ids d' inOld
  · intro t' member'
    rw [renamedMd.tables] at member'
    obtain ⟨t, inTables, rfl⟩ := mem_map.mp member'
    exact kept.inv.datasets.ids t inTables
  · intro id table name drawn named
    obtain ⟨t, inTables, sameId, -⟩ := kept.datasetNamed_renamed movable renamedMd named
    exact absurd (sameId ▸ kept.inv.datasets.ids t inTables) (Nat.not_lt.mpr drawn)
  · intro s' inSlices
    rw [renamedMd.slices] at inSlices
    obtain ⟨s, inOld, rfl⟩ := mem_map.mp inSlices
    exact kept.inv.datasets.charts s inOld

theorem Kept.renamedDatabase : Kept (stale ++ leftBehind w old) { w with md := md' } where
  inv := kept.inv_renamed movable renamedMd
  kinds := by
    intro p v has
    obtain ⟨u, hasOld, rfl⟩ := (renamedMd.has p v).mp has
    exact kept.kind_renamed movable renamedMd (kept.kinds p u hasOld)
  used := by
    intro v named
    obtain ⟨u, namedOld, rfl⟩ := (renamedMd.named v).mp named
    obtain ⟨p, has⟩ := kept.used u namedOld
    exact ⟨p, (renamedMd.has p _).mpr ⟨u, has, rfl⟩⟩
  apart := by
    intro a inA b inB differs
    have row : ∀ d' ∈ md'.dbs,
        ∃ d ∈ w.md.dbs, d.id = d'.id ∧ newNameOf old newName d = d'.databaseName := by
      intro d' member'
      rw [renamedMd.dbs] at member'
      rcases mem_renamedDbs member' with rfl | ⟨inOld, other⟩
      · exact ⟨old, movable.member, rfl, if_pos rfl⟩
      · exact ⟨d', inOld, rfl, if_neg other⟩
    obtain ⟨c, inC, sameA, nameA⟩ := row a inA
    obtain ⟨d, inD, sameB, nameB⟩ := row b inB
    have apart := kept.newNames_apart movable inC inD (by rw [sameA, sameB]; exact differs)
    rw [nameA, nameB] at apart
    exact apart
  positive := by
    refine ⟨kept.positive.1, fun t' member' => ?_⟩
    have inMap := member'
    rw [renamedMd.tables] at inMap
    obtain ⟨t, inTables, rfl⟩ := mem_map.mp inMap
    exact kept.positive.2 t inTables

theorem Kept.follows_renamed : Follows w.md md' := by
  have comes : ∀ {p u : String}, Kind w.md p u →
      Comes w.md (moved old.databaseName newName) (fun _ _ => False) p u
        (moved old.databaseName newName u) := by
    intro p u kind
    refine ⟨not_false, fun v has _ => ⟨fun same => ?_, congrArg _⟩⟩
    exact kept.moved_injective movable (kept.kinds p v has) kind same
  refine follows_of_objects (moved old.databaseName newName) (fun _ _ => False) kept.inv.wellFormed
    renamedMd.wellFormed ?_ ?_ ?_
  · intro role p v
    rw [renamedMd.holds]
    simp only [not_false_eq_true, true_and]
  · intro d' member'
    left
    have row : ∃ d ∈ w.md.dbs, d.id = d'.id ∧ newNameOf old newName d = d'.databaseName := by
      rw [renamedMd.dbs] at member'
      rcases mem_renamedDbs member' with rfl | ⟨inOld, other⟩
      · exact ⟨old, movable.member, rfl, if_pos rfl⟩
      · exact ⟨d', inOld, rfl, if_neg other⟩
    obtain ⟨d, inDbs, sameId, newName'⟩ := row
    refine ⟨d, inDbs, sameId, ?_⟩
    intro object v v' ofDatabase before after
    obtain ⟨kind, named⟩ := kept.named_moved movable inDbs (sameId ▸ ofDatabase) before
    rw [newName', after, Option.some.injEq] at named
    rw [named]
    exact comes kind
  · intro t' member'
    rw [renamedMd.tables] at member'
    obtain ⟨t, inTables, rfl⟩ := mem_map.mp member'
    obtain ⟨d, inDbs, -, perm⟩ := kept.perm_eq inTables
    refine ⟨t, inTables, rfl, _, _, perm,
      congrArg (Option.map (moved old.databaseName newName)) perm, ?_⟩
    exact comes (.inr (.inr ⟨rfl, t, inTables, perm⟩))

theorem Kept.saved_renamed : Saved (stale ++ leftBehind w old) w { w with md := md' } where
  kept := kept.renamedDatabase movable renamedMd
  follows := kept.follows_renamed movable renamedMd
  grows := by
    refine ⟨fun object present => .inl ?_, Nat.le_refl _, Nat.le_refl _⟩
    refine present_of_rows kept.inv.wellFormed renamedMd.wellFormed ?_ ?_ present
    · intro d' member'
      rw [renamedMd.dbs] at member'
      rcases mem_renamedDbs member' with rfl | ⟨inOld, -⟩
      · exact ⟨old, movable.member, rfl⟩
      · exact ⟨d', inOld, rfl⟩
    · intro t' member'
      rw [renamedMd.tables] at member'
      obtain ⟨t, inTables, rfl⟩ := mem_map.mp member'
      exact ⟨t, inTables, rfl⟩

end

end After

theorem databaseAfterUpdate_same {md : Metadata} {id : Nat} {deleted : Option String}
    (same : ∀ v ∈ deleted, v = newName) :
    databaseAfterUpdate md ⟨id, newName⟩ deleted = some md := by
  cases deleted with
  | none => rfl
  | some oldName => exact if_pos (same oldName rfl)

theorem renamedDbs_same (wf : w.md.WellFormed) (member : old ∈ w.md.dbs)
    (same : old.databaseName = newName) :
    renamedDbs w old.id newName = w.md.dbs := by
  have rows : ∀ d ∈ w.md.dbs,
      (if d.id = old.id then (⟨old.id, newName⟩ : Database) else d) = d := by
    intro d inDbs
    by_cases own : d.id = old.id
    · rw [if_pos own, database_eq_of_id wf inDbs member own, ← same]
    · exact if_neg own
  unfold renamedDbs
  rw [map_congr_left rows, map_id']

theorem Kept.updateDatabase {w' : World} {id : Nat} {deleted : Option String} (kept : Kept stale w)
    (orderly : ∀ d ∈ w.md.dbs, d.id = id → OrderlyDatabase w d newName deleted)
    (taken : updateDatabase w id newName deleted = some w') :
    Saved (staleAfter w stale (.updateDatabase id newName deleted)) w w' := by
  unfold Listeners.updateDatabase at taken
  cases found : w.md.findDatabase id with
  | none =>
    rw [found] at taken
    cases taken
  | some d =>
    obtain ⟨member, rfl⟩ := findDatabase_eq_some found
    have orderlyRow := orderly d member rfl
    rw [found] at taken
    dsimp only at taken
    split at taken
    · cases taken
    rename_i free
    obtain ⟨md', updated, result⟩ := Option.bind_eq_some_iff.mp taken
    rw [Option.some.injEq] at result
    subst result
    change databaseAfterUpdate { w.md with dbs := renamedDbs w d.id newName }
      ⟨d.id, newName⟩ deleted = some md'
      at updated
    unfold OrderlyDatabase at orderlyRow
    unfold staleAfter
    by_cases same : d.databaseName = newName
    · rw [if_pos same] at orderlyRow
      have unchanged : (w.md.dbs.any fun o => o.id = d.id && o.databaseName ≠ newName) = false := by
        rw [any_eq_false]
        intro o inDbs
        rw [Bool.and_eq_true, decide_eq_true_eq, decide_eq_true_eq]
        intro differs
        exact differs.2 ((database_eq_of_id kept.inv.wellFormed inDbs member differs.1) ▸ same)
      rw [databaseAfterUpdate_same orderlyRow, renamedDbs_same kept.inv.wellFormed member same,
        Option.some.injEq] at updated
      subst updated
      dsimp only
      rw [unchanged]
      exact kept.refl
    · rw [if_neg same] at orderlyRow
      obtain ⟨rfl, unextended, others⟩ := orderlyRow
      have changed : (w.md.dbs.any fun o => o.id = d.id && o.databaseName ≠ newName) = true := by
        rw [any_eq_true]
        refine ⟨d, member, ?_⟩
        rw [Bool.and_eq_true, decide_eq_true_eq, decide_eq_true_eq]
        exact ⟨rfl, same⟩
      have movable : Movable w d newName := by
        refine ⟨member, same, fun o inDbs other => (others o inDbs other).1,
          fun o inDbs other => ⟨?_, (others o inDbs other).2⟩⟩
        intro taken'
        refine free (any_eq_true.mpr ⟨o, inDbs, ?_⟩)
        rw [Bool.and_eq_true, decide_eq_true_eq, decide_eq_true_eq]
        exact ⟨other, taken'.symm⟩
      dsimp only
      rw [changed]
      exact kept.saved_renamed movable (renaming_of_taken kept movable unextended updated)

end Moved

end Liteset.Security.Listeners
