import Liteset.Security.ListenerSpecs

/-!
# Orderly flushes keep the permissions in step

The invariant of the permission manager, with the datasets that a rename inside the
flush left stale, and three more facts: every permission view belongs to an object,
every view menu has a permission view, and no two database names share a string.
Each save keeps it and lets the grants follow.
-/

set_option autoImplicit false

namespace Liteset.Security.Listeners

open Metadata Sync Lib.Runs List

/-- The permission view is that of a database, of a schema or catalog, or of a dataset. -/
def Kind (md : Metadata) (p v : String) : Prop :=
  (p = DATABASE_ACCESS ∧ ∃ d ∈ md.dbs, v = getDatabasePerm d.id d.databaseName) ∨
    (∃ d ∈ md.dbs, SchemaView d.databaseName p v) ∨
    p = DATASOURCE_ACCESS ∧ ∃ t ∈ md.tables, t.perm = some v

structure Kept (stale : List Nat) (w : World) : Prop where
  inv : Inv stale w
  kinds : ∀ p v, w.md.Has p v → Kind w.md p v
  used : ∀ v, w.md.Named v → ∃ p, w.md.Has p v
  apart : ∀ a ∈ w.md.dbs, ∀ b ∈ w.md.dbs, a.id ≠ b.id →
    a.databaseName ≠ b.databaseName ∧ Apart a.databaseName b.databaseName
  positive : 0 < w.nextTableId ∧ ∀ t ∈ w.md.tables, t.id ≠ 0

def Fresh (w : World) : Object → Prop
  | .database id | .schema id _ _ | .catalog id _ => w.nextDatabaseId ≤ id
  | .dataset id => w.nextTableId ≤ id

structure Grows (w w' : World) : Prop where
  fresh : ∀ object, Present w'.md object → Present w.md object ∨ Fresh w object
  databases : w.nextDatabaseId ≤ w'.nextDatabaseId
  datasets : w.nextTableId ≤ w'.nextTableId

structure Saved (stale : List Nat) (w w' : World) : Prop where
  kept : Kept stale w'
  follows : Follows w.md w'.md
  grows : Grows w w'

variable {object : Object}

theorem fresh_of_databaseId {w : World} {id : Nat}
    (ofDatabase : object.databaseId = some id) : Fresh w object ↔ w.nextDatabaseId ≤ id := by
  cases object with
  | dataset _ => simp [Object.databaseId] at ofDatabase
  | database i | schema i _ _ | catalog i _ =>
    obtain rfl : i = id := by simpa [Object.databaseId] using ofDatabase
    exact Iff.rfl

theorem eq_dataset (ofDatabase : object.databaseId = none) : ∃ id, object = .dataset id := by
  cases object with
  | dataset id => exact ⟨id, rfl⟩
  | database _ | schema _ _ _ | catalog _ _ => simp [Object.databaseId] at ofDatabase

theorem Kept.not_fresh {stale : List Nat} {w : World} (kept : Kept stale w)
    (present : Present w.md object) : ¬ Fresh w object := by
  have wf := kept.inv.wellFormed
  cases ofDatabase : object.databaseId with
  | some id =>
    rw [fresh_of_databaseId ofDatabase, Nat.not_le]
    obtain ⟨d, member, rfl⟩ := (present_iff wf ofDatabase).mp present
    exact kept.inv.databases.ids d member
  | none =>
    obtain ⟨id, rfl⟩ := eq_dataset ofDatabase
    obtain ⟨t, member, rfl⟩ := (present_dataset_iff wf).mp present
    exact Nat.not_le.mpr (kept.inv.datasets.ids t member)

theorem not_granted_of_absent {md : Metadata} (absent : ¬ Present md object)
    (role : Nat) : ¬ Granted md role object := by
  intro granted
  obtain ⟨v, isView, -⟩ := granted
  apply absent
  cases object with
  | database id | schema id _ _ | catalog id _ =>
    cases found : md.findDatabase id with
    | none => simp [view, found] at isView
    | some d => simp [Present, found]
  | dataset id =>
    cases found : findTable md id with
    | none => simp [view, found] at isView
    | some t => simp [Present, found]

theorem Saved.trans {s₁ s₂ s₃ : List Nat} {a b c : World} (kept : Kept s₁ a)
    (first : Saved s₂ a b) (second : Saved s₃ b c) : Saved s₃ a c where
  kept := second.kept
  follows := by
    intro role object present
    by_cases between : Present b.md object
    · exact (first.follows role object between).trans (second.follows role object present)
    · have fresh : Fresh b object := by
        rcases second.grows.fresh object present with inB | fresh
        · exact absurd inB between
        · exact fresh
      have freshA : Fresh a object := by
        cases object with
        | database _ | schema _ _ _ | catalog _ _ => exact first.grows.databases.trans fresh
        | dataset _ => exact first.grows.datasets.trans fresh
      have absent : ¬ Present a.md object := fun inA => kept.not_fresh inA freshA
      rw [← second.follows role object present]
      exact iff_of_false (not_granted_of_absent absent role) (not_granted_of_absent between role)
  grows := by
    refine ⟨?_, first.grows.databases.trans second.grows.databases,
      first.grows.datasets.trans second.grows.datasets⟩
    intro object present
    rcases second.grows.fresh object present with inB | fresh
    · exact first.grows.fresh object inB
    · right
      cases object with
      | database _ | schema _ _ _ | catalog _ _ => exact first.grows.databases.trans fresh
      | dataset _ => exact first.grows.datasets.trans fresh

theorem Kept.refl {stale : List Nat} {w : World} (kept : Kept stale w) : Saved stale w w :=
  ⟨kept, fun _ _ _ => Iff.rfl, ⟨fun _ present => .inl present, Nat.le_refl _, Nat.le_refl _⟩⟩

variable {md md' : Metadata}

theorem present_of_rows (wf : md.WellFormed) (wf' : md'.WellFormed)
    (databases : ∀ d' ∈ md'.dbs, ∃ d ∈ md.dbs, d.id = d'.id)
    (datasets : ∀ t' ∈ md'.tables, ∃ t ∈ md.tables, t.id = t'.id)
    (present : Present md' object) : Present md object := by
  cases ofDatabase : object.databaseId with
  | some id =>
    obtain ⟨d', inDbs, rfl⟩ := (present_iff wf' ofDatabase).mp present
    exact (present_iff wf ofDatabase).mpr (databases d' inDbs)
  | none =>
    obtain ⟨id, rfl⟩ := eq_dataset ofDatabase
    obtain ⟨t', inTables, rfl⟩ := (present_dataset_iff wf').mp present
    exact (present_dataset_iff wf).mpr (datasets t' inTables)

theorem view_of_sameDbs (dbs : md'.dbs = md.dbs) {id : Nat}
    (ofDatabase : object.databaseId = some id) : view md' object = view md object := by
  cases object with
  | dataset _ => simp [Object.databaseId] at ofDatabase
  | database _ | schema _ _ _ | catalog _ _ => simp only [view, findDatabase, dbs]

theorem notDataset_view {md : Metadata} (wf : md.WellFormed) {id : Nat}
    {v : String} (ofDatabase : object.databaseId = some id) (isView : view md object = some v) :
    NotDataset v := by
  obtain ⟨d, -, -, named⟩ := (view_eq_some_iff wf ofDatabase).mp isView
  rcases named_cases ofDatabase named with ⟨-, rfl⟩ | ⟨-, inner, rfl⟩
  · exact notDataset_databasePerm _ _
  · exact notDataset_bracketed _ _

theorem follows_of_datasets (rename : String → String)
    (lost : String → String → Prop) (wf : md.WellFormed) (wf' : md'.WellFormed)
    (dbs : md'.dbs = md.dbs)
    (holds : ∀ role p v, md'.Holds role p v ↔
      ∃ u, md.Holds role p u ∧ ¬ lost p u ∧ rename u = v)
    (plainRename : ∀ u v, NotDataset v → (rename u = v ↔ u = v))
    (plainLost : ∀ p v, NotDataset v → ¬ lost p v)
    (perms : ∀ t' ∈ md'.tables, ∃ v', t'.perm = some v')
    (stay : ∀ t ∈ md.tables, ∀ t' ∈ md'.tables, t'.id = t.id → ∀ v ∈ t.perm,
      ¬ lost DATASOURCE_ACCESS v)
    (come : ∀ t' ∈ md'.tables, ∀ v' ∈ t'.perm, ∀ u, md.Has DATASOURCE_ACCESS u →
      ¬ lost DATASOURCE_ACCESS u →
        (rename u = v' ↔ ∃ t ∈ md.tables, t.id = t'.id ∧ t.perm = some u)) : Follows md md' := by
  apply follows_of_views holds
  intro object present
  cases ofDatabase : object.databaseId with
  | some id =>
    have same := view_of_sameDbs dbs ofDatabase
    refine ⟨fun absent => same.symm.trans absent, ?_, ?_⟩
    · intro v isView
      exact plainLost _ v (notDataset_view wf ofDatabase isView)
    · intro v' isView u _ _
      rw [plainRename u v' (notDataset_view wf' ofDatabase isView), ← same,
        Option.mem_def.mp isView, Option.some.injEq, eq_comm]
  | none =>
    obtain ⟨id, rfl⟩ := eq_dataset ofDatabase
    obtain ⟨t', member', rfl⟩ := (present_dataset_iff wf').mp present
    obtain ⟨v', isPerm⟩ := perms t' member'
    have isView : view md' (.dataset t'.id) = some v' :=
      (view_dataset_iff wf').mpr ⟨t', member', rfl, isPerm⟩
    refine ⟨?_, ?_, ?_⟩
    · intro absent
      simp [isView] at absent
    · intro v hasView
      obtain ⟨t, member, sameId, isOld⟩ := (view_dataset_iff wf).mp hasView
      exact stay t member t' member' sameId.symm v isOld
    · intro v'' hasView u has notLost
      rw [view_dataset_iff wf]
      obtain rfl : v' = v'' := Option.some.inj (isView.symm.trans hasView)
      exact come t' member' v' isPerm u has notLost

theorem named_none {name : String} (absent : object.named name = none)
    (other : String) : object.named other = none := by
  cases object with
  | database id => cases absent
  | schema id catalog schema =>
    cases schema with
    | none => rfl
    | some schema =>
      simp only [Object.named, getSchemaPerm] at absent
      split at absent <;> cases absent
  | catalog id catalog =>
    cases catalog with
    | none => rfl
    | some catalog => cases absent
  | dataset id => rfl

def Comes (md : Metadata) (rename : String → String) (lost : String → String → Prop)
    (p v v' : String) : Prop :=
  ¬ lost p v ∧ ∀ u, md.Has p u → ¬ lost p u → (rename u = v' ↔ u = v)

/-- Grants follow when each database and each dataset that is there afterwards is
either new and no string became its own, or its strings come from its old ones. -/
theorem follows_of_objects (rename : String → String)
    (lost : String → String → Prop) (wf : md.WellFormed) (wf' : md'.WellFormed)
    (holds : ∀ role p v, md'.Holds role p v ↔
      ∃ u, md.Holds role p u ∧ ¬ lost p u ∧ rename u = v)
    (databases : ∀ d' ∈ md'.dbs,
      (∃ d ∈ md.dbs, d.id = d'.id ∧ ∀ (object : Object) v v', object.databaseId = some d'.id →
        object.named d.databaseName = some v → object.named d'.databaseName = some v' →
          Comes md rename lost object.permission v v') ∨
      (∀ d ∈ md.dbs, d.id ≠ d'.id) ∧ ∀ (object : Object) v', object.databaseId = some d'.id →
        object.named d'.databaseName = some v' → ∀ u, md.Has object.permission u →
          ¬ lost object.permission u → rename u ≠ v')
    (datasets : ∀ t' ∈ md'.tables, ∃ t ∈ md.tables, t.id = t'.id ∧ ∃ v v', t.perm = some v ∧
      t'.perm = some v' ∧ Comes md rename lost DATASOURCE_ACCESS v v') : Follows md md' := by
  apply follows_of_views holds
  intro object present
  cases ofDatabase : object.databaseId with
  | some id =>
    obtain ⟨d', member', rfl⟩ := (present_iff wf' ofDatabase).mp present
    have viewAfter : view md' object = object.named d'.databaseName := by
      ext v
      rw [view_eq_some_iff wf' ofDatabase]
      constructor
      · intro isView
        obtain ⟨e, member, same, named⟩ := isView
        rw [database_eq_of_id wf' member member' same] at named
        exact named
      · intro named
        exact ⟨d', member', rfl, named⟩
    rcases databases d' member' with ⟨d, member, sameId, comes⟩ | ⟨fresh, unclaimed⟩
    · have viewBefore : view md object = object.named d.databaseName := by
        ext v
        rw [view_eq_some_iff wf ofDatabase]
        constructor
        · intro isView
          obtain ⟨e, inDbs, same, named⟩ := isView
          rw [database_eq_of_id wf inDbs member (same.trans sameId.symm)] at named
          exact named
        · intro named
          exact ⟨d, member, sameId, named⟩
      rw [viewAfter, viewBefore]
      refine ⟨fun absent => named_none absent _, ?_, ?_⟩
      · intro v named
        cases after : object.named d'.databaseName with
        | none => simp [named_none after] at named
        | some v' => exact (comes object v v' ofDatabase named after).1
      · intro v' named u has notLost
        cases before : object.named d.databaseName with
        | none => simp [named_none before] at named
        | some v =>
          rw [(comes object v v' ofDatabase before named).2 u has notLost, Option.some.injEq,
            eq_comm]
    · have viewBefore : view md object = none := by
        rw [Option.eq_none_iff_forall_ne_some]
        intro v isView
        obtain ⟨e, inDbs, same, -⟩ := (view_eq_some_iff wf ofDatabase).mp isView
        exact fresh e inDbs same
      rw [viewAfter, viewBefore]
      refine ⟨fun _ => rfl, ?_, ?_⟩
      · intro v isView
        cases isView
      · intro v' named u has notLost
        exact iff_of_false (unclaimed object v' ofDatabase named u has notLost) (by simp)
  | none =>
    obtain ⟨id, rfl⟩ := eq_dataset ofDatabase
    obtain ⟨t', member', rfl⟩ := (present_dataset_iff wf').mp present
    obtain ⟨t, member, sameId, v, v', isOld, isNew, notLost, comes⟩ := datasets t' member'
    have viewAfter : view md' (.dataset t'.id) = some v' :=
      (view_dataset_iff wf').mpr ⟨t', member', rfl, isNew⟩
    have viewBefore : view md (.dataset t'.id) = some v :=
      (view_dataset_iff wf).mpr ⟨t, member, sameId, isOld⟩
    rw [viewAfter, viewBefore]
    refine ⟨fun absent => absurd absent (by simp), ?_, ?_⟩
    · intro u isView
      rw [← Option.some.inj isView]
      exact notLost
    · intro u' isView u has stays
      rw [← Option.some.inj isView, Option.some.injEq, eq_comm (a := v)]
      exact comes u has stays

section Charts
variable {stale : List Nat} {w : World}

theorem Kept.withCharts {slices : List Slice} {grants : List PermissionViewRole}
    (kept : Kept stale w)
    (grantRef : ∀ g ∈ grants, ∃ pv ∈ w.md.permissionViews, pv.id = g.permissionViewId)
    (charts : ∀ t ∈ w.md.tables, ∀ s ∈ slices, OnDataset s t → Carries s t)
    (keys : ∀ s ∈ slices, ∀ id, chartKey s = (some id, some "table") → id < w.nextTableId) :
    Kept stale { w with md := { w.md with slices, permissionViewRoles := grants } } :=
  ⟨kept.inv.withCharts grantRef charts keys, kept.kinds, kept.used, kept.apart, kept.positive⟩

theorem Kept.savedCharts {slices : List Slice} (kept : Kept stale w)
    (charts : ∀ t ∈ w.md.tables, ∀ s ∈ slices, OnDataset s t → Carries s t)
    (keys : ∀ s ∈ slices, ∀ id, chartKey s = (some id, some "table") → id < w.nextTableId) :
    Saved stale w { w with md := { w.md with slices } } where
  kept := kept.withCharts kept.inv.wellFormed.grantRef charts keys
  follows := fun _ _ _ => Iff.rfl
  grows := ⟨fun _ present => .inl present, Nat.le_refl _, Nat.le_refl _⟩

theorem sliceSetRelatedPerm_on (kept : Kept stale w) {t : SqlaTable} (member : t ∈ w.md.tables) :
    sliceSetRelatedPerm w.md (some t.id) (some "table") =
      some ⟨t.perm, t.schemaPerm, t.catalogPerm⟩ := by
  have found := (findTable_eq_some_iff kept.inv.wellFormed).mpr ⟨member, rfl⟩
  have nonzero := kept.positive.2 t member
  have isTable : tableType (some "table") = true := by decide
  simp [sliceSetRelatedPerm, nonzero, isTable, found]

theorem Kept.insertChart {w' : World} {id : Nat} {datasourceId : Option Nat}
    {datasourceType : Option String} (kept : Kept stale w)
    (drawn : Drawn w datasourceId datasourceType)
    (taken : insertChart w id datasourceId datasourceType = some w') : Saved stale w w' := by
  unfold Listeners.insertChart at taken
  split at taken
  · cases taken
  rw [Option.some.injEq] at taken
  subst taken
  obtain ⟨nameOf, synced, -⟩ := kept.inv.synced
  refine kept.savedCharts ?_ ?_
  · intro t inTables s inSlices on
    rcases mem_append.mp inSlices with inOld | isNew
    · exact synced.charts t inTables s inOld on
    · rw [mem_singleton.mp isNew] at on ⊢
      obtain ⟨rfl, rfl⟩ := on
      rw [sliceSetRelatedPerm_on kept inTables]
      exact ⟨rfl, rfl, rfl⟩
  · intro s inSlices i isId
    rcases mem_append.mp inSlices with inOld | isNew
    · exact kept.inv.datasets.charts s inOld i isId
    · rw [mem_singleton.mp isNew] at isId
      obtain ⟨rfl, rfl⟩ := Prod.mk.inj isId
      exact drawn rfl i rfl

theorem written_orderly {loaded assigned stored : Option String}
    (orderly : assigned = loaded → stored = assigned) :
    written loaded assigned stored = assigned := by
  unfold written
  split
  · rename_i same
    exact orderly same
  · rfl

theorem Kept.updateChart {w' : World} {id : Nat} {datasourceId : Option Nat}
    {datasourceType : Option String} {loaded : Strings} (kept : Kept stale w)
    (drawn : Drawn w datasourceId datasourceType)
    (orderly : ∀ strings ∈ sliceSetRelatedPerm w.md datasourceId datasourceType,
      ∀ s ∈ w.md.slices, s.id = id → OrderlyStrings strings loaded s)
    (taken : updateChart w id datasourceId datasourceType loaded = some w') : Saved stale w w' := by
  unfold Listeners.updateChart at taken
  split at taken
  · rw [Option.some.injEq] at taken
    subst taken
    obtain ⟨nameOf, synced, -⟩ := kept.inv.synced
    refine kept.savedCharts ?_ ?_
    · intro t inTables s' inSlices on
      obtain ⟨s, inOld, rfl⟩ := mem_map.mp inSlices
      by_cases hit : s.id = id
      · rw [if_pos hit] at on ⊢
        obtain ⟨rfl, rfl⟩ := on
        have assigned := sliceSetRelatedPerm_on kept inTables
        obtain ⟨perm, schemaPerm, catalogPerm⟩ := orderly _ assigned s inOld hit
        rw [assigned]
        exact ⟨written_orderly perm, written_orderly schemaPerm, written_orderly catalogPerm⟩
      · rw [if_neg hit] at on ⊢
        exact synced.charts t inTables s inOld on
    · intro s' inSlices i isId
      obtain ⟨s, inOld, rfl⟩ := mem_map.mp inSlices
      by_cases hit : s.id = id
      · rw [if_pos hit] at isId
        obtain ⟨rfl, rfl⟩ := Prod.mk.inj isId
        exact drawn rfl i rfl
      · rw [if_neg hit] at isId
        exact kept.inv.datasets.charts s inOld i isId
  · cases taken

theorem Kept.deleteChart {w' : World} {id : Nat} (kept : Kept stale w)
    (taken : deleteChart w id = some w') : Saved stale w w' := by
  unfold Listeners.deleteChart at taken
  rw [Option.some.injEq] at taken
  subst taken
  obtain ⟨nameOf, synced, -⟩ := kept.inv.synced
  refine kept.savedCharts ?_ ?_
  · intro t inTables s inSlices on
    exact synced.charts t inTables s (mem_filter.mp inSlices).1 on
  · intro s inSlices i isId
    exact kept.inv.datasets.charts s (mem_filter.mp inSlices).1 i isId

end Charts

section InsertDatabase
variable {stale : List Nat} {w : World} {name : String}

theorem Kept.no_schemaView (kept : Kept stale w)
    (apart : ∀ o ∈ w.md.dbs, o.databaseName ≠ name ∧ Apart name o.databaseName) {p v : String}
    (ofSchema : SchemaView name p v) : ¬ w.md.Has p v := by
  obtain ⟨kind, inner, rfl⟩ := ofSchema
  intro has
  rcases kept.kinds p _ has with ⟨-, d, -, same⟩ | ⟨d, member, -, outer, same⟩ | ⟨rfl, -⟩
  · exact getDatabasePerm_ne_bracketed _ _ _ _ same.symm
  · obtain ⟨differs, left, right⟩ := apart d member
    rcases bracketed_eq name d.databaseName inner outer same with same | continues | continues
    · exact differs same.symm
    · exact left continues
    · exact right continues
  · rcases kind with isSchema | isCatalog
    · exact absurd isSchema (by decide)
    · exact absurd isCatalog (by decide)

theorem Kind.mono {md md' : Metadata} {p v : String} (kind : Kind md p v)
    (dbs : md.dbs ⊆ md'.dbs) (tables : ∀ t ∈ md.tables, t.perm = some v →
      ∃ t' ∈ md'.tables, t'.perm = some v) : Kind md' p v := by
  rcases kind with ⟨isDatabase, d, member, same⟩ | ⟨d, member, ofSchema⟩ |
    ⟨isDataset, t, member, same⟩
  · exact .inl ⟨isDatabase, d, dbs member, same⟩
  · exact .inr (.inl ⟨d, dbs member, ofSchema⟩)
  · exact .inr (.inr ⟨isDataset, tables t member same⟩)

theorem Kept.addedDatabase {md' : Metadata} (kept : Kept stale w)
    (apart : ∀ o ∈ w.md.dbs, o.databaseName ≠ name ∧ Apart name o.databaseName)
    (adds : Adds { w.md with dbs := w.md.dbs ++ [⟨w.nextDatabaseId, name⟩] } md'
      [(DATABASE_ACCESS, getDatabasePerm w.nextDatabaseId name)]) :
    Saved stale w ⟨md', w.nextDatabaseId + 1, w.nextTableId⟩ := by
  have dbs : md'.dbs = w.md.dbs ++ [⟨w.nextDatabaseId, name⟩] := adds.objects.dbs
  have tables : md'.tables = w.md.tables := adds.objects.tables
  have inv := kept.inv.addDatabase adds
  have rows : ∀ d ∈ md'.dbs, d ∈ w.md.dbs ∨ d = ⟨w.nextDatabaseId, name⟩ := by
    intro d member
    rw [dbs] at member
    rcases mem_append.mp member with inOld | isNew
    · exact .inl inOld
    · exact .inr (mem_singleton.mp isNew)
  have older : ∀ d ∈ w.md.dbs, d.id ≠ w.nextDatabaseId :=
    fun d member => Nat.ne_of_lt (kept.inv.databases.ids d member)
  refine ⟨⟨inv, ?_, ?_, ?_, kept.positive.1, tables ▸ kept.positive.2⟩, ?_,
    ⟨?_, Nat.le_succ _, Nat.le_refl _⟩⟩
  · intro p v has
    rcases (adds.has p v).mp has with old | isNew
    · refine (kept.kinds p v old).mono ?_ ?_
      · rw [dbs]
        exact subset_append_left _ _
      · intro t member isPerm
        exact ⟨t, tables ▸ member, isPerm⟩
    · obtain ⟨rfl, rfl⟩ := Prod.mk.inj (mem_singleton.mp isNew)
      refine .inl ⟨rfl, ⟨w.nextDatabaseId, name⟩, ?_, rfl⟩
      rw [dbs]
      exact mem_append_right _ mem_cons_self
  · intro v named
    rcases (adds.named v).mp named with old | ⟨p, isNew⟩
    · obtain ⟨p, has⟩ := kept.used v old
      exact ⟨p, (adds.has p v).mpr (.inl has)⟩
    · exact ⟨p, (adds.has p v).mpr (.inr isNew)⟩
  · intro a inA b inB differs
    rcases rows a inA with oldA | rfl
    · rcases rows b inB with oldB | rfl
      · exact kept.apart a oldA b oldB differs
      · obtain ⟨names, left, right⟩ := apart a oldA
        exact ⟨names, right, left⟩
    · rcases rows b inB with oldB | rfl
      · obtain ⟨names, left, right⟩ := apart b oldB
        exact ⟨names.symm, left, right⟩
      · exact absurd rfl differs
  · refine follows_of_objects id (fun _ _ => False) kept.inv.wellFormed inv.wellFormed
      ?_ ?_ ?_
    · intro role p v
      rw [adds.holds]
      simp only [not_false_eq_true, true_and, id_eq, exists_eq_right]
      exact Iff.rfl
    · intro d' member'
      rcases rows d' member' with old | rfl
      · refine .inl ⟨d', old, rfl, ?_⟩
        intro object v v' _ before after
        rw [Option.some.inj (before.symm.trans after)]
        exact ⟨not_false, fun _ _ _ => Iff.rfl⟩
      · refine .inr ⟨older, ?_⟩
        intro object v' ofDatabase named u has _ same
        obtain rfl : u = v' := same
        rcases named_cases ofDatabase named with ⟨-, rfl⟩ | ofSchema
        · exact kept.inv.databases.fresh _ _ (Nat.le_refl _) has.named
        · exact kept.no_schemaView apart ofSchema has
    · intro t' member'
      rw [tables] at member'
      obtain ⟨nameOf, synced, -⟩ := kept.inv.synced
      have isPerm := synced.perms t' member'
      exact ⟨t', member', rfl, _, _, isPerm, isPerm, not_false, fun _ _ _ => Iff.rfl⟩
  · intro object present
    cases ofDatabase : object.databaseId with
    | some id =>
      obtain ⟨d', member', rfl⟩ := (present_iff inv.wellFormed ofDatabase).mp present
      rcases rows d' member' with old | rfl
      · exact .inl ((present_iff kept.inv.wellFormed ofDatabase).mpr ⟨d', old, rfl⟩)
      · exact .inr ((fresh_of_databaseId ofDatabase).mpr (Nat.le_refl _))
    | none =>
      obtain ⟨id, rfl⟩ := eq_dataset ofDatabase
      left
      rw [present_dataset_iff inv.wellFormed, tables] at present
      exact (present_dataset_iff kept.inv.wellFormed).mpr present

theorem Kept.insertDatabase {w' : World} (kept : Kept stale w)
    (apart : ∀ o ∈ w.md.dbs, Apart name o.databaseName)
    (taken : insertDatabase w name = some w') : Saved stale w w' := by
  unfold Listeners.insertDatabase at taken
  split at taken
  · cases taken
  rename_i free
  rw [Option.some.injEq] at taken
  subst taken
  have differs : ∀ o ∈ w.md.dbs, o.databaseName ≠ name := by
    intro o member same
    exact free (any_eq_true.mpr ⟨o, member, by simpa using same⟩)
  have ids : ((w.md.dbs ++ [(⟨w.nextDatabaseId, name⟩ : Database)]).map Database.id).Nodup :=
    nodup_map_append kept.inv.wellFormed.dbIds
      fun db member => Nat.ne_of_lt (kept.inv.databases.ids db member)
  exact kept.addedDatabase (fun o member => ⟨differs o member, apart o member⟩)
    (ensurePvm_adds (WellFormed.withDbs kept.inv.wellFormed ids) DATABASE_ACCESS _
      (getDatabasePerm_ne_empty w.nextDatabaseId name))

end InsertDatabase

section DeleteDatabase
variable {stale : List Nat} {w : World} {d : Database}

section
variable (kept : Kept stale w) (member : d ∈ w.md.dbs)
    (apart : ∀ o ∈ w.md.dbs, o.id ≠ d.id → ¬ Extends d.databaseName o.databaseName)
include kept member apart

theorem Kept.not_startsWith
    {o : Database} (inDbs : o ∈ w.md.dbs) (other : o.id ≠ d.id) {rest : String}
    (shape : Rest rest) :
    ¬ StartsWith ("[" ++ d.databaseName ++ "].") (dotted o.databaseName rest) := by
  intro starts
  obtain ⟨differs, -, continues⟩ := kept.apart d member o inDbs (Ne.symm other)
  rcases startsWith_dotted shape starts with same | longer | hit
  · exact differs same
  · exact apart o inDbs other longer
  · exact continues hit

theorem Kept.not_lostWith {o : Database} (inDbs : o ∈ w.md.dbs) (other : o.id ≠ d.id) {p v : String}
    (ofSchema : SchemaView o.databaseName p v) : ¬ LostWith d p v := by
  obtain ⟨kind, inner, rfl⟩ := ofSchema
  intro lost
  rcases lost with ⟨-, same⟩ | ⟨-, starts⟩
  · exact getDatabasePerm_ne_bracketed _ _ _ _ same.symm
  · rw [bracketed_dotted] at starts
    exact kept.not_startsWith member apart inDbs other (rest_bracketed inner) starts

theorem Kept.inv_deletedDatabase {md' : Metadata}
    (empty : ∀ t ∈ w.md.tables, t.databaseId ≠ d.id)
    (removes : Removes { w.md with dbs := w.md.dbs.filter fun o => o.id ≠ d.id } md' (LostWith d)) :
    Inv stale { w with md := md' } := by
  obtain ⟨nameOf, synced, fromDatabase⟩ := kept.inv.synced
  have tables : md'.tables = w.md.tables := removes.objects.tables
  have slices : md'.slices = w.md.slices := removes.objects.slices
  have dbs : ∀ o, o ∈ md'.dbs ↔ o ∈ w.md.dbs ∧ o.id ≠ d.id := by
    intro o
    rw [removes.objects.dbs, mem_filter, decide_eq_true_eq]
  have keepsPerm : ∀ t ∈ w.md.tables, ∀ v ∈ t.perm, md'.Has DATASOURCE_ACCESS v := by
    intro t inTables v isPerm
    refine (removes.has _ v).mpr ⟨synced.hasPerm t inTables v isPerm, ?_⟩
    intro lost
    rcases lost with ⟨isDatabase, -⟩ | ⟨isSchema | isCatalog, -⟩
    · exact absurd isDatabase (by decide)
    · exact absurd isSchema (by decide)
    · exact absurd isCatalog (by decide)
  refine ⟨removes.wellFormed, ⟨nameOf, ⟨tables ▸ synced.perms, tables ▸ keepsPerm,
    tables ▸ synced.rows, ?_, ?_, ?_⟩, ?_⟩, ⟨?_, ?_, ?_, ?_⟩, ⟨?_, ?_, ?_⟩⟩
  · rw [tables]
    intro t inTables fresh
    obtain ⟨-, schemaStep, catalogStep⟩ := synced.rows t inTables fresh
    obtain ⟨-, hasSchema, hasCatalog⟩ := synced.has t inTables fresh
    obtain ⟨o, inDbs, sameId, named⟩ := fromDatabase t inTables
    have other : o.id ≠ d.id := sameId ▸ empty t inTables
    rw [← named] at schemaStep catalogStep
    refine ⟨keepsPerm t inTables, ?_, ?_⟩
    · intro v isPerm
      refine (removes.has _ v).mpr ⟨hasSchema v isPerm,
        kept.not_lostWith member apart inDbs other ?_⟩
      exact ⟨.inl rfl, expectedSchemaPerm_bracketed (schemaStep.symm.trans isPerm)⟩
    · intro v isPerm
      refine (removes.has _ v).mpr ⟨hasCatalog v isPerm,
        kept.not_lostWith member apart inDbs other ?_⟩
      exact ⟨.inr rfl, expectedCatalogPerm_bracketed (catalogStep.symm.trans isPerm)⟩
  · rw [tables, slices]
    exact synced.charts
  · rw [tables]
    exact fun t inTables table name named =>
      synced.menus t inTables table name (removes.named _ named)
  · intro t inTables
    rw [tables] at inTables
    obtain ⟨o, inDbs, sameId, named⟩ := fromDatabase t inTables
    exact ⟨o, (dbs o).mpr ⟨inDbs, sameId ▸ empty t inTables⟩, sameId, named⟩
  · intro o inDbs
    obtain ⟨inOld, other⟩ := (dbs o).mp inDbs
    refine (removes.has _ _).mpr ⟨kept.inv.databases.has o inOld, ?_⟩
    intro lost
    rcases lost with ⟨-, same⟩ | ⟨isSchema | isCatalog, -⟩
    · exact other (getDatabasePerm_id _ _ _ _ same)
    · exact absurd isSchema (by decide)
    · exact absurd isCatalog (by decide)
  · intro o inDbs name named
    exact kept.inv.databases.only o ((dbs o).mp inDbs).1 name (removes.named _ named)
  · intro id name drawn named
    exact kept.inv.databases.fresh id name drawn (removes.named _ named)
  · intro o inDbs
    exact kept.inv.databases.ids o ((dbs o).mp inDbs).1
  · rw [tables]
    exact kept.inv.datasets.ids
  · intro id table name drawn named
    exact kept.inv.datasets.menus id table name drawn (removes.named _ named)
  · rw [slices]
    exact kept.inv.datasets.charts

theorem Kept.deletedDatabase {md' : Metadata}
    (empty : ∀ t ∈ w.md.tables, t.databaseId ≠ d.id)
    (removes : Removes { w.md with dbs := w.md.dbs.filter fun o => o.id ≠ d.id } md' (LostWith d)) :
    Saved stale w { w with md := md' } := by
  have tables : md'.tables = w.md.tables := removes.objects.tables
  have dbs : ∀ o, o ∈ md'.dbs ↔ o ∈ w.md.dbs ∧ o.id ≠ d.id := by
    intro o
    rw [removes.objects.dbs, mem_filter, decide_eq_true_eq]
  have wf := kept.inv.wellFormed
  refine ⟨⟨kept.inv_deletedDatabase member apart empty removes, ?_,
    (used_iff removes.wellFormed).mp removes.used, ?_, kept.positive.1, tables ▸ kept.positive.2⟩,
    ?_, ⟨?_, Nat.le_refl _, Nat.le_refl _⟩⟩
  · intro p v has
    obtain ⟨hasOld, notLost⟩ := (removes.has p v).mp has
    rcases kept.kinds p v hasOld with ⟨rfl, o, inDbs, rfl⟩ | ⟨o, inDbs, ofSchema⟩ |
      ⟨rfl, t, inTables, isPerm⟩
    · refine .inl ⟨rfl, o, (dbs o).mpr ⟨inDbs, ?_⟩, rfl⟩
      intro same
      rw [database_eq_of_id wf inDbs member same] at notLost
      exact notLost (.inl ⟨rfl, rfl⟩)
    · refine .inr (.inl ⟨o, (dbs o).mpr ⟨inDbs, ?_⟩, ofSchema⟩)
      intro same
      obtain ⟨kind, inner, rfl⟩ := ofSchema
      rw [database_eq_of_id wf inDbs member same, bracketed_dotted] at notLost
      exact notLost (.inr ⟨kind, startsWith_own _ _⟩)
    · exact .inr (.inr ⟨rfl, t, tables ▸ inTables, isPerm⟩)
  · intro a inA b inB
    exact kept.apart a ((dbs a).mp inA).1 b ((dbs b).mp inB).1
  · refine follows_of_objects id (LostWith d) wf removes.wellFormed ?_ ?_ ?_
    · intro role p v
      rw [removes.holds]
      constructor
      · intro held
        exact ⟨v, held.1, held.2, rfl⟩
      · intro held
        obtain ⟨u, holds, notLost, rfl⟩ := held
        exact ⟨holds, notLost⟩
    · intro o inDbs
      obtain ⟨inOld, other⟩ := (dbs o).mp inDbs
      refine .inl ⟨o, inOld, rfl, ?_⟩
      intro object v v' ofDatabase before after
      rw [← Option.some.inj (before.symm.trans after)]
      refine ⟨?_, fun _ _ _ => Iff.rfl⟩
      rcases named_cases ofDatabase before with ⟨isDatabase, rfl⟩ | ofSchema
      · intro lost
        rcases lost with ⟨-, same⟩ | ⟨isSchema | isCatalog, -⟩
        · exact other (getDatabasePerm_id _ _ _ _ same)
        · exact absurd (isDatabase.symm.trans isSchema) (by decide)
        · exact absurd (isDatabase.symm.trans isCatalog) (by decide)
      · exact kept.not_lostWith member apart inOld other ofSchema
    · intro t inTables
      rw [tables] at inTables
      obtain ⟨nameOf, synced, -⟩ := kept.inv.synced
      have isPerm := synced.perms t inTables
      refine ⟨t, inTables, rfl, _, _, isPerm, isPerm, ?_, fun _ _ _ => Iff.rfl⟩
      intro lost
      rcases lost with ⟨isDatabase, -⟩ | ⟨isSchema | isCatalog, -⟩
      · exact absurd isDatabase (by decide)
      · exact absurd isSchema (by decide)
      · exact absurd isCatalog (by decide)
  · intro object present
    refine .inl (present_of_rows wf removes.wellFormed ?_ ?_ present)
    · exact fun o inDbs => ⟨o, ((dbs o).mp inDbs).1, rfl⟩
    · exact fun t inTables => ⟨t, tables ▸ inTables, rfl⟩

end

theorem Kept.deleteDatabase {w' : World} {id : Nat} {name : String} (kept : Kept stale w)
    (orderly : ∀ d ∈ w.md.dbs, d.id = id → name = d.databaseName ∧
      ∀ o ∈ w.md.dbs, o.id ≠ id → ¬ Extends d.databaseName o.databaseName)
    (taken : deleteDatabase w id name = some w') : Saved stale w w' := by
  unfold Listeners.deleteDatabase at taken
  cases found : w.md.findDatabase id with
  | none => simp [found] at taken
  | some d =>
    obtain ⟨member, rfl⟩ := findDatabase_eq_some found
    obtain ⟨rfl, apart⟩ := orderly d member rfl
    simp only [found] at taken
    split at taken
    · cases taken
    rename_i noTables
    rw [Option.some.injEq] at taken
    subst taken
    have ids : ((w.md.dbs.filter fun o => o.id ≠ d.id).map Database.id).Nodup :=
      kept.inv.wellFormed.dbIds.sublist (filter_sublist.map _)
    refine kept.deletedDatabase member apart ?_ (databaseAfterDelete_removes
      (WellFormed.withDbs kept.inv.wellFormed ids)
      ((used_iff kept.inv.wellFormed).mpr kept.used) ⟨d.id, d.databaseName⟩)
    intro t inTables same
    exact noTables (any_eq_true.mpr ⟨t, inTables, by simpa using same⟩)

end DeleteDatabase

end Liteset.Security.Listeners
