import Liteset.Security.PermissionOps

/-!
# Deleting or renaming one database against the permissions of another

`on_database_deleted`, and `on_database_updated` when the new name already has
its permission, collect the schema and catalog permission views of a database
with the `LIKE` pattern `[name].[%]`.  `confines_iff` says in which ways
the two callbacks reach beyond their own database.
-/

set_option autoImplicit false

namespace Liteset.Security

open Liteset.Lib.SqlLike Metadata

/-- The permission on the view menu was built from the database's own id and
name by `get_database_perm`, `get_schema_perm` or `get_catalog_perm`. -/
def BuiltFrom (database : Database) (permission view : String) : Prop :=
  (permission = DATABASE_ACCESS ∧ view = getDatabasePerm database.id database.databaseName) ∨
  (permission = SCHEMA_ACCESS ∧
    ∃ catalog schema, getSchemaPerm database.databaseName catalog schema = some view) ∨
  (permission = CATALOG_ACCESS ∧
    ∃ catalog, getCatalogPerm database.databaseName catalog = some view)

/-- The view-menu name was built from the database's name by one of the four
`get_*_perm` functions. -/
def NamedFrom (database : Database) (view : String) : Prop :=
  view = getDatabasePerm database.id database.databaseName ∨
  (∃ datasetId table, view = getDatasetPerm datasetId table database.databaseName) ∨
  (∃ catalog schema, getSchemaPerm database.databaseName catalog schema = some view) ∨
  (∃ catalog, getCatalogPerm database.databaseName catalog = some view)

/-- The permission views that disappear are those built from `database`. -/
def RemovesExactly (before after : Metadata) (database : Database) : Prop :=
  ∀ pv, pv ∈ after.permissionViews ↔
    pv ∈ before.permissionViews ∧
      ¬ ∃ permission view, before.Joins pv permission view ∧ BuiltFrom database permission view

/-- View menus named from `other`, the permission views on them and their grants
are as before. -/
def Untouched (before after : Metadata) (other : Database) : Prop :=
  ∀ vm ∈ before.viewMenus, NamedFrom other vm.name →
    vm ∈ after.viewMenus ∧
      ∀ pv ∈ before.permissionViews, pv.viewMenuId = vm.id →
        pv ∈ after.permissionViews ∧
          ∀ roleId, (⟨pv.id, roleId⟩ : PermissionViewRole) ∈ after.permissionViewRoles ↔
            (⟨pv.id, roleId⟩ : PermissionViewRole) ∈ before.permissionViewRoles

/-- Both callbacks on a database called `name` stay within it, as far as a
database called `other` can tell, from every well-formed store. -/
def Confines (name other : String) : Prop :=
  (∀ (md : Metadata) (id otherId : Nat), md.WellFormed → id ≠ otherId →
    RemovesExactly md (md.onDatabaseDeleted ⟨id, name⟩) ⟨id, name⟩ ∧
      Untouched md (md.onDatabaseDeleted ⟨id, name⟩) ⟨otherId, other⟩) ∧
  (∀ (md : Metadata) (id otherId : Nat) (newName : String), md.WellFormed → id ≠ otherId →
    newName ≠ name →
    (md.findPermissionViewMenu DATABASE_ACCESS (getDatabasePerm id newName)).isSome →
    RemovesExactly md (md.onDatabaseUpdated ⟨id, newName⟩ (some name)) ⟨id, name⟩ ∧
      Untouched md (md.onDatabaseUpdated ⟨id, newName⟩ (some name)) ⟨otherId, other⟩)

theorem pattern_toList (name : String) :
    ("[" ++ name ++ "].[%]").toList =
      ('[' :: name.toList ++ "].[".toList) ++ ['%', ']'] := by
  simp

theorem like_close (text : List Char) : like ['%', ']'] text = true ↔
    ∃ inner, text = inner ++ [']'] := by
  rw [like_percent]
  constructor
  · intro h
    obtain ⟨front, back, split, matched⟩ := h
    have closes := (like_literal [']'] back (plain_of_all (by decide))).mp matched
    exact ⟨front, by rw [split, closes]⟩
  · intro h
    obtain ⟨inner, split⟩ := h
    exact ⟨inner, [']'], split, by decide⟩

theorem bracketed_toList (name inner : String) :
    (bracketed name inner).toList =
      ('[' :: name.toList ++ "].[".toList) ++ (inner.toList ++ [']']) := by
  simp [bracketed]

theorem like_pattern_iff (name view : String) (plain : ∀ c ∈ name.toList, ¬ Wildcard c) :
    like ("[" ++ name ++ "].[%]").toList view.toList = true ↔
    ∃ inner, view = bracketed name inner := by
  have brackets : ∀ c ∈ "].[".toList, ¬ Wildcard c := plain_of_all (by decide)
  have literal : ∀ c ∈ '[' :: name.toList ++ "].[".toList, ¬ Wildcard c := by
    intro c member
    rcases List.mem_append.mp member with inName | inBrackets
    · rcases List.mem_cons.mp inName with rfl | inName
      · decide
      · exact plain c inName
    · exact brackets c inBrackets
  rw [pattern_toList, like_literal_append _ _ _ literal]
  constructor
  · intro h
    obtain ⟨rest, split, matched⟩ := h
    obtain ⟨inner, closed⟩ := (like_close rest).mp matched
    refine ⟨String.ofList inner, ?_⟩
    rw [← String.toList_inj, bracketed_toList, split, closed]
    simp
  · intro h
    obtain ⟨inner, rfl⟩ := h
    exact ⟨inner.toList ++ [']'], bracketed_toList name inner, (like_close _).mpr ⟨_, rfl⟩⟩

theorem like_pattern_map (name inner : String) (replace : Char → Char)
    (keeps : ∀ c, ¬ Wildcard c → replace c = c) :
    like ("[" ++ name ++ "].[%]").toList
      (bracketed (String.ofList (name.toList.map replace)) inner).toList = true := by
  have matched := like_map_append replace ('[' :: name.toList ++ "].[".toList) ['%', ']']
    (inner.toList ++ [']']) keeps ((like_close _).mpr ⟨_, rfl⟩)
  have fixed : ∀ c ∈ ['[', ']', '.'], replace c = c := by
    intro c member
    exact keeps c (plain_of_all (by decide) c member)
  rw [pattern_toList, bracketed_toList]
  simpa [fixed] using matched

theorem like_pattern_self (name inner : String) :
    like ("[" ++ name ++ "].[%]").toList (bracketed name inner).toList = true := by
  simpa using like_pattern_map name inner id (fun _ _ => rfl)

theorem namedFrom_bracketed {database : Database} {name inner : String}
    (named : NamedFrom database (bracketed name inner)) :
    name = database.databaseName ∨ Continues name database.databaseName ∨
      Continues database.databaseName name := by
  have brackets : ∀ outer, bracketed name inner = bracketed database.databaseName outer →
      name = database.databaseName ∨ Continues name database.databaseName ∨
        Continues database.databaseName name := fun outer same =>
    bracketed_eq name database.databaseName inner outer same
  rcases named with isDatabase | ⟨datasetId, table, isDataset⟩ | isSchema | isCatalog
  · exact absurd isDatabase.symm (getDatabasePerm_ne_bracketed _ _ _ _)
  · exact absurd isDataset.symm (getDatasetPerm_ne_bracketed _ _ _ _ _)
  · obtain ⟨outer, same⟩ := (getSchemaPerm_eq_some _ _).mp isSchema
    exact brackets outer same
  · obtain ⟨outer, same⟩ := (getCatalogPerm_eq_some _ _).mp isCatalog
    exact brackets outer same

theorem not_namedFrom_databasePerm (database : Database) (id : Nat) (name : String)
    (distinct : id ≠ database.id) : ¬ NamedFrom database (getDatabasePerm id name) := by
  intro named
  rcases named with isDatabase | ⟨datasetId, table, isDataset⟩ | isSchema | isCatalog
  · exact distinct (getDatabasePerm_id _ _ _ _ isDatabase)
  · exact getDatabasePerm_ne_getDatasetPerm _ _ _ _ _ isDataset
  · obtain ⟨outer, same⟩ := (getSchemaPerm_eq_some _ _).mp isSchema
    exact getDatabasePerm_ne_bracketed _ _ _ _ same
  · obtain ⟨outer, same⟩ := (getCatalogPerm_eq_some _ _).mp isCatalog
    exact getDatabasePerm_ne_bracketed _ _ _ _ same

theorem namedFrom_datasetPerm {database : Database} {id : Nat} {table name : String}
    (named : NamedFrom database (getDatasetPerm id table name)) :
    name = database.databaseName ∨ Continues name database.databaseName ∨
      Continues database.databaseName name := by
  rcases named with isDatabase | ⟨datasetId, otherTable, isDataset⟩ | isSchema | isCatalog
  · exact absurd isDatabase.symm (getDatabasePerm_ne_getDatasetPerm _ _ _ _ _)
  · exact getDatasetPerm_eq _ _ _ _ _ _ isDataset
  · obtain ⟨outer, same⟩ := (getSchemaPerm_eq_some _ _).mp isSchema
    exact absurd same (getDatasetPerm_ne_bracketed _ _ _ _ _)
  · obtain ⟨outer, same⟩ := (getCatalogPerm_eq_some _ _).mp isCatalog
    exact absurd same (getDatasetPerm_ne_bracketed _ _ _ _ _)

def Selected (md : Metadata) (database : Database) (pv : PermissionView) : Prop :=
  ∃ permission view, md.Joins pv permission view ∧
    ((permission = DATABASE_ACCESS ∧ view = getDatabasePerm database.id database.databaseName) ∨
      (permission = SCHEMA_ACCESS ∨ permission = CATALOG_ACCESS) ∧
        like ("[" ++ database.databaseName ++ "].[%]").toList view.toList = true)

section Deleted
variable {md : Metadata} (wf : md.WellFormed) (database : Database)
include wf

theorem onDatabaseDeleted_permissionViews (pv : PermissionView) :
    pv ∈ (md.onDatabaseDeleted database).permissionViews ↔
      pv ∈ md.permissionViews ∧ ¬ Selected md database pv := by
  simp only [onDatabaseDeleted]
  generalize perm : getDatabasePerm database.id database.databaseName = dbPerm
  have wf' := wf.delPermissionViewMenu DATABASE_ACCESS dbPerm
  rw [mem_foldl_deletePvm_permissionViews]
  constructor
  · intro h
    obtain ⟨stays, apart⟩ := h
    obtain ⟨member, notNamed⟩ := (mem_delPermissionViewMenu wf _ _ pv).mp stays
    refine ⟨member, ?_⟩
    intro selected
    obtain ⟨permission, view, joins, ⟨rfl, viewName⟩ | ⟨kind, matched⟩⟩ := selected
    · exact notNamed (perm ▸ viewName ▸ joins)
    · exact apart pv ((mem_schemaCatalogPvms _ _ pv).mpr
        ⟨stays, permission, view, (joins_delPermissionViewMenu stays).mpr joins, kind, matched⟩) rfl
  · intro h
    obtain ⟨member, notSelected⟩ := h
    have stays : pv ∈ (md.delPermissionViewMenu DATABASE_ACCESS dbPerm).permissionViews := by
      refine (mem_delPermissionViewMenu wf _ _ pv).mpr ⟨member, ?_⟩
      intro joins
      exact notSelected ⟨_, _, joins, .inl ⟨rfl, perm.symm⟩⟩
    refine ⟨stays, ?_⟩
    intro d inPvms sameId
    obtain ⟨inViews, permission, view, joins, kind, matched⟩ :=
      (mem_schemaCatalogPvms _ _ d).mp inPvms
    obtain rfl := wf'.permissionView_eq_of_id stays inViews sameId
    exact notSelected ⟨permission, view, (joins_delPermissionViewMenu stays).mp joins,
      .inr ⟨kind, matched⟩⟩

theorem onDatabaseDeleted_eq_foldl :
    ∃ pvms : List PermissionView, md.onDatabaseDeleted database = pvms.foldl deletePvm md ∧
      ∀ d ∈ pvms, d ∈ md.permissionViews ∧ Selected md database d := by
  refine ⟨(md.findPermissionViewMenu DATABASE_ACCESS
    (getDatabasePerm database.id database.databaseName)).toList ++
    (md.delPermissionViewMenu DATABASE_ACCESS
      (getDatabasePerm database.id database.databaseName)).schemaCatalogPvms
        database.databaseName, ?_, ?_⟩
  · rw [List.foldl_append, ← delPermissionViewMenu_eq]
    rfl
  · intro d member
    rcases List.mem_append.mp member with named | matched
    · obtain ⟨inViews, joins⟩ := findPermissionViewMenu_eq_some (Option.mem_toList.mp named)
      exact ⟨inViews, _, _, joins, .inl ⟨rfl, rfl⟩⟩
    · obtain ⟨stays, permission, view, joins, kind, like⟩ :=
        (mem_schemaCatalogPvms _ _ d).mp matched
      have inViews := ((mem_delPermissionViewMenu wf _ _ d).mp stays).1
      exact ⟨inViews, permission, view, (joins_delPermissionViewMenu stays).mp joins,
        .inr ⟨kind, like⟩⟩

theorem onDatabaseDeleted_keeps (vm : ViewMenu) (member : vm ∈ md.viewMenus)
    (apart : ∀ pv ∈ md.permissionViews, pv.viewMenuId = vm.id → ¬ Selected md database pv) :
    vm ∈ (md.onDatabaseDeleted database).viewMenus ∧
      ∀ pv ∈ md.permissionViews, pv.viewMenuId = vm.id →
        pv ∈ (md.onDatabaseDeleted database).permissionViews ∧
          ∀ roleId, (⟨pv.id, roleId⟩ : PermissionViewRole) ∈
              (md.onDatabaseDeleted database).permissionViewRoles ↔
            (⟨pv.id, roleId⟩ : PermissionViewRole) ∈ md.permissionViewRoles := by
  obtain ⟨pvms, callback, selected⟩ := onDatabaseDeleted_eq_foldl wf database
  rw [callback]
  refine ⟨?_, ?_⟩
  · apply foldl_deletePvm_keeps_viewMenu _ _ _ member
    intro d inPvms sameMenu
    exact apart d (selected d inPvms).1 sameMenu.symm (selected d inPvms).2
  · intro pv inViews onMenu
    have kept : ∀ d ∈ pvms, pv.id ≠ d.id := by
      intro d inPvms sameId
      obtain rfl := wf.permissionView_eq_of_id inViews (selected d inPvms).1 sameId
      exact apart pv inViews onMenu (selected pv inPvms).2
    refine ⟨(mem_foldl_deletePvm_permissionViews _ _ _).mpr ⟨inViews, kept⟩, ?_⟩
    intro roleId
    rw [mem_foldl_deletePvm_grants]
    exact and_iff_left kept

end Deleted

/-- With the permission of the new name in place, the update is the deletion of
the old name followed by the renaming of the dataset permissions. -/
theorem onDatabaseUpdated_existing (md : Metadata) (id : Nat) (oldName newName : String)
    (renamed : newName ≠ oldName)
    (exists_ : (md.findPermissionViewMenu DATABASE_ACCESS (getDatabasePerm id newName)).isSome) :
    md.onDatabaseUpdated ⟨id, newName⟩ (some oldName) =
      (md.onDatabaseDeleted ⟨id, oldName⟩).renameDatasourcePermsForDatabase ⟨id, newName⟩
        oldName := by
  obtain ⟨pvm, found⟩ := Option.isSome_iff_exists.mp exists_
  simp only [onDatabaseUpdated, if_neg renamed.symm, found, onDatabaseDeleted]

theorem WellFormed.onDatabaseDeleted {md : Metadata} (wf : md.WellFormed) (database : Database) :
    (md.onDatabaseDeleted database).WellFormed := by
  obtain ⟨pvms, callback, -⟩ := onDatabaseDeleted_eq_foldl wf database
  rw [callback]
  exact wf.foldl_deletePvm pvms

/-- The names leave the pattern nothing to misread. -/
def Separate (name other : String) : Prop :=
  (∀ c ∈ name.toList, ¬ Wildcard c) ∧ ¬ Continues name other ∧ ¬ Continues other name

instance (name other : String) : Decidable (Separate name other) :=
  @instDecidableAnd _ _ (List.decidableBAll (fun c => ¬ Wildcard c) name.toList) inferInstance

theorem selected_iff_builtFrom (md : Metadata) (database : Database)
    (plain : ∀ c ∈ database.databaseName.toList, ¬ Wildcard c) (pv : PermissionView) :
    Selected md database pv ↔
      ∃ permission view, md.Joins pv permission view ∧ BuiltFrom database permission view := by
  unfold Selected BuiltFrom
  apply exists_congr
  intro permission
  apply exists_congr
  intro view
  rw [like_pattern_iff _ _ plain, getSchemaPerm_eq_some, getCatalogPerm_eq_some, or_and_right]

variable {name other : String}

theorem not_selected_of_namedFrom {md : Metadata} (wf : md.WellFormed)
    (separate : Separate name other) (distinct : name ≠ other) {id otherId : Nat}
    (ids : id ≠ otherId) (vm : ViewMenu) (member : vm ∈ md.viewMenus)
    (named : NamedFrom ⟨otherId, other⟩ vm.name) (pv : PermissionView)
    (onMenu : pv.viewMenuId = vm.id) : ¬ Selected md ⟨id, name⟩ pv := by
  intro selected
  obtain ⟨permission, view, ⟨-, vm', inMenus, sameId, rfl⟩, chosen⟩ := selected
  obtain rfl := wf.viewMenu_eq_of_id member inMenus (onMenu.symm.trans sameId.symm)
  rcases chosen with ⟨-, isPerm⟩ | ⟨-, matched⟩
  · rw [isPerm] at named
    exact not_namedFrom_databasePerm _ _ _ ids named
  · obtain ⟨inner, isBracketed⟩ := (like_pattern_iff _ _ separate.1).mp matched
    rw [isBracketed] at named
    rcases namedFrom_bracketed named with same | longer | shorter
    · exact distinct same
    · exact separate.2.1 longer
    · exact separate.2.2 shorter

theorem removesExactly_onDatabaseDeleted {md : Metadata} (wf : md.WellFormed) (database : Database)
    (plain : ∀ c ∈ database.databaseName.toList, ¬ Wildcard c) :
    RemovesExactly md (md.onDatabaseDeleted database) database := by
  intro pv
  rw [onDatabaseDeleted_permissionViews wf, selected_iff_builtFrom md database plain]

theorem confines_of_separate (distinct : name ≠ other)
    (separate : Separate name other) : Confines name other := by
  have deleted : ∀ (md : Metadata) (id otherId : Nat), md.WellFormed → id ≠ otherId →
      Untouched md (md.onDatabaseDeleted ⟨id, name⟩) ⟨otherId, other⟩ := by
    intro md id otherId wf ids vm member named
    apply onDatabaseDeleted_keeps wf _ vm member
    intro pv _ onMenu
    exact not_selected_of_namedFrom wf separate distinct ids vm member named pv onMenu
  refine ⟨?_, ?_⟩
  · intro md id otherId wf ids
    exact ⟨removesExactly_onDatabaseDeleted wf _ separate.1, deleted md id otherId wf ids⟩
  · intro md id otherId newName wf ids renamed exists_
    rw [onDatabaseUpdated_existing md id name newName renamed exists_]
    obtain ⟨views, roles, menus⟩ := renameDatasourcePerms_frame
      (WellFormed.onDatabaseDeleted wf ⟨id, name⟩) name newName
      ((md.onDatabaseDeleted ⟨id, name⟩).tables.filter fun t => t.databaseId = id)
    refine ⟨?_, ?_⟩
    · intro pv
      rw [← removesExactly_onDatabaseDeleted wf ⟨id, name⟩ separate.1 pv]
      exact iff_of_eq (congrArg (pv ∈ ·) views)
    · intro vm member named
      obtain ⟨stays, onMenu⟩ := deleted md id otherId wf ids vm member named
      refine ⟨menus vm stays ?_, ?_⟩
      · intro datasetId table isDataset
        rw [isDataset] at named
        rcases namedFrom_datasetPerm named with same | longer | shorter
        · exact distinct same
        · exact separate.2.1 longer
        · exact separate.2.2 shorter
      · intro pv inViews sameMenu
        obtain ⟨inDeleted, grants⟩ := onMenu pv inViews sameMenu
        refine ⟨?_, ?_⟩
        · exact views.symm ▸ inDeleted
        · intro roleId
          rw [← grants roleId]
          exact iff_of_eq (congrArg (_ ∈ ·) roles)

/-- A store with one `schema_access` permission view. -/
def schemaStore (view : String) : Metadata where
  permissions := [⟨1, SCHEMA_ACCESS⟩]
  viewMenus := [⟨1, view⟩]
  permissionViews := [⟨1, 1, 1⟩]
  permissionSeq := 2
  viewMenuSeq := 2
  permissionViewSeq := 2

theorem schemaStore_wellFormed (view : String) : (schemaStore view).WellFormed := by
  constructor <;> simp [schemaStore]

theorem schemaStore_joins (view : String) :
    (schemaStore view).Joins ⟨1, 1, 1⟩ SCHEMA_ACCESS view := by
  simp [schemaStore, Joins]

theorem schemaStore_deleted (database : Database) (view : String)
    (matched : like ("[" ++ database.databaseName ++ "].[%]").toList view.toList = true) :
    (⟨1, 1, 1⟩ : PermissionView) ∉
      ((schemaStore view).onDatabaseDeleted database).permissionViews := by
  rw [onDatabaseDeleted_permissionViews (schemaStore_wellFormed view)]
  intro h
  exact h.2 ⟨_, _, schemaStore_joins view, .inr ⟨.inl rfl, matched⟩⟩

theorem plain_of_confines (confined : Confines name other) : ∀ c ∈ name.toList, ¬ Wildcard c := by
  intro c inName wild
  -- a schema of the database whose name has `a` in place of every wildcard
  let replace : Char → Char := fun d => if Wildcard d then 'a' else d
  let plainName := String.ofList (name.toList.map replace)
  have keeps : ∀ d, ¬ Wildcard d → replace d = d := fun d notWild => if_neg notWild
  have gone := schemaStore_deleted ⟨1, name⟩ (bracketed plainName "s")
    (like_pattern_map name "s" replace keeps)
  have exact_ := (confined.1 (schemaStore (bracketed plainName "s")) 1 2
    (schemaStore_wellFormed _) (by decide)).1 ⟨1, 1, 1⟩
  have built : ∃ inner, bracketed plainName "s" = bracketed name inner := by
    by_contra notBuilt
    apply gone
    rw [exact_]
    refine ⟨by simp [schemaStore], ?_⟩
    intro h
    obtain ⟨permission, view, joins, built⟩ := h
    obtain ⟨rfl, rfl⟩ := (schemaStore_wellFormed _).joins_unique joins (schemaStore_joins _)
    rcases built with ⟨isDatabase, -⟩ | ⟨-, isSchema⟩ | ⟨isCatalog, -⟩
    · exact absurd isDatabase (by decide)
    · exact notBuilt ((getSchemaPerm_eq_some _ _).mp isSchema)
    · exact absurd isCatalog (by decide)
  obtain ⟨inner, same⟩ := built
  have length : plainName.toList.length = name.toList.length := by simp [plainName]
  rcases bracketed_eq _ _ _ _ same with equal | longer | shorter
  · rw [← equal] at inName
    simp only [plainName, String.toList_ofList, List.mem_map] at inName
    obtain ⟨d, -, replaced⟩ := inName
    by_cases dWild : Wildcard d
    · rw [show replace d = 'a' from if_pos dWild] at replaced
      subst replaced
      exact absurd wild (by decide)
    · rw [keeps d dWild] at replaced
      exact dWild (replaced ▸ wild)
  · have bound := longer.length_le
    rw [List.length_append, length] at bound
    simp only [String.reduceToList, List.length_cons, List.length_nil] at bound
    omega
  · have bound := shorter.length_le
    rw [List.length_append, length] at bound
    simp only [String.reduceToList, List.length_cons, List.length_nil] at bound
    omega

theorem untouched_schemaStore (confined : Confines name other)
    (inner outer : String) : bracketed name inner ≠ bracketed other outer := by
  intro same
  have gone := schemaStore_deleted ⟨1, name⟩ (bracketed name inner) (like_pattern_self name inner)
  have kept := (confined.1 (schemaStore (bracketed name inner)) 1 2
    (schemaStore_wellFormed _) (by decide)).2 ⟨1, bracketed name inner⟩ (by simp [schemaStore])
    (.inr (.inr (.inl ((getSchemaPerm_eq_some other _).mpr ⟨outer, same⟩))))
  exact gone (kept.2 ⟨1, 1, 1⟩ (by simp [schemaStore]) rfl).1

theorem separate_of_confines (confined : Confines name other) : Separate name other := by
  refine ⟨plain_of_confines confined, ?_, ?_⟩
  · intro longer
    obtain ⟨rest, rfl⟩ := eq_append_of_continues name other longer
    apply untouched_schemaStore confined (rest ++ "].[s") "s"
    rw [← String.toList_inj]
    simp [bracketed]
  · intro shorter
    obtain ⟨rest, rfl⟩ := eq_append_of_continues other name shorter
    apply untouched_schemaStore confined "s" (rest ++ "].[s")
    rw [← String.toList_inj]
    simp [bracketed]

/-- Deleting a database, or renaming it onto an existing permission, stays
within it exactly when its name has no wildcard and neither name continues the
other past `].[`. -/
theorem confines_iff (name other : String) (distinct : name ≠ other) :
    Confines name other ↔ Separate name other :=
  ⟨separate_of_confines, confines_of_separate distinct⟩

theorem confines_sales_hr : "sales" ≠ "hr" ∧ Confines "sales" "hr" :=
  ⟨by decide, (confines_iff "sales" "hr" (by decide)).mpr (by decide)⟩

/-- Deleting `sales_eu` takes the schema permission of `sales-eu` with it. -/
theorem not_confines_sales_eu :
    "sales_eu" ≠ "sales-eu" ∧ ¬ Confines "sales_eu" "sales-eu" ∧
      (schemaStore "[sales-eu].[public]").WellFormed ∧
      getSchemaPerm "sales-eu" none (some "public") = some "[sales-eu].[public]" ∧
      (⟨1, 1, 1⟩ : PermissionView) ∉
        ((schemaStore "[sales-eu].[public]").onDatabaseDeleted
          ⟨1, "sales_eu"⟩).permissionViews := by
  refine ⟨by decide, ?_, schemaStore_wellFormed _, by decide, schemaStore_deleted _ _ ?_⟩
  · intro confined
    exact absurd (separate_of_confines confined) (by decide)
  · simpa [bracketed] using like_pattern_map "sales_eu" "public"
      (fun c => if c = '_' then '-' else c) (fun c plain => if_neg fun same => plain (.inl same))

end Liteset.Security
