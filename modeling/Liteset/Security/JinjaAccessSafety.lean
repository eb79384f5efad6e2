import Mathlib.Data.Fintype.EquivFin
import Liteset.Security.AccessListsSafety
import Liteset.Security.JinjaAccess
import Liteset.Security.RowRulesSafety

/-!
# The manager's decisions inside templates

`DecideAlike` asks that the two functions of the templates decide as the manager does.
They collect the roles without the public role of anonymous users, stop without roles,
leave out empty clauses, know the admin role by its default name and take the permissions
of the collected roles; the condition says when none of this shows.
-/

set_option autoImplicit false

namespace Liteset.Security.JinjaAccess

open Access List
open RowRules

section Rows

variable (unicode : Unicode)

def AccessSets.perms (sets : AccessSets) (permission : String) : List String :=
  if permission = datasourceAccess then sets.datasourcePerms
  else if permission = schemaAccess then sets.schemaPerms
  else if permission = catalogAccess then sets.catalogPerms
  else []

def stringKinds : List String := [datasourceAccess, catalogAccess, schemaAccess]

theorem classifyPermRows_fst (rows : List (String × String)) (sets : AccessSets) :
    (classifyPermRows unicode rows sets).1 = rows.any isGlobal := by
  induction rows generalizing sets with
  | nil => rfl
  | cons row rows ih =>
    rw [classifyPermRows, any_cons]
    cases global : isGlobal row with
    | true => rfl
    | false => simpa using ih (classifyRow unicode sets row)

theorem mem_classifyRow_dbIds (sets : AccessSets) (row : String × String) (id : Nat) :
    id ∈ (classifyRow unicode sets row).dbIds ↔
      id ∈ sets.dbIds ∨ row.1 = databaseAccess ∧ unicode.databasePermId row.2 = some id := by
  unfold classifyRow
  by_cases database : row.1 = databaseAccess
  · simp [database, or_comm]
  · rw [if_neg database]
    split_ifs <;> simp [database]

theorem mem_classifyRow_perms (sets : AccessSets) (row : String × String) (permission view : String)
    (kind : permission ∈ stringKinds) :
    view ∈ (classifyRow unicode sets row).perms permission ↔
      view ∈ sets.perms permission ∨ row = (permission, view) := by
  obtain ⟨name, text⟩ := row
  simp only [stringKinds, mem_cons, not_mem_nil, or_false] at kind
  rcases kind with rfl | rfl | rfl
  all_goals
    unfold classifyRow
    split_ifs with first second third fourth <;>
      simp_all [AccessSets.perms, databaseAccess, datasourceAccess, schemaAccess, catalogAccess,
        eq_comm, or_comm]

theorem mem_classifyPermRows_dbIds (rows : List (String × String)) (sets : AccessSets)
    (member : rows.any isGlobal = false) (id : Nat) :
    id ∈ (classifyPermRows unicode rows sets).2.dbIds ↔
      id ∈ sets.dbIds ∨ ∃ view, (databaseAccess, view) ∈ rows ∧
      unicode.databasePermId view = some id := by
  induction rows generalizing sets with
  | nil => simp [classifyPermRows]
  | cons row rows ih =>
    obtain ⟨first, rest⟩ := Bool.or_eq_false_iff.mp (any_cons.symm.trans member)
    rw [classifyPermRows, if_neg (by rw [first]; exact Bool.false_ne_true), ih _ rest,
      mem_classifyRow_dbIds, or_assoc]
    refine or_congr_right ⟨?_, ?_⟩
    · rintro (⟨name, read⟩ | ⟨view, found, read⟩)
      · exact ⟨row.2, name ▸ mem_cons_self, read⟩
      · exact ⟨view, mem_cons_of_mem _ found, read⟩
    · rintro ⟨view, found, read⟩
      rcases mem_cons.mp found with rfl | later
      · exact .inl ⟨rfl, read⟩
      · exact .inr ⟨view, later, read⟩

theorem mem_classifyPermRows_perms (rows : List (String × String)) (sets : AccessSets)
    (member : rows.any isGlobal = false) (permission view : String)
    (kind : permission ∈ stringKinds) :
    view ∈ (classifyPermRows unicode rows sets).2.perms permission ↔
      view ∈ sets.perms permission ∨ (permission, view) ∈ rows := by
  induction rows generalizing sets with
  | nil => simp [classifyPermRows]
  | cons row rows ih =>
    obtain ⟨first, rest⟩ := Bool.or_eq_false_iff.mp (any_cons.symm.trans member)
    rw [classifyPermRows, if_neg (by rw [first]; exact Bool.false_ne_true), ih _ rest,
      mem_classifyRow_perms unicode sets row permission view kind, mem_cons, or_assoc,
      eq_comm (a := (permission, view))]

end Rows

section Access

variable (settings : Settings) (unicode : Unicode) (objects : Objects) (user : User)

def rolePairs : List (String × String) :=
  collectRolePermRows objects.grants (collectRoleIds objects.grants user)

def SeesAll : Prop :=
  isAdmin settings user = true ∨ canAccessAllDatasources objects.grants user = true

def TemplatesSeeAll : Prop :=
  (∃ role ∈ user.roles ++ user.id.elim [] objects.grants.groupRolesOf, role.name = "Admin") ∨
    ∃ pair ∈ rolePairs objects user, isGlobal pair = true

def Written (pair : String × String) : Prop := pair.1 ∈ stringKinds → pair.2 ≠ ""

theorem datasetAccessFilters_iff_seesAll (dataset : SqlaTable) :
    datasetAccessFilters settings unicode objects user dataset = true ↔
      SeesAll settings objects user ∨
        ∃ pair ∈ userPermissionPairs settings objects.grants user,
          Reaches unicode dataset pair := by
  cases admin : isAdmin settings user with
  | true => simp [datasetAccessFilters, SeesAll, admin]
  | false =>
    simpa [SeesAll, admin] using datasetAccessFilters_iff settings unicode objects user
      admin dataset

theorem granted_iff (column : Option String) (perms : List String) :
    granted column perms = true ↔ ∃ view, column = some view ∧ view ≠ "" ∧ view ∈ perms := by
  cases column <;> simp [granted, truthy, isIn]

theorem no_pairs_of_no_roles (none_ : collectRoleIds objects.grants user = []) :
    rolePairs objects user = [] := by
  simp [rolePairs, none_, collectRolePermRows]

theorem sets_iff (dataset : SqlaTable) (member : (rolePairs objects user).any isGlobal = false) :
    let sets := (classifyPermRows unicode (rolePairs objects user) {}).2
    (dataset.databaseId ∈ sets.dbIds ∨ granted dataset.perm sets.datasourcePerms = true ∨
        granted dataset.catalogPerm sets.catalogPerms = true ∨
        granted dataset.schemaPerm sets.schemaPerms = true) ↔
      ∃ pair ∈ rolePairs objects user, Written pair ∧ Reaches unicode dataset pair := by
  intro sets
  have ids := mem_classifyPermRows_dbIds unicode _ {} member
  have texts := mem_classifyPermRows_perms unicode _ {} member
  have datasources (view : String) : view ∈ sets.datasourcePerms ↔
    (datasourceAccess, view) ∈ rolePairs objects user :=
    (texts datasourceAccess view (by decide)).trans (by simp [AccessSets.perms])
  have catalogs (view : String) : view ∈ sets.catalogPerms ↔
    (catalogAccess, view) ∈ rolePairs objects user :=
    (texts catalogAccess view (by decide)).trans
      (by simp [AccessSets.perms])
  have schemas (view : String) : view ∈ sets.schemaPerms ↔
    (schemaAccess, view) ∈ rolePairs objects user :=
    (texts schemaAccess view (by decide)).trans (by simp [AccessSets.perms])
  simp only [granted_iff, datasources, catalogs, schemas, sets, ids, not_mem_nil, false_or]
  constructor
  · rintro (⟨view, held, parsed⟩ | ⟨view, column, text, held⟩ | ⟨view, column, text, held⟩ |
      ⟨view, column, text, held⟩)
    · exact ⟨_, held,
        fun kind => by
        simp [stringKinds, databaseAccess, datasourceAccess, catalogAccess, schemaAccess] at kind,
          .database parsed⟩
    · exact ⟨_, held, fun _ => text, .dataset column⟩
    · exact ⟨_, held, fun _ => text, .catalog column⟩
    · exact ⟨_, held, fun _ => text, .schema column⟩
  · rintro ⟨pair, held, written, reaches⟩
    cases reaches with
    | database parsed => exact .inl ⟨_, held, parsed⟩
    | dataset column => exact .inr (.inl ⟨_, column, written (by simp [stringKinds]), held⟩)
    | catalog column => exact .inr (.inr (.inl ⟨_, column, written (by simp [stringKinds]), held⟩))
    | schema column => exact .inr (.inr (.inr ⟨_, column, written (by simp [stringKinds]), held⟩))

theorem admin_iff :
    ((user.roles.any fun role => role.name = "Admin") ||
        user.id.any fun id => (syncGetUserGroupRoles objects.grants id).any fun role =>
          role.name = "Admin") = true ↔
      ∃ role ∈ user.roles ++ user.id.elim [] objects.grants.groupRolesOf, role.name = "Admin" := by
  cases user.id with
  | none => simp
  | some id =>
    simp only [Bool.or_eq_true, any_eq_true, decide_eq_true_eq, Option.any_some,
      syncGetUserGroupRoles, mem_filter, mem_append, Option.elim_some, ne_eq]
    constructor
    · rintro (⟨role, held, name⟩ | ⟨role, ⟨held, -⟩, name⟩)
      · exact ⟨role, .inl held, name⟩
      · exact ⟨role, .inr held, name⟩
    · rintro ⟨role, direct | inherited, name⟩
      · exact .inl ⟨role, direct, name⟩
      · exact .inr ⟨role, ⟨inherited, by rw [name]; decide⟩, name⟩

theorem syncUserCanAccessDataset_iff (dataset : SqlaTable) :
    syncUserCanAccessDataset unicode objects.grants dataset (some user) false = true ↔
      TemplatesSeeAll objects user ∨
        ∃ pair ∈ rolePairs objects user, Written pair ∧ Reaches unicode dataset pair := by
  have admins := admin_iff objects user
  by_cases named : ∃ role ∈ user.roles ++ user.id.elim [] objects.grants.groupRolesOf,
    role.name = "Admin"
  · have shown := admins.mpr named
    rw [Bool.or_eq_true] at shown
    refine iff_of_true ?_ (.inl (.inl named))
    rw [syncUserCanAccessDataset, if_neg Bool.false_ne_true]
    dsimp only
    rcases shown with direct | inherited
    · rw [if_pos direct]
    · rw [if_pos inherited, ite_self]
  · have hidden :=
      Bool.or_eq_false_iff.mp (Bool.eq_false_iff.mpr fun shown => named (admins.mp shown))
    rw [syncUserCanAccessDataset, if_neg Bool.false_ne_true]
    dsimp only
    rw [if_neg (by rw [hidden.1]; exact Bool.false_ne_true),
      if_neg (by rw [hidden.2]; exact Bool.false_ne_true)]
    by_cases none_ : collectRoleIds objects.grants user = []
    · have blank := no_pairs_of_no_roles objects user none_
      have least : ¬TemplatesSeeAll objects user := by
        rintro (admin | ⟨pair, held, -⟩)
        · exact named admin
        · simp [blank] at held
      simp [none_, least, blank]
    · rw [if_neg (by simpa using none_)]
      have first := classifyPermRows_fst unicode (rolePairs objects user) {}
      have rows := sets_iff unicode objects user dataset
      rw [rolePairs] at first rows
      generalize classifyPermRows unicode
        (collectRolePermRows objects.grants (collectRoleIds objects.grants user)) {} =
        classified at first rows ⊢
      obtain ⟨global, sets⟩ := classified
      cases global with
      | true => exact iff_of_true rfl (.inl (.inr (any_eq_true.mp first.symm)))
      | false =>
        have least : ¬TemplatesSeeAll objects user := by
          rintro (admin | some_)
          · exact named admin
          · exact Bool.eq_false_iff.mp first.symm (any_eq_true.mpr some_)
        simp only [least, false_or, Bool.or_eq_true, or_assoc, decide_eq_true_eq]
        exact rows first.symm

structure SameGrants : Prop where
  databases (id : Nat) :
    (∃ view, (databaseAccess, view) ∈ userPermissionPairs settings objects.grants user ∧
        unicode.databasePermId view = some id) ↔
      ∃ view, (databaseAccess, view) ∈ rolePairs objects user ∧
      unicode.databasePermId view = some id
  texts (permission : String) (kind : permission ∈ stringKinds) (view : String) :
    (permission, view) ∈ userPermissionPairs settings objects.grants user ↔
      (permission, view) ∈ rolePairs objects user ∧ view ≠ ""

def AccessAlike : Prop :=
  (SeesAll settings objects user ↔ TemplatesSeeAll objects user) ∧
    (¬SeesAll settings objects user → SameGrants settings unicode objects user)

theorem reached_iff_of_sameGrants (same : SameGrants settings unicode objects user)
    (dataset : SqlaTable) :
    (∃ pair ∈ userPermissionPairs settings objects.grants user, Reaches unicode dataset pair) ↔
      ∃ pair ∈ rolePairs objects user, Written pair ∧ Reaches unicode dataset pair := by
  constructor
  · rintro ⟨pair, held, reaches⟩
    cases reaches with
    | database parsed =>
      obtain ⟨view, held, parsed⟩ := (same.databases _).mp ⟨_, held, parsed⟩
      exact ⟨_, held, fun kind => by
        simp [stringKinds, databaseAccess, datasourceAccess, catalogAccess, schemaAccess] at kind,
          .database parsed⟩
    | dataset column =>
      obtain ⟨held, text⟩ := (same.texts _ (by simp [stringKinds]) _).mp held
      exact ⟨_, held, fun _ => text, .dataset column⟩
    | catalog column =>
      obtain ⟨held, text⟩ := (same.texts _ (by simp [stringKinds]) _).mp held
      exact ⟨_, held, fun _ => text, .catalog column⟩
    | schema column =>
      obtain ⟨held, text⟩ := (same.texts _ (by simp [stringKinds]) _).mp held
      exact ⟨_, held, fun _ => text, .schema column⟩
  · rintro ⟨pair, held, written, reaches⟩
    cases reaches with
    | database parsed =>
      obtain ⟨view, held, parsed⟩ := (same.databases _).mpr ⟨_, held, parsed⟩
      exact ⟨_, held, .database parsed⟩
    | dataset column =>
      have kind : datasourceAccess ∈ stringKinds := by simp [stringKinds]
      exact ⟨_, (same.texts _ kind _).mpr ⟨held, written kind⟩, .dataset column⟩
    | catalog column =>
      have kind : catalogAccess ∈ stringKinds := by simp [stringKinds]
      exact ⟨_, (same.texts _ kind _).mpr ⟨held, written kind⟩, .catalog column⟩
    | schema column =>
      have kind : schemaAccess ∈ stringKinds := by simp [stringKinds]
      exact ⟨_, (same.texts _ kind _).mpr ⟨held, written kind⟩, .schema column⟩

def marked (databaseId : Nat) (permission view : String) : SqlaTable where
  id := 0
  tableName := ""
  databaseId := databaseId
  perm := if permission = datasourceAccess then some view else none
  schemaPerm := if permission = schemaAccess then some view else none
  catalogPerm := if permission = catalogAccess then some view else none

theorem reaches_marked (databaseId : Nat) (permission view : String) (pair : String × String) :
    Reaches unicode (marked databaseId permission view) pair ↔
      pair.1 = databaseAccess ∧ unicode.databasePermId pair.2 = some databaseId ∨
        permission ∈ stringKinds ∧ pair = (permission, view) := by
  constructor
  · intro reaches
    cases reaches with
    | database parsed => exact .inl ⟨rfl, parsed⟩
    | dataset column =>
      obtain ⟨rfl, same⟩ := Option.ite_none_right_eq_some.mp column
      cases Option.some.inj same
      exact .inr ⟨by simp [stringKinds], rfl⟩
    | catalog column =>
      obtain ⟨rfl, same⟩ := Option.ite_none_right_eq_some.mp column
      cases Option.some.inj same
      exact .inr ⟨by simp [stringKinds], rfl⟩
    | schema column =>
      obtain ⟨rfl, same⟩ := Option.ite_none_right_eq_some.mp column
      cases Option.some.inj same
      exact .inr ⟨by simp [stringKinds], rfl⟩
  · obtain ⟨name, text⟩ := pair
    rintro (⟨rfl, parsed⟩ | ⟨kind, same⟩)
    · exact .database parsed
    · cases same
      simp only [stringKinds, mem_cons, not_mem_nil, or_false] at kind
      rcases kind with rfl | rfl | rfl
      · exact .dataset (by simp [marked])
      · exact .catalog (by simp [marked])
      · exact .schema (by simp [marked])

theorem exists_unreached (pairs : List (String × String)) :
    ∃ databaseId, ∀ pair ∈ pairs, unicode.databasePermId pair.2 ≠ some databaseId := by
  obtain ⟨databaseId, absent⟩ :=
    Infinite.exists_notMem_finset
      (pairs.filterMap fun pair => unicode.databasePermId pair.2).toFinset
  refine ⟨databaseId, fun pair member parsed => absent ?_⟩
  exact mem_toFinset.mpr (mem_filterMap.mpr ⟨pair, member, parsed⟩)

theorem accessAlike_iff :
    (∀ dataset, syncUserCanAccessDataset unicode objects.grants dataset (some user) false =
        datasetAccessFilters settings unicode objects user dataset) ↔
      AccessAlike settings unicode objects user := by
  have each (dataset : SqlaTable) :
      syncUserCanAccessDataset unicode objects.grants dataset (some user) false =
          datasetAccessFilters settings unicode objects user dataset ↔
        ((TemplatesSeeAll objects user ∨
            ∃ pair ∈ rolePairs objects user, Written pair ∧ Reaches unicode dataset pair) ↔
          (SeesAll settings objects user ∨
            ∃ pair ∈ userPermissionPairs settings objects.grants user,
              Reaches unicode dataset pair)) := by
    rw [Bool.eq_iff_iff, syncUserCanAccessDataset_iff, datasetAccessFilters_iff_seesAll]
  rw [forall_congr' each]
  constructor
  · intro alike
    obtain ⟨other, unreached⟩ :=
      exists_unreached unicode
        (rolePairs objects user ++ userPermissionPairs settings objects.grants user)
    have blank := alike (marked other "" "")
    have least (permission : String) (pair : String × String)
        (member : pair ∈ rolePairs objects user ++ userPermissionPairs settings objects.grants user)
        (view : String) :
        Reaches unicode (marked other permission view) pair ↔ permission ∈ stringKinds ∧
        pair = (permission, view) := by
      rw [reaches_marked]
      exact or_iff_right fun parsed => unreached pair member parsed.2
    have plain : "" ∉ stringKinds := by decide
    have all : SeesAll settings objects user ↔ TemplatesSeeAll objects user := by
      refine Iff.symm ((or_iff_left ?_).symm.trans (blank.trans (or_iff_left ?_)))
      · rintro ⟨pair, member, -, reaches⟩
        exact plain ((least _ pair (mem_append_left _ member) _).mp reaches).1
      · rintro ⟨pair, member, reaches⟩
        exact plain ((least _ pair (mem_append_right _ member) _).mp reaches).1
    refine ⟨all, fun hidden => ⟨fun id => ?_, fun permission kind view => ?_⟩⟩
    · have reached := alike (marked id "" "")
      simp only [hidden, mt all.mpr hidden, false_or, reaches_marked, plain, false_and,
        or_false] at reached
      constructor
      · rintro ⟨view, held, parsed⟩
        obtain ⟨⟨name, text⟩, held, -, rfl, parsed⟩ := reached.mpr ⟨_, held, rfl, parsed⟩
        exact ⟨text, held, parsed⟩
      · rintro ⟨view, held, parsed⟩
        obtain ⟨⟨name, text⟩, held, rfl, parsed⟩ := reached.mp ⟨_, held, fun kind => by
          simp [stringKinds, databaseAccess, datasourceAccess, catalogAccess, schemaAccess] at kind,
            rfl, parsed⟩
        exact ⟨text, held, parsed⟩
    · have reached := alike (marked other permission view)
      simp only [hidden, mt all.mpr hidden, false_or] at reached
      constructor
      · intro held
        obtain ⟨pair, held, written, reaches⟩ :=
          reached.mpr ⟨_, held, (least _ _ (mem_append_right _ held) _).mpr ⟨kind, rfl⟩⟩
        obtain ⟨-, rfl⟩ := (least _ pair (mem_append_left _ held) _).mp reaches
        exact ⟨held, written kind⟩
      · rintro ⟨held, text⟩
        obtain ⟨pair, held, reaches⟩ :=
          reached.mp ⟨_, held,
            fun _ => text, (least _ _ (mem_append_left _ held) _).mpr ⟨kind, rfl⟩⟩
        obtain ⟨-, rfl⟩ := (least _ pair (mem_append_right _ held) _).mp reaches
        exact held
  · rintro ⟨all, same⟩ dataset
    by_cases hidden : SeesAll settings objects user
    · exact iff_of_true (.inl (all.mp hidden)) (.inl hidden)
    · rw [or_iff_right hidden, or_iff_right (mt all.mpr hidden)]
      exact (reached_iff_of_sameGrants settings unicode objects user (same hidden) dataset).symm

end Access

section Clauses

theorem perm_filter_self_iff {α : Type} (keep : α → Bool) (xs : List α) :
    (xs.filter keep).Perm xs ↔ ∀ x ∈ xs, keep x = true := by
  constructor
  · exact fun same x member => (mem_filter.mp (same.symm.subset member)).2
  · exact fun all => by rw [filter_eq_self.mpr all]

theorem perm_selections_iff {α : Type} (xs : List α) (left right : α → Bool) (text : α → String)
    (keep : String → Bool) :
    (((xs.filter left).map text).filter keep).Perm ((xs.filter right).map text) ↔
      (∀ x ∈ xs.filter right, keep (text x) = true) ∧
        ((((xs.filter left).filter fun x => !right x).map text).filter keep).Perm
          (((xs.filter right).filter fun x => !left x).map text) := by
  have common : (xs.filter left).filter right = (xs.filter right).filter left := by
    rw [filter_filter, filter_filter]
    exact filter_congr fun x _ => Bool.and_comm _ _
  have lefts := ((filter_append_perm right (xs.filter left)).map text).filter keep
  have rights := (filter_append_perm left (xs.filter right)).map text
  rw [map_append, filter_append, common] at lefts
  rw [map_append] at rights
  have cancel (kept : ∀ x ∈ xs.filter right, keep (text x) = true) :
      (((xs.filter right).filter left).map text).filter keep =
        ((xs.filter right).filter left).map text := by
    refine filter_eq_self.mpr fun clause member => ?_
    obtain ⟨x, inside, rfl⟩ := mem_map.mp member
    exact kept x (mem_filter.mp inside).1
  constructor
  · intro same
    have kept : ∀ x ∈ xs.filter right, keep (text x) = true := fun x member =>
      (mem_filter.mp (same.symm.subset (mem_map_of_mem member))).2
    refine ⟨kept, ?_⟩
    have whole := (lefts.trans same).trans rights.symm
    rw [cancel kept] at whole
    exact (perm_append_left_iff _).mp whole
  · rintro ⟨kept, rest⟩
    refine lefts.symm.trans (List.Perm.trans ?_ rights)
    rw [cancel kept]
    exact rest.append_left _

variable (settings : Settings) (state : State) (user : RowUser)

def applicableOnly (rules : Rules) (tableId : Nat) (roles others : List Nat) :
    List RowLevelSecurityFilter :=
  (applicable rules tableId roles).filter fun rule => rule ∉ applicable rules tableId others

def clausesOf (rules : List RowLevelSecurityFilter) : List String :=
  rules.map RowLevelSecurityFilter.clause

/-- Without collected roles no rule may apply to the user.  With some, no rule with an
empty clause may apply, and the rules that apply by only one of the two role lists have
the same clauses. -/
def RowsAlike : Prop :=
  let held := rolesOf settings state.directory user
  let collected := collectRoleIds state.grants user.toUser
  ∀ tableId,
    if collected = [] then applicable state.rules tableId held = []
    else
      (∀ rule ∈ applicable state.rules tableId held, rule.clause ≠ "") ∧
        ((clausesOf (applicableOnly state.rules tableId collected held)).filter (· ≠ "")).Perm
          (clausesOf (applicableOnly state.rules tableId held collected))

/-- No rule of the token with an empty clause is one for a dataset. -/
def TokenAlike : Prop :=
  ∀ rule ∈ user.rlsRules, rule.clause = "" → ∀ tableId, matchesDataset tableId rule = false

theorem getRlsFilters_eq (tableId : Nat) :
    getRlsFilters settings state.directory state.rules tableId (some user) =
      applicable state.rules tableId (rolesOf settings state.directory user) := by
  obtain ⟨roles, resolved, same⟩ := mem_resolveUserRolesForRls settings state.directory user
  rw [getRlsFilters, resolved]
  exact (selectFilters_eq state.rules tableId roles).trans
    (applicable_congr state.rules tableId _ _ same)

theorem sortedClauses_perm (clauses others : List String) :
    (sortedClauses clauses).Perm others ↔ clauses.Perm others :=
  (perm_insertionSort _ clauses).congr_left others

theorem applicableOnly_eq (rules : Rules) (tableId : Nat) :
    ∃ applies : List Nat → RowLevelSecurityFilter → Bool,
      (∀ roles, applicable rules tableId roles = rules.filters.filter (applies roles)) ∧
        ∀ roles others, applicableOnly rules tableId roles others =
          (rules.filters.filter (applies roles)).filter fun rule => !applies others rule := by
  refine ⟨_, fun roles => rfl, fun roles others => filter_congr fun rule member => ?_⟩
  have stored := (mem_filter.mp member).1
  refine (decide_not).trans (congrArg not (Bool.eq_iff_iff.mpr ?_))
  rw [decide_eq_true_eq, applicable, mem_filter, and_iff_right stored]

theorem rowsAlike_iff (member : isGuestUser settings user.toUser = false) :
    (∀ tableId, (syncGetRlsRules settings state tableId (some user)).Perm
        (clausesOf (getRlsFilters settings state.directory state.rules tableId (some user)))) ↔
      RowsAlike settings state user := by
  refine forall_congr' fun tableId => ?_
  rw [getRlsFilters_eq, syncGetRlsRules, if_neg (by rw [member]; exact Bool.false_ne_true)]
  by_cases none_ : collectRoleIds state.grants user.toUser = []
  · simp [none_, clausesOf]
  · rw [if_neg (by simpa using none_), if_neg none_, sortedClauses_perm, selectFilters_eq]
    obtain ⟨applies, all, only⟩ := applicableOnly_eq state.rules tableId
    rw [only, only, all, all, clausesOf, clausesOf, clausesOf, perm_selections_iff]
    simp only [decide_eq_true_eq]

theorem tokenAlike_iff (guest : isGuestUser settings user.toUser = true) :
    (∀ tableId, (syncGetRlsRules settings state tableId (some user)).Perm
        ((getGuestRlsFilters settings tableId (some user)).map GuestRule.clause)) ↔
        TokenAlike user := by
  have each (tableId : Nat) :
      (syncGetRlsRules settings state tableId (some user)).Perm
          ((getGuestRlsFilters settings tableId (some user)).map GuestRule.clause) ↔
        ∀ rule ∈ user.rlsRules, matchesDataset tableId rule = true → rule.clause ≠ "" := by
    have kept : (user.rlsRules.filter fun rule =>
      rule.clause ≠ "" && matchesDataset tableId rule).map
        GuestRule.clause =
          ((user.rlsRules.filter (matchesDataset tableId)).map GuestRule.clause).filter
            (· ≠ "") := by
      rw [filter_map, filter_filter]
      rfl
    rw [syncGetRlsRules, if_pos guest, getGuestRlsFilters, if_pos guest, sortedClauses_perm, kept,
      perm_filter_self_iff]
    simp only [mem_map, mem_filter, forall_exists_index, and_imp, decide_eq_true_eq]
    exact ⟨fun all rule stored found => all _ rule stored found rfl,
      fun all clause rule stored found same => same ▸ all rule stored found⟩
  rw [forall_congr' each]
  constructor
  · intro alike rule stored empty tableId
    exact Bool.eq_false_iff.mpr fun found => alike tableId rule stored found empty
  · intro alike tableId rule stored found empty
    exact Bool.eq_false_iff.mp (alike rule stored empty tableId) found

end Clauses

section Decisions

variable (settings : Settings) (unicode : Unicode) (state : State) (user : Caller)

/-- The templates give a user the clauses and the datasets that the manager gives. -/
def DecideAlike : Prop :=
  (isGuestUser settings user.toUser = false → ∀ tableId,
      (syncGetRlsRules settings state tableId (some user.toRowUser)).Perm
        (clausesOf (getRlsFilters settings state.directory state.rules tableId
          (some user.toRowUser)))) ∧
    (isGuestUser settings user.toUser = true → ∀ tableId,
      (syncGetRlsRules settings state tableId (some user.toRowUser)).Perm
        ((getGuestRlsFilters settings tableId (some user.toRowUser)).map GuestRule.clause)) ∧
    ∀ dataset, syncUserCanAccessDataset unicode state.grants dataset (some user.toUser) false =
      datasetAccessFilters settings unicode state.toObjects user.toUser dataset

theorem decideAlike_iff :
    DecideAlike settings unicode state user ↔
      (isGuestUser settings user.toUser = false → RowsAlike settings state user.toRowUser) ∧
        (isGuestUser settings user.toUser = true → TokenAlike user.toRowUser) ∧
        AccessAlike settings unicode state.toObjects user.toUser :=
  and_congr (forall_congr' fun member => rowsAlike_iff settings state user.toRowUser member)
    (and_congr (forall_congr' fun guest => tokenAlike_iff settings state user.toRowUser guest)
      (accessAlike_iff settings unicode state.toObjects user.toUser))

end Decisions

def baseRule : State where
  grants := { roles := [⟨1, "Staff"⟩] }
  rules :=
    { filters := [⟨1, .base, none, "tenant = 1"⟩],
      filterRoles := [(1, 1)], filterTables := [(1, 1)] }
  roleNames := by decide
  memberIds := by decide
  dbIds := by decide
  tableIds := by decide
  tableDatabase := by decide
  carried := by decide
  groupRoleRef := by decide
  userRoleRef := by decide

def visitor : Caller where
  toRowUser :=
    { toUser := authenticate {} baseRule.directory.toGrants .anonymous, isAuthenticated := false }
  unsaved := by decide

/-- The manager confines the visitor's rows; the templates see no rule. -/
theorem visitor_unconfined :
    ¬DecideAlike {} ascii baseRule visitor ∧
      clausesOf (getRlsFilters {} baseRule.directory baseRule.rules 1 (some visitor.toRowUser)) =
        ["tenant = 1"] ∧
        syncGetRlsRules {} baseRule 1 (some visitor.toRowUser) = [] := by
  have manager :
    clausesOf (getRlsFilters {} baseRule.directory baseRule.rules 1 (some visitor.toRowUser)) =
      ["tenant = 1"] := by decide
  have templates : syncGetRlsRules {} baseRule 1 (some visitor.toRowUser) = [] := by decide
  refine ⟨fun alike => ?_, manager, templates⟩
  have same := alike.1 (by decide) 1
  rw [manager, templates] at same
  exact absurd same.length_eq (by decide)

end Liteset.Security.JinjaAccess
