import Liteset.Security.AccessLists

/-!
# What the lists show can be opened

A filter finds a dataset through pairs of a permission and a view-menu name (`Reaches`);
the checks open it through pairs as well (`Opens`), but derive the names afresh.  The
lists of a user are safe where the filters and the checks read the same pairs by the same
names, and where an embedded guest finds dashboards only as the token writes them.
-/

set_option autoImplicit false

namespace Liteset.Security.Access

open List

inductive Reaches (unicode : Unicode) (table : SqlaTable) : String × String → Prop
  | database {view : String} (parsed : unicode.databasePermId view = some table.databaseId) :
      Reaches unicode table (databaseAccess, view)
  | dataset {view : String} (column : table.perm = some view) :
      Reaches unicode table (datasourceAccess, view)
  | catalog {view : String} (column : table.catalogPerm = some view) :
      Reaches unicode table (catalogAccess, view)
  | schema {view : String} (column : table.schemaPerm = some view) :
      Reaches unicode table (schemaAccess, view)

inductive Opens (objects : Objects) (table : SqlaTable) : String × String → Prop
  | database {database : Database} (found : objects.databaseOf table = some database) :
      Opens objects table (databaseAccess, getDatabasePerm database.id database.databaseName)
  | dataset {view : String} (column : table.perm = some view) (text : view ≠ "") :
      Opens objects table (datasourceAccess, view)
  | catalog {database : Database} {catalog : String}
      (found : objects.databaseOf table = some database)
      (column : table.catalog = some catalog) (text : catalog ≠ "") :
      Opens objects table (catalogAccess, bracketed database.databaseName catalog)
  | schema {view : String} (column : table.schemaPerm = some view) (text : view ≠ "") :
      Opens objects table (schemaAccess, view)

def Openable (settings : Settings) (objects : Objects) (user : User) (table : SqlaTable) : Prop :=
  canAccessAllDatasources objects.grants user = true ∨
    isOwner settings user (linked objects.tableOwners table.id) = true ∨
      ∃ permission view, hasAccess objects.grants user permission view = true ∧
        Opens objects table (permission, view)

theorem holds_iff (grants : Grants) (user : User) (permission : String) (column : Option String) :
    holds grants user permission column = true ↔
      ∃ view, column = some view ∧ view ≠ "" ∧ hasAccess grants user permission view = true := by
  cases column with
  | none => simp [holds, truthy]
  | some view => simp [holds, truthy]

section Datasets

variable (settings : Settings) (objects : Objects) (user : User) (table : SqlaTable)

theorem databaseOf_isSome (member : table ∈ objects.tables) :
    ∃ database, objects.databaseOf table = some database := by
  obtain ⟨database, stored, same⟩ := objects.tableDatabase table member
  refine Option.isSome_iff_exists.mp (find?_isSome.mpr ⟨database, stored, ?_⟩)
  simpa using same

theorem canAccessDatabase_iff (database : Database) :
    canAccessDatabase objects.grants user database = true ↔
      canAccessAllDatasources objects.grants user = true ∨
        hasAccess objects.grants user databaseAccess
          (getDatabasePerm database.id database.databaseName) = true := by
  simp only [canAccessDatabase, canAccessAllDatasources, canAccessAllDatabases, Bool.or_eq_true]
  tauto

theorem canAccessDatasource_iff (member : table ∈ objects.tables) :
    canAccessDatasource settings objects.grants user (objects.datasource table) = true ↔
      Openable settings objects user table := by
  obtain ⟨database, found⟩ := databaseOf_isSome objects table member
  simp only [canAccessDatasource, canAccessDatasourceSchema, canAccessCatalog,
    Objects.datasource, found,
    Option.any_some, Bool.or_eq_true, Bool.and_eq_true, holds_iff, canAccessDatabase_iff, Openable]
  constructor
  · rintro (((every | ⟨view, column, text, held⟩) | owner) |
      (((every | every | held) | ⟨named, (every | held) | held⟩) | ⟨view, column, text, held⟩))
    · exact .inl (by simp [canAccessAllDatasources, every])
    · exact .inr (.inr ⟨_, _, held, .dataset column text⟩)
    · exact .inr (.inl owner)
    · exact .inl (by simp [canAccessAllDatasources, every])
    · exact .inl every
    · exact .inr (.inr ⟨_, _, held, .database found⟩)
    · exact .inl every
    · exact .inr (.inr ⟨_, _, held, .database found⟩)
    · cases column : table.catalog with
      | none => simp [column, truthy] at named
      | some catalog =>
        rw [column] at held
        exact .inr (.inr ⟨_, _, held,
          .catalog found column (by simpa [column, truthy] using named)⟩)
    · exact .inr (.inr ⟨_, _, held, .schema column text⟩)
  · rintro (every | owner | ⟨permission, view, held, opens⟩)
    · exact .inr (.inl (.inl (.inr (.inl every))))
    · exact .inl (.inr owner)
    · cases opens with
      | database same =>
        cases Option.some.inj (found.symm.trans same)
        exact .inr (.inl (.inl (.inr (.inr held))))
      | dataset column text => exact .inl (.inl (.inr ⟨view, column, text, held⟩))
      | catalog same column text =>
        cases Option.some.inj (found.symm.trans same)
        exact .inr (.inl
          (.inr ⟨by simp [column, truthy, text], .inr (by simpa [column] using held)⟩))
      | schema column text => exact .inr (.inr ⟨view, column, text, held⟩)

end Datasets

section Clauses

variable (settings : Settings) (unicode : Unicode) (objects : Objects) (user : User)

theorem mem_accessibleDatabaseIds (member : isAdmin settings user = false) (id : Nat) :
    id ∈ accessibleDatabaseIds settings objects.grants user unicode ↔
      ∃ view, (databaseAccess, view) ∈ userPermissionPairs settings objects.grants user ∧
        unicode.databasePermId view = some id := by
  simp only [accessibleDatabaseIds, member, Bool.false_eq_true, if_false, mem_filterMap,
    mem_userViewMenuNames]

theorem grantedClause_iff (member : isAdmin settings user = false) (table : SqlaTable) :
    grantedClause settings unicode objects user table.databaseId table.perm table.catalogPerm
        table.schemaPerm = true ↔
      ∃ pair ∈ userPermissionPairs settings objects.grants user, Reaches unicode table pair := by
  simp only [grantedClause, Bool.or_eq_true, decide_eq_true_eq, isIn_iff, mem_userViewMenuNames,
    mem_accessibleDatabaseIds settings unicode objects user member]
  constructor
  · rintro (((⟨view, held, parsed⟩ | ⟨view, column, held⟩) | ⟨view, column, held⟩) |
      ⟨view, column, held⟩)
    · exact ⟨_, held, .database parsed⟩
    · exact ⟨_, held, .dataset column⟩
    · exact ⟨_, held, .catalog column⟩
    · exact ⟨_, held, .schema column⟩
  · rintro ⟨pair, held, reaches⟩
    cases reaches with
    | database parsed => exact .inl (.inl (.inl ⟨_, held, parsed⟩))
    | dataset column => exact .inl (.inl (.inr ⟨_, column, held⟩))
    | catalog column => exact .inl (.inr ⟨_, column, held⟩)
    | schema column => exact .inr ⟨_, column, held⟩

theorem datasetAccessFilters_iff (member : isAdmin settings user = false) (table : SqlaTable) :
    datasetAccessFilters settings unicode objects user table = true ↔
      canAccessAllDatasources objects.grants user = true ∨
        ∃ pair ∈ userPermissionPairs settings objects.grants user, Reaches unicode table pair := by
  rw [← grantedClause_iff settings unicode objects user member table, datasetAccessFilters, member]
  simp

end Clauses

section Lists

variable (settings : Settings) (unicode : Unicode) (objects : Objects) (user : User)

/-- A pair that the filters read for the user, and by which they reach a dataset, is one
that the user holds and that the checks ask for on this dataset: the view-menu name is that
of its database, its catalog, or a column that is no empty text. -/
def PairsMatch : Prop :=
  isAdmin settings user = false → canAccessAllDatasources objects.grants user = false →
    ∀ table ∈ objects.tables, ∀ pair ∈ userPermissionPairs settings objects.grants user,
      Reaches unicode table pair →
        hasAccess objects.grants user pair.1 pair.2 = true ∧ Opens objects table pair

theorem openable_of_match (matched : PairsMatch settings unicode objects user)
    {table : SqlaTable} (member : table ∈ objects.tables) {pair : String × String}
    (held : pair ∈ userPermissionPairs settings objects.grants user)
    (reaches : Reaches unicode table pair) : Openable settings objects user table := by
  cases admin : isAdmin settings user with
  | true => exact .inr (.inl (by simp [isOwner, admin]))
  | false =>
    cases every : canAccessAllDatasources objects.grants user with
    | true => exact .inl every
    | false =>
      obtain ⟨access, opens⟩ := matched admin every table member pair held reaches
      exact .inr (.inr ⟨pair.1, pair.2, access, opens⟩)

theorem datasets_open (matched : PairsMatch settings unicode objects user) (table : SqlaTable)
    (member : table ∈ objects.tables)
    (listed : datasetAccessFilters settings unicode objects user table = true) :
    canAccessDatasource settings objects.grants user (objects.datasource table) = true := by
  rw [canAccessDatasource_iff settings objects user table member]
  cases admin : isAdmin settings user with
  | true => exact .inr (.inl (by simp [isOwner, admin]))
  | false =>
    rcases (datasetAccessFilters_iff settings unicode objects user admin table).mp listed with
      every | ⟨pair, held, reaches⟩
    · exact .inl every
    · exact openable_of_match settings unicode objects user matched member held reaches

theorem tableOf_slice (slice : Slice) (member : slice ∈ objects.slices) :
    ∃ table ∈ objects.tables, objects.tableOf slice = some table ∧
    slice.datasourceId = some table.id ∧
      slice.perm = table.perm ∧ slice.schemaPerm = table.schemaPerm ∧
      slice.catalogPerm = table.catalogPerm := by
  obtain ⟨table, stored, type, id, perm, schemaPerm, catalogPerm⟩ := objects.carried slice member
  refine ⟨table, stored, ?_, id, perm, schemaPerm, catalogPerm⟩
  rw [Objects.tableOf, if_pos type]
  have exists_ : (objects.tables.find? fun other => slice.datasourceId = some other.id).isSome :=
    find?_isSome.mpr ⟨table, stored, by simp [id]⟩
  obtain ⟨other, found⟩ := Option.isSome_iff_exists.mp exists_
  have same : other.id = table.id := by
    have matched := find?_some found
    simpa [id, eq_comm] using matched
  rw [found, inj_on_of_nodup_map objects.tableIds (mem_of_find?_eq_some found) stored same]

theorem table_eq (slice : Slice) (table other : SqlaTable) (stored : table ∈ objects.tables)
    (joined : other ∈ objects.tables) (left : slice.datasourceId = some table.id)
    (right : slice.datasourceId = some other.id) : other = table :=
  inj_on_of_nodup_map objects.tableIds joined stored (Option.some.inj (right.symm.trans left))

theorem chart_listed (slice : Slice) (table : SqlaTable) (member : slice ∈ objects.slices)
    (found : objects.tableOf slice = some table)
    (listed : chartAccessFilters settings unicode objects user slice = true) :
    datasetAccessFilters settings unicode objects user table = true := by
  obtain ⟨own, stored, foundOwn, id, perm, schemaPerm, catalogPerm⟩ :=
    tableOf_slice objects slice member
  cases Option.some.inj (found.symm.trans foundOwn)
  simp only [chartAccessFilters, Bool.or_eq_true, any_eq_true, Bool.and_eq_true, decide_eq_true_eq,
    perm, schemaPerm, catalogPerm] at listed
  simp only [datasetAccessFilters, grantedClause, Bool.or_eq_true, decide_eq_true_eq]
  rcases listed with ((((admin | every) | ⟨other, joined, same, reached⟩) | held) | held) | held
  · exact .inl (.inl admin)
  · exact .inl (.inr every)
  · cases table_eq objects slice table other stored joined id same
    exact .inr (.inl (.inl (.inl reached)))
  · exact .inr (.inl (.inl (.inr held)))
  · exact .inr (.inl (.inr held))
  · exact .inr (.inr held)

theorem roleId_withRoles (roles others : List Role) (role : Role) (member : role ∈ others) :
    role.id ∈ (Grants.withRoles roles others).map Role.id := by
  rw [Grants.withRoles, map_append, mem_append]
  by_cases known : role.id ∈ roles.map Role.id
  · exact .inl known
  · exact .inr (mem_map_of_mem (mem_filter.mpr ⟨member, by simpa using known⟩))

theorem groupRolesOf_zero : objects.grants.groupRolesOf 0 = [] := by
  rw [Grants.groupRolesOf, filter_eq_nil_iff]
  intro role _ joined
  obtain ⟨membership, member, zero⟩ := any_eq_true.mp joined
  have positive := objects.memberIds membership member
  simp only [Bool.and_eq_true, decide_eq_true_eq] at zero
  omega

theorem roleId_getUserRoles (login : Login) (role : Role)
    (member : role ∈ objects.grants.getUserRoles (authenticate settings objects.grants login)) :
    role.id ∈ (authenticate settings objects.grants login).roles.map Role.id := by
  cases login with
  | ordinary id saved =>
    rcases mem_append.mp member with direct | joined
    · exact mem_map_of_mem direct
    · exact roleId_withRoles _ _ role (mem_filter.mp joined).1
  | anonymous =>
    simp only [Grants.getUserRoles, authenticate, Option.elim_some, groupRolesOf_zero,
      Grants.withRoles, filter_nil, append_nil] at member
    exact mem_map_of_mem member
  | guest resources =>
    simp only [Grants.getUserRoles, authenticate, Option.elim_some, groupRolesOf_zero,
      Grants.withRoles, filter_nil, append_nil] at member
    exact mem_map_of_mem member

theorem sharesRole_of_getUserRoles (login : Login) (async : Bool) (row : DashboardRow) (role : Role)
    (held : role ∈ objects.grants.getUserRoles (authenticate settings objects.grants login))
    (shared : role.id ∈ linked objects.dashboardRoles row.id) :
    sharesRole (authenticate settings objects.grants login) (objects.dashboard async row) =
      true := by
  obtain ⟨own, member, same⟩ := mem_map.mp (roleId_getUserRoles settings objects login role held)
  exact any_eq_true.mpr ⟨own, member, by simpa [same, Objects.dashboard] using shared⟩

inductive Flagged (row : DashboardRow) : Prop
  | owner {id : Nat} (known : user.id = some id)
      (owned : id ∈ linked objects.dashboardOwners row.id)
  | role {role : Role} (rbac : settings.dashboardRbacEnabled = true)
      (published : row.published = true)
      (held : role ∈ objects.grants.getUserRoles user)
      (shared : role.id ∈ linked objects.dashboardRoles row.id)
  | chart {slice : Slice} {table : SqlaTable} (published : row.published = true)
      (ungated : settings.dashboardRbacEnabled = true → linked objects.dashboardRoles row.id = [])
      (charted : slice ∈ objects.slicesOf row) (found : objects.tableOf slice = some table)
      (granted : canAccessAllDatasources objects.grants user = true ∨
        ∃ pair ∈ userPermissionPairs settings objects.grants user, Reaches unicode table pair)

theorem datasourcePermQuery_iff (member : isAdmin settings user = false) (row : DashboardRow) :
    datasourcePermQuery settings unicode objects user row = true ↔
      row.published = true ∧
      (settings.dashboardRbacEnabled = true → linked objects.dashboardRoles row.id = []) ∧
        ∃ slice ∈ objects.slicesOf row, ∃ table, objects.tableOf slice = some table ∧
          (canAccessAllDatasources objects.grants user = true ∨
            ∃ pair ∈ userPermissionPairs settings objects.grants user,
              Reaches unicode table pair) := by
  have gate : (!settings.dashboardRbacEnabled || (linked objects.dashboardRoles row.id).isEmpty) =
    true ↔
      (settings.dashboardRbacEnabled = true → linked objects.dashboardRoles row.id = []) := by
    cases settings.dashboardRbacEnabled <;> simp
  rw [datasourcePermQuery, Bool.and_eq_true, Bool.and_eq_true, gate, and_assoc]
  refine and_congr_right fun _ => and_congr_right fun _ => ?_
  rw [any_eq_true]
  refine exists_congr fun slice => and_congr_right fun charted => ?_
  obtain ⟨table, stored, found, id, perm, schemaPerm, catalogPerm⟩ :=
    tableOf_slice objects slice (mem_filter.mp charted).1
  simp only [any_eq_true, Bool.and_eq_true, Bool.or_eq_true, decide_eq_true_eq, perm, schemaPerm,
    catalogPerm]
  constructor
  · rintro ⟨other, joined, same, database, _, key, granted⟩
    cases table_eq objects slice table other stored joined id same
    rw [key, grantedClause_iff settings unicode objects user member] at granted
    exact ⟨_, found, granted⟩
  · rintro ⟨other, same, granted⟩
    cases Option.some.inj (found.symm.trans same)
    obtain ⟨database, kept, key⟩ := objects.tableDatabase table stored
    refine ⟨table, stored, id, database, kept, key, ?_⟩
    rwa [key, grantedClause_iff settings unicode objects user member]

theorem flagged_iff (member : isAdmin settings user = false) (row : DashboardRow) :
    (ownerIdsQuery objects user row || datasourcePermQuery settings unicode objects user row
        || (settings.dashboardRbacEnabled && rolesBasedQuery objects user row)) = true ↔
      Flagged settings unicode objects user row := by
  simp only [Bool.or_eq_true, Bool.and_eq_true,
    datasourcePermQuery_iff settings unicode objects user member,
    ownerIdsQuery, rolesBasedQuery, Option.any_eq_true, any_eq_true, decide_eq_true_eq]
  constructor
  · rintro ((⟨id, known, owned⟩ | ⟨published, ungated, slice, charted, table, found, granted⟩) |
      ⟨rbac, published, role, held, shared⟩)
    · exact .owner known owned
    · exact .chart published ungated charted found granted
    · exact .role rbac published held shared
  · rintro (⟨known, owned⟩ | ⟨rbac, published, held, shared⟩ |
      ⟨published, ungated, charted, found, granted⟩)
    · exact .inl (.inl ⟨_, known, owned⟩)
    · exact .inr ⟨rbac, published, _, held, shared⟩
    · exact .inl (.inr ⟨published, ungated, _, charted, _, found, granted⟩)

theorem chart_opens (async : Bool) (row : DashboardRow) (slice : Slice) (table : SqlaTable)
    (member : isGuestUser settings user = false)
    (ungated : settings.dashboardRbacEnabled = true → linked objects.dashboardRoles row.id = [])
    (charted : slice ∈ objects.slicesOf row) (found : objects.tableOf slice = some table)
    (access : canAccessDatasource settings objects.grants user (objects.datasource table) = true) :
    canAccessDashboard settings objects.grants (objects.dashboard async row) user = true := by
  have gate : (settings.dashboardRbacEnabled && !(objects.dashboard async row).roles.isEmpty) =
      false := by
    cases rbac : settings.dashboardRbacEnabled with
    | false => rfl
    | true => simp [Objects.dashboard, ungated rbac]
  have walked : (objects.dashboard async row).slices.any
      (fun slice => slice.any (canAccessDatasource settings objects.grants user)) = true :=
    any_eq_true.mpr ⟨_, mem_map_of_mem charted, by simpa [found] using access⟩
  have enumerated :
      (objects.datasourcesOf row).any (canAccessDatasource settings objects.grants user) =
        true := by
    obtain ⟨own, stored, foundOwn, id, _⟩ := tableOf_slice objects slice (mem_filter.mp charted).1
    cases Option.some.inj (found.symm.trans foundOwn)
    have type : slice.datasourceType = some "table" := by
      by_contra other
      simp [Objects.tableOf, other] at found
    refine any_eq_true.mpr ⟨_, mem_map_of_mem (mem_filter.mpr ⟨stored, ?_⟩), access⟩
    exact any_eq_true.mpr ⟨slice, charted, by simp [type, id]⟩
  rw [canAccessDashboard, member, gate]
  cases isAdmin settings user with
  | true => rfl
  | false =>
    cases isOwner settings user (objects.dashboard async row).owners with
    | true => rfl
    | false =>
      cases async with
      | true => exact Bool.or_eq_true_iff.mpr (.inr walked)
      | false => simp only [Objects.dashboard, Bool.false_eq_true, if_false, enumerated, ite_self]

theorem flagged_opens (login : Login) (async : Bool) (row : DashboardRow)
    (matched : PairsMatch settings unicode objects (authenticate settings objects.grants login))
    (member : isGuestUser settings (authenticate settings objects.grants login) = false)
    (flagged : Flagged settings unicode objects (authenticate settings objects.grants login) row) :
    canAccessDashboard settings objects.grants (objects.dashboard async row)
      (authenticate settings objects.grants login) = true := by
  cases flagged with
  | owner known owned =>
    have owner : isOwner settings (authenticate settings objects.grants login)
        (objects.dashboard async row).owners = true := by
      rw [isOwner, Bool.or_eq_true]
      exact .inr (by rw [known]; exact decide_eq_true owned)
    simp [canAccessDashboard, member, owner]
  | role rbac published held shared =>
    have shares := sharesRole_of_getUserRoles settings objects login async row _ held shared
    have gated : (objects.dashboard async row).roles.isEmpty = false := by
      rw [isEmpty_eq_false_iff]
      exact ne_nil_of_mem shared
    have shown : (objects.dashboard async row).published = true := published
    simp [canAccessDashboard, member, rbac, gated, shown, shares]
  | @chart slice table published ungated charted found granted =>
    refine chart_opens settings objects _ async row slice table member ungated charted found ?_
    obtain ⟨own, stored, foundOwn, _⟩ := tableOf_slice objects slice (mem_filter.mp charted).1
    cases Option.some.inj (found.symm.trans foundOwn)
    rw [canAccessDatasource_iff settings objects _ table stored]
    rcases granted with every | ⟨pair, held, reaches⟩
    · exact .inl every
    · exact openable_of_match settings unicode objects _ matched stored held reaches

theorem mem_of_mapM {α β : Type} (f : α → Option β) (xs : List α) (ys : List β)
    (mapped : xs.mapM f = some ys) (y : β) : y ∈ ys ↔ ∃ x ∈ xs, f x = some y := by
  induction xs generalizing ys with
  | nil =>
    cases Option.some.inj mapped
    simp
  | cons x xs ih =>
    rw [mapM_cons] at mapped
    obtain ⟨first, read, mapped⟩ := Option.bind_eq_some_iff.mp mapped
    obtain ⟨rest, readRest, same⟩ := Option.bind_eq_some_iff.mp mapped
    cases Option.some.inj same
    simp [ih rest readRest, read, eq_comm]

theorem some_of_mapM {α β : Type} (f : α → Option β) (xs : List α) (ys : List β)
    (mapped : xs.mapM f = some ys) : ∀ x ∈ xs, ∃ y, f x = some y := by
  induction xs generalizing ys with
  | nil => exact nofun
  | cons x xs ih =>
    rw [mapM_cons] at mapped
    obtain ⟨first, read, mapped⟩ := Option.bind_eq_some_iff.mp mapped
    obtain ⟨rest, readRest, _⟩ := Option.bind_eq_some_iff.mp mapped
    exact forall_mem_cons.mpr ⟨⟨first, read⟩, ih rest readRest⟩

def HoldsUuid : Prop :=
  ∃ resource ∈ user.resources, resource.type = "dashboard" ∧ isUuid resource.id = true

inductive Means (row : DashboardRow) (id : ResourceId) : Prop
  | uuid {uuid : String} (mode : HoldsUuid user) (bound : bindUuid unicode id = some uuid)
      (embedded : uuid ∈ objects.embeddedOf row)
  | number {ints : List Int} (mode : ¬HoldsUuid user) (read : resourceInts unicode id = some ints)
      (member : (row.id : Int) ∈ ints)

theorem mem_embeddedDashboardIds (id : ResourceId) :
    id ∈ embeddedDashboardIds user ↔
      ∃ resource ∈ user.resources, resource.type = "dashboard" ∧ resource.id = id := by
  simp [embeddedDashboardIds, and_assoc]

theorem any_isUuid_iff : (embeddedDashboardIds user).any isUuid = true ↔ HoldsUuid user := by
  simp [embeddedDashboardIds, HoldsUuid]

theorem guestCondition_iff (condition : DashboardRow → Bool)
    (built : guestCondition unicode objects user = some condition) (row : DashboardRow) :
    condition row = true ↔
      ∃ resource ∈ user.resources, resource.type = "dashboard" ∧
      Means unicode objects user row resource.id := by
  unfold guestCondition at built
  split at built
  next uuids =>
      have mode := (any_isUuid_iff user).mp uuids
      obtain ⟨bound, mapped, rfl⟩ := Option.map_eq_some_iff.mp built
      simp only [any_eq_true, decide_eq_true_eq, mem_of_mapM _ _ _ mapped, mem_embeddedDashboardIds]
      constructor
      · rintro ⟨uuid, embedded, _, ⟨resource, member, type, rfl⟩, parsed⟩
        exact ⟨resource, member, type, .uuid mode parsed embedded⟩
      · rintro ⟨resource, member, type, means⟩
        cases means with
        | uuid _ parsed embedded => exact ⟨_, embedded, _, ⟨resource, member, type, rfl⟩, parsed⟩
        | number numeric => exact absurd mode numeric
  next numbers =>
      have mode : ¬HoldsUuid user := fun holds => numbers ((any_isUuid_iff user).mpr holds)
      obtain ⟨ints, mapped, rfl⟩ := Option.map_eq_some_iff.mp built
      simp only [mem_flatten, decide_eq_true_eq, mem_of_mapM _ _ _ mapped, mem_embeddedDashboardIds]
      constructor
      · rintro ⟨read, ⟨_, ⟨resource, member, type, rfl⟩, parsed⟩, inside⟩
        exact ⟨resource, member, type, .number mode parsed inside⟩
      · rintro ⟨resource, member, type, means⟩
        cases means with
        | uuid holds => exact absurd holds mode
        | number _ parsed inside => exact ⟨_, ⟨_, ⟨resource, member, type, rfl⟩, parsed⟩, inside⟩

/-- Every dashboard id of the token converts, so that the filter does not raise. -/
def Readable : Prop :=
  ∀ id ∈ embeddedDashboardIds user,
    (HoldsUuid user → ∃ uuid, bindUuid unicode id = some uuid) ∧
      (¬HoldsUuid user → ∃ ints, resourceInts unicode id = some ints)

theorem readable_of_guestCondition {condition : DashboardRow → Bool}
    (built : guestCondition unicode objects user = some condition) : Readable unicode user := by
  intro id member
  unfold guestCondition at built
  split at built
  · rename_i uuids
    obtain ⟨_, mapped, _⟩ := Option.map_eq_some_iff.mp built
    exact ⟨fun _ => some_of_mapM _ _ _ mapped id member,
      fun none => absurd ((any_isUuid_iff user).mp uuids) none⟩
  · rename_i numbers
    obtain ⟨_, mapped, _⟩ := Option.map_eq_some_iff.mp built
    exact ⟨fun mode => absurd ((any_isUuid_iff user).mpr mode) numbers,
      fun _ => some_of_mapM _ _ _ mapped id member⟩

/-- An embedded guest is not taken for a user of the metadata: nothing but the token leads
to a dashboard, and the token writes it as the check does, by its id or by its first
embedded uuid. -/
def GuestsMatch : Prop :=
  isGuestUser settings user = true → isAdmin settings user = false → Readable unicode user →
    ∀ row ∈ objects.dashboards, ¬Flagged settings unicode objects user row ∧
      ∀ resource ∈ user.resources, resource.type = "dashboard" →
        Means unicode objects user row resource.id →
          resource.id.str = toString row.id ∨ (objects.embeddedOf row).head? = some resource.id.str

theorem named_of_match (matched : GuestsMatch settings unicode objects user)
    (guest : isGuestUser settings user = true) (member : isAdmin settings user = false)
    (readable : Readable unicode user) {row : DashboardRow} (stored : row ∈ objects.dashboards)
    (shown : Flagged settings unicode objects user row ∨
      ∃ resource ∈ user.resources, resource.type = "dashboard" ∧
        Means unicode objects user row resource.id) :
    Named user (objects.dashboard true row) := by
  obtain ⟨unflagged, written⟩ := matched guest member readable row stored
  rcases shown with flagged | ⟨resource, held, type, means⟩
  · exact absurd flagged unflagged
  · refine ⟨resource, held, type, ?_⟩
    rcases written resource held type means with byId | byUuid
    · exact .inl (congrArg some byId.symm)
    · exact .inr byUuid

theorem selected_guest (guest : isGuestUser settings user = true)
    (member : isAdmin settings user = false)
    (selected : DashboardRow → Bool)
    (built : dashboardAccessFilters settings unicode objects user = some selected)
    (row : DashboardRow) :
    selected row = true ↔ Flagged settings unicode objects user row ∨
      ∃ resource ∈ user.resources, resource.type = "dashboard" ∧
      Means unicode objects user row resource.id := by
  simp only [dashboardAccessFilters, member, Bool.false_eq_true, if_false, if_pos guest,
    Option.map_eq_some_iff] at built
  obtain ⟨condition, read, rfl⟩ := built
  rw [← flagged_iff settings unicode objects user member row,
    ← guestCondition_iff unicode objects user condition read row,
    Bool.or_eq_true]

end Lists

section Login

variable (settings : Settings) (unicode : Unicode) (objects : Objects) (login : Login)

/-- Whatever a list of the user shows passes the check of its kind. -/
def ListsOpenable : Prop :=
  let user := authenticate settings objects.grants login
  (∀ (async : Bool) selected, dashboardAccessFilters settings unicode objects user = some selected →
      ∀ row ∈ objects.dashboards, selected row = true →
        canAccessDashboard settings objects.grants (objects.dashboard async row) user = true) ∧
    (∀ table ∈ objects.tables, datasetAccessFilters settings unicode objects user table = true →
      canAccessDatasource settings objects.grants user (objects.datasource table) = true) ∧
    ∀ slice ∈ objects.slices, chartAccessFilters settings unicode objects user slice = true →
      ∃ table, objects.tableOf slice = some table ∧
        canAccessDatasource settings objects.grants user (objects.datasource table) = true

theorem dashboards_open
    (pairs : PairsMatch settings unicode objects (authenticate settings objects.grants login))
    (guests : GuestsMatch settings unicode objects (authenticate settings objects.grants login))
    (async : Bool) (selected : DashboardRow → Bool)
    (built : dashboardAccessFilters settings unicode objects
      (authenticate settings objects.grants login) = some selected)
    (row : DashboardRow) (stored : row ∈ objects.dashboards) (shown : selected row = true) :
    canAccessDashboard settings objects.grants (objects.dashboard async row)
      (authenticate settings objects.grants login) = true := by
  cases admin : isAdmin settings (authenticate settings objects.grants login) with
  | true => simp [canAccessDashboard, admin]
  | false =>
    cases guest : isGuestUser settings (authenticate settings objects.grants login) with
    | true =>
      rw [canAccessDashboard_of_guest _ _ _ _ guest]
      have readable : Readable unicode (authenticate settings objects.grants login) := by
        have raised := built
        simp only [dashboardAccessFilters, admin, Bool.false_eq_true, if_false, if_pos guest,
          Option.map_eq_some_iff] at raised
        obtain ⟨condition, made, _⟩ := raised
        exact readable_of_guestCondition unicode objects _ made
      exact .inr (named_of_match settings unicode objects _ guests guest admin readable stored
        ((selected_guest settings unicode objects _ guest admin selected built row).mp shown))
    | false =>
      simp only [dashboardAccessFilters, admin, guest, Bool.false_eq_true, if_false,
        Option.some.injEq] at built
      subst built
      exact flagged_opens settings unicode objects login async row pairs guest
        ((flagged_iff settings unicode objects _ admin row).mp shown)

/-- What the lists show can be opened where the pairs and the resources that the filters
read match those that the checks ask for. -/
theorem listsOpenable_of_match
    (pairs : PairsMatch settings unicode objects (authenticate settings objects.grants login))
    (guests : GuestsMatch settings unicode objects (authenticate settings objects.grants login)) :
    ListsOpenable settings unicode objects login := by
  have datasets := datasets_open settings unicode objects _ pairs
  refine ⟨fun async selected built row stored shown =>
    dashboards_open settings unicode objects login pairs guests async selected built row stored
      shown, datasets, ?_⟩
  intro slice stored listed
  obtain ⟨table, kept, found, _⟩ := tableOf_slice objects slice stored
  exact ⟨table, found, datasets table kept
    (chart_listed settings unicode objects _ slice table stored found listed)⟩

end Login

def publicObjects : Objects where
  grants :=
    { roles := [⟨1, "Public"⟩], rolePermissions := [(1, datasourceAccess, "[db].[t](id:1)")] }
  dbs := [⟨1, "db"⟩]
  tables := [{ id := 1, tableName := "t", databaseId := 1, perm := some "[db].[t](id:1)" }]
  slices :=
    [{ id := 1, datasourceId := some 1, datasourceType := some "table",
       perm := some "[db].[t](id:1)" }]
  dashboards := [⟨1, true⟩, ⟨2, true⟩]
  dashboardSlices := [(2, 1)]
  roleNames := by decide
  memberIds := by decide
  dbIds := by decide
  tableIds := by decide
  tableDatabase := by decide
  carried := by decide

def ascii : Unicode where
  decimal c := if c.isDigit then some (c.toNat - '0'.toNat) else none
  isDigit := Char.isDigit
  parseUuid text := if isUuid (.text text) then some text else none

/-- An analyst owns nothing and holds one dataset and its catalog. -/
def analystObjects : Objects where
  grants := {
    roles := [⟨1, "Analyst"⟩]
    userRoles := [(4, 1)]
    rolePermissions :=
      [(1, datasourceAccess, "[db].[t](id:1)"), (1, catalogAccess, "[db].[main]")] }
  dbs := [⟨1, "db"⟩]
  tables := [{ id := 1, tableName := "t", databaseId := 1, catalog := some "main"
               perm := some "[db].[t](id:1)", catalogPerm := some "[db].[main]" }]
  slices := [{ id := 1, datasourceId := some 1, datasourceType := some "table"
               perm := some "[db].[t](id:1)", catalogPerm := some "[db].[main]" }]
  dashboards := [⟨1, true⟩, ⟨2, true⟩]
  dashboardSlices := [(2, 1)]
  roleNames := by decide
  memberIds := by decide
  dbIds := by decide
  tableIds := by decide
  tableDatabase := by decide
  carried := by decide

theorem analyst_pairs : userPermissionPairs {} analystObjects.grants
    (authenticate {} analystObjects.grants (.ordinary 4 (by decide))) =
      [(datasourceAccess, "[db].[t](id:1)"), (catalogAccess, "[db].[main]")] := by
  decide

/-- What the analyst is shown, and what a guest with a token for dashboard 1. -/
theorem listsOpenable_analyst :
    ListsOpenable {} ascii analystObjects (.ordinary 4 (by decide)) ∧
      ListsOpenable { embeddedSupersetEnabled := true } ascii analystObjects
        (.guest [⟨"dashboard", .number 1⟩]) := by
  refine ⟨listsOpenable_of_match {} ascii analystObjects _ ?_ ?_,
    listsOpenable_of_match { embeddedSupersetEnabled := true } ascii analystObjects _ ?_ ?_⟩
  · intro _ _ table member pair held _
    rw [analyst_pairs] at held
    cases mem_singleton.mp member
    rcases mem_pair.mp held with rfl | rfl
    · exact ⟨by decide, .dataset rfl (by decide)⟩
    · exact ⟨by decide, @Opens.catalog _ _ ⟨1, "db"⟩ "main" rfl rfl (by decide)⟩
  · intro guest
    exact absurd guest (by decide)
  · intro _ _ _ _ pair held
    exact absurd held
      (by simp [userPermissionPairs, publicPairs, Grants.roleByName, authenticate, analystObjects])
  · intro _ _ _ row stored
    refine ⟨fun flagged => ?_, fun resource held _ means => ?_⟩
    · cases flagged with
      | owner known owned => cases owned
      | role rbac => cases rbac
      | chart published ungated charted found granted =>
        rcases granted with every | ⟨pair, held, _⟩
        · exact absurd every (by decide)
        · exact absurd held
            (by
              simp [userPermissionPairs, publicPairs, Grants.roleByName, authenticate,
                analystObjects])
    · cases mem_singleton.mp held
      cases means with
      | uuid mode => exact absurd mode (by simp [HoldsUuid, authenticate, isUuid])
      | number mode read inside =>
        cases read
        have same : (row.id : Int) = 1 := by simpa using inside
        have id : row.id = 1 := by omega
        exact .inl (by rw [id]; rfl)

/-- A guest has the id of anonymous users, and the filters take it for one. -/
theorem lists_exceed :
    ¬ListsOpenable { embeddedSupersetEnabled := true } ascii publicObjects
      (.guest [⟨"dashboard", .number 1⟩]) ∧
      ∃ selected, dashboardAccessFilters { embeddedSupersetEnabled := true } ascii publicObjects
          (authenticate { embeddedSupersetEnabled := true } publicObjects.grants
            (.guest [⟨"dashboard", .number 1⟩]))
            = some selected ∧ selected ⟨2, true⟩ = true ∧
        canAccessDashboard { embeddedSupersetEnabled := true } publicObjects.grants
          (publicObjects.dashboard true ⟨2, true⟩)
          (authenticate { embeddedSupersetEnabled := true } publicObjects.grants
            (.guest [⟨"dashboard", .number 1⟩]))
            = false := by
  refine ⟨?_, _, rfl, by decide, by decide⟩
  rintro ⟨_, datasets, _⟩
  have access := datasets _ (mem_singleton.mpr rfl) (by decide)
  revert access
  decide

end Liteset.Security.Access
