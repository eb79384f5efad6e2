import Liteset.Security.Access

/-!
# Access filters of the lists

`db/filters.py`: the SQL conditions that select the dashboards, datasets and charts of a
list, over the rows of the metadata database.  `Objects` holds the rows with the keys of
the schema, and each chart carries the permission strings of its dataset.
-/

set_option autoImplicit false

namespace Liteset.Security.Access

structure DashboardRow where
  id : Nat
  published : Bool
deriving DecidableEq

/-- The association tables list the dataset or the dashboard first; an embedded
configuration is the text of its uuid with the id of its dashboard. -/
structure Objects where
  grants : Grants := {}
  dbs : List Database := []
  tables : List SqlaTable := []
  slices : List Slice := []
  dashboards : List DashboardRow := []
  tableOwners : List (Nat × Nat) := []
  dashboardOwners : List (Nat × Nat) := []
  dashboardRoles : List (Nat × Nat) := []
  dashboardSlices : List (Nat × Nat) := []
  embeddedDashboards : List (String × Nat) := []
  roleNames : (grants.roles.map Role.name).Nodup
  memberIds : ∀ membership ∈ grants.userGroups, 0 < membership.1
  dbIds : (dbs.map Database.id).Nodup
  tableIds : (tables.map SqlaTable.id).Nodup
  tableDatabase : ∀ table ∈ tables, ∃ database ∈ dbs, database.id = table.databaseId
  carried : ∀ slice ∈ slices, ∃ table ∈ tables,
    slice.datasourceType = some "table" ∧ slice.datasourceId = some table.id ∧
      slice.perm = table.perm ∧ slice.schemaPerm = table.schemaPerm ∧
      slice.catalogPerm = table.catalogPerm

def linked (pairs : List (Nat × Nat)) (key : Nat) : List Nat :=
  (pairs.filter fun pair => pair.1 = key).map Prod.snd

namespace Objects

variable (objects : Objects)

def databaseOf (table : SqlaTable) : Option Database :=
  objects.dbs.find? fun database => database.id = table.databaseId

def datasource (table : SqlaTable) : Datasource where
  perm := table.perm
  schemaPerm := table.schemaPerm
  catalog := table.catalog
  database := objects.databaseOf table
  owners := linked objects.tableOwners table.id

/-- The `table` relationship of a chart. -/
def tableOf (slice : Slice) : Option SqlaTable :=
  if slice.datasourceType = some "table" then
    objects.tables.find? fun table => slice.datasourceId = some table.id
  else none

def slicesOf (row : DashboardRow) : List Slice :=
  objects.slices.filter fun slice => slice.id ∈ linked objects.dashboardSlices row.id

def embeddedOf (row : DashboardRow) : List String :=
  (objects.embeddedDashboards.filter fun configuration => configuration.2 = row.id).map Prod.fst

/-- `Dashboard.datasources` of a synchronous session. -/
def datasourcesOf (row : DashboardRow) : List Datasource :=
  (objects.tables.filter fun table => (objects.slicesOf row).any fun slice =>
    slice.datasourceType = some "table" &&
      slice.datasourceId = some table.id).map objects.datasource

def dashboard (async : Bool) (row : DashboardRow) : Dashboard where
  id := some row.id
  published := row.published
  owners := linked objects.dashboardOwners row.id
  roles := linked objects.dashboardRoles row.id
  embedded := objects.embeddedOf row
  datasources := if async then none else some (objects.datasourcesOf row)
  slices := (objects.slicesOf row).map fun slice => (objects.tableOf slice).map objects.datasource

end Objects

namespace Grants

variable (grants : Grants)

def permissionsOf (role : Role) : List (String × String) :=
  (grants.rolePermissions.filter fun grant => grant.1 = role.id).map Prod.snd

def directRolesOf (userId : Nat) : List Role :=
  grants.roles.filter fun role => (userId, role.id) ∈ grants.userRoles

/-- `get_all_permissions_for_user_with_groups` -/
def permissionsForUser (userId : Nat) : List (String × String) :=
  (grants.directRolesOf userId ++ grants.groupRolesOf userId).flatMap grants.permissionsOf

def permissionsForRoleName (name : String) : List (String × String) :=
  (grants.roles.filter fun role => role.name = name).flatMap grants.permissionsOf

def roleByName (name : String) : Option Role := grants.roles.find? fun role => role.name = name

def withRoles (roles others : List Role) : List Role :=
  roles ++ others.filter fun role => role.id ∉ roles.map Role.id

def getUserRoles (user : User) : List Role :=
  user.id.elim user.roles fun id => withRoles user.roles (grants.groupRolesOf id)

end Grants

inductive Login where
  | ordinary (id : Nat) (saved : 0 < id)
  | anonymous
  | guest (resources : List Resource)

def resourcePermissions (resources : List Resource) : List (String × String) :=
  resources.flatMap fun resource =>
    if resource.type = "dashboard" then [("can_read", "Dashboard"), ("can_read", "Chart")]
    else if resource.type = "chart" then [("can_read", "Chart")]
    else []

def authenticate (settings : Settings) (grants : Grants) : Login → User
  | .ordinary id _ =>
    { id := some id
      roles := Grants.withRoles (grants.directRolesOf id) (grants.groupRolesOf id)
      permissions := some (grants.permissionsForUser id) }
  | .anonymous =>
    let permissions :=
      if settings.publicRoleName = "" then []
        else grants.permissionsForRoleName settings.publicRoleName
    { id := some 0
      roles := if permissions.isEmpty then [] else [⟨0, settings.publicRoleName⟩]
      permissions := some permissions }
  | .guest resources =>
    let role := grants.roleByName settings.guestRoleName
    { id := some 0
      roles := role.toList
      permissions := some (resourcePermissions resources ++
        role.elim [] fun _ => grants.permissionsForRoleName settings.guestRoleName)
      isGuest := true
      resources }

/-- The character classes and conversions of Python: the value of a decimal digit,
`str.isdigit` of a character and the uuid, in its own notation, that `uuid.UUID` reads. -/
structure Unicode where
  decimal : Char → Option Nat
  isDigit : Char → Bool
  parseUuid : String → Option String

namespace Unicode

variable (unicode : Unicode)

/-- `int` of decimal digits. -/
def parseInt (digits : List Char) : Option Nat :=
  if digits.isEmpty then none
  else digits.foldl
    (fun number digit => number.bind fun n => (unicode.decimal digit).map (10 * n + ·)) (some 0)

/-- What `$` matches up to: a last line break is left out. -/
def line (text : List Char) : List Char :=
  if text.getLast? = some '\n' then text.dropLast else text

/-- The id of `^\[.+\]\.\(id:(?P<id>\d+)\)$`. -/
def databasePermId (view : String) : Option Nat :=
  let reversed := (line view.toList).reverse
  let digits := (reversed.drop 1).takeWhile fun c => (unicode.decimal c).isSome
  let front := ((reversed.drop 1).dropWhile fun c => (unicode.decimal c).isSome).reverse
  let name := (front.drop 1).take (front.length - 7)
  if reversed.head? = some ')' ∧ front = '[' :: name ++ "].(id:".toList ∧ name ≠ [] ∧
    '\n' ∉ name then
    unicode.parseInt digits.reverse
  else none

end Unicode

section Pairs

variable (settings : Settings) (grants : Grants) (user : User)

/-- The pairs of the role named as public, which `id` 0 stands for. -/
def publicPairs : List (String × String) :=
  if settings.publicRoleName = "" then []
  else (grants.roleByName settings.publicRoleName).elim [] grants.permissionsOf

def userPermissionPairs : List (String × String) :=
  if user.id.getD 0 = 0 then publicPairs settings grants
  else grants.permissionsForUser (user.id.getD 0)

def userViewMenuNames (permission : String) : List String :=
  ((userPermissionPairs settings grants user).filter fun pair => pair.1 = permission).map Prod.snd

theorem mem_userViewMenuNames (permission view : String) :
    view ∈ userViewMenuNames settings grants user permission ↔
      (permission, view) ∈ userPermissionPairs settings grants user := by
  simp only [userViewMenuNames, List.mem_map, List.mem_filter, decide_eq_true_eq]
  constructor
  · rintro ⟨pair, ⟨member, rfl⟩, rfl⟩
    exact member
  · intro member
    exact ⟨_, ⟨member, rfl⟩, rfl⟩

def accessibleDatabaseIds (unicode : Unicode) : List Nat :=
  if isAdmin settings user then []
  else (userViewMenuNames settings grants user databaseAccess).filterMap unicode.databasePermId

end Pairs

/-- SQL `column IN (values)`, not true for a null. -/
def isIn (column : Option String) (values : List String) : Bool :=
  column.any fun text => text ∈ values

theorem isIn_iff (column : Option String) (values : List String) :
    isIn column values = true ↔ ∃ view, column = some view ∧ view ∈ values := by
  cases column <;> simp [isIn]

section Filters

variable (settings : Settings) (unicode : Unicode) (objects : Objects) (user : User)

/-- The alternatives that all three lists share, over the database of the dataset and the
strings of the dataset or the chart. -/
def grantedClause (databaseId : Nat) (perm catalogPerm schemaPerm : Option String) : Bool :=
  databaseId ∈ accessibleDatabaseIds settings objects.grants user unicode
    || isIn perm (userViewMenuNames settings objects.grants user datasourceAccess)
    || isIn catalogPerm (userViewMenuNames settings objects.grants user catalogAccess)
    || isIn schemaPerm (userViewMenuNames settings objects.grants user schemaAccess)

def datasetAccessFilters (table : SqlaTable) : Bool :=
  isAdmin settings user || canAccessAllDatasources objects.grants user
    || grantedClause settings unicode objects user table.databaseId table.perm table.catalogPerm
      table.schemaPerm

def chartAccessFilters (slice : Slice) : Bool :=
  isAdmin settings user || canAccessAllDatasources objects.grants user
    || objects.tables.any (fun table => slice.datasourceId = some table.id
        && table.databaseId ∈ accessibleDatabaseIds settings objects.grants user unicode)
    || isIn slice.perm (userViewMenuNames settings objects.grants user datasourceAccess)
    || isIn slice.catalogPerm (userViewMenuNames settings objects.grants user catalogAccess)
    || isIn slice.schemaPerm (userViewMenuNames settings objects.grants user schemaAccess)

def datasourcePermQuery (row : DashboardRow) : Bool :=
  row.published
    && (!settings.dashboardRbacEnabled || (linked objects.dashboardRoles row.id).isEmpty)
    && (objects.slicesOf row).any fun slice => objects.tables.any fun table =>
        slice.datasourceId = some table.id
          && objects.dbs.any fun database => database.id = table.databaseId
            && (canAccessAllDatasources objects.grants user
              || grantedClause settings unicode objects user database.id slice.perm
                slice.catalogPerm slice.schemaPerm)

def ownerIdsQuery (row : DashboardRow) : Bool :=
  user.id.any fun id => id ∈ linked objects.dashboardOwners row.id

def rolesBasedQuery (row : DashboardRow) : Bool :=
  row.published && (objects.grants.getUserRoles user).any fun role =>
    role.id ∈ linked objects.dashboardRoles row.id

/-- A text that `uuid.UUID` writes; the pattern also lets capitals and a last line break pass. -/
def isUuid : ResourceId → Bool
  | .number _ => false
  | .text text =>
    let chars := Unicode.line text.toList
    (chars.splitOn '-').map List.length = [8, 4, 4, 4, 12]
      && chars.all fun c => c = '-' || c.isDigit || ('a' ≤ c && c ≤ 'f') || ('A' ≤ c && c ≤ 'F')

def bindUuid : ResourceId → Option String
  | .number _ => none
  | .text text => unicode.parseUuid text

/-- The integers of a resource that is no uuid; `int` raises on a digit that is not decimal. -/
def resourceInts : ResourceId → Option (List Int)
  | .number value => some [value]
  | .text text =>
    if text ≠ "" ∧ text.toList.all unicode.isDigit then
      (unicode.parseInt text.toList).map fun n => [(n : Int)]
    else some []

def embeddedDashboardIds : List ResourceId :=
  (user.resources.filter fun resource => resource.type = "dashboard").map Resource.id

/-- The condition for an embedded guest, `none` when building or running it raises. -/
def guestCondition : Option (DashboardRow → Bool) :=
  if (embeddedDashboardIds user).any isUuid then
    ((embeddedDashboardIds user).mapM (bindUuid unicode)).map fun uuids row =>
      (objects.embeddedOf row).any fun uuid => uuid ∈ uuids
  else
    ((embeddedDashboardIds user).mapM (resourceInts unicode)).map fun ints row =>
      (row.id : Int) ∈ ints.flatten

def dashboardAccessFilters : Option (DashboardRow → Bool) :=
  if isAdmin settings user then some fun _ => true
  else
    let flagged := fun row => ownerIdsQuery objects user row
      || datasourcePermQuery settings unicode objects user row
      || (settings.dashboardRbacEnabled && rolesBasedQuery objects user row)
    if isGuestUser settings user then
      (guestCondition unicode objects user).map fun condition row => flagged row || condition row
    else some flagged

end Filters

end Liteset.Security.Access
