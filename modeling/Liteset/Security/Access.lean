import Liteset.Security.Metadata

/-!
# Access decisions

The object checks of `security/manager.py` for databases, catalogs, datasources and
dashboards.  Users carry the pairs that the authentication middleware resolved; a user
loaded from the database has none, and `has_access` then asks the roles.
-/

set_option autoImplicit false

namespace Liteset.Security.Access

scoped instance instLawfulBEqIds : LawfulBEq (Nat × Nat) := inferInstance

scoped instance instLawfulBEqNames : LawfulBEq (String × String) := inferInstance

structure Role where
  id : Nat
  name : String
deriving DecidableEq

/-- The `id` of a resource of a guest token. -/
inductive ResourceId where
  | number (value : Int)
  | text (value : String)
deriving DecidableEq

/-- Python `str`. -/
def ResourceId.str : ResourceId → String
  | .number value => toString value
  | .text value => value

structure Resource where
  type : String
  id : ResourceId
deriving DecidableEq

/-- `permissions` is `None` for a user object of the database. -/
structure User where
  id : Option Nat
  roles : List Role := []
  permissions : Option (List (String × String)) := none
  isGuest : Bool := false
  resources : List Resource := []
deriving DecidableEq

structure Settings where
  adminRoleName : String := "Admin"
  publicRoleName : String := "Public"
  guestRoleName : String := "Guest"
  dashboardRbacEnabled : Bool := false
  embeddedSupersetEnabled : Bool := false
deriving DecidableEq

/-- The association tables of users, groups and roles, and the permission and view-menu
names that the joins give for each role. -/
structure Grants where
  roles : List Role := []
  userRoles : List (Nat × Nat) := []
  userGroups : List (Nat × Nat) := []
  groupRoles : List (Nat × Nat) := []
  rolePermissions : List (Nat × String × String) := []
deriving DecidableEq

def Grants.groupRolesOf (grants : Grants) (userId : Nat) : List Role :=
  grants.roles.filter fun role =>
    grants.userGroups.any fun membership =>
      membership.1 = userId && (membership.2, role.id) ∈ grants.groupRoles

def Grants.hasPermissionView (grants : Grants) (permission view : String)
    (roleIds : List Nat) : Bool :=
  roleIds.any fun roleId => (roleId, permission, view) ∈ grants.rolePermissions

def allDatasourceAccess : String := "all_datasource_access"
def allDatabaseAccess : String := "all_database_access"
def databaseAccess : String := "database_access"
def catalogAccess : String := "catalog_access"
def schemaAccess : String := "schema_access"
def datasourceAccess : String := "datasource_access"

def isAdmin (settings : Settings) (user : User) : Bool :=
  user.roles.any fun role => role.name = settings.adminRoleName

def isOwner (settings : Settings) (user : User) (owners : List Nat) : Bool :=
  isAdmin settings user || user.id.any fun id => id ∈ owners

def hasAccess (grants : Grants) (user : User) (permission view : String) : Bool :=
  match user.permissions with
  | some pairs => (permission, view) ∈ pairs
  | none =>
    grants.hasPermissionView permission view
      (user.roles.map Role.id ++ (user.id.elim [] grants.groupRolesOf).map Role.id)

def canAccessAllDatabases (grants : Grants) (user : User) : Bool :=
  hasAccess grants user allDatabaseAccess allDatabaseAccess

def canAccessAllDatasources (grants : Grants) (user : User) : Bool :=
  canAccessAllDatabases grants user || hasAccess grants user allDatasourceAccess allDatasourceAccess

def canAccessDatabase (grants : Grants) (user : User) (database : Database) : Bool :=
  hasAccess grants user allDatasourceAccess allDatasourceAccess
    || hasAccess grants user allDatabaseAccess allDatabaseAccess
    || hasAccess grants user databaseAccess (getDatabasePerm database.id database.databaseName)

def canAccessCatalog (grants : Grants) (user : User) (database : Database)
    (catalog : String) : Bool :=
  canAccessDatabase grants user database
    || hasAccess grants user catalogAccess (bracketed database.databaseName catalog)

structure Datasource where
  perm : Option String := none
  schemaPerm : Option String := none
  catalog : Option String := none
  database : Option Database := none
  owners : List Nat := []
deriving DecidableEq

/-- A grant on a column of the object, which has to be neither `None` nor empty. -/
def holds (grants : Grants) (user : User) (permission : String) (column : Option String) : Bool :=
  truthy column && hasAccess grants user permission (column.getD "")

def canAccessDatasourceSchema (grants : Grants) (user : User) (datasource : Datasource) : Bool :=
  hasAccess grants user allDatasourceAccess allDatasourceAccess
    || datasource.database.any (canAccessDatabase grants user)
    || (truthy datasource.catalog && datasource.database.any fun database =>
        canAccessCatalog grants user database (datasource.catalog.getD ""))
    || holds grants user schemaAccess datasource.schemaPerm

def canAccessDatasource (settings : Settings) (grants : Grants) (user : User)
    (datasource : Datasource) : Bool :=
  hasAccess grants user allDatasourceAccess allDatasourceAccess
    || holds grants user datasourceAccess datasource.perm
    || isOwner settings user datasource.owners
    || canAccessDatasourceSchema grants user datasource

/-- `datasources` is `None` under an asynchronous session; a chart of `slices` has a
datasource or none. -/
structure Dashboard where
  id : Option Nat
  published : Bool := false
  owners : List Nat := []
  roles : List Nat := []
  embedded : List String := []
  datasources : Option (List Datasource) := none
  slices : List (Option Datasource) := []
deriving DecidableEq

def isGuestUser (settings : Settings) (user : User) : Bool :=
  settings.embeddedSupersetEnabled && user.isGuest

def hasResource (user : User) (id : String) : Bool :=
  user.resources.any fun resource => resource.type = "dashboard" && resource.id.str = id

def hasGuestAccess (settings : Settings) (user : User) (dashboard : Dashboard) : Bool :=
  isGuestUser settings user
    && (dashboard.id.any (fun id => hasResource user (toString id))
      || dashboard.embedded.head?.any (hasResource user))

structure SupersetError where
  errorType : String
  message : String
  level : String
deriving DecidableEq

def dashboardAccessErrorObject : SupersetError where
  errorType := "DASHBOARD_SECURITY_ACCESS_ERROR"
  message := "You don't have access to this dashboard."
  level := "warning"

def sharesRole (user : User) (dashboard : Dashboard) : Bool :=
  user.roles.any fun role => role.id ∈ dashboard.roles

section Decisions

variable (settings : Settings) (grants : Grants)

def canAccessSlices (user : User) (slices : List (Option Datasource)) : Bool :=
  slices.isEmpty || slices.any fun slice => slice.any (canAccessDatasource settings grants user)

/-- `raise_for_access(dashboard=…)` -/
def raiseForAccess (dashboard : Dashboard) (user : User) : Except SupersetError Unit :=
  if isGuestUser settings user then
    if hasGuestAccess settings user dashboard then .ok () else .error dashboardAccessErrorObject
  else if isAdmin settings user || isOwner settings user dashboard.owners then .ok ()
  else if settings.dashboardRbacEnabled && !dashboard.roles.isEmpty then
    if dashboard.published && sharesRole user dashboard then .ok ()
    else .error dashboardAccessErrorObject
  else
    match dashboard.datasources with
    | some datasources =>
      if datasources.isEmpty then .ok ()
      else if datasources.any (canAccessDatasource settings grants user) then .ok ()
      else .error dashboardAccessErrorObject
    | none =>
      if canAccessSlices settings grants user dashboard.slices then .ok ()
      else .error dashboardAccessErrorObject

def canAccessDashboard (dashboard : Dashboard) (user : User) : Bool :=
  if isAdmin settings user then true
  else if isGuestUser settings user then hasGuestAccess settings user dashboard
  else if isOwner settings user dashboard.owners then true
  else if settings.dashboardRbacEnabled && !dashboard.roles.isEmpty then
    if !dashboard.published then false else sharesRole user dashboard
  else
    match dashboard.datasources with
    | some datasources =>
      if datasources.isEmpty then true
        else datasources.any (canAccessDatasource settings grants user)
    | none => canAccessSlices settings grants user dashboard.slices

end Decisions

/-- A resource of the token names the dashboard by its id or by its first embedded uuid. -/
def Named (user : User) (dashboard : Dashboard) : Prop :=
  ∃ resource ∈ user.resources, resource.type = "dashboard" ∧
    (dashboard.id.map toString = some resource.id.str ∨
      dashboard.embedded.head? = some resource.id.str)

theorem hasResource_iff (user : User) (id : String) :
    hasResource user id = true ↔
      ∃ resource ∈ user.resources, resource.type = "dashboard" ∧ resource.id.str = id := by
  simp [hasResource]

theorem hasGuestAccess_iff (settings : Settings) (user : User) (dashboard : Dashboard) :
    hasGuestAccess settings user dashboard = true ↔
      isGuestUser settings user = true ∧ Named user dashboard := by
  rw [hasGuestAccess, Bool.and_eq_true, Bool.or_eq_true, Option.any_eq_true, Option.any_eq_true]
  refine and_congr_right fun _ => ⟨?_, ?_⟩
  · rintro (⟨id, known, found⟩ | ⟨uuid, first, found⟩)
    · obtain ⟨resource, member, type, same⟩ := (hasResource_iff user _).mp found
      exact ⟨resource, member, type, Or.inl (by rw [known, same]; rfl)⟩
    · obtain ⟨resource, member, type, same⟩ := (hasResource_iff user _).mp found
      exact ⟨resource, member, type, Or.inr (by rw [first, same])⟩
  · rintro ⟨resource, member, type, byId | byUuid⟩
    · obtain ⟨id, known, same⟩ := Option.map_eq_some_iff.mp byId
      exact Or.inl ⟨id, known, (hasResource_iff user _).mpr ⟨resource, member, type, same.symm⟩⟩
    · exact Or.inr ⟨_, byUuid, (hasResource_iff user _).mpr ⟨resource, member, type, rfl⟩⟩

section Agreement

variable (settings : Settings) (grants : Grants) (dashboard : Dashboard) (user : User)

theorem raiseForAccess_of_member (member : isGuestUser settings user = false) :
    raiseForAccess settings grants dashboard user = .ok () ↔
      canAccessDashboard settings grants dashboard user = true := by
  unfold raiseForAccess canAccessDashboard
  rw [if_neg (by rw [member]; exact Bool.false_ne_true), member]
  cases admin : isAdmin settings user with
  | true => simp
  | false =>
    cases owner : isOwner settings user dashboard.owners with
    | true => simp
    | false =>
      cases gated : settings.dashboardRbacEnabled && !dashboard.roles.isEmpty with
      | true => cases dashboard.published <;> cases sharesRole user dashboard <;> simp
      | false =>
        cases dashboard.datasources with
        | none => cases canAccessSlices settings grants user dashboard.slices <;> simp
        | some datasources =>
          dsimp only
          cases datasources.isEmpty <;>
            cases datasources.any (canAccessDatasource settings grants user) <;> simp

theorem raiseForAccess_of_guest (guest : isGuestUser settings user = true) :
    raiseForAccess settings grants dashboard user = .ok () ↔ Named user dashboard := by
  rw [raiseForAccess, if_pos guest]
  have access := hasGuestAccess_iff settings user dashboard
  cases found : hasGuestAccess settings user dashboard with
  | true => simpa using (access.mp found).2
  | false =>
    simp only [Bool.false_eq_true, if_false, reduceCtorEq, false_iff]
    exact fun named => by simp [access.mpr ⟨guest, named⟩] at found

theorem canAccessDashboard_of_guest (guest : isGuestUser settings user = true) :
    canAccessDashboard settings grants dashboard user = true ↔
      isAdmin settings user = true ∨ Named user dashboard := by
  rw [canAccessDashboard, if_pos guest]
  cases admin : isAdmin settings user with
  | true => simp
  | false => simp [hasGuestAccess_iff, guest]

/-- The guest test comes first in one function and the admin test in the other. -/
theorem decisions_agree_iff :
    (raiseForAccess settings grants dashboard user = .ok () ↔
        canAccessDashboard settings grants dashboard user = true) ↔
      (isGuestUser settings user = true → isAdmin settings user = true → Named user dashboard) := by
  cases guest : isGuestUser settings user with
  | false => simp [raiseForAccess_of_member settings grants dashboard user guest]
  | true =>
    rw [raiseForAccess_of_guest settings grants dashboard user guest,
      canAccessDashboard_of_guest settings grants dashboard user guest]
    tauto

end Agreement

/-- A guest whose role is the Admin role, with a token for another dashboard. -/
theorem decisions_disagree :
    ∃ (settings : Settings) (grants : Grants) (dashboard : Dashboard) (user : User),
      raiseForAccess settings grants dashboard user = .error dashboardAccessErrorObject ∧
        canAccessDashboard settings grants dashboard user = true :=
  ⟨{ guestRoleName := "Admin", embeddedSupersetEnabled := true }, {},
    { id := some 2, published := true },
    { id := some 0, roles := [⟨1, "Admin"⟩], permissions := some [("can_read", "Dashboard"),
      ("can_read", "Chart")], isGuest := true, resources := [⟨"dashboard", .number 1⟩] }, by decide⟩

end Liteset.Security.Access
