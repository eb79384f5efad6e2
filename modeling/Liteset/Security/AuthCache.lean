import Liteset.Lib.Runs

/-!
# The Redis-backed auth cache

`AuthenticationMiddleware` resolves a user from Redis or from the metadata
database (`middleware/auth.py`) while administrators commit changes and then
invalidate the cache (`security/auth_cache.py`).  A request is a list of awaits:
the `MGET` of entry and epoch, one step per database statement of
`_resolve_user_from_db`, the epoch read and the `SET` of `_cache_user`.  The
steps of all requests and administrators interleave freely.

`version` counts commits.  `readAt` is the version at which the first statement
of a load ran; it travels with the entry and with the request, and no step of
the program looks at it.  Redis is available and nothing expires.
-/

set_option autoImplicit false

namespace Liteset.Security.AuthCache

structure Role where
  id : Nat
  name : String
  deriving DecidableEq, Repr

/-- The columns of `ab_user` that a login reads; `active` is nullable. -/
structure UserRow where
  id : Nat
  username : String
  active : Option Bool
  deriving DecidableEq, Repr

/-- `rolePermission` is the join of `ab_permission_view_role` with the names of
its permission and view menu. -/
structure SecurityDb where
  users : List UserRow := []
  roles : List Role := []
  userRole : List (Nat × Nat) := []
  userGroup : List (Nat × Nat) := []
  groupRole : List (Nat × Nat) := []
  rolePermission : List (Nat × (String × String)) := []
  deriving DecidableEq, Repr

namespace SecurityDb

variable (db : SecurityDb)

def getUserById (userId : Nat) : Option UserRow :=
  db.users.find? fun u => u.id = userId

def rolesOf (roleIds : List Nat) : List Role :=
  roleIds.flatMap fun id => db.roles.filter fun r => r.id = id

def permissionsOf (roleIds : List Nat) : List (String × String) :=
  roleIds.flatMap fun id => (db.rolePermission.filter fun g => g.1 = id).map Prod.snd

def roleIdsOf (userId : Nat) : List Nat :=
  (db.userRole.filter fun ur => ur.1 = userId).map Prod.snd

/-- The eager load of `User.roles`. -/
def userRoles (userId : Nat) : List Role := db.rolesOf (db.roleIdsOf userId)

def getAllPermissionsForUser (userId : Nat) : List (String × String) :=
  db.permissionsOf (db.roleIdsOf userId)

def getUserGroups (userId : Nat) : List Nat :=
  (db.userGroup.filter fun ug => ug.1 = userId).map Prod.snd

def groupRoleIds (groupId : Nat) : List Nat :=
  (db.groupRole.filter fun gr => gr.1 = groupId).map Prod.snd

def getGroupRoles (groupId : Nat) : List Role := db.rolesOf (db.groupRoleIds groupId)

def getGroupPermissions (userId : Nat) : List (String × String) :=
  db.permissionsOf ((db.getUserGroups userId).flatMap db.groupRoleIds)

def getPermissionsForRoleName (roleName : String) : List (String × String) :=
  db.permissionsOf ((db.roles.filter fun r => r.name = roleName).map Role.id)

end SecurityDb

/-- `CachedUser`, and `UnauthenticatedUser` with id 0 and no name. -/
structure CachedUser where
  id : Nat := 0
  username : String := ""
  active : Option Bool := some true
  roles : List Role := []
  permissions : List (String × String) := []
  deriving DecidableEq, Repr

/-- The signed JSON of `_cache_user` and of `_cache_public_role_perms`. -/
inductive Payload where
  | user (epoch : String) (user : CachedUser)
  | publicRole (epoch role : String) (permissions : List (String × String))
  deriving DecidableEq, Repr

def Payload.epoch : Payload → String
  | .user epoch _ => epoch
  | .publicRole epoch _ _ => epoch

structure Envelope where
  sig : String
  data : Payload
  readAt : Nat
  deriving DecidableEq, Repr

structure Redis where
  epoch : Option Nat := none
  entries : List (String × Envelope) := []
  deriving DecidableEq, Repr

namespace Redis

variable (redis : Redis)

def get (key : String) : Option Envelope :=
  (redis.entries.find? fun e => e.1 = key).map Prod.snd

def set (key : String) (envelope : Envelope) : Redis :=
  { redis with entries := (key, envelope) :: redis.entries.filter fun e => e.1 ≠ key }

def delete (keys : List String) : Redis :=
  { redis with entries := redis.entries.filter fun e => e.1 ∉ keys }

/-- `INCR auth:cache_epoch`; an unset counter counts as zero. -/
def incrEpoch : Redis := { redis with epoch := some (redis.epoch.getD 0 + 1) }

end Redis

def asCacheStr : Option Nat → String
  | none => ""
  | some n => toString n

def readAuthEpoch (redis : Redis) : String := asCacheStr redis.epoch

def userCacheKey (userId : Nat) : String := "auth:user:" ++ toString userId

def PUBLIC_ROLE_CACHE_KEY : String := "auth:public_role_perms"

def userCacheKeys (userId : Nat) (username email : Option String) : List String :=
  [userCacheKey userId] ++
    ((username.filter fun u => u ≠ "").map fun u => "auth:user:" ++ u).toList ++
    ((email.filter fun e => e ≠ "").map fun e => "auth:user:" ++ e).toList

section Signed
-- `sign_keyed_payload` with the secret of the deployment
variable (sign : String → Payload → String)

def verifyKeyedPayload (key : String) (payload : Payload) (signature : String) : Bool :=
  signature ≠ "" && signature = sign key payload

/-- `_get_cached_user`, with the version its data was read at. -/
def getCachedUser (redis : Redis) (key : String) (expectedUserId : Nat) :
    Option (CachedUser × Nat) :=
  match redis.get key with
  | none => none
  | some envelope =>
    if verifyKeyedPayload sign key envelope.data envelope.sig then
      match envelope.data with
      | .publicRole _ _ _ => none
      | .user epoch user =>
        if epoch ≠ asCacheStr redis.epoch then none
        else if user.id ≠ expectedUserId then none
        else if user.active = some true then some (user, envelope.readAt)
        else none
    else none

/-- `roles = [_CachedRole(id=0, name=role_name)] if permissions else []` -/
def publicUser (roleName : String) (permissions : List (String × String)) : CachedUser :=
  { active := none
    roles := if permissions = [] then [] else [⟨0, roleName⟩]
    permissions }

/-- `_get_cached_public_role_perms`, as the user `_build_anonymous_user` makes of it. -/
def getCachedPublicRolePerms (redis : Redis) (roleName : String) : Option (CachedUser × Nat) :=
  match redis.get PUBLIC_ROLE_CACHE_KEY with
  | none => none
  | some envelope =>
    if verifyKeyedPayload sign PUBLIC_ROLE_CACHE_KEY envelope.data envelope.sig then
      match envelope.data with
      | .user _ _ => none
      | .publicRole epoch role permissions =>
        if role ≠ roleName then none
        else if epoch ≠ asCacheStr redis.epoch then none
        else some (publicUser roleName permissions, envelope.readAt)
    else none

end Signed

inductive Change where
  | bumpAuthEpoch
  | invalidateUser (userId : Nat) (username email : Option String)
  deriving DecidableEq, Repr

def Change.invalidate (change : Change) (redis : Redis) : Redis :=
  match change with
  | .bumpAuthEpoch => redis.incrEpoch
  | .invalidateUser userId username email => redis.delete (userCacheKeys userId username email)

structure Invalidation where
  change : Change
  version : Nat
  deriving DecidableEq, Repr

inductive Target where
  | user (userId : Nat)
  | publicRole (roleName : String)
  deriving DecidableEq, Repr

/-- Whose roles and permissions the change may concern: everybody's for a role,
group or permission change, one user's for a user change. -/
def Change.Covers (change : Change) (target : Target) : Prop :=
  match change, target with
  | .bumpAuthEpoch, _ => True
  | .invalidateUser userId _ _, .user other => userId = other
  | .invalidateUser _ _ _, .publicRole _ => False

/-- The next await of a request.  The phases between `selectUser` and
`readEpoch` carry the user as far as it is loaded. -/
inductive Phase where
  | lookup
  | selectUser (userId : Nat)
  | selectRoles (user : CachedUser)
  | selectPermissions (user : CachedUser)
  | selectGroupPermissions (user : CachedUser)
  | selectGroups (user : CachedUser)
  | selectGroupRoles (user : CachedUser) (groupId : Nat) (rest : List Nat)
  | selectPublic (roleName : String)
  | readEpoch (user : CachedUser)
  | set (user : CachedUser) (epoch : String)
  | done (user : Option CachedUser)
  deriving DecidableEq, Repr

/-- `since` lists the invalidation calls that had returned when the request
started. -/
structure Request where
  target : Target
  since : List Invalidation
  phase : Phase := .lookup
  readAt : Nat := 0
  deriving DecidableEq, Repr

structure State where
  db : SecurityDb
  redis : Redis
  version : Nat := 0
  requests : List Request := []
  pending : List Invalidation := []
  returned : List Invalidation := []
  deriving DecidableEq, Repr

/-- `roles.setdefault(…)` for the roles of one group. -/
def addRoles (roles groupRoles : List Role) : List Role :=
  groupRoles.foldl
    (fun acc role => if acc.any fun r => r.id = role.id then acc else acc ++ [role]) roles

def nextGroup (user : CachedUser) : List Nat → Phase
  | [] => .readEpoch user
  | groupId :: rest => .selectGroupRoles user groupId rest

section Steps
variable (sign : String → Payload → String)

def lookup (redis : Redis) : Target → Option (CachedUser × Nat)
  | .user userId => getCachedUser sign redis (userCacheKey userId) userId
  | .publicRole roleName => getCachedPublicRolePerms sign redis roleName

def cacheKey (target : Target) (user : CachedUser) : String :=
  match target with
  | .user _ => userCacheKey user.id
  | .publicRole _ => PUBLIC_ROLE_CACHE_KEY

def payload (target : Target) (epoch : String) (user : CachedUser) : Payload :=
  match target with
  | .user _ => .user epoch user
  | .publicRole roleName => .publicRole epoch roleName user.permissions

def miss : Target → Phase
  | .user userId => .selectUser userId
  | .publicRole roleName => .selectPublic roleName

def Request.advance (st : State) (r : Request) : Option (Redis × Request) :=
  match r.phase with
  | .lookup =>
    match lookup sign st.redis r.target with
    | some (user, readAt) => some (st.redis, { r with phase := .done (some user), readAt })
    | none => some (st.redis, { r with phase := miss r.target })
  | .selectUser userId =>
    match st.db.getUserById userId with
    | none => some (st.redis, { r with phase := .done none })
    | some row =>
      if row.active = some false then some (st.redis, { r with phase := .done none })
      else
        some (st.redis, { r with
          phase := .selectRoles
            { id := row.id, username := row.username, active := row.active }
          readAt := st.version })
  | .selectRoles user =>
    let user := { user with roles := st.db.userRoles user.id }
    some (st.redis, { r with phase := .selectPermissions user })
  | .selectPermissions user =>
    let user := { user with permissions := st.db.getAllPermissionsForUser user.id }
    some (st.redis, { r with phase := .selectGroupPermissions user })
  | .selectGroupPermissions user =>
    let user := { user with
      permissions := user.permissions ++ st.db.getGroupPermissions user.id }
    some (st.redis, { r with phase := .selectGroups user })
  | .selectGroups user =>
    some (st.redis, { r with phase := nextGroup user (st.db.getUserGroups user.id) })
  | .selectGroupRoles user groupId rest =>
    let user := { user with roles := addRoles user.roles (st.db.getGroupRoles groupId) }
    some (st.redis, { r with phase := nextGroup user rest })
  | .selectPublic roleName =>
    let user := publicUser roleName (st.db.getPermissionsForRoleName roleName)
    some (st.redis, { r with phase := .readEpoch user, readAt := st.version })
  | .readEpoch user => some (st.redis, { r with phase := .set user (readAuthEpoch st.redis) })
  | .set user epoch =>
    let key := cacheKey r.target user
    let data := payload r.target epoch user
    some (st.redis.set key ⟨sign key data, data, r.readAt⟩, { r with phase := .done (some user) })
  | .done _ => none

def Request.dbError (st : State) (r : Request) : Option Request :=
  match r.phase with
  | .selectUser _ | .selectRoles _ | .selectPermissions _ | .selectGroupPermissions _
  | .selectGroups _ | .selectGroupRoles _ _ _ => some { r with phase := .done none }
  | .selectPublic roleName =>
    some { r with phase := .readEpoch (publicUser roleName []), readAt := st.version }
  | .lookup | .readEpoch _ | .set _ _ | .done _ => none

inductive Action where
  | start (target : Target)
  | advance (i : Nat)
  | dbError (i : Nat)
  | commit (change : Change) (db : SecurityDb)
  | invalidate (i : Nat)
  deriving DecidableEq, Repr

def step (st : State) : Action → Option State
  | .start target =>
    -- without a Public role `_build_anonymous_user` returns before any await
    if target = .publicRole "" then none
    else some { st with requests := st.requests ++ [{ target, since := st.returned }] }
  | .advance i =>
    match st.requests[i]? with
    | none => none
    | some r =>
      match r.advance sign st with
      | none => none
      | some (redis, r') => some { st with redis, requests := st.requests.set i r' }
  | .dbError i =>
    match st.requests[i]? with
    | none => none
    | some r =>
      match r.dbError st with
      | none => none
      | some r' => some { st with requests := st.requests.set i r' }
  | .commit change db =>
    some { st with
      db
      version := st.version + 1
      pending := st.pending ++ [⟨change, st.version + 1⟩] }
  | .invalidate i =>
    match st.pending[i]? with
    | none => none
    | some call =>
      some { st with
        redis := call.change.invalidate st.redis
        pending := st.pending.eraseIdx i
        returned := st.returned ++ [call] }

end Steps

def initial (db : SecurityDb) (epoch : Option Nat) : State := { db, redis := { epoch } }

end Liteset.Security.AuthCache
