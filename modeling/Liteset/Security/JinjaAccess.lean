import Mathlib.Data.List.Sort
import Liteset.Security.RowRules

/-!
# Access decisions inside templates

Templates are rendered synchronously, so `jinja_context.py` decides again what the
security manager decides: which row-level-security clauses hold for a user on a dataset
and whether the user can see a dataset.  Both functions read the same tables as the
manager through a session of their own.
-/

set_option autoImplicit false

namespace Liteset.Security.JinjaAccess

open Access
open RowRules

structure State extends Objects where
  rules : Rules := {}
  groupRoleRef : ∀ link ∈ grants.groupRoles, link.2 ∈ grants.roles.map Role.id
  userRoleRef : ∀ link ∈ grants.userRoles, 0 < link.1 ∧ link.2 ∈ grants.roles.map Role.id

def State.directory (state : State) : Directory where
  toGrants := state.grants
  groupRoleRef := state.groupRoleRef
  userRoleRef := state.userRoleRef

structure Caller extends RowUser where
  unsaved : isAnonymous = true → id.getD 0 = 0

def syncGetUserGroupRoles (grants : Grants) (userId : Nat) : List Role :=
  (grants.groupRolesOf userId).filter fun role => role.name ≠ ""

def collectRoleIds (grants : Grants) (user : User) : List Nat :=
  let direct := user.roles.map Role.id
  match user.id with
  | none => direct
  | some id => direct ++ ((syncGetUserGroupRoles grants id).map Role.id).filter (· ∉ direct)

def sortedClauses (clauses : List String) : List String := clauses.insertionSort (· ≤ ·)

/-- `_sync_get_rls_rules`; no user has no roles. -/
def syncGetRlsRules (settings : Settings) (state : State) (tableId : Nat) :
    Option RowUser → List String
  | none => []
  | some user =>
    if isGuestUser settings user.toUser then
      sortedClauses ((user.rlsRules.filter fun rule =>
        rule.clause ≠ "" && matchesDataset tableId rule).map GuestRule.clause)
    else
      let userRoleIds := collectRoleIds state.grants user.toUser
      if userRoleIds.isEmpty then []
      else
        sortedClauses (((selectFilters state.rules tableId userRoleIds).map
          RowLevelSecurityFilter.clause).filter (· ≠ ""))

def collectRolePermRows (grants : Grants) (roleIds : List Nat) : List (String × String) :=
  (grants.rolePermissions.filter fun grant => grant.1 ∈ roleIds).map Prod.snd

structure AccessSets where
  dbIds : List Nat := []
  datasourcePerms : List String := []
  schemaPerms : List String := []
  catalogPerms : List String := []

def isGlobal (row : String × String) : Bool :=
  row.1 = allDatabaseAccess || row.1 = allDatasourceAccess

def classifyRow (unicode : Unicode) (sets : AccessSets) (row : String × String) : AccessSets :=
  if row.1 = databaseAccess
    then { sets with dbIds := (unicode.databasePermId row.2).toList ++ sets.dbIds }
  else if row.1 = datasourceAccess
    then { sets with datasourcePerms := row.2 :: sets.datasourcePerms }
  else if row.1 = schemaAccess then { sets with schemaPerms := row.2 :: sets.schemaPerms }
  else if row.1 = catalogAccess then { sets with catalogPerms := row.2 :: sets.catalogPerms }
  else sets

/-- `_classify_perm_rows`, which stops at the first global row. -/
def classifyPermRows (unicode : Unicode) : List (String × String) → AccessSets → Bool × AccessSets
  | [], sets => (false, sets)
  | row :: rows, sets =>
    if isGlobal row then (true, sets)
      else classifyPermRows unicode rows (classifyRow unicode sets row)

def granted (column : Option String) (perms : List String) : Bool :=
  truthy column && isIn column perms

def syncUserCanAccessDataset (unicode : Unicode) (grants : Grants) (dataset : SqlaTable)
    (user : Option User)
    (skipBaseFilter : Bool) : Bool :=
  if skipBaseFilter then true
  else
    match user with
    | none => false
    | some user =>
      if user.roles.any fun role => role.name = "Admin" then true
      else if user.id.any fun id => (syncGetUserGroupRoles grants id).any fun role =>
        role.name = "Admin" then true
      else
        let roleIds := collectRoleIds grants user
        if roleIds.isEmpty then false
        else
          match classifyPermRows unicode (collectRolePermRows grants roleIds) {} with
          | (true, _) => true
          | (false, sets) =>
            dataset.databaseId ∈ sets.dbIds
              || granted dataset.perm sets.datasourcePerms
              || granted dataset.catalogPerm sets.catalogPerms
              || granted dataset.schemaPerm sets.schemaPerms

end Liteset.Security.JinjaAccess
