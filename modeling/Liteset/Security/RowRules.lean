import Liteset.Lib.Groups
import Liteset.Lib.Kleene
import Liteset.Security.AccessLists

/-!
# Row-level-security conditions

The two builders of WHERE conditions: `compose_rls_where_clauses` with the asynchronous
security manager and `compose_rls_text_clauses` with synchronous sessions.  Each resolves
the user's roles, selects the rules of the dataset, renders their clauses and groups them.
A clause is text in parentheses; what a row makes of that text is a parameter.
-/

set_option autoImplicit false

namespace Liteset.Security.RowRules

open Lib
open Access

inductive FilterType where
  | regular
  | base
deriving DecidableEq

structure RowLevelSecurityFilter where
  id : Nat
  filterType : FilterType
  groupKey : Option String := none
  clause : String
deriving DecidableEq

structure Rules where
  filters : List RowLevelSecurityFilter := []
  filterRoles : List (Nat × Nat) := []
  filterTables : List (Nat × Nat) := []
deriving DecidableEq

/-- A rule of a guest token; `dataset` is an id as number or text. -/
structure GuestRule where
  dataset : Option ResourceId := none
  clause : String := ""
deriving DecidableEq

structure RowUser extends User where
  isAnonymous : Bool := false
  isAuthenticated : Bool := true
  rlsRules : List GuestRule := []
deriving DecidableEq

structure Directory extends Grants where
  groupRoleRef : ∀ link ∈ groupRoles, link.2 ∈ roles.map Role.id
  userRoleRef : ∀ link ∈ userRoles, 0 < link.1 ∧ link.2 ∈ roles.map Role.id

def anonymous (user : RowUser) : Bool := user.isAnonymous || !user.isAuthenticated

def publicRoleIds (settings : Settings) (directory : Directory) : List Nat :=
  if settings.publicRoleName = "" then []
  else ((directory.roleByName settings.publicRoleName).map Role.id).toList

/-- `_resolve_user_roles_for_rls`, `None` for no user. -/
def resolveUserRolesForRls (settings : Settings) (directory : Directory) (user : Option RowUser) :
    Option (List Nat) :=
  user.map fun user =>
    if !anonymous user then (directory.getUserRoles user.toUser).map Role.id
    else publicRoleIds settings directory

def groupRoleIds (directory : Directory) (userId : Nat) : List Nat :=
  ((directory.userGroups.filter fun membership => membership.1 = userId).flatMap fun membership =>
    (directory.groupRoles.filter fun link => link.1 = membership.2).map Prod.snd)

def syncResolveUserRoleIds (settings : Settings) (directory : Directory) (user : Option RowUser) :
    Option (List Nat) :=
  user.map fun user =>
    if !anonymous user then
      match user.id with
      | none => user.roles.map Role.id
      | some id =>
        (if user.roles.isEmpty then
          (directory.userRoles.filter fun link => link.1 = id).map Prod.snd
        else user.roles.map Role.id) ++ groupRoleIds directory id
    else publicRoleIds settings directory

def filterRolesOfType (rules : Rules) (type : FilterType) (userRoles : List Nat) : List Nat :=
  (rules.filterRoles.filter fun link => link.2 ∈ userRoles
    && rules.filters.any fun rule => rule.id = link.1 && rule.filterType = type).map Prod.fst

def selectFilters (rules : Rules) (tableId : Nat) (userRoles : List Nat) :
    List RowLevelSecurityFilter :=
  rules.filters.filter fun rule =>
    (rule.id, tableId) ∈ rules.filterTables
      && ((rule.filterType = .regular && rule.id ∈ filterRolesOfType rules .regular userRoles)
        || (rule.filterType = .base && rule.id ∉ filterRolesOfType rules .base userRoles))

def getRlsFilters (settings : Settings) (directory : Directory) (rules : Rules) (tableId : Nat)
    (user : Option RowUser) : List RowLevelSecurityFilter :=
  match resolveUserRolesForRls settings directory user with
  | none => []
  | some roles => selectFilters rules tableId roles

def syncGetRlsFiltersForUser (rules : Rules) (tableId : Nat) (userRoleIds : List Nat) :
    List RowLevelSecurityFilter :=
  selectFilters rules tableId userRoleIds

/-- Python truth of the `dataset` of a rule. -/
def truthyId : Option ResourceId → Bool
  | none => false
  | some (.number value) => value ≠ 0
  | some (.text value) => value ≠ ""

def matchesDataset (tableId : Nat) (rule : GuestRule) : Bool :=
  !truthyId rule.dataset || rule.dataset.any fun id => id.str = toString tableId

def getGuestRlsFilters (settings : Settings) (tableId : Nat) (user : Option RowUser) :
    List GuestRule :=
  match user with
  | none => []
  | some user =>
    if isGuestUser settings user.toUser then user.rlsRules.filter (matchesDataset tableId) else []

def syncGetGuestRlsClauses (tableId : Nat) (user : RowUser) : List String :=
  if user.isGuest then
    if user.rlsRules.isEmpty then []
      else (user.rlsRules.filter (matchesDataset tableId)).map GuestRule.clause
  else []

structure TemplateProcessor where
  processTemplate : String → Option String
  renderEmpty : processTemplate "" = some ""

inductive ClauseElement where
  | text (rendered : String)
  | or (rendered : List String)
deriving DecidableEq

def addClause (state : List ClauseElement × List (String × List String))
    (item : Option String × String) :
    List ClauseElement × List (String × List String) :=
  if truthy item.1 then (state.1, Groups.add (item.1.getD "") item.2 state.2)
  else (state.1 ++ [.text item.2], state.2)

def assemble (rendered : List (Option String × String)) (guest : List String) :
    List ClauseElement :=
  let state := rendered.foldl addClause ([], [])
  state.1 ++ (guest.filter fun clause => clause ≠ "").map ClauseElement.text
    ++ state.2.map fun group => ClauseElement.or group.2

structure Table where
  id : Nat
  processor : Option TemplateProcessor

/-- `_process`: without a processor, or for an empty clause, the clause itself. -/
def process (processor : Option TemplateProcessor) (clause : String) : Option String :=
  match processor with
  | none => some clause
  | some processor => if clause = "" then some clause else processor.processTemplate clause

def syncProcess (processor : Option TemplateProcessor) (clause : String) : Option String :=
  match processor with
  | none => some clause
  | some processor => processor.processTemplate clause

/-- The rendered clauses in order, `None` when one does not render. -/
def compose (render : String → Option String) (renderGuest : String → Option String)
    (rlsFilters : List RowLevelSecurityFilter) (guestClauses : List String) :
    Option (List ClauseElement) :=
  (rlsFilters.mapM fun rule => (render rule.clause).map fun clause => (rule.groupKey, clause)).bind
    fun rendered =>
    (guestClauses.mapM renderGuest).map fun guest => assemble rendered guest

section Builders

variable (settings : Settings) (directory : Directory) (rules : Rules) (table : Table)
    (user : Option RowUser)

def composeRlsWhereClauses : Option (List ClauseElement) :=
  let rlsFilters := getRlsFilters settings directory rules table.id user
  let guestRules :=
    if settings.embeddedSupersetEnabled then getGuestRlsFilters settings table.id user else []
  compose (process table.processor) (process table.processor) rlsFilters
    (guestRules.map GuestRule.clause)

def composeRlsTextClauses : Option (List ClauseElement) :=
  match user, syncResolveUserRoleIds settings directory user with
  | some user, some userRoleIds =>
    let guestClauses :=
      if settings.embeddedSupersetEnabled then syncGetGuestRlsClauses table.id user else []
    compose (syncProcess table.processor) (process table.processor)
      (syncGetRlsFiltersForUser rules table.id userRoleIds) guestClauses
  | _, _ => some []

end Builders

def ClauseElement.truth (value : String → Option Bool) : ClauseElement → Option Bool
  | .text rendered => value rendered
  | .or rendered => Condition.any3 (rendered.map value)

/-- `and_(*clauses)` -/
def whereTruth (value : String → Option Bool) (clauses : List ClauseElement) : Option Bool :=
  Condition.all3 (clauses.map (ClauseElement.truth value))

end Liteset.Security.RowRules
