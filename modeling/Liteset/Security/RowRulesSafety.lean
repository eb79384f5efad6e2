import Liteset.Security.RowRules

/-!
# The meaning of row-level-security rules

`ruleCondition` says what the rules of a dataset mean for a user on a row.  The
asynchronous builder always gives a condition with that truth value; the synchronous one
does exactly when a user object without roles has no roles of its own in the database.
-/

set_option autoImplicit false

namespace Liteset.Security.RowRules

open Lib List
open Access

def rolesOf (settings : Settings) (directory : Directory) (user : RowUser) : List Nat :=
  if anonymous user then publicRoleIds settings directory
  else user.roles.map Role.id ++ user.id.elim [] (groupRoleIds directory)

def sharesRole (rules : Rules) (roles : List Nat) (rule : RowLevelSecurityFilter) : Bool :=
  rules.filterRoles.any fun link => link.1 = rule.id && link.2 ∈ roles

def applicable (rules : Rules) (tableId : Nat) (roles : List Nat) : List RowLevelSecurityFilter :=
  rules.filters.filter fun rule => (rule.id, tableId) ∈ rules.filterTables &&
    match rule.filterType with
    | .regular => sharesRole rules roles rule
    | .base => !sharesRole rules roles rule

def keysOf (rendered : List (Option String × String)) : List String :=
  (rendered.filter fun item => truthy item.1).map fun item => item.1.getD ""

def meaning (value : String → Option Bool) (rendered : List (Option String × String))
    (guest : List String) :
    Option Bool :=
  Condition.all3
    (((rendered.filter fun item => !truthy item.1).map fun item => value item.2) ++
      guest.map value ++ (keysOf rendered).map fun key =>
        Condition.any3 ((rendered.filter fun item => item.1 = some key).map fun item =>
          value item.2))

def guestClauses (settings : Settings) (tableId : Nat) (user : RowUser) : List String :=
  if isGuestUser settings user.toUser
    then (user.rlsRules.filter (matchesDataset tableId)).map GuestRule.clause
  else []

/-- What the rules make of a row for a user with these roles, `None` when a template does
not render. -/
def conditionOf (settings : Settings) (rules : Rules) (table : Table) (user : RowUser)
    (roles : List Nat)
    (value : String → Option Bool) : Option (Option Bool) :=
  ((applicable rules table.id roles).mapM fun rule =>
      (process table.processor rule.clause).map fun clause =>
        (rule.groupKey, clause)).bind fun rendered =>
    ((guestClauses settings table.id user).mapM (process table.processor)).map fun guest =>
      meaning value rendered (guest.filter fun clause => clause ≠ "")

def ruleCondition (settings : Settings) (directory : Directory) (rules : Rules) (table : Table)
    (user : RowUser)
    (value : String → Option Bool) : Option (Option Bool) :=
  conditionOf settings rules table user (rolesOf settings directory user) value

theorem foldl_addClause (rendered : List (Option String × String)) (all : List ClauseElement)
    (groups : List (String × List String)) :
    rendered.foldl addClause (all, groups) =
      (all ++ (rendered.filter fun item => !truthy item.1).map fun item => .text item.2,
        ((rendered.filter fun item => truthy item.1).map fun item => (item.1.getD "", item.2)).foldl
          (fun groups item => Groups.add item.1 item.2 groups) groups) := by
  induction rendered generalizing all groups with
  | nil => simp
  | cons item rest ih =>
    rw [foldl_cons, addClause]
    cases keyed : truthy item.1 with
    | true => simp [ih, keyed]
    | false => simp [ih, keyed]

theorem valuesOf_keyed (rendered : List (Option String × String)) (key : String) (text : key ≠ "") :
    Groups.valuesOf ((rendered.filter fun item => truthy item.1).map fun item =>
      (item.1.getD "", item.2)) key =
      (rendered.filter fun item => item.1 = some key).map Prod.snd := by
  induction rendered with
  | nil => rfl
  | cons item rest ih =>
    obtain ⟨_ | own, clause⟩ := item
    · simpa [Groups.valuesOf, truthy] using ih
    · by_cases empty : own = ""
      · subst empty
        simpa [Groups.valuesOf, truthy, Ne.symm text] using ih
      · by_cases same : own = key
        · subst same
          simpa [Groups.valuesOf, truthy, empty] using ih
        · simpa [Groups.valuesOf, truthy, empty, same] using ih

theorem ne_empty_of_mem_keysOf (rendered : List (Option String × String)) (key : String)
    (member : key ∈ keysOf rendered) : key ≠ "" := by
  obtain ⟨⟨_ | own, clause⟩, kept, rfl⟩ := mem_map.mp member
  · simp [truthy] at kept
  · simpa [truthy] using (mem_filter.mp kept).2

theorem whereTruth_assemble (value : String → Option Bool)
    (rendered : List (Option String × String))
    (guest : List String) :
    whereTruth value (assemble rendered guest) =
      meaning value rendered (guest.filter fun clause => clause ≠ "") := by
  have keys : ((rendered.filter fun item => truthy item.1).map fun item =>
    (item.1.getD "", item.2)).map Prod.fst =
      keysOf rendered := by
    simp [keysOf]
  rw [whereTruth, assemble, foldl_addClause, meaning]
  simp only [nil_append, map_append, map_map]
  refine Condition.all3_congr fun v => ?_
  simp only [mem_append]
  refine or_congr (or_congr Iff.rfl Iff.rfl) ?_
  simp only [mem_map]
  constructor
  · rintro ⟨⟨key, values⟩, member, rfl⟩
    obtain ⟨known, rfl⟩ := (Groups.mem_collect _ key values).mp member
    rw [keys] at known
    refine ⟨key, known, ?_⟩
    simp only [Function.comp_apply, ClauseElement.truth, map_map,
      valuesOf_keyed rendered key (ne_empty_of_mem_keysOf rendered key known)]
    rfl
  · rintro ⟨key, known, rfl⟩
    refine ⟨(key, _), (Groups.mem_collect _ key _).mpr ⟨keys ▸ known, rfl⟩, ?_⟩
    simp only [Function.comp_apply, ClauseElement.truth, map_map,
      valuesOf_keyed rendered key (ne_empty_of_mem_keysOf rendered key known)]
    rfl

theorem map_compose (value : String → Option Bool) (render renderGuest : String → Option String)
    (rlsFilters : List RowLevelSecurityFilter) (guest : List String) :
    (compose render renderGuest rlsFilters guest).map (whereTruth value) =
      (rlsFilters.mapM fun rule => (render rule.clause).map fun clause =>
        (rule.groupKey, clause)).bind fun rendered =>
        (guest.mapM renderGuest).map fun guest =>
          meaning value rendered (guest.filter fun clause => clause ≠ "") := by
  rw [compose, Option.map_bind]
  refine Option.bind_congr fun rendered _ => ?_
  rw [Function.comp_apply, Option.map_map]
  exact Option.map_congr fun guest _ => whereTruth_assemble value rendered guest

theorem mem_filterRolesOfType (rules : Rules) (roles : List Nat) (rule : RowLevelSecurityFilter)
    (stored : rule ∈ rules.filters) :
    rule.id ∈ filterRolesOfType rules rule.filterType roles ↔
    sharesRole rules roles rule = true := by
  simp only [filterRolesOfType, sharesRole, mem_map, mem_filter, any_eq_true, Bool.and_eq_true,
    decide_eq_true_eq]
  constructor
  · rintro ⟨link, ⟨linked, shared, _⟩, same⟩
    exact ⟨link, linked, same, shared⟩
  · rintro ⟨link, linked, same, shared⟩
    exact ⟨link, ⟨linked, shared, rule, stored, same.symm, rfl⟩, same⟩

theorem selectFilters_eq (rules : Rules) (tableId : Nat) (roles : List Nat) :
    selectFilters rules tableId roles = applicable rules tableId roles := by
  refine filter_congr fun rule stored => ?_
  have shares := mem_filterRolesOfType rules roles rule stored
  cases type : rule.filterType with
  | regular =>
    rw [type] at shares
    simp [shares]
  | base =>
    rw [type] at shares
    simp [shares]

theorem applicable_congr (rules : Rules) (tableId : Nat) (roles others : List Nat)
    (same : ∀ role, role ∈ roles ↔ role ∈ others) :
    applicable rules tableId roles = applicable rules tableId others := by
  have shares : ∀ rule, sharesRole rules roles rule = sharesRole rules others rule := by
    intro rule
    simp only [sharesRole, same]
  simp only [applicable, shares]

section Roles

variable (settings : Settings) (directory : Directory) (user : RowUser)

theorem mem_groupRoleIds (userId role : Nat) :
    role ∈ groupRoleIds directory userId ↔ role ∈ (directory.groupRolesOf userId).map Role.id := by
  simp only [groupRoleIds, Grants.groupRolesOf, mem_flatMap, mem_map, mem_filter, any_eq_true,
    Bool.and_eq_true, decide_eq_true_eq]
  constructor
  · rintro ⟨membership, ⟨stored, own⟩, link, ⟨linked, same⟩, rfl⟩
    obtain ⟨row, kept, id⟩ := mem_map.mp (directory.groupRoleRef link linked)
    refine ⟨row, ⟨kept, membership, stored, own, ?_⟩, id⟩
    rwa [id, ← same]
  · rintro ⟨row, ⟨_, membership, stored, own, linked⟩, rfl⟩
    exact ⟨membership, ⟨stored, own⟩, _, ⟨linked, rfl⟩, rfl⟩

theorem mem_withRoles (roles others : List Role) (role : Nat) :
    role ∈ (Grants.withRoles roles others).map Role.id ↔ role ∈ roles.map Role.id ∨
    role ∈ others.map Role.id := by
  rw [Grants.withRoles, map_append, mem_append]
  by_cases known : role ∈ roles.map Role.id
  · exact ⟨fun _ => Or.inl known, fun _ => Or.inl known⟩
  · refine or_congr Iff.rfl ⟨fun member => ?_, fun member => ?_⟩
    · obtain ⟨row, kept, id⟩ := mem_map.mp member
      exact id ▸ mem_map_of_mem (mem_filter.mp kept).1
    · obtain ⟨row, kept, rfl⟩ := mem_map.mp member
      exact mem_map_of_mem (mem_filter.mpr ⟨kept, by simpa using known⟩)

theorem mem_resolveUserRolesForRls :
    ∃ roles, resolveUserRolesForRls settings directory (some user) = some roles ∧
      ∀ role, role ∈ roles ↔ role ∈ rolesOf settings directory user := by
  refine ⟨_, rfl, fun role => ?_⟩
  cases visitor : anonymous user with
  | true => simp [rolesOf, visitor]
  | false =>
    simp only [rolesOf, visitor, Bool.not_false, if_true, Bool.false_eq_true, if_false,
      Grants.getUserRoles]
    cases user.id with
    | none => simp
    | some id => simp only [Option.elim_some, mem_withRoles, mem_append, mem_groupRoleIds]

/-- A user object that lists no roles has none of its own in the database. -/
def RolesCarried : Prop :=
  anonymous user = false → user.roles = [] → ∀ id, user.id = some id →
    ∀ link ∈ directory.userRoles, link.1 = id → link.2 ∈ groupRoleIds directory id

theorem mem_syncResolveUserRoleIds (carried : RolesCarried directory user) :
    ∃ roles, syncResolveUserRoleIds settings directory (some user) = some roles ∧
      ∀ role, role ∈ roles ↔ role ∈ rolesOf settings directory user := by
  refine ⟨_, rfl, fun role => ?_⟩
  cases visitor : anonymous user with
  | true => simp [rolesOf, visitor]
  | false =>
    simp only [rolesOf, visitor, Bool.not_false, if_true, Bool.false_eq_true, if_false]
    cases known : user.id with
    | none => simp
    | some id =>
      cases roles : user.roles with
      | cons first rest => simp
      | nil =>
        simp only [isEmpty_nil, if_true, mem_append, map_nil, not_mem_nil, false_or,
          Option.elim_some, mem_map, mem_filter, decide_eq_true_eq, or_iff_right_iff_imp]
        rintro ⟨link, ⟨stored, own⟩, rfl⟩
        exact carried visitor roles id known link stored own

end Roles

section Builders

variable (settings : Settings) (directory : Directory) (user : RowUser) (rules : Rules)
    (table : Table)
variable (value : String → Option Bool)

theorem guestRules_eq :
    (if settings.embeddedSupersetEnabled then
      getGuestRlsFilters settings table.id (some user) else []).map
      GuestRule.clause = guestClauses settings table.id user := by
  cases on : settings.embeddedSupersetEnabled with
  | false => simp [guestClauses, isGuestUser, on]
  | true =>
    cases user.isGuest <;> simp [getGuestRlsFilters, guestClauses, isGuestUser, on] <;>
      split <;> rfl

theorem syncGuestClauses_eq :
    (if settings.embeddedSupersetEnabled then syncGetGuestRlsClauses table.id user else []) =
      guestClauses settings table.id user := by
  cases on : settings.embeddedSupersetEnabled with
  | false => simp [guestClauses, isGuestUser, on]
  | true =>
    cases guest : user.isGuest with
    | false => simp [syncGetGuestRlsClauses, guestClauses, isGuestUser, on, guest]
    | true =>
      cases rules : user.rlsRules <;>
        simp [syncGetGuestRlsClauses, guestClauses, isGuestUser, on, guest, rules]

theorem syncProcess_eq (processor : Option TemplateProcessor) :
    syncProcess processor = process processor := by
  funext clause
  cases processor with
  | none => rfl
  | some processor =>
    by_cases empty : clause = ""
    · subst empty
      simp [syncProcess, process, processor.renderEmpty]
    · simp [syncProcess, process, empty]

theorem composeRlsWhereClauses_truth :
    (composeRlsWhereClauses settings directory rules table (some user)).map (whereTruth value) =
      ruleCondition settings directory rules table user value := by
  obtain ⟨roles, resolved, same⟩ := mem_resolveUserRolesForRls settings directory user
  rw [composeRlsWhereClauses, map_compose, guestRules_eq, getRlsFilters, resolved]
  simp only [selectFilters_eq, applicable_congr rules table.id _ _ same]
  rfl

theorem composeRlsTextClauses_of_roles (roles : List Nat)
    (resolved : syncResolveUserRoleIds settings directory (some user) = some roles) :
    (composeRlsTextClauses settings directory rules table (some user)).map (whereTruth value) =
      conditionOf settings rules table user roles value := by
  simp only [composeRlsTextClauses, resolved, map_compose, syncGuestClauses_eq, syncProcess_eq,
    syncGetRlsFiltersForUser, selectFilters_eq]
  rfl

theorem composeRlsTextClauses_truth (carried : RolesCarried directory user) :
    (composeRlsTextClauses settings directory rules table (some user)).map (whereTruth value) =
      ruleCondition settings directory rules table user value := by
  obtain ⟨roles, resolved, same⟩ := mem_syncResolveUserRoleIds settings directory user carried
  rw [composeRlsTextClauses_of_roles settings directory user rules table value roles resolved,
    ruleCondition, conditionOf, conditionOf, applicable_congr rules table.id _ _ same]

end Builders

/-- The two builders mean what the rules mean, for all rules, datasets and rows. -/
def SameMeaning (settings : Settings) (directory : Directory) (user : RowUser) : Prop :=
  ∀ (rules : Rules) (table : Table) (value : String → Option Bool),
    (composeRlsWhereClauses settings directory rules table (some user)).map (whereTruth value) =
        ruleCondition settings directory rules table user value ∧
      (composeRlsTextClauses settings directory rules table (some user)).map (whereTruth value) =
        ruleCondition settings directory rules table user value

def roleRule (role : Nat) : Rules where
  filters := [⟨0, .regular, none, ""⟩]
  filterRoles := [(0, role)]
  filterTables := [(0, 0)]

theorem applicable_roleRule (role : Nat) (roles : List Nat) :
    applicable (roleRule role) 0 roles = if role ∈ roles then [⟨0, .regular, none, ""⟩]
    else [] := by
  by_cases held : role ∈ roles <;> simp [applicable, roleRule, sharesRole, held]

theorem mapM_process_none (clauses : List String) : clauses.mapM (process none) = some clauses := by
  induction clauses with
  | nil => rfl
  | cons clause rest ih => rw [mapM_cons, ih]; rfl

/-- On a row that falsifies only the empty clause the rule decides, whatever a guest adds. -/
theorem conditionOf_roleRule (settings : Settings) (user : RowUser) (role : Nat)
    (roles : List Nat) :
    conditionOf settings (roleRule role) ⟨0, none⟩ user roles
      (fun text => some (decide (text ≠ ""))) =
      some (some (decide (role ∉ roles))) := by
  have guests : ∀ v ∈ ((guestClauses settings 0 user).filter fun clause => clause ≠ "").map
      (fun text : String => some (decide (text ≠ ""))), v = some true := by
    intro v member
    obtain ⟨clause, kept, rfl⟩ := mem_map.mp member
    exact congrArg some (mem_filter.mp kept).2
  rw [conditionOf, applicable_roleRule, mapM_process_none]
  by_cases held : role ∈ roles
  · have decided : decide (role ∉ roles) = false := by simpa using held
    rw [if_pos held, decided]
    refine congrArg some ((Condition.all3_eq_false _).mpr ?_)
    simp [truthy]
  · have decided : decide (role ∉ roles) = true := by simpa using held
    rw [if_neg held, decided]
    refine congrArg some ((Condition.all3_eq_true _).mpr ?_)
    simpa [keysOf] using guests

/-- The two builders agree, and mean what the rules mean, for users whose object carries
their roles. -/
theorem sameMeaning_iff (settings : Settings) (directory : Directory) (user : RowUser) :
    SameMeaning settings directory user ↔ RolesCarried directory user := by
  constructor
  · intro same visitor roles id known link stored own
    by_contra absent
    have resolved : syncResolveUserRoleIds settings directory (some user) =
        some ((directory.userRoles.filter fun link => link.1 = id).map Prod.snd ++
          groupRoleIds directory id) := by
      simp [syncResolveUserRoleIds, visitor, known, roles]
    have held : link.2 ∈ (directory.userRoles.filter fun link => link.1 = id).map Prod.snd ++
        groupRoleIds directory id :=
      mem_append_left _ (mem_map_of_mem (mem_filter.mpr ⟨stored, by simpa using own⟩))
    have lacking : link.2 ∉ rolesOf settings directory user := by
      simpa [rolesOf, visitor, known, roles] using absent
    have meaning := (same (roleRule link.2) ⟨0, none⟩ fun text => some (decide (text ≠ ""))).2
    rw [composeRlsTextClauses_of_roles _ _ _ _ _ _ _ resolved, ruleCondition, conditionOf_roleRule,
      conditionOf_roleRule] at meaning
    simp [held, lacking] at meaning
  · exact fun carried rules table value =>
      ⟨composeRlsWhereClauses_truth settings directory user rules table value,
        composeRlsTextClauses_truth settings directory user rules table value carried⟩

def grantedLater : Directory where
  roles := [⟨1, "Gamma"⟩]
  userRoles := [(1, 1)]
  groupRoleRef := by decide
  userRoleRef := by decide

def gammaRule : Rules where
  filters := [⟨7, .regular, none, "region = 'EU'"⟩]
  filterRoles := [(7, 1)]
  filterTables := [(7, 3)]

/-- With a regular rule for the new role only the synchronous path restricts the rows. -/
theorem builders_differ :
    composeRlsWhereClauses {} grantedLater gammaRule ⟨3, none⟩ (some { id := some 1 }) = some [] ∧
      composeRlsTextClauses {} grantedLater gammaRule ⟨3, none⟩ (some { id := some 1 }) =
          some [.text "region = 'EU'"] ∧ ¬SameMeaning {} grantedLater { id := some 1 } := by
  refine ⟨by decide, by decide, fun same => ?_⟩
  have meaning := (same gammaRule ⟨3, none⟩ fun _ => some false)
  have equal := meaning.1.trans meaning.2.symm
  revert equal
  decide

end Liteset.Security.RowRules
