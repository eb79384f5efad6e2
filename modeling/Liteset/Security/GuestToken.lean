import Liteset.Lib.Json
import Mathlib.Data.Finset.Basic

/-!
# Guests of the web server and of the worker

A guest token is resolved twice: by `_resolve_guest_from_jwt` of the auth
middleware for the request, and by `_load_guest_user_from_token` of
`tasks/async_queries.py` for the query that the request hands to the worker.

`jwt.decode` is a parameter.  What is assumed of it is its check of the audience,
which comes after the checks of signature and expiry and does not change them.
-/

set_option autoImplicit false

namespace Liteset.Security.GuestToken

open Liteset.Lib

abbrev Payload := List (String × Json)

/-- `guest_token_jwt_audience`; a callable is given by what it returns. -/
inductive AudienceSetting where
  | unset
  | text (value : String)
  | callable (result : Option String)
  deriving DecidableEq, Repr

structure Settings where
  secretKey : String
  guestTokenJwtSecret : String
  guestTokenJwtAlgo : String
  guestTokenJwtAudience : AudienceSetting
  webdriverBaseurl : String
  guestRoleName : String
  deriving DecidableEq, Repr

structure Role where
  id : Nat
  name : String
  permissions : List (String × String)
  deriving DecidableEq, Repr

structure Database where
  roles : List Role
  rolesFail : Bool
  permissionsFail : Bool
  deriving DecidableEq, Repr

/-- `get_role_by_name`; `none` when the query raises, also for several rows. -/
def getRoleByName (db : Database) (name : String) : Option (Option Role) :=
  if db.rolesFail then none
  else
    match db.roles.filter fun role => role.name = name with
    | [] => some none
    | [role] => some (some role)
    | _ => none

def getPermissionsForRoleName (db : Database) (name : String) : Option (Finset (String × String)) :=
  if db.permissionsFail then none
  else some ((db.roles.filter fun role => role.name = name).flatMap Role.permissions).toFinset

structure CachedRole where
  id : Nat
  name : String
  deriving DecidableEq, Repr

structure GuestUser where
  username : Json
  firstName : Json
  lastName : Json
  roles : List CachedRole
  resources : Json
  rlsRules : Json
  permissions : Finset (String × String)
  tokenPayload : Payload
  deriving DecidableEq

/-- `members.get(key, default)` -/
def getOr (members : List (String × Json)) (key : String) (default : Json) : Json :=
  ((members.find? fun m => m.1 = key).map Prod.snd).getD default

def resourcePermissions : Json → Finset (String × String)
  | .object members =>
    if getOr members "type" (.str "") = .str "dashboard" then
      {("can_read", "Dashboard"), ("can_read", "Chart")}
    else if getOr members "type" (.str "") = .str "chart" then {("can_read", "Chart")}
    else ∅
  | _ => ∅

/-- `GuestUser.from_token_payload`; `none` when it raises. -/
def fromTokenPayload (payload : Payload) : Option GuestUser :=
  match (getOr payload "resources" (.list [])).iterate, getOr payload "user" (.object []) with
  | some resources, .object userInfo =>
    some
      { username := getOr userInfo "username" (.str "guest_user")
        firstName := getOr userInfo "first_name" (.str "Guest")
        lastName := getOr userInfo "last_name" (.str "User")
        roles := []
        resources := getOr payload "resources" (.list [])
        rlsRules := getOr payload "rls_rules" (.list [])
        permissions :=
          resources.foldl (fun found resource => found ∪ resourcePermissions resource) ∅
        tokenPayload := payload }
  | _, _ => none

/-- The guest role and its permissions.  The role stays when the query for the
permissions fails: both callers catch what is raised. -/
def loadGuestRolePermissions (db : Database) (roleName : String) (guest : GuestUser) : GuestUser :=
  match getRoleByName db roleName with
  | some (some role) =>
    { guest with
      roles := [⟨role.id, role.name⟩]
      permissions :=
        match getPermissionsForRoleName db roleName with
        | some rolePerms => guest.permissions ∪ rolePerms
        | none => guest.permissions }
  | _ => guest

/-- How `jwt.decode` ends: `invalid` is `InvalidTokenError` with its subclasses. -/
inductive Decoded where
  | payload (claims : Payload)
  | invalid
  | raised
  deriving DecidableEq

/-- The `aud` claim names the audience, alone or in a list of texts. -/
def names (claims : Payload) (audience : String) : Bool :=
  match Json.get claims "aud" with
  | .str aud => aud = audience
  | .list items =>
    items.all (fun item => match item with | .str _ => true | _ => false)
      && items.contains (.str audience)
  | _ => false

def unaddressed (claims : Payload) : Bool := !(Json.get claims "aud").truthy

/-- The audience check of `jwt.decode`. -/
def validAudience (claims : Payload) : Option String → Bool
  | none => unaddressed claims
  | some audience => !unaddressed claims && names claims audience

section Resolve
variable (decode : String → String → String → Option String → Decoded)

def decodeAudience (audience : String) : Option String :=
  if audience = "" then none else some audience

def parseGuestToken (token secretKey algorithm audience : String) : Decoded :=
  match decode token secretKey algorithm (decodeAudience audience) with
  | .payload claims =>
    if Json.get claims "type" = .str "guest" then .payload claims else .invalid
  | ended => ended

inductive Resolved where
  | guest (user : GuestUser)
  | absent
  | raised
  deriving DecidableEq

/-- `_resolve_guest_from_jwt`: its audience -/
def requestAudience (settings : Settings) : String :=
  match settings.guestTokenJwtAudience with
  | .text value => value
  | .callable result => result.getD ""
  | .unset => settings.webdriverBaseurl

def requestSecret (settings : Settings) : String :=
  if settings.guestTokenJwtSecret ≠ "" then settings.guestTokenJwtSecret else settings.secretKey

def resolveGuestFromJwt (settings : Settings) (db : Database) (token : String) : Resolved :=
  match parseGuestToken decode token (requestSecret settings) settings.guestTokenJwtAlgo
      (requestAudience settings) with
  | .invalid => .absent
  | .raised => .raised
  | .payload claims =>
    if Json.get claims "user" = .null then .absent
    else if Json.get claims "resources" = .null then .absent
    else if Json.get claims "rls_rules" = .null then .absent
    else
      match fromTokenPayload claims with
      | none => .raised
      | some user => .guest (loadGuestRolePermissions db settings.guestRoleName user)

/-- `_load_guest_user_from_token`: its audience -/
def workerAudience (settings : Settings) : String :=
  match settings.guestTokenJwtAudience with
  | .text value => value
  | .callable result => result.getD ""
  | .unset => ""

def resolveSecret (settings : Settings) : String :=
  if settings.secretKey ≠ "" then settings.secretKey else ""

def workerSecret (settings : Settings) : String :=
  if settings.guestTokenJwtSecret ≠ "" then settings.guestTokenJwtSecret else resolveSecret settings

def loadGuestUserFromToken (settings : Settings) (db : Database) (token : String) : Resolved :=
  match parseGuestToken decode token (workerSecret settings) settings.guestTokenJwtAlgo
      (workerAudience settings) with
  | .invalid => .absent
  | .raised => .raised
  | .payload claims =>
    if Json.get claims "user" = .null ∨ Json.get claims "resources" = .null
        ∨ Json.get claims "rls_rules" = .null then .absent
    else
      match fromTokenPayload claims with
      | none => .raised
      | some user => .guest (loadGuestRolePermissions db settings.guestRoleName user)

inductive JobUser where
  | user (id : Nat)
  | guest (user : GuestUser)
  | unauthenticated
  | raised
  deriving DecidableEq

/-- `_load_user_from_job_metadata`; `users` are the ids that `get_user_by_id` finds. -/
def loadUserFromJobMetadata (settings : Settings) (db : Database) (users : List Nat)
    (userId : Option Nat) (guestToken : String) : JobUser :=
  match userId.filter (fun id => id ≠ 0 && users.contains id) with
  | some id => .user id
  | none =>
    if guestToken = "" then .unauthenticated
    else
      match loadGuestUserFromToken decode settings db guestToken with
      | .guest user => .guest user
      | .absent => .unauthenticated
      | .raised => .raised

/-- What is assumed of `jwt.decode`: it checks the audience of a token that is valid
otherwise. -/
def ChecksAudience (verified : String → String → String → Decoded) : Prop :=
  ∀ token secretKey algorithm audience,
    decode token secretKey algorithm audience
      = match verified token secretKey algorithm with
        | .payload claims => if validAudience claims audience then .payload claims else .invalid
        | ended => ended

def HasGuestClaims (claims : Payload) : Prop :=
  Json.get claims "type" = .str "guest" ∧ Json.get claims "user" ≠ .null
    ∧ Json.get claims "resources" ≠ .null ∧ Json.get claims "rls_rules" ≠ .null

instance (claims : Payload) : Decidable (HasGuestClaims claims) :=
  inferInstanceAs (Decidable (_ ∧ _ ∧ _ ∧ _))

variable {decode} {verified : String → String → String → Decoded} {settings : Settings}
  {db : Database} {token : String}

/-- What both make of a token that `jwt.decode` accepts. -/
def resolved (settings : Settings) (db : Database) (claims : Payload) : Resolved :=
  if HasGuestClaims claims then
    match fromTokenPayload claims with
    | none => .raised
    | some user => .guest (loadGuestRolePermissions db settings.guestRoleName user)
  else .absent

def resolvedFor (verified : String → String → String → Decoded) (settings : Settings)
    (db : Database)
    (token audience : String) : Resolved :=
  match verified token (requestSecret settings) settings.guestTokenJwtAlgo with
  | .invalid => .absent
  | .raised => .raised
  | .payload claims =>
    if validAudience claims (decodeAudience audience) then
      resolved settings db claims
    else .absent

theorem workerSecret_eq (settings : Settings) : workerSecret settings = requestSecret settings := by
  unfold workerSecret requestSecret resolveSecret
  by_cases own : settings.guestTokenJwtSecret = ""
  · by_cases none : settings.secretKey = ""
    · simp [own, none]
    · simp [own, none]
  · simp [own]

theorem resolveGuestFromJwt_eq (checks : ChecksAudience decode verified) :
    resolveGuestFromJwt decode settings db token
      = resolvedFor verified settings db token (requestAudience settings) := by
  unfold resolveGuestFromJwt resolvedFor parseGuestToken
  rw [checks]
  cases verified token (requestSecret settings) settings.guestTokenJwtAlgo with
  | invalid => rfl
  | raised => rfl
  | payload claims =>
    cases valid : validAudience claims (decodeAudience (requestAudience settings)) with
    | false => simp [valid]
    | true =>
      simp only [valid, if_true]
      unfold resolved HasGuestClaims
      by_cases type : Json.get claims "type" = .str "guest"
      · by_cases user : Json.get claims "user" = .null
        · simp [type, user]
        · by_cases resources : Json.get claims "resources" = .null
          · simp [type, user, resources]
          · by_cases rls : Json.get claims "rls_rules" = .null
            · simp [type, user, resources, rls]
            · simp [type, user, resources, rls]
      · simp [type]

theorem loadGuestUserFromToken_eq (checks : ChecksAudience decode verified) :
    loadGuestUserFromToken decode settings db token
      = resolvedFor verified settings db token (workerAudience settings) := by
  unfold loadGuestUserFromToken resolvedFor parseGuestToken
  rw [checks, workerSecret_eq]
  cases verified token (requestSecret settings) settings.guestTokenJwtAlgo with
  | invalid => rfl
  | raised => rfl
  | payload claims =>
    cases valid : validAudience claims (decodeAudience (workerAudience settings)) with
    | false => simp [valid]
    | true =>
      simp only [valid, if_true]
      unfold resolved HasGuestClaims
      by_cases type : Json.get claims "type" = .str "guest"
      · by_cases missing : Json.get claims "user" = .null ∨ Json.get claims "resources" = .null
            ∨ Json.get claims "rls_rules" = .null
        · have incomplete : ¬(Json.get claims "user" ≠ .null ∧ Json.get claims "resources" ≠ .null
              ∧ Json.get claims "rls_rules" ≠ .null) := by
            intro complete
            rcases missing with user | resources | rls
            · exact complete.1 user
            · exact complete.2.1 resources
            · exact complete.2.2 rls
          simp [type, missing, incomplete]
        · have complete := not_or.mp missing
          have others := not_or.mp complete.2
          simp [type, complete.1, others.1, others.2]
      · simp [type]

theorem resolved_ne_absent {claims : Payload} (has : HasGuestClaims claims) :
    resolved settings db claims ≠ .absent := by
  unfold resolved
  rw [if_pos has]
  cases fromTokenPayload claims with
  | none => simp
  | some user => simp

/-- Without the setting only the request expects the base URL as the audience; no
token passes both checks. -/
theorem resolvedFor_eq_iff (url : settings.webdriverBaseurl ≠ "") :
    resolvedFor verified settings db token "" = resolvedFor verified settings db token
        settings.webdriverBaseurl
      ↔ ∀ claims, verified token (requestSecret settings) settings.guestTokenJwtAlgo =
        .payload claims →
          HasGuestClaims claims →
          unaddressed claims = false ∧ names claims settings.webdriverBaseurl = false := by
  unfold resolvedFor
  cases verified token (requestSecret settings) settings.guestTokenJwtAlgo with
  | invalid => simp
  | raised => simp
  | payload claims =>
    simp only [decodeAudience, if_true, url, if_false, validAudience, Decoded.payload.injEq,
      forall_eq']
    by_cases has : HasGuestClaims claims
    · have present : resolved settings db claims ≠ .absent := resolved_ne_absent has
      cases free : unaddressed claims with
      | true => simp [has, present]
      | false =>
        cases named : names claims settings.webdriverBaseurl with
        | true => simp [has, present.symm]
        | false => simp
    · have absent : resolved settings db claims = .absent := if_neg has
      simp [has, absent]

/-- The audience is configured, there is no base URL to stand in for it, or the token
passes neither check. -/
def SameAudience (verified : String → String → String → Decoded) (settings : Settings)
    (token : String) : Prop :=
  settings.guestTokenJwtAudience ≠ .unset ∨ settings.webdriverBaseurl = ""
    ∨ ∀ claims,
        verified token (requestSecret settings) settings.guestTokenJwtAlgo = .payload claims →
        HasGuestClaims claims →
        unaddressed claims = false ∧ names claims settings.webdriverBaseurl = false

theorem guests_eq_iff (checks : ChecksAudience decode verified) :
    loadGuestUserFromToken decode settings db token = resolveGuestFromJwt decode settings db token
      ↔ SameAudience verified settings token := by
  rw [loadGuestUserFromToken_eq checks, resolveGuestFromJwt_eq checks]
  unfold workerAudience requestAudience SameAudience
  cases settings.guestTokenJwtAudience with
  | text value => simp
  | callable result => simp
  | unset =>
    by_cases url : settings.webdriverBaseurl = ""
    · simp [url]
    · have same : resolvedFor verified settings db token ""
          = resolvedFor verified settings db token settings.webdriverBaseurl ↔ _ :=
        resolvedFor_eq_iff url
      simpa [url] using same

theorem jobUser_of_guest {guest : GuestUser} (users : List Nat) (given : token ≠ "")
    (loaded : loadGuestUserFromToken decode settings db token = .guest guest) :
    loadUserFromJobMetadata decode settings db users none token = .guest guest := by
  unfold loadUserFromJobMetadata
  simp [given, loaded]

/-- The worker builds the guest of the request exactly if the two expect the same
audience of the token, and then a guest's job runs as that guest. -/
theorem worker_guest_eq_iff (checks : ChecksAudience decode verified) :
    (loadGuestUserFromToken decode settings db token
        = resolveGuestFromJwt decode settings db token ↔ SameAudience verified settings token)
      ∧ (SameAudience verified settings token → token ≠ "" → ∀ users guest,
          resolveGuestFromJwt decode settings db token = .guest guest →
          loadUserFromJobMetadata decode settings db users none token = .guest guest) := by
  refine ⟨guests_eq_iff checks, ?_⟩
  intro same given users guest resolves
  refine jobUser_of_guest users given ?_
  rw [(guests_eq_iff checks).mpr same, resolves]

end Resolve

/-- `jwt.decode` for one token signed with one secret. -/
def decodeOne (token secretKey : String) (claims : Payload) : String → String → String → Decoded :=
  fun t s _ => if t = token ∧ s = secretKey then .payload claims else .invalid

def checkingAudience (verified : String → String → String → Decoded) :
    String → String → String → Option String → Decoded :=
  fun token secretKey algorithm audience =>
    match verified token secretKey algorithm with
    | .payload claims => if validAudience claims audience then .payload claims else .invalid
    | ended => ended

def embeddedClaims (audience : String) : Payload :=
  [("user", .object [("username", .str "embedded")]),
   ("resources", .list [.object [("id", .str "7"), ("type", .str "dashboard")]]),
   ("rls_rules", .list [.object [("clause", .str "region = 'EU'")]]), ("type", .str "guest"),
   ("aud", .str audience)]

def embeddedSettings (audience : AudienceSetting) : Settings where
  secretKey := "application secret"
  guestTokenJwtSecret := "guest secret"
  guestTokenJwtAlgo := "HS256"
  guestTokenJwtAudience := audience
  webdriverBaseurl := "http://0.0.0.0:8080/"
  guestRoleName := "Guest"

def embeddedRoles : Database where
  roles := [⟨4, "Guest", [("can_read", "Dataset")]⟩]
  rolesFail := false
  permissionsFail := false

/-- With the audience configured, worker and request build the same guest. -/
theorem worker_guest_eq_configured :
    ChecksAudience
      (checkingAudience (decodeOne "token" "guest secret" (embeddedClaims "embedded app")))
        (decodeOne "token" "guest secret" (embeddedClaims "embedded app"))
      ∧ SameAudience (decodeOne "token" "guest secret" (embeddedClaims "embedded app"))
          (embeddedSettings (.text "embedded app")) "token"
      ∧ loadGuestUserFromToken
          (checkingAudience (decodeOne "token" "guest secret" (embeddedClaims "embedded app")))
          (embeddedSettings (.text "embedded app")) embeddedRoles "token"
        = resolveGuestFromJwt
          (checkingAudience (decodeOne "token" "guest secret" (embeddedClaims "embedded app")))
          (embeddedSettings (.text "embedded app")) embeddedRoles "token" := by
  have checks : ChecksAudience
      (checkingAudience (decodeOne "token" "guest secret" (embeddedClaims "embedded app")))
      (decodeOne "token" "guest secret" (embeddedClaims "embedded app")) := fun _ _ _ _ => rfl
  have same : SameAudience (decodeOne "token" "guest secret" (embeddedClaims "embedded app"))
      (embeddedSettings (.text "embedded app")) "token" := Or.inl (by decide)
  exact ⟨checks, same, (worker_guest_eq_iff checks).1.mpr same⟩

/-- With the defaults a token is minted for the base URL: the request has a guest,
the worker an unauthenticated user. -/
theorem not_worker_guest_eq_default :
    ¬∀ (decode : String → String → String → Option String → Decoded)
        (verified : String → String → String → Decoded) (settings : Settings) (db : Database)
        (token : String), ChecksAudience decode verified →
      loadGuestUserFromToken decode settings db token
          = resolveGuestFromJwt decode settings db token
        ∧ (token ≠ "" → ∀ users guest,
            resolveGuestFromJwt decode settings db token = .guest guest →
            loadUserFromJobMetadata decode settings db users none token = .guest guest) := by
  intro claim
  have same := (claim
    (checkingAudience (decodeOne "token" "guest secret" (embeddedClaims "http://0.0.0.0:8080/")))
    (decodeOne "token" "guest secret" (embeddedClaims "http://0.0.0.0:8080/"))
    (embeddedSettings .unset) embeddedRoles "token" fun _ _ _ _ => rfl).1
  exact absurd same (by decide)

end Liteset.Security.GuestToken
