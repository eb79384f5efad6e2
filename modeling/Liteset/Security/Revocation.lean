import Liteset.Lib.Runs

/-!
# Revocation at logout

A logout writes one timestamp for the user, and the auth middleware and the refresh
endpoint reject every credential whose `iat` is not later.  The entry has a
lifetime of its own.

The clock counts microseconds; issue times and logout timestamps are whole
seconds.  The model follows one user, with Redis available.  What was issued when,
and the moments of the logouts, are recorded beside the state the program has.
-/

set_option autoImplicit false

namespace Liteset.Security.Revocation

open Liteset.Lib.Runs List

def microseconds : Int := 1000000

/-- `int(timestamp)` -/
def second (time : Int) : Int := time / 1000000

structure Settings where
  sessionMaxAge : Int
  jwtAccessTokenExpires : Int
  jwtRefreshTokenExpires : Int
  deriving DecidableEq, Repr

inductive Kind where
  | session
  | access
  | refresh
  deriving DecidableEq, Repr

def lifetime (settings : Settings) : Kind → Int
  | .session => settings.sessionMaxAge
  | .access => settings.jwtAccessTokenExpires
  | .refresh => settings.jwtRefreshTokenExpires

structure Issue where
  time : Int
  earlier : List Int
  deriving DecidableEq, Repr

structure Credential where
  kind : Kind
  issue : Issue
  /-- The refresh token an access token was obtained with. -/
  refreshedFrom : Option Issue
  deriving DecidableEq, Repr

/-- The `iat` claim. -/
def Issue.iat (issue : Issue) : Int := second issue.time

/-- The `exp` claim. -/
def expiry (settings : Settings) (c : Credential) : Int := c.issue.iat + lifetime settings c.kind

/-- `auth:token_blacklist:{user_id}` -/
structure Entry where
  timestamp : Int
  expiresAt : Int
  deriving DecidableEq, Repr

structure World where
  now : Int
  blacklist : Option Entry
  issued : List Credential
  /-- The moments of the logouts, the last one first. -/
  logouts : List Int
  deriving DecidableEq, Repr

def start (now : Int) : World := { now := now, blacklist := none, issued := [], logouts := [] }

/-- `redis.get`: an entry that has expired is gone. -/
def World.entry (w : World) : Option Entry := w.blacklist.filter fun e => w.now < e.expiresAt

def isTokenBlacklisted (w : World) (tokenIat : Int) : Bool :=
  match w.entry with
  | none => false
  | some e => tokenIat ≤ e.timestamp

/-- `jwt.decode` accepts the credential. -/
def decodes (settings : Settings) (w : World) (c : Credential) : Bool :=
  w.now < expiry settings c * microseconds

/-- The checks of `_authenticate_cookie`, of `_resolve_user_from_access_token` and of
the refresh endpoint, each for its own kind. -/
def authenticates (settings : Settings) (w : World) (c : Credential) : Bool :=
  decodes settings w c && !isTokenBlacklisted w c.issue.iat

inductive Event where
  | wait (time : Nat)
  | loginBrowser
  | loginApi (refresh : Bool)
  | refresh (token : Credential)
  | logout (credential : Credential)
  deriving DecidableEq, Repr

def World.issueNow (w : World) : Issue := { time := w.now, earlier := w.logouts }

def World.mint (w : World) (credentials : List Credential) : World :=
  { w with issued := credentials ++ w.issued }

/-- `max` of the lifetimes of refresh token and session cookie. -/
def blacklistTtl (settings : Settings) : Int :=
  max settings.jwtRefreshTokenExpires settings.sessionMaxAge

/-- `_revoke_tokens`; Redis refuses a lifetime that is not positive, and the error is
only logged. -/
def revokeTokens (settings : Settings) (w : World) : World :=
  { w with
    logouts := w.now :: w.logouts
    blacklist :=
      if 0 < blacklistTtl settings then
        some { timestamp := second w.now
               expiresAt := w.now + blacklistTtl settings * microseconds }
      else w.blacklist }

def step (settings : Settings) (w : World) : Event → Option World
  | .wait time => some { w with now := w.now + time }
  | .loginBrowser => some (w.mint [⟨.session, w.issueNow, none⟩])
  | .loginApi withRefresh =>
    some (w.mint (⟨.access, w.issueNow, none⟩ ::
      if withRefresh then [⟨.refresh, w.issueNow, none⟩] else []))
  | .refresh token =>
    if token ∈ w.issued ∧ token.kind = .refresh then
      if authenticates settings w token then
        some (w.mint [⟨.access, w.issueNow, some token.issue⟩])
      else some w
    else none
  | .logout credential =>
    if credential ∈ w.issued then
      if decodes settings w credential then some (revokeTokens settings w) else some w
    else none

def Since (logouts : List Int) (issue : Issue) : Prop :=
  ∃ later, logouts = later ++ issue.earlier ∧ (∀ t ∈ later, issue.time ≤ t)
    ∧ ∀ t ∈ issue.earlier, t ≤ issue.time

structure Tracked (settings : Settings) (w : World) : Prop where
  past : ∀ t ∈ w.logouts, t ≤ w.now
  newest : ∀ last, w.logouts.head? = some last → ∀ t ∈ w.logouts, t ≤ last
  /-- The entry is that of the last logout. -/
  entry : w.blacklist = if 0 < blacklistTtl settings then
      w.logouts.head?.map fun last => ⟨second last, last + blacklistTtl settings * microseconds⟩
    else none
  issuedBefore : ∀ c ∈ w.issued, c.issue.time ≤ w.now
  since : ∀ c ∈ w.issued, Since w.logouts c.issue
  /-- An access token obtained by refreshing is not older than its refresh token,
  which no logout had revoked then. -/
  refreshed : ∀ c ∈ w.issued, ∀ r, c.refreshedFrom = some r →
    r.iat ≤ c.issue.iat ∧ ∀ t ∈ c.issue.earlier, second t < r.iat

theorem second_mono {a b : Int} (le : a ≤ b) : second a ≤ second b := by
  unfold second
  omega

section
variable {settings : Settings} {w : World} {c : Credential}

/-- While a credential that the entry outlives is valid, the entry rejects it exactly
if some logout came in its second or later. -/
theorem Tracked.isTokenBlacklisted_iff (tracked : Tracked settings w) (issued : c ∈ w.issued)
    (within : decodes settings w c = true)
    (covered : lifetime settings c.kind ≤ blacklistTtl settings) :
    isTokenBlacklisted w c.issue.iat = true ↔ ∃ t ∈ w.logouts, c.issue.iat ≤ second t := by
  have before := tracked.issuedBefore c issued
  have valid : w.now < (c.issue.iat + lifetime settings c.kind) * 1000000 := by
    simpa [decodes, expiry, microseconds] using of_decide_eq_true within
  have iat : c.issue.iat = c.issue.time / 1000000 := rfl
  have positive : 0 < blacklistTtl settings := by omega
  have entry := tracked.entry
  rw [if_pos positive] at entry
  unfold isTokenBlacklisted World.entry
  cases last : w.logouts.head? with
  | none =>
    have none : w.logouts = [] := head?_eq_none_iff.mp last
    rw [entry, last, none]
    simp
  | some moment =>
    rw [last, Option.map_some] at entry
    have listed : moment ∈ w.logouts := mem_of_mem_head? last
    refine ⟨?_, ?_⟩
    · intro rejected
      refine ⟨moment, listed, ?_⟩
      rw [entry] at rejected
      by_cases fresh : w.now < moment + blacklistTtl settings * microseconds
      · simpa [Option.filter, fresh] using rejected
      · simp [Option.filter, fresh] at rejected
    · intro found
      obtain ⟨t, inLogouts, notBefore⟩ := found
      have upTo := second_mono (tracked.newest moment last t inLogouts)
      -- the credential ends before the entry of a logout that is not older
      have fresh : w.now < moment + blacklistTtl settings * microseconds := by
        unfold second at upTo notBefore
        unfold microseconds
        omega
      rw [entry]
      simp only [Option.filter, fresh, decide_true, if_true]
      exact decide_eq_true (Int.le_trans notBefore upTo)

section
variable (tracked : Tracked settings w)
include tracked

theorem Tracked.wait (time : Nat) : Tracked settings { w with now := w.now + time } := by
  refine ⟨?_, tracked.newest, tracked.entry, ?_, tracked.since, tracked.refreshed⟩
  · intro t listed
    have before := tracked.past t listed
    show t ≤ w.now + time
    omega
  · intro c issued
    have before := tracked.issuedBefore c issued
    show c.issue.time ≤ w.now + time
    omega

theorem since_issueNow : Since w.logouts w.issueNow :=
  ⟨[], rfl, by simp, tracked.past⟩

/-- New credentials are issued at this moment, refreshed ones with a token that no
logout has revoked. -/
theorem Tracked.mint {credentials : List Credential}
    (now : ∀ c ∈ credentials, c.issue = w.issueNow)
    (refreshed : ∀ c ∈ credentials, ∀ r, c.refreshedFrom = some r →
      r.iat ≤ second w.now ∧ ∀ t ∈ w.logouts, second t < r.iat) :
      Tracked settings (w.mint credentials) := by
  refine ⟨tracked.past, tracked.newest, tracked.entry, ?_, ?_, ?_⟩
  · intro c issued
    rcases mem_append.mp issued with new | old
    · rw [now c new]
      exact Int.le_refl _
    · exact tracked.issuedBefore c old
  · intro c issued
    rcases mem_append.mp issued with new | old
    · have atIssue : Since w.logouts w.issueNow := since_issueNow tracked
      rw [now c new]
      exact atIssue
    · exact tracked.since c old
  · intro c issued r from_r
    rcases mem_append.mp issued with new | old
    · rw [now c new]
      exact refreshed c new r from_r
    · exact tracked.refreshed c old r from_r

theorem Tracked.revokeTokens : Tracked settings (revokeTokens settings w) := by
  have first : ∀ t ∈ w.now :: w.logouts, t ≤ w.now := by
    intro t listed
    rcases mem_cons.mp listed with rfl | old
    · exact Int.le_refl _
    · exact tracked.past t old
  refine ⟨first, ?_, ?_, tracked.issuedBefore, ?_, tracked.refreshed⟩
  · intro last isLast t listed
    rw [← Option.some.inj isLast]
    exact first t listed
  · by_cases positive : 0 < blacklistTtl settings
    · simp [Revocation.revokeTokens, positive]
    · have none := tracked.entry
      rw [if_neg positive] at none
      simp [Revocation.revokeTokens, positive, none]
  · intro c issued
    obtain ⟨later, split, after, before⟩ := tracked.since c issued
    refine ⟨w.now :: later, ?_, ?_, before⟩
    · show w.now :: w.logouts = _
      rw [split, cons_append]
    · intro t listed
      rcases mem_cons.mp listed with rfl | old
      · exact tracked.issuedBefore c issued
      · exact after t old

theorem Tracked.step {event : Event} {v : World}
    (taken : step settings w event = some v) : Tracked settings v := by
  have noParent : ∀ {kind : Kind} {r : Issue},
      (⟨kind, w.issueNow, none⟩ : Credential).refreshedFrom ≠ some r := by simp
  cases event with
  | wait time =>
    obtain rfl := Option.some.inj taken
    exact tracked.wait time
  | loginBrowser =>
    obtain rfl := Option.some.inj taken
    refine tracked.mint ?_ ?_
    · intro c new
      rw [mem_singleton.mp new]
    · intro c new r from_r
      rw [mem_singleton.mp new] at from_r
      exact (noParent from_r).elim
  | loginApi withRefresh =>
    obtain rfl := Option.some.inj taken
    have fresh : ∀ c ∈ (⟨.access, w.issueNow, none⟩ : Credential) ::
        (if withRefresh then [⟨.refresh, w.issueNow, none⟩] else []),
        c.issue = w.issueNow ∧ c.refreshedFrom = none := by
      intro c new
      cases withRefresh with
      | false =>
        obtain rfl := mem_singleton.mp new
        exact ⟨rfl, rfl⟩
      | true =>
        rcases mem_cons.mp new with rfl | second
        · exact ⟨rfl, rfl⟩
        · obtain rfl := mem_singleton.mp second
          exact ⟨rfl, rfl⟩
    refine tracked.mint (fun c new => (fresh c new).1) ?_
    intro c new r from_r
    rw [(fresh c new).2] at from_r
    exact absurd from_r (by simp)
  | refresh token =>
    unfold Revocation.step at taken
    by_cases known : token ∈ w.issued ∧ token.kind = .refresh
    · simp only [known, and_self, if_true] at taken
      by_cases accepted : authenticates settings w token = true
      · simp only [accepted, if_true] at taken
        obtain rfl := Option.some.inj taken
        refine tracked.mint (fun c new => by rw [mem_singleton.mp new]) ?_
        intro c new r from_r
        rw [mem_singleton.mp new] at from_r
        obtain rfl := Option.some.inj from_r
        have both := accepted
        unfold authenticates at both
        rw [Bool.and_eq_true] at both
        refine ⟨second_mono (tracked.issuedBefore token known.1), ?_⟩
        intro t listed
        by_contra revoked
        have covered : lifetime settings token.kind ≤ blacklistTtl settings := by
          rw [known.2]
          exact Int.le_max_left _ _
        have rejected := (tracked.isTokenBlacklisted_iff known.1 both.1 covered).mpr
          ⟨t, listed, Int.not_lt.mp revoked⟩
        simp [rejected] at both
      · simp only [accepted] at taken
        obtain rfl := Option.some.inj taken
        exact tracked
    · simp [known] at taken
  | logout credential =>
    unfold Revocation.step at taken
    by_cases known : credential ∈ w.issued
    · simp only [known, if_true] at taken
      by_cases accepted : decodes settings w credential = true
      · simp only [accepted, if_true] at taken
        obtain rfl := Option.some.inj taken
        exact tracked.revokeTokens
      · simp only [accepted] at taken
        obtain rfl := Option.some.inj taken
        exact tracked
    · simp [known] at taken

end

theorem tracked_start (settings : Settings) (now : Int) : Tracked settings (start now) := by
  refine ⟨by simp [start], by simp [start], ?_, by simp [start], by simp [start], by simp [start]⟩
  simp [start]

theorem tracked_of_reaches {now : Int} (reached : Reaches (step settings) anyStep (start now) w) :
    Tracked settings w :=
  reached.invariant (Tracked settings) (tracked_start settings now)
    fun _ _ _ tracked _ taken => tracked.step taken

/-- No logout in the second of the issue or later: none after it, and none before it
in the same second. -/
theorem no_later_logout_iff {logouts : List Int} {issue : Issue} (since : Since logouts issue) :
    (∀ t ∈ logouts, second t < issue.iat)
      ↔ logouts = issue.earlier ∧ ∀ t ∈ issue.earlier, second t ≠ issue.iat := by
  obtain ⟨later, split, after, before⟩ := since
  refine ⟨?_, ?_⟩
  · intro older
    have none : later = [] := by
      refine eq_nil_iff_forall_not_mem.mpr ?_
      intro t listed
      have inSecond := second_mono (after t listed)
      have earlier := older t (split ▸ mem_append_left _ listed)
      exact absurd (Int.lt_of_le_of_lt inSecond earlier) (Int.lt_irrefl _)
    refine ⟨by rw [split, none, nil_append], ?_⟩
    intro t listed
    exact Int.ne_of_lt (older t (split ▸ mem_append_right _ listed))
  · intro same
    obtain ⟨noneLater, apart⟩ := same
    intro t listed
    rw [noneLater] at listed
    have notLater : second t ≤ issue.iat := second_mono (before t listed)
    have other := apart t listed
    omega

/-- Within its lifetime a credential authenticates exactly if there was no logout after
it was issued, and none in the second of its issue.  An access token does not outlive
the revocation of its refresh token.  The entry is assumed to outlive access tokens. -/
theorem authenticates_iff {now : Int} (reached : Reaches (step settings) anyStep (start now) w)
    (issued : c ∈ w.issued) (within : decodes settings w c = true)
    (covered : c.kind = .access → settings.jwtAccessTokenExpires ≤ blacklistTtl settings) :
    (authenticates settings w c = true
        ↔ w.logouts = c.issue.earlier ∧ ∀ t ∈ c.issue.earlier, second t ≠ c.issue.iat)
      ∧ ∀ r, c.refreshedFrom = some r → (∃ t ∈ w.logouts, r.iat ≤ second t) →
          authenticates settings w c = false := by
  have tracked := tracked_of_reaches reached
  have outlived : lifetime settings c.kind ≤ blacklistTtl settings := by
    cases kind : c.kind with
    | session => exact Int.le_max_right _ _
    | access => exact covered kind
    | refresh => exact Int.le_max_left _ _
  have rejected := tracked.isTokenBlacklisted_iff issued within outlived
  have since := tracked.since c issued
  have accepted : authenticates settings w c = true
      ↔ w.logouts = c.issue.earlier ∧ ∀ t ∈ c.issue.earlier, second t ≠ c.issue.iat := by
    rw [← no_later_logout_iff since]
    unfold authenticates
    rw [within, Bool.true_and, Bool.not_eq_true', ← Bool.not_eq_true, rejected]
    refine ⟨?_, ?_⟩
    · intro notRevoked t listed
      by_contra later
      exact notRevoked ⟨t, listed, Int.not_lt.mp later⟩
    · intro older found
      obtain ⟨t, listed, later⟩ := found
      exact absurd (Int.lt_of_le_of_lt later (older t listed)) (Int.lt_irrefl _)
  refine ⟨accepted, ?_⟩
  intro r from_r revoked
  obtain ⟨t, listed, notBefore⟩ := revoked
  by_contra survives
  -- the refresh token was not revoked when it was used, so the logout came later
  have noneLater := (accepted.mp (by simpa using survives)).1
  have older := (tracked.refreshed c issued r from_r).2 t (noneLater ▸ listed)
  exact absurd (Int.lt_of_le_of_lt notBefore older) (Int.lt_irrefl _)

end

def defaults : Settings where
  sessionMaxAge := 2678400
  jwtAccessTokenExpires := 900
  jwtRefreshTokenExpires := 2592000

/-- The access token of a login at the second 1, and one obtained with the refresh
token of that login five seconds later, after which the user logs out. -/
theorem not_authenticates_refreshed :
    ∃ w, Reaches (step defaults) anyStep (start 1000000) w
      ∧ (∃ c ∈ w.issued, c.refreshedFrom = some ⟨1000000, []⟩ ∧ decodes defaults w c = true
        ∧ authenticates defaults w c = false) ∧ w.logouts = [7000000] := by
  obtain ⟨w, reached, issued, within, out⟩ :=
    exists_reaches_of_runWithin (step defaults) anyStep (start 1000000)
      [.loginApi true, .wait 5000000, .refresh ⟨.refresh, ⟨1000000, []⟩, none⟩, .wait 1000000,
       .logout ⟨.refresh, ⟨1000000, []⟩, none⟩]
      (fun w => ⟨.access, ⟨6000000, []⟩, some ⟨1000000, []⟩⟩ ∈ w.issued
        ∧ decodes defaults w ⟨.access, ⟨6000000, []⟩, some ⟨1000000, []⟩⟩ = true
        ∧ w.logouts = [7000000]) (by decide)
  have result := authenticates_iff reached issued within (fun _ => by decide)
  refine ⟨w, reached, ⟨_, issued, rfl, within, ?_⟩, out⟩
  refine result.2 _ rfl ⟨7000000, ?_, by decide⟩
  rw [out]
  exact mem_singleton.mpr rfl

/-- A login right after a logout, in the same second, is rejected. -/
theorem not_authenticates_same_second :
    ¬∀ (settings : Settings) (now : Int) (w : World) (c : Credential),
      Reaches (step settings) anyStep (start now) w → c ∈ w.issued → decodes settings w c = true →
      (authenticates settings w c = true ↔ w.logouts = c.issue.earlier) := by
  intro claim
  obtain ⟨w, reached, issued, within, noneLater, rejected⟩ :=
    exists_reaches_of_runWithin (step defaults) anyStep (start 1000000)
      [.loginBrowser, .wait 5000000, .logout ⟨.session, ⟨1000000, []⟩, none⟩, .wait 300000,
       .loginBrowser]
      (fun w => ⟨.session, ⟨6300000, [6000000]⟩, none⟩ ∈ w.issued
        ∧ decodes defaults w ⟨.session, ⟨6300000, [6000000]⟩, none⟩ = true
        ∧ w.logouts = [6000000]
        ∧ authenticates defaults w ⟨.session, ⟨6300000, [6000000]⟩, none⟩ = false) (by decide)
  have accepted := (claim defaults 1000000 w _ reached issued within).mpr noneLater
  rw [rejected] at accepted
  exact absurd accepted (by decide)

end Liteset.Security.Revocation
