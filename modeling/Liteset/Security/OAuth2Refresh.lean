import Liteset.Lib.Runs
import Mathlib.Logic.Function.Basic

/-!
# Refreshing an OAuth2 access token

Callers of `get_oauth2_access_token` on one user and database.  Each works in the
transaction of its own request: it reads the token row, takes the key-value lock, sends
the refresh token it has read to the provider, writes the new access token and releases
the lock; the transaction ends with the request, after that.  A row inserted in an open
transaction is seen by nobody else, but a second insertion of the lock's unique key waits
for the end of that transaction.

Tokens are numbered as the provider issues them; it takes a refresh token once.
-/

set_option autoImplicit false

namespace Liteset.Security.OAuth2Refresh

open Lib.Runs (Reaches anyStep exists_reaches_of_runWithin)

/-- `lock_expiration`, in microseconds. -/
def lockExpiration : Int := 30 * 1000000

/-- A row of `database_user_oauth2_tokens`. -/
structure Token where
  accessToken : Option Nat
  accessTokenExpiration : Option Int
  refreshToken : Option Nat
deriving DecidableEq

/-- `token.access_token and … and datetime.now() < token.access_token_expiration` -/
def Token.Valid (token : Token) (now : Int) : Prop :=
  token.accessToken.isSome ∧ ∃ expiration ∈ token.accessTokenExpiration, now < expiration

instance (token : Token) (now : Int) : Decidable (token.Valid now) :=
  match found : token.accessTokenExpiration with
  | none => isFalse fun ⟨_, _, member, _⟩ => by rw [found] at member; cases member
  | some expiration =>
    decidable_of_iff (token.accessToken.isSome ∧ now < expiration)
      (and_congr_right fun _ =>
        ⟨fun live => ⟨expiration, found, live⟩, fun ⟨_, member, live⟩ => by
          rw [found] at member
          cases member
          exact live⟩)

structure LockRow (C : Type) where
  insertedBy : C
  expiresOn : Int
deriving DecidableEq

structure Write where
  accessToken : Nat
  accessTokenExpiration : Int
deriving DecidableEq

inductive Stage where
  | body (token : Token)
  /-- The provider has returned a new access token. -/
  | granted (accessToken : Nat)
  /-- The provider's answer has no access token. -/
  | refused
  | written (write : Write)
  /-- The lock's row is deleted again. -/
  | released (write : Option Write)
  /-- The body has raised, and nothing was released. -/
  | raised (write : Option Write)
deriving DecidableEq

inductive Phase (C : Type) where
  | idle
  /-- The row it has read is not valid and has a refresh token. -/
  | found (token : Token)
  /-- No unexpired row of the lock was there. -/
  | checked (token : Token)
  /-- The expired row is deleted, if there was one. -/
  | purged (token : Token) (deleted : Option (LockRow C))
  | inside (stage : Stage) (inserted : LockRow C) (deleted : Option (LockRow C))
  /-- The row without a refresh token is to be deleted. -/
  | dropping
deriving DecidableEq

/-- What is committed, the locks of open transactions, and the provider's side: the
refresh tokens sent to it with its verdict, and the newest tokens it has returned. -/
structure World (C : Type) where
  now : Int
  stored : Option Token
  lockRow : Option (LockRow C)
  rowLock : Option C
  indexLock : Option C
  tokenLock : Option C
  phase : C → Phase C
  nextToken : Nat
  attempts : List (Nat × Bool)
  newestAccess : Option Nat
  newestRefresh : Option Nat

inductive Action (C : Type) where
  | tick (microseconds : Nat)
  | call (c : C)
  | get (c : C)
  | purge (c : C)
  | insert (c : C)
  /-- With a new refresh token or without. -/
  | exchange (c : C) (rotates : Bool)
  | refuse (c : C)
  | write (c : C) (expiresIn : Int)
  | release (c : C)
  | fail (c : C)
  | commit (c : C)
  | rollback (c : C)
deriving DecidableEq

variable {C : Type} [DecidableEq C]

def World.put (w : World C) (c : C) (phase : Phase C) : World C :=
  { w with phase := Function.update w.phase c phase }

def World.unlock (w : World C) (c : C) : World C :=
  { w with
    rowLock := if w.rowLock = some c then none else w.rowLock
    indexLock := if w.indexLock = some c then none else w.indexLock
    tokenLock := if w.tokenLock = some c then none else w.tokenLock }

/-- `get_oauth2_access_token` up to the refresh. -/
def call (w : World C) (c : C) : World C :=
  match w.stored with
  | none => w
  | some token =>
    if token.Valid w.now then w
    else if token.refreshToken.isSome then w.put c (.found token)
    else w.put c .dropping

/-- `GetDistributedLock`; where it finds the lock taken, the call raises. -/
def getLock (w : World C) (c : C) (token : Token) : World C :=
  match w.lockRow with
  | none => w.put c (.checked token)
  | some row => if w.now < row.expiresOn then w.put c .idle else w.put c (.checked token)

/-- The deletion of the expired row.  `none` while another transaction has the row. -/
def purge (w : World C) (c : C) (token : Token) : Option (World C) :=
  match w.lockRow with
  | none => some (w.put c (.purged token none))
  | some row =>
    if row.expiresOn ≤ w.now then
      if w.rowLock = none then some { w.put c (.purged token (some row)) with rowLock := some c }
        else none
    else some (w.put c (.purged token none))

/-- The insertion of the row, within a savepoint.  `none` while another transaction has
inserted a row of the key or deleted the one there is. -/
def insert (w : World C) (c : C) (token : Token) (deleted : Option (LockRow C)) :
    Option (World C) :=
  if w.indexLock = none then
    if w.lockRow = none ∨ w.lockRow = deleted then
      some { w.put c (.inside (.body token) { insertedBy := c, expiresOn := w.now + lockExpiration }
        deleted) with
        indexLock := some c }
    else if w.rowLock = none then some (w.put c .idle)
    else none
  else none

/-- `get_oauth2_fresh_token`, when the provider accepts the refresh token. -/
def exchange (w : World C) (c : C) (refreshToken : Nat) (rotates : Bool) (inserted : LockRow C)
    (deleted : Option (LockRow C)) : Option (World C) :=
  if (refreshToken, true) ∈ w.attempts then none
  else some { w.put c (.inside (.granted w.nextToken) inserted deleted) with
    nextToken := w.nextToken + 2
    attempts := w.attempts ++ [(refreshToken, true)]
    newestAccess := some w.nextToken
    newestRefresh := if rotates then some (w.nextToken + 1) else w.newestRefresh }

def write (w : World C) (c : C) (accessToken : Nat) (expiresIn : Int) (inserted : LockRow C)
    (deleted : Option (LockRow C)) : Option (World C) :=
  if w.tokenLock = none then
    match w.stored with
    | none => some (w.put c (.inside (.raised none) inserted deleted))
    | some _ =>
      some { w.put c (.inside (.written ⟨accessToken, w.now + expiresIn⟩) inserted deleted) with
        tokenLock := some c }
  else none

def Token.apply (token : Token) : Option Write → Token
  | none => token
  | some write =>
    { token with
      accessToken := some write.accessToken
      accessTokenExpiration := some write.accessTokenExpiration }

def commit (w : World C) (c : C) : Option (World C) :=
  match w.phase c with
  | .inside (.released update) _ deleted =>
    some { (w.unlock c).put c .idle with
      stored := w.stored.map fun token => token.apply update
      lockRow := if deleted.isSome then none else w.lockRow }
  -- the exception was handled within the request
  | .inside (.raised update) inserted _ =>
    some { (w.unlock c).put c .idle with
      stored := w.stored.map fun token => token.apply update
      lockRow := some inserted }
  | .dropping =>
    if w.tokenLock = none then some { (w.unlock c).put c .idle with stored := none } else none
  | _ => none

def step (w : World C) : Action C → Option (World C)
  | .tick n => some { w with now := w.now + n }
  | .call c =>
    match w.phase c with
    | .idle => some (call w c)
    | _ => none
  | .get c =>
    match w.phase c with
    | .found token => some (getLock w c token)
    | _ => none
  | .purge c =>
    match w.phase c with
    | .checked token => purge w c token
    | _ => none
  | .insert c =>
    match w.phase c with
    | .purged token deleted => insert w c token deleted
    | _ => none
  | .exchange c rotates =>
    match w.phase c with
    | .inside (.body token) inserted deleted =>
      match token.refreshToken with
      | some refreshToken => exchange w c refreshToken rotates inserted deleted
      | none => none
    | _ => none
  | .refuse c =>
    match w.phase c with
    | .inside (.body token) inserted deleted =>
      match token.refreshToken with
      | some refreshToken =>
        some { w.put c (.inside .refused inserted deleted) with
          attempts := w.attempts ++ [(refreshToken, false)] }
      | none => none
    | _ => none
  | .write c expiresIn =>
    match w.phase c with
    | .inside (.granted accessToken) inserted deleted =>
      write w c accessToken expiresIn inserted deleted
    | _ => none
  | .release c =>
    match w.phase c with
    | .inside (.written update) inserted deleted =>
      some (w.put c (.inside (.released (some update)) inserted deleted))
    | .inside .refused inserted deleted =>
      some (w.put c (.inside (.released none) inserted deleted))
    | _ => none
  | .fail c =>
    match w.phase c with
    | .inside (.body _) inserted deleted | .inside (.granted _) inserted deleted
    | .inside .refused inserted deleted => some (w.put c (.inside (.raised none) inserted deleted))
    | .inside (.written update) inserted deleted =>
      some (w.put c (.inside (.raised (some update)) inserted deleted))
    | _ => none
  | .commit c => commit w c
  | .rollback c => some ((w.unlock c).put c .idle)

def start (now : Int) (token : Token) : World C where
  now := now
  stored := some token
  lockRow := none
  rowLock := none
  indexLock := none
  tokenLock := none
  phase := fun _ => .idle
  nextToken := token.accessToken.getD 0 + token.refreshToken.getD 0 + 1
  attempts := []
  newestAccess := none
  newestRefresh := none

def Stage.inFlight : Stage → Option Nat
  | .granted accessToken => some accessToken
  | .written update | .released (some update) => some update.accessToken
  | _ => none

def Phase.Quiet (p : Phase C) : Prop :=
  ∀ stage inserted deleted, p = .inside stage inserted deleted → stage.inFlight = none

/-- No refresh token is sent again once the provider has taken it; unless a transaction
with a new access token is open, the row holds the newest tokens; and a committed row of
the lock belongs to a caller whose transaction is open. -/
structure Refreshed (w : World C) : Prop where
  once : w.attempts.Pairwise fun earlier later => earlier.2 = true → earlier.1 ≠ later.1
  newest : (∀ c, (w.phase c).Quiet) →
    ∀ accessToken, w.newestAccess = some accessToken →
      ∃ token, w.stored = some token ∧ token.accessToken = some accessToken
        ∧ ∀ refreshToken, w.newestRefresh = some refreshToken →
        token.refreshToken = some refreshToken
  unheld : ∀ row, w.lockRow = some row →
    ∃ stage inserted deleted, w.phase row.insertedBy = .inside stage inserted deleted

/-- The callers find the row of the start, or one that is valid; a caller takes the lock
only while the stored row is the one it has read; the provider returns no new refresh
token; once it has returned an access token the body does not raise and the transaction
is not undone; and the transaction of a body that has raised is undone. -/
def Orderly (token : Token) (w : World C) : Action C → Prop
  | .call _ => ∀ row, w.stored = some row → ¬row.Valid w.now → row = token
  | .insert c => ∀ row deleted, w.phase c = .purged row deleted → w.stored = some row
  | .exchange _ rotates => rotates = false
  | .fail c | .rollback c => (w.phase c).Quiet
  | .commit c => ∀ update inserted deleted, w.phase c ≠ .inside (.raised update) inserted deleted
  | _ => True

def Phase.reads : Phase C → Option Token
  | .found token | .checked token | .purged token _ | .inside (.body token) _ _ => some token
  | _ => none

def Phase.Outside (p : Phase C) : Prop :=
  ∀ stage inserted deleted, p ≠ .inside stage inserted deleted

inductive Story (t : Token) (attempts : List (Nat × Bool)) (newestAccess : Option Nat)
    (stored : Option Token)
    (phase : C → Phase C) : Prop
  | before (refused : ∀ a ∈ attempts, a.2 = false) (nothing : newestAccess = none)
      (quiet : ∀ c, (phase c).Quiet)
      (row : stored = some t ∨ t.refreshToken = none)
  | during (c : C) (stage : Stage) (inserted : LockRow C) (deleted : Option (LockRow C))
      (accessToken : Nat)
      (once : attempts.Pairwise fun earlier later => earlier.2 = true → earlier.1 ≠ later.1)
      (newest : newestAccess = some accessToken) (row : stored = some t)
      (refreshable : t.refreshToken ≠ none)
      (other : t.accessToken ≠ some accessToken) (within : phase c = .inside stage inserted deleted)
      (flight : stage.inFlight = some accessToken)
  | after (token : Token) (accessToken : Nat)
      (once : attempts.Pairwise fun earlier later => earlier.2 = true → earlier.1 ≠ later.1)
      (newest : newestAccess = some accessToken) (row : stored = some token)
      (refreshable : t.refreshToken ≠ none)
      (other : t.accessToken ≠ some accessToken) (written : token.accessToken = some accessToken)
      (outside : ∀ c, (phase c).Outside)

structure Inv (t : Token) (w : World C) : Prop where
  indexed : ∀ c stage inserted deleted, w.phase c = .inside stage inserted deleted →
    w.indexLock = some c
  free : w.lockRow = none
  read : ∀ c token, (w.phase c).reads = some token → token = t ∧ t.refreshToken ≠ none
  dropping : ∀ c, w.phase c = .dropping → t.refreshToken = none
  fresh : ∀ accessToken, t.accessToken = some accessToken → accessToken < w.nextToken
  unrotated : w.newestRefresh = none
  story : Story t w.attempts w.newestAccess w.stored w.phase

theorem pairwise_of_refused {attempts : List (Nat × Bool)} (refused : ∀ a ∈ attempts, a.2 = false) :
    attempts.Pairwise fun earlier later => earlier.2 = true → earlier.1 ≠ later.1 := by
  refine List.Pairwise.imp_of_mem ?_ (List.pairwise_of_forall fun _ _ => trivial)
  intro earlier later member _ _ taken
  rw [refused earlier member] at taken
  cases taken

section Updates
variable {t : Token} {attempts : List (Nat × Bool)} {newestAccess : Option Nat}
    {stored : Option Token}
  {phase : C → Phase C} {c : C} {p : Phase C}

theorem update_cases (P : C → Phase C → Prop) (own : P c p) (others : ∀ d, d ≠ c → P d (phase d))
    (d : C) :
    P d (Function.update phase c p d) := by
  by_cases same : d = c
  · subst same
    rw [Function.update_self]
    exact own
  · rw [Function.update_of_ne same]
    exact others d same

omit [DecidableEq C] in
theorem Phase.Outside.quiet (outside : p.Outside) : p.Quiet := fun stage inserted deleted within =>
  absurd within (outside stage inserted deleted)

theorem Story.update (story : Story t attempts newestAccess stored phase) (was : (phase c).Quiet)
    (quiet : p.Quiet)
    (still : (phase c).Outside → p.Outside) :
    Story t attempts newestAccess stored (Function.update phase c p) := by
  cases story with
  | before refused nothing idle row =>
    exact .before refused nothing (update_cases (fun _ p => p.Quiet) quiet fun d _ => idle d) row
  | during d stage inserted deleted accessToken once newest row refreshable other within flight =>
    have apart : d ≠ c := by
      rintro rfl
      rw [was stage inserted deleted within] at flight
      cases flight
    refine .during d stage inserted deleted accessToken once newest row refreshable other ?_ flight
    rw [Function.update_of_ne apart]
    exact within
  | after token accessToken once newest row refreshable other written outside =>
    exact .after token accessToken once newest row refreshable other written
      (update_cases (fun _ p => p.Outside) (still (outside c)) fun d _ => outside d)

end Updates

section Steps
variable {t : Token} {w u : World C} {c : C} {p : Phase C} {inserted : LockRow C}
    {deleted : Option (LockRow C)}

theorem Inv.put (inv : Inv t w) (was : (w.phase c).Outside) (outside : p.Outside)
    (reads : ∀ token, p.reads = some token → token = t ∧ t.refreshToken ≠ none)
    (drops : p = .dropping → t.refreshToken = none) : Inv t (w.put c p) where
  __ := inv
  indexed := update_cases
    (fun d p => ∀ stage inserted deleted, p = .inside stage inserted deleted → w.indexLock = some d)
    (fun stage inserted deleted entered => absurd entered (outside stage inserted deleted))
    fun d _ => inv.indexed d
  read := update_cases
    (fun _ p => ∀ token, p.reads = some token → token = t ∧ t.refreshToken ≠ none) reads
    fun d _ => inv.read d
  dropping := update_cases (fun _ p => p = .dropping → t.refreshToken = none) drops fun d _ =>
    inv.dropping d
  story := inv.story.update was.quiet outside.quiet fun _ => outside

theorem Inv.inside (inv : Inv t w) {stage next : Stage}
    (was : w.phase c = .inside stage inserted deleted)
    (body : ∀ token, next ≠ .body token)
    (story : Story t w.attempts w.newestAccess w.stored
      (Function.update w.phase c (.inside next inserted deleted))) :
    Inv t (w.put c (.inside next inserted deleted)) where
  __ := inv
  indexed := update_cases
    (fun d p => ∀ stage inserted deleted, p = .inside stage inserted deleted → w.indexLock = some d)
    (fun _ _ _ _ => inv.indexed c stage inserted deleted was) fun d _ => inv.indexed d
  read := update_cases
    (fun _ p => ∀ token, p.reads = some token → token = t ∧ t.refreshToken ≠ none)
    (fun token reads => by
      cases next with
      | body other => exact absurd rfl (body other)
      | granted | refused | written | released | raised => cases reads)
    fun d _ => inv.read d
  dropping := update_cases (fun _ p => p = .dropping → t.refreshToken = none) nofun fun d _ =>
    inv.dropping d
  story := story

theorem Inv.stay (inv : Inv t w) {stage next : Stage}
    (was : w.phase c = .inside stage inserted deleted)
    (quiet : stage.inFlight = none) (still : next.inFlight = none)
    (body : ∀ token, next ≠ .body token) :
    Inv t (w.put c (.inside next inserted deleted)) := by
  refine inv.inside was body (inv.story.update ?_ ?_ ?_)
  · intro other row earlier within
    rw [was] at within
    cases within
    exact quiet
  · rintro other row earlier ⟨⟩
    exact still
  · exact fun outside => absurd was (outside stage inserted deleted)

theorem Inv.call (inv : Inv t w) (idle : w.phase c = .idle)
    (same : ∀ row, w.stored = some row → ¬row.Valid w.now → row = t) : Inv t (call w c) := by
  have was : (w.phase c).Outside := by
    rw [idle]
    exact fun _ _ _ => nofun
  unfold OAuth2Refresh.call
  split
  · exact inv
  · next row stored =>
    split
    · exact inv
    · next expired =>
      obtain rfl := same row stored expired
      split
      · next refreshable =>
        refine inv.put was (fun _ _ _ => nofun) ?_ nofun
        rintro _ ⟨⟩
        exact ⟨rfl, fun none => by rw [none] at refreshable; cases refreshable⟩
      · next final =>
        refine inv.put was (fun _ _ _ => nofun) nofun fun _ => ?_
        simpa using final

variable {token : Token}

section
variable (inv : Inv t w)
include inv

theorem Inv.getLock (phase : w.phase c = .found token) : Inv t (getLock w c token) := by
  unfold OAuth2Refresh.getLock
  rw [inv.free]
  refine inv.put (fun _ _ _ => by rw [phase]; exact nofun) (fun _ _ _ => nofun) ?_ nofun
  rintro _ ⟨⟩
  exact inv.read c token (by rw [phase]; rfl)

theorem Inv.purge (phase : w.phase c = .checked token)
    (taken : purge w c token = some u) : Inv t u := by
  unfold OAuth2Refresh.purge at taken
  rw [inv.free] at taken
  cases taken
  refine inv.put (fun _ _ _ => by rw [phase]; exact nofun) (fun _ _ _ => nofun) ?_ nofun
  rintro _ ⟨⟩
  exact inv.read c token (by rw [phase]; rfl)

theorem Inv.insert (phase : w.phase c = .purged token deleted)
    (current : w.stored = some token) (taken : insert w c token deleted = some u) : Inv t u := by
  obtain ⟨rfl, refreshable⟩ := inv.read c token (by rw [phase]; rfl)
  unfold OAuth2Refresh.insert at taken
  split at taken
  · next unlocked =>
    have nobody : ∀ d, (w.phase d).Outside := by
      intro d stage inserted deleted within
      have locked := inv.indexed d stage inserted deleted within
      rw [unlocked] at locked
      cases locked
    rw [if_pos (Or.inl inv.free)] at taken
    cases taken
    refine ⟨?_, inv.free, ?_, ?_, inv.fresh, inv.unrotated, ?_⟩
    · refine update_cases
        (fun d p => ∀ stage inserted deleted, p = .inside stage inserted deleted → some c = some d)
        (fun _ _ _ _ => rfl) fun d _ stage inserted deleted within => ?_
      exact absurd within (nobody d stage inserted deleted)
    · refine update_cases
        (fun _ p => ∀ row, p.reads = some row → row = token ∧ token.refreshToken ≠ none) ?_
          fun d _ => inv.read d
      rintro _ ⟨⟩
      exact ⟨rfl, refreshable⟩
    · exact update_cases (fun _ p => p = .dropping → token.refreshToken = none) nofun fun d _ =>
        inv.dropping d
    · cases inv.story with
      | before refused nothing quiet row =>
        refine .before refused nothing (update_cases (fun _ p => p.Quiet) ?_ fun d _ => quiet d) row
        rintro _ _ _ ⟨⟩
        rfl
      | during d stage inserted deleted accessToken once newest row refreshable other within
          flight =>
        exact absurd within (nobody d stage inserted deleted)
      | after other accessToken once newest row refreshable apart written outside =>
        -- The row is no longer the one that was read.
        rw [current] at row
        cases row
        exact absurd written apart
  · cases taken

omit [DecidableEq C] in
theorem Inv.before_of_body (phase : w.phase c = .inside (.body token) inserted deleted) :
    token = t ∧ (∀ a ∈ w.attempts, a.2 = false) ∧ w.stored = some t := by
  obtain ⟨same, refreshable⟩ := inv.read c token (by rw [phase]; rfl)
  refine ⟨same, ?_⟩
  cases inv.story with
  | before refused nothing quiet row => exact ⟨refused, row.resolve_right refreshable⟩
  | during d stage row before accessToken once newest stored refreshable other within flight =>
    have locked := inv.indexed c _ _ _ phase
    rw [inv.indexed d _ _ _ within] at locked
    cases locked
    rw [phase] at within
    cases within
    cases flight
  | after other accessToken once newest row refreshable apart written outside =>
    exact absurd phase (outside c _ _ _)

theorem Inv.exchange {refreshToken : Nat}
    (phase : w.phase c = .inside (.body token) inserted deleted)
    (taken : exchange w c refreshToken false inserted deleted = some u) : Inv t u := by
  obtain ⟨rfl, refused, stored⟩ := inv.before_of_body phase
  have refreshable := (inv.read c token (by rw [phase]; rfl)).2
  unfold OAuth2Refresh.exchange at taken
  split at taken
  · cases taken
  · cases taken
    refine ⟨?_, inv.free, ?_, ?_, fun accessToken old => ?_, inv.unrotated, ?_⟩
    · exact update_cases
        (fun d p => ∀ stage inserted deleted, p = .inside stage inserted deleted →
          w.indexLock = some d)
        (fun _ _ _ _ => inv.indexed c _ _ _ phase) fun d _ => inv.indexed d
    · exact update_cases
        (fun _ p => ∀ row, p.reads = some row → row = token ∧ token.refreshToken ≠ none)
        nofun fun d _ => inv.read d
    · exact update_cases (fun _ p => p = .dropping → token.refreshToken = none) nofun fun d _ =>
        inv.dropping d
    · have older := inv.fresh accessToken old
      change accessToken < w.nextToken + 2
      omega
    · refine .during c (.granted w.nextToken) inserted deleted w.nextToken ?_ rfl stored
        refreshable ?_
        (Function.update_self ..) rfl
      · rw [List.pairwise_append]
        refine ⟨pairwise_of_refused refused, List.pairwise_singleton _ _, ?_⟩
        intro earlier member later _ taken
        rw [refused earlier member] at taken
        cases taken
      · intro old
        have older := inv.fresh _ old
        omega

theorem Inv.refuse (refreshToken : Nat)
    (phase : w.phase c = .inside (.body token) inserted deleted) :
    Inv t { w.put c (.inside .refused inserted deleted) with
      attempts := w.attempts ++ [(refreshToken, false)] } := by
  obtain ⟨rfl, refused, stored⟩ := inv.before_of_body phase
  have moved : Inv token (w.put c (.inside .refused inserted deleted)) :=
    inv.stay phase rfl rfl nofun
  refine ⟨moved.indexed, moved.free, moved.read, moved.dropping, moved.fresh, moved.unrotated, ?_⟩
  cases moved.story with
  | before _ nothing quiet row =>
    refine .before ?_ nothing quiet row
    intro a member
    rcases List.mem_append.mp member with old | new
    · exact refused a old
    · rw [List.mem_singleton.mp new]
  | during d stage row before accessToken once newest stored refreshable other within flight =>
    have locked : w.indexLock = some d := moved.indexed d _ _ _ within
    rw [inv.indexed c _ _ _ phase] at locked
    cases locked
    rw [show (w.put c (.inside .refused inserted deleted)).phase c = _ from
      Function.update_self ..] at within
    cases within
    cases flight
  | after other accessToken once newest row refreshable apart written outside =>
    exact absurd (Function.update_self ..) (outside c .refused inserted deleted)

omit [DecidableEq C] in
theorem Inv.stored_of_flight {stage : Stage} {accessToken : Nat}
    (was : w.phase c = .inside stage inserted deleted)
    (flight : stage.inFlight = some accessToken) :
    w.stored = some t ∧ t.refreshToken ≠ none ∧ t.accessToken ≠ some accessToken
      ∧ w.newestAccess = some accessToken
      ∧ w.attempts.Pairwise fun earlier later => earlier.2 = true → earlier.1 ≠ later.1 := by
  cases inv.story with
  | before refused nothing quiet row =>
    rw [quiet c stage inserted deleted was] at flight
    cases flight
  | during d other row earlier newest once returned stored refreshable apart within flying =>
    have locked := inv.indexed d _ _ _ within
    rw [inv.indexed c _ _ _ was] at locked
    cases locked
    rw [was] at within
    cases within
    rw [flight] at flying
    cases flying
    exact ⟨stored, refreshable, apart, returned, once⟩
  | after other newest once returned row refreshable apart written outside =>
    exact absurd was (outside c stage inserted deleted)

theorem Inv.carry {stage next : Stage} {accessToken : Nat}
    (was : w.phase c = .inside stage inserted deleted) (flight : stage.inFlight = some accessToken)
    (still : next.inFlight = some accessToken) (body : ∀ token, next ≠ .body token) :
    Inv t (w.put c (.inside next inserted deleted)) := by
  obtain ⟨row, refreshable, apart, returned, once⟩ := inv.stored_of_flight was flight
  exact inv.inside was body
    (.during c next inserted deleted accessToken once returned row refreshable apart
    (Function.update_self ..) still)

theorem Inv.write {accessToken : Nat} {expiresIn : Int}
    (phase : w.phase c = .inside (.granted accessToken) inserted deleted)
    (taken : write w c accessToken expiresIn inserted deleted = some u) : Inv t u := by
  have row := (inv.stored_of_flight phase rfl).1
  unfold OAuth2Refresh.write at taken
  rw [row] at taken
  split at taken
  · cases taken
    have moved : Inv t
      (w.put c (.inside (.written ⟨accessToken, w.now + expiresIn⟩) inserted deleted)) :=
      inv.carry phase rfl rfl nofun
    exact ⟨moved.indexed, moved.free, moved.read, moved.dropping, moved.fresh, moved.unrotated,
      moved.story⟩
  · cases taken

theorem Inv.leave {stored : Option Token} {lockRow : Option (LockRow C)} (free : lockRow = none)
    (story : Story t w.attempts w.newestAccess stored (Function.update w.phase c .idle)) :
    Inv t { (w.unlock c).put c .idle with stored := stored, lockRow := lockRow } where
  __ := inv
  indexed := update_cases
    (fun d p => ∀ stage inserted deleted, p = .inside stage inserted deleted →
      (if w.indexLock = some c then none else w.indexLock) = some d) nofun
    fun d apart stage inserted deleted within => by
      have locked := inv.indexed d stage inserted deleted within
      rw [locked, if_neg fun same => apart (Option.some.inj same)]
  free := free
  read := update_cases
    (fun _ p => ∀ token, p.reads = some token → token = t ∧ t.refreshToken ≠ none) nofun
    fun d _ => inv.read d
  dropping := update_cases (fun _ p => p = .dropping → t.refreshToken = none) nofun fun d _ =>
    inv.dropping d
  story := story

theorem Inv.quit (quiet : (w.phase c).Quiet) :
    Story t w.attempts w.newestAccess w.stored (Function.update w.phase c .idle) :=
  inv.story.update quiet nofun fun _ => nofun

theorem Inv.commit
    (raised : ∀ update inserted deleted, w.phase c ≠ .inside (.raised update) inserted deleted)
    (taken : commit w c = some u) : Inv t u := by
  unfold OAuth2Refresh.commit at taken
  split at taken
  · next update inserted deleted phase =>
    cases taken
    have free : (if deleted.isSome then none else w.lockRow) = none := by rw [inv.free, ite_self]
    refine inv.leave free ?_
    cases update with
    | none =>
      have same : (w.stored.map fun token => token.apply none) = w.stored := by
        cases w.stored <;> rfl
      rw [same]
      refine inv.quit fun stage row earlier within => ?_
      rw [phase] at within
      cases within
      rfl
    | some update =>
      obtain ⟨row, refreshable, apart, returned, once⟩ := inv.stored_of_flight phase rfl
      rw [row]
      refine .after (t.apply (some update)) update.accessToken once returned rfl refreshable
        apart rfl
        (update_cases (fun _ p => p.Outside) nofun fun d other stage inserted deleted within => ?_)
      have locked := inv.indexed d _ _ _ within
      rw [inv.indexed c _ _ _ phase] at locked
      exact other (Option.some.inj locked).symm
  · next phase => exact absurd phase (raised _ _ _)
  · next phase =>
    have final := inv.dropping c phase
    split at taken
    · cases taken
      refine inv.leave inv.free ?_
      have quiet : (w.phase c).Quiet := by
        intro stage row earlier within
        rw [phase] at within
        cases within
      cases inv.quit quiet with
      | before refused nothing quiet row => exact .before refused nothing quiet (Or.inr final)
      | during d stage row earlier accessToken once newest stored refreshable =>
        exact absurd final refreshable
      | after other accessToken once newest row refreshable => exact absurd final refreshable
    · cases taken
  · cases taken

theorem Inv.step (a : Action C) (ok : Orderly t w a) (taken : step w a = some u) : Inv t u := by
  cases a with
  | tick n =>
    cases taken
    exact ⟨inv.indexed, inv.free, inv.read, inv.dropping, inv.fresh, inv.unrotated, inv.story⟩
  | call c =>
    simp only [OAuth2Refresh.step] at taken
    split at taken
    · next idle =>
      cases taken
      exact inv.call idle ok
    · cases taken
  | get c =>
    simp only [OAuth2Refresh.step] at taken
    split at taken
    · next token phase =>
      cases taken
      exact inv.getLock phase
    · cases taken
  | purge c =>
    simp only [OAuth2Refresh.step] at taken
    split at taken
    · next token phase => exact inv.purge phase taken
    · cases taken
  | insert c =>
    simp only [OAuth2Refresh.step] at taken
    split at taken
    · next token deleted phase => exact inv.insert phase (ok token deleted phase) taken
    · cases taken
  | exchange c rotates =>
    obtain rfl : rotates = false := ok
    simp only [OAuth2Refresh.step] at taken
    split at taken
    · next token inserted deleted phase =>
      split at taken
      · exact inv.exchange phase taken
      · cases taken
    · cases taken
  | refuse c =>
    simp only [OAuth2Refresh.step] at taken
    split at taken
    · next token inserted deleted phase =>
      split at taken
      · cases taken
        exact inv.refuse _ phase
      · cases taken
    · cases taken
  | write c expiresIn =>
    simp only [OAuth2Refresh.step] at taken
    split at taken
    · next phase => exact inv.write phase taken
    · cases taken
  | release c =>
    simp only [OAuth2Refresh.step] at taken
    split at taken
    · next phase =>
      cases taken
      exact inv.carry phase rfl rfl nofun
    · next phase =>
      cases taken
      exact inv.stay phase rfl rfl nofun
    · cases taken
  | fail c =>
    simp only [OAuth2Refresh.step] at taken
    split at taken
    · next phase =>
      cases taken
      exact inv.stay phase rfl rfl nofun
    · next phase => cases ok _ _ _ phase
    · next phase =>
      cases taken
      exact inv.stay phase rfl rfl nofun
    · next phase => cases ok _ _ _ phase
    · cases taken
  | commit c => exact inv.commit ok taken
  | rollback c =>
    cases taken
    exact inv.leave inv.free (inv.quit ok)

end

end Steps

omit [DecidableEq C] in
theorem inv_start (now : Int) (t : Token) : Inv t (start now t : World C) where
  indexed _ _ _ _ within := by cases within
  free := rfl
  read _ _ reads := by cases reads
  dropping _ drops := by cases drops
  fresh accessToken old := by
    simp only [start, old, Option.getD_some]
    omega
  unrotated := rfl
  story := .before (fun _ member => nomatch member) rfl (fun _ _ _ _ within => nomatch within)
    (Or.inl rfl)

omit [DecidableEq C] in
theorem Inv.refreshed {t : Token} {w : World C} (inv : Inv t w) : Refreshed w where
  once := by
    cases inv.story with
    | before refused nothing quiet row => exact pairwise_of_refused refused
    | during d stage inserted deleted accessToken once => exact once
    | after token accessToken once => exact once
  newest quiet accessToken returned := by
    cases inv.story with
    | before refused nothing idle row =>
      rw [nothing] at returned
      cases returned
    | during d stage inserted deleted other once newest row refreshable apart within flight =>
      rw [quiet d stage inserted deleted within] at flight
      cases flight
    | after token other once newest row refreshable apart written outside =>
      rw [newest] at returned
      cases returned
      refine ⟨token, row, written, fun refreshToken rotated => ?_⟩
      rw [inv.unrotated] at rotated
      cases rotated
  unheld row held := by
    rw [inv.free] at held
    cases held

/-- In a run whose steps are all orderly a refresh is done once and nothing is lost. -/
theorem refreshed_of_orderly (now : Int) (token : Token) (w : World C)
    (reached : Reaches step (Orderly token) (start now token) w) : Refreshed w :=
  (reached.invariant (Inv token) (inv_start now token) fun _ a _ inv ok taken =>
    inv.step a ok taken).refreshed

instance (p : Phase Bool) : Decidable p.Quiet :=
  match p with
  | .inside stage inserted deleted =>
    decidable_of_iff (stage.inFlight = none)
      ⟨fun none _ _ _ same => by cases same; exact none,
        fun quiet => quiet stage inserted deleted rfl⟩
  | .idle | .found _ | .checked _ | .purged _ _ | .dropping => isTrue fun _ _ _ => nofun

instance (token : Token) (w : World Bool) (a : Action Bool) : Decidable (Orderly token w a) :=
  match a with
  | .call _ =>
    match found : w.stored with
    | none => isTrue fun row same => by rw [found] at same; cases same
    | some row =>
      decidable_of_iff (¬row.Valid w.now → row = token)
        ⟨fun same _ stored => by rw [found] at stored; cases stored; exact same,
          fun same => same row found⟩
  | .insert c =>
    match found : w.phase c with
    | .purged row deleted =>
      decidable_of_iff (w.stored = some row)
        ⟨fun same _ _ purged => by rw [found] at purged; cases purged; exact same,
          fun same => same row deleted found⟩
    | .idle | .found _ | .checked _ | .inside _ _ _ | .dropping =>
      isTrue fun _ _ purged => by rw [found] at purged; cases purged
  | .exchange _ rotates => inferInstanceAs (Decidable (rotates = false))
  | .fail c | .rollback c => inferInstanceAs (Decidable (w.phase c).Quiet)
  | .commit c =>
    match found : w.phase c with
    | .inside (.raised update) inserted deleted =>
      isFalse fun never => never update inserted deleted found
    | .inside (.body _) _ _ | .inside (.granted _) _ _ | .inside .refused _ _ | .inside
        (.written _) _ _
    | .inside (.released _) _ _ | .idle | .found _ | .checked _ | .purged _ _ | .dropping =>
      isTrue fun _ _ _ raised => by rw [found] at raised; cases raised
  | .tick _ | .get _ | .purge _ | .refuse _ | .write _ _ | .release _ => isTrue trivial

def expiredToken : Token where
  accessToken := some 1
  accessTokenExpiration := some 0
  refreshToken := some 2

def refresh (c : Bool) (rotates : Bool) : List (Action Bool) :=
  [.get c, .purge c, .insert c, .exchange c rotates, .write c 3600000000, .release c, .commit c]

/-- A caller comes after the refresh of the first. -/
theorem refreshed_in_turn : ∃ w : World Bool,
    Reaches step (Orderly expiredToken) (start 100 expiredToken) w ∧ w.newestAccess = some 4 ∧
    Refreshed w := by
  obtain ⟨w, reached, newest⟩ := exists_reaches_of_runWithin step (Orderly expiredToken)
    (start 100 expiredToken) (.call false :: refresh false false ++ [.call true])
    (fun w => w.newestAccess = some 4) (by decide)
  exact ⟨w, reached, newest, refreshed_of_orderly 100 expiredToken w reached⟩

/-- The second caller sends the same refresh token, a new one is not stored, and a body that
raises leaves the row of the lock. -/
theorem refresh_loses :
    (∃ w : World Bool, Reaches step anyStep (start 100 expiredToken) w ∧ ¬Refreshed w
      ∧ w.attempts = [(2, true), (2, false)])
    ∧ (∃ w : World Bool, Reaches step anyStep (start 100 expiredToken) w ∧ ¬Refreshed w
      ∧ w.newestRefresh = some 5 ∧ w.stored = some ⟨some 4, some 3600000100, some 2⟩)
    ∧ ∃ w : World Bool, Reaches step anyStep (start 100 expiredToken) w ∧ ¬Refreshed w
      ∧ w.lockRow = some ⟨false, 30000100⟩ ∧ w.phase false = .idle := by
  refine ⟨?_, ?_, ?_⟩
  · obtain ⟨w, reached, twice⟩ := exists_reaches_of_runWithin step anyStep (start 100 expiredToken)
      ([.call false, .call true] ++ refresh false false ++ [.get true, .purge true, .insert true,
        .refuse true])
      (fun w => w.attempts = [(2, true), (2, false)]) (by decide)
    refine ⟨w, reached, fun refreshed => ?_, twice⟩
    have once := refreshed.once
    rw [twice] at once
    exact absurd once (by decide)
  · obtain ⟨w, reached, quiet, newest, rotated, stored⟩ := exists_reaches_of_runWithin step anyStep
      (start 100 expiredToken) (.call false :: refresh false true)
      (fun w => (∀ c, (w.phase c).Quiet) ∧ w.newestAccess = some 4 ∧ w.newestRefresh = some 5
        ∧ w.stored = some ⟨some 4, some 3600000100, some 2⟩) (by decide)
    refine ⟨w, reached, fun refreshed => ?_, rotated, stored⟩
    obtain ⟨token, row, _, refreshToken⟩ := refreshed.newest quiet 4 newest
    rw [stored] at row
    cases row
    exact absurd (refreshToken 5 rotated) (by decide)
  · obtain ⟨w, reached, held, idle⟩ :=
      exists_reaches_of_runWithin step anyStep (start 100 expiredToken)
      [.call false, .get false, .purge false, .insert false, .fail false, .commit false]
      (fun w => w.lockRow = some ⟨false, 30000100⟩ ∧ w.phase false = .idle) (by decide)
    refine ⟨w, reached, fun refreshed => ?_, held, idle⟩
    obtain ⟨stage, inserted, deleted, within⟩ := refreshed.unheld _ held
    rw [idle] at within
    cases within

end Liteset.Security.OAuth2Refresh
