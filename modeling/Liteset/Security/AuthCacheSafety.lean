import Std.Data.String.ToNat
import Liteset.Security.AuthCache

/-!
# Revoked permissions and the auth cache

A request that starts after an invalidation call has returned should see the
change.  The epoch is read, and the entry written, after the database load, so a
load that is overtaken by a change and its invalidation is stored as if it were
new.  `safe_of_timely` says that this is the only way: in every run in which no
request stamps or stores such a load, no later request is given it.
-/

set_option autoImplicit false

namespace Liteset.Security.AuthCache

open Liteset.Lib.Runs List

/-- The data was read after every one of these changes that concerns the target. -/
def Fresh (calls : List Invalidation) (target : Target) (readAt : Nat) : Prop :=
  ∀ call ∈ calls, call.change.Covers target → call.version ≤ readAt

def Phase.given : Phase → Option CachedUser
  | .done user => user
  | _ => none

/-- No request has been given a user that was read before a change whose
invalidation had returned when the request started. -/
def Safe (st : State) : Prop :=
  ∀ r ∈ st.requests, ∀ user ∈ r.phase.given, Fresh r.since r.target r.readAt

def BumpsBefore (calls : List Invalidation) (readAt : Nat) : Prop :=
  ∀ call ∈ calls, call.change = .bumpAuthEpoch → call.version ≤ readAt

def Change.Invalidates (change : Change) (userId : Nat) : Prop := change.Covers (.user userId) ∧
  change ≠ .bumpAuthEpoch

def UserCallsBefore (calls : List Invalidation) (userId readAt : Nat) : Prop :=
  ∀ call ∈ calls, call.change.Invalidates userId → call.version ≤ readAt

instance (change : Change) (target : Target) : Decidable (change.Covers target) :=
  match change, target with
  | .bumpAuthEpoch, _ => inferInstanceAs (Decidable True)
  | .invalidateUser userId _ _, .user other => inferInstanceAs (Decidable (userId = other))
  | .invalidateUser _ _ _, .publicRole _ => inferInstanceAs (Decidable False)

instance (calls : List Invalidation) (target : Target) (readAt : Nat) :
    Decidable (Fresh calls target readAt) :=
  inferInstanceAs (Decidable (∀ call ∈ calls, _))

instance (st : State) : Decidable (Safe st) :=
  inferInstanceAs (Decidable (∀ r ∈ st.requests, ∀ user ∈ r.phase.given, _))

instance (change : Change) (userId : Nat) : Decidable (change.Invalidates userId) :=
  inferInstanceAs (Decidable (_ ∧ _))

instance (calls : List Invalidation) (readAt : Nat) : Decidable (BumpsBefore calls readAt) :=
  inferInstanceAs (Decidable (∀ call ∈ calls, _))

instance (calls : List Invalidation) (userId readAt : Nat) :
    Decidable (UserCallsBefore calls userId readAt) :=
  inferInstanceAs (Decidable (∀ call ∈ calls, _))

/-- The request is not about to stamp a load that is older than a change whose
epoch bump has returned, nor to store a user that is older than a change whose
key deletion has returned. -/
def Request.Timely (st : State) (r : Request) : Prop :=
  match r.phase, r.target with
  | .readEpoch _, _ => BumpsBefore st.returned r.readAt
  | .set user _, .user _ => UserCallsBefore st.returned user.id r.readAt
  | _, _ => True

instance (st : State) (r : Request) : Decidable (r.Timely st) := by
  unfold Request.Timely
  split <;> infer_instance

def Timely (st : State) : Action → Prop
  | .advance i => ∀ r ∈ st.requests[i]?, r.Timely st
  | _ => True

instance (st : State) (a : Action) : Decidable (Timely st a) :=
  match a with
  | .advance i => inferInstanceAs (Decidable (∀ r ∈ st.requests[i]?, r.Timely st))
  | .start _ | .dbError _ | .commit _ _ | .invalidate _ => inferInstanceAs (Decidable True)

theorem asCacheStr_injective (a b : Option Nat) (same : asCacheStr a = asCacheStr b) : a = b := by
  have nonempty : ∀ n : Nat, toString n ≠ "" := by
    intro n empty
    have digits : n.repr.toList = [] := by
      rw [show n.repr = "" from empty]
      rfl
    rw [Nat.toList_repr] at digits
    exact Nat.toDigits_ne_nil digits
  cases a with
  | none =>
    cases b with
    | none => rfl
    | some n => exact absurd same.symm (nonempty n)
  | some m =>
    cases b with
    | none => exact absurd same (nonempty m)
    | some n => rw [Nat.repr_injective same]

theorem userCacheKey_injective (m n : Nat) (same : userCacheKey m = userCacheKey n) : m = n := by
  have chars := congrArg String.toList same
  simp only [userCacheKey, String.toList_append] at chars
  exact Nat.repr_injective (String.toList_inj.mp (append_cancel_left chars))

theorem userCacheKey_ne_publicRole (n : Nat) : PUBLIC_ROLE_CACHE_KEY ≠ userCacheKey n := by
  intro same
  have chars := congrArg (fun s => s.toList[5]?) same
  simp [userCacheKey, PUBLIC_ROLE_CACHE_KEY] at chars

/-- The epoch was read at or before the present counter, and if the counter has
not moved since, every bump precedes the load. -/
structure Stamped (counter : Option Nat) (calls : List Invalidation) (epoch : String)
    (readAt : Nat) : Prop where
  minted : ∃ c : Option Nat, epoch = asCacheStr c ∧ c.getD 0 ≤ counter.getD 0
  current : epoch = asCacheStr counter → BumpsBefore calls readAt

structure EntryOk (st : State) (key : String) (envelope : Envelope) : Prop where
  stamped : Stamped st.redis.epoch st.returned envelope.data.epoch envelope.readAt
  ownCalls : ∀ userId, key = userCacheKey userId →
    UserCallsBefore st.returned userId envelope.readAt

def Phase.Loaded : Phase → Prop
  | .lookup | .selectUser _ | .selectPublic _ | .done none => False
  | _ => True

structure RequestOk (st : State) (r : Request) : Prop where
  since : ∀ call ∈ r.since, call ∈ st.returned
  fresh : r.phase.Loaded → Fresh r.since r.target r.readAt
  stamped : ∀ user epoch, r.phase = .set user epoch →
    Stamped st.redis.epoch st.returned epoch r.readAt

structure Sound (st : State) : Prop where
  returned : ∀ call ∈ st.returned, call.version ≤ st.version
  pending : ∀ call ∈ st.pending, call.version ≤ st.version
  entries : ∀ key envelope, (key, envelope) ∈ st.redis.entries → EntryOk st key envelope
  requests : ∀ r ∈ st.requests, RequestOk st r

theorem sound_initial (db : SecurityDb) (epoch : Option Nat) : Sound (initial db epoch) where
  returned := by simp [initial]
  pending := by simp [initial]
  entries := by simp [initial]
  requests := by simp [initial]

theorem safe_of_sound {st : State} (sound : Sound st) : Safe st := by
  intro r member user given
  apply (sound.requests r member).fresh
  cases phase : r.phase with
  | done result =>
    rw [phase] at given
    obtain rfl : result = some user := given
    trivial
  | _ =>
    rw [phase] at given
    cases given

inductive Advanced (sign : String → Payload → String) (st : State) (r : Request) :
    Redis → Request → Prop
  | hit (user : CachedUser) (readAt : Nat) : lookup sign st.redis r.target = some (user, readAt) →
      Advanced sign st r st.redis { r with phase := .done (some user), readAt }
  | unloaded (phase : Phase) : ¬ phase.Loaded → Advanced sign st r st.redis { r with phase }
  | loads (phase : Phase) : (∀ user epoch, phase ≠ .set user epoch) →
      Advanced sign st r st.redis { r with phase, readAt := st.version }
  | continues (phase : Phase) : r.phase.Loaded → (∀ user epoch, phase ≠ .set user epoch) →
      Advanced sign st r st.redis { r with phase }
  | stamps (user : CachedUser) : r.phase = .readEpoch user →
      Advanced sign st r st.redis { r with phase := .set user (readAuthEpoch st.redis) }
  | stores (user : CachedUser) (epoch : String) (envelope : Envelope) :
      r.phase = .set user epoch → envelope.data = payload r.target epoch user →
      envelope.readAt = r.readAt →
      Advanced sign st r (st.redis.set (cacheKey r.target user) envelope)
        { r with phase := .done (some user) }

theorem nextGroup_ne_set (user : CachedUser) (groups : List Nat) (other : CachedUser)
    (epoch : String) : nextGroup user groups ≠ .set other epoch := by
  cases groups with
  | nil => simp [nextGroup]
  | cons g rest => simp [nextGroup]

theorem miss_not_loaded (target : Target) : ¬ (miss target).Loaded := by
  cases target with
  | user userId => exact id
  | publicRole roleName => exact id

theorem advance_cases (sign : String → Payload → String) (st : State) (r : Request)
    (redis : Redis) (r' : Request) (taken : r.advance sign st = some (redis, r')) :
    Advanced sign st r redis r' := by
  unfold Request.advance at taken
  cases phase : r.phase with
  | lookup =>
    simp only [phase] at taken
    cases found : lookup sign st.redis r.target with
    | none =>
      simp only [found, Option.some.injEq, Prod.mk.injEq] at taken
      obtain ⟨rfl, rfl⟩ := taken
      exact .unloaded _ (miss_not_loaded r.target)
    | some given =>
      simp only [found, Option.some.injEq, Prod.mk.injEq] at taken
      obtain ⟨rfl, rfl⟩ := taken
      exact .hit given.1 given.2 found
  | selectUser userId =>
    simp only [phase] at taken
    cases found : st.db.getUserById userId with
    | none =>
      simp only [found, Option.some.injEq, Prod.mk.injEq] at taken
      obtain ⟨rfl, rfl⟩ := taken
      exact .unloaded _ id
    | some row =>
      simp only [found] at taken
      split at taken
      · simp only [Option.some.injEq, Prod.mk.injEq] at taken
        obtain ⟨rfl, rfl⟩ := taken
        exact .unloaded _ id
      · simp only [Option.some.injEq, Prod.mk.injEq] at taken
        obtain ⟨rfl, rfl⟩ := taken
        exact .loads _ (by simp)
  | selectPublic roleName =>
    simp only [phase, Option.some.injEq, Prod.mk.injEq] at taken
    obtain ⟨rfl, rfl⟩ := taken
    exact .loads _ (by simp)
  | selectGroups user =>
    simp only [phase, Option.some.injEq, Prod.mk.injEq] at taken
    obtain ⟨rfl, rfl⟩ := taken
    exact .continues _ (by rw [phase]; trivial) (nextGroup_ne_set _ _)
  | selectGroupRoles user groupId rest =>
    simp only [phase, Option.some.injEq, Prod.mk.injEq] at taken
    obtain ⟨rfl, rfl⟩ := taken
    exact .continues _ (by rw [phase]; trivial) (nextGroup_ne_set _ _)
  | readEpoch user =>
    simp only [phase, Option.some.injEq, Prod.mk.injEq] at taken
    obtain ⟨rfl, rfl⟩ := taken
    exact .stamps user phase
  | set user epoch =>
    simp only [phase, Option.some.injEq, Prod.mk.injEq] at taken
    obtain ⟨rfl, rfl⟩ := taken
    exact .stores user epoch _ phase rfl rfl
  | done user => simp [phase] at taken
  | selectRoles user | selectPermissions user | selectGroupPermissions user =>
    simp only [phase, Option.some.injEq, Prod.mk.injEq] at taken
    obtain ⟨rfl, rfl⟩ := taken
    exact .continues _ (by rw [phase]; trivial) (by simp)

theorem lookup_hit (sign : String → Payload → String) (redis : Redis) (target : Target)
    (user : CachedUser) (readAt : Nat) (found : lookup sign redis target = some (user, readAt)) :
    ∃ key envelope, (key, envelope) ∈ redis.entries ∧ envelope.readAt = readAt ∧
      envelope.data.epoch = asCacheStr redis.epoch ∧
      ∀ userId, target = .user userId → key = userCacheKey userId := by
  have member : ∀ key envelope, redis.get key = some envelope →
      (key, envelope) ∈ redis.entries := by
    intro key envelope got
    simp only [Redis.get, Option.map_eq_some_iff] at got
    obtain ⟨e, inEntries, rfl⟩ := got
    have named : e.1 = key := by simpa using find?_some inEntries
    rw [← named]
    exact mem_of_find?_eq_some inEntries
  cases target with
  | user userId =>
    simp only [lookup, getCachedUser] at found
    cases got : redis.get (userCacheKey userId) with
    | none => simp [got] at found
    | some envelope =>
      simp only [got] at found
      split at found
      · cases data : envelope.data with
        | publicRole epoch role permissions => simp [data] at found
        | user epoch cached =>
          simp only [data] at found
          split at found
          · cases found
          · rename_i current
            split at found
            · cases found
            · split at found
              · simp only [Option.some.injEq, Prod.mk.injEq] at found
                refine ⟨_, envelope, member _ _ got, found.2, ?_, ?_⟩
                · rw [data]
                  exact not_not.mp current
                · intro other same
                  cases same
                  rfl
              · cases found
      · cases found
  | publicRole roleName =>
    simp only [lookup, getCachedPublicRolePerms] at found
    cases got : redis.get PUBLIC_ROLE_CACHE_KEY with
    | none => simp [got] at found
    | some envelope =>
      simp only [got] at found
      split at found
      · cases data : envelope.data with
        | user epoch cached => simp [data] at found
        | publicRole epoch role permissions =>
          simp only [data] at found
          split at found
          · cases found
          · split at found
            · cases found
            · rename_i current
              simp only [Option.some.injEq, Prod.mk.injEq] at found
              refine ⟨_, envelope, member _ _ got, found.2, ?_, ?_⟩
              · rw [data]
                exact not_not.mp current
              · intro other same
                cases same
      · cases found

theorem Stamped.bump {counter : Option Nat} {calls : List Invalidation} {epoch : String}
    {readAt : Nat} (stamped : Stamped counter calls epoch readAt) (call : Invalidation) :
    Stamped (some (counter.getD 0 + 1)) (calls ++ [call]) epoch readAt := by
  obtain ⟨c, isEpoch, bound⟩ := stamped.minted
  refine ⟨⟨c, isEpoch, ?_⟩, ?_⟩
  · simp only [Option.getD_some]
    omega
  · intro current
    obtain rfl := asCacheStr_injective _ _ (isEpoch.symm.trans current)
    simp only [Option.getD_some] at bound
    omega

theorem Stamped.userCall {counter : Option Nat} {calls : List Invalidation} {epoch : String}
    {readAt : Nat} (stamped : Stamped counter calls epoch readAt) (call : Invalidation)
    (notBump : call.change ≠ .bumpAuthEpoch) : Stamped counter (calls ++ [call]) epoch readAt := by
  refine ⟨stamped.minted, ?_⟩
  intro current earlier member isBump
  rcases mem_append.mp member with inCalls | isCall
  · exact stamped.current current earlier inCalls isBump
  · rw [mem_singleton.mp isCall] at isBump
    exact absurd isBump notBump

section Kept
variable {sign : String → Payload → String} {st : State}

theorem Sound.fresh_of_hit (sound : Sound st) (target : Target) (user : CachedUser) (readAt : Nat)
    (found : lookup sign st.redis target = some (user, readAt)) :
    Fresh st.returned target readAt := by
  obtain ⟨key, envelope, member, rfl, current, ownKey⟩ := lookup_hit sign _ _ _ _ found
  have entry := sound.entries key envelope member
  intro call inReturned covers
  cases change : call.change with
  | bumpAuthEpoch => exact entry.stamped.current current call inReturned change
  | invalidateUser userId username email =>
    rw [change] at covers
    cases target with
    | publicRole roleName => exact covers.elim
    | user other =>
      refine entry.ownCalls other (ownKey other rfl) call inReturned ?_
      rw [change]
      exact ⟨covers, by simp⟩

theorem Sound.advance (sound : Sound st) (r : Request) (member : r ∈ st.requests)
    (timely : r.Timely st) (redis : Redis) (r' : Request)
    (taken : r.advance sign st = some (redis, r')) :
    RequestOk { st with redis } r' ∧ redis.epoch = st.redis.epoch ∧
      ∀ key envelope, (key, envelope) ∈ redis.entries → EntryOk { st with redis } key envelope := by
  have ok := sound.requests r member
  have kept : ∀ key envelope, (key, envelope) ∈ st.redis.entries → EntryOk st key envelope :=
    sound.entries
  cases advance_cases sign st r redis r' taken with
  | hit user readAt found =>
    refine ⟨⟨ok.since, ?_, ?_⟩, rfl, kept⟩
    · intro loaded call inSince
      exact sound.fresh_of_hit r.target user readAt found call (ok.since call inSince)
    · intro other epoch isSet
      cases isSet
  | unloaded phase notLoaded =>
    refine ⟨⟨ok.since, ?_, ?_⟩, rfl, kept⟩
    · intro loaded
      exact absurd loaded notLoaded
    · intro user epoch isSet
      cases isSet
      exact absurd trivial notLoaded
  | loads phase notSet =>
    refine ⟨⟨ok.since, ?_, ?_⟩, rfl, kept⟩
    · intro loaded call inSince covers
      exact sound.returned call (ok.since call inSince)
    · intro user epoch isSet
      exact absurd isSet (notSet user epoch)
  | continues phase loaded notSet =>
    refine ⟨⟨ok.since, ?_, ?_⟩, rfl, kept⟩
    · intro _
      exact ok.fresh loaded
    · intro user epoch isSet
      exact absurd isSet (notSet user epoch)
  | stamps user isRead =>
    have bumps : BumpsBefore st.returned r.readAt := by
      simpa only [Request.Timely, isRead] using timely
    refine ⟨⟨ok.since, ?_, ?_⟩, rfl, kept⟩
    · intro _
      apply ok.fresh
      rw [isRead]
      trivial
    · intro other epoch isSet
      cases isSet
      exact ⟨⟨st.redis.epoch, rfl, Nat.le_refl _⟩, fun _ => bumps⟩
  | stores user epoch envelope isSet data readAt =>
    have stamped := ok.stamped user epoch isSet
    refine ⟨⟨ok.since, ?_, ?_⟩, rfl, ?_⟩
    · intro _
      apply ok.fresh
      rw [isSet]
      trivial
    · intro other otherEpoch isSet'
      cases isSet'
    · intro key entry inEntries
      rcases mem_cons.mp inEntries with isNew | isOld
      · obtain ⟨rfl, rfl⟩ := Prod.mk.inj isNew
        refine ⟨?_, ?_⟩
        · have sameEpoch : entry.data.epoch = epoch := by
            rw [data]
            cases r.target with
            | user userId => rfl
            | publicRole roleName => rfl
          rw [sameEpoch, readAt]
          exact stamped
        · intro userId ownKey
          rw [readAt]
          cases target : r.target with
          | publicRole roleName =>
            simp only [target, cacheKey] at ownKey
            exact absurd ownKey (userCacheKey_ne_publicRole userId)
          | user requested =>
            simp only [target, cacheKey] at ownKey
            rw [← userCacheKey_injective _ _ ownKey]
            simpa only [Request.Timely, isSet, target] using timely
      · have old := kept key entry (mem_filter.mp isOld).1
        exact ⟨old.stamped, old.ownCalls⟩

theorem Sound.setRequest (sound : Sound st) (i : Nat) (redis : Redis) (r' : Request)
    (ok : RequestOk { st with redis } r') (sameEpoch : redis.epoch = st.redis.epoch)
    (entries : ∀ key envelope, (key, envelope) ∈ redis.entries →
      EntryOk { st with redis } key envelope) :
    Sound { st with redis, requests := st.requests.set i r' } where
  __ := sound
  entries := fun key envelope member =>
    ⟨(entries key envelope member).stamped, (entries key envelope member).ownCalls⟩
  requests := by
    intro r member
    rcases mem_or_eq_of_mem_set member with old | rfl
    · have earlier := sound.requests r old
      refine ⟨earlier.since, earlier.fresh, ?_⟩
      intro user epoch isSet
      rw [sameEpoch]
      exact earlier.stamped user epoch isSet
    · exact ⟨ok.since, ok.fresh, ok.stamped⟩

theorem Sound.start (sound : Sound st) (target : Target) :
    Sound { st with requests := st.requests ++ [{ target, since := st.returned }] } where
  __ := sound
  entries := fun key envelope member =>
    ⟨(sound.entries key envelope member).stamped, (sound.entries key envelope member).ownCalls⟩
  requests := by
    intro r member
    rcases mem_append.mp member with old | new
    · have earlier := sound.requests r old
      exact ⟨earlier.since, earlier.fresh, earlier.stamped⟩
    · rw [mem_singleton.mp new]
      exact ⟨fun call inReturned => inReturned, fun loaded => loaded.elim, by simp⟩

theorem Sound.dbError (sound : Sound st) (r : Request) (member : r ∈ st.requests) (r' : Request)
    (taken : r.dbError st = some r') : RequestOk st r' := by
  have ok := sound.requests r member
  have refused : RequestOk st { r with phase := .done none } :=
    ⟨ok.since, fun loaded => loaded.elim, by simp⟩
  unfold Request.dbError at taken
  cases phase : r.phase with
  | lookup | readEpoch _ | set _ _ | done _ => simp [phase] at taken
  | selectPublic roleName =>
    simp only [phase, Option.some.injEq] at taken
    subst taken
    refine ⟨ok.since, ?_, by simp⟩
    intro loaded call inSince covers
    exact sound.returned call (ok.since call inSince)
  | selectUser _ | selectRoles _ | selectPermissions _ | selectGroupPermissions _
  | selectGroups _ | selectGroupRoles _ _ _ =>
    simp only [phase, Option.some.injEq] at taken
    subst taken
    exact refused

theorem Sound.commit (sound : Sound st) (change : Change) (db : SecurityDb) :
    Sound { st with
      db
      version := st.version + 1
      pending := st.pending ++ [⟨change, st.version + 1⟩] } where
  returned := fun call member => Nat.le_succ_of_le (sound.returned call member)
  pending := by
    intro call member
    rcases mem_append.mp member with old | new
    · exact Nat.le_succ_of_le (sound.pending call old)
    · cases mem_singleton.mp new
      exact Nat.le_refl _
  entries := fun key envelope member =>
    ⟨(sound.entries key envelope member).stamped, (sound.entries key envelope member).ownCalls⟩
  requests := fun r member =>
    ⟨(sound.requests r member).since, (sound.requests r member).fresh,
      (sound.requests r member).stamped⟩

theorem stamped_invalidate (call : Invalidation) (epoch : String) (readAt : Nat)
    (stamped : Stamped st.redis.epoch st.returned epoch readAt) :
    Stamped (call.change.invalidate st.redis).epoch (st.returned ++ [call]) epoch readAt := by
  cases change : call.change with
  | bumpAuthEpoch => exact stamped.bump call
  | invalidateUser userId username email => exact stamped.userCall call (by simp [change])

theorem mem_of_mem_invalidate (change : Change) (redis : Redis) (entry : String × Envelope)
    (member : entry ∈ (change.invalidate redis).entries) : entry ∈ redis.entries := by
  cases change with
  | bumpAuthEpoch => exact member
  | invalidateUser userId username email => exact (mem_filter.mp member).1

theorem ownCalls_invalidate (sound : Sound st) (call : Invalidation) (key : String)
    (envelope : Envelope) (member : (key, envelope) ∈ (call.change.invalidate st.redis).entries)
    (userId : Nat) (ownKey : key = userCacheKey userId) :
    UserCallsBefore (st.returned ++ [call]) userId envelope.readAt := by
  have old := mem_of_mem_invalidate call.change st.redis (key, envelope) member
  intro earlier inCalls invalidates
  rcases mem_append.mp inCalls with inReturned | isCall
  · exact (sound.entries key envelope old).ownCalls userId ownKey earlier inReturned invalidates
  · rw [mem_singleton.mp isCall] at invalidates
    cases change : call.change with
    | bumpAuthEpoch => exact absurd change invalidates.2
    | invalidateUser other username email =>
      rw [change] at invalidates
      obtain rfl : other = userId := invalidates.1
      simp [change, Change.invalidate, Redis.delete, userCacheKeys, ownKey] at member

theorem Sound.invalidate (sound : Sound st) (i : Nat) (call : Invalidation)
    (found : st.pending[i]? = some call) :
    Sound { st with
      redis := call.change.invalidate st.redis
      pending := st.pending.eraseIdx i
      returned := st.returned ++ [call] } where
  returned := by
    intro earlier member
    rcases mem_append.mp member with old | new
    · exact sound.returned earlier old
    · rw [mem_singleton.mp new]
      exact sound.pending call (mem_of_getElem? found)
  pending := fun earlier member => sound.pending earlier (mem_of_mem_eraseIdx member)
  entries := by
    intro key envelope member
    have old := mem_of_mem_invalidate call.change st.redis (key, envelope) member
    exact ⟨stamped_invalidate call _ _ (sound.entries key envelope old).stamped,
      ownCalls_invalidate sound call key envelope member⟩
  requests := by
    intro r member
    have earlier := sound.requests r member
    refine ⟨?_, earlier.fresh, ?_⟩
    · intro call' inSince
      exact mem_append_left _ (earlier.since call' inSince)
    · intro user epoch isSet
      exact stamped_invalidate call _ _ (earlier.stamped user epoch isSet)

theorem Sound.step (sound : Sound st) (a : Action) (st' : State) (timely : Timely st a)
    (taken : AuthCache.step sign st a = some st') : Sound st' := by
  cases a with
  | start target =>
    simp only [AuthCache.step] at taken
    split at taken
    · cases taken
    · cases taken
      exact sound.start target
  | commit change db =>
    cases taken
    exact sound.commit change db
  | invalidate i =>
    simp only [AuthCache.step] at taken
    cases found : st.pending[i]? with
    | none => simp [found] at taken
    | some call =>
      simp only [found, Option.some.injEq] at taken
      subst taken
      exact sound.invalidate i call found
  | advance i =>
    simp only [AuthCache.step] at taken
    cases found : st.requests[i]? with
    | none => simp [found] at taken
    | some r =>
      have member := mem_of_getElem? found
      simp only [found] at taken
      cases moved : r.advance sign st with
      | none => simp [moved] at taken
      | some next =>
        simp only [moved, Option.some.injEq] at taken
        subst taken
        obtain ⟨ok, sameEpoch, entries⟩ :=
          sound.advance r member (timely r found) next.1 next.2 moved
        exact sound.setRequest i next.1 next.2 ok sameEpoch entries
  | dbError i =>
    simp only [AuthCache.step] at taken
    cases found : st.requests[i]? with
    | none => simp [found] at taken
    | some r =>
      have member := mem_of_getElem? found
      simp only [found] at taken
      cases refused : r.dbError st with
      | none => simp [refused] at taken
      | some r' =>
        simp only [refused, Option.some.injEq] at taken
        subst taken
        exact sound.setRequest i st.redis r' (sound.dbError r member r' refused) rfl
          sound.entries

end Kept

/-- In every run whose requests stamp and store only loads that no returned
invalidation has overtaken, every request started after an invalidation is given
data read after the change. -/
theorem safe_of_timely (sign : String → Payload → String) (db : SecurityDb) (epoch : Option Nat)
    (st : State) (reached : Reaches (step sign) Timely (initial db epoch) st) : Safe st := by
  have sound : Sound st :=
    reached.invariant Sound (sound_initial db epoch)
      (fun t a u sound timely taken => sound.step a u timely taken)
  exact safe_of_sound sound

def tag (key : String) (data : Payload) : String := key ++ "|" ++ data.epoch

def granted : SecurityDb where
  users := [⟨1, "ada", some true⟩]
  roles := [⟨4, "Gamma"⟩]
  userRole := [(1, 4)]
  rolePermission := [(4, ("can_read", "Chart"))]

def revoked : SecurityDb := { granted with userRole := [] }

def load (i : Nat) : List Action := List.replicate 6 (.advance i)

/-- The change is committed and invalidated between the load and the epoch read of
the first request; a second request starts afterwards. -/
def overtakenRun (change : Change) : List Action :=
  [.start (.user 1)] ++ load 0 ++ [.commit change revoked, .invalidate 0] ++
    [.advance 0, .advance 0, .start (.user 1), .advance 1]

def orderlyRun (change : Change) : List Action :=
  [.start (.user 1)] ++ load 0 ++ [.advance 0, .advance 0] ++
    [.commit change revoked, .invalidate 0, .start (.user 1)] ++ load 1 ++
    [.advance 1, .advance 1]

def lastGiven (st : State) : Option (List (String × String)) :=
  (st.requests.getLast?.bind fun r => r.phase.given).map CachedUser.permissions

theorem safe_orderlyRun :
    ∃ st, Reaches (step tag) Timely (initial granted none) st ∧ lastGiven st = some [] ∧
    Safe st := by
  obtain ⟨st, reached, given⟩ := exists_reaches_of_runWithin (step tag) Timely
    (initial granted none) (orderlyRun .bumpAuthEpoch) (fun st => lastGiven st = some [])
    (by decide)
  exact ⟨st, reached, given, safe_of_timely tag granted none st reached⟩

/-- The second request is given the permission that was revoked, and invalidated,
before it started. -/
def Overtaken (st : State) : Prop :=
  Reaches (step tag) anyStep (initial granted none) st ∧
    lastGiven st = some [("can_read", "Chart")] ∧ st.db.getAllPermissionsForUser 1 = [] ∧ ¬ Safe st

/-- Either kind of invalidation can be overtaken. -/
theorem not_safe_overtakenRun :
    (∃ st, Overtaken st ∧ ∃ call ∈ st.returned, call.change = .bumpAuthEpoch) ∧
      ∃ st, Overtaken st ∧ ∃ call ∈ st.returned,
        call.change = .invalidateUser 1 (some "ada") none := by
  have both : ∀ change ∈ [Change.bumpAuthEpoch, Change.invalidateUser 1 (some "ada") none],
      ∃ st, Overtaken st ∧ ∃ call ∈ st.returned, call.change = change := by
    intro change member
    obtain ⟨st, reached, given, revoked, unsafe_state, returned⟩ :=
      exists_reaches_of_runWithin (step tag) anyStep (initial granted none) (overtakenRun change)
        (fun st => lastGiven st = some [("can_read", "Chart")] ∧
          st.db.getAllPermissionsForUser 1 = [] ∧ ¬ Safe st ∧
          ∃ call ∈ st.returned, call.change = change) (by
            revert change
            decide)
    exact ⟨st, ⟨reached, given, revoked, unsafe_state⟩, returned⟩
  exact ⟨both _ (by simp), both _ (by simp)⟩

end Liteset.Security.AuthCache
