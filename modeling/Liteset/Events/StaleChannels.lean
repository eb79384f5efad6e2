import Liteset.Events.Relay

/-!
# Cleaning up stale channels

`cleanup_stale_channels` of `async_events/manager.py` asks Redis for the keys that match
the prefix, for the newest entry of each, and deletes the streams whose newest entry is
too old.  Publishers append every event to a channel's stream and then to the global
one.  Each command is a step, and the steps of the publishers fall between those of the
clean-up in any order.

A stream keeps the ids of all entries it has received since it was made; of these
Redis itself knows the last one only.  The times of entries are those of their ids.
-/

set_option autoImplicit false

namespace Liteset.Events.Stale

open List

open Lib.Runs (Reaches anyStep exists_reaches_of_runWithin)

structure Stream where
  entries : List Entry
  received : List EntryId

def Stream.empty : Stream := { entries := [], received := [] }

/-- The id that `XADD key *` gives at a time in milliseconds. -/
def Stream.nextId (stream : Stream) (milliseconds : Nat) : EntryId :=
  match stream.received.getLast? with
  | none => entryId milliseconds 0
  | some last =>
    if (ofLex last).1 < milliseconds then entryId milliseconds 0
    else entryId (ofLex last).1 ((ofLex last).2 + 1)

/-- `AsyncEventManager`, with the argument of its clean-up and what `SCAN` matches. -/
structure Manager where
  streamPrefix : String := "async-events-"
  globalStreamKey : String := "async-events-full"
  globalStreamLimit : Nat := 1000000
  channelStreamLimit : Nat := 1000
  maxIdleSeconds : Nat := 120
  glob : String → String → Bool

def Manager.channelKey (m : Manager) (channelId : String) : String := m.streamPrefix ++ channelId

/-- Where the clean-up stands; `now` is the time it started. -/
inductive Phase where
  | idle
  | scanning (now cursor : Nat)
  | checking (now cursor : Nat) (keys : List String)
  | deleting (now cursor : Nat) (key : String) (keys : List String)
deriving DecidableEq

structure Deletion where
  key : String
  time : Nat
  stream : Stream

structure World (P : Type) where
  /-- Microseconds. -/
  clock : Nat
  streams : String → Option Stream
  /-- The publishers that have written to a channel and not yet to the global stream. -/
  pending : P → Option Data
  phase : Phase
  deletions : List Deletion

inductive Action (P : Type) where
  | tick (microseconds : Nat)
  /-- `trimmed` old entries go, as many as Redis likes down to the limit. -/
  | writeChannel (p : P) (channelId : String) (data : Data) (trimmed : Nat)
  | writeGlobal (p : P) (trimmed : Nat)
  | cleanup
  | scan (cursor : Nat) (keys : List String)
  | read
  | delete
deriving DecidableEq

variable {P : Type} [DecidableEq P]

def World.put (w : World P) (key : String) (stream : Option Stream) : World P :=
  { w with streams := fun k => if k = key then stream else w.streams k }

def World.streamAt (w : World P) (key : String) : Stream := (w.streams key).getD Stream.empty

/-- `xadd(key, payload, maxlen, approximate=True)` -/
def xadd (w : World P) (key : String) (data : Data) (maxlen trimmed : Nat) : Option (World P) :=
  let stream := w.streamAt key
  let id := stream.nextId (w.clock / 1000)
  if trimmed ≤ stream.entries.length + 1 - maxlen then
    some (w.put key (some
      { entries := (stream.entries ++ [({ id, data } : Entry)]).drop trimmed
        received := stream.received ++ [id] }))
  else none

/-- `(now - ts_ms / 1000) > max_idle_seconds` -/
def TooOld (m : Manager) (now : Nat) (id : EntryId) : Prop :=
  (m.maxIdleSeconds : Int) * 1000000 < (now : Int) - ((ofLex id).1 : Int) * 1000

instance (m : Manager) (now : Nat) (id : EntryId) : Decidable (TooOld m now id) :=
  inferInstanceAs (Decidable (_ < _))

def read (m : Manager) (w : World P) (now cursor : Nat) (key : String) (keys : List String) :
    World P :=
  match (w.streamAt key).entries.getLast? with
  | none => { w with phase := .deleting now cursor key keys }
  | some newest =>
    if TooOld m now newest.id then { w with phase := .deleting now cursor key keys }
    else { w with phase := .checking now cursor keys }

def delete (w : World P) (now cursor : Nat) (key : String) (keys : List String) : World P :=
  { w.put key none with
    phase := .checking now cursor keys
    deletions := w.deletions ++ ((w.streams key).map fun stream => ⟨key, w.clock, stream⟩).toList }

def step (m : Manager) (w : World P) : Action P → Option (World P)
  | .tick n => some { w with clock := w.clock + n }
  | .writeChannel p channelId data trimmed =>
    match w.pending p with
    | none =>
      (xadd w (m.channelKey channelId) data m.channelStreamLimit trimmed).map fun w =>
        { w with pending := fun q => if q = p then some data else w.pending q }
    | some _ => none
  | .writeGlobal p trimmed =>
    match w.pending p with
    | some data =>
      (xadd w m.globalStreamKey data m.globalStreamLimit trimmed).map fun w =>
        { w with pending := fun q => if q = p then none else w.pending q }
    | none => none
  | .cleanup =>
    match w.phase with
    | .idle => some { w with phase := .scanning w.clock 0 }
    | _ => none
  | .scan cursor keys =>
    match w.phase with
    | .scanning now _ =>
      if keys.all (m.glob (m.streamPrefix ++ "*"))
        then some { w with phase := .checking now cursor keys }
      else none
    | _ => none
  | .read =>
    match w.phase with
    | .checking now cursor (key :: keys) => some (read m w now cursor key keys)
    | .checking now cursor [] =>
      some { w with phase := if cursor = 0 then .idle else .scanning now cursor }
    | _ => none
  | .delete =>
    match w.phase with
    | .deleting now cursor key keys => some (delete w now cursor key keys)
    | _ => none

def start (clock : Nat) : World P where
  clock := clock
  streams := fun _ => none
  pending := fun _ => none
  phase := .idle
  deletions := []

/-- No stream was deleted that had received an entry younger than the threshold, and
the global stream was not deleted while it held one. -/
structure KeepsYoung (m : Manager) (w : World P) : Prop where
  received : ∀ d ∈ w.deletions, ∀ id ∈ d.stream.received, TooOld m d.time id
  global : ∀ d ∈ w.deletions, d.key = m.globalStreamKey → ∀ e ∈ d.stream.entries,
    TooOld m d.time e.id

def appended (m : Manager) : Action P → Option (String × Nat)
  | .writeChannel _ channelId _ trimmed => some (m.channelKey channelId, trimmed)
  | .writeGlobal _ trimmed => some (m.globalStreamKey, trimmed)
  | _ => none

def Phase.doomed : Phase → Option String
  | .deleting _ _ key _ => some key
  | _ => none

/-- Nothing is appended to a stream between the look at its newest entry and its
deletion, and an append does not trim the entry it adds. -/
def Orderly (m : Manager) (w : World P) (a : Action P) : Prop :=
  ∀ target ∈ appended m a,
    w.phase.doomed ≠ some target.1 ∧ target.2 ≤ (w.streamAt target.1).entries.length

instance (m : Manager) (w : World P) (a : Action P) : Decidable (Orderly m w a) :=
  inferInstanceAs (Decidable (∀ target ∈ appended m a, _))

structure Stream.Inv (stream : Stream) : Prop where
  newest : stream.entries.getLast?.map Entry.id = stream.received.getLast?
  ordered : ∀ last, stream.received.getLast? = some last → ∀ id ∈ stream.received,
    (ofLex id).1 ≤ (ofLex last).1
  held : ∀ e ∈ stream.entries, e.id ∈ stream.received

theorem Stream.Inv.empty : Stream.empty.Inv where
  newest := rfl
  ordered _ found := by cases found
  held e member := by cases member

theorem TooOld.later {m : Manager} {now time : Nat} {id : EntryId} (old : TooOld m now id)
    (after : now ≤ time) :
    TooOld m time id := by
  unfold TooOld at old ⊢
  omega

theorem TooOld.before {m : Manager} {now : Nat} {id last : EntryId} (old : TooOld m now last)
    (before : (ofLex id).1 ≤ (ofLex last).1) : TooOld m now id := by
  unfold TooOld at old ⊢
  omega

theorem Stream.le_nextId (stream : Stream) (milliseconds : Nat) (last : EntryId)
    (found : stream.received.getLast? = some last) :
    (ofLex last).1 ≤ (ofLex (stream.nextId milliseconds)).1 := by
  unfold Stream.nextId
  rw [found]
  dsimp only
  split
  · next newer => exact newer.le
  · exact le_refl _

theorem Stream.Inv.append {stream : Stream} (inv : stream.Inv) (milliseconds : Nat) (data : Data)
    {trimmed : Nat}
    (stays : trimmed ≤ stream.entries.length) :
    Stream.Inv
      { entries := (stream.entries ++
        [({ id := stream.nextId milliseconds, data } : Entry)]).drop trimmed
        received := stream.received ++ [stream.nextId milliseconds] } where
  newest := by
    rw [drop_append_of_le_length stays, getLast?_append, getLast?_append]
    rfl
  ordered := by
    intro last found id member
    rw [getLast?_append] at found
    cases found
    rcases mem_append.mp member with old | new
    · cases newest : stream.received.getLast? with
      | none => rw [getLast?_eq_none_iff.mp newest] at old; cases old
      | some last =>
        exact (inv.ordered last newest id old).trans (stream.le_nextId milliseconds last newest)
    · rw [mem_singleton.mp new]
      exact le_refl _
  held := by
    intro e member
    rcases mem_append.mp (mem_of_mem_drop member) with old | new
    · exact mem_append_left _ (inv.held e old)
    · rw [mem_singleton.mp new]
      exact mem_append_right _ (mem_singleton.mpr rfl)

theorem Stream.Inv.tooOld {stream : Stream} (inv : stream.Inv) {m : Manager} {now : Nat}
    {newest : Entry}
    (found : stream.entries.getLast? = some newest) (old : TooOld m now newest.id) :
    ∀ id ∈ stream.received, TooOld m now id := by
  have last := inv.newest
  rw [found] at last
  intro id member
  exact old.before (inv.ordered newest.id last.symm id member)

theorem Stream.Inv.received_nil {stream : Stream} (inv : stream.Inv)
    (none : stream.entries.getLast? = none) :
    stream.received = [] := by
  have last := inv.newest
  rw [none] at last
  exact getLast?_eq_none_iff.mp last.symm

def Phase.since : Phase → Option Nat
  | .idle => none
  | .scanning now _ | .checking now _ _ | .deleting now _ _ _ => some now

structure Inv (m : Manager) (w : World P) : Prop where
  streams : ∀ key stream, w.streams key = some stream → stream.Inv
  since : ∀ now ∈ w.phase.since, now ≤ w.clock
  doomed : ∀ key ∈ w.phase.doomed, ∀ now ∈ w.phase.since, ∀ id ∈ (w.streamAt key).received,
    TooOld m now id
  kept : KeepsYoung m w

section Steps
variable {m : Manager} {w u : World P}

omit [DecidableEq P] in
theorem Inv.streamAt (inv : Inv m w) (key : String) : (w.streamAt key).Inv := by
  unfold World.streamAt
  cases found : w.streams key with
  | none => exact Stream.Inv.empty
  | some stream => exact inv.streams key stream found

omit [DecidableEq P] in
theorem streamAt_put_other {key other : String} {stream : Option Stream} (apart : other ≠ key) :
    (w.put key stream).streamAt other = w.streamAt other := by
  simp only [World.streamAt, World.put, if_neg apart]

omit [DecidableEq P] in
theorem Inv.xadd (inv : Inv m w) {key : String} {data : Data} {maxlen trimmed : Nat}
    (taken : xadd w key data maxlen trimmed = some u) (spared : w.phase.doomed ≠ some key)
    (stays : trimmed ≤ (w.streamAt key).entries.length) : Inv m u := by
  simp only [Stale.xadd] at taken
  split at taken
  · cases taken
    refine ⟨?_, inv.since, ?_, inv.kept.1, inv.kept.2⟩
    · intro other stream found
      by_cases same : other = key
      · simp only [World.put, if_pos same] at found
        cases found
        exact (inv.streamAt key).append _ data stays
      · simp only [World.put, if_neg same] at found
        exact inv.streams other stream found
    · intro other doomed now since
      have apart : other ≠ key := by
        rintro rfl
        exact spared doomed
      rw [streamAt_put_other apart]
      exact inv.doomed other doomed now since
  · cases taken

omit [DecidableEq P] in
theorem Inv.read (inv : Inv m w) {now cursor : Nat} {key : String} {keys : List String}
    (phase : w.phase = .checking now cursor (key :: keys)) :
    Inv m (read m w now cursor key keys) := by
  have started : now ≤ w.clock := inv.since now (by rw [phase]; rfl)
  have doom : (∀ id ∈ (w.streamAt key).received, TooOld m now id) →
      Inv m { w with phase := .deleting now cursor key keys } := by
    intro old
    refine ⟨inv.streams, ?_, ?_, inv.kept.1, inv.kept.2⟩
    · rintro _ ⟨⟩
      exact started
    · rintro _ ⟨⟩ _ ⟨⟩
      exact old
  unfold Stale.read
  split
  · next none =>
    apply doom
    rw [(inv.streamAt key).received_nil none]
    exact fun _ member => nomatch member
  · next newest found =>
    split
    · next old => exact doom ((inv.streamAt key).tooOld found old)
    · refine ⟨inv.streams, ?_, ?_, inv.kept.1, inv.kept.2⟩
      · rintro _ ⟨⟩
        exact started
      · rintro _ ⟨⟩

omit [DecidableEq P] in
theorem Inv.delete (inv : Inv m w) {now cursor : Nat} {key : String} {keys : List String}
    (phase : w.phase = .deleting now cursor key keys) : Inv m (delete w now cursor key keys) := by
  have started : now ≤ w.clock := inv.since now (by rw [phase]; rfl)
  have old : ∀ id ∈ (w.streamAt key).received, TooOld m w.clock id := fun id member =>
    (inv.doomed key (by rw [phase]; rfl) now (by rw [phase]; rfl) id member).later started
  have fresh : ∀ d ∈ ((w.streams key).map fun stream => (⟨key, w.clock, stream⟩ : Deletion)).toList,
      d.time = w.clock ∧ d.stream = w.streamAt key := by
    intro d member
    unfold World.streamAt
    cases found : w.streams key with
    | none => rw [found] at member; cases member
    | some stream =>
      rw [found] at member
      obtain rfl := mem_singleton.mp member
      exact ⟨rfl, rfl⟩
  refine ⟨?_, ?_, ?_, ?_, ?_⟩
  · intro other stream found
    by_cases same : other = key
    · simp only [Stale.delete, World.put, if_pos same] at found
      cases found
    · simp only [Stale.delete, World.put, if_neg same] at found
      exact inv.streams other stream found
  · rintro _ ⟨⟩
    exact started
  · rintro _ ⟨⟩
  · intro d member
    rcases mem_append.mp member with before | now
    · exact inv.kept.received d before
    · obtain ⟨time, stream⟩ := fresh d now
      rw [time, stream]
      exact old
  · intro d member global e held
    rcases mem_append.mp member with before | now
    · exact inv.kept.global d before global e held
    · obtain ⟨time, stream⟩ := fresh d now
      rw [stream] at held
      rw [time]
      exact old e.id ((inv.streamAt key).held e held)

omit [DecidableEq P] in
theorem Inv.pending (inv : Inv m w) (pending : P → Option Data) :
    Inv m { w with pending := pending } :=
  ⟨inv.streams, inv.since, inv.doomed, inv.kept.1, inv.kept.2⟩

theorem Inv.step (inv : Inv m w) (a : Action P) (ok : Orderly m w a) (taken : step m w a = some u) :
    Inv m u := by
  cases a with
  | tick n =>
    cases taken
    exact ⟨inv.streams, fun now since => (inv.since now since).trans (Nat.le_add_right _ _),
      inv.doomed, inv.kept.1, inv.kept.2⟩
  | writeChannel p channelId data trimmed =>
    obtain ⟨spared, stays⟩ := ok _ rfl
    simp only [Stale.step] at taken
    split at taken
    · obtain ⟨v, appended, rfl⟩ := Option.map_eq_some_iff.mp taken
      exact (inv.xadd appended spared stays).pending _
    · cases taken
  | writeGlobal p trimmed =>
    obtain ⟨spared, stays⟩ := ok _ rfl
    simp only [Stale.step] at taken
    split at taken
    · obtain ⟨v, appended, rfl⟩ := Option.map_eq_some_iff.mp taken
      exact (inv.xadd appended spared stays).pending _
    · cases taken
  | cleanup =>
    simp only [Stale.step] at taken
    split at taken
    · cases taken
      refine ⟨inv.streams, ?_, ?_, inv.kept.1, inv.kept.2⟩
      · rintro _ ⟨⟩
        exact le_refl _
      · rintro _ ⟨⟩
    · cases taken
  | scan cursor keys =>
    simp only [Stale.step] at taken
    split at taken
    · next now _ phase =>
      split at taken
      · cases taken
        refine ⟨inv.streams, ?_, ?_, inv.kept.1, inv.kept.2⟩
        · rintro _ ⟨⟩
          exact inv.since now (by rw [phase]; rfl)
        · rintro _ ⟨⟩
      · cases taken
    · cases taken
  | read =>
    simp only [Stale.step] at taken
    split at taken
    · next now cursor key keys phase =>
      cases taken
      exact inv.read phase
    · next now cursor phase =>
      cases taken
      refine ⟨inv.streams, ?_, ?_, inv.kept.1, inv.kept.2⟩
      · intro since found
        apply inv.since
        rw [phase]
        split at found
        · cases found
        · exact found
      · intro key found
        split at found <;> cases found
    · cases taken
  | delete =>
    simp only [Stale.step] at taken
    split at taken
    · next phase =>
      cases taken
      exact inv.delete phase
    · cases taken

omit [DecidableEq P] in
theorem inv_start (m : Manager) (clock : Nat) : Inv m (start clock : World P) where
  streams _ _ found := by cases found
  since _ found := by cases found
  doomed _ found := by cases found
  kept := ⟨fun _ member => (nomatch member), fun _ member => (nomatch member)⟩

end Steps

/-- In a run in which no append falls between the look at a stream and its deletion, no
stream is deleted that has received a young entry. -/
theorem keepsYoung_of_orderly (m : Manager) (clock : Nat) (w : World P)
    (reached : Reaches (step m) (Orderly m) (start clock) w) : KeepsYoung m w :=
  (reached.invariant (Inv m) (inv_start m clock) fun _ a _ inv ok taken => inv.step a ok taken).kept

def defaultManager : Manager where
  glob pattern key := pattern.toList.dropLast.isPrefixOf key.toList

def abandoned : List (Action Nat) :=
  [.writeChannel 0 "a" (.object "") 0, .writeGlobal 0 0, .tick 200000000, .cleanup,
    .scan 0 ["async-events-a", "async-events-full"], .read]

instance (m : Manager) (w : World Nat) : Decidable (KeepsYoung m w) :=
  decidable_of_iff
    ((∀ d ∈ w.deletions, ∀ id ∈ d.stream.received, TooOld m d.time id) ∧
      ∀ d ∈ w.deletions, d.key = m.globalStreamKey → ∀ e ∈ d.stream.entries, TooOld m d.time e.id)
    ⟨fun both => ⟨both.1, both.2⟩, fun kept => ⟨kept.received, kept.global⟩⟩

/-- The next event comes after the clean-up is done with the channel. -/
theorem keepsYoung_abandoned : ∃ w : World Nat,
    Reaches (step defaultManager) (Orderly defaultManager) (start 0) w ∧
      w.deletions.length = 1 ∧ KeepsYoung defaultManager w := by
  obtain ⟨w, reached, one⟩ :=
    exists_reaches_of_runWithin (step defaultManager) (Orderly defaultManager)
    (start 0) (abandoned ++ [.delete, .writeChannel 0 "a" (.object "") 0])
      (fun w => w.deletions.length = 1)
    (by decide)
  exact ⟨w, reached, one, keepsYoung_of_orderly defaultManager 0 w reached⟩

/-- The next event comes between the look at a stream and its deletion, first on the
channel and then on the global stream: both are deleted with the event. -/
theorem abandoned_loses : ∃ w : World Nat,
    Reaches (step defaultManager) anyStep (start 0) w ∧ ¬KeepsYoung defaultManager w
      ∧ w.deletions.map (fun d => (d.key, d.stream.entries.length)) =
        [("async-events-a", 2), ("async-events-full", 2)]
      ∧ ∀ d ∈ w.deletions, ∃ e ∈ d.stream.entries, d.time = (ofLex e.id).1 * 1000 :=
  exists_reaches_of_runWithin (step defaultManager) anyStep (start 0)
    (abandoned ++ [.writeChannel 0 "a" (.object "") 0, .delete, .read, .writeGlobal 0 0, .delete])
    (fun w => ¬KeepsYoung defaultManager w
      ∧ w.deletions.map (fun d => (d.key, d.stream.entries.length)) =
        [("async-events-a", 2), ("async-events-full", 2)]
      ∧ ∀ d ∈ w.deletions, ∃ e ∈ d.stream.entries, d.time = (ofLex e.id).1 * 1000)
    (by decide)

end Liteset.Events.Stale
