import Liteset.Events.AsyncEvent
import Liteset.Events.Relay
import Liteset.Lib.JsObject
import Mathlib.Data.List.Nodup

/-!
# The event cursor of the browser

`lastReceivedEventId` and its copy in `localStorage`, which a reconnect or a poll
sends to the server.  `setLastId` runs for every event that is processed, also for
one that a timer puts back.

Ids are compared by a stamp: for the ids of a stream, the two numbers they consist of.
-/

set_option autoImplicit false

namespace Liteset.Events.Client

open Liteset.Lib Liteset.Lib.Runs List

/-- The middleware and `localStorage.getItem(LOCALSTORAGE_KEY)`. -/
structure Stored where
  client : State
  lastAsyncEventId : Option String

/-- `setItem` turns an id into a text; the events of a stream have one. -/
def setItem (e : AsyncEvent) : Option String := some (e.id.getD "undefined")

/-- The event `processEvents` is called with. -/
def processed (s : State) : Action → Option AsyncEvent
  | .deliver e => some e
  | .timer i => s.timers[i]?
  | .wait _ => none
  | .fetched _ _ => none

/-- A step of the middleware; `writes` tells whether `setItem` goes through. -/
def storedStep (s : Stored) (a : Action × Bool) : Option Stored :=
  (step s.client a.1).map fun t =>
    { client := t
      lastAsyncEventId :=
        match processed s.client a.1 with
        | some e => if a.2 then setItem e else s.lastAsyncEventId
        | none => s.lastAsyncEventId }

/-- After `init`, with what `localStorage` holds from an earlier page. -/
def loaded (lastId stored : Option String) : Stored :=
  ⟨{ start with lastReceivedEventId := lastId }, stored⟩

def received (s : State) : List String := s.delivered.filterMap AsyncEvent.id

section Processing
variable {s t : State} {e : AsyncEvent} {a : Action}

theorem listener_frame : (listener s e).delivered = s.delivered ∧
    (listener s e).timers = s.timers := by
  unfold listener
  cases e.status <;> exact ⟨rfl, rfl⟩

theorem processEvent_delivered : (processEvent s e).delivered = s.delivered := by
  unfold processEvent setLastId retryLater
  split
  · exact listener_frame.1
  · split <;> rfl

theorem mem_timers_processEvent {d : AsyncEvent} (held : d ∈ (processEvent s e).timers) :
    d ∈ s.timers ∨ d = e := by
  unfold processEvent setLastId retryLater at held
  split at held
  · have same : d ∈ (listener (recordHanded s e) e).timers := held
    rw [listener_frame.2] at same
    exact Or.inl same
  · split at held
    · exact (mem_append.mp held).imp_right mem_singleton.mp
    · exact Or.inl held

theorem step_unprocessed (taken : step s a = some t) (idle : processed s a = none) :
    t.lastReceivedEventId = s.lastReceivedEventId ∧ t.delivered = s.delivered ∧
    t.timers = s.timers := by
  cases a with
  | wait jobId =>
    simp only [step] at taken
    split at taken
    · cases taken
    · cases taken
      exact ⟨rfl, rfl, rfl⟩
  | deliver e => cases idle
  | timer i =>
    have absent : s.timers[i]? = none := idle
    simp only [step] at taken
    rw [absent] at taken
    cases taken
  | fetched i response =>
    simp only [step] at taken
    cases fetch : s.fetches[i]? with
    | none => simp [fetch] at taken
    | some e =>
      rw [fetch] at taken
      cases taken
      exact ⟨rfl, rfl, rfl⟩

theorem step_processed (taken : step s a = some t) (event : processed s a = some e) :
    t.lastReceivedEventId = e.id ∧ ∀ d ∈ t.timers, d ∈ s.timers ∨ d = e := by
  cases a with
  | wait jobId => cases event
  | deliver d =>
    cases event
    cases taken
    exact ⟨rfl, fun _ held =>
      @mem_timers_processEvent { s with delivered := s.delivered ++ [e] } e _ held⟩
  | timer i =>
    have fires : s.timers[i]? = some e := event
    simp only [step] at taken
    rw [fires] at taken
    cases taken
    exact ⟨rfl, fun _ held => (mem_timers_processEvent held).imp_left mem_of_mem_eraseIdx⟩
  | fetched i response => cases event

theorem step_delivered (taken : step s a = some t) :
    t.delivered = match a with
      | .deliver e => s.delivered ++ [e]
      | _ => s.delivered := by
  cases a with
  | deliver e =>
    cases taken
    exact processEvent_delivered
  | wait jobId => exact (step_unprocessed taken rfl).2.1
  | fetched i response => exact (step_unprocessed taken rfl).2.1
  | timer i =>
    simp only [step] at taken
    cases fires : s.timers[i]? with
    | none => simp [fires] at taken
    | some e =>
      rw [fires] at taken
      cases taken
      exact processEvent_delivered

end Processing

section Largest
variable {α : Type} [LinearOrder α] (stamp : String → α)

def IsLargest (ids : List String) (cursor : Option String) : Prop :=
  ids = [] ∨ ∃ id ∈ ids, cursor = some id ∧ ∀ other ∈ ids, stamp other ≤ stamp id

/-- A delivered event is newer than all received before it. -/
def Newer (s : Stored) (a : Action × Bool) : Prop :=
  match a.1 with
  | .deliver e => ∃ id, e.id = some id ∧ ∀ other ∈ received s.client, stamp other < stamp id
  | _ => True

/-- What is asked of the state after a step. -/
def CursorAhead (t : Stored) : Prop :=
  IsLargest stamp (received t.client) t.client.lastReceivedEventId
    ∧ IsLargest stamp (received t.client) t.lastAsyncEventId

/-- The event processed is the newest so far, and the copy is written, unless it has
the id already. -/
def InTime (s : Stored) (a : Action × Bool) : Prop :=
  match processed s.client a.1 with
  | none => True
  | some e =>
    (∀ id, e.id = some id → ∀ other ∈ received s.client, stamp other ≤ stamp id)
    ∧ (a.2 = true ∨ s.lastAsyncEventId = e.id)

structure Ordered (s : Stored) : Prop where
  waiting : ∀ e ∈ s.client.timers, ∃ id ∈ received s.client, e.id = some id
  distinct : ((received s.client).map stamp).Nodup
  ahead : CursorAhead stamp s

variable {stamp} {s t : Stored} {a : Action × Bool} {ids : List String} {id : String}

theorem isLargest_iff (member : id ∈ ids) :
    IsLargest stamp ids (some id) ↔ ∀ other ∈ ids, stamp other ≤ stamp id := by
  constructor
  · rintro (empty | ⟨largest, _, same, bound⟩)
    · rw [empty] at member
      cases member
    · cases same
      exact bound
  · exact fun bound => Or.inr ⟨id, member, rfl, bound⟩

theorem IsLargest.eq {cursor other : Option String} (distinct : (ids.map stamp).Nodup)
    (nonempty : ids ≠ []) (first : IsLargest stamp ids cursor)
    (second : IsLargest stamp ids other) :
    cursor = other := by
  obtain empty | ⟨x, inX, rfl, boundX⟩ := first
  · exact absurd empty nonempty
  · obtain empty | ⟨y, inY, rfl, boundY⟩ := second
    · exact absurd empty nonempty
    · rw [inj_on_of_nodup_map distinct inX inY (le_antisymm (boundY x inX) (boundX y inY))]

theorem received_append (s : State) (e : AsyncEvent) (has : e.id = some id) :
    (s.delivered ++ [e]).filterMap AsyncEvent.id = received s ++ [id] := by
  simp [received, has]

theorem processed_received {u : Stored} {e : AsyncEvent} (ordered : Ordered stamp s)
    (newer : Newer stamp s a) (taken : step s.client a.1 = some u.client)
    (event : processed s.client a.1 = some e) :
    ∃ id, e.id = some id ∧ id ∈ received u.client ∧ ((received u.client).map stamp).Nodup
      ∧ ((∀ other ∈ received u.client, stamp other ≤ stamp id)
        ↔ ∀ other ∈ received s.client, stamp other ≤ stamp id) := by
  have delivered := step_delivered taken
  unfold received at delivered ⊢
  obtain ⟨action, writes⟩ := a
  cases action with
  | wait jobId => cases event
  | fetched i response => cases event
  | timer i =>
    obtain ⟨id, member, has⟩ := ordered.waiting e (mem_of_getElem? event)
    rw [delivered]
    exact ⟨id, has, member, ordered.distinct, Iff.rfl⟩
  | deliver d =>
    cases event
    obtain ⟨id, has, above⟩ := newer
    have ids := received_append s.client e has
    rw [delivered, ids]
    refine ⟨id, has, by simp, ?_, ?_⟩
    · rw [map_append, nodup_append]
      refine ⟨ordered.distinct, by simp, ?_⟩
      intro x inX y inY
      obtain ⟨other, member, rfl⟩ := mem_map.mp inX
      rw [map_singleton, mem_singleton] at inY
      exact inY ▸ (above other member).ne
    · refine iff_of_true ?_ fun other member => (above other member).le
      intro other member
      obtain old | new := mem_append.mp member
      · exact (above other old).le
      · rw [mem_singleton.mp new]

theorem cursorAhead_iff {u : Stored} (ordered : Ordered stamp s) (newer : Newer stamp s a)
    (taken : storedStep s a = some u) : CursorAhead stamp u ↔ InTime stamp s a := by
  obtain ⟨t, clientStep, rfl⟩ := Option.map_eq_some_iff.mp taken
  unfold CursorAhead InTime
  cases event : processed s.client a.1 with
  | none =>
    obtain ⟨cursor, delivered, _⟩ := step_unprocessed clientStep event
    have sameIds : received t = received s.client :=
      congrArg (filterMap AsyncEvent.id) delivered
    simp only [sameIds, cursor]
    exact iff_of_true ordered.ahead trivial
  | some e =>
    obtain ⟨id, has, member, distinct, newest⟩ :=
      @processed_received _ _ stamp s a ⟨t, none⟩ e ordered newer clientStep event
    have cursor := (step_processed clientStep event).1
    simp only [cursor, has, Option.some.injEq, forall_eq', isLargest_iff member, newest]
    refine and_congr_right fun isNewest => ?_
    have largest := (isLargest_iff member).mpr (newest.mpr isNewest)
    cases writes : a.2 with
    | true =>
      rw [if_pos rfl, setItem, has]
      exact iff_of_true largest (Or.inl rfl)
    | false =>
      rw [if_neg (by decide)]
      constructor
      · exact fun copy => Or.inr (copy.eq distinct (ne_nil_of_mem member) largest)
      · rintro (written | same)
        · cases written
        · exact same ▸ largest

theorem Ordered.next {u : Stored} (ordered : Ordered stamp s) (newer : Newer stamp s a)
    (taken : storedStep s a = some u) (ahead : CursorAhead stamp u) : Ordered stamp u := by
  obtain ⟨t, clientStep, rfl⟩ := Option.map_eq_some_iff.mp taken
  suffices kept : (∀ e ∈ t.timers, ∃ id ∈ received t, e.id = some id)
      ∧ ((received t).map stamp).Nodup from ⟨kept.1, kept.2, ahead⟩
  cases event : processed s.client a.1 with
  | none =>
    obtain ⟨_, delivered, timers⟩ := step_unprocessed clientStep event
    have sameIds : received t = received s.client :=
      congrArg (filterMap AsyncEvent.id) delivered
    constructor
    · simpa only [timers, sameIds] using ordered.waiting
    · simpa only [sameIds] using ordered.distinct
  | some e =>
    obtain ⟨id, has, member, distinct, _⟩ :=
      @processed_received _ _ stamp s a ⟨t, none⟩ e ordered newer clientStep event
    refine ⟨?_, distinct⟩
    intro d held
    obtain old | same := (step_processed clientStep event).2 d held
    · obtain ⟨other, known, hasOther⟩ := ordered.waiting d old
      refine ⟨other, ?_, hasOther⟩
      have delivered := step_delivered clientStep
      unfold received at known ⊢
      rw [delivered]
      split
      · exact filterMap_append ▸ mem_append_left _ known
      · exact known
    · exact ⟨id, member, same ▸ has⟩

theorem ordered_loaded (lastId stored : Option String) : Ordered stamp (loaded lastId stored) :=
  ⟨fun _ held => absurd held not_mem_nil, nodup_nil, Or.inl rfl, Or.inl rfl⟩

end Largest

/-- The cursor and its copy are always the largest id received exactly when every
event that is processed is the newest so far and its id is written. -/
theorem cursor_ahead_iff {α : Type} [LinearOrder α] (stamp : String → α)
    (lastId stored : Option String) (actions : List (Action × Bool))
    (increasing : Everywhere storedStep (fun s a _ => Newer stamp s a)
      (loaded lastId stored) actions) :
    Everywhere storedStep (fun _ _ t => CursorAhead stamp t) (loaded lastId stored) actions
      ↔ Everywhere storedStep (fun s a _ => InTime stamp s a) (loaded lastId stored) actions :=
  everywhere_iff storedStep (Ordered stamp)
    (fun _ _ _ ordered newer taken => cursorAhead_iff ordered newer taken)
    (fun _ _ _ ordered newer taken ahead => ordered.next newer taken ahead)
    actions (ordered_loaded lastId stored) increasing

/-- The two numbers of `<milliseconds>-<sequence>`. -/
def idStamp (id : String) : EntryId :=
  entryId (JsObject.Record.decimal (id.toList.takeWhile (· ≠ '-')))
    (JsObject.Record.decimal ((id.toList.dropWhile (· ≠ '-')).drop 1))

def runningEvent (id jobId : String) : AsyncEvent := ⟨some id, jobId, .running, .list [], none⟩

def overtaken : List (Action × Bool) :=
  [(.wait "b", true), (.deliver (runningEvent "1-0" "a"), true),
   (.deliver (runningEvent "2-0" "b"), true), (.timer 0, true)]

theorem overtaken_increasing : Everywhere storedStep (fun s a _ => Newer idStamp s a)
    (loaded none none) overtaken := by
  refine fun _ wait => ⟨trivial, ?_⟩
  cases wait
  refine fun _ first => ⟨⟨_, rfl, by decide⟩, ?_⟩
  cases first
  refine fun _ second => ⟨⟨_, rfl, by decide⟩, ?_⟩
  cases second
  exact fun _ timer => ⟨trivial, trivial⟩

theorem cursor_ahead_overtaken :
    Everywhere storedStep (fun _ _ t => CursorAhead idStamp t) (loaded none none) overtaken
      ↔ Everywhere storedStep (fun s a _ => InTime idStamp s a) (loaded none none) overtaken :=
  cursor_ahead_iff idStamp none none overtaken overtaken_increasing

theorem cursor_moves_back :
    ¬∀ actions, Everywhere storedStep (fun s a _ => Newer idStamp s a) (loaded none none) actions →
      Everywhere storedStep (fun _ _ t => CursorAhead idStamp t) (loaded none none) actions := by
  intro holds
  have ahead := holds overtaken overtaken_increasing
  obtain ⟨_, ahead⟩ := ahead _ rfl
  obtain ⟨_, ahead⟩ := ahead _ rfl
  obtain ⟨_, ahead⟩ := ahead _ rfl
  obtain ⟨⟨fired, _⟩, _⟩ := ahead _ rfl
  obtain empty | ⟨id, _, same, bound⟩ := fired
  · exact absurd empty (by decide)
  · cases same
    exact absurd (bound "2-0" (by decide)) (by decide)

end Liteset.Events.Client
