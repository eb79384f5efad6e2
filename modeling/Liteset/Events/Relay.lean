import Mathlib.Data.Prod.Lex
import Liteset.Lib.Runs

/-!
# The WebSocket relay of a channel's event stream

`_relay_events` of `websocket/events.py` reads a Redis stream with blocking
`XREAD`s and sends every entry to the client; on reconnection the client passes
the id of the last event it received.  The model has one channel and one client.
Appends, trimming, block timeouts, transient Redis errors and disconnects happen
between any two steps of the relay.

`log` keeps every entry ever appended and `base` the last id of the stream when
the client's first `XREAD` was issued; no step of the program looks at them.
-/

set_option autoImplicit false

namespace Liteset.Events

/-- `milliseconds-sequence`, ordered lexicographically. -/
abbrev EntryId := ℕ ×ₗ ℕ

def entryId (milliseconds sequence : Nat) : EntryId := toLex (milliseconds, sequence)

/-- `increment_id` on the text of a stream id. -/
def incrementId (id : EntryId) : EntryId := entryId (ofLex id).1 ((ofLex id).2 + 1)

/-- The `data` field of an entry, as far as `parse_event` distinguishes it. -/
inductive Data where
  | missing
  | notJson
  | notObject
  | object (members : String)
  deriving DecidableEq, Repr

structure Entry where
  id : EntryId
  data : Data
  deriving DecidableEq

inductive ParseError where
  | keyError
  | jsonDecodeError
  | typeError
  deriving DecidableEq, Repr

/-- `{"id": event_id, **json.loads(event_payload)}`; unpacking anything but an
object is a `TypeError`. -/
def parseEvent (entry : Entry) : Except ParseError (EntryId × String) :=
  match entry.data with
  | .missing => .error .keyError
  | .notJson => .error .jsonDecodeError
  | .notObject => .error .typeError
  | .object members => .ok (entry.id, members)

/-- The entry parses into an event. -/
def Entry.WellFormed (entry : Entry) : Prop := ∃ event, parseEvent entry = .ok event

instance (entry : Entry) : Decidable entry.WellFormed :=
  match parsed : parseEvent entry with
  | .ok event => .isTrue ⟨event, parsed⟩
  | .error _ => .isFalse fun h => by
    obtain ⟨event, ok⟩ := h
    rw [parsed] at ok
    cases ok

/-- The entries strictly after an id, at most `count` of them; `COUNT 0` is no
bound. -/
def xread (count : Nat) (stream : List Entry) (after : EntryId) : List Entry :=
  let found := stream.filter fun e => after < e.id
  if count = 0 then found else found.take count

inductive Cursor where
  | onlyNew
  | after (id : EntryId)
  deriving DecidableEq

/-- Where the relay stands: no connection, at the top of its loop, inside an
`XREAD` with its cursor resolved, or inside the loop over a response. -/
inductive Phase where
  | disconnected
  | top
  | reading (after : EntryId)
  | sending (after : EntryId) (batch : List Entry)
  deriving DecidableEq

structure State where
  stream : List Entry := []
  lastId : EntryId := entryId 0 0
  phase : Phase := .disconnected
  cursor : Cursor := .onlyNew
  received : List Entry := []
  log : List Entry := []
  base : Option EntryId := none
  deriving DecidableEq

/-- `last_async_event_id` of the client. -/
def State.lastReceived (st : State) : Option EntryId := st.received.getLast?.map Entry.id

/-- `cursor = increment_id(last_id) if last_id else ONLY_NEW_CURSOR` -/
def firstCursor : Option EntryId → Cursor
  | none => .onlyNew
  | some lastId => .after (incrementId lastId)

def Cursor.resolve (cursor : Cursor) (lastId : EntryId) : EntryId :=
  match cursor with
  | .onlyNew => lastId
  | .after id => id

inductive Action where
  | append (entry : Entry)
  | trim (n : Nat)
  | connect
  | issue
  | reply
  | timeout
  | redisError
  | send
  | disconnect
  deriving DecidableEq

def sendEntry (st : State) (entry : Entry) (rest : List Entry) : State :=
  match parseEvent entry with
  | .ok _ =>
    { st with
      received := st.received ++ [entry]
      cursor := .after entry.id
      phase := .sending entry.id rest }
  | .error .keyError | .error .jsonDecodeError =>
    { st with cursor := .after entry.id, phase := .sending entry.id rest }
  -- not among the caught exceptions: the task ends and the socket is closed
  | .error .typeError => { st with phase := .disconnected }

def step (count : Nat) (st : State) : Action → Option State
  | .append entry =>
    if st.lastId < entry.id then
      some { st with
        stream := st.stream ++ [entry], lastId := entry.id, log := st.log ++ [entry] }
    else none
  | .trim n => some { st with stream := st.stream.drop n }
  | .connect =>
    match st.phase with
    | .disconnected => some { st with phase := .top, cursor := firstCursor st.lastReceived }
    | _ => none
  | .issue =>
    match st.phase with
    | .top => some { st with
        phase := .reading (st.cursor.resolve st.lastId)
        base := st.base <|> some st.lastId }
    | _ => none
  | .reply =>
    match st.phase with
    | .reading after =>
      match xread count st.stream after with
      | [] => none
      | entry :: rest => some { st with phase := .sending after (entry :: rest) }
    | _ => none
  | .timeout =>
    match st.phase with
    | .reading after =>
      if xread count st.stream after = [] then some { st with phase := .top } else none
    | _ => none
  | .redisError =>
    match st.phase with
    | .reading _ => some { st with phase := .top }
    | _ => none
  | .send =>
    match st.phase with
    | .sending _ [] => some { st with phase := .top }
    | .sending _ (entry :: rest) => some (sendEntry st entry rest)
    | _ => none
  | .disconnect =>
    match st.phase with
    | .disconnected => none
    | _ => some { st with phase := .disconnected }

def initial : State := {}

end Liteset.Events
