import Liteset.Lib.Json
import Liteset.Lib.Runs

/-!
# The async event middleware of the browser

`waitForAsyncData` and `processEvents` of `middleware/asyncEvent.ts`: listeners and
retry counters by job, the timers of `setTimeout` and the fetches under way.  How
events arrive (polling or web socket, again after a reconnect) is any sequence of
deliveries; timers fire and fetches complete in any order.

Beside the state of the middleware the model records what was delivered, what
reached a listener first, and what was given up before there was a listener.
-/

set_option autoImplicit false

namespace Liteset.Events.Client

open Liteset.Lib

/-- `status` of an event: `JOB_STATUS` or any other text. -/
inductive Status where
  | pending
  | running
  | error
  | done
  | unknown (text : String)
  deriving DecidableEq, Repr

structure AsyncEvent where
  id : Option String
  jobId : String
  status : Status
  errors : Json
  resultUrl : Option String
  deriving DecidableEq

def AsyncEvent.terminal (e : AsyncEvent) : Bool := e.status = .done || e.status = .error

/-- What `fetchCachedData` returns. -/
inductive CachedDataResponse where
  | success (data : Json)
  | error (data : Json)
  deriving DecidableEq

/-- How a promise is settled; `parseErrorJson` reads nothing but the event. -/
inductive Outcome where
  | resolve (data : List Json)
  | rejectResponse (data : List Json)
  | rejectEvent (e : AsyncEvent)
  deriving DecidableEq

def ensureIsArray : Json → List Json
  | .null => []
  | .list items => items
  | value => [value]

def CachedDataResponse.outcome : CachedDataResponse → Outcome
  | .success data => .resolve (ensureIsArray data)
  | .error data => .rejectResponse (ensureIsArray data)

structure State where
  listenersByJobId : String → Bool
  /-- A counter that is absent is 0. -/
  retriesByJobId : String → Nat
  lastReceivedEventId : Option String
  /-- The events that `setTimeout` holds. -/
  timers : List AsyncEvent
  /-- The events whose cached data is being fetched. -/
  fetches : List AsyncEvent
  promise : String → Option Outcome
  waiting : String → Bool
  delivered : List AsyncEvent
  handed : String → Option AsyncEvent
  missed : List AsyncEvent

def start : State where
  listenersByJobId := fun _ => false
  retriesByJobId := fun _ => 0
  lastReceivedEventId := none
  timers := []
  fetches := []
  promise := fun _ => none
  waiting := fun _ => false
  delivered := []
  handed := fun _ => none
  missed := []

section
variable {β : Type}

/-- `record[key] = value` -/
def set (record : String → β) (key : String) (value : β) : String → β :=
  fun k => if k = key then value else record k

@[simp] theorem set_self (record : String → β) (key : String) (value : β) :
    set record key value key = value := if_pos rfl

theorem set_other {record : String → β} {key other : String} {value : β} (apart : other ≠ key) :
    set record key value other = record other := if_neg apart

end

def maxRetries : Nat := 6

def addListener (s : State) (jobId : String) : State :=
  { s with listenersByJobId := set s.listenersByJobId jobId true }

def removeListener (s : State) (jobId : String) : State :=
  { s with listenersByJobId := set s.listenersByJobId jobId false }

/-- `resolve` or `reject`; only the first call of a promise counts. -/
def settle (s : State) (jobId : String) (outcome : Outcome) : State :=
  { s with promise := set s.promise jobId (some ((s.promise jobId).getD outcome)) }

def waitForAsyncData (s : State) (jobId : String) : State :=
  addListener { s with waiting := set s.waiting jobId true } jobId

/-- The listener up to its first `await`: only a done event has one. -/
def listener (s : State) (e : AsyncEvent) : State :=
  match e.status with
  | .done => { s with fetches := s.fetches ++ [e] }
  | .error => removeListener (settle s e.jobId (.rejectEvent e)) e.jobId
  | .pending | .running | .unknown _ => removeListener s e.jobId

def listenerDone (s : State) (jobId : String) (response : CachedDataResponse) : State :=
  removeListener (settle s jobId response.outcome) jobId

def recordHanded (s : State) (e : AsyncEvent) : State :=
  { s with handed := set s.handed e.jobId (some ((s.handed e.jobId).getD e)) }

def retryLater (s : State) (e : AsyncEvent) : State :=
  if s.retriesByJobId e.jobId + 1 ≤ maxRetries then
    { s with
      retriesByJobId := set s.retriesByJobId e.jobId (s.retriesByJobId e.jobId + 1)
      timers := s.timers ++ [e] }
  else
    { s with
      retriesByJobId := set s.retriesByJobId e.jobId 0
      missed := if s.waiting e.jobId then s.missed else s.missed ++ [e] }

/-- `delete retriesByJobId[jobId]` -/
def deleteRetries (s : State) (jobId : String) : State :=
  { s with retriesByJobId := set s.retriesByJobId jobId 0 }

def setLastId (s : State) (e : AsyncEvent) : State := { s with lastReceivedEventId := e.id }

/-- `processEvents` of one event. -/
def processEvent (s : State) (e : AsyncEvent) : State :=
  setLastId
    (if s.listenersByJobId e.jobId then deleteRetries (listener (recordHanded s e) e) e.jobId
    else retryLater s e) e

def deliver (s : State) (e : AsyncEvent) : State :=
  processEvent { s with delivered := s.delivered ++ [e] } e

inductive Action where
  | wait (jobId : String)
  | deliver (e : AsyncEvent)
  /-- The timer at a position fires. -/
  | timer (i : Nat)
  /-- The fetch at a position completes. -/
  | fetched (i : Nat) (response : CachedDataResponse)

def step (s : State) : Action → Option State
  | .wait jobId => if s.waiting jobId then none else some (waitForAsyncData s jobId)
  | .deliver e => some (deliver s e)
  | .timer i =>
    match s.timers[i]? with
    | none => none
    | some e => some (processEvent { s with timers := s.timers.eraseIdx i } e)
  | .fetched i response =>
    match s.fetches[i]? with
    | none => none
    | some e => some (listenerDone { s with fetches := s.fetches.eraseIdx i } e.jobId response)

end Liteset.Events.Client
