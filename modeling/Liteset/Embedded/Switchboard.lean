import Mathlib.Algebra.GroupWithZero.Nat
import Mathlib.Data.Bool.Basic
import Mathlib.Data.List.Nodup
import Mathlib.Logic.Function.Basic
import Std.Data.String.ToNat
import Liteset.Lib.Runs

/-!
# Calls between an iframe and its parent

Two `Switchboard` objects on the ports of one `MessageChannel`.  A `get` sends a message
with an id of its own and waits for a message with that id; which call a message was sent
for, which message settled a promise, and which answers could not be sent, is recorded beside
what the code keeps.
-/

set_option autoImplicit false

namespace Liteset.Embedded

open List

open Lib.Runs (Reaches anyStep exists_reaches_of_runWithin length_of_runWithin runWithin)

inductive Message (Args Result : Type) where
  | get (method messageId : String) (args : Args)
  | reply (messageId : String) (result : Result)
  | emit (method : String) (args : Args)
  | error (messageId error : String)
deriving DecidableEq

structure Parcel (Args Result : Type) where
  message : Message Args Result
  call : Nat
deriving DecidableEq

abbrev Settled (Result : Type) := Except String Result

section Messages

variable {Args Result : Type}

def Message.messageId : Message Args Result → Option String
  | .get _ messageId _ => some messageId
  | .reply messageId _ => some messageId
  | .emit _ _ => none
  | .error messageId _ => some messageId

def Message.answer : Message Args Result → Option (Settled Result)
  | .reply _ result => some (.ok result)
  | .error _ text => some (.error text)
  | _ => none

/-- The end of the listener of `get`. -/
def Message.reaction : Message Args Result → Settled Result
  | .reply _ result => .ok result
  | .error _ text => .error text
  | _ => .error "Unexpected response message"

/-- The steps that follow from a message. -/
def Message.work : Message Args Result → Nat
  | .get .. => 3
  | _ => 1

end Messages

structure Listener where
  messageId : String
  call : Nat
deriving DecidableEq

/-- A run of `getMethodResult`; `isDefined` is whether a method of this name was found. -/
structure Task where
  messageId : String
  method : String
  isDefined : Bool
  call : Nat
deriving DecidableEq

structure Switchboard where
  name : String
  methods : List String := []
  incrementor : Nat := 1
  started : Bool := false
  listeners : List Listener := []
  tasks : List Task := []
deriving DecidableEq

/-- How a method ends: with a value, with an exception, or with a value that `postMessage`
cannot clone. -/
inductive Outcome (Result : Type) where
  | returned (result : Result)
  | threw
  | uncloneable

/-- What the object `this.methods` has without any definition. -/
def objectPrototype : List String :=
  ["constructor", "hasOwnProperty", "isPrototypeOf", "propertyIsEnumerable", "toLocaleString",
    "toString", "valueOf", "__defineGetter__", "__defineSetter__", "__lookupGetter__",
    "__lookupSetter__", "__proto__"]

def newMessageId (name : String) (incrementor : Nat) : String :=
  "m_" ++ name ++ "_" ++ toString incrementor

/-- The promise of `call` of the end `side` settled when `cause` arrived. -/
structure Settlement (Args Result : Type) where
  side : Bool
  call : Nat
  settled : Settled Result
  cause : Parcel Args Result

/-- `incoming side` are the messages under way to an end, the oldest first; `answers` are
the replies and errors that the other end has produced for it, `unanswered` the ids of its
calls whose result the other end could not post. -/
structure World (Args Result : Type) where
  ends : Bool → Switchboard
  incoming : Bool → List (Parcel Args Result) := fun _ => []
  answers : List (Bool × Parcel Args Result) := []
  unanswered : List (Bool × String) := []
  settlements : List (Settlement Args Result) := []

inductive Event (Args Result : Type) where
  | defineMethod (side : Bool) (method : String)
  | start (side : Bool)
  | get (side : Bool) (method : String) (args : Args)
  | emit (side : Bool) (method : String) (args : Args)
  /-- The oldest message arrives. -/
  | deliver (side : Bool)
  /-- The method of a task ends. -/
  | complete (side : Bool) (task : Nat) (outcome : Outcome Result)

section Steps

variable {Args Result : Type}

/-- The message that `getMethodResult` gives, if it can be posted: the listener of `init` does
that outside of any `try`. -/
def methodResult (name : String) (task : Task) (outcome : Outcome Result) :
    Option (Message Args Result) :=
  if task.isDefined then
    match outcome with
    | .returned result => some (.reply task.messageId result)
    | .threw =>
      some (.error task.messageId
        ("[" ++ name ++ "] Method \"" ++ task.method ++ "\" threw an error"))
    | .uncloneable => none
  else some (.error task.messageId
    ("[" ++ name ++ "] Method \"" ++ task.method ++ "\" is not defined"))

/-- The listener of `init`: a task for a `get`. -/
def newTasks (board : Switchboard) (parcel : Parcel Args Result) : List Task :=
  match parcel.message with
  | .get method messageId _ =>
    [⟨messageId, method, method ∈ board.methods ++ objectPrototype, parcel.call⟩]
  | _ => []

def settlementsOf (side : Bool) (parcel : Parcel Args Result) (addressed : List Listener) :
    List (Settlement Args Result) :=
  addressed.map fun listener => ⟨side, listener.call, parcel.message.reaction, parcel⟩

namespace World

variable (world : World Args Result)

def setEnd (side : Bool) (board : Switchboard) : World Args Result :=
  { world with ends := Function.update world.ends side board }

/-- `port.postMessage` of the end `side`. -/
def post (side : Bool) (parcel : Parcel Args Result) : World Args Result :=
  { world with incoming := Function.update world.incoming (!side) (world.incoming (!side) ++
    [parcel]) }

/-- The end after `getNewMessageId`, `addEventListener` and `port.start()`. -/
def register (side : Bool) : Switchboard :=
  let board := world.ends side
  { board with
    incrementor := board.incrementor + 1
    listeners := board.listeners ++ [⟨newMessageId board.name board.incrementor, board.incrementor⟩]
    started := true }

def get (side : Bool) (method : String) (args : Args) : World Args Result :=
  let board := world.ends side
  (world.setEnd side (world.register side)).post side
    ⟨.get method (newMessageId board.name board.incrementor) args, board.incrementor⟩

def addressed (side : Bool) (parcel : Parcel Args Result) : List Listener :=
  (world.ends side).listeners.filter fun listener =>
    parcel.message.messageId = some listener.messageId

/-- The end after the listener of `init` and the listeners of the calls have run. -/
def reached (side : Bool) (parcel : Parcel Args Result) : Switchboard :=
  let board := world.ends side
  { board with
    tasks := board.tasks ++ newTasks board parcel
    listeners := board.listeners.filter fun listener =>
      parcel.message.messageId ≠ some listener.messageId }

def receive (side : Bool) (parcel : Parcel Args Result) (rest : List (Parcel Args Result)) :
    World Args Result :=
  { world.setEnd side (world.reached side parcel) with
    incoming := Function.update world.incoming side rest
    settlements := world.settlements ++ settlementsOf side parcel (world.addressed side parcel) }

/-- The end without a task. -/
def without (side : Bool) (index : Nat) : Switchboard :=
  { world.ends side with tasks := (world.ends side).tasks.eraseIdx index }

def answer (side : Bool) (index : Nat) (task : Task) (outcome : Outcome Result) :
    World Args Result :=
  let ended := world.setEnd side (world.without side index)
  match methodResult (world.ends side).name task outcome with
  | some message =>
    { ended.post side ⟨message, task.call⟩ with
      answers := (!side, ⟨message, task.call⟩) :: world.answers }
  | none => { ended with unanswered := (!side, task.messageId) :: world.unanswered }

end World

def step (world : World Args Result) : Event Args Result → Option (World Args Result)
  | .defineMethod side method =>
    some (world.setEnd side { world.ends side with methods := method :: (world.ends side).methods })
  | .start side => some (world.setEnd side { world.ends side with started := true })
  | .get side method args => some (world.get side method args)
  | .emit side method args => some (world.post side ⟨.emit method args, 0⟩)
  | .deliver side =>
    match (world.ends side).started, world.incoming side with
    | true, parcel :: rest => some (world.receive side parcel rest)
    | _, _ => none
  | .complete side index outcome =>
    ((world.ends side).tasks[index]?).map fun task => world.answer side index task outcome

def initial (name : Bool → String) (methods : Bool → List String) : World Args Result where
  ends side := { name := name side, methods := methods side }

end Steps

section Properties

variable {Args Result : Type}

/-- Each promise has settled at most once, on a reply or an error that the other end has
produced for that call, and as this message says. -/
structure Uncrossed (world : World Args Result) : Prop where
  once : (world.settlements.map fun s => (s.side, s.call)).Nodup
  own : ∀ s ∈ world.settlements, s.cause.call = s.call ∧ s.cause.message.answer = some s.settled ∧
    (s.side, s.cause) ∈ world.answers

def Orderly (world : World Args Result) : Event Args Result → Prop
  | .deliver side =>
    ∀ parcel ∈ (world.incoming side).head?, parcel.message.answer = none →
      ∀ listener ∈ (world.ends side).listeners, parcel.message.messageId ≠ some listener.messageId
  | _ => True

end Properties

theorem underscore_notMem_repr (n : Nat) : '_' ∉ n.repr.toList := by
  rw [Nat.toList_repr]
  intro member
  have digit := Nat.isDigit_of_mem_toDigits (by omega) (by omega) member
  revert digit
  decide

theorem first_split {c : Char} {front other rest back : List Char} (plain : c ∉ front)
    (plainOther : c ∉ other)
    (same : front ++ c :: rest = other ++ c :: back) : front = other ∧ rest = back := by
  induction front generalizing other with
  | nil =>
    cases other with
    | nil => exact ⟨rfl, (List.cons.inj same).2⟩
    | cons d other => exact absurd (mem_cons.mpr (Or.inl (List.cons.inj same).1)) plainOther
  | cons d front ih =>
    cases other with
    | nil => exact absurd (mem_cons.mpr (Or.inl (List.cons.inj same).1.symm)) plain
    | cons e other =>
      obtain ⟨head, tail⟩ := List.cons.inj same
      obtain ⟨fronts, rests⟩ := ih (fun member => plain (mem_cons_of_mem d member))
        (fun member => plainOther (mem_cons_of_mem e member)) tail
      exact ⟨by rw [head, fronts], rests⟩

theorem newMessageId_inj {name other : String} {m n : Nat}
    (same : newMessageId name m = newMessageId other n) :
    name = other ∧ m = n := by
  have plain : ∀ k : Nat, '_' ∉ k.repr.toList.reverse := fun k member =>
    underscore_notMem_repr k (mem_reverse.mp member)
  have backwards := congrArg (fun text => text.toList.reverse) same
  simp only [newMessageId, String.toList_append, reverse_append, append_assoc] at backwards
  obtain ⟨digits, names⟩ := first_split (plain m) (plain n) backwards
  refine ⟨String.toList_inj.mp (reverse_inj.mp (append_cancel_right names)), ?_⟩
  exact Nat.repr_injective (String.toList_inj.mp (reverse_inj.mp digits))

section Invariant

variable {Args Result : Type}

/-- The ids that are under way belong to the calls they are recorded for. -/
structure Sound (name : Bool → String) (world : World Args Result) : Prop where
  names : ∀ side, (world.ends side).name = name side
  listeners : ∀ side, ∀ listener ∈ (world.ends side).listeners,
    listener.messageId = newMessageId (name side) listener.call ∧
    listener.call < (world.ends side).incrementor
  distinct : ∀ side, ((world.ends side).listeners.map Listener.call).Nodup
  tasks : ∀ side, ∀ task ∈ (world.ends side).tasks,
    task.messageId = newMessageId (name !side) task.call
  requests : ∀ side, ∀ parcel ∈ world.incoming side, ∀ method messageId args,
    parcel.message = .get method messageId args → messageId = newMessageId (name !side) parcel.call
  answered : ∀ side, ∀ parcel ∈ world.incoming side, parcel.message.answer ≠ none →
    parcel.message.messageId = some (newMessageId (name side) parcel.call) ∧ (side, parcel) ∈
      world.answers
  past : ∀ s ∈ world.settlements, s.call < (world.ends s.side).incrementor
  still : ∀ s ∈ world.settlements, ∀ listener ∈ (world.ends s.side).listeners,
    listener.call ≠ s.call
  uncrossed : Uncrossed world

theorem setEnd_own (world : World Args Result) (side : Bool) (board : Switchboard) :
    (world.setEnd side board).ends side = board := by
  simp only [World.setEnd, Function.update_self]

theorem forall_setEnd {world : World Args Result} {side : Bool} {board : Switchboard}
    (P : Bool → Switchboard → Prop)
    (own : P side board) (others : ∀ other, P other (world.ends other)) :
    ∀ other, P other ((world.setEnd side board).ends other) :=
  (Function.forall_update_iff world.ends P).mpr ⟨own, fun other _ => others other⟩

variable {name : Bool → String} {world : World Args Result}

theorem sound_initial (methods : Bool → List String) : Sound name
    (initial name methods : World Args Result) where
  names _ := rfl
  listeners _ := nofun
  distinct _ := nodup_nil
  tasks _ := nofun
  requests _ := nofun
  answered _ := nofun
  past := nofun
  still := nofun
  uncrossed := ⟨nodup_nil, nofun⟩

section
variable (sound : Sound name world) (side : Bool)
include sound side

theorem sound_setEnd (board : Switchboard)
    (sameName : board.name = (world.ends side).name)
    (incrementor : board.incrementor = (world.ends side).incrementor)
    (listeners : board.listeners.Sublist (world.ends side).listeners)
    (tasks : ∀ task ∈ board.tasks, task.messageId = newMessageId (name !side) task.call) :
    Sound name (world.setEnd side board) where
  names := forall_setEnd (fun other b => b.name = name other) (sameName.trans (sound.names side))
    sound.names
  listeners := forall_setEnd (fun other b => ∀ listener ∈ b.listeners,
      listener.messageId = newMessageId (name other) listener.call ∧ listener.call < b.incrementor)
    (fun listener member => incrementor ▸ sound.listeners side listener (listeners.subset member))
      sound.listeners
  distinct := forall_setEnd (fun _ b => (b.listeners.map Listener.call).Nodup)
    ((sound.distinct side).sublist (listeners.map Listener.call)) sound.distinct
  tasks := forall_setEnd
    (fun other b => ∀ task ∈ b.tasks, task.messageId = newMessageId (name !other) task.call)
    tasks sound.tasks
  requests := sound.requests
  answered := sound.answered
  past s member := forall_setEnd (fun other b => s.side = other → s.call < b.incrementor)
    (fun same => by rw [incrementor, ← same]; exact sound.past s member)
    (fun _ same => same ▸ sound.past s member) s.side rfl
  still s member :=
    forall_setEnd (fun other b => s.side = other → ∀ listener ∈ b.listeners, listener.call ≠ s.call)
    (fun same listener listening =>
      sound.still s member listener (same ▸ listeners.subset listening))
    (fun _ same => same ▸ sound.still s member) s.side rfl
  uncrossed := ⟨sound.uncrossed.once, sound.uncrossed.own⟩

theorem sound_register (board : Switchboard)
    (sameName : board.name = (world.ends side).name) (tasks : board.tasks = (world.ends side).tasks)
    (incrementor : board.incrementor = (world.ends side).incrementor + 1)
    (listeners : board.listeners = (world.ends side).listeners ++
      [⟨newMessageId (world.ends side).name (world.ends side).incrementor,
        (world.ends side).incrementor⟩]) :
    Sound name (world.setEnd side board) where
  names := forall_setEnd (fun other b => b.name = name other) (sameName.trans (sound.names side))
    sound.names
  listeners := by
    refine forall_setEnd (fun other b => ∀ listener ∈ b.listeners,
      listener.messageId = newMessageId (name other) listener.call ∧ listener.call < b.incrementor)
      (fun listener member => ?_) sound.listeners
    rw [listeners] at member
    rw [incrementor]
    rcases mem_append.mp member with earlier | new
    · obtain ⟨id, below⟩ := sound.listeners side listener earlier
      exact ⟨id, Nat.lt_succ_of_lt below⟩
    · rw [mem_singleton.mp new, ← sound.names side]
      exact ⟨rfl, Nat.lt_succ_self _⟩
  distinct := by
    refine forall_setEnd (fun _ b => (b.listeners.map Listener.call).Nodup) ?_ sound.distinct
    rw [listeners, map_append, map_singleton, nodup_append]
    refine ⟨sound.distinct side, nodup_singleton _, ?_⟩
    intro call earlier new fresh
    obtain ⟨listener, member, rfl⟩ := mem_map.mp earlier
    rw [mem_singleton.mp fresh]
    exact Nat.ne_of_lt (sound.listeners side listener member).2
  tasks := forall_setEnd
    (fun other b => ∀ task ∈ b.tasks, task.messageId = newMessageId (name !other) task.call)
    (tasks ▸ sound.tasks side) sound.tasks
  requests := sound.requests
  answered := sound.answered
  past s member := forall_setEnd (fun other b => s.side = other → s.call < b.incrementor)
    (fun same => by rw [incrementor, ← same]; exact Nat.lt_succ_of_lt (sound.past s member))
    (fun _ same => same ▸ sound.past s member) s.side rfl
  still s member := by
    refine forall_setEnd (fun other b => s.side = other → ∀ listener ∈ b.listeners,
      listener.call ≠ s.call)
      (fun same listener listening => ?_) (fun _ same => same ▸ sound.still s member) s.side rfl
    rw [listeners] at listening
    rcases mem_append.mp listening with earlier | new
    · exact sound.still s member listener (same ▸ earlier)
    · rw [mem_singleton.mp new, ← same]
      exact (Nat.ne_of_lt (sound.past s member)).symm
  uncrossed := ⟨sound.uncrossed.once, sound.uncrossed.own⟩

theorem sound_post (parcel : Parcel Args Result)
    (request : ∀ method messageId args, parcel.message = .get method messageId args →
      messageId = newMessageId (name side) parcel.call)
    (answered : parcel.message.answer ≠ none →
      parcel.message.messageId = some (newMessageId (name !side) parcel.call) ∧ (!side, parcel) ∈
        world.answers) :
    Sound name (world.post side parcel) := by
  have arriving : ∀ other, ∀ sent ∈ (world.post side parcel).incoming other,
      sent ∈ world.incoming other ∨ other = !side ∧ sent = parcel := by
    intro other sent member
    rcases eq_or_ne other (!side) with rfl | different
    · simp only [World.post, Function.update_self] at member
      exact (mem_append.mp member).imp id fun new => ⟨rfl, mem_singleton.mp new⟩
    · simp only [World.post, Function.update_of_ne different] at member
      exact Or.inl member
  refine ⟨sound.names, sound.listeners, sound.distinct, sound.tasks, ?_, ?_, sound.past,
    sound.still, ⟨sound.uncrossed.once, sound.uncrossed.own⟩⟩
  · intro other sent member
    rcases arriving other sent member with earlier | ⟨rfl, rfl⟩
    · exact sound.requests other sent earlier
    · rw [Bool.not_not]
      exact request
  · intro other sent member
    rcases arriving other sent member with earlier | ⟨rfl, rfl⟩
    · exact sound.answered other sent earlier
    · exact answered

theorem sound_get (method : String) (args : Args) : Sound name (world.get side method args) := by
  have listening := sound_register sound side (world.register side) rfl rfl rfl rfl
  refine sound_post listening side _ ?_ ?_
  · intro sentMethod messageId sentArgs sent
    obtain ⟨_, rfl, _⟩ := Message.get.inj sent
    rw [sound.names side]
  · exact fun answer => absurd rfl answer

end

theorem methodResult_answer {boardName : String} {task : Task} {outcome : Outcome Result}
    {message : Message Args Result}
    (posted : methodResult boardName task outcome = some message) :
    message.answer ≠ none ∧ message.messageId = some task.messageId ∧ message.work = 1 := by
  rcases task with ⟨messageId, method, isDefined, call⟩
  cases isDefined <;> cases outcome <;> cases posted <;> exact ⟨nofun, rfl, rfl⟩

section
variable (sound : Sound name world)
include sound

theorem sound_produced (entry : Bool × Parcel Args Result) :
    Sound name { world with answers := entry :: world.answers } where
  __ := sound
  answered side parcel member answer :=
    (sound.answered side parcel member answer).imp id (mem_cons_of_mem entry)
  uncrossed := ⟨sound.uncrossed.once, fun s member =>
    (sound.uncrossed.own s member).imp id (And.imp id (mem_cons_of_mem entry))⟩

theorem sound_answer (side : Bool) (index : Nat) (task : Task) (outcome : Outcome Result)
    (running : (world.ends side).tasks[index]? = some task) :
    Sound name (world.answer side index task outcome) := by
  have ended := sound_setEnd sound side (world.without side index) rfl rfl
    (Sublist.refl _) fun left member => sound.tasks side left (mem_of_mem_eraseIdx member)
  unfold World.answer
  cases posted :
    (methodResult (world.ends side).name task outcome : Option (Message Args Result)) with
  | none => exact { ended with uncrossed := ⟨ended.uncrossed.once, ended.uncrossed.own⟩ }
  | some message =>
    obtain ⟨isAnswer, messageId, -⟩ := methodResult_answer posted
    refine sound_post (sound_produced ended _) side _ ?_ ?_
    · intro method id args request
      exact absurd (congrArg Message.answer request) isAnswer
    · intro _
      exact ⟨by rw [messageId, sound.tasks side task (mem_of_getElem? running)], mem_cons_self⟩

section
variable (side : Bool) (parcel : Parcel Args Result)
include side parcel

theorem sound_taken (rest : List (Parcel Args Result))
    (oldest : world.incoming side = parcel :: rest) :
    Sound name { world with incoming := Function.update world.incoming side rest } := by
  have before : ∀ other, ∀ sent ∈ Function.update world.incoming side rest other,
      sent ∈ world.incoming other := by
    intro other sent member
    rcases eq_or_ne other side with rfl | different
    · rw [Function.update_self] at member
      rw [oldest]
      exact mem_cons_of_mem parcel member
    · rwa [Function.update_of_ne different] at member
  exact ⟨sound.names, sound.listeners, sound.distinct, sound.tasks,
    fun other sent member => sound.requests other sent (before other sent member),
    fun other sent member => sound.answered other sent (before other sent member),
    sound.past, sound.still, ⟨sound.uncrossed.once, sound.uncrossed.own⟩⟩

theorem sound_settled (addressed : List Listener)
    (settled : ∀ listener ∈ addressed, listener.call < (world.ends side).incrementor ∧
      listener.call = parcel.call ∧
      parcel.message.answer = some parcel.message.reaction ∧ (side, parcel) ∈ world.answers)
    (distinct : (addressed.map Listener.call).Nodup)
    (gone : ∀ listener ∈ addressed, ∀ left ∈ (world.ends side).listeners, left.call ≠ listener.call)
    (fresh : ∀ listener ∈ addressed, ∀ s ∈ world.settlements, s.side = side →
      s.call ≠ listener.call) :
    Sound name { world with
      settlements := world.settlements ++ settlementsOf side parcel addressed } := by
  refine ⟨sound.names, sound.listeners, sound.distinct, sound.tasks, sound.requests, sound.answered,
    ?_, ?_, ⟨?_, ?_⟩⟩
  · intro s member
    rcases mem_append.mp member with earlier | new
    · exact sound.past s earlier
    · obtain ⟨listener, listed, rfl⟩ := mem_map.mp new
      exact (settled listener listed).1
  · intro s member
    rcases mem_append.mp member with earlier | new
    · exact sound.still s earlier
    · obtain ⟨listener, listed, rfl⟩ := mem_map.mp new
      exact gone listener listed
  · rw [map_append, nodup_append]
    refine ⟨sound.uncrossed.once, ?_, ?_⟩
    · have keys : ((addressed.map Listener.call).map fun call => (side, call)).Nodup :=
        distinct.map fun a b same => (Prod.mk.inj same).2
      simpa only [settlementsOf, map_map, Function.comp_def] using keys
    · intro key earlier other later same
      obtain ⟨s, member, rfl⟩ := mem_map.mp earlier
      obtain ⟨new, added, rfl⟩ := mem_map.mp later
      obtain ⟨listener, listed, rfl⟩ := mem_map.mp added
      obtain ⟨sameSide, sameCall⟩ := Prod.mk.inj same
      exact fresh listener listed s member sameSide sameCall
  · intro s member
    rcases mem_append.mp member with earlier | new
    · exact sound.uncrossed.own s earlier
    · obtain ⟨listener, listed, rfl⟩ := mem_map.mp new
      obtain ⟨_, call, answer, produced⟩ := settled listener listed
      exact ⟨call.symm, answer, produced⟩

theorem addressed_of_orderly (arriving : parcel ∈ world.incoming side)
    (orderly : parcel.message.answer = none →
      ∀ listener ∈ (world.ends side).listeners, parcel.message.messageId ≠ some listener.messageId)
    (listener : Listener) (listed : listener ∈ (world.ends side).listeners)
    (found : parcel.message.messageId = some listener.messageId) :
    listener.call = parcel.call ∧ parcel.message.answer = some parcel.message.reaction ∧
    (side, parcel) ∈ world.answers := by
  have isAnswer : parcel.message.answer ≠ none := fun none => orderly none listener listed found
  obtain ⟨messageId, produced⟩ := sound.answered side parcel arriving isAnswer
  have ids := Option.some.inj (found.symm.trans messageId)
  rw [(sound.listeners side listener listed).1] at ids
  refine ⟨(newMessageId_inj ids).2, ?_, produced⟩
  cases message : parcel.message with
  | get method id args => simp [message, Message.answer] at isAnswer
  | emit method args => simp [message, Message.answer] at isAnswer
  | reply id result => rfl
  | error id text => rfl

theorem newTasks_messageId
    (arriving : parcel ∈ world.incoming side) (task : Task)
    (new : task ∈ newTasks (world.ends side) parcel) :
    task.messageId = newMessageId (name !side) task.call := by
  cases message : parcel.message with
  | get method id args =>
    rw [newTasks, message] at new
    rw [mem_singleton.mp new]
    exact sound.requests side parcel arriving method id args message
  | _ => simp [newTasks, message] at new

theorem sound_receive (rest : List (Parcel Args Result))
    (oldest : world.incoming side = parcel :: rest)
    (orderly : Orderly world (.deliver side : Event Args Result)) :
    Sound name (world.receive side parcel rest) := by
  have arriving : parcel ∈ world.incoming side := by rw [oldest]; exact mem_cons_self
  have reached :=
    addressed_of_orderly sound side parcel arriving (orderly parcel (by rw [oldest]; rfl))
  have changed :=
    sound_setEnd (sound_taken sound side parcel rest oldest) side
      (world.reached side parcel) rfl rfl
    filter_sublist fun task member => by
      rcases mem_append.mp member with earlier | new
      · exact sound.tasks side task earlier
      · exact newTasks_messageId sound side parcel arriving task new
  have listed : ∀ listener ∈ world.addressed side parcel, listener ∈ (world.ends side).listeners ∧
      parcel.message.messageId = some listener.messageId := fun listener member =>
    (mem_filter.mp member).imp id of_decide_eq_true
  refine sound_settled changed side parcel (world.addressed side parcel) ?_ ?_ ?_ ?_
  · intro listener member
    obtain ⟨inside, found⟩ := listed listener member
    refine ⟨?_, reached listener inside found⟩
    rw [setEnd_own]
    exact (sound.listeners side listener inside).2
  · exact (sound.distinct side).sublist (filter_sublist.map Listener.call)
  · intro listener member left remaining same
    rw [setEnd_own] at remaining
    obtain ⟨inside, other⟩ := mem_filter.mp remaining
    obtain ⟨_, found⟩ := listed listener member
    have twin := inj_on_of_nodup_map (sound.distinct side) inside (listed listener member).1 same
    rw [twin] at other
    exact of_decide_eq_true other found
  · intro listener member s earlier sameSide sameCall
    exact sound.still s earlier listener (by rw [sameSide]; exact (listed listener member).1)
      sameCall.symm

end

theorem sound_step (event : Event Args Result) (orderly : Orderly world event)
    {next : World Args Result} (taken : step world event = some next) : Sound name next := by
  cases event with
  | defineMethod side method =>
    obtain rfl := Option.some.inj taken
    exact sound_setEnd sound side _ rfl rfl (Sublist.refl _) (sound.tasks side)
  | start side =>
    obtain rfl := Option.some.inj taken
    exact sound_setEnd sound side _ rfl rfl (Sublist.refl _) (sound.tasks side)
  | get side method args =>
    obtain rfl := Option.some.inj taken
    exact sound_get sound side method args
  | emit side method args =>
    obtain rfl := Option.some.inj taken
    exact sound_post sound side _ nofun fun answer => absurd rfl answer
  | deliver side =>
    simp only [step] at taken
    split at taken
    · rename_i parcel rest _ oldest
      obtain rfl := Option.some.inj taken
      exact sound_receive sound side parcel rest oldest orderly
    · cases taken
  | complete side index outcome =>
    obtain ⟨task, running, rfl⟩ := Option.map_eq_some_iff.mp taken
    exact sound_answer sound side index task outcome running

theorem orderly_of_names (differ : name false ≠ name true) (event : Event Args Result) :
    Orderly world event := by
  cases event with
  | deliver side =>
    intro parcel oldest plain listener listed found
    have arriving := mem_of_mem_head? oldest
    cases message : parcel.message with
    | get method id args =>
      have own := sound.requests side parcel arriving method id args message
      rw [message, Message.messageId, own, (sound.listeners side listener listed).1] at found
      have same := (newMessageId_inj (Option.some.inj found)).1
      cases side with
      | false => exact differ same.symm
      | true => exact differ same
    | emit method args => simp [message, Message.messageId] at found
    | reply id result => simp [message, Message.answer] at plain
    | error id text => simp [message, Message.answer] at plain
  | _ => trivial

end

theorem crossed_of_disorderly {event : Event Args Result} (disorderly : ¬ Orderly world event)
    {next : World Args Result} (taken : step world event = some next) : ¬ Uncrossed next := by
  cases event with
  | deliver side =>
    simp only [step] at taken
    split at taken
    · rename_i parcel rest _ oldest
      obtain rfl := Option.some.inj taken
      rw [Orderly, oldest, head?_cons] at disorderly
      simp only [Option.mem_def, Option.some.injEq, forall_eq', not_forall, not_not] at disorderly
      obtain ⟨plain, listener, listed, found⟩ := disorderly
      intro uncrossed
      have answer := (uncrossed.own ⟨side, listener.call, parcel.message.reaction, parcel⟩
        (mem_append_right _ (mem_map.mpr
          ⟨listener, mem_filter.mpr ⟨listed, decide_eq_true found⟩, rfl⟩))).2.1
      rw [plain] at answer
      cases answer
    · cases taken
  | _ => exact absurd trivial disorderly

end Invariant

section Runs

variable {Args Result : Type}

/-- Calls are not crossed while no request arrives with the id of an open call of the end it
arrives at; one that does settles that call.  With different names there is no such request. -/
theorem uncrossed_of_orderly (name : Bool → String) (methods : Bool → List String) :
    (∀ world : World Args Result, Reaches step Orderly (initial name methods) world →
      Uncrossed world) ∧
      (∀ (world next : World Args Result) (event : Event Args Result),
        Reaches step anyStep (initial name methods) world →
        ¬ Orderly world event → step world event = some next → ¬ Uncrossed next) ∧
      (name false ≠ name true →
        ∀ world : World Args Result, Reaches step anyStep (initial name methods) world →
        Uncrossed world) := by
  refine ⟨?_, ?_, ?_⟩
  · intro world reached
    exact (reached.invariant (Sound name)
      (sound_initial methods) fun _ event _ sound orderly taken =>
      sound_step sound event orderly taken).uncrossed
  · intro world next event _ disorderly taken
    exact crossed_of_disorderly disorderly taken
  · intro differ world reached
    exact (reached.invariant (Sound name) (sound_initial methods) fun _ event _ sound _ taken =>
      sound_step sound event (orderly_of_names sound differ event) taken).uncrossed

/-- The embedded page and its parent call each other at the same time, and the parent's method
throws. -/
theorem superset_call_uncrossed : ∃ world : World Unit Unit,
    (world.settlements.map fun s => (s.side, s.settled)) =
      [(false, .error "[superset-embedded-sdk] Method \"guestToken\" threw an error"),
        (true, .ok ())] ∧ Uncrossed world := by
  let name : Bool → String := fun side => if side then "superset-embedded-sdk" else "superset"
  let methods : Bool → List String := fun side => if side then ["guestToken"] else ["getScrollSize"]
  obtain ⟨world, reached, settled⟩ := exists_reaches_of_runWithin step anyStep
    (initial name methods : World Unit Unit)
    [.get false "guestToken" (), .get true "getScrollSize" (), .deliver true, .deliver false,
      .complete true 0 .threw, .complete false 0 (.returned ()), .deliver false, .deliver true]
    (fun world => (world.settlements.map fun s => (s.side, s.settled)) =
      [(false, .error "[superset-embedded-sdk] Method \"guestToken\" threw an error"),
        (true, .ok ())]) (by decide)
  exact ⟨world, settled, (uncrossed_of_orderly name methods).2.2 (by decide) world reached⟩

/-- Both ends have the default name and call at the same time. -/
theorem equal_names_cross :
    ¬ ∀ (name : Bool → String) (methods : Bool → List String) (world : World Unit Unit),
      Reaches step anyStep (initial name methods) world → Uncrossed world := by
  intro uncrossed
  obtain ⟨world, reached, settled⟩ := exists_reaches_of_runWithin step anyStep
    (initial (fun _ => "switchboard") fun _ => ["guestToken"] : World Unit Unit)
    [.get false "guestToken" (), .get true "guestToken" (), .deliver true]
    (fun world => (world.settlements.map fun s => s.cause.message.answer) = [none]) (by decide)
  obtain ⟨s, only⟩ := map_eq_singleton_iff.mp settled
  have answer :=
    ((uncrossed _ _ world reached).own s (by rw [only.1]; exact mem_singleton_self s)).2.1
  rw [only.2] at answer
  cases answer

end Runs

section Waiting

variable {Args Result : Type} {world : World Args Result}

/-- The request of a call, the run of its method or a message with its id is there. -/
def UnderWay (world : World Args Result) (side : Bool) (id : String) : Prop :=
  (∃ parcel ∈ world.incoming !side, ∃ method args, parcel.message = .get method id args) ∨
  (∃ task ∈ (world.ends !side).tasks, task.messageId = id) ∨
  ∃ parcel ∈ world.incoming side, parcel.message.messageId = some id

/-- A promise waits for what is under way, or for an answer that could not be posted. -/
def Accounted (world : World Args Result) (side : Bool) : Prop :=
  ∀ listener ∈ (world.ends side).listeners,
    UnderWay world side listener.messageId ∨ (side, listener.messageId) ∈ world.unanswered

theorem forall_side {P : Bool → Prop} (side : Bool) (own : P side) (other : P !side) :
    ∀ b, P b := by
  cases side <;> simp_all

section
variable (accounted : ∀ side, Accounted world side) (side : Bool)
include accounted

theorem accounted_post (parcel : Parcel Args Result) (b : Bool) :
    Accounted (world.post side parcel) b := by
  intro listener listed
  have under := accounted b listener listed
  simp only [UnderWay, World.post, Function.update] at under ⊢
  grind

/-- An end may lose a task whose answer is under way or cannot be posted, and get a listener
whose request is under way. -/
theorem accounted_setEnd (board : Switchboard)
    (listeners : ∀ l ∈ board.listeners, l ∈ (world.ends side).listeners ∨
      UnderWay world side l.messageId)
    (tasks : ∀ task ∈ (world.ends side).tasks, task ∈ board.tasks ∨
      (∃ parcel ∈ world.incoming !side, parcel.message.messageId = some task.messageId) ∨
      (!side, task.messageId) ∈ world.unanswered) :
    ∀ b, Accounted (world.setEnd side board) b := by
  refine forall_side side (fun l listed => ?_) fun l listed => ?_
  · rw [setEnd_own] at listed
    have under := (listeners l listed).elim (accounted side l) .inl
    simpa [UnderWay, World.setEnd] using under
  · have under := accounted (!side) l (by simpa [World.setEnd] using listed)
    simp only [UnderWay, Bool.not_not, setEnd_own] at under ⊢
    rcases under with (request | ⟨task, member, same⟩ | answer) | unanswered
    · exact .inl (.inl request)
    · rw [← same]
      rcases tasks task member with still | answer | unanswered
      · exact .inl (.inr (.inl ⟨task, still, rfl⟩))
      · exact .inl (.inr (.inr answer))
      · exact .inr unanswered
    · exact .inl (.inr (.inr answer))
    · exact .inr unanswered

/-- A message may be taken when no listener waits for it and a request has its task. -/
theorem accounted_taken {parcel : Parcel Args Result} {rest : List (Parcel Args Result)}
    (oldest : world.incoming side = parcel :: rest)
    (own : ∀ l ∈ (world.ends side).listeners, parcel.message.messageId ≠ some l.messageId)
    (request : ∀ method id args, parcel.message = .get method id args →
      ∃ task ∈ (world.ends side).tasks, task.messageId = id) :
    ∀ b, Accounted { world with incoming := Function.update world.incoming side rest } b := by
  refine forall_side side (fun l listed => ?_) fun l listed => ?_
  · have under := accounted side l listed
    have other := own l listed
    simp only [UnderWay, oldest, Function.update_self,
      Function.update_of_ne (Bool.not_ne_self side)] at under ⊢
    grind
  · have under := accounted (!side) l listed
    simp only [UnderWay, oldest, Bool.not_not, Function.update_self,
      Function.update_of_ne (Bool.not_ne_self side)]
      at under ⊢
    grind

theorem accounted_unanswered (entry : Bool × String) (b : Bool) :
    Accounted { world with unanswered := entry :: world.unanswered } b := fun listener listed =>
  (accounted b listener listed).imp_right (mem_cons_of_mem entry)

theorem accounted_answer {index : Nat} {task : Task} (outcome : Outcome Result)
    (running : (world.ends side).tasks[index]? = some task) :
    ∀ b, Accounted (world.answer side index task outcome) b := by
  have left (run : Task) (member : run ∈ (world.ends side).tasks) :
      run ∈ (world.without side index).tasks ∨ run = task := by
    obtain ⟨i, found⟩ := getElem?_of_mem member
    by_cases done : i = index
    · exact .inr (Option.some.inj (running.symm.trans (done ▸ found))).symm
    · exact .inl (mem_eraseIdx_iff_getElem?.mpr ⟨i, done, found⟩)
  unfold World.answer
  cases posted :
    (methodResult (world.ends side).name task outcome : Option (Message Args Result)) with
  | some message =>
    refine accounted_setEnd (accounted_post accounted side ⟨message, task.call⟩) side
      (world.without side index)
      (fun _ => .inl) fun run member => (left run member).imp_right ?_
    rintro rfl
    exact .inl ⟨⟨message, run.call⟩, by simp [World.post], (methodResult_answer posted).2.1⟩
  | none =>
    refine accounted_setEnd (accounted_unanswered accounted (!side, task.messageId)) side
      (world.without side index)
      (fun _ => .inl) fun run member => (left run member).imp_right ?_
    rintro rfl
    exact .inr mem_cons_self

theorem accounted_step {event : Event Args Result} {next : World Args Result}
    (taken : step world event = some next) :
    ∀ b, Accounted next b := by
  cases event with
  | defineMethod side _ | start side =>
    cases taken
    exact accounted_setEnd accounted side _ (fun _ => .inl) fun _ => .inl
  | get side method args =>
    cases taken
    refine accounted_setEnd (accounted_post accounted side _) side (world.register side)
      (fun l listed => ?_) fun _ => .inl
    rcases mem_append.mp listed with old | new
    · exact .inl old
    · cases mem_singleton.mp new
      exact .inr (.inl ⟨⟨.get method _ args, (world.ends side).incrementor⟩, by simp [World.post],
        method, args, rfl⟩)
  | emit side method args =>
    cases taken
    exact accounted_post accounted side _
  | deliver side =>
    simp only [step] at taken
    split at taken
    · next parcel rest _ oldest =>
      cases taken
      refine accounted_taken (accounted_setEnd accounted side (world.reached side parcel)
        (fun l listed => .inl (mem_of_mem_filter listed)) fun _ old =>
          .inl (mem_append_left _ old)) side oldest
        (fun l listed => ?_) fun method id args message => ?_
      · rw [setEnd_own] at listed
        exact of_decide_eq_true (mem_filter.mp listed).2
      · rw [setEnd_own]
        simp [World.reached, newTasks, message]
    · cases taken
  | complete side index outcome =>
    obtain ⟨task, running, rfl⟩ := Option.map_eq_some_iff.mp taken
    exact accounted_answer accounted side outcome running

end

theorem settled_of_quiet {side : Bool} (accounted : Accounted world side)
    (quiet : ∀ b, world.incoming b = [] ∧ (world.ends b).tasks = []) :
    ∀ listener ∈ (world.ends side).listeners, (side, listener.messageId) ∈ world.unanswered := by
  intro listener listed
  refine (accounted listener listed).resolve_left fun under => ?_
  simp [UnderWay, quiet] at under

theorem accounted_of_reaches {name : Bool → String} {methods : Bool → List String}
    (reached : Reaches step anyStep (initial name methods) world) : ∀ side, Accounted world side :=
  reached.invariant (fun world => ∀ side, Accounted world side)
    (fun _ _ none => absurd none not_mem_nil)
    fun _ _ _ accounted _ taken => accounted_step accounted taken

/-- A message arrives or a method ends. -/
def Event.isProgress : Event Args Result → Bool
  | .deliver _ => true
  | .complete .. => true
  | _ => false

def Event.isCloneable : Event Args Result → Bool
  | .complete _ _ .uncloneable => false
  | _ => true

def World.workOf (world : World Args Result) (side : Bool) : Nat :=
  ((world.incoming side).map fun parcel => parcel.message.work).sum + 2 *
    (world.ends side).tasks.length

/-- The steps that are left: three for a request, two for a method and one for another message. -/
def World.work (world : World Args Result) : Nat := world.workOf false + world.workOf true

theorem work_side (world : World Args Result) (side : Bool) :
    world.work = world.workOf side + world.workOf !side := by
  cases side
  · rfl
  · exact Nat.add_comm _ _

theorem work_receive {side : Bool} {parcel : Parcel Args Result} {rest : List (Parcel Args Result)}
    (oldest : world.incoming side = parcel :: rest) :
    (world.receive side parcel rest).work + 1 = world.work := by
  have new : parcel.message.work = 1 + 2 * (newTasks (world.ends side) parcel).length := by
    unfold Message.work newTasks
    cases parcel.message <;> rfl
  simp [work_side _ side, World.workOf, World.receive, World.setEnd, World.reached, oldest, new]
  omega

theorem work_answer {side : Bool} {index : Nat} {task : Task} {outcome : Outcome Result}
    (running : (world.ends side).tasks[index]? = some task) :
    (world.answer side index task outcome).work + 1 ≤ world.work ∧
      ((Event.complete side index outcome : Event Args Result).isCloneable = true →
        (world.answer side index task outcome).work + 1 = world.work) := by
  have within := (List.getElem?_eq_some_iff.mp running).1
  unfold World.answer
  cases posted :
    (methodResult (world.ends side).name task outcome : Option (Message Args Result)) with
  | some message =>
    have one := (methodResult_answer posted).2.2
    simp [work_side _ side, World.workOf, World.post, World.setEnd, World.without, one,
      length_eraseIdx_of_lt within]
    omega
  | none =>
    have lost : (Event.complete side index outcome : Event Args Result).isCloneable = false := by
      unfold methodResult at posted
      split at posted
      · cases outcome with
        | uncloneable => rfl
        | returned | threw => cases posted
      · cases posted
    simp [work_side _ side, World.workOf, World.setEnd, World.without, lost,
      length_eraseIdx_of_lt within]
    omega

theorem started_step {event : Event Args Result} {next : World Args Result}
    (progress : event.isProgress = true)
    (taken : step world event = some next) (b : Bool) :
    (next.ends b).started = (world.ends b).started := by
  have kept (side : Bool) (board : Switchboard) (same : board.started = (world.ends side).started) :
      ∀ b, ((world.setEnd side board).ends b).started = (world.ends b).started :=
    forall_setEnd (fun b board => board.started = (world.ends b).started) same fun _ => rfl
  cases event with
  | deliver side =>
    simp only [step] at taken
    split at taken
    · next parcel rest _ oldest =>
      cases taken
      exact kept side (world.reached side parcel) rfl b
    · cases taken
  | complete side index outcome =>
    obtain ⟨task, running, rfl⟩ := Option.map_eq_some_iff.mp taken
    have same := kept side (world.without side index) rfl b
    unfold World.answer
    cases (methodResult (world.ends side).name task outcome : Option (Message Args Result)) with
    | some message => exact same
    | none => exact same
  | _ => cases progress

theorem work_step {event : Event Args Result} {next : World Args Result}
    (progress : event.isProgress = true)
    (taken : step world event = some next) :
    next.work + 1 ≤ world.work ∧ (event.isCloneable = true → next.work + 1 = world.work) := by
  cases event with
  | deliver side =>
    simp only [step] at taken
    split at taken
    · next parcel rest _ oldest =>
      cases taken
      exact ⟨Nat.le_of_eq (work_receive oldest), fun _ => work_receive oldest⟩
    · cases taken
  | complete side index outcome =>
    obtain ⟨task, running, rfl⟩ := Option.map_eq_some_iff.mp taken
    exact work_answer running
  | _ => cases progress

theorem quiet_of_work (none : world.work = 0) (b : Bool) :
    world.incoming b = [] ∧ (world.ends b).tasks = [] := by
  have own : world.workOf b = 0 :=
    Nat.eq_zero_of_add_eq_zero_right ((work_side world b).symm.trans none)
  rw [World.workOf] at own
  constructor
  · cases waiting : world.incoming b with
    | nil => rfl
    | cons parcel rest =>
      have some : parcel.message.work ≠ 0 := by cases parcel.message <;> simp [Message.work]
      simp [waiting, some] at own
  · exact eq_nil_of_length_eq_zero (by omega)

theorem exists_progress (started : ∀ b, (world.ends b).started = true) (left : world.work ≠ 0) :
    ∃ event : Event Args Result, event.isProgress = true ∧ (step world event).isSome = true := by
  by_contra stuck
  have quiet (b : Bool) : world.workOf b = 0 := by
    have noMessage : world.incoming b = [] := by
      cases waiting : world.incoming b with
      | nil => rfl
      | cons parcel rest => exact (stuck ⟨.deliver b, rfl, by simp [step, started b, waiting]⟩).elim
    have noTask : (world.ends b).tasks = [] := by
      cases running : (world.ends b).tasks with
      | nil => rfl
      | cons task rest => exact (stuck ⟨.complete b 0 .threw, rfl, by simp [step, running]⟩).elim
    rw [World.workOf, noMessage, noTask]
    rfl
  exact left (by rw [World.work, quiet, quiet])

end Waiting
end Liteset.Embedded
