import Mathlib

/-!
# `AsyncKeyValueDAO`

The rows of `key_value` and the operations of `db/daos/key_value.py`.  A row has a
primary key and a unique uuid.  Time is in microseconds, and `Generated` is what
the database and `uuid4` give to a new row.  The session flushes what is pending
before its next statement, so an insert that breaks a unique key raises where it
is made; the transaction is rolled back then.
-/

set_option autoImplicit false

namespace Liteset.KeyValue

abbrev Uuid := BitVec 128

/-- `Key = int | UUID` -/
inductive Key where
  | id (entryId : Nat)
  | uuid (key : Uuid)
  deriving DecidableEq, Repr

structure KeyValueEntry where
  id : Nat
  resource : String
  value : ByteArray
  uuid : Option Uuid
  createdOn : Option Int
  createdByFk : Option Nat
  changedOn : Option Int := none
  changedByFk : Option Nat := none
  expiresOn : Option Int
  deriving DecidableEq

abbrev Store := List KeyValueEntry

structure Generated where
  id : Nat
  uuid : Uuid
  deriving DecidableEq, Repr

inductive Raised where
  /-- `Invalid UUID key: {key!r}` -/
  | valueError (key : String)
  | integrityError
  | unicodeDecodeError
  | jsonDecodeError
  deriving DecidableEq, Repr

/-- `UUID(key)` and `json.loads`, which raise on what they cannot read. -/
structure Codec (Json : Type) where
  uuid : String → Option Uuid
  loads : ByteArray → Option Json

section Operations
variable {Json : Type} (codec : Codec Json) (store : Store) (now : Int) (generated : Generated)

def coerceUuid (key : String) : Option Uuid := codec.uuid key

/-- `session.add(entry)`, flushed. -/
def addEntry (entry : KeyValueEntry) : Except Raised Store :=
  if store.any fun e => e.id = entry.id || (e.uuid.isSome && e.uuid = entry.uuid) then
    .error .integrityError
  else .ok (store ++ [entry])

def getEntryByKey (resource : String) (key : Key) : Option KeyValueEntry :=
  store.find? fun e => e.resource = resource &&
    match key with
    | .uuid key => e.uuid = some key
    | .id key => e.id = key

def getEntry (resource : String) (entryId : Nat) : Option KeyValueEntry :=
  getEntryByKey store resource (.id entryId)

/-- The row that `create_entry` makes: the key is its id or its uuid. -/
def newEntry (resource : String) (value : ByteArray) (key : Option Key)
    (expiresOn : Option Int) (userId : Option Nat) : KeyValueEntry where
  id := match key with
    | some (.id key) => key
    | _ => generated.id
  resource := resource
  value := value
  uuid := match key with
    | some (.uuid key) => some key
    | _ => some generated.uuid
  createdOn := some now
  createdByFk := userId
  expiresOn := expiresOn

def createEntry (resource : String) (value : ByteArray) (key : Option Key)
    (expiresOn : Option Int) (userId : Option Nat) : Except Raised (Store × KeyValueEntry) := do
  let entry := newEntry now generated resource value key expiresOn userId
  let store ← addEntry store entry
  pure (store, entry)

/-- `update(item, attributes)`: the row of the id is changed in place. -/
def updateEntry (entryId : Nat) (change : KeyValueEntry → KeyValueEntry) : Store :=
  store.map fun e => if e.id = entryId then change e else e

def upsertEntry (resource : String) (entryId : Nat) (value : ByteArray)
    (expiresOn : Option Int) (userId : Option Nat) : Except Raised (Store × KeyValueEntry) :=
  match getEntry store resource entryId with
  | some existing =>
    let change := fun e : KeyValueEntry =>
      { e with value, expiresOn, changedOn := some now, changedByFk := userId }
    .ok (updateEntry store existing.id change, change existing)
  | none => createEntry store now generated resource value none expiresOn userId

def deleteRow (entry : KeyValueEntry) : Store := store.filter fun e => e.id ≠ entry.id

def deleteEntry (resource : String) (entryId : Nat) : Store × Bool :=
  match getEntry store resource entryId with
  | some entry => (deleteRow store entry, true)
  | none => (store, false)

/-- `set_value`; the resource id is not used. -/
def setValue (resource : String) (_resourceId : Nat) (key value : String)
    (userId : Option Nat) (expiresOn : Option Int) : Except Raised Store :=
  match coerceUuid codec key with
  | none => .error (.valueError key)
  | some keyUuid =>
    match getEntryByKey store resource (.uuid keyUuid) with
    | some existing =>
      -- an expiry that is not given is left as it is
      .ok (updateEntry store existing.id fun e =>
        { e with
          value := value.toUTF8
          changedOn := some now
          changedByFk := userId
          expiresOn := if expiresOn.isSome then expiresOn else e.expiresOn })
    | none => addEntry store {
        id := generated.id
        resource
        uuid := some keyUuid
        value := value.toUTF8
        createdOn := some now
        createdByFk := userId
        expiresOn }

def deleteValue (resource : String) (_resourceId : Nat) (key : String) : Store × Bool :=
  match coerceUuid codec key with
  | none => (store, false)
  | some keyUuid =>
    match getEntryByKey store resource (.uuid keyUuid) with
    | some entry => (deleteRow store entry, true)
    | none => (store, false)

def deleteExpiredEntries (resource : String) : Store :=
  store.filter fun e => !(e.resource = resource && e.expiresOn.any fun expiry => expiry ≤ now)

def getValueByKey (resource : String) (key : Key) : Except Raised (Option Json) :=
  match getEntryByKey store resource key with
  | none => .ok none
  | some entry =>
    if entry.expiresOn.any fun expiry => expiry ≤ now then .ok none
    else
      match codec.loads entry.value with
      | some json => .ok (some json)
      | none => .error .jsonDecodeError

/-- `value.decode("utf-8")` -/
def decodeUtf8 (value : ByteArray) : Except Raised String :=
  match String.fromUTF8? value with
  | some text => .ok text
  | none => .error .unicodeDecodeError

def getValue (resource : String) (_resourceId : Nat) (key : String) :
    Except Raised (Option String) :=
  match coerceUuid codec key with
  | none => .ok none
  | some keyUuid =>
    let found := store.find? fun e => e.resource = resource && e.uuid = some keyUuid &&
      (e.expiresOn.isNone || e.expiresOn.any fun expiry => expiry > now)
    match found with
    | none => .ok none
    | some entry => (decodeUtf8 entry.value).map some

end Operations

end Liteset.KeyValue
