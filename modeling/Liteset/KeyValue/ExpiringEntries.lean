import Liteset.KeyValue.Entries
import Liteset.Lib.ExpiringMap
import Liteset.Lib.Runs

/-!
# The key-value store as a map with expiry

Beside the rows runs the map that the operations promise: a write binds its key,
and the other key of the same row, to the value with the given expiry, a delete
unbinds them, and clearing out expired rows does nothing.  The gets of the store
are the gets of the map as long as no write without an expiry meets a row that
has one, and no upsert makes a row under another id than the one it is given
(`Orderly`).
-/

set_option autoImplicit false

namespace Liteset.KeyValue

open Lib List
open Lib.ExpiringMap (live Timed not_live_later)
open Lib.Runs (Reaches anyStep)

/-- What was written: a text by `set_value`, bytes by the other operations. -/
inductive Written where
  | text (value : String)
  | bytes (value : ByteArray)
  deriving DecidableEq

def Written.toBytes : Written → ByteArray
  | .text value => value.toUTF8
  | .bytes value => value

/-- What `get_value` should return. -/
def Written.toText : Written → Except Raised String
  | .text value => .ok value
  | .bytes value => decodeUtf8 value

abbrev Name := String × Key

def KeyValueEntry.names (entry : KeyValueEntry) : List Name :=
  (entry.resource, .id entry.id) :: entry.uuid.toList.map fun key => (entry.resource, .uuid key)

inductive Op where
  | createEntry (resource : String) (value : ByteArray) (key : Option Key)
      (expiresOn : Option Int) (userId : Option Nat)
  | upsertEntry (resource : String) (entryId : Nat) (value : ByteArray)
      (expiresOn : Option Int) (userId : Option Nat)
  | setValue (resource : String) (resourceId : Nat) (key value : String)
      (userId : Option Nat) (expiresOn : Option Int)
  | deleteEntry (resource : String) (entryId : Nat)
  | deleteValue (resource : String) (resourceId : Nat) (key : String)
  | deleteExpiredEntries (resource : String)
  deriving DecidableEq

structure Call where
  now : Int
  generated : Generated
  op : Op

structure State where
  store : Store
  map : ExpiringMap Name Written
  now : Int

section Steps
variable {Json : Type} (codec : Codec Json)

def namesOf (store : Store) (resource : String) (key : Key) : List Name :=
  match getEntryByKey store resource key with
  | none => []
  | some entry => entry.names

/-- The two names of a new row that is made under a key. -/
def freshNames (generated : Generated) (resource : String) (key : Key) : List Name :=
  [(resource, key), (resource,
    match key with
    | .id _ => .uuid generated.uuid
    | .uuid _ => .id generated.id)]

/-- The key that is written and the other name of its row: of the one that has the key
before the call, or of a new one. -/
def writtenNames (store : Store) (generated : Generated) (resource : String) (key : Key) :
    List Name :=
  match getEntryByKey store resource key with
  | some entry => (resource, key) :: entry.names
  | none => freshNames generated resource key

def perform (s : State) (now : Int) (generated : Generated) : Op → Store × ExpiringMap Name Written
  | .createEntry resource value key expiresOn userId =>
    match createEntry s.store now generated resource value key expiresOn userId with
    | .error _ => (s.store, s.map)
    | .ok (store, _) =>
      (store, s.map.write (freshNames generated resource (key.getD (.id generated.id)))
        (.bytes value)
        expiresOn)
  | .upsertEntry resource entryId value expiresOn userId =>
    match upsertEntry s.store now generated resource entryId value expiresOn userId with
    | .error _ => (s.store, s.map)
    | .ok (store, _) =>
      (store, s.map.write (writtenNames s.store generated resource (.id entryId))
        (.bytes value) expiresOn)
  | .setValue resource resourceId key value userId expiresOn =>
    match setValue codec s.store now generated resource resourceId key value userId expiresOn,
        coerceUuid codec key with
    | .ok store, some keyUuid =>
      (store, s.map.write (writtenNames s.store generated resource (.uuid keyUuid))
        (.text value) expiresOn)
    | _, _ => (s.store, s.map)
  | .deleteEntry resource entryId =>
    ((deleteEntry s.store resource entryId).1,
      s.map.erase ((resource, .id entryId) :: namesOf s.store resource (.id entryId)))
  | .deleteValue resource resourceId key =>
    match coerceUuid codec key with
    | none => (s.store, s.map)
    | some keyUuid =>
      ((deleteValue codec s.store resource resourceId key).1,
        s.map.erase ((resource, .uuid keyUuid) :: namesOf s.store resource (.uuid keyUuid)))
  | .deleteExpiredEntries resource => (deleteExpiredEntries s.store now resource, s.map)

def step (s : State) (call : Call) : Option State :=
  if call.now < s.now then none
  else
    let (store, map) := perform codec s call.now call.generated call.op
    some { store, map, now := call.now }

def mapOf (store : Store) : ExpiringMap Name Written := fun name =>
  (getEntryByKey store name.1 name.2).map fun entry =>
    { value := .bytes entry.value, expiresOn := entry.expiresOn }

def start (store : Store) (now : Int) : State := { store, map := mapOf store, now }

/-- Ids and uuids belong to one row each. -/
def UniqueKeys (store : Store) : Prop :=
  ∀ a ∈ store, ∀ b ∈ store,
    a.id = b.id ∨ (∃ key, a.uuid = some key ∧ b.uuid = some key) → a = b

/-- Every get, now and later, is the get of the map, and clearing out the expired
rows of a resource changes none. -/
structure IsMap (s : State) : Prop where
  getValue : ∀ now, s.now ≤ now → ∀ resource resourceId key,
    getValue codec s.store now resource resourceId key =
      match coerceUuid codec key with
      | none => .ok none
      | some keyUuid =>
        match s.map.get now (resource, .uuid keyUuid) with
        | none => .ok none
        | some written => written.toText.map some
  getValueByKey : ∀ now, s.now ≤ now → ∀ resource key,
    getValueByKey codec s.store now resource key =
      match s.map.get now (resource, key) with
      | none => .ok none
      | some written =>
        match codec.loads written.toBytes with
        | some json => .ok (some json)
        | none => .error .jsonDecodeError
  cleared : ∀ clearedAt now, s.now ≤ clearedAt → clearedAt ≤ now → ∀ expired resource,
    let store := deleteExpiredEntries s.store clearedAt expired
    (∀ resourceId key, KeyValue.getValue codec store now resource resourceId key =
      KeyValue.getValue codec s.store now resource resourceId key) ∧
    ∀ key, KeyValue.getValueByKey codec store now resource key =
      KeyValue.getValueByKey codec s.store now resource key

/-- A write without an expiry meets no row that has one, and an upsert finds its row
or is given the id that the database generates. -/
def Orderly (s : State) (call : Call) : Prop :=
  match call.op with
  | .setValue resource _ key _ _ none =>
    ∀ keyUuid ∈ coerceUuid codec key, ∀ entry ∈ getEntryByKey s.store resource (.uuid keyUuid),
      entry.expiresOn = none
  | .upsertEntry resource entryId _ _ _ =>
    (getEntry s.store resource entryId).isSome ∨ call.generated.id = entryId
  | _ => True

end Steps

section Names
variable {store store' : Store} {entry row : KeyValueEntry}

theorem mem_names {resource : String} {key : Key} :
    (resource, key) ∈ entry.names ↔ entry.resource = resource ∧
      match key with
      | .uuid key => entry.uuid = some key
      | .id key => entry.id = key := by
  unfold KeyValueEntry.names
  cases key with
  | id key =>
    simp only [mem_cons, Prod.mk.injEq, Key.id.injEq, mem_map]
    constructor
    · intro either
      cases either with
      | inl same => exact ⟨same.1.symm, same.2.symm⟩
      | inr impossible =>
        obtain ⟨_, _, same⟩ := impossible
        exact absurd same.2 (by simp)
    · intro both
      exact .inl ⟨both.1.symm, both.2.symm⟩
  | uuid key =>
    simp only [mem_cons, Prod.mk.injEq, reduceCtorEq, and_false, false_or, mem_map,
      Option.mem_toList, Key.uuid.injEq]
    constructor
    · intro found
      obtain ⟨other, isUuid, sameResource, same⟩ := found
      subst same
      exact ⟨sameResource, isUuid⟩
    · intro both
      exact ⟨key, both.2, both.1, rfl⟩

theorem eq_of_mem_names (unique : UniqueKeys store) (inStore : entry ∈ store) (other : row ∈ store)
    {name : Name} (left : name ∈ entry.names) (right : name ∈ row.names) : entry = row := by
  obtain ⟨resource, key⟩ := name
  have leftKey := (mem_names.mp left).2
  have rightKey := (mem_names.mp right).2
  refine unique entry inStore row other ?_
  cases key with
  | id key => exact .inl (leftKey.trans rightKey.symm)
  | uuid key => exact .inr ⟨key, leftKey, rightKey⟩

theorem getEntryByKey_eq_find (resource : String) (key : Key) :
    getEntryByKey store resource key = store.find? fun e => (resource, key) ∈ e.names := by
  unfold getEntryByKey
  congr 1
  funext e
  rw [Bool.eq_iff_iff]
  cases key with
  | id key => simp [mem_names]
  | uuid key => simp [mem_names]

theorem getEntryByKey_eq_some (unique : UniqueKeys store) {resource : String} {key : Key} :
    getEntryByKey store resource key = some entry ↔
    entry ∈ store ∧ (resource, key) ∈ entry.names := by
  rw [getEntryByKey_eq_find]
  constructor
  · intro found
    have named := find?_some found
    exact ⟨mem_of_find?_eq_some found, by simpa using named⟩
  · intro both
    obtain ⟨inStore, named⟩ := both
    cases found : store.find? fun e => (resource, key) ∈ e.names with
    | none =>
      have missing := find?_eq_none.mp found entry inStore
      simp [named] at missing
    | some other =>
      have otherNamed := find?_some found
      simp only [decide_eq_true_eq] at otherNamed
      rw [eq_of_mem_names unique (mem_of_find?_eq_some found) inStore otherNamed named]

theorem getEntryByKey_eq_none {resource : String} {key : Key} :
    getEntryByKey store resource key = none ↔ ∀ e ∈ store, (resource, key) ∉ e.names := by
  rw [getEntryByKey_eq_find, find?_eq_none]
  simp

end Names

structure Agrees (s : State) : Prop where
  unique : UniqueKeys s.store
  entry : ∀ e ∈ s.store, ∀ name ∈ e.names, ∀ now, s.now ≤ now →
    (s.map.get now name).map Written.toBytes = if live now e.expiresOn then some e.value else none
  absent : ∀ name, (∀ e ∈ s.store, name ∉ e.names) → ∀ now, s.now ≤ now → s.map.get now name = none

section Agrees
variable {s : State} {store' : Store} {later : Int}

section
variable (agrees : Agrees s) (after : s.now ≤ later)
include agrees after

/-- One row was written: it is the only one with its names, and every row that is gone
had just these names. -/
theorem Agrees.write {row : KeyValueEntry}
    {written : Written} (inStore : row ∈ store') (value : row.value = written.toBytes)
    (unique : UniqueKeys store')
    (others : ∀ e ∈ store', e = row ∨ e ∈ s.store)
    (gone : ∀ e ∈ s.store, e ∈ store' ∨ ∀ name ∈ e.names, name ∈ row.names) {keys : List Name}
    (sameKeys : ∀ name, name ∈ keys ↔ name ∈ row.names) :
    Agrees { store := store', map := s.map.write keys written row.expiresOn, now := later } where
  unique := unique
  entry := by
    intro e member name named now afterLater
    by_cases own : e = row
    · subst own
      rw [ExpiringMap.get_write_of_mem _ _ ((sameKeys name).mpr named), value]
      split <;> rfl
    · have old := (others e member).resolve_left own
      have other : name ∉ keys := by
        intro inKeys
        exact own (eq_of_mem_names unique member inStore named ((sameKeys name).mp inKeys))
      rw [ExpiringMap.get_write_of_notMem _ _ other]
      exact agrees.entry e old name named now (by simp only at afterLater; omega)
  absent := by
    intro name noRow now afterLater
    have other : name ∉ keys := fun inKeys => noRow row inStore ((sameKeys name).mp inKeys)
    rw [ExpiringMap.get_write_of_notMem _ _ other]
    refine agrees.absent name ?_ now (by simp only at afterLater; omega)
    intro e old named
    cases gone e old with
    | inl kept => exact noRow e kept named
    | inr inRow => exact noRow row inStore (inRow name named)

theorem Agrees.erase {keys : List Name}
    (kept : ∀ e ∈ store', e ∈ s.store ∧ ∀ name ∈ e.names, name ∉ keys)
    (gone : ∀ e ∈ s.store, e ∈ store' ∨ ∀ name ∈ e.names, name ∈ keys) :
    Agrees { store := store', map := s.map.erase keys, now := later } where
  unique a inA b inB := agrees.unique a (kept a inA).1 b (kept b inB).1
  entry := by
    intro e member name named now afterLater
    rw [ExpiringMap.get_erase_of_notMem _ _ ((kept e member).2 name named)]
    exact agrees.entry e (kept e member).1 name named now (by simp only at afterLater; omega)
  absent := by
    intro name noRow now afterLater
    by_cases inKeys : name ∈ keys
    · exact ExpiringMap.get_erase_of_mem _ _ inKeys
    · rw [ExpiringMap.get_erase_of_notMem _ _ inKeys]
      refine agrees.absent name ?_ now (by simp only at afterLater; omega)
      intro e old named
      cases gone e old with
      | inl stays => exact noRow e stays named
      | inr inErased => exact inKeys (inErased name named)

theorem Agrees.clear (kept : ∀ e ∈ store', e ∈ s.store)
    (gone : ∀ e ∈ s.store, e ∈ store' ∨ live later e.expiresOn = false) :
    Agrees { store := store', map := s.map, now := later } where
  unique a inA b inB := agrees.unique a (kept a inA) b (kept b inB)
  entry e member name named now afterLater :=
    agrees.entry e (kept e member) name named now (by simp only at afterLater; omega)
  absent := by
    intro name noRow now afterLater
    simp only at afterLater
    by_cases had : ∃ e ∈ s.store, name ∈ e.names
    · obtain ⟨e, old, named⟩ := had
      have expired : live later e.expiresOn = false := by
        refine (gone e old).resolve_left ?_
        intro stays
        exact noRow e stays named
      have seen := agrees.entry e old name named now (by omega)
      rw [not_live_later afterLater expired] at seen
      simpa using seen
    · push Not at had
      exact agrees.absent name had now (by omega)

theorem Agrees.wait : Agrees { store := s.store, map := s.map, now := later } :=
  agrees.clear after (fun _ member => member) fun _ member => .inl member

end

end Agrees

section Operations
variable {s : State} {now : Int} {generated : Generated}

theorem addEntry_ok {store store' : Store} {entry : KeyValueEntry}
    (added : addEntry store entry = .ok store') : store' = store ++ [entry] ∧
      ∀ e ∈ store, e.id ≠ entry.id ∧ ∀ key, e.uuid = some key → entry.uuid ≠ some key := by
  unfold addEntry at added
  split at added
  · cases added
  · rename_i free
    cases added
    refine ⟨rfl, ?_⟩
    intro e member
    refine ⟨?_, ?_⟩
    · intro same
      exact free (any_eq_true.mpr ⟨e, member, by simp [same]⟩)
    · intro key isUuid same
      exact free (any_eq_true.mpr ⟨e, member, by simp [isUuid, same]⟩)

theorem UniqueKeys.add {store store' : Store} {entry : KeyValueEntry} (unique : UniqueKeys store)
    (added : addEntry store entry = .ok store') : UniqueKeys store' := by
  obtain ⟨rfl, free⟩ := addEntry_ok added
  intro a inA b inB same
  cases mem_append.mp inA with
  | inl oldA =>
    cases mem_append.mp inB with
    | inl oldB => exact unique a oldA b oldB same
    | inr newB =>
      cases mem_singleton.mp newB
      cases same with
      | inl sameId => exact absurd sameId (free a oldA).1
      | inr sameUuid =>
        obtain ⟨key, isA, isB⟩ := sameUuid
        exact absurd isB ((free a oldA).2 key isA)
  | inr newA =>
    cases mem_singleton.mp newA
    cases mem_append.mp inB with
    | inl oldB =>
      cases same with
      | inl sameId => exact absurd sameId.symm (free b oldB).1
      | inr sameUuid =>
        obtain ⟨key, isA, isB⟩ := sameUuid
        exact absurd isA ((free b oldB).2 key isB)
    | inr newB => exact (mem_singleton.mp newB).symm

section
variable (agrees : Agrees s) (after : s.now ≤ now)
include agrees after

theorem Agrees.insert {entry : KeyValueEntry}
    {store' : Store} (added : addEntry s.store entry = .ok store') {written : Written}
    (value : entry.value = written.toBytes) {keys : List Name}
    (sameKeys : ∀ name, name ∈ keys ↔ name ∈ entry.names) :
    Agrees { store := store', map := s.map.write keys written entry.expiresOn, now } := by
  have unique := agrees.unique.add added
  obtain ⟨rfl, _⟩ := addEntry_ok added
  refine agrees.write after (mem_append_right _ (mem_singleton.mpr rfl)) value unique
    ?_ ?_ sameKeys
  · intro e member
    cases mem_append.mp member with
    | inl old => exact .inr old
    | inr new => exact .inl (mem_singleton.mp new)
  · intro e old
    exact .inl (mem_append_left _ old)

theorem Agrees.change {row : KeyValueEntry}
    (member : row ∈ s.store) {change : KeyValueEntry → KeyValueEntry}
    (sameNames : ∀ e, (change e).id = e.id ∧ (change e).resource = e.resource ∧
      (change e).uuid = e.uuid) {written : Written}
    (value : (change row).value = written.toBytes) {keys : List Name}
    (sameKeys : ∀ name, name ∈ keys ↔ name ∈ row.names) {expiresOn : Option Int}
    (expiry : (change row).expiresOn = expiresOn) :
    Agrees {
      store := updateEntry s.store row.id change
      map := s.map.write keys written expiresOn
      now } := by
  subst expiry
  have names : ∀ e, (change e).names = e.names := by
    intro e
    obtain ⟨sameId, sameResource, sameUuid⟩ := sameNames e
    unfold KeyValueEntry.names
    rw [sameId, sameResource, sameUuid]
  have onlyRow : ∀ e ∈ s.store, e.id = row.id → e = row :=
    fun e old same => agrees.unique e old row member (.inl same)
  -- the rows after the change
  have rows : ∀ e, e ∈ updateEntry s.store row.id change ↔
      e = change row ∨ (e ∈ s.store ∧ e.id ≠ row.id) := by
    intro e
    unfold updateEntry
    rw [mem_map]
    constructor
    · intro found
      obtain ⟨old, inStore, made⟩ := found
      by_cases hit : old.id = row.id
      · rw [if_pos hit, onlyRow old inStore hit] at made
        exact .inl made.symm
      · rw [if_neg hit] at made
        subst made
        exact .inr ⟨inStore, hit⟩
    · intro either
      cases either with
      | inl changed => exact ⟨row, member, by rw [if_pos rfl, changed]⟩
      | inr old => exact ⟨e, old.1, if_neg old.2⟩
  refine agrees.write after ((rows _).mpr (.inl rfl)) value ?_ ?_ ?_ ?_
  · -- every new row stands for an old one with its keys
    have origin : ∀ e ∈ updateEntry s.store row.id change, ∃ old ∈ s.store,
        old.id = e.id ∧ old.uuid = e.uuid ∧ (old = row → e = change row) ∧
        (old ≠ row → e = old) := by
      intro e inNew
      cases (rows e).mp inNew with
      | inl changed =>
        subst changed
        exact ⟨row, member, (sameNames row).1.symm, (sameNames row).2.2.symm, fun _ => rfl,
          fun other => absurd rfl other⟩
      | inr old =>
        refine ⟨e, old.1, rfl, rfl, ?_, fun _ => rfl⟩
        intro same
        exact absurd (congrArg KeyValueEntry.id same) old.2
    intro a inA b inB same
    obtain ⟨oldA, memberA, idA, uuidA, rowA, otherA⟩ := origin a inA
    obtain ⟨oldB, memberB, idB, uuidB, rowB, otherB⟩ := origin b inB
    rw [← idA, ← idB, ← uuidA, ← uuidB] at same
    have sameOld := agrees.unique oldA memberA oldB memberB same
    subst sameOld
    by_cases isRow : oldA = row
    · rw [rowA isRow, rowB isRow]
    · rw [otherA isRow, otherB isRow]
  · intro e inNew
    exact ((rows e).mp inNew).imp id And.left
  · intro e old
    by_cases hit : e.id = row.id
    · rw [onlyRow e old hit, names]
      exact .inr fun _ named => named
    · exact .inl ((rows e).mpr (.inr ⟨old, hit⟩))
  · intro name
    rw [names]
    exact sameKeys name

theorem Agrees.delete {row : KeyValueEntry}
    (member : row ∈ s.store) {name : Name} (named : name ∈ row.names) :
    Agrees {
      store := deleteRow s.store row
      map := s.map.erase (name :: row.names)
      now } := by
  refine agrees.erase after ?_ ?_
  · intro e kept
    obtain ⟨old, other⟩ := mem_filter.mp kept
    refine ⟨old, ?_⟩
    intro otherName namedE inKeys
    have inRow : otherName ∈ row.names := by
      cases mem_cons.mp inKeys with
      | inl same => exact same ▸ named
      | inr inNames => exact inNames
    have same := eq_of_mem_names agrees.unique old member namedE inRow
    simp [same] at other
  · intro e old
    by_cases same : e.id = row.id
    · rw [agrees.unique e old row member (.inl same)]
      exact .inr fun otherName inNames => mem_cons_of_mem name inNames
    · exact .inl (mem_filter.mpr ⟨old, by simpa using same⟩)

theorem Agrees.deleteAbsent {name : Name}
    (noRow : ∀ e ∈ s.store, name ∉ e.names) :
    Agrees { store := s.store, map := s.map.erase [name], now } := by
  refine agrees.erase after ?_ fun e old => .inl old
  intro e old
  refine ⟨old, ?_⟩
  intro otherName named inKeys
  rw [mem_singleton.mp inKeys] at named
  exact noRow e old named

end

end Operations

section Calls
variable {Json : Type} {codec : Codec Json} {s : State} {now : Int} {generated : Generated}
  {resource : String}

theorem namesOf_of_found {store : Store} {key : Key} {entry : KeyValueEntry}
    (found : getEntryByKey store resource key = some entry) :
    namesOf store resource key = entry.names := by
  unfold namesOf
  rw [found]

theorem namesOf_of_absent {store : Store} {key : Key}
    (absent : getEntryByKey store resource key = none) : namesOf store resource key = [] := by
  unfold namesOf
  rw [absent]

theorem writtenNames_of_found {store : Store} {key : Key} {entry : KeyValueEntry}
    (found : getEntryByKey store resource key = some entry) (named : (resource, key) ∈ entry.names)
    (name : Name) : name ∈ writtenNames store generated resource key ↔ name ∈ entry.names := by
  unfold writtenNames
  rw [found, mem_cons]
  exact or_iff_right_of_imp fun same => same ▸ named

theorem writtenNames_of_absent {store : Store} {key : Key}
    (absent : getEntryByKey store resource key = none) :
    writtenNames store generated resource key = freshNames generated resource key := by
  unfold writtenNames
  rw [absent]

theorem freshNames_newEntry (value : ByteArray) (key : Option Key) (expiresOn : Option Int)
    (userId : Option Nat) (name : Name) :
    name ∈ freshNames generated resource (key.getD (.id generated.id)) ↔
      name ∈ (newEntry now generated resource value key expiresOn userId).names := by
  cases key with
  | none => exact Iff.rfl
  | some key =>
    cases key with
    | id key => exact Iff.rfl
    | uuid key =>
      simp only [freshNames, KeyValueEntry.names, newEntry, Option.getD_some, Option.toList_some,
        map_cons, map_nil, mem_cons]
      exact or_left_comm

theorem createEntry_ok {store store' : Store} {value : ByteArray}
    {key : Option Key} {expiresOn : Option Int} {userId : Option Nat} {entry : KeyValueEntry}
    (created : createEntry store now generated resource value key expiresOn userId =
      .ok (store', entry)) :
    entry = newEntry now generated resource value key expiresOn userId ∧
      addEntry store entry = .ok store' := by
  unfold createEntry at created
  cases added : addEntry store (newEntry now generated resource value key expiresOn userId) with
  | error e =>
    simp only [added] at created
    cases created
  | ok result =>
    simp only [added] at created
    cases created
    exact ⟨rfl, added⟩

theorem agrees_createEntry (codec : Codec Json) (agrees : Agrees s) (after : s.now ≤ now)
    (resource : String)
    (value : ByteArray) (key : Option Key) (expiresOn : Option Int) (userId : Option Nat) :
    let result := perform codec s now generated (.createEntry resource value key expiresOn userId)
    Agrees { store := result.1, map := result.2, now } := by
  simp only [perform]
  cases created : createEntry s.store now generated resource value key expiresOn userId with
  | error e => exact agrees.wait after
  | ok result =>
    obtain ⟨store', entry⟩ := result
    obtain ⟨rfl, added⟩ := createEntry_ok created
    have stored : (newEntry now generated resource value key expiresOn userId).value =
        (Written.bytes value).toBytes := rfl
    exact agrees.insert after added stored (freshNames_newEntry value key expiresOn userId)

theorem agrees_upsertEntry (codec : Codec Json) (agrees : Agrees s) (after : s.now ≤ now)
    (resource : String)
    (entryId : Nat) (value : ByteArray) (expiresOn : Option Int) (userId : Option Nat)
    (orderly : (getEntry s.store resource entryId).isSome ∨ generated.id = entryId) :
    let result := perform codec s now generated
      (.upsertEntry resource entryId value expiresOn userId)
    Agrees { store := result.1, map := result.2, now } := by
  simp only [perform]
  cases found : getEntry s.store resource entryId with
  | some existing =>
    obtain ⟨member, named⟩ := (getEntryByKey_eq_some agrees.unique).mp found
    simp only [upsertEntry, found]
    refine agrees.change after member ?_ rfl (writtenNames_of_found found named) rfl
    intro e
    exact ⟨rfl, rfl, rfl⟩
  | none =>
    rw [found] at orderly
    have sameGenerated := orderly.resolve_left (by simp)
    simp only [upsertEntry, found]
    cases created : createEntry s.store now generated resource value none expiresOn userId with
    | error e => exact agrees.wait after
    | ok result =>
      obtain ⟨store', entry⟩ := result
      obtain ⟨rfl, added⟩ := createEntry_ok created
      have stored : (newEntry now generated resource value none expiresOn userId).value =
          (Written.bytes value).toBytes := rfl
      rw [writtenNames_of_absent found, ← sameGenerated]
      exact agrees.insert after added stored (freshNames_newEntry value none expiresOn userId)

section SetValue
variable {store : Store} {resource : String} {resourceId : Nat} {key value : String}
  {userId : Option Nat} {expiresOn : Option Int} {keyUuid : Uuid}

/-- What `set_value` does to the row it finds. -/
def writeText (now : Int) (value : String) (userId : Option Nat) (expiresOn : Option Int)
    (e : KeyValueEntry) : KeyValueEntry :=
  { e with
    value := value.toUTF8
    changedOn := some now
    changedByFk := userId
    expiresOn := if expiresOn.isSome then expiresOn else e.expiresOn }

theorem setValue_invalid (coerced : coerceUuid codec key = none) :
    setValue codec store now generated resource resourceId key value userId expiresOn =
      .error (.valueError key) := by
  simp only [setValue, coerced]

theorem setValue_found (coerced : coerceUuid codec key = some keyUuid) {existing : KeyValueEntry}
    (found : getEntryByKey store resource (.uuid keyUuid) = some existing) :
    setValue codec store now generated resource resourceId key value userId expiresOn =
      .ok (updateEntry store existing.id (writeText now value userId expiresOn)) := by
  simp only [setValue, coerced, found]
  rfl

theorem setValue_absent (coerced : coerceUuid codec key = some keyUuid)
    (absent : getEntryByKey store resource (.uuid keyUuid) = none) :
    setValue codec store now generated resource resourceId key value userId expiresOn =
      addEntry store {
        id := generated.id
        resource
        uuid := some keyUuid
        value := value.toUTF8
        createdOn := some now
        createdByFk := userId
        expiresOn } := by
  simp only [setValue, coerced, absent]

end SetValue

theorem agrees_setValue (agrees : Agrees s) (after : s.now ≤ now) (resource : String)
    (resourceId : Nat) (key value : String) (userId : Option Nat) (expiresOn : Option Int)
    (orderly : expiresOn = none → ∀ keyUuid ∈ coerceUuid codec key,
      ∀ entry ∈ getEntryByKey s.store resource (.uuid keyUuid), entry.expiresOn = none) :
    let result := perform codec s now generated
      (.setValue resource resourceId key value userId expiresOn)
    Agrees { store := result.1, map := result.2, now } := by
  simp only [perform]
  cases coerced : coerceUuid codec key with
  | none =>
    rw [setValue_invalid coerced]
    exact agrees.wait after
  | some keyUuid =>
    cases found : getEntryByKey s.store resource (.uuid keyUuid) with
    | some existing =>
      obtain ⟨member, named⟩ := (getEntryByKey_eq_some agrees.unique).mp found
      have keepsExpiry : (writeText now value userId expiresOn existing).expiresOn =
          expiresOn := by
        cases expiresOn with
        | some expiry => rfl
        | none => exact orderly rfl keyUuid coerced existing found
      have sameNames : ∀ e, (writeText now value userId expiresOn e).id = e.id ∧
          (writeText now value userId expiresOn e).resource = e.resource ∧
          (writeText now value userId expiresOn e).uuid = e.uuid := fun e => ⟨rfl, rfl, rfl⟩
      have stored : (writeText now value userId expiresOn existing).value =
          (Written.text value).toBytes := rfl
      rw [setValue_found coerced found]
      exact agrees.change after member sameNames stored (writtenNames_of_found found named)
        keepsExpiry
    | none =>
      rw [setValue_absent coerced found]
      cases added : addEntry s.store _ with
      | error e => exact agrees.wait after
      | ok store' =>
        simp only [writtenNames_of_absent found]
        refine agrees.insert after added rfl fun name => ?_
        simp only [freshNames, KeyValueEntry.names, Option.toList_some, map_cons, map_nil, mem_cons]
        exact or_left_comm

theorem agrees_deleteEntry (codec : Codec Json) (generated : Generated) (agrees : Agrees s)
    (after : s.now ≤ now) (resource : String)
    (entryId : Nat) :
    let result := perform codec s now generated (.deleteEntry resource entryId)
    Agrees { store := result.1, map := result.2, now } := by
  simp only [perform, deleteEntry, getEntry]
  cases found : getEntryByKey s.store resource (.id entryId) with
  | some entry =>
    obtain ⟨member, named⟩ := (getEntryByKey_eq_some agrees.unique).mp found
    rw [namesOf_of_found found]
    exact agrees.delete after member named
  | none =>
    rw [namesOf_of_absent found]
    exact agrees.deleteAbsent after (getEntryByKey_eq_none.mp found)

theorem agrees_deleteValue (generated : Generated) (agrees : Agrees s) (after : s.now ≤ now)
    (resource : String)
    (resourceId : Nat) (key : String) :
    let result := perform codec s now generated (.deleteValue resource resourceId key)
    Agrees { store := result.1, map := result.2, now } := by
  simp only [perform, deleteValue]
  cases coerceUuid codec key with
  | none => exact agrees.wait after
  | some keyUuid =>
    simp only
    cases found : getEntryByKey s.store resource (.uuid keyUuid) with
    | some entry =>
      obtain ⟨member, named⟩ := (getEntryByKey_eq_some agrees.unique).mp found
      rw [namesOf_of_found found]
      exact agrees.delete after member named
    | none =>
      rw [namesOf_of_absent found]
      exact agrees.deleteAbsent after (getEntryByKey_eq_none.mp found)

theorem mem_deleteExpiredEntries {store : Store} {entry : KeyValueEntry} :
    (entry ∈ deleteExpiredEntries store now resource → entry ∈ store) ∧
      (entry ∈ store → entry ∈ deleteExpiredEntries store now resource ∨
        live now entry.expiresOn = false) := by
  unfold deleteExpiredEntries
  rw [mem_filter]
  refine ⟨And.left, fun member => ?_⟩
  by_cases cleared : (entry.resource = resource &&
      entry.expiresOn.any fun expiry => expiry ≤ now) = true
  · refine .inr ?_
    cases expiry : entry.expiresOn with
    | none => simp [expiry] at cleared
    | some expiresOn =>
      simp only [expiry, Option.any_some, Bool.and_eq_true, decide_eq_true_eq] at cleared
      simp only [live, decide_eq_false_iff_not, Int.not_lt]
      exact cleared.2
  · rw [Bool.not_eq_true] at cleared
    exact .inl ⟨member, by simp only [cleared, Bool.not_false]⟩

theorem agrees_deleteExpiredEntries (agrees : Agrees s) (after : s.now ≤ now) (resource : String) :
    Agrees { store := deleteExpiredEntries s.store now resource, map := s.map, now } :=
  agrees.clear after (fun _ member => mem_deleteExpiredEntries.1 member)
    fun _ member => mem_deleteExpiredEntries.2 member

theorem agrees_step {call : Call} {u : State} (agrees : Agrees s) (orderly : Orderly codec s call)
    (taken : step codec s call = some u) : Agrees u := by
  unfold step at taken
  split at taken
  · cases taken
  · rename_i forward
    have after : s.now ≤ call.now := by omega
    cases taken
    obtain ⟨now, generated, op⟩ := call
    cases op with
    | createEntry resource value key expiresOn userId =>
      exact agrees_createEntry codec agrees after resource value key expiresOn userId
    | upsertEntry resource entryId value expiresOn userId =>
      exact agrees_upsertEntry codec agrees after resource entryId value expiresOn userId orderly
    | setValue resource resourceId key value userId expiresOn =>
      refine agrees_setValue agrees after resource resourceId key value userId expiresOn ?_
      intro noExpiry
      subst noExpiry
      exact orderly
    | deleteEntry resource entryId =>
      exact agrees_deleteEntry codec generated agrees after resource entryId
    | deleteValue resource resourceId key =>
      exact agrees_deleteValue generated agrees after resource resourceId key
    | deleteExpiredEntries resource => exact agrees_deleteExpiredEntries agrees after resource

end Calls

section Gets
variable {Json : Type} {codec : Codec Json} {s : State}

theorem live_eq (now : Int) (expiresOn : Option Int) :
    live now expiresOn = (expiresOn.isNone || expiresOn.any fun expiry => expiry > now) := by
  cases expiresOn with
  | none => rfl
  | some expiry => simp [live]

theorem not_live_eq (now : Int) (expiresOn : Option Int) :
    (expiresOn.any fun expiry => expiry ≤ now) = !live now expiresOn := by
  cases expiresOn with
  | none => rfl
  | some expiry =>
    rw [Bool.eq_iff_iff]
    simp [live]

theorem Agrees.get_of_found (agrees : Agrees s) {now : Int} (after : s.now ≤ now)
    {resource : String} {key : Key} {entry : KeyValueEntry}
    (found : getEntryByKey s.store resource key = some entry) :
    (s.map.get now (resource, key)).map Written.toBytes =
      if live now entry.expiresOn then some entry.value else none := by
  obtain ⟨member, named⟩ := (getEntryByKey_eq_some agrees.unique).mp found
  exact agrees.entry entry member _ named now after

theorem Agrees.get_of_absent (agrees : Agrees s) {now : Int} (after : s.now ≤ now)
    {resource : String} {key : Key} (absent : getEntryByKey s.store resource key = none) :
    s.map.get now (resource, key) = none :=
  agrees.absent _ (getEntryByKey_eq_none.mp absent) now after

theorem decodeUtf8_toUTF8 (text : String) : decodeUtf8 text.toUTF8 = .ok text := by
  have decoded : String.fromUTF8? text.toUTF8 = some text := by
    rw [String.toUTF8_eq_toByteArray]
    exact dif_pos text.isValidUTF8
  unfold decodeUtf8
  rw [decoded]

theorem Written.toText_eq (written : Written) : written.toText = decodeUtf8 written.toBytes := by
  cases written with
  | text value => exact (decodeUtf8_toUTF8 value).symm
  | bytes value => rfl

theorem Agrees.getValueByKey (agrees : Agrees s) {now : Int} (after : s.now ≤ now)
    (resource : String) (key : Key) :
    getValueByKey codec s.store now resource key =
      match s.map.get now (resource, key) with
      | none => .ok none
      | some written =>
        match codec.loads written.toBytes with
        | some json => .ok (some json)
        | none => .error .jsonDecodeError := by
  unfold KeyValue.getValueByKey
  cases found : getEntryByKey s.store resource key with
  | none => rw [agrees.get_of_absent after found]
  | some entry =>
    have shown := agrees.get_of_found after found
    simp only [not_live_eq]
    cases seen : live now entry.expiresOn with
    | false =>
      rw [seen] at shown
      have nothing : s.map.get now (resource, key) = none := by simpa using shown
      rw [nothing]
      rfl
    | true =>
      rw [seen, if_pos rfl] at shown
      obtain ⟨written, isWritten, sameBytes⟩ := Option.map_eq_some_iff.mp shown
      rw [isWritten, ← sameBytes]
      rfl

/-- The row that `get_value` selects. -/
theorem find_live (agrees : Agrees s) (now : Int) (resource : String) (keyUuid : Uuid) :
    (s.store.find? fun e => e.resource = resource && e.uuid = some keyUuid &&
        (e.expiresOn.isNone || e.expiresOn.any fun expiry => expiry > now)) =
      (getEntryByKey s.store resource (.uuid keyUuid)).filter fun e => live now e.expiresOn := by
  have sameTest : (fun e : KeyValueEntry => (e.resource = resource && e.uuid = some keyUuid &&
        (e.expiresOn.isNone || e.expiresOn.any fun expiry => expiry > now)) = true) =
      fun e => (resource, Key.uuid keyUuid) ∈ e.names ∧ live now e.expiresOn = true := by
    funext e
    rw [live_eq, mem_names, Bool.and_eq_true, Bool.and_eq_true]
    simp
  ext row
  constructor
  · intro found
    have inStore := mem_of_find?_eq_some found
    have test := find?_some found
    have both := (congrFun sameTest row).mp test
    refine Option.mem_filter_iff.mpr ⟨?_, both.2⟩
    exact (getEntryByKey_eq_some agrees.unique).mpr ⟨inStore, both.1⟩
  · intro selected
    obtain ⟨found, seen⟩ := Option.mem_filter_iff.mp selected
    obtain ⟨inStore, named⟩ := (getEntryByKey_eq_some agrees.unique).mp found
    cases result : s.store.find? fun e => e.resource = resource && e.uuid = some keyUuid &&
        (e.expiresOn.isNone || e.expiresOn.any fun expiry => expiry > now) with
    | none =>
      have missing := find?_eq_none.mp result row inStore
      exact absurd ((congrFun sameTest row).mpr ⟨named, seen⟩) missing
    | some other =>
      have otherTest := find?_some result
      have otherNamed := ((congrFun sameTest other).mp otherTest).1
      rw [eq_of_mem_names agrees.unique (mem_of_find?_eq_some result) inStore otherNamed named]

theorem Agrees.getValue (agrees : Agrees s) {now : Int} (after : s.now ≤ now) (resource : String)
    (resourceId : Nat) (key : String) :
    getValue codec s.store now resource resourceId key =
      match coerceUuid codec key with
      | none => .ok none
      | some keyUuid =>
        match s.map.get now (resource, .uuid keyUuid) with
        | none => .ok none
        | some written => written.toText.map some := by
  unfold KeyValue.getValue
  cases coerceUuid codec key with
  | none => rfl
  | some keyUuid =>
    simp only [find_live agrees]
    cases found : getEntryByKey s.store resource (.uuid keyUuid) with
    | none => rw [agrees.get_of_absent after found, Option.filter_none]
    | some entry =>
      have shown := agrees.get_of_found after found
      cases seen : live now entry.expiresOn with
      | false =>
        rw [seen] at shown
        have nothing : s.map.get now (resource, .uuid keyUuid) = none := by simpa using shown
        simp only [nothing, Option.filter_some, seen]
        rfl
      | true =>
        rw [seen, if_pos rfl] at shown
        obtain ⟨written, isWritten, sameBytes⟩ := Option.map_eq_some_iff.mp shown
        simp only [isWritten, Option.filter_some, seen, if_true, Written.toText_eq, sameBytes]

theorem Agrees.isMap (agrees : Agrees s) : IsMap codec s where
  getValue _ after resource resourceId key := agrees.getValue after resource resourceId key
  getValueByKey _ after resource key := agrees.getValueByKey after resource key
  cleared := by
    intro clearedAt now after later expired resource
    have cleared := agrees_deleteExpiredEntries agrees after expired
    refine ⟨?_, ?_⟩
    · intro resourceId key
      exact (cleared.getValue later resource resourceId key).trans
        (agrees.getValue (Int.le_trans after later) resource resourceId key).symm
    · intro key
      exact (cleared.getValueByKey later resource key).trans
        (agrees.getValueByKey (Int.le_trans after later) resource key).symm

end Gets

section Runs
variable {Json : Type} {codec : Codec Json} {store : Store} {now : Int} {s : State}

theorem agrees_start (unique : UniqueKeys store) : Agrees (start store now) where
  unique := unique
  entry := by
    intro e member name named at_ _
    have found := (getEntryByKey_eq_some unique).mpr ⟨member, named⟩
    unfold start mapOf ExpiringMap.get
    simp only [found, Option.map_some]
    split <;> rfl
  absent := by
    intro name noRow at_ _
    have absent : getEntryByKey store name.1 name.2 = none := getEntryByKey_eq_none.mpr noRow
    unfold start mapOf ExpiringMap.get
    simp only [absent, Option.map_none]

/-- In every state of a run of orderly calls the store is the map with expiry. -/
theorem isMap_of_orderly (unique : UniqueKeys store)
    (reached : Reaches (step codec) (Orderly codec) (start store now) s) : IsMap codec s := by
  have agrees := reached.invariant Agrees (agrees_start unique)
    fun _ _ _ agrees orderly taken => agrees_step agrees orderly taken
  exact agrees.isMap

def sampleCodec : Codec Int where
  uuid key := if key = "00000000-0000-0000-0000-000000000001" then some 1 else none
  loads value := if value = "7".toUTF8 then some 7 else none

def sampleKey : String := "00000000-0000-0000-0000-000000000001"

def writeWithExpiry : Call where
  now := 0
  generated := { id := 1, uuid := 5 }
  op := .setValue "filter_state" 0 sampleKey "first" none (some 10)

def rewriteWithExpiry : Call where
  now := 1
  generated := { id := 2, uuid := 6 }
  op := .setValue "filter_state" 0 sampleKey "second" none (some 20)

def upsertRow : Call where
  now := 2
  generated := { id := 3, uuid := 7 }
  op := .upsertEntry "filter_state" 1 "7".toUTF8 none none

def clearOut : Call where
  now := 30
  generated := { id := 4, uuid := 8 }
  op := .deleteExpiredEntries "filter_state"

theorem uniqueKeys_nil : UniqueKeys [] := by
  intro _ member
  cases member

theorem orderly_run_isMap : ∃ s : State, s.now = 30 ∧ s.store.length = 1 ∧ IsMap sampleCodec s := by
  have first : Reaches (step sampleCodec) (Orderly sampleCodec) (start [] 0) _ :=
    Reaches.start.next writeWithExpiry trivial rfl
  have second := first.next rewriteWithExpiry trivial rfl
  have third := second.next upsertRow (.inl (by decide)) rfl
  have last := third.next clearOut trivial rfl
  exact ⟨_, rfl, rfl, isMap_of_orderly uniqueKeys_nil last⟩

def rewriteForGood : Call where
  now := 1
  generated := { id := 2, uuid := 6 }
  op := .setValue "filter_state" 0 sampleKey "second" none none

/-- The expiry of the first write stays on the row, and the second value is gone with
it. -/
theorem rewritten_value_expires : ∃ s : State,
    Reaches (step sampleCodec) anyStep (start [] 0) s ∧ ¬ IsMap sampleCodec s := by
  have first : Reaches (step sampleCodec) anyStep (start [] 0) _ :=
    Reaches.start.next writeWithExpiry trivial rfl
  have second := first.next rewriteForGood trivial rfl
  refine ⟨_, second, ?_⟩
  intro isMap
  have get := isMap.getValue 15 (by decide) "filter_state" 0 sampleKey
  revert get
  decide

end Runs

end Liteset.KeyValue
