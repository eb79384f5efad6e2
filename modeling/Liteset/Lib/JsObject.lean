import Liteset.Lib.Json
import Mathlib.Data.List.Sort

/-!
# Objects of a JavaScript program

A value is a JSON value or `undefined`; an object maps each key to a value or
lacks the key.  The difference between a key that is absent and one that holds
`undefined` is kept, since spreading an object overwrites with the latter and not
with the former.
-/

set_option autoImplicit false

namespace Liteset.Lib.JsObject

/-- `none` is `undefined`. -/
abbrev Value := Option Json

def undefined : Value := none

def text (s : String) : Value := some (.str s)

def number (n : Int) : Value := some (.int n)

/-- Everything but `undefined`, `null`, `false`, `0` and `""` counts as true. -/
def truthy : Value → Bool
  | none => false
  | some .null => false
  | some (.bool b) => b
  | some (.int n) => n ≠ 0
  | some (.float q) => q ≠ 0
  | some (.str s) => s ≠ ""
  | some (.list _) => true
  | some (.object _) => true

/-- `a ?? b` -/
def nullish : Value → Value → Value
  | none, b => b
  | some .null, b => b
  | a, _ => a

/-- `a || b` -/
def either (a b : Value) : Value := if truthy a then a else b

mutual
/-- `String(value)` -/
def stringOf : Json → String
  | .null => "null"
  | .bool b => toString b
  | .int n => toString n
  | .float q => toString q
  | .str s => s
  | .list items => ",".intercalate (joinedTexts items)
  | .object _ => "[object Object]"

/-- The texts that `Array.prototype.join` puts together; `null` has the empty one. -/
def joinedTexts : List Json → List String
  | [] => []
  | item :: rest => (if item matches .null then "" else stringOf item) :: joinedTexts rest
end

def propertyKey : Value → String
  | none => "undefined"
  | some value => stringOf value

abbrev Object := String → Option Value

def empty : Object := fun _ => none

/-- `{ key: value }` -/
def single (key : String) (value : Value) : Object := fun k => if k = key then some value else none

/-- `object[key]` -/
def get (object : Object) (key : String) : Value := (object key).getD undefined

def Has (object : Object) (key : String) : Prop := object key ≠ none

instance (object : Object) (key : String) : Decidable (Has object key) :=
  inferInstanceAs (Decidable (object key ≠ none))

/-- `{ ...first, ...second }` -/
def spread (first second : Object) : Object := fun k =>
  match second k with
  | some value => some value
  | none => first k

/-- `...(condition && object)` -/
def spreadIf (condition : Prop) [Decidable condition] (object : Object) : Object :=
  if condition then object else empty

/-- `{ key₁: value₁, … }` -/
def ofList : List (String × Value) → Object
  | [] => empty
  | (key, value) :: rest => spread (single key value) (ofList rest)

section Lemmas
variable {first second : Object} {key : String} {value : Value}

theorem get_of_some (found : first key = some value) : get first key = value := by
  rw [get, found]
  rfl

theorem has_iff : Has first key ↔ ∃ value, first key = some value := by
  unfold Has
  cases first key with
  | none => simp
  | some value => simp

theorem get_of_not_has (lacks : ¬Has first key) : get first key = undefined := by
  have absent : first key = none := not_not.mp lacks
  rw [get, absent]
  rfl

theorem spread_of_has (has : Has second key) : spread first second key = second key := by
  obtain ⟨value, found⟩ := has_iff.mp has
  simp [spread, found]

theorem spread_of_not_has (lacks : ¬Has second key) : spread first second key = first key := by
  unfold Has at lacks
  have absent : second key = none := by
    by_contra present
    exact lacks present
  simp [spread, absent]

theorem get_spread_of_has (has : Has second key) :
    get (spread first second) key = get second key := by
  rw [get, spread_of_has has, get]

theorem get_spread_of_not_has (lacks : ¬Has second key) :
    get (spread first second) key = get first key := by
  rw [get, spread_of_not_has lacks, get]

@[simp] theorem spread_empty (object : Object) : spread object empty = object := rfl

@[simp] theorem empty_spread (object : Object) : spread empty object = object := by
  funext k
  unfold spread empty
  cases object k with
  | none => rfl
  | some value => rfl

@[simp] theorem spread_spread_self (first second : Object) :
    spread (spread first second) second = spread first second := by
  funext k
  unfold spread
  cases second k with
  | none => rfl
  | some value => rfl

@[simp] theorem get_single_self : get (single key value) key = value := by simp [get, single]

theorem has_single_iff {other : String} : Has (single key value) other ↔ other = key := by
  simp [Has, single]

theorem not_has_empty : ¬Has empty key := fun has => has rfl

theorem has_spread_iff : Has (spread first second) key ↔ Has second key ∨ Has first key := by
  unfold Has spread
  cases second key with
  | none => simp
  | some value => simp

theorem has_ofList_iff {members : List (String × Value)} :
    Has (ofList members) key ↔ key ∈ members.map Prod.fst := by
  induction members with
  | nil => simp [ofList, not_has_empty]
  | cons member rest ih =>
    rw [ofList, has_spread_iff, ih, has_single_iff, List.map_cons, List.mem_cons]
    exact or_comm

end Lemmas

structure Record (α : Type) where
  keys : List String
  entry : String → Option α
  listed : ∀ k, entry k ≠ none → k ∈ keys

namespace Record
variable {α : Type}

def empty : Record α :=
  { keys := [], entry := fun _ => none, listed := fun _ some => (some rfl).elim }

/-- `{ ...record, [key]: value }` -/
def set (record : Record α) (key : String) (value : α) : Record α where
  keys := if key ∈ record.keys then record.keys else record.keys ++ [key]
  entry := fun k => if k = key then some value else record.entry k
  listed := by
    intro k found
    by_cases new : k = key
    · subst new
      split
      · assumption
      · simp
    · rw [if_neg new] at found
      have old := record.listed k found
      split
      · exact old
      · exact List.mem_append_left _ old

/-- `delete record[key]` -/
def delete (record : Record α) (key : String) : Record α where
  keys := record.keys.filter fun k => k ≠ key
  entry := fun k => if k = key then none else record.entry k
  listed := by
    intro k found
    by_cases gone : k = key
    · rw [if_pos gone] at found
      exact (found rfl).elim
    · rw [if_neg gone] at found
      exact List.mem_filter.mpr ⟨record.listed k found, by simpa using gone⟩

/-- `{ ...first, ...second }` -/
def spread (first second : Record α) : Record α where
  keys := first.keys ++ second.keys.filter fun k => k ∉ first.keys
  entry := fun k => (second.entry k).or (first.entry k)
  listed := by
    intro k found
    by_cases old : k ∈ first.keys
    · exact List.mem_append_left _ old
    · refine List.mem_append_right _ (List.mem_filter.mpr ⟨second.listed k ?_, by simpa using old⟩)
      intro absent
      rw [absent, Option.none_or] at found
      exact old (first.listed k found)

section Entries
variable (record first second : Record α) (key k : String) (value : α)

@[simp] theorem entry_empty : (empty : Record α).entry k = none := rfl

@[simp] theorem entry_set :
    (record.set key value).entry k = if k = key then some value else record.entry k := rfl

@[simp] theorem entry_delete :
    (record.delete key).entry k = if k = key then none else record.entry k := rfl

@[simp] theorem entry_spread :
    (spread first second).entry k = (second.entry k).or (first.entry k) :=
  rfl

end Entries

def decimal (digits : List Char) : Nat := digits.foldl (fun n c => 10 * n + (c.toNat - 48)) 0

/-- A key that is enumerated as an array index: a number below `2^32 - 1` without
leading zeros. -/
def arrayIndex (key : String) : Option Nat :=
  match key.toList with
  | [] => none
  | ['0'] => some 0
  | '0' :: _ => none
  | digits =>
    if digits.all Char.isDigit ∧ decimal digits < 4294967295 then some (decimal digits) else none

def enumerate (keys : List String) : List String :=
  (keys.filter fun k => (arrayIndex k).isSome).insertionSort
      (fun a b => (arrayIndex a).getD 0 ≤ (arrayIndex b).getD 0)
    ++ keys.filter fun k => (arrayIndex k).isNone

/-- `Object.values(record)` -/
def values (record : Record α) : List α := (enumerate record.keys).filterMap record.entry

theorem mem_enumerate {keys : List String} {key : String} : key ∈ enumerate keys ↔ key ∈ keys := by
  unfold enumerate
  rw [List.mem_append, List.mem_insertionSort, List.mem_filter, List.mem_filter]
  cases arrayIndex key with
  | none => simp
  | some n => simp

theorem mem_values {record : Record α} {value : α} :
    value ∈ record.values ↔ ∃ key, record.entry key = some value := by
  unfold values
  rw [List.mem_filterMap]
  refine ⟨fun found => ⟨found.choose, found.choose_spec.2⟩, fun found => ?_⟩
  obtain ⟨key, at_key⟩ := found
  refine ⟨key, mem_enumerate.mpr (record.listed key ?_), at_key⟩
  simp [at_key]

end Record

end Liteset.Lib.JsObject
