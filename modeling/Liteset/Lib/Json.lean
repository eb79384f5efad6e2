import Mathlib.Data.Rat.Defs

/-!
# JSON values as Python reads them

The values of `json.loads`, with the operations of Python that programs apply to
them without looking at their type: truth, `==`, iteration and `dict.get`.
Objects are kept with their keys sorted, so that two values are equal exactly
when `json.dumps(…, sort_keys=True)` prints the same text.
-/

set_option autoImplicit false

namespace Liteset.Lib

inductive Json where
  | null
  | bool (b : Bool)
  | int (n : Int)
  | float (q : Rat)
  | str (s : String)
  | list (items : List Json)
  | object (members : List (String × Json))

namespace Json

mutual
def decEq : (a b : Json) → Decidable (a = b)
  | .null, b =>
    match b with
    | .null => isTrue rfl
    | .bool _ | .int _ | .float _ | .str _ | .list _ | .object _ => isFalse nofun
  | .bool x, b =>
    match b with
    | .bool y => decidable_of_iff (x = y) (by simp)
    | .null | .int _ | .float _ | .str _ | .list _ | .object _ => isFalse nofun
  | .int x, b =>
    match b with
    | .int y => decidable_of_iff (x = y) (by simp)
    | .null | .bool _ | .float _ | .str _ | .list _ | .object _ => isFalse nofun
  | .float x, b =>
    match b with
    | .float y => decidable_of_iff (x = y) (by simp)
    | .null | .bool _ | .int _ | .str _ | .list _ | .object _ => isFalse nofun
  | .str x, b =>
    match b with
    | .str y => decidable_of_iff (x = y) (by simp)
    | .null | .bool _ | .int _ | .float _ | .list _ | .object _ => isFalse nofun
  | .list xs, b =>
    match b with
    | .list ys =>
      match decEqItems xs ys with
      | isTrue same => isTrue (by rw [same])
      | isFalse different => isFalse fun same => different (Json.list.inj same)
    | .null | .bool _ | .int _ | .float _ | .str _ | .object _ => isFalse nofun
  | .object xs, b =>
    match b with
    | .object ys =>
      match decEqMembers xs ys with
      | isTrue same => isTrue (by rw [same])
      | isFalse different => isFalse fun same => different (Json.object.inj same)
    | .null | .bool _ | .int _ | .float _ | .str _ | .list _ => isFalse nofun

def decEqItems : (xs ys : List Json) → Decidable (xs = ys)
  | [], [] => isTrue rfl
  | [], _ :: _ => isFalse nofun
  | _ :: _, [] => isFalse nofun
  | x :: xs, y :: ys =>
    match decEq x y with
    | isFalse different => isFalse fun same => different (List.cons.inj same).1
    | isTrue sameHead =>
      match decEqItems xs ys with
      | isTrue sameTail => isTrue (by rw [sameHead, sameTail])
      | isFalse different => isFalse fun same => different (List.cons.inj same).2

def decEqMembers : (xs ys : List (String × Json)) → Decidable (xs = ys)
  | [], [] => isTrue rfl
  | [], _ :: _ => isFalse nofun
  | _ :: _, [] => isFalse nofun
  | (k, x) :: xs, (l, y) :: ys =>
    if sameKey : k = l then
      match decEq x y with
      | isFalse different =>
        isFalse fun same => different (Prod.mk.inj (List.cons.inj same).1).2
      | isTrue sameHead =>
        match decEqMembers xs ys with
        | isTrue sameTail => isTrue (by rw [sameKey, sameHead, sameTail])
        | isFalse different => isFalse fun same => different (List.cons.inj same).2
    else isFalse fun same => sameKey (Prod.mk.inj (List.cons.inj same).1).1
end

instance : DecidableEq Json := decEq

def truthy : Json → Bool
  | .null => false
  | .bool b => b
  | .int n => n ≠ 0
  | .float q => q ≠ 0
  | .str s => s ≠ ""
  | .list items => !items.isEmpty
  | .object members => !members.isEmpty

/-- The number a value counts as in a comparison; `True` is 1. -/
def number : Json → Option Rat
  | .bool b => some (if b then 1 else 0)
  | .int n => some n
  | .float q => some q
  | _ => none

/-- `value == n` -/
def equalsNat (value : Json) (n : Nat) : Bool := value.number = some (n : Rat)

mutual
/-- `a == b` -/
def equals : Json → Json → Bool
  | .list xs, .list ys => equalsItems xs ys
  | .object xs, .object ys => equalsMembers xs ys
  | .null, .null => true
  | .str x, .str y => x = y
  | a, b => a.number.isSome && a.number = b.number

def equalsItems : List Json → List Json → Bool
  | [], [] => true
  | x :: xs, y :: ys => equals x y && equalsItems xs ys
  | _, _ => false

def equalsMembers : List (String × Json) → List (String × Json) → Bool
  | [], [] => true
  | (k, x) :: xs, (l, y) :: ys => k = l && equals x y && equalsMembers xs ys
  | _, _ => false
end

/-- `for item in value`; `none` for a `TypeError`. -/
def iterate : Json → Option (List Json)
  | .list items => some items
  | .str s => some (s.toList.map fun c => .str (String.singleton c))
  | .object members => some (members.map fun m => .str m.1)
  | _ => none

/-- `for item in value or []` -/
def iterateOrEmpty (value : Json) : Option (List Json) :=
  if value.truthy then value.iterate else some []

/-- `members.get(key)` -/
def get (members : List (String × Json)) (key : String) : Json :=
  ((members.find? fun m => m.1 = key).map Prod.snd).getD .null

/-- `int(value)` for a number; `none` for a `TypeError` or `ValueError`. A text is
read by `parse`. -/
def toInt (parse : String → Option Int) : Json → Option Int
  | .bool b => some (if b then 1 else 0)
  | .int n => some n
  | .float q => some (Int.tdiv q.num q.den)
  | .str s => parse s
  | _ => none

end Json

end Liteset.Lib
