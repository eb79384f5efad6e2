import Mathlib.Data.List.Basic

/-!
# A map whose entries expire

A key is bound to a value until the entry's expiry, or for good.  Expired entries
stay in the map and are not seen.  An entry may be bound under several keys at
once, so the updates take a list of keys.
-/

set_option autoImplicit false

namespace Liteset.Lib

variable {Key Value : Type}

namespace ExpiringMap

/-- An entry with this expiry is seen at `now`. -/
def live (now : Int) : Option Int → Bool
  | none => true
  | some expiresOn => now < expiresOn

theorem not_live_later {now later : Int} (after : now ≤ later) {expiresOn : Option Int}
    (expired : live now expiresOn = false) : live later expiresOn = false := by
  cases expiresOn with
  | none => cases expired
  | some expiresOn =>
    simp only [live, decide_eq_false_iff_not, Int.not_lt] at expired ⊢
    omega

structure Timed (Value : Type) where
  value : Value
  expiresOn : Option Int

end ExpiringMap

def ExpiringMap (Key Value : Type) : Type := Key → Option (ExpiringMap.Timed Value)

namespace ExpiringMap

def empty : ExpiringMap Key Value := fun _ => none

def get (map : ExpiringMap Key Value) (now : Int) (key : Key) : Option Value :=
  match map key with
  | none => none
  | some entry => if live now entry.expiresOn then some entry.value else none

variable [DecidableEq Key]

def write (map : ExpiringMap Key Value) (keys : List Key) (value : Value)
    (expiresOn : Option Int) : ExpiringMap Key Value :=
  fun key => if key ∈ keys then some { value, expiresOn } else map key

def erase (map : ExpiringMap Key Value) (keys : List Key) : ExpiringMap Key Value :=
  fun key => if key ∈ keys then none else map key

section Laws
variable (map : ExpiringMap Key Value) {keys : List Key} {key : Key} {value : Value}
  {expiresOn : Option Int} (now : Int)

theorem get_write_of_mem (member : key ∈ keys) :
    (map.write keys value expiresOn).get now key =
      if live now expiresOn then some value else none := by
  simp [get, write, member]

theorem get_write_of_notMem (other : key ∉ keys) :
    (map.write keys value expiresOn).get now key = map.get now key := by
  simp [get, write, other]

theorem get_erase_of_mem (member : key ∈ keys) : (map.erase keys).get now key = none := by
  simp [get, erase, member]

theorem get_erase_of_notMem (other : key ∉ keys) :
    (map.erase keys).get now key = map.get now key := by
  simp [get, erase, other]

end Laws

end ExpiringMap

end Liteset.Lib
