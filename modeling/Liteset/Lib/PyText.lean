import Mathlib.Data.List.Basic

/-!
# Texts of Python

`str.strip`, `str.isdigit` and `int` on texts of digits.  A digit need not be a decimal
digit: `int` refuses the others, and texts of more than 4300 digits.
-/

set_option autoImplicit false

namespace Liteset.Lib.PyText

/-- `str.strip(chars)` -/
def strip (drop : Char → Bool) (text : String) : String :=
  String.ofList (((text.toList.dropWhile drop).reverse.dropWhile drop).reverse)

theorem dropWhile_dropWhile (drop : Char → Bool) (text : List Char) :
    (text.dropWhile drop).dropWhile drop = text.dropWhile drop := by
  induction text with
  | nil => rfl
  | cons c text ih => by_cases dropped : drop c = true <;> simp [dropped, ih]

theorem dropWhile_reverse (drop : Char → Bool) (text : List Char)
    (front : text.dropWhile drop = text) :
    ((text.reverse.dropWhile drop).reverse).dropWhile drop =
      (text.reverse.dropWhile drop).reverse := by
  cases text with
  | nil => rfl
  | cons c text =>
    have kept : drop c = false := by
      by_contra dropped
      rw [List.dropWhile_cons, if_pos (by simpa using dropped)] at front
      have shorter := (List.dropWhile_sublist (l := text) drop).length_le
      rw [front, List.length_cons] at shorter
      omega
    have ends : ∀ rest : List Char, ∃ middle, (rest ++ [c]).dropWhile drop = middle ++ [c] := by
      intro rest
      induction rest with
      | nil => exact ⟨[], by simp [kept]⟩
      | cons d rest ih =>
        rw [List.cons_append, List.dropWhile_cons]
        split
        · exact ih
        · exact ⟨d :: rest, rfl⟩
    obtain ⟨middle, last⟩ := ends text.reverse
    rw [List.reverse_cons, last, List.reverse_append]
    simp [kept]

@[simp] theorem strip_strip (drop : Char → Bool) (text : String) :
    strip drop (strip drop text) = strip drop text := by
  have front := dropWhile_reverse drop (text.toList.dropWhile drop) (dropWhile_dropWhile drop _)
  simp only [strip, String.toList_ofList, front, List.reverse_reverse, dropWhile_dropWhile]

/-- `str.isspace` of one character. -/
def isspace (c : Char) : Bool :=
  let n := c.toNat
  (9 ≤ n && n ≤ 13) || (28 ≤ n && n ≤ 32) || n = 0x85 || n = 0xa0 || n = 0x1680 ||
    (0x2000 ≤ n && n ≤ 0x200a) || n = 0x2028 || n = 0x2029 || n = 0x202f || n = 0x205f || n = 0x3000

def decimalZeros : List Nat :=
  [0x30, 0x660, 0x6f0, 0x7c0, 0x966, 0x9e6, 0xa66, 0xae6, 0xb66, 0xbe6, 0xc66, 0xce6, 0xd66, 0xde6,
    0xe50, 0xed0, 0xf20, 0x1040, 0x1090, 0x17e0, 0x1810, 0x1946, 0x19d0, 0x1a80, 0x1a90, 0x1b50,
    0x1bb0, 0x1c40, 0x1c50, 0xa620, 0xa8d0, 0xa900, 0xa9d0, 0xa9f0, 0xaa50, 0xabf0, 0xff10, 0x104a0,
    0x10d30, 0x11066, 0x110f0, 0x11136, 0x111d0, 0x112f0, 0x11450, 0x114d0, 0x11650, 0x116c0,
    0x11730, 0x118e0, 0x11950, 0x11c50, 0x11d50, 0x11da0, 0x16a60, 0x16ac0, 0x16b50, 0x1d7ce,
    0x1d7d8, 0x1d7e2, 0x1d7ec, 0x1d7f6, 0x1e140, 0x1e2f0, 0x1e950, 0x1fbf0]

def otherDigits : List (Nat × Nat) :=
  [(0xb2, 0xb3), (0xb9, 0xb9), (0x1369, 0x1371), (0x19da, 0x19da), (0x2070, 0x2070),
    (0x2074, 0x2079), (0x2080, 0x2089), (0x2460, 0x2468), (0x2474, 0x247c), (0x2488, 0x2490),
    (0x24ea, 0x24ea), (0x24f5, 0x24fd), (0x24ff, 0x24ff), (0x2776, 0x277e), (0x2780, 0x2788),
    (0x278a, 0x2792), (0x10a40, 0x10a43), (0x10e60, 0x10e68), (0x11052, 0x1105a),
    (0x1f100, 0x1f10a)]

def decimal (c : Char) : Option Nat :=
  (decimalZeros.find? fun first => first ≤ c.toNat && c.toNat < first + 10).map (c.toNat - ·)

def isDigitChar (c : Char) : Bool :=
  (decimal c).isSome || otherDigits.any fun range => range.1 ≤ c.toNat && c.toNat ≤ range.2

/-- `str.isdigit` -/
def isdigit (text : String) : Bool := !text.isEmpty && text.toList.all isDigitChar

def digitsValue (text : String) : Option Nat :=
  (text.toList.mapM decimal).map fun digits => digits.foldl (fun n d => 10 * n + d) 0

/-- `int` of a text of digits; `none` where it raises a `ValueError`. -/
def int (text : String) : Option Nat := if text.length ≤ 4300 then digitsValue text else none

theorem decimal_of_isDigit {c : Char} (digit : c.isDigit = true) :
    decimal c = some (c.toNat - '0'.toNat) := by
  have bounds : 48 ≤ c.toNat ∧ c.toNat ≤ 57 := by
    simpa [Char.isDigit, UInt32.le_iff_toNat_le] using digit
  rw [decimal, decimalZeros, List.find?_cons_of_pos (by simp; omega)]
  rfl

theorem mapM_decimal {digits : List Char} (all : ∀ c ∈ digits, c.isDigit = true) :
    digits.mapM decimal = some (digits.map fun c => c.toNat - '0'.toNat) := by
  induction digits with
  | nil => rfl
  | cons c digits ih =>
    obtain ⟨digit, rest⟩ := List.forall_mem_cons.mp all
    rw [List.mapM_cons, decimal_of_isDigit digit, ih rest]
    rfl

theorem int_digits {digits : List Char} (all : ∀ c ∈ digits, c.isDigit = true)
    (short : digits.length ≤ 4300) :
    int (String.ofList digits) = some (Nat.ofDigitChars 10 digits 0) := by
  rw [int, if_pos (by simpa using short), digitsValue, String.toList_ofList, mapM_decimal all,
    Option.map_some, List.foldl_map]
  rfl

/-- What `str` writes for a number is read by `int`. -/
theorem int_toDigits {n : Nat} (short : (Nat.toDigits 10 n).length ≤ 4300) :
    int (String.ofList (Nat.toDigits 10 n)) = some n := by
  rw [int_digits (fun _ member => Nat.isDigit_of_mem_toDigits (by decide) (by decide) member) short]
  exact congrArg some Nat.ofDigitChars_ten_toDigits

def digitGroups (digits : List Char) : Option Nat :=
  let groups := digits.splitOn '_'
  if groups.all (!·.isEmpty) then int (String.ofList groups.flatten) else none

/-- `int` of any text, which may have spaces around it and a sign. -/
def parseInt (text : String) : Option Int :=
  match (strip isspace text).toList with
  | '-' :: digits => (digitGroups digits).map fun n => -(n : Int)
  | '+' :: digits => (digitGroups digits).map fun n => (n : Int)
  | digits => (digitGroups digits).map fun n => (n : Int)

example : parseInt " -1_0 " = some (-10) ∧ parseInt "1__0" = none ∧ parseInt "" = none := by decide

example : isdigit "²" = true ∧ int "²" = none ∧ int "٣7" = some 37 := by decide

end Liteset.Lib.PyText
