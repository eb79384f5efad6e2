import Mathlib.Algebra.Order.Group.Nat
import Mathlib.Data.Nat.Log

/-!
# Integers among the numbers of JavaScript

A number is a double.  Integers up to `2 ^ 53` are doubles; a larger one is rounded to the double
that is nearest, and shown with the fewest digits that are read as the same double, from
`10 ^ 21` on with an exponent.
-/

set_option autoImplicit false

namespace Liteset.Lib.JsNumber

/-- The double nearest to `n`; of two that are as near, the even one. -/
def toDouble (n : Nat) : Nat :=
  let ulp := 2 ^ (Nat.log2 n - 52)
  if ulp < 2 * (n % ulp) ∨ (2 * (n % ulp) = ulp ∧ n / ulp % 2 = 1) then (n / ulp + 1) * ulp
    else n / ulp * ulp

theorem toDouble_pos {n : Nat} (positive : 0 < n) : 0 < toDouble n := by
  have ulpPositive : 0 < 2 ^ (Nat.log2 n - 52) := Nat.pow_pos (by decide)
  have ulpLe : 2 ^ (Nat.log2 n - 52) ≤ n :=
    (Nat.pow_le_pow_right (by decide) (Nat.sub_le _ _)).trans (Nat.log2_self_le (by omega))
  have quotient : 0 < n / 2 ^ (Nat.log2 n - 52) := Nat.div_pos ulpLe ulpPositive
  unfold toDouble
  dsimp only
  split
  · exact Nat.mul_pos (Nat.succ_pos _) ulpPositive
  · exact Nat.mul_pos quotient ulpPositive

def IsDouble (n : Nat) : Prop := toDouble n = n

theorem isDouble_of_lt {n : Nat} (small : n < 2 ^ 53) : IsDouble n := by
  have ulp : Nat.log2 n - 52 = 0 := by
    by_cases isZero : n = 0
    · rw [isZero]
      rfl
    · have : Nat.log2 n < 53 := (Nat.log2_lt isZero).mpr small
      omega
  rw [IsDouble, toDouble, ulp]
  simp only [Nat.pow_zero, Nat.mod_one, Nat.div_one]
  rw [if_neg (by omega), Nat.mul_one]

/-- The two multiples of `step` around `n`, the nearer one first. -/
def multiples (n step : Nat) : List Nat :=
  let low := n / step * step
  if 2 * n ≤ 2 * low + step then [low, low + step] else [low + step, low]

/-- The number with the fewest digits that is read as `n`. -/
def shortest (n : Nat) : Nat :=
  (((List.range (Nat.toDigits 10 n).length).reverse.flatMap fun zeros =>
    multiples n (10 ^ zeros)).find?
    fun m => toDouble m = n).getD n

theorem shortest_cases (n : Nat) : toDouble (shortest n) = n ∨ shortest n = n := by
  unfold shortest
  cases found : ((List.range (Nat.toDigits 10 n).length).reverse.flatMap fun zeros =>
    multiples n (10 ^ zeros)).find?
      fun m => toDouble m = n with
  | none => exact .inr rfl
  | some m =>
    have same := List.find?_some found
    exact .inl (of_decide_eq_true same)

theorem toDouble_shortest {n : Nat} (isDouble : IsDouble n) : toDouble (shortest n) = n := by
  rcases shortest_cases n with same | same
  · exact same
  · rw [same, isDouble]

theorem shortest_pos {n : Nat} (positive : 0 < n) : 0 < shortest n := by
  rcases shortest_cases n with same | same
  · refine Nat.pos_of_ne_zero fun isZero => ?_
    rw [isZero] at same
    have zero : toDouble 0 = 0 := rfl
    omega
  · omega

def exponentText (n : Nat) : List Char :=
  let digits := Nat.toDigits 10 (shortest n)
  let mantissa := (digits.reverse.dropWhile (· = '0')).reverse
  let fraction := match mantissa.drop 1 with
    | [] => []
    | rest => '.' :: rest
  mantissa.take 1 ++ fraction ++ 'e' :: '+' :: Nat.toDigits 10 (digits.length - 1)

def natText (n : Nat) : List Char :=
  if n < 10 ^ 21 then Nat.toDigits 10 (shortest n)
  else if n < 2 ^ 1024 then exponentText n
  else "Infinity".toList

/-- `String` of an integer -/
def text (n : Int) : List Char := if n < 0 then '-' :: natText n.natAbs else natText n.natAbs

/-- `parseInt` of digits with or without a sign -/
def parseInt : List Char → Int
  | '-' :: digits => -(toDouble (Nat.ofDigitChars 10 digits 0))
  | '+' :: digits => toDouble (Nat.ofDigitChars 10 digits 0)
  | digits => toDouble (Nat.ofDigitChars 10 digits 0)

theorem parseInt_of_digits {digits : List Char} (all : ∀ c ∈ digits, c.isDigit = true) :
    parseInt digits = toDouble (Nat.ofDigitChars 10 digits 0) := by
  unfold parseInt
  split
  · exact absurd (all '-' List.mem_cons_self) (by decide)
  · exact absurd (all '+' List.mem_cons_self) (by decide)
  · rfl

theorem isDigit_toDigits (n : Nat) : ∀ c ∈ Nat.toDigits 10 n, c.isDigit = true :=
  fun _ member => Nat.isDigit_of_mem_toDigits (by decide) (by decide) member

/-- A double below `10 ^ 21` is read from its text. -/
theorem parseInt_text {n : Int} (isDouble : IsDouble n.natAbs) (small : n.natAbs < 10 ^ 21) :
    parseInt (text n) = n := by
  have read : (toDouble (Nat.ofDigitChars 10 (natText n.natAbs) 0) : Int) = n.natAbs := by
    rw [natText, if_pos small, Nat.ofDigitChars_ten_toDigits, toDouble_shortest isDouble]
  unfold text
  split
  · next negative =>
    rw [parseInt, read]
    omega
  · next notNegative =>
    rw [parseInt_of_digits, read]
    · omega
    · rw [natText, if_pos small]
      exact isDigit_toDigits _

example : text (-7) = "-7".toList ∧ parseInt "9007199254740993".toList =
  9007199254740992 := by decide

end Liteset.Lib.JsNumber
