import Mathlib.Data.List.TakeWhile
import Mathlib.Data.List.Infix

/-!
# Texts of JavaScript

Texts are lists of characters.  `removeFirst` is `replace` of a text by the empty one, which
replaces its first occurrence.
-/

set_option autoImplicit false

namespace Liteset.Lib.JsText

open List

/-- White space of `\s` and `trim` -/
def isSpace (c : Char) : Bool :=
  let n := c.toNat
  (9 ≤ n && n ≤ 13) || n = 0x20 || n = 0xa0 || n = 0x1680 || (0x2000 ≤ n && n ≤ 0x200a) ||
    n = 0x2028 || n = 0x2029 || n = 0x202f || n = 0x205f || n = 0x3000 || n = 0xfeff

def trim (text : List Char) : List Char :=
  ((text.dropWhile isSpace).reverse.dropWhile isSpace).reverse

def removeFirst (part : List Char) : List Char → List Char
  | [] => []
  | c :: text =>
    if part <+: c :: text then (c :: text).drop part.length else c :: removeFirst part text

section Remove
variable {part text : List Char}

theorem removeFirst_of_absent (absent : ¬ part <:+: text) : removeFirst part text = text := by
  induction text with
  | nil => rfl
  | cons c text ih =>
    rw [removeFirst, if_neg fun front => absent front.isInfix,
      ih fun inner => absent (infix_cons inner)]

theorem removeFirst_of_occurs (occurs : part <:+: text) :
    ∃ front back, text = front ++ part ++ back ∧ removeFirst part text = front ++ back := by
  induction text with
  | nil =>
    rw [infix_nil] at occurs
    exact ⟨[], [], by rw [occurs]; rfl, rfl⟩
  | cons c text ih =>
    rw [removeFirst]
    split
    · next isFront =>
      obtain ⟨back, whole⟩ := isFront
      exact ⟨[], back, whole.symm, by rw [← whole, drop_left]; rfl⟩
    · next notFront =>
      obtain ⟨front, back, whole, removed⟩ := ih ((infix_cons_iff.mp occurs).resolve_left notFront)
      exact ⟨c :: front, back, by rw [whole]; rfl, by rw [removed]; rfl⟩

theorem removeFirst_append (part back : List Char) : removeFirst part (part ++ back) = back := by
  cases part with
  | nil => cases back <;> rfl
  | cons c part =>
    rw [cons_append, removeFirst, if_pos ⟨back, rfl⟩, ← cons_append, drop_left]

theorem count_removeFirst (occurs : part <:+: text) (c : Char) :
    (removeFirst part text).count c + part.count c = text.count c := by
  obtain ⟨front, back, rfl, removed⟩ := removeFirst_of_occurs occurs
  rw [removed]
  simp only [count_append]
  omega

theorem count_removeFirst_le (part text : List Char) (c : Char) :
    (removeFirst part text).count c ≤ text.count c := by
  by_cases occurs : part <:+: text
  · have counted := count_removeFirst occurs c
    omega
  · rw [removeFirst_of_absent occurs]

end Remove

theorem count_dropWhile {c : Char} (isLetter : isSpace c = false) (text : List Char) :
    (text.dropWhile isSpace).count c = text.count c := by
  induction text with
  | nil => rfl
  | cons d text ih =>
    rw [dropWhile_cons]
    split
    · next isBlank =>
      have other : d ≠ c := by
        rintro rfl
        rw [isLetter] at isBlank
        cases isBlank
      rw [ih, count_cons_of_ne other]
    · rfl

theorem count_trim {c : Char} (isLetter : isSpace c = false) (text : List Char) :
    (trim text).count c = text.count c := by
  rw [trim, count_reverse, count_dropWhile isLetter, count_reverse, count_dropWhile isLetter]

theorem trim_eq_self {text : List Char} (kept : (trim text).length = text.length) :
    trim text = text := by
  have inner := (dropWhile_sublist (l := text) isSpace).length_le
  have outer := (dropWhile_sublist (l := (text.dropWhile isSpace).reverse) isSpace).length_le
  rw [trim, length_reverse] at kept
  rw [length_reverse] at outer
  have front : text.dropWhile isSpace = text := (dropWhile_sublist isSpace).eq_of_length (by omega)
  rw [front] at kept
  rw [trim, front]
  rw [(dropWhile_sublist (l := text.reverse) isSpace).eq_of_length
    (by rw [length_reverse]; exact kept), reverse_reverse]

theorem trim_blank_cons (text : List Char) : trim (' ' :: text) = trim text := by
  rw [trim, dropWhile_cons, if_pos (by decide), trim]

end Liteset.Lib.JsText
