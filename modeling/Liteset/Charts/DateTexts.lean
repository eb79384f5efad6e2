import Liteset.Charts.DatePhrases

/-!
# What `datetime_eval` makes of a text

The parser stops after the first sentence of the grammar and ignores the rest.  `get_since_until`
puts a part of a time range that matches no pattern between quotes, as it is.
-/

set_option autoImplicit false

namespace Liteset.Charts.Dates

open Lib Lib.Peg List

def Spells : Token → Text → Prop
  | .keyword name, text => upper text = upper name.word
  | .mark c, text => text = [c]
  | .quotedString, text =>
    ∃ quote inside, (quote = '\'' ∨ quote = '"') ∧ text = quote :: (inside ++ [quote])
  | .signedInteger, text =>
    ∃ sign digits, sign ∈ [[], ['-'], ['+']] ∧ text = sign ++ digits ∧ digits ≠ [] ∧
      digits.all isDecimal = true

/-- The texts of a token, with white space before them. -/
def Lexeme (token : Token) (text : Text) : Prop :=
  ∃ white body, text = white ++ body ∧ white.all isWhite = true ∧ Spells token body

/-- What else is documented of the tokens: the texts they read, and that a quoted string
has no line break. -/
structure Lexical (read : Token → Text → Option Text) : Prop where
  lexeme : ∀ token text rest, read token text = some rest →
    ∃ front, text = front ++ rest ∧ Lexeme token front
  lineBreak : ∀ inside c text, (∀ c ∈ inside, isPlain c = true) → (c = '\n' ∨ c = '\r') →
    read .quotedString ('\'' :: (inside ++ c :: text)) = none

def wrap (part : Text) : Text := "DATETIME('".toList ++ part ++ "')".toList

/-- The text that `EvalDateTimeFunc` gives to `parse_human_datetime`: its operand
without the quotes. -/
def denoted (read : Token → Text → Option Text) (expression : Text) : Option Text := do
  let afterName ← read (.keyword .datetime) expression
  let operand ← read (.mark '(') afterName
  let rest ← read .quotedString operand
  let _ ← read (.mark ')') rest
  some ((operand.take (operand.length - rest.length)).tail.dropLast)

/-- What follows begins, after white space, with the closing parenthesis. -/
abbrev closes (text : Text) : Prop := (text.dropWhile isWhite).head? = some ')'

variable {read : Token → Text → Option Text} (pyparsing : Pyparsing read)

include pyparsing

theorem accepts_datetime {operand : Text} {outcome : Option Text}
    (inside : Parses read rules (.seq [textOperand, rparen]) operand outcome) :
    Accepts read ("DATETIME(".toList ++ operand) ↔ outcome.isSome = true := by
  have parse : Parses read rules dateExpr ("DATETIME(".toList ++ operand) outcome :=
    parses_dateExpr pyparsing .datetime (by decide) inside
  constructor
  · rintro ⟨rest, accepted⟩
    cases outcome with
    | none =>
      have diff := parses_rule pyparsing .datetime operand .datediff (fun same => nomatch same)
        (fun _ => rfl)
      cases accepted.unique (.passed parse (.passed diff .exhausted))
    | some _ => rfl
  · intro isSome
    obtain ⟨rest, rfl⟩ := Option.isSome_iff_exists.mp isSome
    exact ⟨rest, .chosen parse⟩

theorem denoted_datetime (operand : Text) : denoted read ("DATETIME(".toList ++ operand) = (do
    let rest ← read .quotedString operand
    let _ ← read (.mark ')') rest
    some ((operand.take (operand.length - rest.length)).tail.dropLast)) := by
  have name : read (.keyword .datetime) ("DATETIME(".toList ++ operand) = some ('(' :: operand) :=
    (@read_keyword _ pyparsing "DATETIME".toList .datetime (by decide) .datetime _
      (by decide) operand).trans
      (if_pos (by decide))
  rw [denoted, name, Option.bind_eq_bind, Option.bind_some, read_mark pyparsing '(' (by decide)]
  rfl

theorem read_rparen {text : Text} (some : text.any (!isWhite ·) = true) :
    (read (.mark ')') text).isSome = true ↔ closes text := by
  induction text with
  | nil => cases some
  | cons c text ih =>
    rw [closes]
    cases white : isWhite c with
    | true =>
      rw [pyparsing.white _ c text white, List.dropWhile_cons_of_pos white]
      exact ih (by simpa [white] using some)
    | false =>
      rw [pyparsing.mark ')' c text white, List.dropWhile_cons_of_neg (by simp [white])]
      by_cases same : c = ')' <;> simp [same]

/-- The quote that follows plain characters ends the string, unless there are two. -/
theorem wrap_outcome {inside after : Text} (plain : ∀ c ∈ inside, isPlain c = true)
    (apart : after.head? ≠ some '\'')
    (some : after.any (!isWhite ·) = true) :
    (Accepts read ("DATETIME(".toList ++ '\'' :: (inside ++ '\'' :: after)) ↔ closes after) ∧
      (closes after → denoted read ("DATETIME(".toList ++ '\'' :: (inside ++ '\'' :: after)) =
        .some inside) := by
  have operand := pyparsing.quotedString inside after plain apart
  have closing := read_rparen pyparsing some
  cases found : read (.mark ')') after with
  | none =>
    rw [found] at closing
    have open' : ¬ closes after := fun closed => nomatch closing.mpr closed
    exact ⟨(accepts_datetime pyparsing (.next (.token operand) (.stop (.token found)))).trans
      (iff_of_false (by decide) open'), fun closed => absurd closed open'⟩
  | some rest =>
    rw [found] at closing
    refine ⟨(accepts_datetime pyparsing (.next (.token operand) (.next (.token found) .done))).trans
      closing, fun _ => ?_⟩
    have front : '\'' :: (inside ++ '\'' :: after) = '\'' :: (inside ++ ['\'']) ++ after := by
      rw [List.cons_append, List.append_assoc, List.singleton_append]
    rw [denoted_datetime pyparsing, operand, Option.bind_eq_bind, Option.bind_some, found,
      Option.bind_some,
      front, List.length_append, Nat.add_sub_cancel, List.take_left, List.tail_cons,
      List.dropLast_concat]

omit pyparsing in
theorem wrap_eq (part : Text) :
    wrap part = "DATETIME(".toList ++ '\'' :: (part ++ "')".toList) := by
  have front : "DATETIME('".toList = "DATETIME(".toList ++ ['\''] := by decide
  revert front
  unfold wrap
  generalize "DATETIME('".toList = quoted, "DATETIME(".toList = name, "')".toList = last
  rintro rfl
  rw [append_assoc, append_assoc, singleton_append]

omit pyparsing in
theorem closes_append (after : Text) : closes (after ++ "')".toList) ↔ closes after := by
  induction after with
  | nil => decide
  | cons c after ih =>
    rw [List.cons_append, closes, closes]
    cases white : isWhite c with
    | true =>
      rw [List.dropWhile_cons_of_pos white, List.dropWhile_cons_of_pos white, ← closes,
        ← closes, ih]
    | false =>
      rw [List.dropWhile_cons_of_neg (by simp [white]),
        List.dropWhile_cons_of_neg (by simp [white])]; rfl

omit pyparsing

theorem scan_quoted {text rest : Text} (found : scan .quotedString text = some rest) :
    ∃ inside, text = '\'' :: (inside ++ '\'' :: rest) := by
  cases text with
  | nil => cases found
  | cons c text =>
    by_cases quote : c = '\''
    · subst quote
      have shape := takeWhile_append_dropWhile (p := isPlain) (l := text)
      rw [scan] at found
      split at found
      next rest' ends =>
          split at found
          next => cases found
          next =>
              cases found
              exact ⟨text.takeWhile isPlain, by rw [← ends, shape]⟩
      next => cases found
    · rw [scan] at found
      · cases found
      · rintro _ ⟨⟩
        exact quote rfl

theorem scan_integer {text rest : Text} (found : scan .signedInteger text = some rest) :
    ∃ sign digits, sign ∈ [[], ['-'], ['+']] ∧ text = sign ++ digits ++ rest ∧ digits ≠ [] ∧
    digits.all isDecimal = true := by
  have body {digits : Text}
    (number : (if digits.head?.any isDecimal then some (digits.dropWhile isDecimal) else none) =
      some rest) :
      ∃ front, digits = front ++ rest ∧ front ≠ [] ∧ front.all isDecimal = true := by
    split at number
    next starts =>
        cases number
        refine ⟨digits.takeWhile isDecimal, takeWhile_append_dropWhile.symm, ?_, all_takeWhile⟩
        cases digits with
        | nil => cases starts
        | cons c digits => simp [takeWhile_cons_of_pos (show isDecimal c = true from starts)]
    next => cases number
  simp only [scan] at found
  split at found
  next signed =>
      obtain ⟨front, shape, some, all⟩ := body found
      cases text with
      | nil => cases signed
      | cons c text =>
        refine ⟨[c], front, ?_, by rw [append_assoc, ← shape]; rfl, some, all⟩
        have isSign : c = '-' ∨ c = '+' := by simpa using signed
        rcases isSign with rfl | rfl <;> decide
  next =>
      obtain ⟨front, shape, some, all⟩ := body found
      exact ⟨[], front, by decide, shape, some, all⟩

theorem scan_spells {token : Token} {text rest : Text} (found : scan token text = some rest) :
    ∃ body, text = body ++ rest ∧ Spells token body := by
  cases token with
  | keyword name =>
    rw [scan] at found
    split at found
    next reads =>
        cases found
        exact ⟨text.take name.word.length, (take_append_drop _ _).symm, reads.1⟩
    next => cases found
  | mark c =>
    cases text with
    | nil => cases found
    | cons other text =>
      rw [scan] at found
      split at found
      next same =>
          cases found
          exact ⟨[other], rfl, same ▸ rfl⟩
      next => cases found
  | quotedString =>
    obtain ⟨inside, rfl⟩ := scan_quoted found
    exact ⟨'\'' :: (inside ++ ['\'']), by simp, '\'', inside, .inl rfl, rfl⟩
  | signedInteger =>
    obtain ⟨sign, digits, isSign, shape, some, all⟩ := scan_integer found
    exact ⟨sign ++ digits, shape, sign, digits, isSign, rfl, some, all⟩

theorem lexical_plainRead : Lexical plainRead where
  lexeme token text rest found := by
    obtain ⟨body, shape, spelled⟩ := scan_spells found
    refine ⟨text.takeWhile isWhite ++ body, ?_, text.takeWhile isWhite, body, rfl,
      all_takeWhile, spelled⟩
    rw [append_assoc, ← shape, takeWhile_append_dropWhile]
  lineBreak inside c text plain isBreak := by
    have stops : (c :: text).head?.any isPlain = false := by rcases isBreak with rfl | rfl <;> rfl
    rw [plainRead, dropWhile_cons_of_neg (by decide), scan, dropWhile_before plain stops]
    rcases isBreak with rfl | rfl <;> rfl

end Liteset.Charts.Dates
