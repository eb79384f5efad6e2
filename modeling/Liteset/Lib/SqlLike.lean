import Mathlib.Data.List.Infix

/-!
# SQL pattern matching

The `LIKE` operator over character lists: `_` stands for one character and `%`
for any string, every other pattern character stands for itself.  There is no
escape character.  The lemmas split a pattern at its literal runs and at its
`%` signs, and map a string onto a pattern position by position.
-/

set_option autoImplicit false

namespace Liteset.Lib.SqlLike

/-- `like pattern text`: the whole of `text` matches `pattern`. -/
def like : List Char → List Char → Bool
  | [] => fun text => text.isEmpty
  | c :: pattern => fun text =>
    if c = '%' then text.tails.any (like pattern)
    else
      match text with
      | [] => false
      | d :: rest => (c = '_' || c = d) && like pattern rest

/-- A character that `like` reads as a wildcard. -/
def Wildcard (c : Char) : Prop := c = '_' ∨ c = '%'

instance (c : Char) : Decidable (Wildcard c) :=
  inferInstanceAs (Decidable (c = '_' ∨ c = '%'))

theorem plain_of_all {text : List Char} (all : (text.all fun c => !decide (Wildcard c)) = true) :
    ∀ c ∈ text, ¬ Wildcard c := by
  simpa using all

@[simp] theorem like_nil (text : List Char) : like [] text = true ↔ text = [] := by
  simp [like]

theorem like_percent (pattern text : List Char) :
    like ('%' :: pattern) text = true ↔
    ∃ front back, text = front ++ back ∧ like pattern back = true := by
  simp only [like, if_true, List.any_eq_true, List.mem_tails]
  constructor
  · rintro ⟨back, ⟨front, split⟩, matched⟩
    exact ⟨front, back, split.symm, matched⟩
  · rintro ⟨front, back, split, matched⟩
    exact ⟨back, ⟨front, split.symm⟩, matched⟩

theorem like_cons (c : Char) (pattern text : List Char) (notPercent : c ≠ '%') :
    like (c :: pattern) text = true ↔
      ∃ d rest, text = d :: rest ∧ (c = '_' ∨ c = d) ∧ like pattern rest = true := by
  cases text with
  | nil => simp [like, notPercent]
  | cons d rest => simp [like, notPercent]

/-- A run of literal characters at the head of a pattern is a prefix of every
text the pattern matches. -/
theorem like_literal_append (literal pattern text : List Char)
    (plain : ∀ c ∈ literal, ¬ Wildcard c) :
    like (literal ++ pattern) text = true ↔
    ∃ rest, text = literal ++ rest ∧ like pattern rest = true := by
  induction literal generalizing text with
  | nil => simp
  | cons c literal ih =>
    have head : ¬ Wildcard c := plain c (by simp)
    have tail : ∀ d ∈ literal, ¬ Wildcard d := fun d member =>
      plain d (List.mem_cons_of_mem _ member)
    have notPercent : c ≠ '%' := fun e => head (Or.inr e)
    have notUnderscore : c ≠ '_' := fun e => head (Or.inl e)
    rw [List.cons_append, like_cons c _ _ notPercent]
    constructor
    · rintro ⟨d, rest, rfl, same, matched⟩
      obtain rfl := same.resolve_left notUnderscore
      obtain ⟨after, rfl, done⟩ := (ih rest tail).mp matched
      exact ⟨after, rfl, done⟩
    · rintro ⟨after, rfl, done⟩
      exact ⟨c, literal ++ after, rfl, Or.inr rfl, (ih _ tail).mpr ⟨after, rfl, done⟩⟩

theorem like_literal (literal text : List Char) (plain : ∀ c ∈ literal, ¬ Wildcard c) :
    like literal text = true ↔ text = literal := by
  have split := like_literal_append literal [] text plain
  simpa using split

/-- Replacing the wildcards at the head of a pattern by any characters gives a
text that head matches. -/
theorem like_map_append (replace : Char → Char) (head pattern text : List Char)
    (keeps : ∀ c, ¬ Wildcard c → replace c = c) (matched : like pattern text = true) :
    like (head ++ pattern) (head.map replace ++ text) = true := by
  induction head with
  | nil => simpa using matched
  | cons c head ih =>
    rw [List.cons_append, List.map_cons, List.cons_append]
    by_cases percent : c = '%'
    · subst percent
      exact (like_percent _ _).mpr ⟨[replace '%'], head.map replace ++ text, rfl, ih⟩
    · refine (like_cons c _ _ percent).mpr ⟨replace c, _, rfl, ?_, ih⟩
      by_cases underscore : c = '_'
      · exact Or.inl underscore
      · exact Or.inr (keeps c (fun w => w.elim underscore percent)).symm

end Liteset.Lib.SqlLike
