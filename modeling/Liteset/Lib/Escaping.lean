import Mathlib.Data.List.Basic

/-!
# Joining escaped texts

Texts over any alphabet are joined with a separator and a blank.  A separator within a text
is escaped, and the joined text is split where a separator that is not escaped stands before
a blank.  The escape symbol itself is not escaped, so that a text that ends with it hides the
separator after it.
-/

set_option autoImplicit false

namespace Liteset.Lib.Escaping

open List

variable {α : Type} [DecidableEq α]

def escape (sep esc : α) (text : List α) : List α :=
  text.flatMap fun c => if c = sep then [esc, sep] else [c]

def unescape (sep esc : α) : List α → List α
  | [] => []
  | [c] => [c]
  | c :: d :: text =>
    if c = esc ∧ d = sep then sep :: unescape sep esc text else c :: unescape sep esc (d :: text)

def push (c : α) : List (List α) → List (List α)
  | [] => [[c]]
  | part :: parts => (c :: part) :: parts

/-- `previous` is the symbol before the text. -/
def splitAfter (sep esc : α) (blank : α → Bool) (previous : Option α) : List α → List (List α)
  | [] => [[]]
  | [c] => [[c]]
  | c :: d :: text =>
    if c = sep ∧ previous ≠ some esc ∧ blank d = true
      then [] :: splitAfter sep esc blank (some d) text
    else push c (splitAfter sep esc blank (some c) (d :: text))

/-- Only the last of the texts may end with the escape symbol. -/
def Unambiguous (esc : α) (texts : List (List α)) : Prop :=
  ∀ text ∈ texts.dropLast, text.getLast? ≠ some esc

section Lemmas
variable {sep esc : α}

theorem escape_cons (c : α) (text : List α) :
    escape sep esc (c :: text) = (if c = sep then [esc, sep] else [c]) ++ escape sep esc text := rfl

variable (different : esc ≠ sep)
include different

theorem unescape_cons_escape (c : α) (text : List α) :
    unescape sep esc (c :: escape sep esc text) = c :: unescape sep esc (escape sep esc text) := by
  cases text with
  | nil => rfl
  | cons d text =>
    rw [escape_cons]
    split
    · rw [cons_append, unescape, if_neg fun pair => different pair.2]
    · next other => rw [cons_append, unescape, if_neg fun pair => other pair.2]

theorem unescape_escape (text : List α) : unescape sep esc (escape sep esc text) = text := by
  induction text with
  | nil => rfl
  | cons c text ih =>
    rw [escape_cons]
    split
    · next isSep =>
      rw [cons_append, cons_append, unescape, if_pos ⟨rfl, rfl⟩, nil_append, ih, isSep]
    · rw [cons_append, nil_append, unescape_cons_escape different, ih]

section Split
variable {blank : α → Bool}

omit different in
theorem splitAfter_cons {previous : Option α} {c : α} (kept : c ≠ sep ∨ previous = some esc)
    (text : List α) :
    splitAfter sep esc blank previous (c :: text) =
      push c (splitAfter sep esc blank (some c) text) := by
  cases text with
  | nil => rfl
  | cons d text =>
    rw [splitAfter, if_neg]
    rintro ⟨isSep, free, _⟩
    exact kept.elim (fun other => other isSep) free

omit [DecidableEq α] different in
theorem foldr_push (part first : List α) (parts : List (List α)) :
    part.foldr push (first :: parts) = (part ++ first) :: parts := by
  induction part with
  | nil => rfl
  | cons c part ih => rw [foldr_cons, ih, push, cons_append]

theorem splitAfter_escape (text : List α) : ∀ (previous : Option α) (rest : List α),
    splitAfter sep esc blank previous (escape sep esc text ++ rest) =
      (escape sep esc text).foldr push
        (splitAfter sep esc blank (text.getLast?.or previous) rest) := by
  induction text with
  | nil => exact fun previous rest => rfl
  | cons c text ih =>
    intro previous rest
    have last : (c :: text).getLast?.or previous = text.getLast?.or (some c) := by
      cases text with
      | nil => rfl
      | cons d text => simp [getLast?_cons]
    rw [last, escape_cons]
    split
    · next isSep =>
      subst isSep
      rw [append_assoc, cons_append, cons_append, nil_append, splitAfter_cons (.inl different),
        splitAfter_cons (.inr rfl), ih, foldr_append]
      rfl
    · next other =>
      rw [append_assoc, cons_append, nil_append, splitAfter_cons (.inl other), ih, foldr_append]
      rfl

theorem splitAfter_intercalate {b : α} (isBlank : blank b = true) (other : b ≠ esc)
    (texts : List (List α)) :
    ∀ previous : Option α, previous ≠ some esc → texts ≠ [] → Unambiguous esc texts →
      splitAfter sep esc blank previous ([sep, b].intercalate (texts.map (escape sep esc))) =
        texts.map (escape sep esc) := by
  induction texts with
  | nil => exact fun _ _ nonempty => absurd rfl nonempty
  | cons text texts ih =>
    intro previous free _ unambiguous
    cases texts with
    | nil =>
      have whole : splitAfter sep esc blank previous (escape sep esc text ++ []) = _ :=
        splitAfter_escape different text previous []
      rw [append_nil] at whole
      rw [map_cons, map_nil, intercalate_singleton, whole, splitAfter, foldr_push, append_nil]
    | cons next texts =>
      have unhidden : text.getLast?.or previous ≠ some esc := by
        have here := unambiguous text (by simp)
        cases last : text.getLast? with
        | none => simpa using free
        | some c => simpa [last] using here
      have rest := ih (some b) (by simpa using other) (cons_ne_nil _ _)
        fun later member => unambiguous later (by simp [dropLast_cons_of_ne_nil, member])
      rw [map_cons, map_cons, intercalate_cons_cons, append_assoc,
        splitAfter_escape different, cons_append, cons_append, nil_append, splitAfter,
        if_pos ⟨rfl, unhidden, isBlank⟩, ← map_cons, rest, foldr_push, append_nil]

end Split

end Lemmas

end Liteset.Lib.Escaping
