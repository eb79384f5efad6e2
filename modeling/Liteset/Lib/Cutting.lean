import Mathlib.Data.List.Basic

/-!
# Cutting a text outside literals

A reader goes through a text and knows at each symbol whether it is outside the literals.  A
literal that is never closed is none.  The text is cut at the separators outside, and parts
without symbols are dropped.  Two readers cut a text alike only when they agree on every
separator.
-/

set_option autoImplicit false

namespace Liteset.Lib.Cutting

open List

variable {α σ τ : Type} [DecidableEq α]

/-- The parts between the marked symbols; `part` is what the first one has already. -/
def cut : List α → List Bool → List α → List (List α)
  | part, true :: marks, _ :: text =>
    if part = [] then cut [] marks text else part :: cut [] marks text
  | part, false :: marks, c :: text => cut (part ++ [c]) marks text
  | part, _, _ => if part = [] then [] else [part]

structure Reader (α σ : Type) where
  step : σ → α → σ
  outside : σ → Bool

namespace Reader
variable (reader : Reader α σ) (sep : α)

def closes : σ → List α → Bool
  | _, [] => false
  | state, c :: text => reader.outside (reader.step state c) || closes (reader.step state c) text

def marks : σ → List α → List Bool
  | _, [] => []
  | state, c :: text =>
    (decide (c = sep) && (reader.outside state || !reader.closes state (c :: text))) :: marks
      (reader.step state c) text

def Passes : Prop := ∀ state, reader.outside (reader.step state sep) = reader.outside state

end Reader

section Cut

omit [DecidableEq α] in
theorem cut_cons (part : List α) (c : α) : ∀ (marks : List Bool) (text : List α),
    ∃ rest parts, cut (c :: part) marks text = (c :: (part ++ rest)) :: parts
  | [], text => ⟨[], [], by cases text <;> simp [cut]⟩
  | true :: _, [] => ⟨[], [], by simp [cut]⟩
  | false :: _, [] => ⟨[], [], by simp [cut]⟩
  | true :: marks, _ :: text => ⟨[], _, by rw [cut, if_neg (cons_ne_nil _ _), append_nil]⟩
  | false :: marks, d :: text => by
    obtain ⟨rest, parts, same⟩ := cut_cons (part ++ [d]) c marks text
    exact ⟨d :: rest, parts, by rw [cut, cons_append, same, append_assoc, singleton_append]⟩

variable {sep : α}

def Even (sep : α) : List Bool → List α → Prop
  | b :: marks, c :: text => (c ≠ sep → b = false) ∧
      (∀ b' c', marks.head? = some b' → text.head? = some c' → c = sep → c' = sep → b = b') ∧
      Even sep marks text
  | [], [] => True
  | _, _ => False

theorem cut_nil_head : ∀ (marks : List Bool) (text : List α), Even sep marks text →
    (∀ b c, marks.head? = some b → text.head? = some c → c = sep → b = true) →
    ∀ part parts, cut [] marks text = part :: parts → part.head? ≠ some sep
  | [], [], _, _, part, parts, same => by cases same
  | [], _ :: _, even, _, part, parts, same => even.elim
  | _ :: _, [], even, _, part, parts, same => even.elim
  | true :: marks, c :: text, ⟨_, next, even⟩, first, part, parts, same => by
    rw [cut, if_pos rfl] at same
    refine cut_nil_head marks text even (fun b' c' isB isC isSep => ?_) part parts same
    by_cases here : c = sep
    · exact (next b' c' isB isC here isSep).symm
    · exact absurd (‹c ≠ sep → true = false› here) (by decide)
  | false :: marks, c :: text, _, first, part, parts, same => by
    obtain ⟨rest, others, isCut⟩ := cut_cons [] c marks text
    rw [cut, nil_append, isCut] at same
    rw [← (List.cons.inj same).1, head?_cons]
    exact fun isSep => absurd (first false c rfl rfl (Option.some.inj isSep)) (by decide)

theorem marks_eq_of_cut : ∀ (part : List α) (first second : List Bool) (text : List α),
    Even sep first text →
    Even sep second text → cut part first text = cut part second text → first = second
  | _, [], [], [], _, _, _ => rfl
  | _, _ :: _, _, [], even, _, _ => even.elim
  | _, [], _ :: _, [], _, even, _ => even.elim
  | _, [], _, _ :: _, even, _, _ => even.elim
  | _, _ :: _, [], _ :: _, _, even, _ => even.elim
  | part, b :: first, b' :: second, c :: text, even, even', same => by
    have differ : ∀ (marks marks' : List Bool), Even sep (true :: marks) (c :: text) →
      Even sep (false :: marks') (c :: text) →
        cut part (true :: marks) (c :: text) ≠ cut part (false :: marks') (c :: text) := by
      intro marks marks' marked unmarked same
      have isSep : c = sep := by
        by_contra other
        exact absurd (marked.1 other) (by decide)
      rw [cut, cut] at same
      split at same
      · next none =>
        obtain ⟨rest, others, isCut⟩ := cut_cons [] c marks' text
        rw [none, nil_append, isCut] at same
        refine cut_nil_head marks text marked.2.2 (fun d e isD isE again => ?_) _ _ same
          (by rw [head?_cons, isSep])
        exact (marked.2.1 d e isD isE isSep again).symm
      · next some =>
        obtain ⟨d, part, isPart⟩ := exists_cons_of_ne_nil some
        subst isPart
        obtain ⟨rest, others, isCut⟩ := cut_cons (part ++ [c]) d marks' text
        rw [cons_append, isCut] at same
        have long := congrArg List.length (List.cons.inj same).1
        simp only [length_cons, length_append, length_nil] at long
        omega
    cases b with
    | true =>
      cases b' with
      | true =>
        rw [cut, cut] at same
        have rest : cut [] first text = cut [] second text := by
          split at same
          · exact same
          · exact (List.cons.inj same).2
        rw [marks_eq_of_cut [] first second text even.2.2 even'.2.2 rest]
      | false => exact absurd same (differ first second even even')
    | false =>
      cases b' with
      | true => exact absurd same.symm (differ second first even' even)
      | false => rw [marks_eq_of_cut (part ++ [c]) first second text even.2.2 even'.2.2 same]

end Cut

section Readers
variable {sep : α} {reader : Reader α σ} {other : Reader α τ}

theorem even_marks (passes : reader.Passes sep) (state : σ) (text : List α) :
    Even sep (reader.marks sep state text) text := by
  induction text generalizing state with
  | nil => trivial
  | cons c text ih =>
    refine ⟨fun isOther => by simp [isOther], ?_, ih _⟩
    intro b c' isB isC isSep isSep'
    subst isSep isSep'
    cases text with
    | nil => cases isC
    | cons d text =>
      rw [head?_cons, Option.some.injEq] at isC
      subst isC
      rw [Reader.marks, head?_cons, Option.some.injEq] at isB
      rw [← isB, passes state]
      cases isOutside : reader.outside state with
      | true => simp
      | false =>
        have closing :
            reader.closes state (d :: d :: text) = reader.closes (reader.step state d)
              (d :: text) := by
          rw [Reader.closes, passes state, isOutside, Bool.false_or]
        rw [closing]

theorem cut_marks_iff (passes : reader.Passes sep) (passes' : other.Passes sep) (state : σ)
    (state' : τ) (text : List α) :
    cut [] (reader.marks sep state text) text = cut [] (other.marks sep state' text) text ↔
      reader.marks sep state text = other.marks sep state' text :=
  ⟨marks_eq_of_cut [] _ _ text (even_marks passes state text) (even_marks passes' state' text),
    fun same => by rw [same]⟩

end Readers

end Liteset.Lib.Cutting
