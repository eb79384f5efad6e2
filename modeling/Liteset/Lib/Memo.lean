import Mathlib.Logic.Function.Basic

/-!
# Caches in front of a function

A cache holds, for each key, the argument of the last call that was computed under it.
A later call with the key is answered from the entry when the entry counts as a hit for
it, and computed and stored otherwise.  A history of calls is transparent when every
answer is what computing would give; that is a matter of the pairs of a stored and an
asked argument that meet in the history.
-/

set_option autoImplicit false

namespace Liteset.Lib

/-- `hits stored asked` lets the entry answer the call, with `served stored asked`. -/
structure Memo (A K R : Type) where
  key : A → K
  hits : A → A → Prop
  served : A → A → R
  compute : A → R

namespace Memo
variable {A K R : Type} [DecidableEq K] (memo : Memo A K R)

/-- The entry that answers a call. -/
def Answers (cache : K → Option A) (asked stored : A) : Prop :=
  cache (memo.key asked) = some stored ∧ memo.hits stored asked

section
variable [∀ stored asked, Decidable (memo.hits stored asked)]

def answering (cache : K → Option A) (asked : A) : Option A :=
  (cache (memo.key asked)).filter fun stored => memo.hits stored asked

def answer (cache : K → Option A) (asked : A) : R :=
  match memo.answering cache asked with
  | some stored => memo.served stored asked
  | none => memo.compute asked

def after (cache : K → Option A) (asked : A) : K → Option A :=
  match memo.answering cache asked with
  | some _ => cache
  | none => Function.update cache (memo.key asked) (some asked)

def answers : (K → Option A) → List A → List R
  | _, [] => []
  | cache, asked :: rest => memo.answer cache asked :: answers (memo.after cache asked) rest

/-- Every call of the history that is answered from the cache meets a condition with
the call that stored the entry. -/
def Each (condition : A → A → Prop) : (K → Option A) → List A → Prop
  | _, [] => True
  | cache, asked :: rest =>
    (∀ stored, memo.answering cache asked = some stored → condition stored asked)
      ∧ Each condition (memo.after cache asked) rest

variable {memo}

omit [DecidableEq K] in
theorem answering_eq_some_iff {cache : K → Option A} {asked stored : A} :
    memo.answering cache asked = some stored ↔ memo.Answers cache asked stored := by
  unfold answering Answers
  rw [Option.filter_eq_some_iff, decide_eq_true_eq]

theorem after_of_answers {cache : K → Option A} {asked stored : A}
    (answers : memo.Answers cache asked stored) :
    memo.after cache asked = cache := by
  rw [after, answering_eq_some_iff.mpr answers]

theorem Each.mono {first second : A → A → Prop} {history : List A}
    (weaker : ∀ stored asked, memo.hits stored asked → first stored asked → second stored asked) :
    ∀ {cache : K → Option A}, memo.Each first cache history → memo.Each second cache history := by
  induction history with
  | nil => exact fun _ => trivial
  | cons asked rest ih =>
    rintro cache ⟨here, later⟩
    refine ⟨fun stored found => ?_, ih later⟩
    exact weaker stored asked (answering_eq_some_iff.mp found).2 (here stored found)

theorem answers_eq_iff {history : List A} :
    ∀ {cache : K → Option A}, memo.answers cache history = history.map memo.compute ↔
      memo.Each (fun stored asked => memo.served stored asked = memo.compute asked) cache
        history := by
  induction history with
  | nil => exact fun {_} => iff_of_true rfl trivial
  | cons asked rest ih =>
    intro cache
    rw [answers, List.map_cons, List.cons.injEq, ih, Each]
    refine and_congr_left fun _ => ?_
    unfold answer
    cases memo.answering cache asked with
    | none => exact iff_of_true rfl fun _ found => nomatch found
    | some stored =>
      exact ⟨fun same _ found => Option.some.inj found ▸ same, fun each => each stored rfl⟩

end

end Memo

end Liteset.Lib
