import Mathlib.Data.List.Basic

/-!
# Parsing expressions

Ordered choice, sequence and option over tokens and named rules, read from left to right with no
backtracking into a choice that has succeeded.  What a token reads is a parameter.
-/

set_option autoImplicit false

namespace Liteset.Lib.Peg

inductive Expr (Token Rule : Type) where
  | token (token : Token)
  | rule (rule : Rule)
  | seq (parts : List (Expr Token Rule))
  | first (options : List (Expr Token Rule))
  | optional (part : Expr Token Rule)

variable {Token Rule Input : Type} (read : Token → Input → Option Input)
    (rules : Rule → Expr Token Rule)

/-- The outcome of an expression at an input: what is left of it, or `none` where it fails. -/
inductive Parses : Expr Token Rule → Input → Option Input → Prop where
  | token {token input outcome} (reading : read token input = outcome) :
      Parses (.token token) input outcome
  | rule {rule input outcome} (body : Parses (rules rule) input outcome) :
      Parses (.rule rule) input outcome
  | done {input} : Parses (.seq []) input (some input)
  | next {part parts input rest outcome} (here : Parses part input (some rest))
      (later : Parses (.seq parts) rest outcome) :
      Parses (.seq (part :: parts)) input outcome
  | stop {part parts input} (here : Parses part input none) :
      Parses (.seq (part :: parts)) input none
  | exhausted {input} : Parses (.first []) input none
  | chosen {option options input rest} (here : Parses option input (some rest)) :
      Parses (.first (option :: options)) input (some rest)
  | passed {option options input outcome} (here : Parses option input none)
      (later : Parses (.first options) input outcome) :
      Parses (.first (option :: options)) input outcome
  | present {part input rest} (here : Parses part input (some rest)) :
      Parses (.optional part) input (some rest)
  | absent {part input} (here : Parses part input none) : Parses (.optional part) input (some input)

/-- `Parses`, with at most `fuel` nested expressions; `none` when that is not enough. -/
def run : Nat → Expr Token Rule → Input → Option (Option Input)
  | 0, _, _ => none
  | _ + 1, .token token, input => some (read token input)
  | fuel + 1, .rule rule, input => run fuel (rules rule) input
  | _ + 1, .seq [], input => some (some input)
  | fuel + 1, .seq (part :: parts), input =>
    match run fuel part input with
    | some (some rest) => run fuel (.seq parts) rest
    | failed => failed
  | _ + 1, .first [], _ => some none
  | fuel + 1, .first (option :: options), input =>
    match run fuel option input with
    | some none => run fuel (.first options) input
    | chosen => chosen
  | fuel + 1, .optional part, input =>
    match run fuel part input with
    | some none => some (some input)
    | present => present

variable {read rules}

theorem run_sound :
    ∀ {fuel : Nat} {expr : Expr Token Rule} {input : Input} {outcome : Option Input},
    run read rules fuel expr input = some outcome → Parses read rules expr input outcome := by
  intro fuel
  induction fuel with
  | zero =>
    intro expr input outcome result
    cases expr <;> cases result
  | succ fuel ih =>
    intro expr input outcome result
    match expr with
    | .token token => exact .token (Option.some.inj result)
    | .rule rule => exact .rule (ih result)
    | .seq [] =>
      cases result
      exact .done
    | .seq (part :: parts) =>
      rw [run] at result
      split at result
      next rest here => exact .next (ih here) (ih result)
      next failed =>
          cases outcome with
          | none => exact .stop (ih result)
          | some rest => exact absurd result (failed rest)
    | .first [] =>
      cases result
      exact .exhausted
    | .first (option :: options) =>
      rw [run] at result
      split at result
      next here => exact .passed (ih here) (ih result)
      next other =>
          cases outcome with
          | none => exact absurd result other
          | some rest => exact .chosen (ih result)
    | .optional part =>
      rw [run] at result
      split at result
      next here =>
          cases result
          exact .absent (ih here)
      next other =>
          cases outcome with
          | none => exact absurd result other
          | some rest => exact .present (ih result)

theorem Parses.unique {expr : Expr Token Rule} {input : Input} {outcome other : Option Input}
    (parse : Parses read rules expr input outcome) (parse' : Parses read rules expr input other) :
    outcome = other := by
  induction parse generalizing other with
  | token reading =>
    cases parse' with
    | token reading' => exact reading.symm.trans reading'
  | rule _ ih =>
    cases parse' with
    | rule body => exact ih body
  | done =>
    cases parse'
    rfl
  | next _ _ ihHere ihLater =>
    cases parse' with
    | next here later =>
      cases ihHere here
      exact ihLater later
    | stop here => cases ihHere here
  | stop _ ih =>
    cases parse' with
    | next here _ => cases ih here
    | stop _ => rfl
  | exhausted =>
    cases parse'
    rfl
  | chosen _ ih =>
    cases parse' with
    | chosen here => exact ih here
    | passed here _ => cases ih here
  | passed _ _ ihHere ihLater =>
    cases parse' with
    | chosen here => cases ihHere here
    | passed _ later => exact ihLater later
  | present _ ih =>
    cases parse' with
    | present here => exact ih here
    | absent here => cases ih here
  | absent _ ih =>
    cases parse' with
    | present here => cases ih here
    | absent _ => rfl

theorem Parses.first_of {options : List (Expr Token Rule)} {option : Expr Token Rule}
    {input : Input} {outcome : Option Input}
    (here : Parses read rules option input outcome) (member : option ∈ options)
    (others : ∀ other ∈ options, other ≠ option → Parses read rules other input none) :
    Parses read rules (.first options) input outcome := by
  have fails {rest : List (Expr Token Rule)}
    (all : ∀ other ∈ rest, Parses read rules other input none) :
      Parses read rules (.first rest) input none := by
    induction rest with
    | nil => exact .exhausted
    | cons head rest ih =>
      obtain ⟨first, later⟩ := List.forall_mem_cons.mp all
      exact .passed first (ih later)
  cases outcome with
  | none =>
    refine fails fun other isOption => ?_
    by_cases same : other = option
    · exact same ▸ here
    · exact others other isOption same
  | some rest =>
    induction options with
    | nil => cases member
    | cons head options ih =>
      by_cases same : head = option
      · exact same ▸ .chosen here
      · have later := (List.mem_cons.mp member).resolve_left fun isHead => same isHead.symm
        exact .passed (others head List.mem_cons_self same)
          (ih later fun other isOption => others other (List.mem_cons_of_mem _ isOption))

inductive Derives {Letter : Type} (lexeme : Token → List Letter → Prop)
    (rules : Rule → Expr Token Rule) :
    Expr Token Rule → List Letter → Prop where
  | token {token text} (spelled : lexeme token text) : Derives lexeme rules (.token token) text
  | rule {rule text} (body : Derives lexeme rules (rules rule) text) :
      Derives lexeme rules (.rule rule) text
  | done : Derives lexeme rules (.seq []) []
  | next {part parts text rest} (here : Derives lexeme rules part text)
      (later : Derives lexeme rules (.seq parts) rest) :
      Derives lexeme rules (.seq (part :: parts)) (text ++ rest)
  | chosen {option options text} (member : option ∈ options)
      (here : Derives lexeme rules option text) :
      Derives lexeme rules (.first options) text
  | present {part text} (here : Derives lexeme rules part text) :
      Derives lexeme rules (.optional part) text
  | absent {part} : Derives lexeme rules (.optional part) []

/-- What an expression reads is a text of it. -/
theorem Parses.derives {Letter : Type} {read : Token → List Letter → Option (List Letter)}
    {lexeme : Token → List Letter → Prop}
    (reads : ∀ token input rest, read token input = some rest →
      ∃ text, input = text ++ rest ∧ lexeme token text)
    {expr : Expr Token Rule} {input : List Letter} {outcome : Option (List Letter)}
    (parse : Parses read rules expr input outcome) :
    ∀ rest, outcome = some rest →
    ∃ text, input = text ++ rest ∧ Derives lexeme rules expr text := by
  induction parse with
  | token reading =>
    intro rest accepted
    obtain ⟨text, shape, spelled⟩ := reads _ _ rest (reading.trans accepted)
    exact ⟨text, shape, .token spelled⟩
  | rule _ ih =>
    intro rest accepted
    obtain ⟨text, shape, body⟩ := ih rest accepted
    exact ⟨text, shape, .rule body⟩
  | done =>
    rintro rest ⟨⟩
    exact ⟨[], rfl, .done⟩
  | next _ _ ihHere ihLater =>
    intro rest accepted
    obtain ⟨text, rfl, here⟩ := ihHere _ rfl
    obtain ⟨text', rfl, later⟩ := ihLater rest accepted
    exact ⟨text ++ text', (List.append_assoc _ _ _).symm, .next here later⟩
  | stop => rintro rest ⟨⟩
  | exhausted => rintro rest ⟨⟩
  | chosen _ ih =>
    intro rest accepted
    obtain ⟨text, shape, here⟩ := ih rest accepted
    exact ⟨text, shape, .chosen List.mem_cons_self here⟩
  | passed _ _ _ ihLater =>
    intro rest accepted
    obtain ⟨text, shape, later⟩ := ihLater rest accepted
    cases later with
    | chosen member here => exact ⟨text, shape, .chosen (List.mem_cons_of_mem _ member) here⟩
  | present _ ih =>
    intro rest accepted
    obtain ⟨text, shape, here⟩ := ih rest accepted
    exact ⟨text, shape, .present here⟩
  | absent =>
    rintro rest ⟨⟩
    exact ⟨[], rfl, .absent⟩

end Liteset.Lib.Peg
