import Mathlib.Logic.Function.Iterate

/-!
# Search conditions as text

The text of an SQL search condition as a sequence of tokens, with the usual
precedence (`NOT` before `AND` before `OR`), its concrete syntax, and a shift
parser that reads a text back (`parse_tokens`).  Truth is three-valued.

`Disjunction.andThen` is what a reader of `s AND t` gets when the texts `s` and
`t` are put next to each other without parentheses: a top-level `OR` of either
side cuts the conjunction (`andThen_holds`).
-/

set_option autoImplicit false

namespace Liteset.Lib.Condition

/-- `atom` is a piece of text without connectives, `compare` a comparison that
follows its left operand. -/
inductive Token (α σ : Type) where
  | atom (a : α)
  | compare (s : σ)
  | not
  | and
  | or
  | openGroup
  | closeGroup
deriving DecidableEq

mutual
inductive Operand (α σ : Type) where
  | atom (a : α)
  | group (d : Disjunction α σ)
  | compared (o : Operand α σ) (s : σ)

inductive Factor (α σ : Type) where
  | mk (nots : Nat) (o : Operand α σ)

inductive Conjunction (α σ : Type) where
  | one (f : Factor α σ)
  | and (c : Conjunction α σ) (f : Factor α σ)

inductive Disjunction (α σ : Type) where
  | one (c : Conjunction α σ)
  | or (d : Disjunction α σ) (c : Conjunction α σ)
end

variable {α σ : Type}

mutual
def Operand.tokens : Operand α σ → List (Token α σ)
  | .atom a => [.atom a]
  | .group d => .openGroup :: d.tokens ++ [.closeGroup]
  | .compared o s => o.tokens ++ [.compare s]

def Factor.tokens : Factor α σ → List (Token α σ)
  | .mk nots o => List.replicate nots .not ++ o.tokens

def Conjunction.tokens : Conjunction α σ → List (Token α σ)
  | .one f => f.tokens
  | .and c f => c.tokens ++ .and :: f.tokens

def Disjunction.tokens : Disjunction α σ → List (Token α σ)
  | .one c => c.tokens
  | .or d c => d.tokens ++ .or :: c.tokens
end

/-- What has been read inside one pair of parentheses: finished alternatives,
factors of the current one, and the factor that is being read. -/
structure Frame (α σ : Type) where
  alternatives : Option (Disjunction α σ) := none
  factors : Option (Conjunction α σ) := none
  nots : Nat := 0
  operand : Option (Operand α σ) := none

def Frame.conjunction (fr : Frame α σ) : Option (Conjunction α σ) :=
  fr.operand.map fun o =>
    match fr.factors with
    | none => .one (.mk fr.nots o)
    | some c => .and c (.mk fr.nots o)

def Frame.disjunction (fr : Frame α σ) : Option (Disjunction α σ) :=
  fr.conjunction.map fun c =>
    match fr.alternatives with
    | none => .one c
    | some d => .or d c

def Frame.expecting (fr : Frame α σ) : Bool := fr.operand.isNone

def shift : Token α σ → List (Frame α σ) → Option (List (Frame α σ))
  | .atom a, fr :: stack =>
    if fr.expecting then some ({ fr with operand := some (.atom a) } :: stack) else none
  | .compare s, fr :: stack =>
    fr.operand.map fun o => { fr with operand := some (.compared o s) } :: stack
  | .not, fr :: stack =>
    if fr.expecting then some ({ fr with nots := fr.nots + 1 } :: stack) else none
  | .and, fr :: stack =>
    fr.conjunction.map fun c => { alternatives := fr.alternatives, factors := some c } :: stack
  | .or, fr :: stack =>
    fr.disjunction.map fun d => { alternatives := some d } :: stack
  | .openGroup, fr :: stack => if fr.expecting then some ({} :: fr :: stack) else none
  | .closeGroup, fr :: outer :: stack =>
    fr.disjunction.map fun d => { outer with operand := some (.group d) } :: stack
  | _, _ => none

def run : List (Token α σ) → List (Frame α σ) → Option (List (Frame α σ))
  | [], stack => some stack
  | t :: ts, stack => (shift t stack).bind (run ts)

def parse (ts : List (Token α σ)) : Option (Disjunction α σ) :=
  match run ts [{}] with
  | some [fr] => fr.disjunction
  | _ => none

theorem run_append (ts us : List (Token α σ)) (stack : List (Frame α σ)) :
    run (ts ++ us) stack = (run ts stack).bind (run us) := by
  induction ts generalizing stack with
  | nil => rfl
  | cons t ts ih =>
    simp only [List.cons_append, run, Option.bind_assoc]
    cases shift t stack with
    | none => rfl
    | some next => exact ih next

theorem run_nots (alternatives : Option (Disjunction α σ)) (factors : Option (Conjunction α σ))
    (stack : List (Frame α σ)) (start nots : Nat) :
    run (List.replicate nots .not) ({ alternatives, factors, nots := start } :: stack) =
      some ({ alternatives, factors, nots := start + nots } :: stack) := by
  induction nots generalizing start with
  | zero => rfl
  | succ n ih =>
    have next := ih (start + 1)
    rw [Nat.add_right_comm, Nat.add_assoc] at next
    simpa only [List.replicate_succ, run, shift, Frame.expecting, Option.isNone_none, if_true,
      Option.bind_some] using next

def Factor.frame (alternatives : Option (Disjunction α σ))
    (factors : Option (Conjunction α σ)) : Factor α σ → Frame α σ
  | .mk nots o => { alternatives, factors, nots, operand := some o }

def Conjunction.frame (alternatives : Option (Disjunction α σ)) : Conjunction α σ → Frame α σ
  | .one f => f.frame alternatives none
  | .and c f => f.frame alternatives (some c)

def Disjunction.frame : Disjunction α σ → Frame α σ
  | .one c => c.frame none
  | .or d c => c.frame (some d)

@[simp]
theorem Conjunction.conjunction_frame (alternatives : Option (Disjunction α σ))
    (c : Conjunction α σ) : (c.frame alternatives).conjunction = some c := by
  cases c with
  | one f => cases f; rfl
  | and c f => cases f; rfl

@[simp]
theorem Conjunction.alternatives_frame (alternatives : Option (Disjunction α σ))
    (c : Conjunction α σ) : (c.frame alternatives).alternatives = alternatives := by
  cases c with
  | one f => cases f; rfl
  | and c f => cases f; rfl

variable (d : Disjunction α σ)

@[simp]
theorem Disjunction.disjunction_frame : d.frame.disjunction = some d := by
  cases d with
  | one c => simp [Disjunction.frame, Frame.disjunction]
  | or d c => simp [Disjunction.frame, Frame.disjunction]

-- One case for each constructor: reading a text leaves the frame of its syntax on the stack.
mutual
theorem Operand.run_tokens (o : Operand α σ) (alternatives : Option (Disjunction α σ))
    (factors : Option (Conjunction α σ)) (nots : Nat) (stack : List (Frame α σ)) :
    run o.tokens ({ alternatives, factors, nots } :: stack) =
      some ({ alternatives, factors, nots, operand := some o } :: stack) := by
  cases o with
  | atom a => rfl
  | group d =>
    have inner := d.run_tokens ({ alternatives, factors, nots } :: stack)
    simp only [Operand.tokens, List.cons_append, run, shift, Frame.expecting,
      Option.isNone_none, if_true, Option.bind_some, run_append, inner,
      Disjunction.disjunction_frame, Option.map_some]
  | compared o s =>
    have left := o.run_tokens alternatives factors nots stack
    simp only [Operand.tokens, run_append, left, Option.bind_some, run, shift, Option.map_some]

theorem Factor.run_tokens (f : Factor α σ) (alternatives : Option (Disjunction α σ))
    (factors : Option (Conjunction α σ)) (stack : List (Frame α σ)) :
    run f.tokens ({ alternatives, factors } :: stack) =
      some (f.frame alternatives factors :: stack) := by
  cases f with
  | mk nots o =>
    have operand := o.run_tokens alternatives factors nots stack
    simp only [Factor.tokens, run_append, run_nots, Nat.zero_add, Option.bind_some, operand,
      Factor.frame]

theorem Conjunction.run_tokens (c : Conjunction α σ) (alternatives : Option (Disjunction α σ))
    (stack : List (Frame α σ)) :
    run c.tokens ({ alternatives } :: stack) = some (c.frame alternatives :: stack) := by
  cases c with
  | one f => exact f.run_tokens alternatives none stack
  | and c f =>
    have left := c.run_tokens alternatives stack
    have right := f.run_tokens alternatives (some c) stack
    simp only [Conjunction.tokens, run_append, left, Option.bind_some, run, shift,
      Conjunction.conjunction_frame, Option.map_some, Conjunction.alternatives_frame, right]
    rfl

theorem Disjunction.run_tokens (d : Disjunction α σ) (stack : List (Frame α σ)) :
    run d.tokens ({} :: stack) = some (d.frame :: stack) := by
  cases d with
  | one c => exact c.run_tokens none stack
  | or d c =>
    have left := d.run_tokens stack
    have right := c.run_tokens (some d) stack
    simp only [Disjunction.tokens, run_append, left, Option.bind_some, run, shift,
      Disjunction.disjunction_frame, Option.map_some, right]
    rfl
end

theorem parse_tokens : parse d.tokens = some d := by
  simp [parse, d.run_tokens]

theorem tokens_injective {d e : Disjunction α σ} (same : d.tokens = e.tokens) : d = e := by
  have read := congrArg parse same
  simpa only [parse_tokens, Option.some.injEq] using read

/-- What a row makes of the atoms and of the comparisons; `none` is unknown. -/
structure Valuation (α σ : Type) where
  atom : α → Option Bool
  compared : Operand α σ → σ → Option Bool

def not3 : Option Bool → Option Bool := Option.map (!·)

def and3 : Option Bool → Option Bool → Option Bool
  | some false, _ => some false
  | _, some false => some false
  | some true, some true => some true
  | _, _ => none

def or3 : Option Bool → Option Bool → Option Bool
  | some true, _ => some true
  | _, some true => some true
  | some false, some false => some false
  | _, _ => none

theorem and3_eq_true (a b : Option Bool) : and3 a b = some true ↔
    a = some true ∧ b = some true := by
  match a, b with
  | none, none | none, some true | none, some false => decide
  | some true, none | some true, some true | some true, some false => decide
  | some false, none | some false, some true | some false, some false => decide

theorem or3_eq_true (a b : Option Bool) : or3 a b = some true ↔ a = some true ∨ b = some true := by
  match a, b with
  | none, none | none, some true | none, some false => decide
  | some true, none | some true, some true | some true, some false => decide
  | some false, none | some false, some true | some false, some false => decide

theorem or3_eq_false (a b : Option Bool) : or3 a b = some false ↔
    a = some false ∧ b = some false := by
  match a, b with
  | none, none | none, some true | none, some false => decide
  | some true, none | some true, some true | some true, some false => decide
  | some false, none | some false, some true | some false, some false => decide

mutual
def Operand.truth (v : Valuation α σ) : Operand α σ → Option Bool
  | .atom a => v.atom a
  | .group d => d.truth v
  | .compared o s => v.compared o s

def Factor.truth (v : Valuation α σ) : Factor α σ → Option Bool
  | .mk nots o => not3^[nots] (o.truth v)

def Conjunction.truth (v : Valuation α σ) : Conjunction α σ → Option Bool
  | .one f => f.truth v
  | .and c f => and3 (c.truth v) (f.truth v)

def Disjunction.truth (v : Valuation α σ) : Disjunction α σ → Option Bool
  | .one c => c.truth v
  | .or d c => or3 (d.truth v) (c.truth v)
end

def Conjunction.Holds (v : Valuation α σ) (c : Conjunction α σ) : Prop := c.truth v = some true

def Disjunction.Holds (v : Valuation α σ) (d : Disjunction α σ) : Prop := d.truth v = some true

instance (v : Valuation α σ) (d : Disjunction α σ) : Decidable (d.Holds v) :=
  inferInstanceAs (Decidable (_ = _))

@[simp]
theorem Disjunction.holds_or (v : Valuation α σ) (d : Disjunction α σ) (c : Conjunction α σ) :
    (Disjunction.or d c).Holds v ↔ d.Holds v ∨ c.Holds v := by
  simp only [Disjunction.Holds, Conjunction.Holds, Disjunction.truth, or3_eq_true]

@[simp]
theorem Disjunction.holds_one (v : Valuation α σ) (c : Conjunction α σ) :
    (Disjunction.one c).Holds v ↔ c.Holds v := by
  simp only [Disjunction.Holds, Conjunction.Holds, Disjunction.truth]

def Disjunction.grouped (d : Disjunction α σ) : Disjunction α σ :=
  .one (.one (.mk 0 (.group d)))

/-- `NOT` and the text in parentheses. -/
def Disjunction.negated (d : Disjunction α σ) : Disjunction α σ :=
  .one (.one (.mk 1 (.group d)))

theorem Disjunction.tokens_grouped :
    d.grouped.tokens = .openGroup :: d.tokens ++ [.closeGroup] := rfl

theorem Disjunction.tokens_negated :
    d.negated.tokens = .not :: .openGroup :: d.tokens ++ [.closeGroup] := rfl

@[simp]
theorem Disjunction.holds_grouped (v : Valuation α σ) (d : Disjunction α σ) :
    d.grouped.Holds v ↔ d.Holds v := Iff.rfl

theorem Disjunction.holds_negated (v : Valuation α σ) (d : Disjunction α σ) :
    d.negated.Holds v ↔ d.truth v = some false := by
  change not3 (d.truth v) = some true ↔ _
  cases d.truth v with
  | none => simp [not3]
  | some b => cases b <;> simp [not3]

theorem Disjunction.not_holds_negated {v : Valuation α σ} {d : Disjunction α σ}
    (holds : d.Holds v) : ¬ d.negated.Holds v := by
  rw [Disjunction.holds_negated, show d.truth v = some true from holds]
  simp

def Disjunction.compareLast (s : σ) : Disjunction α σ → Disjunction α σ
  | .one (.one (.mk nots o)) => .one (.one (.mk nots (.compared o s)))
  | .one (.and c (.mk nots o)) => .one (.and c (.mk nots (.compared o s)))
  | .or d (.one (.mk nots o)) => .or d (.one (.mk nots (.compared o s)))
  | .or d (.and c (.mk nots o)) => .or d (.and c (.mk nots (.compared o s)))

theorem Disjunction.tokens_compareLast (s : σ) (d : Disjunction α σ) :
    (d.compareLast s).tokens = d.tokens ++ [.compare s] := by
  fun_cases Disjunction.compareLast s d <;>
    simp [Disjunction.tokens, Conjunction.tokens, Factor.tokens, Operand.tokens]

def Conjunction.append (c : Conjunction α σ) : Conjunction α σ → Conjunction α σ
  | .one f => .and c f
  | .and d f => .and (c.append d) f

/-- The text `d OR e`. -/
def Disjunction.orElse (d : Disjunction α σ) : Disjunction α σ → Disjunction α σ
  | .one c => .or d c
  | .or e c => .or (d.orElse e) c

def Disjunction.extend (c : Conjunction α σ) : Disjunction α σ → Disjunction α σ
  | .one l => .one (l.append c)
  | .or d l => .or d (l.append c)

/-- The text `d AND e`. -/
def Disjunction.andThen (d : Disjunction α σ) : Disjunction α σ → Disjunction α σ
  | .one c => d.extend c
  | .or e c => .or (d.andThen e) c

theorem Conjunction.tokens_append (c d : Conjunction α σ) :
    (c.append d).tokens = c.tokens ++ .and :: d.tokens := by
  match d with
  | .one f => rfl
  | .and d f => simp [Conjunction.append, Conjunction.tokens, Conjunction.tokens_append c d]

theorem Disjunction.tokens_orElse (d e : Disjunction α σ) :
    (d.orElse e).tokens = d.tokens ++ .or :: e.tokens := by
  match e with
  | .one c => rfl
  | .or e c => simp [Disjunction.orElse, Disjunction.tokens, Disjunction.tokens_orElse d e]

theorem Disjunction.tokens_extend (c : Conjunction α σ) (d : Disjunction α σ) :
    (d.extend c).tokens = d.tokens ++ .and :: c.tokens := by
  cases d <;> simp [Disjunction.extend, Disjunction.tokens, Conjunction.tokens_append]

theorem Disjunction.tokens_andThen (d e : Disjunction α σ) :
    (d.andThen e).tokens = d.tokens ++ .and :: e.tokens := by
  match e with
  | .one c => exact Disjunction.tokens_extend c d
  | .or e c => simp [Disjunction.andThen, Disjunction.tokens, Disjunction.tokens_andThen d e]

theorem Disjunction.andThen_assoc (d e f : Disjunction α σ) :
    (d.andThen e).andThen f = d.andThen (e.andThen f) := by
  apply tokens_injective
  simp [Disjunction.tokens_andThen]

/-! ## Alternatives

`first` and `last` are the outer alternatives of a text, `late` those after the
first one and `early` those before the last one. -/

def Disjunction.alternatives : Disjunction α σ → List (Conjunction α σ)
  | .one c => [c]
  | .or d c => d.alternatives ++ [c]

def Disjunction.first : Disjunction α σ → Conjunction α σ
  | .one c => c
  | .or d _ => d.first

def Disjunction.late : Disjunction α σ → List (Conjunction α σ)
  | .one _ => []
  | .or d c => d.late ++ [c]

def Disjunction.last : Disjunction α σ → Conjunction α σ
  | .one c => c
  | .or _ c => c

def Disjunction.early : Disjunction α σ → List (Conjunction α σ)
  | .one _ => []
  | .or d _ => d.alternatives

def SomeHolds (v : Valuation α σ) (cs : List (Conjunction α σ)) : Prop := ∃ c ∈ cs, c.Holds v

@[simp]
theorem someHolds_nil (v : Valuation α σ) : ¬ SomeHolds v [] := by
  simp [SomeHolds]

@[simp]
theorem someHolds_append (v : Valuation α σ) (cs ds : List (Conjunction α σ)) :
    SomeHolds v (cs ++ ds) ↔ SomeHolds v cs ∨ SomeHolds v ds := by
  simp only [SomeHolds, List.mem_append, or_and_right, exists_or]

@[simp]
theorem someHolds_singleton (v : Valuation α σ) (c : Conjunction α σ) : SomeHolds v [c] ↔
    c.Holds v := by
  simp [SomeHolds]

theorem Disjunction.holds_iff_alternatives (v : Valuation α σ) (d : Disjunction α σ) :
    d.Holds v ↔ SomeHolds v d.alternatives := by
  match d with
  | .one c => simp [Disjunction.alternatives]
  | .or d c => simp [Disjunction.alternatives, Disjunction.holds_iff_alternatives v d]

theorem Disjunction.holds_iff_first (v : Valuation α σ) (d : Disjunction α σ) :
    d.Holds v ↔ d.first.Holds v ∨ SomeHolds v d.late := by
  match d with
  | .one c => simp [Disjunction.first, Disjunction.late]
  | .or d c =>
    simp [Disjunction.first, Disjunction.late, Disjunction.holds_iff_first v d, or_assoc]

theorem Disjunction.holds_iff_last (v : Valuation α σ) (d : Disjunction α σ) :
    d.Holds v ↔ SomeHolds v d.early ∨ d.last.Holds v := by
  cases d with
  | one c => simp [Disjunction.early, Disjunction.last]
  | or d c =>
    simp [Disjunction.early, Disjunction.last, ← Disjunction.holds_iff_alternatives]

theorem Disjunction.holds_orElse (v : Valuation α σ) (d e : Disjunction α σ) :
    (d.orElse e).Holds v ↔ d.Holds v ∨ e.Holds v := by
  match e with
  | .one c => simp [Disjunction.orElse]
  | .or e c => simp [Disjunction.orElse, Disjunction.holds_orElse v d e, or_assoc]

theorem Disjunction.orElse_eq_false (v : Valuation α σ) (d e : Disjunction α σ) :
    (d.orElse e).truth v = some false ↔ d.truth v = some false ∧ e.truth v = some false := by
  match e with
  | .one c => exact or3_eq_false _ _
  | .or e c =>
    simp only [Disjunction.orElse, Disjunction.truth, or3_eq_false, and_assoc,
      Disjunction.orElse_eq_false v d e]

theorem Conjunction.holds_append (v : Valuation α σ) (c d : Conjunction α σ) :
    (c.append d).Holds v ↔ c.Holds v ∧ d.Holds v := by
  match d with
  | .one f => simp only [Conjunction.append, Conjunction.Holds, Conjunction.truth, and3_eq_true]
  | .and d f =>
    have ih := Conjunction.holds_append v c d
    simp only [Conjunction.Holds] at ih
    simp only [Conjunction.append, Conjunction.Holds, Conjunction.truth, and3_eq_true, ih,
      and_assoc]

theorem Disjunction.holds_extend (v : Valuation α σ) (c : Conjunction α σ)
    (d : Disjunction α σ) : (d.extend c).Holds v ↔ SomeHolds v d.early ∨
    (d.last.Holds v ∧ c.Holds v) := by
  cases d with
  | one l => simp [Disjunction.extend, Disjunction.early, Disjunction.last,
      Conjunction.holds_append]
  | or d l => simp [Disjunction.extend, Disjunction.early, Disjunction.last,
      Conjunction.holds_append, ← Disjunction.holds_iff_alternatives]

/-- Reading `d AND e`: the alternatives of `d` before its last one and those of
`e` after its first one stand alone. -/
theorem Disjunction.andThen_holds (v : Valuation α σ) (d e : Disjunction α σ) :
    (d.andThen e).Holds v ↔
      SomeHolds v d.early ∨ (d.last.Holds v ∧ e.first.Holds v) ∨ SomeHolds v e.late := by
  match e with
  | .one c => simp [Disjunction.andThen, Disjunction.first, Disjunction.late,
      Disjunction.holds_extend]
  | .or e c => simp [Disjunction.andThen, Disjunction.first, Disjunction.late,
      Disjunction.andThen_holds v d e, or_assoc]

/-- A text without a top-level `OR`. -/
def Disjunction.Single (d : Disjunction α σ) : Prop := d.late = []

instance (d : Disjunction α σ) : Decidable d.Single :=
  match d with
  | .one _ => isTrue rfl
  | .or _ _ => isFalse (by simp [Disjunction.Single, Disjunction.late])

theorem Disjunction.Single.exists_one {d : Disjunction α σ} (single : d.Single) :
    ∃ c, d = .one c := by
  cases d with
  | one c => exact ⟨c, rfl⟩
  | or d c => simp [Disjunction.Single, Disjunction.late] at single

def conjoinText : List (List (Token α σ)) → List (Token α σ)
  | [] => []
  | [t] => t
  | t :: u :: ts => t ++ .and :: conjoinText (u :: ts)

def conjoin : List (Disjunction α σ) → Option (Disjunction α σ)
  | [] => none
  | d :: ds => some ((conjoin ds).elim d d.andThen)

theorem parse_conjoinText (ds : List (Disjunction α σ)) :
    parse (conjoinText ((d :: ds).map Disjunction.tokens)) = conjoin (d :: ds) := by
  suffices same : ∃ e, conjoin (d :: ds) = some e ∧
      e.tokens = conjoinText ((d :: ds).map Disjunction.tokens) by
    obtain ⟨e, joined, tokens⟩ := same
    rw [← tokens, parse_tokens, joined]
  induction ds generalizing d with
  | nil => exact ⟨d, rfl, rfl⟩
  | cons next ds ih =>
    obtain ⟨e, joined, tokens⟩ := ih next
    refine ⟨d.andThen e, by rw [conjoin, joined]; rfl, ?_⟩
    rw [Disjunction.tokens_andThen, tokens]
    rfl

def merge : Option (Disjunction α σ) → Option (Disjunction α σ) → Option (Disjunction α σ)
  | none, e => e
  | some d, none => some d
  | some d, some e => some (d.andThen e)

theorem conjoin_append (ds es : List (Disjunction α σ)) :
    conjoin (ds ++ es) = merge (conjoin ds) (conjoin es) := by
  induction ds with
  | nil => rfl
  | cons d ds ih =>
    rw [List.cons_append, conjoin, ih, conjoin]
    cases conjoin ds with
    | none => cases conjoin es <;> rfl
    | some joined =>
      cases conjoin es with
      | none => rfl
      | some e => exact congrArg some (Disjunction.andThen_assoc d joined e).symm

section Parts
variable (v : Valuation α σ)

/-- A missing condition is true. -/
def Holds (d : Option (Disjunction α σ)) : Prop := ∀ e ∈ d, e.Holds v

def EarlyHolds (d : Option (Disjunction α σ)) : Prop := ∃ e ∈ d, SomeHolds v e.early

def LastHolds (d : Option (Disjunction α σ)) : Prop := ∀ e ∈ d, e.last.Holds v

def FirstHolds (d : Option (Disjunction α σ)) : Prop := ∀ e ∈ d, e.first.Holds v

def LateHolds (d : Option (Disjunction α σ)) : Prop := ∃ e ∈ d, SomeHolds v e.late

theorem holds_merge (d e : Option (Disjunction α σ)) :
    Holds v (merge d e) ↔ EarlyHolds v d ∨ (LastHolds v d ∧ FirstHolds v e) ∨ LateHolds v e := by
  cases d with
  | none =>
    cases e with
    | none => simp [merge, Holds, EarlyHolds, LastHolds, FirstHolds, LateHolds]
    | some e =>
      simp [merge, Holds, EarlyHolds, LastHolds, FirstHolds, LateHolds,
        Disjunction.holds_iff_first]
  | some d =>
    cases e with
    | none =>
      simp [merge, Holds, EarlyHolds, LastHolds, FirstHolds, LateHolds,
        Disjunction.holds_iff_last]
    | some e =>
      simp [merge, Holds, EarlyHolds, LastHolds, FirstHolds, LateHolds,
        Disjunction.andThen_holds]

end Parts

theorem Disjunction.first_one_andThen (c : Conjunction α σ) (e : Disjunction α σ) :
    ((Disjunction.one c).andThen e).first = c.append e.first := by
  match e with
  | .one _ => rfl
  | .or e _ => exact Disjunction.first_one_andThen c e

theorem Disjunction.late_one_andThen (c : Conjunction α σ) (e : Disjunction α σ) :
    ((Disjunction.one c).andThen e).late = e.late := by
  match e with
  | .one _ => rfl
  | .or e d => exact congrArg (· ++ [d]) (Disjunction.late_one_andThen c e)

section SingleTexts
variable (v : Valuation α σ)

/-- Texts without a top-level `OR` in front of a conjunction: all of them stay
next to its first alternative. -/
theorem single_prepend {singles : List (Disjunction α σ)} (single : ∀ d ∈ singles, d.Single)
    (ds : List (Disjunction α σ)) :
    (FirstHolds v (conjoin (singles ++ ds)) ↔
      (∀ d ∈ singles, d.Holds v) ∧ FirstHolds v (conjoin ds)) ∧
    (LateHolds v (conjoin (singles ++ ds)) ↔ LateHolds v (conjoin ds)) := by
  induction singles with
  | nil => simp
  | cons d singles ih =>
    obtain ⟨first, late⟩ := ih fun e member => single e (List.mem_cons_of_mem d member)
    obtain ⟨c, rfl⟩ := (single d List.mem_cons_self).exists_one
    rw [List.forall_mem_cons, and_assoc, ← first, ← late, List.cons_append, conjoin]
    cases conjoin (singles ++ ds) with
    | none =>
      simp [FirstHolds, LateHolds, Disjunction.first, Disjunction.late]
    | some e =>
      simp [FirstHolds, LateHolds, Disjunction.first_one_andThen,
        Disjunction.late_one_andThen, Conjunction.holds_append]

/-- A conjunction with texts without a top-level `OR` in the middle. -/
theorem holds_conjoin_single (before after : List (Disjunction α σ))
    {singles : List (Disjunction α σ)} (single : ∀ d ∈ singles, d.Single) :
    Holds v (conjoin (before ++ (singles ++ after))) ↔
      EarlyHolds v (conjoin before) ∨
        (LastHolds v (conjoin before) ∧ (∀ d ∈ singles, d.Holds v) ∧
          FirstHolds v (conjoin after)) ∨ LateHolds v (conjoin after) := by
  obtain ⟨first, late⟩ := single_prepend v single after
  rw [conjoin_append, holds_merge, first, late]

end SingleTexts

end Liteset.Lib.Condition
