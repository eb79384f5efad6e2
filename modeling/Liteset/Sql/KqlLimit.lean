import Mathlib.Data.List.Chain
import Mathlib.Data.List.TakeWhile
import Liteset.Sql.KqlSplit

/-!
# The limit of a KQL statement

`get_limit_value` and `set_limit_value` of `KustoKQLStatement`, and for which statements
setting a limit changes nothing but the limit.
-/

set_option autoImplicit false

namespace Liteset.Sql.Kql

open Lib List

inductive LimitMethod where
  | forceLimit
  | wrapSql
  | fetchMany
deriving DecidableEq, Repr

def isLimitWord (token : Token) : Bool :=
  token.type ≠ .string &&
    (token.text.map Char.toLower = "take".toList || token.text.map Char.toLower = "limit".toList)

/-- `none` where `int` raises an error; the tokens are without the white space. -/
def limitOperand : List Token → Option (Option Nat)
  | [] => some none
  | token :: tokens =>
    if isLimitWord token then
      match tokens with
      | next :: _ =>
        if next.type = .number then (PyText.int (String.ofList next.text)).map some else some none
      | [] => some none
    else limitOperand tokens

def isMeaningful (token : Token) : Bool := token.type ≠ .whitespace

def getLimitValue (parsed : Text) : Option (Option Nat) :=
  limitOperand ((tokenizeKql parsed).filter isMeaningful)

def number (limit : Nat) : Token := ⟨.number, Nat.toDigits 10 limit⟩

def space : Token := ⟨.whitespace, [' ']⟩

def replaceNumber (limit : Nat) : Bool → List Token → Option (List Token)
  | _, [] => none
  | found, token :: tokens =>
    if (found || isLimitWord token) && token.type = .number then some (number limit :: tokens)
    else (replaceNumber limit (found || isLimitWord token) tokens).map (token :: ·)

/-- The statement after `set_limit_value`, which raises an error for the other methods. -/
def setLimitValue (parsed : Text) (limit : Nat) (method : LimitMethod) : Option Text :=
  if method ≠ .forceLimit then none
  else some (concat ((replaceNumber limit false (tokenizeKql parsed)).getD
    (tokenizeKql parsed ++ [space, ⟨.word, ['|']⟩, space, ⟨.word, "take".toList⟩, space,
      number limit])))

/-- A text that `strip` leaves as it is at the end: that of a statement, before and
after a limit is set. -/
def Stripped (parsed : Text) : Prop := ∀ c, parsed.getLast? = some c → PyText.isspace c = false

/-! ## What is meant -/

def pipe : Token := ⟨.other, ['|']⟩

def StageAfter (front : List Token) : Prop :=
  ∀ token, (front.filter isMeaningful).getLast? = some token → token = pipe

structure OperandAt (tokens front : List Token) (word : Token) (gap : List Token) (digits : Text)
    (back : List Token) : Prop where
  split : tokens = front ++ word :: (gap ++ ⟨.number, digits⟩ :: back)
  limitWord : isLimitWord word = true
  stage : StageAfter front
  blank : ∀ token ∈ gap, token.type = .whitespace

def OnlyLimited (before after : List Token) (limit : Nat) : Prop :=
  (∃ front word gap digits back, OperandAt before front word gap digits back ∧
    after = front ++ word :: (gap ++ number limit :: back)) ∨
  after = before ++ [space, pipe, space, ⟨.word, "take".toList⟩, space, number limit]

/-- `set_limit_value` and `get_limit_value` do what they are for, for a limit that `str` writes. -/
def Limits (parsed : Text) : Prop :=
  ∀ limit, (Nat.toDigits 10 limit).length ≤ 4300 →
    ∃ after, setLimitValue parsed limit .forceLimit = some after ∧
    getLimitValue after = some (some limit) ∧ concat (tokenizeKql parsed) = parsed ∧
    OnlyLimited (tokenizeKql parsed) (tokenizeKql after) limit

/-- The first limit word starts a stage, and a number stands apart after it. -/
def Operand (tokens : List Token) : Prop :=
  ∃ front word gap digits back, OperandAt tokens front word gap digits back ∧
    (∀ token ∈ front, isLimitWord token = false) ∧
    gap ≠ [] ∧ ∀ c, (concat back).head? = some c → isDecimal c = false

/-! ## Classified text -/

theorem classifyFrom_eq (text : Text) : ∀ (first : Char) (run : Text), classifyFrom first run text =
    ⟨typeOf first, first :: (run ++ text.takeWhile (continues first))⟩ ::
      classifyNonStringKql (text.dropWhile (continues first)) := by
  induction text with
  | nil => exact fun first run => by simp [classifyFrom, classifyNonStringKql]
  | cons c text ih =>
    intro first run
    rw [classifyFrom, takeWhile_cons, dropWhile_cons]
    split
    · rw [ih, append_assoc, singleton_append]
    · rw [append_nil]
      rfl

theorem classify_cons (c : Char) (text : Text) : classifyNonStringKql (c :: text) =
    ⟨typeOf c, c :: text.takeWhile (continues c)⟩ :: classifyNonStringKql
      (text.dropWhile (continues c)) :=
  classifyFrom_eq text c []

def EndsBefore (token : Token) (text : Text) : Prop :=
  ∀ first c, token.text.head? = some first → text.head? = some c → continues first c = false

theorem span_append {α : Type} {p : α → Bool} {v : List α} (u : List α)
    (stop : ∀ d, v.head? = some d → u.dropWhile p = [] → p d = false) :
    (u ++ v).takeWhile p = u.takeWhile p ∧ (u ++ v).dropWhile p = u.dropWhile p ++ v := by
  induction u with
  | nil =>
    cases v with
    | nil => exact ⟨rfl, rfl⟩
    | cons d v => simp [stop d rfl rfl]
  | cons c u ih =>
    by_cases more : p c = true
    · obtain ⟨taken, dropped⟩ := ih fun d isHead none => stop d isHead (by simpa [more] using none)
      exact ⟨by simp [more, taken], by simp [more, dropped]⟩
    · simp [more]

theorem classify_append (front : List Token) : ∀ {u v : Text}, classifyNonStringKql u = front →
    (∀ token, front.getLast? = some token → EndsBefore token v) →
      classifyNonStringKql (u ++ v) = front ++ classifyNonStringKql v := by
  induction front with
  | nil =>
    intro u v isFront _
    cases u with
    | nil => rfl
    | cons c u => rw [classify_cons] at isFront; cases isFront
  | cons token front ih =>
    intro u v isFront last
    cases u with
    | nil => cases isFront
    | cons c u =>
      rw [classify_cons] at isFront
      obtain ⟨rfl, rest⟩ := List.cons.inj isFront
      obtain ⟨taken, dropped⟩ := span_append (p := continues c) (v := v) u fun d isHead none => by
        rw [none] at rest
        exact last _ (by rw [← rest]; rfl) c d rfl isHead
      rw [cons_append, classify_cons, taken, dropped, cons_append,
        ih rest fun token isLast => last token (by simp [getLast?_cons, isLast])]

theorem classify_split (front : List Token) : ∀ {u v : Text} {back : List Token},
    classifyNonStringKql (u ++ v) = front ++ back → concat front = u →
      classifyNonStringKql u = front ∧ classifyNonStringKql v = back := by
  induction front with
  | nil =>
    rintro u v back same rfl
    exact ⟨rfl, same⟩
  | cons token front ih =>
    rintro u v back same rfl
    generalize whole : concat (token :: front) ++ v = text at same
    cases text with
    | nil => cases same
    | cons c text =>
      rw [classify_cons, cons_append] at same
      obtain ⟨rfl, rest⟩ := List.cons.inj same
      rw [concat_cons, cons_append, cons_append, append_assoc] at whole
      have parts := (List.cons.inj whole).2
      have dropped : text.dropWhile (continues c) = concat front ++ v := by
        have again := parts.trans (takeWhile_append_dropWhile (p := continues c)).symm
        exact (append_cancel_left again).symm
      rw [dropped] at rest
      obtain ⟨isFront, isBack⟩ := ih rest rfl
      refine ⟨?_, isBack⟩
      have stop : ∀ d, (concat front).head? = some d →
        (text.takeWhile (continues c)).dropWhile (continues c) = [] →
          continues c d = false := by
        intro d isHead _
        have first : (text.dropWhile (continues c)).head? = some d := by
          rw [dropped, head?_append, isHead]
          rfl
        have stops := head?_dropWhile_not (continues c) text
        rwa [first] at stops
      have all : (text.takeWhile (continues c)).dropWhile (continues c) = [] :=
        dropWhile_eq_nil_iff.mpr fun d member => mem_takeWhile_imp member
      obtain ⟨taken, rested⟩ := span_append (p := continues c) (text.takeWhile (continues c)) stop
      rw [concat_cons, cons_append, classify_cons, taken, rested, all, nil_append, isFront,
        takeWhile_eq_self_iff.mpr fun d member => mem_takeWhile_imp member]

def IsMatch (token : Token) : Prop :=
  ∃ c run, token = ⟨typeOf c, c :: run⟩ ∧ ∀ d ∈ run, continues c d = true

theorem classifyFrom_match (text : Text) :
    ∀ (first : Char) (run : Text), (∀ d ∈ run, continues first d = true) →
    ∀ token ∈ classifyFrom first run text, IsMatch token := by
  induction text with
  | nil => exact fun first run more => forall_mem_singleton.mpr ⟨first, run, rfl, more⟩
  | cons c text ih =>
    intro first run more
    rw [classifyFrom]
    split
    · next isMore =>
      exact ih first (run ++ [c]) (forall_mem_append.mpr ⟨more, forall_mem_singleton.mpr isMore⟩)
    · exact forall_mem_cons.mpr ⟨⟨first, run, rfl, more⟩,
        ih c [] fun _ none => absurd none not_mem_nil⟩

theorem classify_match (text : Text) : ∀ token ∈ classifyNonStringKql text, IsMatch token := by
  cases text with
  | nil => exact fun _ none => absurd none not_mem_nil
  | cons c text => exact classifyFrom_match text c [] fun _ none => absurd none not_mem_nil

theorem typeOf_eq_number {c : Char} (isNumber : typeOf c = .number) :
    PyText.isDigitChar c = true := by
  unfold typeOf at isNumber
  split at isNumber
  · cases isNumber
  · split at isNumber
    · next decimal =>
      rw [PyText.isDigitChar, show (PyText.decimal c).isSome = true from decimal, Bool.true_or]
    · split at isNumber
      · cases isNumber
      · split at isNumber
        · cases isNumber
        · split at isNumber
          · next digit => exact digit
          · cases isNumber

theorem continues_kind {c d : Char} (more : continues c d = true) :
    (typeOf c = .number → PyText.isDigitChar d = true) ∧
    (typeOf c = .whitespace → PyText.isspace d = true) := by
  unfold continues at more
  unfold typeOf
  split at more
  · next isWord => simp [isWord]
  · next notWord =>
    split at more
    · next decimal =>
      simp [notWord, decimal, PyText.isDigitChar, show (PyText.decimal d).isSome = true from more]
    · next notDecimal =>
      obtain ⟨isSpace, again⟩ := Bool.and_eq_true_iff.mp more
      simp [notWord, notDecimal, isSpace, again]

theorem typeOf_eq_whitespace {c : Char} (isSpace : typeOf c = .whitespace) :
    PyText.isspace c = true ∧ isWordStart c = false ∧ isDecimal c = false := by
  unfold typeOf at isSpace
  split at isSpace
  · cases isSpace
  · next notWord =>
    split at isSpace
    · cases isSpace
    · next notDecimal =>
      split at isSpace
      · next space => exact ⟨space, by simpa using notWord, by simpa using notDecimal⟩
      · split at isSpace
        · cases isSpace
        · split at isSpace <;> cases isSpace

variable {token : Token}

theorem endsBefore_of_whitespace (isMatch : IsMatch token) (isSpace : token.type = .whitespace)
    {text : Text}
    (other : ∀ c, text.head? = some c → PyText.isspace c = false) : EndsBefore token text := by
  obtain ⟨c, run, rfl, _⟩ := isMatch
  rintro first d isFirst isHead
  cases isFirst
  obtain ⟨_, notWord, notDecimal⟩ := typeOf_eq_whitespace isSpace
  simp [continues, notWord, notDecimal, other d isHead]

theorem tokenizeFrom_forall {P : Token → Prop} (matched : ∀ token, IsMatch token → P token)
    (literal : ∀ buffer ch, P ⟨.string, buffer ++ [ch]⟩) (text : Text) :
    ∀ (state : KQLSplitState) (buffer : Text) (p q : Option Char),
      ∀ token ∈ tokenizeFrom state buffer p q text, P token := by
  have classified (buffer : Text) : ∀ token ∈ classifyNonStringKql buffer, P token :=
    fun token member => matched token (classify_match buffer token member)
  induction text with
  | nil => exact fun _ buffer _ _ => classified buffer
  | cons ch text ih =>
    intro state buffer p q
    generalize turned : nextState state p q ch = next
    have turn := turn_nextState state p q ch
    rw [turned] at turn
    cases turn with
    | outside =>
      rw [(tokenizeFrom_outside turned buffer text).1]
      exact ih _ _ _ _
    | backticks =>
      rw [(tokenizeFrom_backticks turned buffer text).1]
      exact ih _ _ _ _
    | quote _ quoted =>
      rw [(tokenizeFrom_quote turned quoted buffer text).1]
      exact forall_mem_append.mpr ⟨classified buffer, ih _ _ _ _⟩
    | closing inside =>
      rw [(tokenizeFrom_closing inside turned buffer text).1]
      exact forall_mem_cons.mpr ⟨literal buffer ch, ih _ _ _ _⟩
    | inside inside =>
      rw [(tokenizeFrom_inside inside turned buffer text).1]
      exact ih _ _ _ _

/-- What the text `front` makes of a state of the tokenizer, whatever comes after it. -/
theorem scan (front : Text) : ∀ (state : KQLSplitState) (buffer : Text) (p q : Option Char),
    ∃ emitted last kept r s, ∃ leads : Bool, s = front.getLast?.or q ∧ ∀ back,
      tokenizeFrom state buffer p q (front ++ back) = emitted ++ tokenizeFrom last kept r s back ∧
      backticksLead state buffer.length p q (front ++ back) =
        (leads && backticksLead last kept.length r s back) := by
  induction front with
  | nil => exact fun state buffer p q => ⟨[], state, buffer, p, q, true, rfl, fun _ => ⟨rfl, rfl⟩⟩
  | cons ch front ih =>
    intro state buffer p q
    generalize turned : nextState state p q ch = next
    have turn := turn_nextState state p q ch
    rw [turned] at turn
    -- the rest of the text goes on from the state after this character
    suffices step : ∃ (tokens : List Token) (buffer' : Text) (here : Bool), ∀ text,
        tokenizeFrom state buffer p q (ch :: text) = tokens ++ tokenizeFrom next buffer' q
          (some ch) text ∧
        backticksLead state buffer.length p q (ch :: text) =
          (here && backticksLead next buffer'.length q (some ch) text) by
      obtain ⟨tokens, buffer', here, step⟩ := step
      obtain ⟨emitted, last, kept, r, s, leads, isLast, rest⟩ := ih next buffer' q (some ch)
      refine ⟨tokens ++ emitted, last, kept, r, s, here && leads, ?_, fun back => ?_⟩
      · rw [isLast, getLast?_cons]
        cases front.getLast? <;> rfl
      · rw [cons_append, (step _).1, (step _).2, (rest back).1, (rest back).2, append_assoc,
          Bool.and_assoc]
        exact ⟨rfl, rfl⟩
    cases turn with
    | outside =>
      refine ⟨[], buffer ++ [ch], true, fun text => ?_⟩
      rw [(tokenizeFrom_outside turned buffer text).1, (tokenizeFrom_outside turned buffer text).2]
      simp
    | backticks =>
      refine ⟨[], ['`', '`', '`'], buffer.length = 2, fun text => ?_⟩
      rw [(tokenizeFrom_backticks turned buffer text).1,
        (tokenizeFrom_backticks turned buffer text).2]
      exact ⟨rfl, rfl⟩
    | quote _ quoted =>
      refine ⟨classifyNonStringKql buffer, [ch], true, fun text => ?_⟩
      rw [(tokenizeFrom_quote turned quoted buffer text).1,
        (tokenizeFrom_quote turned quoted buffer text).2]
      simp
    | closing inside =>
      refine ⟨[⟨.string, buffer ++ [ch]⟩], [], true, fun text => ?_⟩
      rw [(tokenizeFrom_closing inside turned buffer text).1,
        (tokenizeFrom_closing inside turned buffer text).2]
      simp
    | inside inside =>
      refine ⟨[], buffer ++ [ch], true, fun text => ?_⟩
      rw [(tokenizeFrom_inside inside turned buffer text).1,
        (tokenizeFrom_inside inside turned buffer text).2]
      simp

def isQuiet (c : Char) : Bool := c ≠ '\'' && c ≠ '"' && c ≠ '`' && c ≠ '\\'

theorem quiet_run (text : Text) (quiet : text.all isQuiet = true) :
    ∀ (state : KQLSplitState) (buffer : Text) (p q : Option Char),
    ∃ r, (∀ back, tokenizeFrom state buffer p q (text ++ back) =
      tokenizeFrom state (buffer ++ text) r (text.getLast?.or q) back ∧
      ∀ room, backticksLead state room p q (text ++ back) =
        backticksLead state (room + text.length) r (text.getLast?.or q) back) ∧
      (r = p ∨ r = q ∨ ∃ c ∈ text, r = some c) := by
  induction text with
  | nil => exact fun state buffer p q => ⟨p, fun back => by simp, .inl rfl⟩
  | cons ch text ih =>
    intro state buffer p q
    rw [all_cons, Bool.and_eq_true] at quiet
    obtain ⟨r, rest, isR⟩ := ih quiet.2 state (buffer ++ [ch]) q (some ch)
    have same : nextState state p q ch = state := by
      have notQuote : ((ch ≠ '\'' ∧ ch ≠ '"') ∧ ch ≠ '`') ∧ ch ≠ '\\' := by
        simpa [isQuiet] using quiet.1
      obtain ⟨⟨⟨single, double⟩, tick⟩, _⟩ := notQuote
      cases state <;> simp [nextState, single, double, tick]
    have isLast : (ch :: text).getLast?.or q = text.getLast?.or (some ch) := by
      rw [getLast?_cons]
      cases text.getLast? <;> rfl
    refine ⟨r, fun back => ?_, ?_⟩
    · have step : tokenizeFrom state buffer p q (ch :: (text ++ back)) =
        tokenizeFrom state (buffer ++ [ch]) q (some ch) (text ++ back) ∧
          ∀ room, backticksLead state room p q (ch :: (text ++ back)) =
            backticksLead state (room + 1) q (some ch) (text ++ back) := by
        by_cases outside : state = .outsideString
        · subst outside
          exact tokenizeFrom_outside same buffer _
        · exact tokenizeFrom_inside outside same buffer _
      rw [isLast, cons_append, step.1, (rest back).1, append_assoc, singleton_append]
      refine ⟨rfl, fun room => ?_⟩
      rw [step.2, (rest back).2, length_cons, Nat.add_assoc, Nat.add_comm 1]
    · obtain isQ | isCh | ⟨c, member, isC⟩ := isR
      · exact .inr (.inl isQ)
      · exact .inr (.inr ⟨ch, mem_cons_self, isCh⟩)
      · exact .inr (.inr ⟨c, mem_cons_of_mem _ member, isC⟩)

def Similar (p q p' q' : Option Char) : Prop :=
  ((p = some '`' ∧ q = some '`') ↔ (p' = some '`' ∧ q' = some '`')) ∧
    (q = some '`' ↔ q' = some '`') ∧
    (q = some '\\' ↔ q' = some '\\')

theorem similar_same (text : Text) :
    ∀ (state : KQLSplitState) (buffer : Text) (p q p' q' : Option Char), Similar p q p' q' →
    tokenizeFrom state buffer p q text = tokenizeFrom state buffer p' q' text ∧
      ∀ room, backticksLead state room p q text = backticksLead state room p' q' text := by
  induction text with
  | nil => exact fun state buffer p q p' q' _ => ⟨rfl, fun _ => rfl⟩
  | cons ch text ih =>
    intro state buffer p q p' q' similar
    have next : nextState state p q ch = nextState state p' q' ch := by
      obtain ⟨both, _, escape⟩ := similar
      cases state <;> simp only [nextState, both, Ne, escape]
    have later : Similar q (some ch) q' (some ch) :=
      ⟨and_congr_left' similar.2.1, Iff.rfl, Iff.rfl⟩
    constructor
    · rw [tokenizeFrom.eq_def, tokenizeFrom.eq_def]
      simp only [next, fun state buffer => (ih state buffer q (some ch) q' (some ch) later).1]
    · intro room
      rw [backticksLead.eq_def, backticksLead.eq_def]
      simp only [next, fun state room => (ih state [] q (some ch) q' (some ch) later).2 room]

def flush (literal : Bool) (buffer : Text) : List Token :=
  if literal then [⟨.string, buffer⟩] else classifyNonStringKql buffer

/-- Where the buffer ends does not depend on what it holds, when it does not end in
backticks alone. -/
theorem buffer_ends (text : Text) : ∀ (state : KQLSplitState) (p q : Option Char) (room : Nat),
    1 ≤ room → (q = some '`' → 2 ≤ room) →
    (p = some '`' → q = some '`' → 3 ≤ room) → backticksLead state room p q text = true →
    ∃ more literal rest,
      ∀ buffer, tokenizeFrom state buffer p q text = flush literal (buffer ++ more) ++ rest := by
  induction text with
  | nil =>
    exact fun state p q room _ _ _ _ => ⟨[], false, [], fun buffer => by simp [tokenizeFrom, flush]⟩
  | cons ch text ih =>
    intro state p q room one two three leads
    generalize turned : nextState state p q ch = next
    have turn := turn_nextState state p q ch
    rw [turned] at turn
    cases turn with
    | outside =>
      rw [(tokenizeFrom_outside turned [] text).2] at leads
      obtain ⟨more, literal, rest, ends⟩ :=
        ih .outsideString q (some ch) (room + 1) (by omega) (fun _ => by omega)
        (fun isTick _ => by have := two isTick; omega) leads
      exact ⟨ch :: more, literal, rest,
        fun buffer => by rw [(tokenizeFrom_outside turned buffer text).1, ends]; simp⟩
    | backticks third =>
      rw [(tokenizeFrom_backticks turned [] text).2, Bool.and_eq_true, decide_eq_true_iff] at leads
      have room3 := three third.2.1 third.2.2
      omega
    | quote _ quoted =>
      exact ⟨[], false, tokenizeFrom next [ch] q (some ch) text, fun buffer => by
        rw [(tokenizeFrom_quote turned quoted buffer text).1, append_nil]; rfl⟩
    | closing inside =>
      exact ⟨[ch], true, tokenizeFrom .outsideString [] q (some ch) text, fun buffer => by
        rw [(tokenizeFrom_closing inside turned buffer text).1]; rfl⟩
    | inside inside =>
      rw [(tokenizeFrom_inside inside turned [] text).2] at leads
      obtain ⟨more, literal, rest, ends⟩ :=
        ih state q (some ch) (room + 1) (by omega) (fun _ => by omega)
        (fun isTick _ => by have := two isTick; omega) leads
      exact ⟨ch :: more, literal, rest,
        fun buffer => by rw [(tokenizeFrom_inside inside turned buffer text).1, ends]; simp⟩

/-! ## Neighbours -/

def Apart (token next : Token) : Prop := token.type = .string ∨ EndsBefore token next.text

theorem classify_head {text : Text} (isHead : (classifyNonStringKql text).head? = some token) :
    token.text.head? = text.head? := by
  cases text with
  | nil => cases isHead
  | cons c text =>
    rw [classify_cons] at isHead
    cases isHead
    rfl

theorem classify_apart (text : Text) : List.IsChain Apart (classifyNonStringKql text) := by
  induction h : text.length using Nat.strongRecOn generalizing text with
  | _ length ih =>
    cases text with
    | nil => exact .nil
    | cons c text =>
      have shorter : (text.dropWhile (continues c)).length < length := by
        have bound := (dropWhile_sublist (continues c) (l := text)).length_le
        simp only [length_cons] at h
        omega
      rw [classify_cons, ← singleton_append, isChain_append]
      refine ⟨isChain_singleton _, ih _ shorter _ rfl, fun token isToken next isNext => .inr ?_⟩
      cases isToken
      intro first d isFirst isHead
      cases isFirst
      rw [classify_head isNext] at isHead
      have stops := head?_dropWhile_not (continues c) text
      rwa [isHead] at stops

theorem continues_quote {first c : Char} (isQuote : c = '\'' ∨ c = '"') :
    continues first c = false := by
  unfold continues
  obtain rfl | rfl := isQuote
  · rw [show isWordChar '\'' = false by decide, show isDecimal '\'' = false by decide,
      show PyText.isspace '\'' = false by decide]
    simp
  · rw [show isWordChar '"' = false by decide, show isDecimal '"' = false by decide,
      show PyText.isspace '"' = false by decide]
    simp

theorem tokenizeFrom_apart (text : Text) :
    ∀ (state : KQLSplitState) (buffer : Text) (p q : Option Char),
    List.IsChain Apart (tokenizeFrom state buffer p q text) ∧
    (state ≠ .outsideString → buffer ≠ [] →
      ∀ token, (tokenizeFrom state buffer p q text).head? = some token →
      token.text.head? = buffer.head?) := by
  induction text with
  | nil =>
    exact fun state buffer p q =>
      ⟨classify_apart buffer, fun _ _ token isHead => classify_head isHead⟩
  | cons ch text ih =>
    intro state buffer p q
    generalize turned : nextState state p q ch = next
    have turn := turn_nextState state p q ch
    rw [turned] at turn
    have front : buffer ≠ [] → (buffer ++ [ch]).head? = buffer.head? := fun some => by
      cases buffer with
      | nil => exact absurd rfl some
      | cons c buffer => rfl
    cases turn with
    | outside =>
      rw [(tokenizeFrom_outside turned buffer text).1]
      exact ⟨(ih _ _ _ _).1, fun inside => absurd rfl inside⟩
    | backticks =>
      rw [(tokenizeFrom_backticks turned buffer text).1]
      exact ⟨(ih _ _ _ _).1, fun inside => absurd rfl inside⟩
    | quote isQuote quoted =>
      rw [(tokenizeFrom_quote turned quoted buffer text).1]
      obtain ⟨chain, starts⟩ := ih next [ch] q (some ch)
      have inside : next ≠ .outsideString := by rcases quoted with rfl | rfl <;> decide
      refine ⟨isChain_append.mpr ⟨classify_apart buffer, chain, fun token _ next isNext => .inr ?_⟩,
        fun inside => absurd rfl inside⟩
      intro first c _ isHead
      rw [starts inside (cons_ne_nil _ _) next isNext] at isHead
      cases isHead
      exact continues_quote isQuote
    | closing inside =>
      rw [(tokenizeFrom_closing inside turned buffer text).1]
      refine ⟨?_, fun _ some token isHead => ?_⟩
      · rw [← singleton_append, isChain_append]
        refine ⟨isChain_singleton _, (ih _ _ _ _).1, fun token isToken _ _ => .inl ?_⟩
        cases isToken
        rfl
      · cases isHead
        exact front some
    | inside inside =>
      rw [(tokenizeFrom_inside inside turned buffer text).1]
      obtain ⟨chain, starts⟩ := ih state (buffer ++ [ch]) q (some ch)
      exact ⟨chain, fun _ some token isHead =>
        (starts inside (append_ne_nil_of_right_ne_nil _ (cons_ne_nil _ _)) token isHead).trans
          (front some)⟩

def Proper (token : Token) : Prop := IsMatch token ∨ (token.type = .string ∧ token.text ≠ [])

theorem tokenize_proper (text : Text) : ∀ token ∈ tokenizeKql text, Proper token :=
  tokenizeFrom_forall (fun _ isMatch => .inl isMatch)
    (fun _ _ => .inr ⟨rfl, append_ne_nil_of_right_ne_nil _ (cons_ne_nil _ _)⟩) text _ _ _ _

theorem Proper.text_ne_nil (proper : Proper token) : token.text ≠ [] := by
  obtain ⟨c, run, rfl, _⟩ | ⟨_, some⟩ := proper
  · exact cons_ne_nil _ _
  · exact some

theorem limitWord_cases (isWord : isLimitWord token = true) : token.type ≠ .string ∧
    ∃ first rest, token.text = first :: rest ∧ first.toLower ∈ ['t', 'l'] := by
  unfold isLimitWord at isWord
  have parts : token.type ≠ .string ∧
      (token.text.map Char.toLower = "take".toList ∨
        token.text.map Char.toLower = "limit".toList) := by
    simpa using isWord
  refine ⟨parts.1, ?_⟩
  cases held : token.text with
  | nil =>
    rw [held] at parts
    obtain ⟨_, none | none⟩ := parts <;> cases none
  | cons first rest =>
    rw [held] at parts
    refine ⟨first, rest, rfl, ?_⟩
    obtain ⟨_, isTake | isLimit⟩ := parts
    · rw [(List.cons.inj isTake).1]
      decide
    · rw [(List.cons.inj isLimit).1]
      decide

theorem limitWord_word (proper : Proper token) (isWord : isLimitWord token = true) :
    ∃ c run, token = ⟨.word, c :: run⟩ ∧ isWordStart c = true := by
  obtain ⟨notString, first, rest, isText, letter⟩ := limitWord_cases isWord
  obtain ⟨c, run, rfl, _⟩ | ⟨isString, _⟩ := proper
  · cases isText
    have starts : isWordStart first = true := by
      have lower : first.toLower = 't' ∨ first.toLower = 'l' := by simpa using letter
      unfold Char.toLower at lower
      split at lower
      · next upper =>
        have isUpper : first.isUpper = true := by
          unfold Char.isUpper
          simpa using upper
        unfold isWordStart Char.isAlpha
        rw [isUpper]
        rfl
      · obtain rfl | rfl := lower <;> decide
    exact ⟨first, rest, by rw [typeOf, if_pos starts], starts⟩
  · exact absurd isString notString

theorem isQuiet_of_digit {c : Char} (digit : PyText.isDigitChar c = true) : isQuiet c = true := by
  have others : ∀ d, d ∈ ['\'', '"', '`', '\\'] → c ≠ d := by
    intro d member
    rintro rfl
    have none : (['\'', '"', '`', '\\'].all fun d => !PyText.isDigitChar d) = true := by decide
    have other := all_eq_true.mp none c member
    rw [digit] at other
    cases other
  simp [isQuiet, others]

/-- The digits that `str` writes. -/
theorem number_text (limit : Nat) :
    ∃ first digits, (number limit).text = first :: digits ∧ first.isDigit = true ∧
    ∀ c ∈ digits, c.isDigit = true := by
  have all : ∀ c ∈ Nat.toDigits 10 limit, c.isDigit = true :=
    fun c member => Nat.isDigit_of_mem_toDigits (by decide) (by decide) member
  cases held : Nat.toDigits 10 limit with
  | nil => exact absurd held Nat.toDigits_ne_nil
  | cons first digits =>
    rw [held] at all
    exact ⟨first, digits, held, all first mem_cons_self,
      fun c member => all c (mem_cons_of_mem _ member)⟩

theorem of_isDigit {c : Char} (digit : c.isDigit = true) :
    isDecimal c = true ∧ isWordStart c = false ∧ typeOf c = .number ∧ isWordChar c = true ∧
    PyText.isspace c = false := by
  have ten : ∀ n, n < 10 → isDecimal (Char.ofNat (48 + n)) = true ∧
    isWordStart (Char.ofNat (48 + n)) = false ∧
      typeOf (Char.ofNat (48 + n)) = .number ∧ isWordChar (Char.ofNat (48 + n)) = true ∧
      PyText.isspace (Char.ofNat (48 + n)) = false := by decide
  have range : 48 ≤ c.toNat ∧ c.toNat ≤ 57 := by
    have bounds := digit
    simp only [Char.isDigit, Bool.and_eq_true, decide_eq_true_eq, ge_iff_le,
      UInt32.le_iff_toNat_le] at bounds
    exact bounds
  have same : c = Char.ofNat (48 + (c.toNat - 48)) := by
    rw [Nat.add_sub_cancel' range.1, Char.ofNat_toNat]
  rw [same]
  exact ten _ (by omega)

section Reading
variable {front rest gap back : List Token} {word : Token} {digits : Text}

/-- What `get_limit_value` makes of the token after the limit word. -/
def operandOf : Option Token → Option (Option Nat)
  | some next =>
    if next.type = .number then (PyText.int (String.ofList next.text)).map some else some none
  | none => some none

theorem limitOperand_front (noLimit : ∀ token ∈ front, isLimitWord token = false)
    (tokens : List Token) :
    limitOperand ((front ++ tokens).filter isMeaningful) =
      limitOperand (tokens.filter isMeaningful) := by
  induction front with
  | nil => rfl
  | cons token front ih =>
    obtain ⟨other, others⟩ := forall_mem_cons.mp noLimit
    rw [cons_append, filter_cons]
    split
    · rw [limitOperand.eq_def]
      simpa [other] using ih others
    · exact ih others

theorem limitOperand_first (isWord : isLimitWord word = true)
    (meaningful : isMeaningful word = true) (tokens : List Token) :
    limitOperand ((word :: tokens).filter isMeaningful) =
      operandOf (tokens.filter isMeaningful).head? := by
  rw [filter_cons, if_pos meaningful]
  cases tokens.filter isMeaningful <;> simp [limitOperand, isWord, operandOf]

theorem filter_blank (blank : ∀ token ∈ gap, token.type = .whitespace) (tokens : List Token) :
    (gap ++ tokens).filter isMeaningful = tokens.filter isMeaningful := by
  rw [filter_append, filter_eq_nil_iff.mpr, nil_append]
  intro token member
  simp [isMeaningful, blank token member]

theorem replaceNumber_front (limit : Nat) (noLimit : ∀ token ∈ front, isLimitWord token = false)
    (tokens : List Token) :
    replaceNumber limit false (front ++ tokens) = (replaceNumber limit false tokens).map
      (front ++ ·) := by
  induction front with
  | nil => simp
  | cons token front ih =>
    obtain ⟨other, others⟩ := forall_mem_cons.mp noLimit
    rw [cons_append, replaceNumber, other, Bool.false_or, ih others]
    simp [Function.comp_def]

theorem replaceNumber_gap (limit : Nat) (blank : ∀ token ∈ gap, token.type = .whitespace) :
    replaceNumber limit true (gap ++ ⟨.number, digits⟩ :: back) =
      some (gap ++ number limit :: back) := by
  induction gap with
  | nil => simp [replaceNumber]
  | cons token gap ih =>
    obtain ⟨isBlank, others⟩ := forall_mem_cons.mp blank
    rw [cons_append, replaceNumber, if_neg (by simp [isBlank]), Bool.true_or, ih others]
    rfl

theorem replaceNumber_operand (limit : Nat) (noLimit : ∀ token ∈ front, isLimitWord token = false)
    (isWord : isLimitWord word = true) (notNumber : word.type ≠ .number)
    (blank : ∀ token ∈ gap, token.type = .whitespace) :
    replaceNumber limit false (front ++ word :: (gap ++ ⟨.number, digits⟩ :: back)) =
      some (front ++ word :: (gap ++ number limit :: back)) := by
  rw [replaceNumber_front limit noLimit, replaceNumber, if_neg (by simp [notNumber]), isWord,
    Bool.or_true, replaceNumber_gap limit blank]
  rfl

theorem replaceNumber_none (limit : Nat) (noLimit : ∀ token ∈ front, isLimitWord token = false) :
    replaceNumber limit false front = none := by
  have same := replaceNumber_front limit noLimit []
  rw [append_nil] at same
  exact same

theorem operandOf_number {limit : Nat} (short : (Nat.toDigits 10 limit).length ≤ 4300) :
    operandOf (some (number limit)) = some (some limit) := by
  simp [operandOf, number, PyText.int_toDigits short]

end Reading

section Replacing
variable {front back : List Token} {digits buffer more : Text} {limit : Nat}

theorem classify_number (stop : ∀ c, more.head? = some c → isDecimal c = false) :
    classifyNonStringKql ((number limit).text ++ more) =
      number limit :: classifyNonStringKql more := by
  obtain ⟨first, digits, isText, digit, others⟩ := number_text limit
  obtain ⟨decimal, notWord, isNumber, _⟩ := of_isDigit digit
  have more' : continues first = isDecimal := by
    funext c
    simp [continues, notWord, decimal]
  have all : ∀ c ∈ digits, isDecimal c = true := fun c member => (of_isDigit (others c member)).1
  have ends : more.takeWhile isDecimal = [] ∧ more.dropWhile isDecimal = more := by
    cases more with
    | nil => exact ⟨rfl, rfl⟩
    | cons c more => simp [stop c rfl]
  rw [isText, cons_append, classify_cons, more', takeWhile_append_of_pos all,
    dropWhile_append_of_pos all, ends.1,
    ends.2, append_nil, isNumber, show number limit = ⟨.number, (number limit).text⟩
    from rfl, isText]

theorem classify_replaced
    (same : classifyNonStringKql (buffer ++ (digits ++ more)) = front ++ ⟨.number, digits⟩ :: back)
    (isFront : concat front = buffer)
    (blank : ∀ token, front.getLast? = some token → token.type = .whitespace)
    (stop : ∀ c, more.head? = some c → isDecimal c = false) :
    classifyNonStringKql (buffer ++ ((number limit).text ++ more)) = front ++
      number limit :: back := by
  obtain ⟨before, behind⟩ := classify_split front same isFront
  have isBack : back = classifyNonStringKql more := by
    cases digits with
    | nil =>
      have proper : IsMatch ⟨.number, []⟩ := classify_match _ _ (behind ▸ mem_cons_self)
      obtain ⟨c, run, isEmpty, _⟩ := proper
      exact absurd (congrArg Token.text isEmpty) (cons_ne_nil c run).symm
    | cons c digits =>
      rw [cons_append, classify_cons] at behind
      obtain ⟨isToken, isBack⟩ := List.cons.inj behind
      have taken : (digits ++ more).takeWhile (continues c) = digits :=
        (List.cons.inj (congrArg Token.text isToken)).2
      have whole := takeWhile_append_dropWhile (p := continues c) (l := digits ++ more)
      rw [taken] at whole
      rw [← isBack, append_cancel_left whole]
  rw [classify_append front before, classify_number stop, isBack]
  intro token isLast
  refine endsBefore_of_whitespace (classify_match buffer token (before ▸ mem_of_getLast? isLast))
    (blank token isLast) ?_
  intro c isHead
  obtain ⟨first, digits, isText, digit, _⟩ := number_text limit
  rw [isText] at isHead
  cases isHead
  exact (of_isDigit digit).2.2.2.2

end Replacing

theorem concat_flush (literal : Bool) (buffer : Text) : concat (flush literal buffer) = buffer := by
  cases literal
  · exact concat_classify buffer
  · exact append_nil buffer

theorem tokens_text_ne_nil (text : Text) :
    ∀ (state : KQLSplitState) (buffer : Text) (p q : Option Char),
    ∀ token ∈ tokenizeFrom state buffer p q text, token.text ≠ [] :=
  tokenizeFrom_forall (fun _ isMatch => Proper.text_ne_nil (.inl isMatch))
    (fun _ _ => append_ne_nil_of_right_ne_nil _ (cons_ne_nil _ _)) text

theorem concat_eq_nil {tokens : List Token} (some : ∀ token ∈ tokens, token.text ≠ [])
    (none : concat tokens = []) :
    tokens = [] := by
  cases tokens with
  | nil => rfl
  | cons token tokens => exact absurd (append_eq_nil_iff.mp none).1 (some token mem_cons_self)

theorem tokens_before {first second rest behind : List Token} {text : Text}
    (same : first ++ rest = second ++ behind)
    (some : ∀ token ∈ first, token.text ≠ []) (isText : concat first ++ text = concat second) :
    ∃ between, second = first ++ between ∧ concat between = text ∧ rest = between ++ behind := by
  obtain ⟨between, isSecond, isRest⟩ | ⟨between, isFirst, isBehind⟩ := append_eq_append_iff.mp same
  · rw [isSecond, concat_append] at isText
    exact ⟨between, isSecond, (append_cancel_left isText).symm, isRest⟩
  · rw [isFirst, concat_append, append_assoc] at isText
    obtain ⟨none, noText⟩ := append_eq_nil_iff.mp (append_right_eq_self.mp isText)
    have isNil := concat_eq_nil
      (fun token member => some token (isFirst ▸ mem_append_right _ member)) none
    rw [isNil] at isFirst isBehind
    exact ⟨[], by rw [isFirst]; simp, noText.symm, isBehind.symm⟩

theorem scan_script {front back : Text}
    (leads : backticksLead .outsideString 0 none none (front ++ back) = true) :
    ∃ emitted last kept r, concat emitted ++ kept = front ∧ (∀ token ∈ emitted, token.text ≠ []) ∧
      backticksLead last kept.length r front.getLast? back = true ∧
      ∀ back, tokenizeKql (front ++ back) = emitted ++
        tokenizeFrom last kept r front.getLast? back := by
  obtain ⟨emitted, last, kept, r, s, lead, isLast, rest⟩ := scan front .outsideString [] none none
  rw [Option.or_none] at isLast
  subst isLast
  rw [show backticksLead .outsideString 0 none none (front ++ back) =
    (lead && backticksLead last kept.length r front.getLast? back) from (rest back).2,
    Bool.and_eq_true] at leads
  have alone := (rest []).2
  rw [append_nil, leads.1] at alone
  have whole := (concat_tokenizeFrom_iff front .outsideString [] none none fun _ =>
    tracked_nil fun none => by cases none).mpr alone
  have tokens := (rest []).1
  rw [append_nil] at tokens
  rw [tokens, concat_append, tokenizeFrom, concat_classify] at whole
  refine ⟨emitted, last, kept, r, whole, fun token member => ?_, leads.2, fun back => (rest back).1⟩
  exact tokens_text_ne_nil front .outsideString [] none none token
    (tokens ▸ mem_append_left _ member)

theorem digits_quiet {digits : Text} (isToken : Proper ⟨.number, digits⟩) :
    digits.all isQuiet = true ∧ ∀ c, digits.getLast? = some c → isQuiet c = true := by
  have all : ∀ c ∈ digits, isQuiet c = true := by
    obtain ⟨first, run, isMatch, more⟩ | ⟨isString, _⟩ := isToken
    · obtain ⟨isNumber, rfl⟩ := Token.mk.inj isMatch
      refine forall_mem_cons.mpr ⟨isQuiet_of_digit (typeOf_eq_number isNumber.symm),
        fun c member => ?_⟩
      exact isQuiet_of_digit ((continues_kind (more c member)).1 isNumber.symm)
    · cases isString
  exact ⟨all_eq_true.mpr all, fun c isLast => all c (mem_of_getLast? isLast)⟩

theorem number_proper (limit : Nat) : Proper (number limit) := by
  obtain ⟨first, digits, isText, digit, others⟩ := number_text limit
  obtain ⟨decimal, notWord, isNumber, _⟩ := of_isDigit digit
  refine .inl ⟨first, digits, ?_, fun c member => ?_⟩
  · rw [isNumber, ← isText]
    rfl
  · simp [continues, notWord, decimal, (of_isDigit (others c member)).1]

theorem similar_quiet {p p' : Option Char} {c c' : Char} (quiet : isQuiet c = true)
    (quiet' : isQuiet c' = true) :
    Similar p (some c) p' (some c') := by
  have other : ∀ d, isQuiet d = true → d ≠ '`' ∧ d ≠ '\\' := by
    intro d isQuietChar
    simp [isQuiet] at isQuietChar
    exact ⟨isQuietChar.1.2, isQuietChar.2⟩
  simp [Similar, other c quiet, other c' quiet']

variable {parsed : Text}

/-- Digits that stand apart after a space are one token, and so are others in their place. -/
theorem tokenize_replaced {limit : Nat} {front back : List Token} {digits : Text}
    (leads : backticksLead .outsideString 0 none none parsed = true)
    (tokens : tokenizeKql parsed = front ++ ⟨.number, digits⟩ :: back)
    (blank : ∀ token, front.getLast? = some token → token.type = .whitespace)
    (stop : ∀ c, (concat back).head? = some c → isDecimal c = false) :
    tokenizeKql (concat (front ++ number limit :: back)) = front ++ number limit :: back := by
  have whole := (concat_tokenizeFrom_iff parsed .outsideString [] none none fun _ =>
    tracked_nil fun none => by cases none).mpr leads
  rw [nil_append, show tokenizeFrom .outsideString [] none none parsed = front ++
    ⟨.number, digits⟩ :: back from tokens,
    concat_append, concat_cons] at whole
  have isToken : Proper ⟨.number, digits⟩ := tokenize_proper parsed _ (tokens ▸ by simp)
  rw [← whole] at leads
  obtain ⟨emitted, last, kept, r, isFront, some, leads, rest⟩ := scan_script leads
  -- the old digits and the new ones go to the buffer
  obtain ⟨old, olds, _⟩ :=
    quiet_run digits (digits_quiet isToken).1 last kept r (concat front).getLast?
  obtain ⟨new, news, _⟩ :=
    quiet_run (number limit).text (digits_quiet (number_proper limit)).1 last kept r
      (concat front).getLast?
  obtain ⟨d, isLast⟩ := Option.isSome_iff_exists.mp (getLast?_isSome.mpr isToken.text_ne_nil)
  obtain ⟨d', isLast'⟩ :=
    Option.isSome_iff_exists.mp (getLast?_isSome.mpr (number_proper limit).text_ne_nil)
  have quiet := (digits_quiet isToken).2 d isLast
  have similar : Similar old (Option.some d) new (Option.some d') :=
    similar_quiet quiet ((digits_quiet (number_proper limit)).2 d' isLast')
  rw [isLast, Option.some_or] at olds
  rw [isLast', Option.some_or] at news
  have notTick : Option.some d ≠ Option.some '`' := by
    rintro ⟨⟩
    exact absurd quiet (by decide)
  have long : 1 ≤ kept.length + digits.length := by
    have some : 0 < digits.length := length_pos_iff.mpr isToken.text_ne_nil
    omega
  rw [(olds (concat back)).2] at leads
  obtain ⟨more, literal, behind, ends⟩ :=
    buffer_ends (concat back) last old (Option.some d) _ long (fun isTick => absurd isTick notTick)
    (fun _ isTick => absurd isTick notTick) leads
  have before : front ++ ⟨.number, digits⟩ :: back = emitted ++
      (flush literal (kept ++ digits ++ more) ++ behind) := by
    rw [← tokens, ← whole, rest, (olds (concat back)).1, ends]
  have after : tokenizeKql (concat (front ++ number limit :: back)) =
      emitted ++ (flush literal (kept ++ (number limit).text ++ more) ++ behind) := by
    rw [concat_append, concat_cons, rest, (news (concat back)).1,
      ← (similar_same _ last _ _ _ _ _ similar).1, ends]
  obtain ⟨near, rfl, isKept, held⟩ := tokens_before before.symm some isFront
  have some' : ∀ token ∈ near, token.text ≠ [] := fun token member =>
    (tokenize_proper parsed token (tokens ▸ by simp [member])).text_ne_nil
  have isBuffer :
      concat near ++ (digits ++ more) = concat (flush literal (kept ++ digits ++ more)) := by
    rw [concat_flush, isKept, append_assoc]
  obtain ⟨found, isFlush, isFound, isBack⟩ := tokens_before held.symm some' isBuffer
  cases found with
  | nil => exact absurd (append_eq_nil_iff.mp isFound.symm).1 isToken.text_ne_nil
  | cons token found =>
    obtain ⟨rfl, rfl⟩ := List.cons.inj isBack
    rw [concat_cons] at isFound
    cases literal with
    | true =>
      have isString : ⟨.number, digits⟩ ∈ flush true (kept ++ digits ++ more) := isFlush ▸ by simp
      cases mem_singleton.mp isString
    | false =>
      have classified :
          classifyNonStringKql (kept ++ (digits ++ more)) = near ++ ⟨.number, digits⟩ :: found := by
        rw [← isFlush, append_assoc]
        rfl
      have replaced :
        flush false (kept ++ ((number limit).text ++ more)) = near ++ number limit :: found :=
        classify_replaced classified isKept ?_ ?_
      · rw [after, append_assoc kept, replaced]
        simp
      · intro token isLast
        exact blank token (by rw [getLast?_append, isLast]; rfl)
      · intro c isHead
        rw [← append_cancel_left isFound] at isHead
        refine stop c ?_
        rw [show found.append behind = found ++ behind from rfl, concat_append,
          head?_append, isHead]
        rfl

/-! ## A limit at the end -/

def suffix (limit : Nat) : List Token :=
  [space, pipe, space, ⟨.word, "take".toList⟩, space, number limit]

theorem classify_suffix (limit : Nat) :
    classifyNonStringKql (concat (suffix limit)) = suffix limit := by
  have isNumber : classifyNonStringKql (number limit).text = [number limit] := by
    have alone : classifyNonStringKql ((number limit).text ++ []) =
      number limit :: classifyNonStringKql [] :=
      classify_number fun c none => by cases none
    rwa [append_nil] at alone
  have pieces : classifyNonStringKql " | take ".toList =
    [space, pipe, space, ⟨.word, "take".toList⟩, space] := by decide
  have whole := classify_append (v := (number limit).text) _ pieces fun token isLast => by
    cases isLast
    refine endsBefore_of_whitespace
      ⟨' ', [], by decide, fun _ none => absurd none not_mem_nil⟩ rfl ?_
    intro c isHead
    obtain ⟨first, digits, isText, digit, _⟩ := number_text limit
    rw [isText] at isHead
    cases isHead
    exact (of_isDigit digit).2.2.2.2
  rw [isNumber] at whole
  rw [show concat (suffix limit) = " | take ".toList ++
    (number limit).text by simp [suffix, space, pipe], whole]
  rfl

theorem suffix_quiet (limit : Nat) : (concat (suffix limit)).all isQuiet = true := by
  have digits : (number limit).text.all isQuiet = true := (digits_quiet (number_proper limit)).1
  rw [show concat (suffix limit) = " | take ".toList ++
    (number limit).text by simp [suffix, space, pipe], all_append, digits]
  decide

theorem last_concat {tokens : List Token} (isLast : tokens.getLast? = some token)
    (some : token.text ≠ []) :
    (concat tokens).getLast? = token.text.getLast? := by
  obtain ⟨front, rfl⟩ := getLast?_eq_some_iff.mp isLast
  rw [concat_append, getLast?_append, concat_cons, concat_nil, append_nil]
  cases h : token.text.getLast? with
  | none => exact absurd (getLast?_eq_none_iff.mp h) some
  | some c => rfl

theorem endsBefore_space (isMatch : IsMatch token)
    (dark : ∀ c, token.text.getLast? = some c → PyText.isspace c = false) :
    EndsBefore token [' '] := by
  obtain ⟨first, run, rfl, more⟩ := isMatch
  rintro c d isFirst isSpace
  cases isFirst
  cases isSpace
  by_cases isWord : isWordStart first = true
  · simp [continues, isWord, show isWordChar ' ' = false by decide]
  by_cases decimal : isDecimal first = true
  · simp [continues, isWord, decimal, show isDecimal ' ' = false by decide]
  by_cases blank : PyText.isspace first = true
  · have all : ∀ c ∈ first :: run, PyText.isspace c = true := by
      refine forall_mem_cons.mpr ⟨blank, fun c member => (continues_kind (more c member)).2 ?_⟩
      simp [typeOf, isWord, decimal, blank]
    obtain ⟨d, isLast⟩ := Option.isSome_iff_exists.mp (getLast?_isSome.mpr (cons_ne_nil first run))
    have isBlank := all d (mem_of_getLast? isLast)
    rw [dark d isLast] at isBlank
    cases isBlank
  · simp [continues, isWord, decimal, blank]

theorem tokenize_added (stripped : Stripped parsed)
    (leads : backticksLead .outsideString 0 none none parsed = true)
    (limit : Nat) :
    tokenizeKql (parsed ++ concat (suffix limit)) = tokenizeKql parsed ++ suffix limit := by
  have whole : backticksLead .outsideString 0 none none (parsed ++ []) = true := by rwa [append_nil]
  obtain ⟨emitted, last, kept, r, isParsed, _, _, rest⟩ := scan_script whole
  obtain ⟨_, added, _⟩ := quiet_run _ (suffix_quiet limit) last kept r parsed.getLast?
  have tokens := rest []
  rw [append_nil, tokenizeFrom] at tokens
  have ends := (added []).1
  rw [append_nil, tokenizeFrom] at ends
  rw [rest, ends, tokens, append_assoc]
  refine congrArg (emitted ++ ·) ?_
  rw [classify_append _ rfl, classify_suffix]
  intro token isLast
  have isMatch := classify_match kept token (mem_of_getLast? isLast)
  have held : token.text ≠ [] := Proper.text_ne_nil (.inl isMatch)
  have dark : ∀ c, token.text.getLast? = some c → PyText.isspace c = false := by
    intro c isEnd
    refine stripped c ?_
    have isKept := last_concat isLast held
    rw [concat_classify, isEnd] at isKept
    rw [← isParsed, getLast?_append, isKept]
    rfl
  intro first c isFirst isHead
  exact endsBefore_space isMatch dark first c isFirst (by rw [← isHead]; rfl)

/-! ## When only the limit changes -/

theorem operandOf_suffix (tokens : List Token) (limit : Nat) :
    operandOf ((tokens ++ suffix limit).filter isMeaningful).head? =
    operandOf (tokens.filter isMeaningful).head? := by
  rw [filter_append]
  cases tokens.filter isMeaningful <;> rfl

theorem suffix_text (limit : Nat) (tokens : List Token) :
    concat (tokens ++ [space, ⟨.word, ['|']⟩, space, ⟨.word, "take".toList⟩, space, number limit]) =
      concat tokens ++ concat (suffix limit) := by
  rw [concat_append]
  rfl

theorem limits_of_none (stripped : Stripped parsed)
    (leads : backticksLead .outsideString 0 none none parsed = true)
    (noLimit : ∀ token ∈ tokenizeKql parsed, isLimitWord token = false) : Limits parsed := by
  intro limit short
  have whole : concat (tokenizeKql parsed) = parsed :=
    (concat_tokenizeFrom_iff parsed .outsideString [] none none fun _ =>
      tracked_nil fun none => by cases none).mpr leads
  refine ⟨_, rfl, ?_, whole, ?_⟩
  all_goals rw [replaceNumber_none limit noLimit, Option.getD_none, suffix_text, whole]
  · rw [getLimitValue, tokenize_added stripped leads, limitOperand_front noLimit]
    exact operandOf_number short
  · exact .inr (tokenize_added stripped leads limit)

theorem limitWord_meaningful {word : Token} (proper : Proper word)
    (isWord : isLimitWord word = true) :
    isMeaningful word = true ∧ word.type ≠ .number := by
  obtain ⟨c, run, rfl, _⟩ := limitWord_word proper isWord
  exact ⟨rfl, by simp⟩

theorem limits_of_operand (leads : backticksLead .outsideString 0 none none parsed = true)
    (operand : Operand (tokenizeKql parsed)) : Limits parsed := by
  obtain ⟨front, word, gap, digits, back, place, noLimit, some, stop⟩ := operand
  intro limit short
  obtain ⟨meaningful, notNumber⟩ :=
    limitWord_meaningful (tokenize_proper parsed word (place.split ▸ by simp)) place.limitWord
  have blank : ∀ token, (front ++ word :: gap).getLast? = Option.some token →
      token.type = .whitespace := by
    intro token isLast
    rw [getLast?_append_of_ne_nil _ (cons_ne_nil _ _), getLast?_cons_of_ne_nil some] at isLast
    exact place.blank token (mem_of_getLast? isLast)
  have tokens : tokenizeKql parsed = (front ++ word :: gap) ++ ⟨.number, digits⟩ :: back := by
    rw [place.split]; simp
  have again : tokenizeKql (concat ((front ++ word :: gap) ++ number limit :: back)) =
    (front ++ word :: gap) ++ number limit :: back :=
    tokenize_replaced leads tokens blank stop
  rw [append_assoc, cons_append] at again
  refine ⟨concat (front ++ word :: (gap ++ number limit :: back)), ?_, ?_, ?_,
    .inl ⟨front, word, gap, digits, back, place, again⟩⟩
  · rw [setLimitValue, if_neg (by simp), place.split,
      replaceNumber_operand limit noLimit place.limitWord notNumber place.blank]
    rfl
  · rw [getLimitValue, again, limitOperand_front noLimit,
      limitOperand_first place.limitWord meaningful, filter_blank place.blank,
      filter_cons, if_pos (by simp [isMeaningful, number])]
    exact operandOf_number short
  · exact (concat_tokenizeFrom_iff parsed .outsideString [] none none fun _ =>
      tracked_nil fun none => by cases none).mpr leads

theorem limit_differs (read : Option (Option Nat)) :
    ∃ limit, (Nat.toDigits 10 limit).length ≤ 4300 ∧ read ≠ some (some limit) := by
  by_cases zero : read = some (some 0)
  · exact ⟨1, by decide, by simp [zero]⟩
  · exact ⟨0, by decide, zero⟩

theorem number_apart {limit : Nat} {front gap back : List Token} {word : Token}
    (tokens : tokenizeKql parsed = front ++ word :: (gap ++ number limit :: back))
    (isWord : isLimitWord word = true) :
    gap ≠ [] ∧ ∀ c, (concat back).head? = some c → isDecimal c = false := by
  have proper : ∀ token ∈ tokenizeKql parsed, Proper token := tokenize_proper parsed
  have chain : IsChain Apart (tokenizeKql parsed) :=
    (tokenizeFrom_apart parsed .outsideString [] none none).1
  rw [tokens] at chain proper
  obtain ⟨first, digits, isText, digit, _⟩ := number_text limit
  obtain ⟨decimal, notWord, _, wordChar, _⟩ := of_isDigit digit
  constructor
  · rintro rfl
    obtain ⟨c, run, rfl, starts⟩ := limitWord_word (proper word (by simp)) isWord
    obtain isString | ends := (isChain_append_cons_cons.mp chain).2.1
    · cases isString
    have stops := ends c first rfl (by rw [isText]; rfl)
    rw [continues, if_pos starts, wordChar] at stops
    cases stops
  · intro c isHead
    cases back with
    | nil => cases isHead
    | cons next back =>
      rw [concat_cons, head?_append_of_ne_nil _ (proper next (by simp)).text_ne_nil] at isHead
      rw [← cons_append, ← append_assoc] at chain
      obtain isString | ends := (isChain_append_cons_cons.mp chain).2.1
      · cases isString
      have stops := ends first c (by rw [isText]; rfl) isHead
      rwa [continues, if_neg (by simp [notWord]), if_pos decimal] at stops

theorem operand_of_limits (limits : Limits parsed) {front tail : List Token} {word : Token}
    (tokens : tokenizeKql parsed = front ++ word :: tail)
    (noLimit : ∀ token ∈ front, isLimitWord token = false)
    (isWord : isLimitWord word = true) : Operand (tokenizeKql parsed) := by
  have proper := tokenize_proper parsed
  rw [tokens] at proper
  have meaningful := (limitWord_meaningful (proper word (by simp)) isWord).1
  -- a limit that the statement does not have yet
  obtain ⟨limit, short, differs⟩ := limit_differs (operandOf (tail.filter isMeaningful).head?)
  obtain ⟨after, _, read, _, only⟩ := limits limit short
  rw [getLimitValue] at read
  obtain ⟨front', word', gap, digits, back, place, isAfter⟩ | isAfter := only
  · have split := place.split
    rw [tokens] at split
    obtain ⟨between, isFront', isTail⟩ | ⟨between, isFront, isTail⟩ := append_eq_append_iff.mp split
    · cases between with
      | nil =>
        rw [append_nil] at isFront'
        obtain ⟨rfl, _⟩ := List.cons.inj isTail
        subst isFront'
        obtain ⟨some, stop⟩ := number_apart isAfter isWord
        exact ⟨front', word, gap, digits, back, place, noLimit, some, stop⟩
      | cons token between =>
        have isWord' : word = token := (List.cons.inj isTail).1
        have rested : tail = between ++ word' :: (gap ++ ⟨.number, digits⟩ :: back) :=
          (List.cons.inj isTail).2
        subst isWord' rested
        have meaningful' := (limitWord_meaningful (proper word' (by simp)) place.limitWord).1
        rw [isAfter, isFront', append_assoc, limitOperand_front noLimit, cons_append,
          limitOperand_first isWord meaningful] at read
        refine absurd (Eq.trans ?_ read) differs
        rw [filter_append, filter_append, filter_cons, filter_cons, if_pos meaningful',
          if_pos meaningful']
        cases between.filter isMeaningful <;> rfl
    · cases between with
      | nil =>
        obtain ⟨rfl, _⟩ := List.cons.inj isTail
        rw [append_nil] at isFront
        subst isFront
        obtain ⟨some, stop⟩ := number_apart isAfter place.limitWord
        exact ⟨front, word', gap, digits, back, place, noLimit, some, stop⟩
      | cons token between =>
        obtain ⟨rfl, _⟩ := List.cons.inj isTail
        have other := noLimit word' (isFront ▸ by simp)
        rw [place.limitWord] at other
        cases other
  · rw [isAfter, tokens, append_assoc, limitOperand_front noLimit, cons_append,
      limitOperand_first isWord meaningful,
      ← suffix, operandOf_suffix] at read
    exact absurd read differs

/-- A limit is set and nothing else changes exactly when triple backticks lead, and
either there is no limit word or the first one starts a stage and has a number of its
own after it. -/
theorem limits_iff (parsed : Text) (stripped : Stripped parsed) : Limits parsed ↔
    backticksLead .outsideString 0 none none parsed = true ∧
      ((∀ token ∈ tokenizeKql parsed, isLimitWord token = false) ∨
        Operand (tokenizeKql parsed)) := by
  constructor
  · intro limits
    obtain ⟨_, _, _, whole, _⟩ := limits 0 (by decide)
    have leads : backticksLead .outsideString 0 none none parsed = true :=
      (concat_tokenizeFrom_iff parsed .outsideString [] none none fun _ =>
        tracked_nil fun none => by cases none).mp whole
    refine ⟨leads, ?_⟩
    by_cases noLimit : ∀ token ∈ tokenizeKql parsed, isLimitWord token = false
    · exact .inl noLimit
    · have front :=
        takeWhile_append_dropWhile (p := fun token => !isLimitWord token) (l := tokenizeKql parsed)
      have others : ∀ token ∈ (tokenizeKql parsed).takeWhile fun token => !isLimitWord token,
        isLimitWord token = false :=
        fun token member => by simpa using mem_takeWhile_imp member
      cases rest : (tokenizeKql parsed).dropWhile fun token => !isLimitWord token with
      | nil =>
        rw [rest, append_nil] at front
        exact absurd (front ▸ others) noLimit
      | cons word tail =>
        rw [rest] at front
        have stops := head?_dropWhile_not (fun token => !isLimitWord token) (tokenizeKql parsed)
        rw [rest] at stops
        exact .inr (operand_of_limits limits front.symm others (by simpa using stops))
  · rintro ⟨leads, noLimit | operand⟩
    · exact limits_of_none stripped leads noLimit
    · exact limits_of_operand leads operand

theorem take_limits : Limits "T | take 10".toList :=
  (limits_iff "T | take 10".toList (by intro c isLast; cases isLast; decide)).mpr ⟨by decide, .inr
    ⟨[⟨.word, ['T']⟩, space, pipe, space], ⟨.word, "take".toList⟩, [space], "10".toList, [],
      ⟨by decide, by decide, fun token isLast => by cases isLast; rfl, by decide⟩,
      by decide, by decide, fun c none => by cases none⟩⟩

/-- A column named `limit` and a number in the statement. -/
theorem column_replaced : ¬ Limits "T | where limit > 5 | take 10".toList := by
  intro limits
  obtain ⟨after, isAfter, read, _⟩ := limits 7 (by decide)
  have same : setLimitValue "T | where limit > 5 | take 10".toList 7 .forceLimit =
      some "T | where limit > 7 | take 10".toList := by decide
  rw [same] at isAfter
  cases isAfter
  exact absurd read (by decide)

theorem setLimitValue_operand {front gap back : List Token} {word : Token} {digits : Text}
    (tokens : tokenizeKql parsed = front ++ word :: (gap ++ ⟨.number, digits⟩ :: back))
    (noLimit : ∀ token ∈ front, isLimitWord token = false) (isWord : isLimitWord word = true)
    (blank : ∀ token ∈ gap, token.type = .whitespace) (limit : Nat) :
    setLimitValue parsed limit .forceLimit =
      some (concat (front ++ word :: (gap ++ number limit :: back))) := by
  have notNumber := (limitWord_meaningful (tokenize_proper parsed word (tokens ▸ by simp)) isWord).2
  rw [setLimitValue, if_neg (by simp), tokens,
    replaceNumber_operand limit noLimit isWord notNumber blank]
  rfl

/-- Of two limits the last one counts. -/
theorem last_limit (stripped : Stripped parsed)
    (leads : backticksLead .outsideString 0 none none parsed = true)
    (standing : (∀ token ∈ tokenizeKql parsed, isLimitWord token = false) ∨
      Operand (tokenizeKql parsed)) (first last : Nat) :
    (setLimitValue parsed first .forceLimit).bind
      (fun limited => setLimitValue limited last .forceLimit) =
      setLimitValue parsed last .forceLimit := by
  rcases standing with noLimit | ⟨front, word, gap, digits, back, place, noLimit, apart, stop⟩
  · have whole : concat (tokenizeKql parsed) = parsed :=
      (concat_tokenizeFrom_iff parsed .outsideString [] none none fun _ =>
        tracked_nil fun none => by cases none).mpr leads
    have added : ∀ limit,
        setLimitValue parsed limit .forceLimit = some (parsed ++ concat (suffix limit)) := by
      intro limit
      rw [setLimitValue, if_neg (by simp), replaceNumber_none limit noLimit, Option.getD_none,
        suffix_text, whole]
    have tokens : tokenizeKql (parsed ++ concat (suffix first)) =
        (tokenizeKql parsed ++ [space, pipe, space]) ++ ⟨.word, "take".toList⟩ ::
          ([space] ++ number first :: []) := by
      rw [tokenize_added stripped leads]
      simp [suffix]
    have noneBefore : ∀ token ∈ tokenizeKql parsed ++ [space, pipe, space],
        isLimitWord token = false := by
      simpa [or_imp, forall_and] using ⟨noLimit, by decide⟩
    rw [added, Option.bind_some,
      setLimitValue_operand tokens noneBefore (by decide) (by simp [space]), added, append_assoc,
      concat_append, whole]
    rfl
  · have tokens : tokenizeKql parsed = (front ++ word :: gap) ++ ⟨.number, digits⟩ :: back := by
      rw [place.split]; simp
    have blank : ∀ token, (front ++ word :: gap).getLast? = some token →
        token.type = .whitespace := by
      intro token isLast
      rw [getLast?_append_of_ne_nil _ (cons_ne_nil _ _), getLast?_cons_of_ne_nil apart] at isLast
      exact place.blank token (mem_of_getLast? isLast)
    have again : tokenizeKql (concat ((front ++ word :: gap) ++ number first :: back)) =
      (front ++ word :: gap) ++ number first :: back :=
      tokenize_replaced leads tokens blank stop
    rw [append_assoc, cons_append] at again
    have set := setLimitValue_operand place.split noLimit place.limitWord place.blank
    rw [set, set, Option.bind_some, setLimitValue_operand again noLimit place.limitWord place.blank]

theorem last_limit_table :
    (setLimitValue "T".toList 5 .forceLimit).bind
      (fun limited => setLimitValue limited 7 .forceLimit) =
    setLimitValue "T".toList 7 .forceLimit :=
  last_limit (by intro c isLast; cases isLast; decide) (by decide) (.inl (by decide)) 5 7

end Liteset.Sql.Kql
