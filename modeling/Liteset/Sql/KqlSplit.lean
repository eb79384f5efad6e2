import Liteset.Lib.Cutting
import Liteset.Sql.Kql

/-!
# KQL scripts are cut outside their literals

What the tokens of a script leave out, and where `split_kql` cuts it, against a reading of the
script in which a backslash escapes the character after it.
-/

set_option autoImplicit false

namespace Liteset.Sql.Kql

open Lib List
open Lib.Cutting (Reader cut)

/-- Where a reading of the literals stands; `backticks` counts those in a row. -/
inductive Reading where
  | outside (backticks : Nat)
  | quoted (double escaped : Bool)
  | multiline (backticks : Nat)
deriving DecidableEq, Repr

def Reading.next : Reading → Char → Reading
  | .outside backticks, c =>
    if c = '\'' ∨ c = '"' then .quoted (c = '"') false
    else if c = '`' then (if backticks = 2 then .multiline 0 else .outside (backticks + 1))
    else .outside 0
  | .quoted double escaped, c =>
    if escaped then .quoted double false
    else if c = '\\' then .quoted double true
    else if c = (if double then '"' else '\'') then .outside 0
    else .quoted double false
  | .multiline backticks, c =>
    if c = '`' then (if backticks = 2 then .outside 0 else .multiline (backticks + 1))
      else .multiline 0

def literals : Reader Char Reading where
  step := Reading.next
  outside
    | .outside _ => true
    | _ => false

def lookBehind : Reader Char (KQLSplitState × Option Char × Option Char) where
  step state ch := (nextState state.1 state.2.1 state.2.2 ch, state.2.2, some ch)
  outside state := state.1 = .outsideString

def statements (kql : Text) : List Text := cut [] (literals.marks ';' (.outside 0) kql) kql

/-- Triple backticks that open a literal for the tokenizer come first in the script, or right after
a literal in quotes.  `room` is the length of the buffer. -/
def backticksLead (state : KQLSplitState) (room : Nat) (p q : Option Char) : Text → Bool
  | [] => true
  | ch :: text =>
    match state, nextState state p q ch with
    | .outsideString, .insideMultilineString =>
      room = 2 && backticksLead .insideMultilineString 3 q (some ch) text
    | .outsideString, .outsideString => backticksLead .outsideString (room + 1) q (some ch) text
    | .outsideString, next => backticksLead next 1 q (some ch) text
    | _, .outsideString => backticksLead .outsideString 0 q (some ch) text
    | state, _ => backticksLead state (room + 1) q (some ch) text

def ThirdBacktick (p q : Option Char) (ch : Char) : Prop := ch = '`' ∧ p = some '`' ∧ q = some '`'

inductive Turn (p q : Option Char) (ch : Char) : KQLSplitState → KQLSplitState → Prop
  | outside (plain : ¬ThirdBacktick p q ch) : Turn p q ch .outsideString .outsideString
  | backticks (third : ThirdBacktick p q ch) : Turn p q ch .outsideString .insideMultilineString
  | quote {next : KQLSplitState} (isQuote : ch = '\'' ∨ ch = '"')
      (quoted : next = .insideSingleQuotedString ∨ next = .insideDoubleQuotedString) :
      Turn p q ch .outsideString next
  | closing {state : KQLSplitState} (inside : state ≠ .outsideString)
      (ends : (ch = '\'' ∨ ch = '"') ∨ ThirdBacktick p q ch) : Turn p q ch state .outsideString
  | inside {state : KQLSplitState} (inside : state ≠ .outsideString) : Turn p q ch state state

theorem turn_nextState (state : KQLSplitState) (p q : Option Char) (ch : Char) :
    Turn p q ch state (nextState state p q ch) := by
  cases state with
  | outsideString =>
    simp only [nextState]
    split
    · next isQuote => exact .quote (.inl isQuote) (.inl rfl)
    · split
      · next isQuote => exact .quote (.inr isQuote) (.inr rfl)
      · split
        · next third => exact .backticks third
        · next plain => exact .outside plain
  | insideSingleQuotedString =>
    simp only [nextState]
    split
    · next ends => exact .closing (by decide) (.inl (.inl ends.1))
    · exact .inside (by decide)
  | insideDoubleQuotedString =>
    simp only [nextState]
    split
    · next ends => exact .closing (by decide) (.inl (.inr ends.1))
    · exact .inside (by decide)
  | insideMultilineString =>
    simp only [nextState]
    split
    · next ends => exact .closing (by decide) (.inr ends)
    · exact .inside (by decide)

section Turns
variable {state next : KQLSplitState} {p q : Option Char} {ch : Char}

theorem tokenizeFrom_outside (turn : nextState .outsideString p q ch = .outsideString)
    (buffer text : Text) :
    tokenizeFrom .outsideString buffer p q (ch :: text) = tokenizeFrom .outsideString
      (buffer ++ [ch]) q (some ch) text ∧
      ∀ room, backticksLead .outsideString room p q (ch :: text) = backticksLead .outsideString
        (room + 1) q (some ch) text := by
  exact ⟨by rw [tokenizeFrom.eq_def]; simp only [turn],
    fun room => by rw [backticksLead.eq_def]; simp only [turn]⟩

theorem tokenizeFrom_backticks (turn : nextState .outsideString p q ch = .insideMultilineString)
    (buffer text : Text) :
    tokenizeFrom .outsideString buffer p q (ch :: text) =
        tokenizeFrom .insideMultilineString ['`', '`', '`'] q (some ch) text ∧
      ∀ room, backticksLead .outsideString room p q (ch :: text) =
        (room = 2 && backticksLead .insideMultilineString 3 q (some ch) text) := by
  exact ⟨by rw [tokenizeFrom.eq_def]; simp only [turn],
    fun room => by rw [backticksLead.eq_def]; simp only [turn]⟩

theorem tokenizeFrom_quote (turn : nextState .outsideString p q ch = next)
    (quoted : next = .insideSingleQuotedString ∨ next = .insideDoubleQuotedString)
    (buffer text : Text) :
    tokenizeFrom .outsideString buffer p q (ch :: text) =
        classifyNonStringKql buffer ++ tokenizeFrom next [ch] q (some ch) text ∧
      ∀ room, backticksLead .outsideString room p q (ch :: text) =
        backticksLead next 1 q (some ch) text := by
  rcases quoted with rfl | rfl <;>
    exact ⟨by rw [tokenizeFrom.eq_def]; simp only [turn],
      fun room => by rw [backticksLead.eq_def]; simp only [turn]⟩

theorem tokenizeFrom_closing (inside : state ≠ .outsideString)
    (turn : nextState state p q ch = .outsideString)
    (buffer text : Text) :
    tokenizeFrom state buffer p q (ch :: text) =
        ⟨.string, buffer ++ [ch]⟩ :: tokenizeFrom .outsideString [] q (some ch) text ∧
      ∀ room, backticksLead state room p q (ch :: text) = backticksLead .outsideString 0 q
        (some ch) text := by
  cases state with
  | outsideString => exact absurd rfl inside
  | _ =>
    exact ⟨by rw [tokenizeFrom.eq_def]; simp only [turn],
      fun room => by rw [backticksLead.eq_def]; simp only [turn]⟩

theorem tokenizeFrom_inside (inside : state ≠ .outsideString)
    (turn : nextState state p q ch = state) (buffer text : Text) :
    tokenizeFrom state buffer p q (ch :: text) = tokenizeFrom state (buffer ++ [ch]) q
      (some ch) text ∧
      ∀ room, backticksLead state room p q (ch :: text) = backticksLead state (room + 1) q
        (some ch) text := by
  cases state with
  | outsideString => exact absurd rfl inside
  | _ =>
    exact ⟨by rw [tokenizeFrom.eq_def]; simp only [turn],
      fun room => by rw [backticksLead.eq_def]; simp only [turn]⟩

end Turns

@[simp] theorem concat_nil : concat [] = [] := rfl

@[simp] theorem concat_cons (token : Token) (tokens : List Token) :
    concat (token :: tokens) = token.text ++ concat tokens := rfl

@[simp] theorem concat_append (first second : List Token) :
    concat (first ++ second) = concat first ++ concat second :=
  flatMap_append

theorem concat_classifyFrom (first : Char) (run text : Text) :
    concat (classifyFrom first run text) = first :: (run ++ text) := by
  induction text generalizing first run with
  | nil => simp [classifyFrom]
  | cons c text ih =>
    rw [classifyFrom]
    split
    · rw [ih, append_assoc, singleton_append]
    · rw [concat_cons, ih, nil_append, cons_append]

@[simp] theorem concat_classify (text : Text) : concat (classifyNonStringKql text) = text := by
  cases text with
  | nil => rfl
  | cons c text => exact concat_classifyFrom c [] text

theorem concat_inside {state : KQLSplitState} (inside : state ≠ .outsideString) (text : Text) :
    ∀ (buffer : Text) (p q : Option Char),
      ∃ rest, concat (tokenizeFrom state buffer p q text) = buffer ++ rest := by
  induction text with
  | nil => exact fun buffer p q => ⟨[], by rw [tokenizeFrom, concat_classify, append_nil]⟩
  | cons ch text ih =>
    intro buffer p q
    generalize turned : nextState state p q ch = next
    have turn := turn_nextState state p q ch
    rw [turned] at turn
    cases turn with
    | outside => exact absurd rfl inside
    | backticks => exact absurd rfl inside
    | quote => exact absurd rfl inside
    | closing =>
      exact ⟨ch :: concat (tokenizeFrom .outsideString [] q (some ch) text),
        by
        rw [(tokenizeFrom_closing inside turned buffer text).1, concat_cons, append_assoc,
          singleton_append]⟩
    | inside =>
      obtain ⟨rest, same⟩ := ih (buffer ++ [ch]) q (some ch)
      exact ⟨ch :: rest, by
        rw [(tokenizeFrom_inside inside turned buffer text).1, same, append_assoc,
          singleton_append]⟩

abbrev afterBackticks (text : Text) : Text :=
  concat (tokenizeFrom .insideMultilineString ['`', '`', '`'] (some '`') (some '`') text)

theorem afterBackticks_two (text : Text) :
    afterBackticks ('`' :: '`' :: text) = ['`', '`', '`', '`'] ++ afterBackticks text := by
  rw [afterBackticks, (tokenizeFrom_closing (by decide) (by decide) _ _).1, concat_cons,
    (tokenizeFrom_backticks (by decide) _ _).1]
  rfl

theorem afterBackticks_lead (text : Text) :
    ∃ rest, afterBackticks text = '`' :: '`' :: '`' :: rest :=
  concat_inside (by decide) text ['`', '`', '`'] (some '`') (some '`')

theorem afterBackticks_grows (text : Text) :
    ∀ n, List.replicate n '`' ++ afterBackticks text ≠ text := by
  induction h : text.length using Nat.strongRecOn generalizing text with
  | _ length ih =>
    intro n same
    obtain ⟨rest, lead⟩ := afterBackticks_lead text
    have front : ∃ tail, text = '`' :: '`' :: tail := by
      rw [lead] at same
      match n, same with
      | 0, same => exact ⟨_, same.symm⟩
      | 1, same => exact ⟨_, same.symm⟩
      | n + 2, same => exact ⟨_, same.symm⟩
    obtain ⟨tail, isText⟩ := front
    subst isText
    rw [afterBackticks_two] at same
    refine ih tail.length (by simp at h; omega) tail rfl (n + 2) ?_
    have shifted : List.replicate n '`' ++ (['`', '`', '`', '`'] ++ afterBackticks tail) =
        ['`', '`'] ++ (List.replicate (n + 2) '`' ++ afterBackticks tail) := by
      have fourMore :
          List.replicate n '`' ++ ['`', '`', '`', '`'] = ['`', '`'] ++
            List.replicate (n + 2) '`' := by
        rw [show ['`', '`', '`', '`'] = List.replicate 4 '`' from rfl,
          show ['`', '`'] = List.replicate 2 '`' from rfl,
          replicate_append_replicate, replicate_append_replicate]
        congr 1
        omega
      rw [← append_assoc, fourMore, append_assoc]
    rw [shifted] at same
    exact (List.cons.inj (List.cons.inj same).2).2

theorem afterBackticks_ne (text : Text) : afterBackticks text ≠ '`' :: text := by
  intro same
  obtain ⟨rest, lead⟩ := afterBackticks_lead text
  have isText := (List.cons.inj (same.symm.trans lead)).2
  subst isText
  rw [afterBackticks_two] at same
  exact afterBackticks_grows rest 1 (List.cons.inj (List.cons.inj (List.cons.inj same).2).2).2

structure Tracked (buffer : Text) (p q : Option Char) : Prop where
  empty : buffer = [] → q = some '`' → p = some '`'
  one : ∀ c, buffer = [c] → q = some c ∧ (c = '`' → p ≠ some '`')
  two : ∀ c d, buffer = [c, d] → p = some c ∧ q = some d
  unopened : ∀ rest, buffer ≠ '`' :: '`' :: '`' :: rest

theorem tracked_nil {p q : Option Char} (last : q = some '`' → p = some '`') : Tracked [] p q where
  empty _ := last
  one _ isOne := by cases isOne
  two _ _ isTwo := by cases isTwo
  unopened _ isLong := by cases isLong

theorem Tracked.append {buffer : Text} {p q : Option Char} {ch : Char}
    (tracked : Tracked buffer p q)
    (plain : ¬ThirdBacktick p q ch) : Tracked (buffer ++ [ch]) q (some ch) where
  empty none := absurd none (append_ne_nil_of_right_ne_nil _ (cons_ne_nil _ _))
  one c isOne := by
    cases buffer with
    | nil =>
      cases isOne
      exact ⟨rfl, fun isTick after => plain ⟨isTick, tracked.empty rfl after, after⟩⟩
    | cons d buffer => cases buffer <;> cases isOne
  two c d isTwo := by
    match buffer, tracked, isTwo with
    | [b], tracked, isTwo =>
      cases isTwo
      exact ⟨(tracked.one _ rfl).1, rfl⟩
    | _ :: _ :: _, _, isTwo => simp at isTwo
  unopened rest isLong := by
    match buffer, tracked, isLong with
    | [], _, isLong => simp at isLong
    | [_], _, isLong => simp at isLong
    | [b, c], tracked, isLong =>
      obtain ⟨rfl, rfl, rfl, _⟩ : b = '`' ∧ c = '`' ∧ ch = '`' ∧ [] = rest := by simpa using isLong
      obtain ⟨isP, isQ⟩ := tracked.two _ _ rfl
      exact plain ⟨rfl, isP, isQ⟩
    | b :: c :: d :: buffer, tracked, isLong =>
      obtain ⟨rfl, rfl, rfl, _⟩ : b = '`' ∧ c = '`' ∧ d = '`' ∧ buffer ++ [ch] = rest := by
        simpa using isLong
      exact tracked.unopened buffer rfl

theorem concat_tokenizeFrom_iff (text : Text) :
    ∀ (state : KQLSplitState) (buffer : Text) (p q : Option Char),
    (state = .outsideString → Tracked buffer p q) →
      (concat (tokenizeFrom state buffer p q text) = buffer ++ text ↔
        backticksLead state buffer.length p q text = true) := by
  induction text with
  | nil => exact fun state buffer p q _ => by simp [tokenizeFrom, backticksLead]
  | cons ch text ih =>
    intro state buffer p q tracked
    generalize turned : nextState state p q ch = next
    have turn := turn_nextState state p q ch
    rw [turned] at turn
    cases turn with
    | outside plain =>
      have after := ih .outsideString (buffer ++ [ch]) q (some ch) fun _ =>
        (tracked rfl).append plain
      rw [(tokenizeFrom_outside turned buffer text).1, (tokenizeFrom_outside turned buffer text).2]
      simpa using after
    | backticks third =>
      obtain ⟨rfl, rfl, rfl⟩ := third
      have after : afterBackticks text = ['`', '`', '`'] ++ text ↔
          backticksLead .insideMultilineString 3 (some '`') (some '`') text = true :=
        ih .insideMultilineString ['`', '`', '`'] (some '`') (some '`') fun none => by cases none
      rw [(tokenizeFrom_backticks turned buffer text).1,
        (tokenizeFrom_backticks turned buffer text).2, Bool.and_eq_true, decide_eq_true_iff,
        ← after]
      match buffer, tracked rfl with
      | [], _ => exact iff_of_false (afterBackticks_ne text) (fun both => by cases both.1)
      | [c], tracked =>
        obtain ⟨isQ, other⟩ := tracked.one c rfl
        exact absurd rfl (other (Option.some.inj isQ).symm)
      | [c, d], tracked =>
        obtain ⟨isP, isQ⟩ := tracked.two c d rfl
        cases isP
        cases isQ
        exact ⟨fun same => ⟨rfl, same⟩, fun both => both.2⟩
      | b :: c :: d :: buffer, tracked =>
        refine iff_of_false (fun same => ?_) (fun both => by simp at both)
        obtain ⟨rest, lead⟩ := afterBackticks_lead text
        rw [afterBackticks] at lead
        rw [lead] at same
        obtain ⟨rfl, rfl, rfl, _⟩ : '`' = b ∧ '`' = c ∧ '`' = d ∧ rest = buffer ++ '`' :: text := by
          simpa using same
        exact tracked.unopened buffer rfl
    | quote isQuote quoted =>
      have after := ih next [ch] q (some ch) fun isOutside => by
        rcases quoted with isNext | isNext <;> cases isNext.symm.trans isOutside
      rw [(tokenizeFrom_quote turned quoted buffer text).1,
        (tokenizeFrom_quote turned quoted buffer text).2, concat_append, concat_classify]
      simpa using after
    | closing inside ends =>
      have after := ih .outsideString [] q (some ch) fun _ => tracked_nil fun isTick => by
        rcases ends with (rfl | rfl) | third
        · cases isTick
        · cases isTick
        · exact third.2.2
      rw [(tokenizeFrom_closing inside turned buffer text).1,
        (tokenizeFrom_closing inside turned buffer text).2, concat_cons]
      simpa using after
    | inside inside =>
      have after := ih state (buffer ++ [ch]) q (some ch) fun isOutside => absurd isOutside inside
      rw [(tokenizeFrom_inside inside turned buffer text).1,
        (tokenizeFrom_inside inside turned buffer text).2]
      simpa using after

def tokenMarks (tokens : List Token) : List Bool :=
  tokens.flatMap fun token => if token.type = .semicolon then [true]
    else token.text.map fun _ => false

def semicolons (text : Text) : List Bool := text.map fun c => decide (c = ';')

/-- A token of type semicolon is one semicolon, and no token is empty. -/
def Plain (token : Token) : Prop := token.text ≠ [] ∧ (token.type = .semicolon → token.text = [';'])

theorem typeOf_eq_semicolon_iff (c : Char) : typeOf c = .semicolon ↔ c = ';' := by
  constructor
  · unfold typeOf
    split
    · exact fun isWord => by cases isWord
    · split
      · exact fun isNumber => by cases isNumber
      · split
        · exact fun isSpace => by cases isSpace
        · split
          · next isSemicolon => exact fun _ => isSemicolon
          · split <;> exact fun isOther => by cases isOther
  · rintro rfl
    decide

theorem continues_semicolon (first : Char) : continues first ';' = false := by
  unfold continues
  split
  · decide
  · split
    · decide
    · rw [show PyText.isspace ';' = false by decide, Bool.and_false]

theorem continues_of_semicolon (c : Char) : continues ';' c = false := by
  rw [continues, if_neg (by decide), if_neg (by decide), show PyText.isspace ';' = false by decide,
    Bool.false_and]

@[simp] theorem tokenMarks_cons (token : Token) (tokens : List Token) :
    tokenMarks (token :: tokens) =
    (if token.type = .semicolon then [true] else token.text.map fun _ => false) ++
      tokenMarks tokens := rfl

@[simp] theorem tokenMarks_append (first second : List Token) :
    tokenMarks (first ++ second) = tokenMarks first ++ tokenMarks second := flatMap_append

theorem match_marks {first : Char} {run : Text} (none : ';' ∉ run)
    (alone : first = ';' → run = []) :
    (if typeOf first = .semicolon then [true] else (first :: run).map fun _ => false) =
      semicolons (first :: run) ∧
      Plain ⟨typeOf first, first :: run⟩ := by
  refine ⟨?_, cons_ne_nil _ _, fun isSemicolon => ?_⟩
  · split
    · next isSemicolon =>
      have isFirst := (typeOf_eq_semicolon_iff first).mp isSemicolon
      rw [alone isFirst, isFirst]
      rfl
    · next other =>
      refine map_congr_left fun c member => (decide_eq_false fun isSemicolon => ?_).symm
      rcases mem_cons.mp member with isFirst | inRun
      · exact other ((typeOf_eq_semicolon_iff first).mpr (isFirst ▸ isSemicolon))
      · exact none (isSemicolon ▸ inRun)
  · have isFirst := (typeOf_eq_semicolon_iff first).mp isSemicolon
    rw [alone isFirst, isFirst]

theorem classifyFrom_marks (text : Text) :
    ∀ (first : Char) (run : Text), ';' ∉ run → (first = ';' → run = []) →
    tokenMarks (classifyFrom first run text) = semicolons (first :: (run ++ text)) ∧
      ∀ token ∈ classifyFrom first run text, Plain token := by
  induction text with
  | nil =>
    intro first run none alone
    obtain ⟨marks, plain⟩ := match_marks none alone
    rw [classifyFrom, tokenMarks_cons, marks, append_nil]
    exact ⟨append_nil _, fun token member => mem_singleton.mp member ▸ plain⟩
  | cons c text ih =>
    intro first run none alone
    rw [classifyFrom]
    split
    · next more =>
      have free : ';' ∉ run ++ [c] := by
        rw [mem_append, mem_singleton]
        rintro (inRun | rfl)
        · exact none inRun
        · cases (continues_semicolon first).symm.trans more
      have word : first = ';' → run ++ [c] = [] := by
        rintro rfl
        cases (continues_of_semicolon c).symm.trans more
      have kept := ih first (run ++ [c]) free word
      rwa [append_assoc, singleton_append] at kept
    · obtain ⟨marks, plain⟩ := match_marks none alone
      obtain ⟨rest, others⟩ := ih c [] not_mem_nil fun _ => rfl
      rw [tokenMarks_cons, marks, rest]
      exact ⟨by simp [semicolons], forall_mem_cons.mpr ⟨plain, others⟩⟩

theorem classify_marks (text : Text) : tokenMarks (classifyNonStringKql text) = semicolons text ∧
    ∀ token ∈ classifyNonStringKql text, Plain token := by
  cases text with
  | nil => exact ⟨rfl, fun _ none => absurd none not_mem_nil⟩
  | cons c text => exact classifyFrom_marks text c [] not_mem_nil fun _ => rfl

theorem tokenizeFrom_plain (text : Text) :
    ∀ (state : KQLSplitState) (buffer : Text) (p q : Option Char),
    ∀ token ∈ tokenizeFrom state buffer p q text, Plain token := by
  induction text with
  | nil => exact fun _ buffer _ _ => (classify_marks buffer).2
  | cons ch text ih =>
    intro state buffer p q
    generalize turned : nextState state p q ch = next
    have turn := turn_nextState state p q ch
    rw [turned] at turn
    cases turn with
    | outside =>
      rw [(tokenizeFrom_outside turned buffer text).1]
      exact ih _ _ _ _
    | backticks =>
      rw [(tokenizeFrom_backticks turned buffer text).1]
      exact ih _ _ _ _
    | quote _ quoted =>
      rw [(tokenizeFrom_quote turned quoted buffer text).1]
      exact forall_mem_append.mpr ⟨(classify_marks buffer).2, ih _ _ _ _⟩
    | closing inside =>
      rw [(tokenizeFrom_closing inside turned buffer text).1]
      exact forall_mem_cons.mpr ⟨⟨by simp, fun isSemicolon => by cases isSemicolon⟩, ih _ _ _ _⟩
    | inside inside =>
      rw [(tokenizeFrom_inside inside turned buffer text).1]
      exact ih _ _ _ _

theorem tokenizeFrom_marks (text : Text) :
    ∀ (state : KQLSplitState) (buffer : Text) (p q : Option Char),
    (state = .outsideString → Tracked buffer p q) →
    backticksLead state buffer.length p q text = true →
      tokenMarks (tokenizeFrom state buffer p q text) =
        (if state ≠ .outsideString ∧ lookBehind.closes (state, p, q) text = true then
          buffer.map fun _ => false
          else semicolons buffer) ++ lookBehind.marks ';' (state, p, q) text := by
  induction text with
  | nil =>
    intro state buffer p q _ _
    have unclosed : lookBehind.closes (state, p, q) [] = false := rfl
    rw [unclosed, if_neg (by simp), tokenizeFrom, (classify_marks buffer).1]
    exact (append_nil _).symm
  | cons ch text ih =>
    intro state buffer p q tracked leads
    have closes : lookBehind.closes (state, p, q) (ch :: text) =
        (decide (nextState state p q ch = .outsideString) ||
          lookBehind.closes (nextState state p q ch, q, some ch) text) := rfl
    have marks : lookBehind.marks ';' (state, p, q) (ch :: text) =
        (decide (ch = ';') &&
          (decide (state = .outsideString) || !lookBehind.closes (state, p, q) (ch :: text))) ::
          lookBehind.marks ';' (nextState state p q ch, q, some ch) text := rfl
    rw [marks, closes]
    generalize turned : nextState state p q ch = next
    have turn := turn_nextState state p q ch
    rw [turned] at turn
    cases turn with
    | outside plain =>
      rw [(tokenizeFrom_outside turned buffer text).2] at leads
      rw [(tokenizeFrom_outside turned buffer text).1,
        ih .outsideString (buffer ++ [ch]) q (some ch)
        (fun _ => (tracked rfl).append plain) (by simpa using leads)]
      simp [semicolons]
    | backticks third =>
      rw [(tokenizeFrom_backticks turned buffer text).2, Bool.and_eq_true,
        decide_eq_true_iff] at leads
      obtain ⟨isTwo, leads⟩ := leads
      obtain ⟨c, d, rfl⟩ := length_eq_two.mp isTwo
      obtain ⟨isP, isQ⟩ := (tracked rfl).two c d rfl
      obtain ⟨rfl, rfl, rfl⟩ := third
      cases isP
      cases isQ
      rw [(tokenizeFrom_backticks turned _ text).1,
        ih .insideMultilineString ['`', '`', '`'] (some '`') (some '`')
          (fun none => by cases none) leads]
      split <;> rfl
    | quote isQuote quoted =>
      have inside : next ≠ .outsideString := by
        rcases quoted with isNext | isNext <;> rw [isNext] <;> decide
      have other : ch ≠ ';' := by rcases isQuote with rfl | rfl <;> decide
      rw [(tokenizeFrom_quote turned quoted buffer text).2] at leads
      rw [(tokenizeFrom_quote turned quoted buffer text).1, tokenMarks_append,
        (classify_marks buffer).1,
        ih next [ch] q (some ch) (fun isNext => absurd isNext inside) leads]
      simp [semicolons, other]
    | closing inside ends =>
      have other : ch ≠ ';' := by
        rcases ends with (rfl | rfl) | third
        · decide
        · decide
        · rw [third.1]
          decide
      have fresh : Tracked [] q (some ch) := tracked_nil fun isTick => by
        rcases ends with (rfl | rfl) | third
        · cases isTick
        · cases isTick
        · exact third.2.2
      rw [(tokenizeFrom_closing inside turned buffer text).2] at leads
      rw [(tokenizeFrom_closing inside turned buffer text).1, tokenMarks_cons,
        ih .outsideString [] q (some ch) (fun _ => fresh) leads]
      simp [semicolons, other, inside]
    | inside inside =>
      rw [(tokenizeFrom_inside inside turned buffer text).2] at leads
      rw [(tokenizeFrom_inside inside turned buffer text).1, ih state (buffer ++ [ch]) q (some ch)
        (fun isState => absurd isState inside) (by simpa using leads)]
      cases closed : lookBehind.closes (state, q, some ch) text with
      | true => simp [inside]
      | false => simp [semicolons, inside]

/-- The loop of `split_kql` cuts at the semicolons among the tokens. -/
theorem splitTokens_eq_cut (tokens : List Token) : ∀ current : List Token,
    (∀ token ∈ current ++ tokens, Plain token) →
    (splitTokens current tokens).map concat = cut (concat current) (tokenMarks tokens)
      (concat tokens) := by
  have unmarked : ∀ (run part text : Text) (marks : List Bool),
      cut part ((run.map fun _ => false) ++ marks) (run ++ text) =
        cut (part ++ run) marks text := by
    intro run
    induction run with
    | nil => exact fun part text marks => by simp
    | cons c run ih =>
      intro part text marks
      rw [map_cons, cons_append, cons_append, cut, ih, append_assoc, singleton_append]
  have empty (current : List Token) (plain : ∀ token ∈ current, Plain token) : concat current = [] ↔
      current = [] := by
    cases current with
    | nil => simp
    | cons token current => simp [(plain token mem_cons_self).1]
  induction tokens with
  | nil =>
    intro current plain
    rw [append_nil] at plain
    simp only [splitTokens, tokenMarks, flatMap_nil, concat_nil, cut, empty current plain]
    split <;> rfl
  | cons token tokens ih =>
    intro current plain
    obtain ⟨here, rest⟩ := forall_mem_append.mp plain
    obtain ⟨plainToken, later⟩ := forall_mem_cons.mp rest
    rw [splitTokens, tokenMarks_cons, concat_cons]
    split
    · next isSemicolon =>
      rw [plainToken.2 isSemicolon, cons_append, nil_append, cons_append, nil_append, cut]
      simp only [empty current here]
      split
      · exact ih [] later
      · rw [map_cons, ih [] later]
        rfl
    · rw [unmarked, ih (current ++ [token]) (by simpa using plain), concat_append]
      simp

theorem literals_passes : literals.Passes ';' := by
  intro state
  cases state with
  | outside backticks => rfl
  | quoted double escaped => cases double <;> cases escaped <;> rfl
  | multiline backticks => rfl

theorem lookBehind_passes : lookBehind.Passes ';' := by
  rintro ⟨state, p, q⟩
  cases state <;> rfl

/-- Nothing is lost and the cuts are outside the literals exactly when triple backticks lead and
every semicolon is in a literal for both readings or for neither. -/
theorem split_lossless_iff (kql : Text) :
    concat (tokenizeKql kql) = kql ∧ splitKql kql = statements kql ↔
      backticksLead .outsideString 0 none none kql = true ∧
        lookBehind.marks ';' (.outsideString, none, none) kql =
          literals.marks ';' (.outside 0) kql := by
  have fresh : Tracked [] none none := tracked_nil fun none => by cases none
  have lossless := concat_tokenizeFrom_iff kql .outsideString [] none none fun _ => fresh
  have cuts (leads : backticksLead .outsideString 0 none none kql = true) :
      splitKql kql = cut [] (lookBehind.marks ';' (.outsideString, none, none) kql) kql := by
    have marks := tokenizeFrom_marks kql .outsideString [] none none (fun _ => fresh) leads
    rw [if_neg fun both => both.1 rfl] at marks
    have split := splitTokens_eq_cut (tokenizeKql kql) []
      (tokenizeFrom_plain kql .outsideString [] none none)
    rw [splitKql, split, tokenizeKql, marks, lossless.mpr leads]
    rfl
  have agree := Cutting.cut_marks_iff lookBehind_passes literals_passes (.outsideString, none, none)
    (.outside 0) kql
  constructor
  · rintro ⟨same, split⟩
    have leads := lossless.mp same
    exact ⟨leads, agree.mp ((cuts leads).symm.trans split)⟩
  · rintro ⟨leads, same⟩
    exact ⟨lossless.mpr leads, (cuts leads).trans (agree.mpr same)⟩

/-- A semicolon in a literal after other text. -/
theorem print_lost : ¬ (concat (tokenizeKql "print ```a;b```".toList) = "print ```a;b```".toList ∧
    splitKql "print ```a;b```".toList = statements "print ```a;b```".toList) := by
  decide

end Liteset.Sql.Kql
