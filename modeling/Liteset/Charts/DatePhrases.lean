import Liteset.Charts.DateGrammar

/-!
# Which time-range phrases the date grammar accepts

A keyword is read wherever its letters stand in some letter case and something else
follows.  Hence a rewritten phrase is accepted, unless the grammar lacks its function or
unit.
-/

set_option autoImplicit false

namespace Liteset.Charts.Dates

open Lib Lib.Peg List

theorem toNat_toUpper (c : Char) : c.toUpper.toNat = if 97 ≤ c.toNat ∧ c.toNat ≤ 122
    then c.toNat - 32 else c.toNat := by
  unfold Char.toUpper
  split
  next small =>
    have bounds : 97 ≤ c.toNat ∧ c.toNat ≤ 122 := by simpa [UInt32.le_iff_toNat_le] using small
    rw [if_pos bounds]
    show (c.val + (65 - 97)).toNat = c.val.toNat - 32
    have : c.val.toNat = c.toNat := rfl
    rw [UInt32.toNat_add]
    have : (65 - 97 : UInt32).toNat = 4294967264 := by decide
    omega
  next other =>
    rw [if_neg]
    simpa [UInt32.le_iff_toNat_le] using other

theorem toNat_toLower (c : Char) : c.toLower.toNat = if 65 ≤ c.toNat ∧ c.toNat ≤ 90
    then c.toNat + 32 else c.toNat := by
  unfold Char.toLower
  split
  next small =>
    have bounds : 65 ≤ c.toNat ∧ c.toNat ≤ 90 := by simpa [UInt32.le_iff_toNat_le] using small
    rw [if_pos bounds]
    show (c.val + (97 - 65)).toNat = c.val.toNat + 32
    have : c.val.toNat = c.toNat := rfl
    rw [UInt32.toNat_add]
    have : (97 - 65 : UInt32).toNat = 32 := by decide
    omega
  next other =>
    rw [if_neg]
    simpa [UInt32.le_iff_toNat_le] using other

theorem toLower_of_toUpper {c l : Char} (same : c.toUpper = l.toUpper) (small : l.isLower = true) :
    c.toLower = l := by
  have bounds : 97 ≤ l.toNat ∧ l.toNat ≤ 122 := by
    unfold Char.isLower at small
    simpa [UInt32.le_iff_toNat_le] using small
  have numbers := congrArg Char.toNat same
  rw [toNat_toUpper, toNat_toUpper, if_pos bounds] at numbers
  apply Char.toNat_inj.mp
  rw [toNat_toLower]
  split at numbers <;> split <;> omega

theorem fold_of_upperChar {c l : Char} (same : upperChar c = upperChar l)
    (small : l.isLower = true) : fold c = l := by
  have plain : upperChar l = l.toUpper := by
    rw [upperChar, if_neg (by rintro rfl; cases small), if_neg (by rintro rfl; cases small)]
  rw [plain, upperChar] at same
  rw [fold]
  by_cases dotless : c = '\u0131'
  · rw [if_pos dotless] at same
    rw [if_pos (.inr dotless)]
    exact toLower_of_toUpper (c := 'I') same small
  by_cases long : c = '\u017f'
  · rw [if_neg dotless, if_pos long] at same
    rw [if_neg (by rw [long]; decide), if_pos long]
    exact toLower_of_toUpper (c := 'S') same small
  rw [if_neg dotless, if_neg long] at same
  rw [if_neg, if_neg long, if_neg]
  · exact toLower_of_toUpper same small
  · rintro rfl
    have := toLower_of_toUpper same small
    subst this
    cases small
  · rintro (rfl | rfl)
    · have := toLower_of_toUpper same small
      subst this
      cases small
    · exact dotless rfl

theorem fold_of_white {c : Char} (white : isWhite c = true) : fold c = c := by
  simp only [isWhite, Bool.or_eq_true, decide_eq_true_eq] at white
  rcases white with ((rfl | rfl) | rfl) | rfl <;> decide

theorem isLower_of_mem_word (name : Keyword) : ∀ c ∈ name.word, c.isLower = true :=
  all_eq_true.mp (by cases name <;> decide)

theorem eq_of_word_starts {name other : Keyword} (isPrefix : name.word <+: other.word) :
    name = other := by
  revert isPrefix
  cases name <;> cases other <;> decide

theorem fold_of_upper {text : Text} {word : Text} (same : upper text = upper word)
    (small : ∀ c ∈ word, c.isLower = true) :
    text.map fold = word := by
  induction word generalizing text with
  | nil => simpa [upper] using same
  | cons l word ih =>
    cases text with
    | nil => cases same
    | cons c text =>
      obtain ⟨here, later⟩ := List.cons.inj same
      obtain ⟨smallHere, smallLater⟩ := forall_mem_cons.mp small
      rw [map_cons, fold_of_upperChar here smallHere, ih later smallLater]

variable {read : Token → Text → Option Text} (pyparsing : Pyparsing read)

theorem head_not_white {text : Text} {name : Keyword} (matched : text.map fold = name.word)
    (rest : Text) :
    (text ++ rest).head?.any isWhite = false := by
  cases text with
  | nil => cases name <;> cases matched
  | cons c text =>
    show isWhite c = false
    cases white : isWhite c with
    | false => rfl
    | true =>
      have member : c ∈ name.word := by
        rw [← matched, map_cons, fold_of_white white]
        exact mem_cons_self
      have small := isLower_of_mem_word name c member
      simp only [isWhite, Bool.or_eq_true, decide_eq_true_eq] at white
      rcases white with ((rfl | rfl) | rfl) | rfl <;> cases small

include pyparsing

/-- A keyword reads its own letters in any case but the odd ones, and refuses those of
the others. -/
theorem read_keyword {text : Text} {other : Keyword} (matched : text.map fold = other.word)
    (name : Keyword) {c : Char}
    (stops : isWordChar c = false) (rest : Text) : read (.keyword name) (text ++ c :: rest) =
      if name = other ∧ upper text = upper name.word then some (c :: rest) else none := by
  rw [pyparsing.keyword name _ (head_not_white matched _)]
  by_cases same : name = other
  · subst same
    have length : text.length = name.word.length := by rw [← matched, length_map]
    rw [← length, take_left, drop_left]
    exact if_congr (by simp [stops]) rfl rfl
  · rw [if_neg, if_neg (fun both => same both.1)]
    rintro ⟨equal, -⟩
    have taken := take_prefix name.word.length (text ++ c :: rest)
    have first : name.word <+: (text ++ c :: rest).map fold :=
      fold_of_upper equal (isLower_of_mem_word name) ▸ taken.map fold
    have second : other.word <+: (text ++ c :: rest).map fold := by
      rw [map_append, matched]
      exact prefix_append _ _
    rcases prefix_or_prefix_of_prefix first second with before | after
    · exact same (eq_of_word_starts before)
    · exact same (eq_of_word_starts after).symm

theorem parses_keywords {text : Text} {name : Keyword} (matched : text.map fold = name.word)
    (names : List Keyword)
    (rest : Text) : Parses read rules (keywords names) (' ' :: (text ++ ')' :: rest))
      (if name ∈ names ∧ upper text = upper name.word then some (')' :: rest) else none) := by
  have reading (other : Keyword) :=
    (pyparsing.white (.keyword other) ' ' (text ++ ')' :: rest) rfl).trans
    (read_keyword pyparsing matched other (by decide) rest)
  induction names with
  | nil => exact .exhausted
  | cons other names ih =>
    have here : Parses read rules (.token (.keyword other)) _ _ := .token (reading other)
    by_cases chosen : other = name ∧ upper text = upper other.word
    · rw [if_pos chosen] at here
      rw [if_pos ⟨chosen.1 ▸ List.mem_cons_self, chosen.1 ▸ chosen.2⟩]
      exact .chosen here
    · rw [if_neg chosen] at here
      have same : (name ∈ other :: names ∧ upper text = upper name.word) ↔
        (name ∈ names ∧ upper text = upper name.word) :=
        and_congr_left fun spelled => by
          rw [List.mem_cons]
          exact or_iff_right fun isOther => chosen ⟨isOther.symm, isOther ▸ spelled⟩
      rw [if_congr same rfl rfl]
      exact .passed here ih

theorem parses_rule (func : Func) (rest : Text) (func' : Func) {outcome : Option Text}
    (inside : func' = func → Parses read rules (.seq (arguments func ++ [rparen])) rest outcome)
    (other : func' ≠ func → outcome = none) :
    Parses read rules (.rule func') (upper func.keyword.word ++ '(' :: rest) outcome := by
  have spelled : (upper func.keyword.word).map fold = func.keyword.word := by cases func <;> decide
  have reading :=
    read_keyword pyparsing spelled func'.keyword (by decide : isWordChar '(' = false) rest
  refine .rule ?_
  by_cases same : func' = func
  · subst same
    rw [if_pos ⟨rfl, by cases func' <;> decide⟩] at reading
    exact .next (.token reading)
      (.next (.token ((pyparsing.mark '(' '(' rest (by decide)).trans (if_pos rfl))) (inside rfl))
  · rw [if_neg fun both =>
      same (by revert both; cases func <;> cases func' <;> simp [Func.keyword])] at reading
    rw [other same]
    exact .stop (.token reading)

theorem parses_dateExpr (func : Func) (isDate : func ≠ .datediff) {rest : Text}
    {outcome : Option Text}
    (inside : Parses read rules (.seq (arguments func ++ [rparen])) rest outcome) :
    Parses read rules dateExpr (upper func.keyword.word ++ '(' :: rest) outcome := by
  have here := parses_rule pyparsing func rest func (fun _ => inside)
    (fun different => absurd rfl different)
  refine here.first_of (by cases func <;> simp at isDate ⊢) fun other member different => ?_
  simp only [List.mem_cons, List.not_mem_nil, or_false] at member
  rcases member with rfl | rfl | rfl | rfl | rfl <;>
    exact parses_rule pyparsing func rest _ (fun same => absurd (congrArg _ same) different)
      (fun _ => rfl)

theorem read_mark (c : Char) (solid : isWhite c = false) (rest : Text) :
    read (.mark c) (c :: rest) = some rest :=
  (pyparsing.mark c c rest solid).trans (if_pos rfl)

theorem no_comma (rest : Text) :
    Parses read rules (.optional comma) (')' :: rest) (some (')' :: rest)) :=
  .absent (.token ((pyparsing.mark ',' ')' rest (by decide)).trans (if_neg (by decide))))

theorem parses_unit {unit : Text} {name : Keyword} (matched : unit.map fold = name.word)
    (names : List Keyword) (rest : Text) :
    Parses read rules (.seq [keywords names, .optional comma]) (' ' :: (unit ++ ')' :: rest))
      (if name ∈ names ∧ upper unit = upper name.word then some (')' :: rest) else none) := by
  have reading := parses_keywords pyparsing matched names rest
  by_cases fits : name ∈ names ∧ upper unit = upper name.word
  · rw [if_pos fits] at reading ⊢
    exact .next reading (.next (no_comma pyparsing rest) .done)
  · rw [if_neg fits] at reading ⊢
    exact .stop reading

theorem parses_datetime {base : Text} (plain : ∀ c ∈ base, isPlain c = true) (rest : Text) :
    Parses read rules dateExpr ("DATETIME('".toList ++ (base ++ '\'' :: ')' :: rest))
      (some rest) := by
  refine parses_dateExpr pyparsing .datetime (by decide) ?_
  refine .next (.token
    (pyparsing.quotedString base (')' :: rest) plain (fun quote => by cases quote))) ?_
  exact .next (.token (read_mark pyparsing ')' (by decide) rest)) .done

omit pyparsing in
theorem isDecimal_of_isDigit {c : Char} (digit : c.isDigit = true) : isDecimal c = true := by
  rw [isDecimal, PyText.decimal_of_isDigit digit, Option.isSome_some]

theorem parses_number {sign : Text} (isSign : sign ∈ [[], ['-']]) (n : Nat) (rest : Text) :
    Parses read rules intOperand (' ' :: (sign ++ (Nat.toDigits 10 n ++ ',' :: rest)))
      (some (',' :: rest)) := by
  obtain ⟨unsigned, signed⟩ :=
    pyparsing.signedInteger (Nat.toDigits 10 n) (',' :: rest) Nat.toDigits_ne_nil
    (fun _ member =>
      isDecimal_of_isDigit (Nat.isDigit_of_mem_toDigits (by decide) (by decide) member)) rfl
  refine .chosen (.token ((pyparsing.white _ ' ' _ rfl).trans ?_))
  simp only [mem_cons, not_mem_nil, or_false] at isSign
  rcases isSign with rfl | rfl
  · exact unsigned
  · exact signed

omit pyparsing in
structure Reads (read : Token → Text → Option Text) (expression : Text) (fits : Prop) : Prop where
  starts : ∃ func rest, func ≠ Func.datediff ∧ expression = upper func.keyword.word ++ '(' :: rest
  fitting : fits → ∀ rest, Parses read rules dateExpr (expression ++ rest) (some rest)
  failing : ¬ fits → ∀ rest, Parses read rules dateExpr (expression ++ rest) none

theorem accepts_iff {expression : Text} {fits : Prop} (reads : Reads read expression fits) :
    Accepts read expression ↔ fits := by
  constructor
  · rintro ⟨rest, accepted⟩
    by_contra failing
    obtain ⟨func, inside, isDate, shape⟩ := reads.starts
    have refused := reads.failing failing []
    have diff : Parses read rules (.rule .datediff) expression none := shape ▸
      parses_rule pyparsing func inside .datediff (fun same => absurd same.symm isDate)
        (fun _ => rfl)
    rw [append_nil] at refused
    cases accepted.unique (.passed refused (.passed diff .exhausted))
  · intro fits
    have accepted := reads.fitting fits []
    rw [append_nil] at accepted
    exact ⟨[], .chosen accepted⟩

theorem reads_datetime {base : Text} (plain : ∀ c ∈ base, isPlain c = true) :
    Reads read ("DATETIME('".toList ++ base ++ "')".toList) True where
  starts := ⟨.datetime, '\'' :: (base ++ "')".toList), by decide, by rw [append_assoc]; rfl⟩
  fitting _ rest := by
    rw [append_assoc, append_assoc]
    exact parses_datetime pyparsing plain rest
  failing no := absurd trivial no

theorem reads_dateAdd {base : Text} (plain : ∀ c ∈ base, isPlain c = true) {sign : Text}
    (isSign : sign ∈ [[], ['-']]) (n : Nat)
    {unit : Text} {name : Keyword} (matched : unit.map fold = name.word) (isUnit : name ∈ units) :
    Reads read (dateAdd base sign n unit) (upper unit = upper name.word) := by
  have shape (rest : Text) :
    dateAdd base sign n unit ++ rest = "DATEADD(DATETIME('".toList ++ (base ++ ("'), ".toList ++
      (sign ++ (Nat.toDigits 10 n ++ (", ".toList ++ (unit ++ (")".toList ++ rest))))))) := by
    unfold dateAdd
    generalize "DATEADD(DATETIME('".toList = front, "'), ".toList = afterBase,
      ", ".toList = afterNumber, ")".toList = last
    simp only [append_assoc]
  have parse (rest : Text) {outcome : Option Text}
    (ends : Parses read rules (.seq [keywords units, .optional comma])
      (' ' :: (unit ++ ')' :: rest)) (outcome.map (')' :: ·))) :
      Parses read rules dateExpr (dateAdd base sign n unit ++ rest) outcome := by
    rw [shape]
    refine parses_dateExpr pyparsing .dateadd (by decide) ?_
    have comma' (text : Text) : Parses read rules comma _ _ :=
      .token (read_mark pyparsing ',' (by decide) text)
    have inside {left : Option Text}
      (last : Parses read rules (.seq [keywords units, .optional comma])
        (' ' :: (unit ++ ')' :: rest)) left) :=
      Parses.next (parses_datetime pyparsing plain _) (.next (comma' _)
        (.next (parses_number pyparsing isSign n _) (.next (comma' _) last)))
    cases outcome with
    | none => exact .stop (inside ends)
    | some _ =>
      exact .next (inside ends) (.next (.token (read_mark pyparsing ')' (by decide) _)) .done)
  have ends := parses_unit pyparsing matched units
  constructor
  · exact ⟨.dateadd, _, by decide, by rw [← append_nil (dateAdd _ _ _ _), shape]; rfl⟩
  · intro fits rest
    have last := ends rest
    rw [if_pos ⟨isUnit, fits⟩] at last
    exact parse rest last
  · intro fails rest
    have last := ends rest
    rw [if_neg fun both => fails both.2] at last
    exact parse rest last

/-- A function of a date and a unit is read when the date is and the grammar has the unit for it. -/
theorem reads_call (func : Func) {names : List Keyword} (isDate : func ≠ .datediff)
    (takes : arguments func = [.seq [dateExpr, comma, keywords names, .optional comma]])
    {date : Text} {fits : Prop}
    (inner : Reads read date fits) (name : Keyword) :
    Reads read (upper func.keyword.word ++
      '(' :: (date ++ (", ".toList ++ (name.word ++ ")".toList)))) (fits ∧ name ∈ names) := by
  have matched : name.word.map fold = name.word := by cases name <;> decide
  have parse (rest : Text) {outcome : Option Text} (body : Parses read rules
      (.seq [dateExpr, comma, keywords names, .optional comma])
        (date ++ ',' :: ' ' :: (name.word ++ ')' :: rest))
      (outcome.map (')' :: ·))) :
      Parses read rules dateExpr
        (upper func.keyword.word ++
        '(' :: (date ++ (", ".toList ++ (name.word ++ ")".toList))) ++ rest)
        outcome := by
    rw [append_assoc, cons_append, append_assoc, append_assoc, append_assoc]
    refine parses_dateExpr pyparsing func isDate ?_
    rw [takes]
    cases outcome with
    | none => exact .stop body
    | some _ => exact .next body (.next (.token (read_mark pyparsing ')' (by decide) _)) .done)
  constructor
  · exact ⟨func, _, isDate, rfl⟩
  · intro both rest
    have last := parses_unit pyparsing matched names rest
    rw [if_pos ⟨both.2, rfl⟩] at last
    exact parse rest
      (.next (inner.fitting both.1 _) (.next (.token (read_mark pyparsing ',' (by decide) _)) last))
  · intro fails rest
    by_cases dateFits : fits
    · have last := parses_unit pyparsing matched names rest
      rw [if_neg fun both => fails ⟨dateFits, both.1⟩] at last
      exact parse rest
        (.next (inner.fitting dateFits _)
          (.next (.token (read_mark pyparsing ',' (by decide) _)) last))
    · exact parse rest (.stop (inner.failing dateFits _))

omit pyparsing

structure Yields (read : Token → Text → Option Text) (outcome : Except Text Text) (fits : Prop) :
    Prop where
  fitting : fits → ∃ expression, outcome = .ok expression
  reading : ∀ expression, outcome = .ok expression → Reads read expression fits

def shortNumber (delta : Option Text) : Prop := ∀ number ∈ delta, number.length ≤ 4300

theorem readDelta_ok {delta : Option Text}
    (digits : ∀ number ∈ delta, number ≠ [] ∧ ∀ c ∈ number, c.isDigit = true) :
    (∃ n, readDelta delta = .ok n) ↔ shortNumber delta := by
  cases delta with
  | none => exact ⟨fun _ => by simp [shortNumber], fun _ => ⟨1, rfl⟩⟩
  | some number =>
    simp only [shortNumber, Option.mem_some_iff, forall_eq', readDelta]
    by_cases short : number.length ≤ 4300
    · rw [PyText.int_digits (digits number rfl).2 short]
      exact ⟨fun _ => short, fun _ => ⟨_, rfl⟩⟩
    · rw [PyText.int, if_neg (by simpa using short)]
      simp [short]

theorem lower_of_fold {text word : Text} (matched : text.map fold = word)
    (plain : word.all (fun l => l ≠ 'i' && l ≠ 's') = true) :
    lower text = word := by
  induction text generalizing word with
  | nil => exact matched
  | cons c text ih =>
    subst matched
    rw [map_cons, all_cons, Bool.and_eq_true, Bool.and_eq_true, decide_eq_true_eq,
      decide_eq_true_eq] at plain
    obtain ⟨⟨notI, notS⟩, later⟩ := plain
    have here : (if c = '\u0130' then ['i', '\u0307'] else if c = '\u212a' then ['k'] else
        [c.toLower]) = [fold c] := by
      simp only [fold] at notI notS ⊢
      split at notI
      next odd => exact absurd rfl notI
      next even =>
          rw [if_neg even] at notS
          split at notS
          next => exact absurd rfl notS
          next notLong =>
              rw [if_neg even, if_neg notLong, if_neg fun dotted => even (.inl dotted)]
              split <;> rfl
    rw [lower, flatMap_cons, here, map_cons]
    exact congrArg (fold c :: ·) (ih rfl later)

theorem Reads.congr {expression : Text} {fits fits' : Prop} (reads : Reads read expression fits)
    (same : fits' ↔ fits) :
    Reads read expression fits' := propext same ▸ reads

include pyparsing

theorem yields_scope {scope unit base : Text} {delta : Option Text} {name : Keyword}
    (plain : ∀ c ∈ base, isPlain c = true)
    (digits : ∀ number ∈ delta, number ≠ [] ∧ ∀ c ∈ number, c.isDigit = true)
    (matched : unit.map fold = name.word) (isUnit : name ∈ units) :
    Yields read (handleScopeAndUnit scope delta unit base)
      (shortNumber delta ∧ lower scope ∈ scopes ∧
        (lower scope = "this".toList ∨ upper unit = upper name.word)) := by
  have short := readDelta_ok digits
  have members : lower scope ∈ scopes ↔ lower scope = "this".toList ∨
    lower scope ∈ ["last".toList, "prior".toList] ∨
      lower scope = "next".toList := by
    simp only [scopes, mem_cons, not_mem_nil, or_false]
    rw [or_assoc, or_comm (b := lower scope = "prior".toList)]
  unfold handleScopeAndUnit
  cases number : readDelta delta with
  | error message =>
    rw [number] at short
    have long : ¬ shortNumber delta := fun fits => by
      obtain ⟨n, found⟩ := short.mpr fits
      cases found
    exact ⟨fun fits => absurd fits.1 long, fun _ found => nomatch found⟩
  | ok n =>
    have fits : shortNumber delta := short.mp ⟨n, number⟩
    have added {sign : Text} (isSign : sign ∈ [[], ['-']]) (isScope : lower scope ∈ scopes)
      (notThis : lower scope ≠ "this".toList) :
        Yields read (.ok (dateAdd base sign n unit))
          (shortNumber delta ∧ lower scope ∈ scopes ∧
            (lower scope = "this".toList ∨ upper unit = upper name.word)) := by
      refine ⟨fun _ => ⟨_, rfl⟩, fun _ found => ?_⟩
      cases found
      refine (reads_dateAdd pyparsing plain isSign n matched isUnit).congr ?_
      exact ⟨fun all => all.2.2.resolve_left notThis, fun spelled => ⟨fits, isScope, .inr spelled⟩⟩
    show Yields read (if lower scope = "this".toList then _ else _) _
    by_cases isThis : lower scope = "this".toList
    · rw [if_pos isThis]
      refine ⟨fun _ => ⟨_, rfl⟩, fun _ found => ?_⟩
      cases found
      exact (reads_datetime pyparsing plain).congr
        (iff_true_intro ⟨fits, members.mpr (.inl isThis), .inl isThis⟩)
    rw [if_neg isThis]
    by_cases isPast : lower scope ∈ ["last".toList, "prior".toList]
    · rw [if_pos isPast]
      exact added (by decide) (members.mpr (.inr (.inl isPast))) isThis
    rw [if_neg isPast]
    by_cases isNext : lower scope = "next".toList
    · rw [if_pos isNext]
      exact added (by decide) (members.mpr (.inr (.inr isNext))) isThis
    rw [if_neg isNext]
    refine ⟨fun all => ?_, fun _ found => nomatch found⟩
    rcases members.mp all.2.1 with found | found | found
    · exact absurd found isThis
    · exact absurd found isPast
    · exact absurd found isNext

theorem yields_modifier {modifier scope unit base : Text} {delta : Option Text} {name : Keyword}
    (plain : ∀ c ∈ base, isPlain c = true)
    (digits : ∀ number ∈ delta, number ≠ [] ∧ ∀ c ∈ number, c.isDigit = true)
    (matched : unit.map fold = name.word)
    (isUnit : name ∈ [Keyword.day, .week, .month, .quarter, .year]) :
    Yields read (handleModifierAndUnit modifier scope delta unit base)
      ((shortNumber delta ∧ lower scope ∈ scopes ∧
        (lower scope = "this".toList ∨ upper unit = upper name.word)) ∧
        lower modifier ∈ modifiers ∧
        ¬ (lower modifier = "end of".toList ∧ name ∉ lastdayUnits)) := by
  have small : lower unit = name.word :=
    lower_of_fold matched (by revert isUnit; cases name <;> decide)
  have valid : name.word ∈ validUnits := by revert isUnit; cases name <;> decide
  have inner : Yields read (handleScopeAndUnit scope delta unit base) _ :=
    yields_scope pyparsing plain digits matched (by revert isUnit; cases name <;> decide)
  unfold handleModifierAndUnit
  cases found : handleScopeAndUnit scope delta unit base with
  | error message =>
    refine ⟨fun fits => ?_, fun _ none => nomatch none⟩
    obtain ⟨expression, produced⟩ := inner.fitting fits.1
    rw [found] at produced
    cases produced
  | ok date =>
    have reads := inner.reading date found
    show Yields read (if lower modifier ∈ ["start of".toList, "beginning of".toList] then
      handleStartOf date (lower unit)
      else if lower modifier = "end of".toList then handleEndOf date (lower unit) else _) _
    rw [small, handleStartOf, handleEndOf, if_pos valid, if_pos valid]
    by_cases isStart : lower modifier ∈ ["start of".toList, "beginning of".toList]
    · rw [if_pos isStart]
      have notEnd : lower modifier ≠ "end of".toList := by
        rintro isEnd
        rw [isEnd] at isStart
        revert isStart
        decide
      refine ⟨fun _ => ⟨_, rfl⟩, fun _ produced => ?_⟩
      cases produced
      rw [append_assoc, append_assoc, append_assoc]
      refine (reads_call pyparsing .datetrunc (by decide) rfl reads name).congr
        (and_congr_right fun _ => ?_)
      refine iff_of_true ⟨?_, fun both => notEnd both.1⟩ (by revert isUnit; cases name <;> decide)
      exact mem_append_left ["end of".toList] isStart
    rw [if_neg isStart]
    by_cases isEnd : lower modifier = "end of".toList
    · rw [if_pos isEnd]
      refine ⟨fun _ => ⟨_, rfl⟩, fun _ produced => ?_⟩
      cases produced
      rw [append_assoc, append_assoc, append_assoc]
      refine (reads_call pyparsing .lastday (by decide) rfl reads name).congr
        (and_congr_right fun _ => ?_)
      rw [isEnd]
      exact ⟨fun both => not_not.mp fun missing => both.2 ⟨rfl, missing⟩,
        fun isLast => ⟨by decide, fun both => both.2 isLast⟩⟩
    rw [if_neg isEnd]
    refine ⟨fun fits => ?_, fun _ none => nomatch none⟩
    rcases mem_append.mp (show lower modifier ∈ ["start of".toList, "beginning of".toList] ++
      ["end of".toList]
      from fits.2.1) with found | found
    · exact absurd found isStart
    · exact absurd (mem_singleton.mp found) isEnd

omit pyparsing

theorem mem_units (word : Text) : word ∈ units.map Keyword.word ↔ word ∈ granularUnits ∨
    word ∈ broadUnits := by
  have reordered : (units.map Keyword.word).Perm (granularUnits ++ broadUnits) := by decide
  rw [reordered.mem_iff, mem_append]

variable {relativeStart : Option Text}

theorem getRelativeBase_ok (plain : ∀ start ∈ relativeStart, ∀ c ∈ start, isPlain c = true)
    (unit : Text) :
    ((relativeStart.isSome = true ∨ lower unit ∈ units.map Keyword.word) ∧
      ∃ base, getRelativeBase unit relativeStart = .ok base ∧ ∀ c ∈ base, isPlain c = true) ∨
    (¬ (relativeStart.isSome = true ∨ lower unit ∈ units.map Keyword.word) ∧
      ∃ message, getRelativeBase unit relativeStart = .error message) := by
  rw [mem_units]
  cases relativeStart with
  | some start => exact .inl ⟨.inl rfl, start, rfl, plain start rfl⟩
  | none =>
    rw [getRelativeBase]
    by_cases granular : lower unit ∈ granularUnits
    · rw [if_pos granular]
      exact .inl ⟨.inr (.inl granular), _, rfl, all_eq_true.mp (by decide)⟩
    rw [if_neg granular]
    by_cases broad : lower unit ∈ broadUnits
    · rw [if_pos broad]
      exact .inl ⟨.inr (.inr broad), _, rfl, all_eq_true.mp (by decide)⟩
    rw [if_neg broad]
    refine .inr ⟨fun known => ?_, _, rfl⟩
    rcases known with isSome | found | found
    · cases isSome
    · exact granular found
    · exact broad found

/-- The phrases of the second pattern that become an expression of the grammar. -/
def fitsRelative (relativeStart : Option Text) (scope : Text) (delta : Option Text)
    (unit : Text) : Prop :=
  shortNumber delta ∧ lower scope ∈ scopes ∧
    (relativeStart.isSome = true ∨ lower unit ∈ units.map Keyword.word) ∧
    (lower scope = "this".toList ∨ upper unit ∈ units.map fun name => upper name.word)

/-- Those of the first one: the grammar has no last day of a day or of a quarter. -/
def fitsStartOrEnd (modifier scope : Text) (delta : Option Text) (unit : Text) : Prop :=
  shortNumber delta ∧ lower scope ∈ scopes ∧ lower modifier ∈ modifiers ∧
    (lower scope = "this".toList ∨ upper unit ∈ units.map fun name => upper name.word) ∧
    ¬ (lower modifier = "end of".toList ∧ lower unit ∈ [Keyword.day, .quarter].map Keyword.word)

theorem upper_mem_units {unit : Text} {name : Keyword} (matched : unit.map fold = name.word)
    (isUnit : name ∈ units) :
    (upper unit ∈ units.map fun name => upper name.word) ↔ upper unit = upper name.word := by
  refine ⟨fun member => ?_, fun same => mem_map.mpr ⟨name, isUnit, same.symm⟩⟩
  obtain ⟨other, -, same⟩ := mem_map.mp member
  have folded := fold_of_upper same.symm (isLower_of_mem_word other)
  rw [matched] at folded
  have here : name = other := eq_of_word_starts ⟨[], by rw [append_nil, folded]⟩
  rw [here, same]

theorem yields_iff (pyparsing : Pyparsing read) {outcome : Except Text Text} {fits : Prop}
    (yields : Yields read outcome fits) :
    (∃ expression, outcome = .ok expression ∧ Accepts read expression) ↔ fits := by
  constructor
  · rintro ⟨expression, produced, accepted⟩
    exact (accepts_iff pyparsing (yields.reading expression produced)).mp accepted
  · intro holds
    obtain ⟨expression, produced⟩ := yields.fitting holds
    exact ⟨expression, produced,
      (accepts_iff pyparsing (yields.reading expression produced)).mpr holds⟩

theorem relative_accepted_iff (pyparsing : Pyparsing read)
    (plain : ∀ start ∈ relativeStart, ∀ c ∈ start, isPlain c = true) {text scope unit : Text}
    {delta : Option Text}
    (phrase : Relative text scope delta unit) :
    (∃ expression, relative relativeStart scope delta unit = .ok expression ∧
      Accepts read expression) ↔
      fitsRelative relativeStart scope delta unit := by
  obtain ⟨name, isName, matched⟩ := mem_map.mp phrase.unit_matches
  have isUnit : name ∈ units := by revert isName; cases name <;> decide
  rw [fitsRelative, upper_mem_units matched.symm isUnit]
  unfold relative
  rcases getRelativeBase_ok plain unit with ⟨known, base, found, plainBase⟩ |
    ⟨unknown, message, found⟩
  · rw [found]
    exact (yields_iff pyparsing
      (yields_scope pyparsing plainBase phrase.digits matched.symm isUnit)).trans
      (and_congr_right fun _ => and_congr_right fun _ => (and_iff_right known).symm)
  · rw [found]
    exact iff_of_false (fun ⟨_, produced, _⟩ => nomatch produced) (fun fits => unknown fits.2.2.1)

theorem startOrEnd_accepted_iff (pyparsing : Pyparsing read)
    (plain : ∀ start ∈ relativeStart, ∀ c ∈ start, isPlain c = true)
    {text modifier scope unit : Text} {delta : Option Text}
    (phrase : StartOrEnd text modifier scope delta unit) :
    (∃ expression, startOrEnd relativeStart modifier scope delta unit = .ok expression ∧
      Accepts read expression) ↔
      fitsStartOrEnd modifier scope delta unit := by
  obtain ⟨_, _, _, _, _, _, inner⟩ := phrase
  obtain ⟨name, isName, matched⟩ := mem_map.mp inner.unit_matches
  have isUnit : name ∈ units := by revert isName; cases name <;> decide
  have small : lower unit = name.word :=
    lower_of_fold matched.symm (by revert isName; cases name <;> decide)
  have missing : name ∉ lastdayUnits ↔ name.word ∈ [Keyword.day, .quarter].map Keyword.word := by
    revert isName
    cases name <;> decide
  rw [fitsStartOrEnd, upper_mem_units matched.symm isUnit, small, ← missing]
  unfold startOrEnd
  rcases getRelativeBase_ok plain unit with ⟨-, base, found, plainBase⟩ | ⟨unknown, -⟩
  · rw [found]
    refine (yields_iff pyparsing
      (yields_modifier pyparsing plainBase inner.digits matched.symm isName)).trans ?_
    exact ⟨fun ⟨⟨short, isScope, spelled⟩, isModifier, last⟩ =>
      ⟨short, isScope, isModifier, spelled, last⟩,
      fun ⟨short, isScope, isModifier, spelled, last⟩ =>
        ⟨⟨short, isScope, spelled⟩, isModifier, last⟩⟩
  · exact absurd (.inr (small ▸ mem_map_of_mem isUnit)) unknown

theorem eq_of_word_ends :
    ∀ name ∈ units, ∀ other ∈ units, name.word <:+ other.word → name = other := by decide

theorem word_not_plural (name : Keyword) (front : Text) :
    (front ++ name.word).getLast? ≠ some 's' := by
  rw [getLast?_append_of_ne_nil _ (by cases name <;> decide)]
  cases name <;> decide

/-- Two readings of the end of a text as a unit, with or without an `s`, agree. -/
theorem unit_unique {name other : Keyword} (isUnit : name ∈ units) (isUnit' : other ∈ units)
    {front front' plural plural' : Text} (isPlural : plural ∈ [[], ['s']])
    (isPlural' : plural' ∈ [[], ['s']])
    (same : front ++ name.word ++ plural = front' ++ other.word ++ plural') : name = other := by
  have ends (last : front ++ name.word = front' ++ other.word) : name = other := by
    have first : name.word <:+ front' ++ other.word := ⟨front, last⟩
    rcases suffix_or_suffix_of_suffix first (suffix_append front' other.word) with before | after
    · exact eq_of_word_ends _ isUnit _ isUnit' before
    · exact (eq_of_word_ends _ isUnit' _ isUnit after).symm
  simp only [mem_cons, not_mem_nil, or_false] at isPlural isPlural'
  rcases isPlural with rfl | rfl <;> rcases isPlural' with rfl | rfl
  · rw [append_nil, append_nil] at same
    exact ends same
  · rw [append_nil] at same
    exact absurd (same ▸ getLast?_concat) (word_not_plural name front)
  · rw [append_nil] at same
    exact absurd (same.symm ▸ getLast?_concat) (word_not_plural other front')
  · exact ends (append_cancel_right same)

theorem unit_of_phrase {names : List Keyword} (known : ∀ other ∈ names, other ∈ units)
    {head text scope unit : Text}
    {delta : Option Text} (phrase : ScopePattern names text scope delta unit) {front plural : Text}
    (isPlural : plural ∈ [[], ['s']]) {name : Keyword} (isUnit : name ∈ units)
    (written : front ++ name.word ++ plural = head ++ text) : name ∈ names := by
  obtain ⟨other, isOther, matched⟩ := mem_map.mp phrase.unit_matches
  obtain ⟨before, after, ending, shape, -, -, -, isEnding⟩ := phrase.parts
  have small : name.word.map fold = name.word := by cases name <;> decide
  have folded := congrArg (List.map fold) (written.trans (congrArg (head ++ ·) shape))
  rw [map_append, map_append, small, ← append_assoc, ← append_assoc head, map_append,
    map_append, ← matched] at folded
  have isPlural' : plural.map fold ∈ [[], ['s']] := by
    simp only [mem_cons, not_mem_nil, or_false] at isPlural ⊢
    rcases isPlural with rfl | rfl
    · exact .inl rfl
    · exact .inr (by decide)
  exact unit_unique isUnit (known other isOther) isPlural' isEnding folded ▸ isOther

/-- Of the phrases that the docstring of `get_since_until` lists, those in hours match
no pattern. -/
theorem matched_iff {word number plural : Text} (isScope : word ∈ ["Last".toList, "Next".toList])
    (digits : number ≠ [] ∧ ∀ c ∈ number, c.isDigit = true) {name : Keyword} (isUnit : name ∈ units)
    (isPlural : plural ∈ [[], ['s']]) :
    ((∃ modifier scope delta unit,
      StartOrEnd (word ++ [' '] ++ number ++ [' '] ++ name.word ++ plural) modifier scope
        delta unit) ∨
      ∃ scope delta unit,
        Relative (word ++ [' '] ++ number ++ [' '] ++ name.word ++ plural) scope delta unit) ↔
      name ≠ .hour := by
  constructor
  · rintro (⟨_, _, _, _, _, _, _, shape, _, _, inner⟩ | ⟨_, _, _, inner⟩) rfl
    · exact absurd (unit_of_phrase (by decide) inner isPlural isUnit shape) (by decide)
    · exact absurd (@unit_of_phrase _ (by decide) [] _ _ _ _ inner _ _ isPlural _ isUnit rfl)
        (by decide)
  · intro notHour
    simp only [mem_cons, not_mem_nil, or_false] at isScope isPlural
    refine .inr ⟨word, some number, name.word, ?_, ?_, ?_, [' '], [' '], plural, rfl, by decide,
      by decide, by decide, ?_⟩
    · rcases isScope with rfl | rfl <;> decide
    · revert isUnit notHour
      cases name <;> decide
    · rintro _ ⟨⟩
      exact digits
    · rcases isPlural with rfl | rfl <;> decide

/-- The phrases of both patterns that the grammar accepts, and the listed ones that
match a pattern. -/
theorem phrases_accepted_iff (pyparsing : Pyparsing read) {relativeStart : Option Text}
    (plain : ∀ start ∈ relativeStart, ∀ c ∈ start, isPlain c = true) :
    (∀ text modifier scope delta unit, StartOrEnd text modifier scope delta unit →
      ((∃ expression, startOrEnd relativeStart modifier scope delta unit = .ok expression ∧
        Accepts read expression) ↔
        fitsStartOrEnd modifier scope delta unit)) ∧
    (∀ text scope delta unit, Relative text scope delta unit →
      ((∃ expression, relative relativeStart scope delta unit = .ok expression ∧
        Accepts read expression) ↔
        fitsRelative relativeStart scope delta unit)) ∧
    (∀ word ∈ ["Last".toList, "Next".toList],
      ∀ number : Text, number ≠ [] → (∀ c ∈ number, c.isDigit = true) →
      ∀ name ∈ units, ∀ plural ∈ [[], ['s']],
      ((∃ modifier scope delta unit,
          StartOrEnd (word ++ [' '] ++ number ++ [' '] ++ name.word ++ plural) modifier scope
            delta unit) ∨
        ∃ scope delta unit,
          Relative (word ++ [' '] ++ number ++ [' '] ++ name.word ++ plural) scope delta unit) ↔
          name ≠ .hour) :=
  ⟨fun _ _ _ _ _ => startOrEnd_accepted_iff pyparsing plain,
    fun _ _ _ _ => relative_accepted_iff pyparsing plain,
    fun _ isScope _ some digits _ isUnit _ isPlural =>
      matched_iff isScope ⟨some, digits⟩ isUnit isPlural⟩

def scan : Token → Text → Option Text
  | .keyword name, text =>
    if upper (text.take name.word.length) = upper name.word ∧
      (text.drop name.word.length).head?.any isWordChar = false
    then some (text.drop name.word.length) else none
  | .mark c, other :: text => if other = c then some text else none
  | .mark _, [] => none
  | .quotedString, '\'' :: text =>
    match text.dropWhile isPlain with
    | '\'' :: rest => if rest.head? = some '\'' then none else some rest
    | _ => none
  | .quotedString, _ => none
  | .signedInteger, text =>
    let digits := if text.head?.any (fun c => c = '-' || c = '+') then text.tail else text
    if digits.head?.any isDecimal then some (digits.dropWhile isDecimal) else none

def plainRead (token : Token) (text : Text) : Option Text := scan token (text.dropWhile isWhite)

theorem dropWhile_before {drop : Char → Bool} {front rest : Text} (all : ∀ c ∈ front, drop c = true)
    (stops : rest.head?.any drop = false) : (front ++ rest).dropWhile drop = rest := by
  rw [dropWhile_append_of_pos all]
  cases rest with
  | nil => rfl
  | cons c rest => exact dropWhile_cons_of_neg (by simpa using stops)

theorem not_white_of_isDecimal {c : Char} (digit : isDecimal c = true) :
    isWhite c = false ∧ c ≠ '-' ∧ c ≠ '+' := by
  have apart (other : Char) (none_ : isDecimal other = false) : c ≠ other := by
    rintro rfl
    exact Bool.noConfusion (digit.symm.trans none_)
  refine ⟨?_, apart '-' (by decide), apart '+' (by decide)⟩
  simp only [isWhite, Bool.or_eq_false_iff, decide_eq_false_iff_not]
  exact ⟨⟨⟨apart ' ' (by decide), apart '\n' (by decide)⟩, apart '\t' (by decide)⟩,
    apart '\r' (by decide)⟩

theorem pyparsing_plainRead : Pyparsing plainRead where
  white token c text white := by rw [plainRead, dropWhile_cons_of_pos white, plainRead]
  keyword name text solid := by
    have same : text.dropWhile isWhite = text := @dropWhile_before _ [] _ (by simp) solid
    rw [plainRead, same, scan]
  mark c other text solid := by rw [plainRead, dropWhile_cons_of_neg (by simp [solid]), scan]
  quotedString inside text plain apart := by
    rw [plainRead, dropWhile_cons_of_neg (by decide), scan, dropWhile_before plain rfl]
    exact if_neg apart
  signedInteger digits text some all stops := by
    obtain ⟨first, digits, rfl⟩ := exists_cons_of_ne_nil some
    obtain ⟨solid, notMinus, notPlus⟩ := not_white_of_isDecimal (all first mem_cons_self)
    have rest : (digits ++ text).dropWhile isDecimal = text :=
      dropWhile_before (fun c member => all c (mem_cons_of_mem _ member)) stops
    constructor
    · rw [plainRead, cons_append, dropWhile_cons_of_neg (by simp [solid]), ← cons_append, scan]
      simp [notMinus, notPlus, all first mem_cons_self, rest]
    · rw [plainRead, dropWhile_cons_of_neg (by decide), scan]
      simp [all first mem_cons_self, rest]

theorem phrases_accepted_iff_next : ∃ expression,
    startOrEnd none "End of".toList "NEXT".toList (some ['2']) "Month".toList = .ok expression ∧
    Accepts plainRead expression := by
  have phrase : StartOrEnd "End of NEXT 2 Months".toList "End of".toList "NEXT".toList
      (some ['2']) "Month".toList := by
    refine ⟨by decide, [' '], "NEXT 2 Months".toList, rfl, by decide, by decide, by decide,
      by decide, ?_, [' '], [' '], ['s'], ?_⟩
    · rintro _ ⟨⟩
      exact ⟨by decide, all_eq_true.mp (by decide)⟩
    · exact ⟨rfl, by decide, by decide, by decide, by decide⟩
  refine ((phrases_accepted_iff pyparsing_plainRead (by rintro _ ⟨⟩)).1 _ _ _ _ _ phrase).mpr ?_
  refine ⟨?_, by decide, by decide, by decide, by decide⟩
  rintro _ ⟨⟩
  decide

/-- `end of this day` matches the first pattern, and the grammar refuses what it becomes. -/
theorem day_refused :
    StartOrEnd "end of this day".toList "end of".toList "this".toList none "day".toList ∧
    startOrEnd none "end of".toList "this".toList none "day".toList =
      .ok "LASTDAY(DATETIME('today'), day)".toList ∧
    ¬ Accepts plainRead "LASTDAY(DATETIME('today'), day)".toList := by
  refine ⟨⟨by decide, [' '], "this day".toList, rfl, by decide, by decide, by decide, by decide, ?_,
    [' '], [], [], ?_⟩, rfl, ?_⟩
  · rintro _ ⟨⟩
  · exact ⟨rfl, by decide, by decide, by decide, by decide⟩
  · rintro ⟨rest, accepted⟩
    have refused : run plainRead rules 30 datetimeParser "LASTDAY(DATETIME('today'), day)".toList =
      some none := by decide
    cases accepted.unique (run_sound refused)

end Liteset.Charts.Dates
