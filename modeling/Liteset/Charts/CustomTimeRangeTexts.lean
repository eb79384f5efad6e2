import Liteset.Charts.CustomTimeRange

/-!
# Texts of time ranges

What the expressions of the decoder match among the texts that the encoder writes, and how a range
is split at its separator.
-/

set_option autoImplicit false

namespace Liteset.Charts.TimeRanges

open Lib List

variable {text : Text} {places : List Class}

theorem consume_cons {place : Class} {c : Char} (here : place.matches c = true) :
    consume (place :: places) (c :: text) = consume places text := if_pos here

theorem consume_letters (letters rest : Text) :
    consume (letters.map .letter) (letters ++ rest) = some rest := by
  induction letters with
  | nil => rfl
  | cons c letters ih =>
    have same : (Class.letter c).matches c = true := decide_eq_true rfl
    rw [map_cons, cons_append, consume_cons same, ih]

theorem consume_literal (word : String) (rest : Text) :
    consume (literal word) (word.toList ++ rest) = some rest :=
  consume_letters word.toList rest

variable {x : Char}

theorem mem_of_consume (outside : ∀ place ∈ places, place.matches x = false)
    {text rest : Text} (done : consume places text = some rest) (member : x ∈ text) : x ∈ rest := by
  induction places generalizing text with
  | nil => exact Option.some.inj done ▸ member
  | cons place places ih =>
    cases text with
    | nil => exact absurd member not_mem_nil
    | cons c text =>
      rw [forall_mem_cons] at outside
      rw [consume] at done
      split at done
      · next here =>
        have other : x ≠ c := by
          rintro rfl
          rw [outside.1] at here
          cases here
        exact ih outside.2 done ((mem_cons.mp member).resolve_left other)
      · cases done

theorem not_mem_of_consume (outside : ∀ place ∈ places, place.matches x = false)
    (done : consume places text = some []) : x ∉ text :=
  fun member => not_mem_nil (mem_of_consume outside done member)

theorem not_mem_of_isOneOf {words : List String}
    (outside : ∀ word ∈ words, ∀ place ∈ literal word, place.matches x = false)
    (isWord : isOneOf words text = true) : x ∉ text := by
  obtain ⟨word, member, whole⟩ := any_eq_true.mp isWord
  exact not_mem_of_consume (outside word member) (of_decide_eq_true whole)

theorem mem_of_fraction (isDot : x ≠ '.') (isDigit : x.isDigit = false) (member : x ∈ text) :
    x ∈ fraction text := by
  unfold fraction
  split
  · next c rest =>
    split
    · next digit =>
      have other : x ≠ c := by
        rintro rfl
        rw [isDigit] at digit
        cases digit
      have inRest : x ∈ rest := by simpa [isDot, other] using member
      rw [← takeWhile_append_dropWhile (p := Char.isDigit) (l := rest), mem_append] at inRest
      refine inRest.resolve_left fun taken => ?_
      rw [mem_takeWhile_imp taken] at isDigit
      cases isDigit
    · exact member
  · exact member

theorem head_of_consume {place : Class} {text rest : Text}
    (done : consume (place :: places) text = some rest) :
    ∃ c tail, text = c :: tail ∧ place.matches c = true := by
  cases text with
  | nil => cases done
  | cons c text =>
    refine ⟨c, text, rfl, ?_⟩
    by_contra other
    rw [consume, if_neg other] at done
    cases done

theorem toLower_of_isDigit {c : Char} (digit : c.isDigit = true) : c.toLower = c := by
  simp only [Char.isDigit, Bool.and_eq_true, decide_eq_true_iff, ge_iff_le,
    UInt32.le_iff_toNat_le] at digit
  have greatest : '9'.val.toNat = 57 := rfl
  have upper : 'A'.val.toNat = 65 := rfl
  unfold Char.toLower
  simp only [ge_iff_le, UInt32.le_iff_toNat_le]
  split
  · omega
  · rfl

theorem head_of_isIso8601 (isIso : isIso8601 text = true) :
    ∃ c tail, text = c :: tail ∧ c.isDigit = true := by
  rw [isIso8601] at isIso
  cases front : consume dateTime text with
  | none =>
    rw [front] at isIso
    cases isIso
  | some rest => exact head_of_consume front

theorem head_of_isDatetimeConstant (isConstant : isDatetimeConstant text = true) :
    ∃ c tail, text = c :: tail ∧ (c.toLower = 't' ∨ c.toLower = 'n') := by
  obtain ⟨word, member, whole⟩ := any_eq_true.mp isConstant
  have whole := of_decide_eq_true whole
  rcases mem_cons.mp member with rfl | member
  · obtain ⟨c, tail, isText, first⟩ := head_of_consume whole
    exact ⟨c, tail, isText, .inl (of_decide_eq_true first)⟩
  · obtain rfl := mem_singleton.mp member
    obtain ⟨c, tail, isText, first⟩ := head_of_consume whole
    exact ⟨c, tail, isText, .inr (of_decide_eq_true first)⟩

theorem not_constant_of_isIso8601 (isIso : isIso8601 text = true) :
    isDatetimeConstant text = false := by
  by_contra isConstant
  rw [Bool.not_eq_false] at isConstant
  obtain ⟨c, tail, rfl, digit⟩ := head_of_isIso8601 isIso
  obtain ⟨d, rest, same, letter⟩ := head_of_isDatetimeConstant isConstant
  cases same
  rw [toLower_of_isDigit digit] at letter
  rcases letter with rfl | rfl <;> exact absurd digit (by decide)

theorem not_mem_anchor (isOther : x = ' ' ∨ x = '"') (isAnchor : iso8601AndConstant text = true) :
    x ∉ text := by
  have digit : x.isDigit = false := by rcases isOther with rfl | rfl <;> rfl
  have dot : x ≠ '.' := by rcases isOther with rfl | rfl <;> decide
  rw [iso8601AndConstant, Bool.or_eq_true] at isAnchor
  rcases isAnchor with isIso | isConstant
  · intro member
    rw [isIso8601] at isIso
    cases front : consume dateTime text with
    | none =>
      rw [front] at isIso
      cases isIso
    | some rest =>
      rw [front] at isIso
      have inRest : x ∈ rest :=
        mem_of_consume (by rcases isOther with rfl | rfl <;> decide) front member
      have inZone := mem_of_fraction dot digit inRest
      simp only [isZone, Bool.or_eq_true, decide_eq_true_iff] at isIso
      rcases isIso with (none | zulu) | offset
      · rw [none] at inZone
        exact not_mem_nil inZone
      · exact not_mem_of_consume (by rcases isOther with rfl | rfl <;> decide) zulu inZone
      · exact not_mem_of_consume (by rcases isOther with rfl | rfl <;> decide) offset inZone
  · exact not_mem_of_isOneOf (by rcases isOther with rfl | rfl <;> decide) isConstant

theorem not_mem_grain (isOther : x = ' ' ∨ x = ':' ∨ x = ')') {text : Text}
    (grain : isGrain text = true) :
    x ∉ text :=
  not_mem_of_isOneOf (by rcases isOther with rfl | rfl | rfl <;> decide) grain

theorem capture_append {stop : Char} (next : List Class) {group : Text} (free : stop ∉ group)
    (rest : Text) :
    capture stop next (group ++ stop :: rest) = (consume next (stop :: rest)).map fun rest =>
      (group, rest) := by
  have before : ∀ c ∈ group, (c ≠ stop : Bool) = true :=
    fun c member => decide_eq_true fun same => free (same ▸ member)
  rw [capture, dropWhile_append_of_pos before, takeWhile_append_of_pos before]
  simp

def signedValue : Text → Int
  | '-' :: digits => -(Nat.ofDigitChars 10 digits 0)
  | '+' :: digits => Nat.ofDigitChars 10 digits 0
  | digits => Nat.ofDigitChars 10 digits 0

theorem not_mem_natText (isOther : x = ' ' ∨ x = ':' ∨ x = ',') (n : Nat) :
    x ∉ JsNumber.natText n := by
  have digit : x.isDigit = false := by rcases isOther with rfl | rfl | rfl <;> rfl
  have notDigits (n : Nat) : x ∉ Nat.toDigits 10 n := fun member => by
    rw [JsNumber.isDigit_toDigits n x member] at digit
    cases digit
  unfold JsNumber.natText
  split
  · exact notDigits _
  · split
    · have notMantissa :
        x ∉ ((Nat.toDigits 10 (JsNumber.shortest n)).reverse.dropWhile (· = '0')).reverse :=
        fun member =>
        notDigits _ (mem_reverse.mp ((dropWhile_sublist _).subset (mem_reverse.mp member)))
      intro member
      simp only [JsNumber.exponentText, mem_append, mem_cons] at member
      rcases member with (inFirst | inFraction) | isE | isPlus | inExponent
      · exact notMantissa (mem_of_mem_take inFirst)
      · split at inFraction
        · cases inFraction
        · rcases mem_cons.mp inFraction with isPoint | inFraction
          · rcases isOther with rfl | rfl | rfl <;> cases isPoint
          · exact notMantissa (mem_of_mem_drop inFraction)
      · rcases isOther with rfl | rfl | rfl <;> cases isE
      · rcases isOther with rfl | rfl | rfl <;> cases isPlus
      · exact notDigits _ inExponent
    · rcases isOther with rfl | rfl | rfl <;> decide

theorem not_mem_text (isOther : x = ' ' ∨ x = ':' ∨ x = ',') (n : Int) : x ∉ JsNumber.text n := by
  unfold JsNumber.text
  split
  · rw [mem_cons, not_or]
    exact ⟨by rcases isOther with rfl | rfl | rfl <;> decide, not_mem_natText isOther _⟩
  · exact not_mem_natText isOther _

theorem toDigits_head {n : Nat} (positive : 0 < n) :
    ∃ c digits, Nat.toDigits 10 n = c :: digits ∧ c ≠ '0' := by
  induction n using Nat.strongRecOn with
  | ind n ih =>
    by_cases small : n < 10
    · rw [Nat.toDigits_of_lt_base small]
      have nonzero : ∀ n < 10, 0 < n → n.digitChar ≠ '0' := by decide
      exact ⟨n.digitChar, [], rfl, nonzero n small positive⟩
    · rw [Nat.toDigits_of_base_le (by decide) (Nat.le_of_not_lt small)]
      obtain ⟨c, digits, front, nonzero⟩ := ih (n / 10) (by omega) (by omega)
      exact ⟨c, digits ++ [(n % 10).digitChar], by rw [front]; rfl, nonzero⟩

theorem isGrainValue_toDigits {n : Nat} (positive : 0 < n) :
    isGrainValue (Nat.toDigits 10 n) = true ∧ isGrainValue ('-' :: Nat.toDigits 10 n) = true := by
  obtain ⟨c, digits, front, nonzero⟩ := toDigits_head positive
  have allDigits := JsNumber.isDigit_toDigits n
  rw [front, forall_mem_cons] at allDigits
  have value : c.isDigit && c ≠ '0' && digits.all Char.isDigit := by
    simp [allDigits.1, nonzero, all_eq_true.mpr allDigits.2]
  rw [front]
  constructor
  · have noSign : unsigned (c :: digits) = c :: digits := by
      unfold unsigned
      split
      · next same =>
        cases same
        exact absurd allDigits.1 (by decide)
      · next same =>
        cases same
        exact absurd allDigits.1 (by decide)
      · rfl
    rw [isGrainValue, noSign]
    exact value
  · exact value

def shown (n : Int) : Int :=
  if n < 0 then -(JsNumber.shortest n.natAbs : Int) else JsNumber.shortest n.natAbs

theorem signedValue_of_digits {digits : Text} (all : ∀ c ∈ digits, c.isDigit = true) :
    signedValue digits = Nat.ofDigitChars 10 digits 0 := by
  unfold signedValue
  split
  · exact absurd (all '-' mem_cons_self) (by decide)
  · exact absurd (all '+' mem_cons_self) (by decide)
  · rfl

theorem signedValue_text {n : Int} (small : n.natAbs < 10 ^ 21) :
    signedValue (JsNumber.text n) = shown n := by
  unfold JsNumber.text shown
  rw [JsNumber.natText, if_pos small]
  split
  · rw [signedValue, Nat.ofDigitChars_ten_toDigits]
  · rw [signedValue_of_digits (JsNumber.isDigit_toDigits _), Nat.ofDigitChars_ten_toDigits]

theorem mem_of_isGrainValue (isOther : x = 'e' ∨ x = 'I') (value : isGrainValue text = true) :
    x ∉ text := by
  intro member
  have inDigits : x ∈ unsigned text := by
    unfold unsigned
    split
    · exact (mem_cons.mp member).resolve_left (by rcases isOther with rfl | rfl <;> decide)
    · exact (mem_cons.mp member).resolve_left (by rcases isOther with rfl | rfl <;> decide)
    · exact member
  unfold isGrainValue at value
  split at value
  · next c digits isDigits =>
    rw [isDigits, mem_cons] at inDigits
    simp only [Bool.and_eq_true, all_eq_true] at value
    have digit : x.isDigit = true := by
      rcases inDigits with rfl | later
      · exact value.1.1
      · exact value.2 x later
    rcases isOther with rfl | rfl <;> exact absurd digit (by decide)
  · cases value

/-- Only amounts below `10 ^ 21` are written as grain values. -/
theorem isGrainValue_text_iff {n : Int} (positive : 0 < JsNumber.shortest n.natAbs) :
    isGrainValue (JsNumber.text n) = true ↔ n.natAbs < 10 ^ 21 := by
  constructor
  · intro value
    by_contra large
    have special : 'e' ∈ JsNumber.natText n.natAbs ∨ 'I' ∈ JsNumber.natText n.natAbs := by
      rw [JsNumber.natText, if_neg large]
      split
      · left
        simp [JsNumber.exponentText]
      · right
        decide
    have sub (c : Char) (member : c ∈ JsNumber.natText n.natAbs) : c ∈ JsNumber.text n := by
      unfold JsNumber.text
      split
      · exact mem_cons_of_mem _ member
      · exact member
    rcases special with exponent | infinity
    · exact mem_of_isGrainValue (.inl rfl) value (sub _ exponent)
    · exact mem_of_isGrainValue (.inr rfl) value (sub _ infinity)
  · intro small
    unfold JsNumber.text
    rw [JsNumber.natText, if_pos small]
    split
    · exact (isGrainValue_toDigits positive).2
    · exact (isGrainValue_toDigits positive).1

theorem customRangeExpression_dateAdd {anchor grain : Text}
    (isAnchor : iso8601AndConstant anchor = true)
    (isGrainText : isGrain grain = true) (n : Int) :
    customRangeExpression (dateAdd anchor n grain) =
      if isGrainValue (JsNumber.text n) = true then some (anchor, JsNumber.text n, grain)
        else none := by
  have shape : dateAdd anchor n grain = "DATEADD(DATETIME(\"".toList ++
      (anchor ++ '"' :: ')' :: ',' :: ' ' ::
        (JsNumber.text n ++ ',' :: ' ' :: (grain ++ [')']))) := by
    unfold dateAdd
    generalize "DATEADD(DATETIME(\"".toList = front
    show front ++ anchor ++ ['"', ')', ',', ' '] ++ JsNumber.text n ++ [',', ' '] ++ grain ++
      [')'] = _
    simp only [append_assoc, cons_append, nil_append]
  have afterAnchor (rest : Text) :
    consume (literal "\")," ++ [.space]) ('"' :: ')' :: ',' :: ' ' :: rest) = some rest := rfl
  have afterValue (rest : Text) :
    consume (literal "," ++ [.space]) (',' :: ' ' :: rest) = some rest := rfl
  have afterGrain : consume (literal ")") (')' :: []) = some [] := rfl
  rw [customRangeExpression, shape, consume_literal, Option.bind_eq_bind, Option.bind_some,
    capture_append _ (not_mem_anchor (.inr rfl) isAnchor), afterAnchor]
  simp only [Option.map_some, Option.bind_eq_bind, Option.bind_some,
    capture_append _ (not_mem_text (.inr (.inr rfl)) n), afterValue,
    capture_append _ (not_mem_grain (.inr (.inr rfl)) isGrainText), afterGrain, isAnchor,
    isGrainText, Bool.and_true, decide_true, Bool.true_and]

theorem head_of_captured {captured : Text × Text × Text}
    (matched : customRangeExpression text = some captured) :
    ∃ c tail, text = c :: tail ∧ c.toLower = 'd' := by
  obtain ⟨rest, front, _⟩ := Option.bind_eq_some_iff.mp matched
  obtain ⟨c, tail, isText, first⟩ := head_of_consume front
  exact ⟨c, tail, isText, of_decide_eq_true first⟩

theorem not_anchor_of_captured {captured : Text × Text × Text}
    (matched : customRangeExpression text = some captured) : iso8601AndConstant text = false := by
  obtain ⟨c, tail, rfl, isD⟩ := head_of_captured matched
  rw [iso8601AndConstant, Bool.or_eq_false_iff]
  constructor
  · by_contra isIso
    obtain ⟨d, rest, same, digit⟩ := head_of_isIso8601 (Bool.not_eq_false _ ▸ isIso)
    cases same
    rw [toLower_of_isDigit digit] at isD
    subst isD
    exact absurd digit (by decide)
  · by_contra isConstant
    obtain ⟨d, rest, same, letter⟩ := head_of_isDatetimeConstant (Bool.not_eq_false _ ▸ isConstant)
    cases same
    rw [isD] at letter
    exact absurd letter (by decide)

theorem not_captured_of_anchor (isAnchor : iso8601AndConstant text = true) :
    customRangeExpression text = none := by
  cases matched : customRangeExpression text with
  | none => rfl
  | some captured =>
    rw [not_anchor_of_captured matched] at isAnchor
    cases isAnchor

def joined : Text → Bool
  | [] => true
  | c :: text => !(c = ' ' && text.head? = some ':') && joined text

theorem joined_append {first second : Text} (hasFirst : joined first = true)
    (hasSecond : joined second = true)
    (seam : first.getLast? ≠ some ' ' ∨ second.head? ≠ some ':') :
    joined (first ++ second) = true := by
  induction first with
  | nil => exact hasSecond
  | cons c first ih =>
    rw [joined, Bool.and_eq_true] at hasFirst
    rw [cons_append, joined, Bool.and_eq_true]
    cases first with
    | nil =>
      refine ⟨?_, hasSecond⟩
      simpa [or_iff_not_imp_left] using seam
    | cons d first => exact ⟨hasFirst.1, ih hasFirst.2 (by simpa using seam)⟩

theorem joined_of_not_mem (isOther : x = ' ' ∨ x = ':') (free : x ∉ text) : joined text = true := by
  induction text with
  | nil => rfl
  | cons c text ih =>
    rw [mem_cons, not_or] at free
    rw [joined, ih free.2, Bool.and_true]
    rcases isOther with rfl | rfl
    · simp [Ne.symm free.1]
    · cases text with
      | nil => simp
      | cons d text =>
        have other : d ≠ ':' := fun same => free.2 (same ▸ mem_cons_self)
        simp [other]

theorem split_cons {c : Char} (here : (c = ' ' && text.head? = some ':') = false) :
    split (c :: text) = match split text with
      | part :: parts => (c :: part) :: parts
      | [] => [[c]] := by
  refine split.eq_3 c text fun rest isSpace isRest => ?_
  rw [isSpace, isRest] at here
  cases here

theorem split_append {first : Text} (hasFirst : joined first = true) (second : Text) :
    split (first ++ separator ++ second) = first :: split second := by
  induction first with
  | nil => rfl
  | cons c first ih =>
    rw [joined, Bool.and_eq_true, Bool.not_eq_true'] at hasFirst
    rw [cons_append, cons_append, split_cons, ih hasFirst.2]
    cases first with
    | nil => simp [separator]
    | cons d first => simpa using hasFirst.1

theorem split_of_joined (isJoined : joined text = true) : split text = [text] := by
  induction text with
  | nil => rfl
  | cons c text ih =>
    rw [joined, Bool.and_eq_true, Bool.not_eq_true'] at isJoined
    rw [split_cons isJoined.1, ih isJoined.2]

theorem joined_dateAdd {anchor grain : Text} (anchorJoined : joined anchor = true)
    (isGrainText : isGrain grain = true) (n : Int) :
    joined (dateAdd anchor n grain) = true := by
  have tail : ':' ∉ "\"), ".toList ++ JsNumber.text n ++ ", ".toList ++ grain ++ ")".toList := by
    simp only [mem_append, not_or]
    exact ⟨⟨⟨⟨by decide, not_mem_text (.inr (.inl rfl)) n⟩, by decide⟩,
      not_mem_grain (.inr (.inl rfl)) isGrainText⟩, by decide⟩
  have whole : dateAdd anchor n grain = "DATEADD(DATETIME(\"".toList ++
      (anchor ++ ("\"), ".toList ++ JsNumber.text n ++ ", ".toList ++ grain ++ ")".toList)) := by
    unfold dateAdd
    generalize "DATEADD(DATETIME(\"".toList = front
    generalize "\"), ".toList = afterAnchor
    generalize ", ".toList = afterValue
    simp only [append_assoc]
  rw [whole]
  refine joined_append (by decide)
    (joined_append anchorJoined (joined_of_not_mem (.inr rfl) tail) (.inr ?_)) (.inl (by decide))
  exact fun isColon => tail (mem_of_mem_head? isColon)

end Liteset.Charts.TimeRanges
