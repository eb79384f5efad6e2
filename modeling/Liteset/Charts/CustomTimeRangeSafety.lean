import Liteset.Charts.CustomTimeRangeTexts

/-!
# When a custom time range survives editing

What a range denotes is read off its text with the expressions of the decoder: an anchor for each
bound and, for a relative bound, a signed amount of a grain.
-/

set_option autoImplicit false

namespace Liteset.Charts.TimeRanges

open Lib

inductive Anchor (ι : Type) where
  | now
  | today
  | moment (i : ι)
  deriving DecidableEq

structure Endpoint (ι : Type) where
  anchor : Anchor ι
  shift : Option (Int × Text)
  deriving DecidableEq

section Meaning
variable {ι : Type} (reads : Text → ι)

/-- `reads` gives the instant of a datetime. -/
def anchorOf (text : Text) : Option (Anchor ι) :=
  if isOneOf ["NOW"] text then some .now
  else if isOneOf ["TODAY"] text then some .today
  else if isIso8601 text then some (.moment (reads text))
  else none

def endpointOf (text : Text) : Option (Endpoint ι) :=
  match customRangeExpression text with
  | some (dttm, grainValue, grain) =>
    (anchorOf reads dttm).map fun anchor =>
      ⟨anchor, some (signedValue grainValue, grain.map Char.toLower)⟩
  | none => (anchorOf reads text).map fun anchor => ⟨anchor, none⟩

def meaning (timeRange : Text) : Option (Endpoint ι × Endpoint ι) :=
  match split timeRange with
  | [since, till] =>
    (endpointOf reads since).bind fun first => (endpointOf reads till).map fun second =>
      (first, second)
  | _ => none

end Meaning

/-- A text without a separator that is no bound to the decoder. -/
def Unmatched (text : Text) : Prop :=
  customRangeExpression text = none ∧ iso8601AndConstant text = false ∧ joined text = true

/-- What `format` writes has digits, signs, colons and the `T`, or it is the text for an invalid
date, whatever that is; a constant that `dttmToDayjs` does not know is no date. -/
structure Browser.Writes (browser : Browser) : Prop where
  written : ∀ dttm, Unmatched (browser.dayjs dttm) ∨
    ∀ c ∈ browser.dayjs dttm, c.isDigit = true ∨ c ∈ ['-', '+', ':', 'T']
  constants : ∀ dttm, isDatetimeConstant dttm = true → dttm ≠ "now".toList → dttm ≠ "today".toList →
    Unmatched (browser.dayjs dttm)
  now : isIso8601 browser.now = true
  today : isIso8601 browser.today = true

section Anchors
variable {ι : Type} (reads : Text → ι) {text : Text}

theorem anchorOf_constant (isConstant : isDatetimeConstant text = true) :
    anchorOf reads text = some .now ∨ anchorOf reads text = some .today := by
  have either : isOneOf ["TODAY"] text = true ∨ isOneOf ["NOW"] text = true := by
    simpa [isDatetimeConstant, isOneOf] using isConstant
  unfold anchorOf
  split
  · exact .inl rfl
  · next notNow =>
    rw [if_pos (either.resolve_right notNow)]
    exact .inr rfl

theorem anchorOf_iso8601 (isIso : isIso8601 text = true) :
    anchorOf reads text = some (.moment (reads text)) := by
  have notConstant : isOneOf ["TODAY"] text = false ∧ isOneOf ["NOW"] text = false := by
    simpa [isDatetimeConstant, isOneOf] using not_constant_of_isIso8601 isIso
  rw [anchorOf, if_neg (by simp [notConstant.2]), if_neg (by simp [notConstant.1]), if_pos isIso]

theorem anchorOf_isSome_iff : (anchorOf reads text).isSome = true ↔
    iso8601AndConstant text = true := by
  rw [iso8601AndConstant, Bool.or_eq_true]
  constructor
  · intro isAnchor
    by_contra neither
    rw [not_or] at neither
    have notConstant : isOneOf ["TODAY"] text = false ∧ isOneOf ["NOW"] text = false := by
      simpa [isDatetimeConstant, isOneOf] using neither.2
    rw [anchorOf, if_neg (by simp [notConstant.2]), if_neg (by simp [notConstant.1]),
      if_neg neither.1] at isAnchor
    cases isAnchor
  · rintro (isIso | isConstant)
    · rw [anchorOf_iso8601 reads isIso]
      rfl
    · rcases anchorOf_constant reads isConstant with same | same <;> rw [same] <;> rfl

theorem of_anchorOf_moment {i : ι} (isMoment : anchorOf reads text = some (.moment i)) :
    isIso8601 text = true ∧ reads text = i := by
  unfold anchorOf at isMoment
  split at isMoment
  · cases isMoment
  · split at isMoment
    · cases isMoment
    · split at isMoment
      · next isIso =>
        cases isMoment
        exact ⟨isIso, rfl⟩
      · cases isMoment

theorem endpointOf_of_not_captured (notCaptured : customRangeExpression text = none) :
    endpointOf reads text = (anchorOf reads text).map fun anchor => ⟨anchor, none⟩ := by
  rw [endpointOf, notCaptured]

theorem meaning_append {since till : Text} (hasSince : joined since = true)
    (hasTill : joined till = true) :
    meaning reads (since ++ separator ++ till) =
      (endpointOf reads since).bind fun first => (endpointOf reads till).map fun second =>
        (first, second) := by
  rw [meaning, split_append hasSince, split_of_joined hasTill]

variable {browser : Browser}

theorem isAnchor_now : iso8601AndConstant "now".toList = true := by decide

theorem isAnchor_today : iso8601AndConstant "today".toList = true := by decide

theorem bound_shape (writes : browser.Writes) {mode : Mode} (absolute : mode ≠ .relative)
    (datetime : Text) :
    customRangeExpression (bound browser mode datetime) = none ∧
    joined (bound browser mode datetime) = true := by
  have ofAnchor {text : Text} (isAnchor : iso8601AndConstant text = true) :
      customRangeExpression text = none ∧ joined text = true :=
    ⟨not_captured_of_anchor isAnchor,
      joined_of_not_mem (.inl rfl) (not_mem_anchor (.inl rfl) isAnchor)⟩
  have ofIso {text : Text} (isIso : isIso8601 text = true) : customRangeExpression text = none ∧
    joined text = true :=
    ofAnchor (by rw [iso8601AndConstant, isIso, Bool.true_or])
  cases mode with
  | relative => exact absurd rfl absolute
  | now => exact ofAnchor isAnchor_now
  | today => exact ofAnchor isAnchor_today
  | specific =>
    show customRangeExpression (dttmToString browser datetime) = none ∧
      joined (dttmToString browser datetime) = true
    unfold dttmToString
    split
    · exact ofIso writes.now
    · split
      · exact ofIso writes.today
      · rcases writes.written datetime with invalid | parts
        · exact ⟨invalid.1, invalid.2.2⟩
        · constructor
          · cases matched : customRangeExpression (browser.dayjs datetime) with
            | none => rfl
            | some captured =>
              obtain ⟨c, tail, isText, isD⟩ := head_of_captured matched
              rw [isText] at parts
              rcases parts c List.mem_cons_self with digit | other
              · rw [toLower_of_isDigit digit] at isD
                subst isD
                exact absurd digit (by decide)
              · have none : ['-', '+', ':', 'T'].all (·.toLower ≠ 'd') = true := by decide
                exact absurd isD (of_decide_eq_true (List.all_eq_true.mp none c other))
          · refine joined_of_not_mem (x := ' ') (.inl rfl) fun member => ?_
            have other := parts ' ' member
            exact absurd other (by decide)

theorem modeOf_ne_relative (text : Text) : modeOf text ≠ .relative := by
  unfold modeOf
  split
  · decide
  · split <;> decide

def KeptDatetime (browser : Browser) (dttm : Text) : Prop :=
  isIso8601 dttm = true ∧ isIso8601 (browser.dayjs dttm) = true ∧
    reads (browser.dayjs dttm) = reads dttm

/-- A bound and the anchor that is kept for it: they are the same, and the bound is a constant in
lower case or the anchor is kept by writing it. -/
def KeptAnchor (browser : Browser) (text dttm : Text) : Prop :=
  anchorOf reads text = anchorOf reads dttm ∧
    (text = "now".toList ∨ text = "today".toList ∨ KeptDatetime reads browser dttm)

theorem anchor_kept_iff (writes : browser.Writes) {text dttm : Text}
    (isText : iso8601AndConstant text = true)
    (isDttm : iso8601AndConstant dttm = true) :
    (anchorOf reads (bound browser (modeOf text) dttm) = anchorOf reads text ∧
      anchorOf reads text = anchorOf reads dttm) ↔
      KeptAnchor reads browser text dttm := by
  have constant (lower : text = "now".toList ∨ text = "today".toList) :
      bound browser (modeOf text) dttm = text := by
    have modes : modeOf "now".toList = .now ∧ modeOf "today".toList = .today := by decide
    rcases lower with rfl | rfl
    · rw [modes.1]
      rfl
    · rw [modes.2]
      rfl
  by_cases lower : text = "now".toList ∨ text = "today".toList
  · rw [constant lower]
    exact ⟨fun same => ⟨same.2, or_assoc.mp (.inl lower)⟩, fun kept => ⟨rfl, kept.1⟩⟩
  · have specific : bound browser (modeOf text) dttm = dttmToString browser dttm := by
      rw [not_or] at lower
      rw [modeOf, if_neg lower.1, if_neg lower.2]
      rfl
    have isKept : KeptAnchor reads browser text dttm ↔ anchorOf reads text = anchorOf reads dttm ∧
        KeptDatetime reads browser dttm := by
      rw [KeptAnchor, ← or_assoc, or_iff_right lower]
    rw [specific, isKept, and_comm]
    refine and_congr_right fun same => ?_
    rw [same]
    by_cases isIso : isIso8601 dttm = true
    · have notConstant := not_constant_of_isIso8601 isIso
      have written : dttmToString browser dttm = browser.dayjs dttm := by
        have notNow : dttm ≠ "now".toList := by
          rintro rfl
          cases notConstant.symm.trans (by decide : isDatetimeConstant "now".toList = true)
        have notToday : dttm ≠ "today".toList := by
          rintro rfl
          cases notConstant.symm.trans (by decide : isDatetimeConstant "today".toList = true)
        rw [dttmToString, if_neg notNow, if_neg notToday]
      rw [written, anchorOf_iso8601 reads isIso]
      constructor
      · intro kept
        obtain ⟨writtenIso, sameInstant⟩ := of_anchorOf_moment reads kept
        exact ⟨isIso, writtenIso, sameInstant⟩
      · rintro ⟨_, writtenIso, sameInstant⟩
        rw [anchorOf_iso8601 reads writtenIso, sameInstant]
    · have isConstant : isDatetimeConstant dttm = true := by
        rw [iso8601AndConstant, Bool.or_eq_true] at isDttm
        exact isDttm.resolve_left isIso
      refine iff_of_false (fun kept => ?_) (fun kept => isIso kept.1)
      have notMoment (i : ι) : anchorOf reads dttm ≠ some (.moment i) := by
        rcases anchorOf_constant reads isConstant with isNow | isToday
        · rw [isNow]
          exact fun same => (by cases same)
        · rw [isToday]
          exact fun same => (by cases same)
      unfold dttmToString at kept
      split at kept
      · exact notMoment _ (kept.symm.trans (anchorOf_iso8601 reads writes.now))
      · next notNow =>
        split at kept
        · exact notMoment _ (kept.symm.trans (anchorOf_iso8601 reads writes.today))
        · next notToday =>
          have isSome := (anchorOf_isSome_iff reads).mpr isDttm
          rw [← kept, anchorOf_isSome_iff,
            (writes.constants dttm isConstant notNow notToday).2.1] at isSome
          cases isSome

end Anchors

/-! ## Kept ranges -/

theorem captured_valid {text dttm grainValue grain : Text}
    (matched : customRangeExpression text = some (dttm, grainValue, grain)) :
    iso8601AndConstant dttm = true ∧ isGrainValue grainValue = true ∧ isGrain grain = true := by
  obtain ⟨rest, _, matched⟩ := Option.bind_eq_some_iff.mp matched
  obtain ⟨⟨d, rest⟩, _, matched⟩ := Option.bind_eq_some_iff.mp matched
  obtain ⟨⟨v, rest⟩, _, matched⟩ := Option.bind_eq_some_iff.mp matched
  obtain ⟨⟨g, rest⟩, _, matched⟩ := Option.bind_eq_some_iff.mp matched
  dsimp only at matched
  split at matched
  · next valid =>
    cases matched
    simp only [Bool.and_eq_true] at valid
    exact ⟨valid.1.1.2, valid.1.2, valid.2⟩
  · cases matched

def ExactAmount (amount : Int) : Prop :=
  JsNumber.toDouble amount.natAbs < 10 ^ 21 ∧ JsNumber.shortest (JsNumber.toDouble amount.natAbs) =
    amount.natAbs

theorem digit_pos {c : Char} (digit : c.isDigit = true) (nonzero : c ≠ '0') :
    0 < c.toNat - '0'.toNat := by
  by_contra notPositive
  simp only [Char.isDigit, Bool.and_eq_true, decide_eq_true_iff, ge_iff_le,
    UInt32.le_iff_toNat_le] at digit
  refine nonzero (Char.ext (UInt32.toNat_inj.mp ?_))
  have value : c.toNat = c.val.toNat := rfl
  have zero : '0'.toNat = '0'.val.toNat := rfl
  omega

section Amounts
variable {grainValue : Text}

section
variable (value : isGrainValue grainValue = true)
include value

theorem parseInt_grainValue :
    signedValue grainValue ≠ 0 ∧
      JsNumber.parseInt grainValue =
        if signedValue grainValue < 0
          then -(JsNumber.toDouble (signedValue grainValue).natAbs : Int)
        else JsNumber.toDouble (signedValue grainValue).natAbs := by
  have positive {c : Char} {digits : Text}
    (isValue : (c.isDigit && c ≠ '0' && digits.all Char.isDigit) = true) :
      0 < Nat.ofDigitChars 10 (c :: digits) 0 := by
    simp only [Bool.and_eq_true, decide_eq_true_iff] at isValue
    have first := digit_pos isValue.1.1 isValue.1.2
    have front : 0 < 10 ^ digits.length * (10 * 0 + (c.toNat - '0'.toNat)) :=
      Nat.mul_pos (Nat.pow_pos (by decide)) (by omega)
    rw [Nat.ofDigitChars_cons, Nat.ofDigitChars_eq_ofDigitChars_zero]
    omega
  unfold isGrainValue at value
  split at value
  · next c digits isDigits =>
    have isPositive := positive value
    unfold unsigned at isDigits
    split at isDigits
    · subst isDigits
      rw [signedValue, JsNumber.parseInt, if_neg (by omega), Int.natAbs_natCast]
      exact ⟨by omega, rfl⟩
    · subst isDigits
      rw [signedValue, JsNumber.parseInt, if_pos (by omega), Int.natAbs_neg, Int.natAbs_natCast]
      exact ⟨by omega, rfl⟩
    · subst isDigits
      have allDigits : ∀ d ∈ c :: digits, d.isDigit = true := by
        simp only [Bool.and_eq_true, List.all_eq_true] at value
        exact List.forall_mem_cons.mpr ⟨value.1.1, value.2⟩
      rw [signedValue_of_digits allDigits, JsNumber.parseInt_of_digits allDigits, if_neg (by omega),
        Int.natAbs_natCast]
      exact ⟨by omega, rfl⟩
  · cases value

theorem parseInt_ne_zero : JsNumber.parseInt grainValue ≠ 0 := by
  obtain ⟨nonzero, read⟩ := parseInt_grainValue value
  have positive : 0 < JsNumber.toDouble (signedValue grainValue).natAbs :=
    JsNumber.toDouble_pos (by omega)
  rw [read]
  split <;> omega

theorem negative_amount_iff :
    (-((JsNumber.parseInt grainValue).natAbs : Int)).natAbs < 10 ^ 21 ∧
        shown (-((JsNumber.parseInt grainValue).natAbs : Int)) = signedValue grainValue ↔
      signedValue grainValue < 0 ∧ ExactAmount (signedValue grainValue) := by
  obtain ⟨nonzero, read⟩ := parseInt_grainValue value
  have magnitude :
      (JsNumber.parseInt grainValue).natAbs =
        JsNumber.toDouble (signedValue grainValue).natAbs := by
    rw [read]
    split <;> omega
  have positive : 0 < JsNumber.toDouble (signedValue grainValue).natAbs :=
    JsNumber.toDouble_pos (by omega)
  rw [magnitude, shown, if_pos (by omega), Int.natAbs_neg, Int.natAbs_natCast, ExactAmount]
  have shownPositive := JsNumber.shortest_pos positive
  constructor
  · rintro ⟨small, same⟩
    exact ⟨by omega, small, by omega⟩
  · rintro ⟨negative, small, same⟩
    exact ⟨small, by omega⟩

theorem amount_iff :
    (JsNumber.parseInt grainValue).natAbs < 10 ^ 21 ∧ shown (JsNumber.parseInt grainValue) =
      signedValue grainValue ↔
      ExactAmount (signedValue grainValue) := by
  obtain ⟨nonzero, read⟩ := parseInt_grainValue value
  have positive : 0 < JsNumber.toDouble (signedValue grainValue).natAbs :=
    JsNumber.toDouble_pos (by omega)
  rw [read, ExactAmount, shown]
  split
  · next negative =>
    rw [if_pos (by omega), Int.natAbs_neg, Int.natAbs_natCast]
    exact and_congr_right fun _ => by omega
  · next notNegative =>
    rw [if_neg (by omega), Int.natAbs_natCast]
    exact and_congr_right fun _ => by omega

end

end Amounts

section Endpoints
variable {ι : Type} (reads : Text → ι)

theorem not_anchor_dateAdd (anchor grain : Text) (n : Int) :
    iso8601AndConstant (dateAdd anchor n grain) = false := by
  by_contra isAnchor
  have space : ' ' ∈ "\"), ".toList := by decide
  refine not_mem_anchor (x := ' ') (.inl rfl) ((Bool.not_eq_false _).mp isAnchor) ?_
  exact List.mem_append_left _
    (List.mem_append_left _ (List.mem_append_left _ (List.mem_append_left _
    (List.mem_append_right _ space))))

theorem endpointOf_dateAdd {anchor grain : Text} (isAnchor : iso8601AndConstant anchor = true)
    (isGrainText : isGrain grain = true)
    {n : Int} (nonzero : n ≠ 0) :
    endpointOf reads (dateAdd anchor n grain) =
      if n.natAbs < 10 ^ 21 then (anchorOf reads anchor).map fun a =>
        ⟨a, some (shown n, grain.map Char.toLower)⟩ else none := by
  have value := isGrainValue_text_iff (JsNumber.shortest_pos (Int.natAbs_pos.mpr nonzero))
  have written := customRangeExpression_dateAdd isAnchor isGrainText n
  unfold endpointOf
  rw [written]
  by_cases small : n.natAbs < 10 ^ 21
  · rw [if_pos small, if_pos (value.mpr small)]
    simp only [signedValue_text small]
  · rw [if_neg small, if_neg (mt value.mp small)]
    have noAnchor : anchorOf reads (dateAdd anchor n grain) = none := by
      rw [← Option.not_isSome_iff_eq_none, anchorOf_isSome_iff, not_anchor_dateAdd]
      decide
    simp only [noAnchor, Option.map_none]

end Endpoints

section Decoding
variable {browser : Browser} {since till : Text}

theorem decodeBounds_specific (notSince : customRangeExpression since = none)
    (notTill : customRangeExpression till = none) :
    decodeBounds browser since till = specificSpecific browser since till := by
  simp [decodeBounds, relativeSpecific, specificRelative, relativeRelative, notSince, notTill]

theorem decodeBounds_relativeSpecific {captured : Text × Text × Text}
    (matched : customRangeExpression since = some captured)
    (notTill : customRangeExpression till = none) :
    decodeBounds browser since till = relativeSpecific browser since till := by
  simp [decodeBounds, specificSpecific, specificRelative, relativeRelative,
    not_anchor_of_captured matched, matched, notTill]

theorem decodeBounds_specificRelative {captured : Text × Text × Text}
    (notSince : customRangeExpression since = none)
    (matched : customRangeExpression till = some captured) :
    decodeBounds browser since till = specificRelative browser since till := by
  simp [decodeBounds, specificSpecific, relativeSpecific, relativeRelative,
    not_anchor_of_captured matched, notSince]

theorem decodeBounds_relative {captured untilCaptured : Text × Text × Text}
    (matched : customRangeExpression since = some captured)
    (untilMatched : customRangeExpression till = some untilCaptured) :
    decodeBounds browser since till = relativeRelative since till := by
  simp [decodeBounds, specificSpecific, relativeSpecific, specificRelative,
    not_anchor_of_captured matched, not_anchor_of_captured untilMatched, matched, untilMatched]

end Decoding

section Encoding
variable (browser : Browser) {range : CustomRange}

theorem encode_specific (since : range.sinceMode ≠ .relative) (till : range.untilMode ≠ .relative) :
    customTimeRangeEncode browser range =
      bound browser range.sinceMode range.sinceDatetime ++ separator ++
        bound browser range.untilMode range.untilDatetime :=
  if_pos ⟨since, till⟩

theorem encode_specificRelative (since : range.sinceMode ≠ .relative)
    (till : range.untilMode = .relative) :
    customTimeRangeEncode browser range =
      bound browser range.sinceMode range.sinceDatetime ++ separator ++
        dateAdd (bound browser range.sinceMode range.sinceDatetime) range.untilGrainValue
          range.untilGrain := by
  rw [customTimeRangeEncode, if_neg (fun both => both.2 till), if_pos since]

theorem encode_relativeSpecific (since : range.sinceMode = .relative)
    (till : range.untilMode ≠ .relative) :
    customTimeRangeEncode browser range =
      dateAdd (bound browser range.untilMode range.untilDatetime)
        (-(range.sinceGrainValue.natAbs : Int)) range.sinceGrain ++
        separator ++ bound browser range.untilMode range.untilDatetime := by
  rw [customTimeRangeEncode, if_neg (fun both => both.1 since), if_neg (not_not.mpr since),
    if_pos till]

theorem encode_relative (since : range.sinceMode = .relative) (till : range.untilMode = .relative) :
    customTimeRangeEncode browser range =
      dateAdd range.anchorValue (-(range.sinceGrainValue.natAbs : Int)) range.sinceGrain ++
        separator ++ dateAdd range.anchorValue range.untilGrainValue range.untilGrain := by
  rw [customTimeRangeEncode, if_neg (fun both => both.1 since), if_neg (not_not.mpr since),
    if_neg (not_not.mpr till)]

end Encoding

section Accepted
variable {ι : Type} (reads : Text → ι) (browser : Browser)

def KeptBounds (since till : Text) : Prop :=
  match customRangeExpression since, customRangeExpression till with
  | none, none => KeptAnchor reads browser since since ∧ KeptAnchor reads browser till till
  | some (dttm, grainValue, _), none =>
    KeptAnchor reads browser till dttm ∧ signedValue grainValue < 0 ∧
      ExactAmount (signedValue grainValue)
  | none, some (dttm, grainValue, _) =>
    KeptAnchor reads browser since dttm ∧ ExactAmount (signedValue grainValue)
  | some (_, grainValue, _), some (_, untilGrainValue, _) =>
    (signedValue grainValue < 0 ∧ ExactAmount (signedValue grainValue)) ∧
      ExactAmount (signedValue untilGrainValue)

def KeptRange (timeRange : Text) : Prop :=
  ∃ since till, split timeRange = [since, till] ∧ KeptBounds reads browser since till

/-- What is written for the decoded range has the meaning of the range. -/
def SameMeaning (timeRange : Text) : Prop :=
  ∃ bounds, meaning reads timeRange = some bounds ∧
    meaning reads (customTimeRangeEncode browser (customTimeRangeDecode browser timeRange).1) =
      some bounds

theorem relative_written {anchor grain : Text}
    (shape : customRangeExpression anchor = none ∧ joined anchor = true)
    (isGrainText : isGrain grain = true) {n : Int} (nonzero : n ≠ 0) {a b : Anchor ι} {m : Int}
    {g : Text} :
    (endpointOf reads (dateAdd anchor n grain) = some ⟨a, some (m, g)⟩ ∧
      endpointOf reads anchor = some ⟨b, none⟩) ↔
      (anchorOf reads anchor = some a ∧ a = b) ∧ (n.natAbs < 10 ^ 21 ∧ shown n = m) ∧
      grain.map Char.toLower = g := by
  rw [endpointOf_of_not_captured reads shape.1]
  cases written : anchorOf reads anchor with
  | none => simp
  | some c =>
    have isAnchor := (anchorOf_isSome_iff reads).mp (Option.isSome_of_eq_some written)
    rw [endpointOf_dateAdd reads isAnchor isGrainText nonzero, written]
    by_cases small : n.natAbs < 10 ^ 21
    · rw [if_pos small]
      simp only [Option.map_some, Option.some.injEq, Endpoint.mk.injEq, Prod.mk.injEq, and_true,
        small, true_and]
      constructor
      · rintro ⟨⟨rfl, rfl, rfl⟩, rfl⟩
        exact ⟨⟨rfl, rfl⟩, rfl, rfl⟩
      · rintro ⟨⟨rfl, rfl⟩, rfl, rfl⟩
        exact ⟨⟨rfl, rfl, rfl⟩, rfl⟩
    · rw [if_neg small]
      exact ⟨fun done => (by cases done.1), fun amounts => absurd amounts.2.1.1 small⟩

theorem bounds_iff {ε : Type} {first second : Option ε} {x y : ε} :
    (first.bind fun a => second.map fun b => (a, b)) = some (x, y) ↔
    first = some x ∧ second = some y := by
  cases first <;> cases second <;> simp

theorem endpointOf_captured {text dttm grainValue grain : Text}
    (matched : customRangeExpression text = some (dttm, grainValue, grain)) :
    endpointOf reads text =
      (anchorOf reads dttm).map fun anchor =>
        ⟨anchor, some (signedValue grainValue, grain.map Char.toLower)⟩ := by
  rw [endpointOf, matched]

variable {browser} (writes : browser.Writes)
include writes

variable {range : CustomRange}

theorem specificSpecific_kept_iff {since till : Text}
    (decoded : specificSpecific browser since till = some range) :
    (∃ bounds, ((endpointOf reads since).bind fun first => (endpointOf reads till).map fun second =>
      (first, second)) = some bounds ∧
        meaning reads (customTimeRangeEncode browser range) = some bounds) ↔
      KeptAnchor reads browser since since ∧ KeptAnchor reads browser till till := by
  unfold specificSpecific at decoded
  split at decoded
  · next anchors =>
    rw [Bool.and_eq_true] at anchors
    obtain ⟨isSince, isTill⟩ := anchors
    cases decoded
    have sinceShape := bound_shape writes (modeOf_ne_relative since) since
    have tillShape := bound_shape writes (modeOf_ne_relative till) till
    rw [encode_specific browser (modeOf_ne_relative since) (modeOf_ne_relative till)]
    dsimp only
    rw [meaning_append reads sinceShape.2 tillShape.2,
      endpointOf_of_not_captured reads sinceShape.1,
      endpointOf_of_not_captured reads tillShape.1,
      endpointOf_of_not_captured reads (not_captured_of_anchor isSince),
      endpointOf_of_not_captured reads (not_captured_of_anchor isTill),
      ← anchor_kept_iff reads writes isSince isSince,
      ← anchor_kept_iff reads writes isTill isTill]
    obtain ⟨first, sinceAnchor⟩ :=
      Option.isSome_iff_exists.mp ((anchorOf_isSome_iff reads).mpr isSince)
    obtain ⟨second, tillAnchor⟩ :=
      Option.isSome_iff_exists.mp ((anchorOf_isSome_iff reads).mpr isTill)
    rw [sinceAnchor, tillAnchor]
    cases anchorOf reads (bound browser (modeOf since) since) with
    | none => simp
    | some a =>
      cases anchorOf reads (bound browser (modeOf till) till) with
      | none => simp
      | some b => simp
  · cases decoded

theorem relativeSpecific_kept_iff {since till dttm grainValue grain : Text}
    (matched : customRangeExpression since = some (dttm, grainValue, grain))
    (decoded : relativeSpecific browser since till = some range) :
    (∃ bounds, ((endpointOf reads since).bind fun first => (endpointOf reads till).map fun second =>
      (first, second)) = some bounds ∧
        meaning reads (customTimeRangeEncode browser range) = some bounds) ↔
      KeptAnchor reads browser till dttm ∧ signedValue grainValue < 0 ∧
      ExactAmount (signedValue grainValue) := by
  obtain ⟨isDttm, value, isGrainText⟩ := captured_valid matched
  unfold relativeSpecific at decoded
  rw [matched] at decoded
  dsimp only at decoded
  split at decoded
  · next accepted =>
    have isTill := accepted.1
    cases decoded
    have shape := bound_shape writes (modeOf_ne_relative till) dttm
    have nonzero : -((JsNumber.parseInt grainValue).natAbs : Int) ≠ 0 := by
      have := parseInt_ne_zero value
      omega
    rw [encode_relativeSpecific browser rfl (modeOf_ne_relative till)]
    dsimp only
    rw [meaning_append reads (joined_dateAdd shape.2 isGrainText _) shape.2,
      endpointOf_captured reads matched,
      endpointOf_of_not_captured reads (not_captured_of_anchor isTill),
      ← anchor_kept_iff reads writes isTill isDttm,
      ← negative_amount_iff value]
    obtain ⟨first, dttmAnchor⟩ :=
      Option.isSome_iff_exists.mp ((anchorOf_isSome_iff reads).mpr isDttm)
    obtain ⟨second, tillAnchor⟩ :=
      Option.isSome_iff_exists.mp ((anchorOf_isSome_iff reads).mpr isTill)
    have written := relative_written reads shape isGrainText nonzero (a := first) (b := second)
      (m := signedValue grainValue) (g := grain.map Char.toLower)
    rw [dttmAnchor, tillAnchor]
    simp only [Option.map_some, Option.bind_some, Option.some.injEq, exists_eq_left', bounds_iff,
      written, and_true]
    refine and_congr_left fun _ => ?_
    constructor
    · rintro ⟨bound, rfl⟩
      exact ⟨bound, rfl⟩
    · rintro ⟨bound, rfl⟩
      exact ⟨bound, rfl⟩
  · cases decoded

theorem specificRelative_kept_iff {since till dttm grainValue grain : Text}
    (matched : customRangeExpression till = some (dttm, grainValue, grain))
    (decoded : specificRelative browser since till = some range) :
    (∃ bounds, ((endpointOf reads since).bind fun first => (endpointOf reads till).map fun second =>
      (first, second)) = some bounds ∧
        meaning reads (customTimeRangeEncode browser range) = some bounds) ↔
      KeptAnchor reads browser since dttm ∧ ExactAmount (signedValue grainValue) := by
  obtain ⟨isDttm, value, isGrainText⟩ := captured_valid matched
  unfold specificRelative at decoded
  rw [matched] at decoded
  dsimp only at decoded
  split at decoded
  · next accepted =>
    have isSince := accepted.1
    cases decoded
    have shape := bound_shape writes (modeOf_ne_relative since) dttm
    rw [encode_specificRelative browser (modeOf_ne_relative since) rfl]
    dsimp only
    rw [meaning_append reads shape.2 (joined_dateAdd shape.2 isGrainText _),
      endpointOf_captured reads matched,
      endpointOf_of_not_captured reads (not_captured_of_anchor isSince),
      ← anchor_kept_iff reads writes isSince isDttm,
      ← amount_iff value]
    obtain ⟨second, dttmAnchor⟩ :=
      Option.isSome_iff_exists.mp ((anchorOf_isSome_iff reads).mpr isDttm)
    obtain ⟨first, sinceAnchor⟩ :=
      Option.isSome_iff_exists.mp ((anchorOf_isSome_iff reads).mpr isSince)
    have written :=
      and_comm.trans
        (relative_written reads shape isGrainText (parseInt_ne_zero value) (a := second)
          (b := first)
      (m := signedValue grainValue) (g := grain.map Char.toLower))
    rw [dttmAnchor, sinceAnchor]
    simp only [Option.map_some, Option.bind_some, Option.some.injEq, exists_eq_left', bounds_iff,
      written, and_true]
    refine and_congr_left fun _ => ?_
    constructor
    · rintro ⟨bound, rfl⟩
      exact ⟨bound, rfl⟩
    · rintro ⟨bound, rfl⟩
      exact ⟨bound, rfl⟩
  · cases decoded

omit writes in
theorem relativeRelative_kept_iff
    {since till dttm grainValue grain untilDttm untilGrainValue untilGrain : Text}
    (matched : customRangeExpression since = some (dttm, grainValue, grain))
    (untilMatched : customRangeExpression till = some (untilDttm, untilGrainValue, untilGrain))
    (decoded : relativeRelative since till = some range) :
    (∃ bounds, ((endpointOf reads since).bind fun first => (endpointOf reads till).map fun second =>
      (first, second)) = some bounds ∧
        meaning reads (customTimeRangeEncode browser range) = some bounds) ↔
      (signedValue grainValue < 0 ∧ ExactAmount (signedValue grainValue)) ∧
      ExactAmount (signedValue untilGrainValue) := by
  obtain ⟨isDttm, value, isGrainText⟩ := captured_valid matched
  obtain ⟨_, untilValue, isUntilGrain⟩ := captured_valid untilMatched
  unfold relativeRelative at decoded
  rw [matched, untilMatched] at decoded
  dsimp only at decoded
  split at decoded
  · next same =>
    subst same
    cases decoded
    have isJoined : joined dttm = true :=
      joined_of_not_mem (.inl rfl) (not_mem_anchor (.inl rfl) isDttm)
    have nonzero : -((JsNumber.parseInt grainValue).natAbs : Int) ≠ 0 := by
      have := parseInt_ne_zero value
      omega
    rw [encode_relative browser rfl rfl]
    dsimp only
    rw [meaning_append reads (joined_dateAdd isJoined isGrainText _)
      (joined_dateAdd isJoined isUntilGrain _),
      endpointOf_captured reads matched, endpointOf_captured reads untilMatched,
      endpointOf_dateAdd reads isDttm isGrainText nonzero,
      endpointOf_dateAdd reads isDttm isUntilGrain (parseInt_ne_zero untilValue),
      ← negative_amount_iff value, ← amount_iff untilValue]
    obtain ⟨anchor, dttmAnchor⟩ :=
      Option.isSome_iff_exists.mp ((anchorOf_isSome_iff reads).mpr isDttm)
    rw [dttmAnchor]
    simp only [Option.map_some, Option.bind_some, Option.some.injEq, exists_eq_left', bounds_iff]
    have written {n m : Int} {g : Text} :
        (if n.natAbs < 10 ^ 21 then some (⟨anchor, some (shown n, g)⟩ : Endpoint ι) else none) =
          some ⟨anchor, some (m, g)⟩ ↔
          n.natAbs < 10 ^ 21 ∧ shown n = m := by
      split
      · next small =>
        exact ⟨fun same => ⟨small, by simpa using same⟩, fun amount => by rw [amount.2]⟩
      · next large => exact ⟨fun none => (by cases none), fun amount => absurd amount.1 large⟩
    rw [written, written]
  · cases decoded

theorem meaningKept_iff {timeRange : Text}
    (accepted : (customTimeRangeDecode browser timeRange).2 = true) :
    SameMeaning reads browser timeRange ↔ KeptRange reads browser timeRange := by
  unfold customTimeRangeDecode at accepted
  split at accepted
  · next since till parts =>
    cases decoded : decodeBounds browser since till with
    | none =>
      rw [decoded] at accepted
      cases accepted
    | some range =>
      have decode : customTimeRangeDecode browser timeRange = (range, true) := by
        rw [customTimeRangeDecode, parts]
        dsimp only
        rw [decoded]
      have kept : KeptRange reads browser timeRange ↔ KeptBounds reads browser since till := by
        constructor
        · rintro ⟨first, second, same, kept⟩
          rw [parts] at same
          cases same
          exact kept
        · exact fun kept => ⟨since, till, parts, kept⟩
      rw [kept, SameMeaning, decode, meaning, parts, KeptBounds]
      dsimp only
      cases matched : customRangeExpression since with
      | none =>
        cases untilMatched : customRangeExpression till with
        | none =>
          rw [decodeBounds_specific matched untilMatched] at decoded
          exact specificSpecific_kept_iff reads writes decoded
        | some captured =>
          rw [decodeBounds_specificRelative matched untilMatched] at decoded
          exact specificRelative_kept_iff reads writes untilMatched decoded
      | some captured =>
        cases untilMatched : customRangeExpression till with
        | none =>
          rw [decodeBounds_relativeSpecific matched untilMatched] at decoded
          exact relativeSpecific_kept_iff reads writes matched decoded
        | some untilCaptured =>
          rw [decodeBounds_relative matched untilMatched] at decoded
          exact relativeRelative_kept_iff reads matched untilMatched decoded
  · cases accepted

end Accepted

section Written
variable {browser : Browser}

def ReadBack (browser : Browser) (dttm : Text) : Prop :=
  isIso8601 (dttmToString browser dttm) = true ∧ browser.dayjs (dttmToString browser dttm) =
    dttmToString browser dttm

/-- Grain values are integers other than 0, and datetimes are well-formed. -/
structure WellFormed (browser : Browser) (range : CustomRange) : Prop where
  sinceGrain : isGrain range.sinceGrain = true
  untilGrain : isGrain range.untilGrain = true
  sinceGrainValue : range.sinceGrainValue ≠ 0 ∧ JsNumber.IsDouble range.sinceGrainValue.natAbs
  untilGrainValue : range.untilGrainValue ≠ 0 ∧ JsNumber.IsDouble range.untilGrainValue.natAbs
  sinceDatetime : ReadBack browser range.sinceDatetime
  untilDatetime : ReadBack browser range.untilDatetime
  anchorValue : iso8601AndConstant range.anchorValue = true

/-- The amounts of the relative bounds are shown without an exponent. -/
def ShownAmounts (range : CustomRange) : Prop :=
  (range.sinceMode = .relative → range.sinceGrainValue.natAbs < 10 ^ 21) ∧
    (range.untilMode = .relative → range.untilGrainValue.natAbs < 10 ^ 21)

/-- What is written for the range matches and is written again. -/
def Survives (browser : Browser) (range : CustomRange) : Prop :=
  (customTimeRangeDecode browser (customTimeRangeEncode browser range)).2 = true ∧
    customTimeRangeEncode browser
      (customTimeRangeDecode browser (customTimeRangeEncode browser range)).1 =
      customTimeRangeEncode browser range

theorem bound_again {mode : Mode} (absolute : mode ≠ .relative) {datetime : Text}
    (readBack : ReadBack browser datetime) :
    iso8601AndConstant (bound browser mode datetime) = true ∧
      bound browser (modeOf (bound browser mode datetime)) (bound browser mode datetime) =
        bound browser mode datetime := by
  cases mode with
  | relative => exact absurd rfl absolute
  | now =>
    have isMode : modeOf "now".toList = .now := by decide
    refine ⟨isAnchor_now, ?_⟩
    show bound browser (modeOf "now".toList) _ = _
    rw [isMode]
    rfl
  | today =>
    have isMode : modeOf "today".toList = .today := by decide
    refine ⟨isAnchor_today, ?_⟩
    show bound browser (modeOf "today".toList) _ = _
    rw [isMode]
    rfl
  | specific =>
    obtain ⟨isIso, again⟩ := readBack
    show iso8601AndConstant (dttmToString browser datetime) = true ∧
      bound browser (modeOf (dttmToString browser datetime)) (dttmToString browser datetime) =
        dttmToString browser datetime
    generalize dttmToString browser datetime = text at isIso again
    have notNow : text ≠ "now".toList := by
      rintro rfl
      cases (not_constant_of_isIso8601 isIso).symm.trans
        (by decide : isDatetimeConstant "now".toList = true)
    have notToday : text ≠ "today".toList := by
      rintro rfl
      cases (not_constant_of_isIso8601 isIso).symm.trans
        (by decide : isDatetimeConstant "today".toList = true)
    refine ⟨by rw [iso8601AndConstant, isIso, Bool.true_or], ?_⟩
    rw [modeOf, if_neg notNow, if_neg notToday, bound, if_pos rfl, dttmToString, if_neg notNow,
      if_neg notToday, again]

theorem decode_append (browser : Browser) {since till : Text} (hasSince : joined since = true)
    (hasTill : joined till = true) :
    customTimeRangeDecode browser (since ++ separator ++ till) =
      match decodeBounds browser since till with
      | some range => (range, true)
      | none => (defaultCustomRange browser, false) := by
  have parts : split (since ++ separator ++ till) = [since, till] := by
    rw [split_append hasSince, split_of_joined hasTill]
  cases decoded : decodeBounds browser since till with
  | none => simp only [customTimeRangeDecode, parts, decoded]
  | some range => simp only [customTimeRangeDecode, parts, decoded]

theorem joined_of_anchor {text : Text} (isAnchor : iso8601AndConstant text = true) :
    joined text = true :=
  joined_of_not_mem (.inl rfl) (not_mem_anchor (.inl rfl) isAnchor)

theorem anchor_infix_dateAdd (anchor grain : Text) (n : Int) : anchor <:+: dateAdd anchor n grain :=
  ⟨"DATEADD(DATETIME(\"".toList,
    "\"), ".toList ++ (JsNumber.text n ++ (", ".toList ++ (grain ++ ")".toList))), by
    unfold dateAdd
    generalize "DATEADD(DATETIME(\"".toList = front
    generalize "\"), ".toList = afterAnchor
    generalize ", ".toList = afterValue
    simp only [List.append_assoc]⟩

/-- What is written for a relative bound matches when its amount is shown without an exponent. -/
theorem captured_dateAdd {anchor grain : Text} (isAnchor : iso8601AndConstant anchor = true)
    (isGrainText : isGrain grain = true)
    {n : Int} (nonzero : n ≠ 0) :
    customRangeExpression (dateAdd anchor n grain) = if n.natAbs < 10 ^ 21
    then some (anchor, JsNumber.text n, grain) else none := by
  rw [customRangeExpression_dateAdd isAnchor isGrainText]
  simp only [isGrainValue_text_iff (JsNumber.shortest_pos (Int.natAbs_pos.mpr nonzero))]

theorem parseInt_negative {n : Int} (isDouble : JsNumber.IsDouble n.natAbs)
    (small : n.natAbs < 10 ^ 21) :
    JsNumber.parseInt (JsNumber.text (-(n.natAbs : Int))) = -(n.natAbs : Int) := by
  have magnitude :
    (-(n.natAbs : Int)).natAbs = n.natAbs := by rw [Int.natAbs_neg, Int.natAbs_natCast]
  exact JsNumber.parseInt_text (by rwa [magnitude]) (by rwa [magnitude])

variable {range : CustomRange}

section
variable (wellFormed : WellFormed browser range)
include wellFormed

theorem specific_survives (since : range.sinceMode ≠ .relative)
    (till : range.untilMode ≠ .relative) : Survives browser range := by
  obtain ⟨sinceAnchor, sinceAgain⟩ := bound_again since wellFormed.sinceDatetime
  obtain ⟨tillAnchor, tillAgain⟩ := bound_again till wellFormed.untilDatetime
  rw [Survives, encode_specific browser since till]
  generalize bound browser range.sinceMode range.sinceDatetime = first at sinceAnchor sinceAgain
  generalize bound browser range.untilMode range.untilDatetime = second at tillAnchor tillAgain
  rw [decode_append browser (joined_of_anchor sinceAnchor) (joined_of_anchor tillAnchor),
    decodeBounds_specific (not_captured_of_anchor sinceAnchor) (not_captured_of_anchor tillAnchor),
    specificSpecific, sinceAnchor, tillAnchor, if_pos (Bool.and_self true)]
  refine ⟨rfl, ?_⟩
  rw [encode_specific browser (modeOf_ne_relative first) (modeOf_ne_relative second)]
  dsimp only
  rw [sinceAgain, tillAgain]

theorem specificRelative_survives_iff
    (since : range.sinceMode ≠ .relative) (till : range.untilMode = .relative) :
    Survives browser range ↔ range.untilGrainValue.natAbs < 10 ^ 21 := by
  obtain ⟨sinceAnchor, sinceAgain⟩ := bound_again since wellFormed.sinceDatetime
  rw [Survives, encode_specificRelative browser since till]
  generalize bound browser range.sinceMode range.sinceDatetime = first at sinceAnchor sinceAgain
  have captured := captured_dateAdd sinceAnchor wellFormed.untilGrain wellFormed.untilGrainValue.1
  rw [decode_append browser (joined_of_anchor sinceAnchor)
    (joined_dateAdd (joined_of_anchor sinceAnchor) wellFormed.untilGrain _)]
  by_cases small : range.untilGrainValue.natAbs < 10 ^ 21
  · rw [if_pos small] at captured
    rw [decodeBounds_specificRelative (not_captured_of_anchor sinceAnchor) captured,
      specificRelative, captured]
    dsimp only
    rw [if_pos ⟨sinceAnchor, anchor_infix_dateAdd _ _ _⟩]
    refine iff_of_true ⟨rfl, ?_⟩ small
    rw [encode_specificRelative browser (modeOf_ne_relative first) rfl]
    dsimp only
    rw [sinceAgain, JsNumber.parseInt_text wellFormed.untilGrainValue.2 small]
  · rw [if_neg small] at captured
    rw [decodeBounds_specific (not_captured_of_anchor sinceAnchor) captured, specificSpecific,
      not_anchor_dateAdd, Bool.and_false,
      if_neg (by decide)]
    exact iff_of_false (fun survives => (by cases survives.1)) small

theorem relativeSpecific_survives_iff
    (since : range.sinceMode = .relative) (till : range.untilMode ≠ .relative) :
    Survives browser range ↔ range.sinceGrainValue.natAbs < 10 ^ 21 := by
  obtain ⟨tillAnchor, tillAgain⟩ := bound_again till wellFormed.untilDatetime
  rw [Survives, encode_relativeSpecific browser since till]
  generalize bound browser range.untilMode range.untilDatetime = second at tillAnchor tillAgain
  have nonzero : -(range.sinceGrainValue.natAbs : Int) ≠ 0 := by
    have := wellFormed.sinceGrainValue.1
    omega
  have magnitude :
      (-(range.sinceGrainValue.natAbs : Int)).natAbs = range.sinceGrainValue.natAbs := by
    rw [Int.natAbs_neg, Int.natAbs_natCast]
  have captured := captured_dateAdd tillAnchor wellFormed.sinceGrain nonzero
  rw [magnitude] at captured
  rw [decode_append browser (joined_dateAdd (joined_of_anchor tillAnchor) wellFormed.sinceGrain _)
    (joined_of_anchor tillAnchor)]
  by_cases small : range.sinceGrainValue.natAbs < 10 ^ 21
  · rw [if_pos small] at captured
    rw [decodeBounds_relativeSpecific captured (not_captured_of_anchor tillAnchor),
      relativeSpecific, captured]
    dsimp only
    rw [if_pos ⟨tillAnchor, anchor_infix_dateAdd _ _ _⟩]
    refine iff_of_true ⟨rfl, ?_⟩ small
    rw [encode_relativeSpecific browser rfl (modeOf_ne_relative second)]
    dsimp only
    rw [tillAgain, parseInt_negative wellFormed.sinceGrainValue.2 small, magnitude]
  · rw [if_neg small] at captured
    rw [decodeBounds_specific captured (not_captured_of_anchor tillAnchor), specificSpecific,
      not_anchor_dateAdd, Bool.false_and,
      if_neg (by decide)]
    exact iff_of_false (fun survives => (by cases survives.1)) small

theorem relativeRelative_survives_iff
    (since : range.sinceMode = .relative) (till : range.untilMode = .relative) :
    Survives browser range ↔ range.sinceGrainValue.natAbs < 10 ^ 21 ∧ range.untilGrainValue.natAbs <
      10 ^ 21 := by
  have isAnchor := wellFormed.anchorValue
  rw [Survives, encode_relative browser since till]
  generalize range.anchorValue = anchor at isAnchor
  have nonzero : -(range.sinceGrainValue.natAbs : Int) ≠ 0 := by
    have := wellFormed.sinceGrainValue.1
    omega
  have magnitude :
      (-(range.sinceGrainValue.natAbs : Int)).natAbs = range.sinceGrainValue.natAbs := by
    rw [Int.natAbs_neg, Int.natAbs_natCast]
  have captured := captured_dateAdd isAnchor wellFormed.sinceGrain nonzero
  have untilCaptured := captured_dateAdd isAnchor wellFormed.untilGrain wellFormed.untilGrainValue.1
  rw [magnitude] at captured
  rw [decode_append browser (joined_dateAdd (joined_of_anchor isAnchor) wellFormed.sinceGrain _)
    (joined_dateAdd (joined_of_anchor isAnchor) wellFormed.untilGrain _)]
  by_cases small : range.sinceGrainValue.natAbs < 10 ^ 21
  · rw [if_pos small] at captured
    by_cases untilSmall : range.untilGrainValue.natAbs < 10 ^ 21
    · rw [if_pos untilSmall] at untilCaptured
      rw [decodeBounds_relative captured untilCaptured, relativeRelative, captured, untilCaptured]
      dsimp only
      rw [if_pos rfl]
      refine iff_of_true ⟨rfl, ?_⟩ ⟨small, untilSmall⟩
      rw [encode_relative browser rfl rfl]
      dsimp only
      rw [parseInt_negative wellFormed.sinceGrainValue.2 small, magnitude,
        JsNumber.parseInt_text wellFormed.untilGrainValue.2 untilSmall]
    · rw [if_neg untilSmall] at untilCaptured
      rw [decodeBounds_relativeSpecific captured untilCaptured, relativeSpecific, captured]
      dsimp only
      rw [not_anchor_dateAdd, if_neg (fun accepted => (by cases accepted.1))]
      exact iff_of_false (fun survives => (by cases survives.1)) fun both => untilSmall both.2
  · rw [if_neg small] at captured
    refine iff_of_false (fun survives => ?_) fun both => small both.1
    have unmatched :
      decodeBounds browser (dateAdd anchor (-(range.sinceGrainValue.natAbs : Int)) range.sinceGrain)
        (dateAdd anchor range.untilGrainValue range.untilGrain) = none := by
      by_cases untilSmall : range.untilGrainValue.natAbs < 10 ^ 21
      · rw [if_pos untilSmall] at untilCaptured
        rw [decodeBounds_specificRelative captured untilCaptured, specificRelative, untilCaptured]
        dsimp only
        rw [not_anchor_dateAdd, if_neg (fun accepted => (by cases accepted.1))]
      · rw [if_neg untilSmall] at untilCaptured
        rw [decodeBounds_specific captured untilCaptured, specificSpecific, not_anchor_dateAdd,
          Bool.false_and, if_neg (by decide)]
    rw [unmatched] at survives
    cases survives.1

theorem survives_iff : Survives browser range ↔ ShownAmounts range := by
  unfold ShownAmounts
  by_cases since : range.sinceMode = .relative
  · by_cases till : range.untilMode = .relative
    · simpa [since, till] using relativeRelative_survives_iff wellFormed since till
    · simpa [since, till] using relativeSpecific_survives_iff wellFormed since till
  · by_cases till : range.untilMode = .relative
    · simpa [since, till] using specificRelative_survives_iff wellFormed since till
    · simpa [since, till] using specific_survives wellFormed since till

end

end Written

/-! ## Editing -/

theorem decode_of_whole (browser : Browser) {timeRange : Text}
    (whole : split timeRange = [timeRange]) :
    (customTimeRangeDecode browser timeRange).2 = false := by
  rw [customTimeRangeDecode, whole]

theorem guessFrame_custom_iff (browser : Browser) (timeRange : Text) :
    guessFrame browser timeRange = .custom ↔
    (customTimeRangeDecode browser timeRange).2 = true := by
  have presets :
    ∀ preset ∈ (commonRanges ++ calendarRanges ++ currentRanges ++ ["No filter"]).map String.toList,
      split preset = [preset] := by decide
  have listed (names : List String)
    (subset : names ⊆ commonRanges ++ calendarRanges ++ currentRanges ++ ["No filter"])
      (member : timeRange ∈ names.map String.toList) :
      (customTimeRangeDecode browser timeRange).2 = false :=
    decode_of_whole browser (presets timeRange (List.map_subset _ subset member))
  unfold guessFrame
  split
  · next common => simp [listed _ (by decide) common]
  · split
    · next calendar => simp [listed _ (by decide) calendar]
    · split
      · next current => simp [listed _ (by decide) current]
      · split
        · next noFilter => simp [listed ["No filter"] (by decide) (by simp [noFilter])]
        · split
          · next matched => exact iff_of_true rfl matched
          · next unmatched => exact iff_of_false (by decide) unmatched

/-- A well-formed range is written so that it is read back when its amounts are shown without an
exponent, and a range that the control takes for a custom one keeps its meaning under the
conditions on its constants, datetimes and amounts. -/
theorem edits_iff {ι : Type} (reads : Text → ι) {browser : Browser} (writes : browser.Writes) :
    (∀ range, WellFormed browser range → (Survives browser range ↔ ShownAmounts range)) ∧
      ∀ timeRange, guessFrame browser timeRange = .custom →
        (SameMeaning reads browser timeRange ↔ KeptRange reads browser timeRange) :=
  ⟨fun _ wellFormed => survives_iff wellFormed,
    fun timeRange custom =>
      meaningKept_iff reads writes ((guessFrame_custom_iff browser timeRange).mp custom)⟩

def plainBrowser : Browser where
  dayjs dttm :=
    if isIso8601 dttm = true ∧ dttm.all (fun c => c.isDigit || ['-', '+', ':', 'T'].elem c) = true
      then dttm
    else "Invalid date".toList
  now := "2021-01-27T08:30:00".toList
  today := "2021-01-27T00:00:00".toList
  sevenDaysAgo := "2021-01-20T00:00:00".toList
  midnight := "2021-01-27T00:00:00".toList

theorem unmatched_invalidDate : Unmatched "Invalid date".toList :=
  ⟨by decide, by decide, by decide⟩

theorem plainBrowser_writes : plainBrowser.Writes where
  written dttm := by
    unfold plainBrowser
    dsimp only
    split
    · next plain =>
        right
        intro c member
        simpa using List.all_eq_true.mp plain.2 c member
    · exact .inl unmatched_invalidDate
  constants dttm isConstant _ _ := by
    have invalid : plainBrowser.dayjs dttm = "Invalid date".toList := by
      refine if_neg fun plain => ?_
      rw [not_constant_of_isIso8601 plain.1] at isConstant
      cases isConstant
    rw [invalid]
    exact unmatched_invalidDate
  now := by decide
  today := by decide

def lastWeek : CustomRange where
  sinceMode := .relative
  sinceDatetime := "2021-01-27T00:00:00".toList
  sinceGrain := "day".toList
  sinceGrainValue := 7
  untilMode := .specific
  untilDatetime := "2021-01-27T00:00:00".toList
  untilGrain := "day".toList
  untilGrainValue := 7
  anchorNow := true
  anchorValue := "now".toList

theorem lastWeek_edited :
    Survives plainBrowser lastWeek ∧
    SameMeaning id plainBrowser "DATEADD(DATETIME(\"now\"), -7, day) : now".toList := by
  have wellFormed : WellFormed plainBrowser lastWeek := {
    sinceGrain := by decide
    untilGrain := by decide
    sinceGrainValue := ⟨by decide, JsNumber.isDouble_of_lt (by decide)⟩
    untilGrainValue := ⟨by decide, JsNumber.isDouble_of_lt (by decide)⟩
    sinceDatetime := ⟨by decide, by decide⟩
    untilDatetime := ⟨by decide, by decide⟩
    anchorValue := by decide }
  have shownAmounts : ShownAmounts lastWeek := ⟨fun _ => by decide, fun _ => by decide⟩
  have captured : customRangeExpression "DATEADD(DATETIME(\"now\"), -7, day)".toList =
      some ("now".toList, "-7".toList, "day".toList) := by decide
  have notCaptured : customRangeExpression "now".toList = none := by decide
  have kept : KeptRange id plainBrowser "DATEADD(DATETIME(\"now\"), -7, day) : now".toList := by
    refine ⟨"DATEADD(DATETIME(\"now\"), -7, day)".toList, "now".toList, by decide, ?_⟩
    rw [KeptBounds, captured, notCaptured]
    exact ⟨⟨rfl, .inl rfl⟩, by decide, by decide, by decide⟩
  exact ⟨((edits_iff id plainBrowser_writes).1 lastWeek wellFormed).mpr shownAmounts,
    ((edits_iff id plainBrowser_writes).2 _ (by decide)).mpr kept⟩

/-- A constant in upper case is written as an invalid date, and an amount after the anchor becomes
one before it. -/
theorem upper_case_lost :
    plainBrowser.Writes ∧
    guessFrame plainBrowser "DATEADD(DATETIME(\"TODAY\"), -7, day) : TODAY".toList = .custom ∧
      ¬ SameMeaning id plainBrowser "DATEADD(DATETIME(\"TODAY\"), -7, day) : TODAY".toList ∧
      guessFrame plainBrowser "DATEADD(DATETIME(\"now\"), 7, day) : now".toList = .custom ∧
      ¬ SameMeaning id plainBrowser "DATEADD(DATETIME(\"now\"), 7, day) : now".toList := by
  have lost : (meaning id (customTimeRangeEncode plainBrowser (customTimeRangeDecode plainBrowser
      "DATEADD(DATETIME(\"TODAY\"), -7, day) : TODAY".toList).1)).isNone = true := by decide
  have before : meaning id (customTimeRangeEncode plainBrowser (customTimeRangeDecode plainBrowser
      "DATEADD(DATETIME(\"now\"), 7, day) : now".toList).1) ≠
        meaning id "DATEADD(DATETIME(\"now\"), 7, day) : now".toList := by
    decide
  refine ⟨plainBrowser_writes, by decide, ?_, by decide, ?_⟩
  · rintro ⟨bounds, _, same⟩
    rw [same] at lost
    cases lost
  · rintro ⟨bounds, stated, same⟩
    exact before (same.trans stated.symm)

end Liteset.Charts.TimeRanges
