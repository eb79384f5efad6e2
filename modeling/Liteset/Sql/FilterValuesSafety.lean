import Liteset.Lib.Fallible
import Liteset.Sql.FilterValues

/-!
# What filters mean

`Holds` says when an operator holds between a cell and the values of a filter, converted to
the type of the column.  The handler has one `None` for a null and for a text that is no
number, and the conversions and the operators of SQLAlchemy may raise; `faithful_iff` says
for every operator exactly when the condition has the meaning of the filter.
-/

set_option autoImplicit false

namespace Liteset.Sql.FilterValues

open Liteset.Lib Liteset.Lib.Condition List
open Liteset.Sql.Chart (FilterOperator)

inductive Meaning (α : Type) where
  | null
  | value (a : α)
  | nothing

def Meaning.ofOption {α : Type} : Option α → Meaning α
  | some a => .value a
  | none => .nothing

def Meaning.bind {α β : Type} (f : α → Option β) : Meaning α → Meaning β
  | .null => .null
  | .value a => .ofOption (f a)
  | .nothing => .nothing

variable {N T : Type} [LinearOrder N] (backend : Backend N T) (type : GenericDataType)

def numberOf (text : String) : Option N :=
  if PyText.isdigit text then (PyText.digitsValue text).map backend.natural else backend.float text

def plain (text : String) : String := if text = EMPTY_STRING then "" else text

def intendedText (text : String) : Meaning (Literal N) :=
  if text = NULL_STRING then .null
  else
    match type with
    | .numeric => .ofOption ((numberOf backend (plain text)).map .number)
    | .boolean => .value (if text = EMPTY_STRING then .text "" else .bool (castToBoolean text))
    | _ => .value (.text (plain text))

/-- The literal of the column's type that a value denotes.  Tabs and newlines around a text
are part of a string, but not of a number, a truth value or a time. -/
def intended : Value N → Meaning (Literal N)
  | .null => .null
  | .bool b =>
    if type = .temporal then
      .ofOption ((backend.utcfromtimestamp (backend.natural b.toNat)).map fun dttm =>
        .sql (backend.convertDttm dttm))
    else .value (.bool b)
  | .number n =>
    if type = .temporal then
      .ofOption ((backend.utcfromtimestamp n).map fun dttm => .sql (backend.convertDttm dttm))
    else if type = .boolean then .value (.bool (n ≠ backend.natural 0))
    else .value (.number n)
  | .text s => intendedText backend type (if type = .string then s else stripped s)

def meaning (value : Value N) : Meaning (Carrier N T type) :=
  (intended backend type value).bind (backend.reads type)

/-- The pattern of a `LIKE`: a text is one as it is written. -/
def pattern : Value N → Meaning String
  | .text s => if s = NULL_STRING then .null else .value (plain s)
  | value => (intended backend type value).bind backend.textOfLiteral

def equalsTo {α : Type} (cell : Option α) : Meaning α → Prop
  | .null => cell = none
  | .value a => cell = some a
  | .nothing => False

namespace Values

def items : Values N → List (Value N)
  | .single value => [value]
  | .many values => values

def first (values : Values N) : Option (Value N) := values.items.head?

end Values

section Specification
variable [LinearOrder T]

def Within (since until_ : Option T) (c : Carrier N T type) : Prop :=
  let read := fun dttm => backend.reads type (.sql (some (backend.dttmSqlLiteral dttm)))
  (∀ dttm ∈ since, ∃ bound, read dttm = some bound ∧ bound ≤ c) ∧
    ∀ dttm ∈ until_, ∃ bound, read dttm = some bound ∧ c < bound

def FirstMeans {α : Type} (of : Value N → Meaning α) (values : Values N)
    (Holds : Meaning α → Prop) : Prop :=
  ∃ v ∈ values.first, Holds (of v)

def Holds (values : Values N) (cell : Option (Carrier N T type)) : FilterOperator → Prop
  | .equals => FirstMeans (meaning backend type) values (equalsTo cell)
  | .notEquals => cell ≠ none ∧ ¬ FirstMeans (meaning backend type) values (equalsTo cell)
  | .greaterThan =>
    FirstMeans (meaning backend type) values fun m => ∃ c v, cell = some c ∧ m = .value v ∧ c > v
  | .lessThan =>
    FirstMeans (meaning backend type) values fun m => ∃ c v, cell = some c ∧ m = .value v ∧ c < v
  | .greaterThanOrEquals =>
    FirstMeans (meaning backend type) values fun m => ∃ c v, cell = some c ∧ m = .value v ∧ c ≥ v
  | .lessThanOrEquals =>
    FirstMeans (meaning backend type) values fun m => ∃ c v, cell = some c ∧ m = .value v ∧ c ≤ v
  | .like => FirstMeans (pattern backend type) values fun m =>
    ∃ c p, cell = some c ∧ m = .value p ∧ likeText id p (backend.textOf type c) = true
  | .notLike => FirstMeans (pattern backend type) values fun m =>
    ∃ c p, cell = some c ∧ m = .value p ∧ likeText id p (backend.textOf type c) = false
  | .ilike => FirstMeans (pattern backend type) values fun m =>
    ∃ c p, cell = some c ∧ m = .value p ∧ likeText backend.lower p (backend.textOf type c) = true
  | .isNull => cell = none
  | .isNotNull => cell ≠ none
  | .isIn => ∃ v ∈ values.items, equalsTo cell (meaning backend type v)
  | .notIn => cell ≠ none ∧ ¬ ∃ v ∈ values.items, equalsTo cell (meaning backend type v)
  | .isTrue => ∃ c, cell = some c ∧ backend.reads type (.bool true) = some c
  | .isFalse => ∃ c, cell = some c ∧ backend.reads type (.bool false) = some c
  | .temporalRange => ∃ range since until_, values.first = some (.text range) ∧
      backend.sinceUntil range = .ok (since, until_) ∧
      (since = none ∧ until_ = none ∨ ∃ c, cell = some c ∧ Within backend type since until_ c)

/-- The translation ends in a validation error or in a condition that runs and is true on
exactly the cells for which the operator holds. -/
def Faithful (isColumn : Bool) (op : FilterOperator) (values : Values N) : Prop :=
  match translateFilter backend type isColumn op values with
  | .error (.queryObjectValidationError _) => True
  | .error _ => False
  | .ok condition => condition.Runs backend type ∧
      ∀ cell, condition.eval backend type cell = some true ↔ Holds backend type values cell op

end Specification

/-! ## The condition -/

def Converts (op : FilterOperator) : Value N → Prop
  | .null => True
  | .bool b => op ≠ .temporalRange → type = .temporal →
      (backend.utcfromtimestamp (backend.natural b.toNat)).isSome
  | .number n => op ≠ .temporalRange → type = .temporal → (backend.utcfromtimestamp n).isSome
  | .text s => op ≠ .temporalRange → type = .numeric → op ≠ .ilike → op ≠ .like →
      PyText.isdigit (stripped s) = true → (PyText.int (stripped s)).isSome

def Untouched : Value N → Prop
  | .text s => type = .string → stripped s = s
  | _ => True

def Readable (value : Value N) : Prop :=
  ∀ literal, intended backend type value = .value literal → (backend.reads type literal).isSome

def Comparable (value : Value N) : Prop :=
  (∀ b, intended backend type value ≠ .value (.bool b)) ∧
    (Untouched type value ∨ ∃ s, value = .text s ∧ stripped s = NULL_STRING) ∧
    Readable backend type value

def SameMatches (fold : Char → Char) (p q : String) : Prop :=
  ∀ c, likeText fold p (backend.textOf type c) = likeText fold q (backend.textOf type c)

def PatternKept (fold : Char → Char) : Value N → Prop
  | .text s => stripped s = NULL_STRING ∨
      (type = .boolean → stripped s = EMPTY_STRING) ∧
      SameMatches backend type fold (plain (stripped s)) (plain s)
  | value => (∀ b, intended backend type value ≠ .value (.bool b)) ∧
      ∀ literal, intended backend type value = .value literal →
      (backend.textOfLiteral literal).isSome

/-- The same for `NOT LIKE`, whose pattern on a numeric column is read as a number. -/
def NotLikeKept : Value N → Prop
  | .text s =>
    if type = .numeric then
      ∀ n, numberOf backend (stripped s) = some n →
        ∃ p, backend.textOfLiteral (.number n) = some p ∧ SameMatches backend type id p s
    else PatternKept backend type id (.text s)
  | value => PatternKept backend type id value

def RangeRuns (isColumn : Bool) : Value N → Prop
  | .text range => isColumn = true →
      match backend.sinceUntil range with
      | .ok (since, until_) => ∀ dttm ∈ since.toList ++ until_.toList,
          (backend.reads type (.sql (some (backend.dttmSqlLiteral dttm)))).isSome
      | .error e => ∃ message, e = .queryObjectValidationError message
  | _ => True

/-- The exact condition. -/
def Sound (isColumn : Bool) (op : FilterOperator) (values : Values N) : Prop :=
  (∀ v ∈ values.items, Converts backend type op v) ∧
    match op with
    | .equals => ∃ v ∈ values.first, Untouched type v ∧ Readable backend type v ∧
        intended backend type v ≠ .nothing
    | .notEquals => ∀ v ∈ values.first, Untouched type v ∧ Readable backend type v
    | .greaterThan | .lessThan | .greaterThanOrEquals | .lessThanOrEquals =>
      ∀ v ∈ values.first, Comparable backend type v
    | .like => ∀ v ∈ values.first, PatternKept backend type id v
    | .ilike => ∀ v ∈ values.first, PatternKept backend type backend.lower v
    | .notLike => ∀ v ∈ values.first, NotLikeKept backend type v
    | .isNull | .isNotNull => True
    | .isTrue => (backend.reads type (.bool true)).isSome
    | .isFalse => (backend.reads type (.bool false)).isSome
    | .isIn =>
      values ≠ .single .null ∧ (∀ v ∈ values.items, Untouched type v ∧ Readable backend type v) ∧
        ((∃ v ∈ values.items, intended backend type v = .nothing) → ∃ v ∈ values.items,
          intended backend type v = .null)
    | .notIn =>
      values ≠ .single .null ∧ ∀ v ∈ values.items, Untouched type v ∧ Readable backend type v
    | .temporalRange => ∀ v ∈ values.first, RangeRuns backend type isColumn v

/-! ## Conversions -/

def Meaning.toOption {α : Type} : Meaning α → Option α
  | .value a => some a
  | _ => none

@[simp] theorem toOption_null {α : Type} : (Meaning.null : Meaning α).toOption = none := rfl

@[simp] theorem toOption_nothing {α : Type} : (Meaning.nothing : Meaning α).toOption = none := rfl

@[simp] theorem toOption_value {α : Type} (a : α) : (Meaning.value a).toOption = some a := rfl

theorem toOption_ofOption {α : Type} (a : Option α) : (Meaning.ofOption a).toOption = a := by
  cases a <;> rfl

def textType (op : FilterOperator) : GenericDataType :=
  if type = .numeric ∧ (op = .ilike ∨ op = .like) then .string else type

/-- What `handle_single_value` gives when it does not raise. -/
def heard (op : FilterOperator) : Value N → Option (Literal N)
  | .text s => (intendedText backend (textType type op) (stripped s)).toOption
  | value => (intended backend type value).toOption

variable {backend type}

omit [LinearOrder N] in
theorem castToNum_eq {text : String}
    (converts : PyText.isdigit text = true → (PyText.int text).isSome) :
    castToNum backend text = .ok (numberOf backend text) := by
  unfold castToNum numberOf
  by_cases digits : PyText.isdigit text = true
  · rw [if_pos digits, if_pos digits]
    have short := converts digits
    unfold PyText.int at short ⊢
    split at short
    · obtain ⟨n, read⟩ := Option.isSome_iff_exists.mp short
      rw [if_pos ‹_›, read]
      rfl
    · cases short
  · rw [if_neg digits, if_neg digits]

omit [LinearOrder N] in
theorem numberOf_words {text : String} (word : text ∈ ["", NULL_STRING, EMPTY_STRING]) :
    numberOf backend text = none := by
  have noDigits : PyText.isdigit text = false := by
    simp only [mem_cons, not_mem_nil, or_false] at word
    rcases word with rfl | rfl | rfl <;> decide
  rw [numberOf, if_neg (by rw [noDigits]; nofun), backend.float_words text word]

omit [LinearOrder N] in
theorem numberOf_plain (text : String) : numberOf backend (plain text) = numberOf backend text := by
  unfold plain
  by_cases empty : text = EMPTY_STRING
  · rw [if_pos empty, empty, numberOf_words (by simp), numberOf_words (by simp)]
  · rw [if_neg empty]

omit [LinearOrder N] in
theorem intendedText_numeric (text : String) :
    (intendedText backend .numeric text).toOption = (numberOf backend text).map .number := by
  unfold intendedText
  by_cases null : text = NULL_STRING
  · rw [if_pos null, null, numberOf_words (by simp)]
    rfl
  · rw [if_neg null, toOption_ofOption, numberOf_plain]

omit [LinearOrder N] in
theorem intendedText_of_ne (kind : type ≠ .numeric) (text : String) :
    (intendedText backend type text).toOption =
      if text = NULL_STRING then none
      else if text = EMPTY_STRING then some (.text "")
      else if type = .boolean then some (.bool (castToBoolean text))
      else some (.text text) := by
  unfold intendedText plain
  by_cases null : text = NULL_STRING
  · rw [if_pos null, if_pos null]
    rfl
  · rw [if_neg null, if_neg null]
    cases type with
    | numeric => exact absurd rfl kind
    | string | temporal | boolean =>
      by_cases empty : text = EMPTY_STRING <;> simp [empty, Meaning.toOption]

omit [LinearOrder N] in
theorem dttmColumn_eq {n : N} (converts : (backend.utcfromtimestamp n).isSome) :
    some <$> dttmColumn backend n = .ok
      (Meaning.ofOption ((backend.utcfromtimestamp n).map fun dttm =>
        Literal.sql (N := N) (backend.convertDttm dttm))).toOption := by
  obtain ⟨dttm, read⟩ := Option.isSome_iff_exists.mp converts
  simp only [dttmColumn, read]
  rfl

variable {op : FilterOperator}

theorem handleSingleValue_eq (value : Value N) (noRange : op ≠ .temporalRange)
    (converts : Converts backend type op value) :
    handleSingleValue backend op type value = .ok (heard backend type op value) := by
  cases value with
  | null => rfl
  | bool b =>
    simp only [handleSingleValue, if_neg noRange, heard, intended]
    by_cases temporal : type = .temporal
    · rw [if_pos temporal, if_pos temporal, dttmColumn_eq (converts noRange temporal)]
    · rw [if_neg temporal, if_neg temporal]
      rfl
  | number n =>
    simp only [handleSingleValue, if_neg noRange, heard, intended]
    by_cases temporal : type = .temporal
    · rw [if_pos temporal, if_pos temporal, dttmColumn_eq (converts noRange temporal)]
    · rw [if_neg temporal, if_neg temporal]
      split <;> rfl
  | text s =>
    simp only [handleSingleValue, if_neg noRange, heard]
    by_cases number : type = .numeric ∧ op ≠ .ilike ∧ op ≠ .like
    · obtain ⟨rfl, noIlike, noLike⟩ := number
      have read : castToNum backend (stripped s) = .ok (numberOf backend (stripped s)) :=
        castToNum_eq (converts noRange rfl noIlike noLike)
      have sameType : textType .numeric op = .numeric := if_neg (by simp [noIlike, noLike])
      rw [sameType, intendedText_numeric, read]
      simp only [noIlike, noLike, ne_eq, not_false_eq_true, decide_true, Bool.and_self, if_true]
      rfl
    · have noNumber : (decide (type = .numeric) && decide (op ≠ .ilike) && decide (op ≠ .like)) =
          false := by
        simpa [and_assoc] using number
      have sameBoolean : textType type op = .boolean ↔ type = .boolean := by
        unfold textType
        split
        · simp_all
        · rfl
      have noNumeric : textType type op ≠ .numeric := by
        unfold textType
        split
        · simp
        · intro numeric
          exact number ⟨numeric, by simp_all⟩
      rw [noNumber, intendedText_of_ne noNumeric]
      simp only [sameBoolean, Bool.false_eq_true, if_false]
      split_ifs <;> rfl

/-- The error is no validation error. -/
def Escapes (e : FilterError) : Prop := ∀ message, e ≠ .queryObjectValidationError message

omit [LinearOrder N] in
theorem dttmColumn_error {n : N} (fails : ¬ (backend.utcfromtimestamp n).isSome) :
    some <$> dttmColumn backend n = .error .overflowError := by
  rw [Option.not_isSome_iff_eq_none] at fails
  simp only [dttmColumn, fails]
  rfl

variable {value : Value N}

theorem handleSingleValue_error (fails : ¬ Converts backend type op value) :
    ∃ e, handleSingleValue backend op type value = .error e ∧ Escapes e := by
  cases value with
  | null => exact absurd trivial fails
  | bool b =>
    simp only [Converts, Classical.not_imp] at fails
    obtain ⟨noRange, rfl, fails⟩ := fails
    refine ⟨.overflowError, ?_, fun _ same => by cases same⟩
    rw [handleSingleValue, if_neg noRange, if_pos rfl, dttmColumn_error fails]
  | number n =>
    simp only [Converts, Classical.not_imp] at fails
    obtain ⟨noRange, rfl, fails⟩ := fails
    refine ⟨.overflowError, ?_, fun _ same => by cases same⟩
    rw [handleSingleValue, if_neg noRange, if_pos rfl, dttmColumn_error fails]
  | text s =>
    simp only [Converts, Classical.not_imp] at fails
    obtain ⟨noRange, rfl, noIlike, noLike, digits, fails⟩ := fails
    rw [Option.not_isSome_iff_eq_none] at fails
    refine ⟨.valueError, ?_, fun _ same => by cases same⟩
    simp only [handleSingleValue, if_neg noRange, noIlike, noLike, ne_eq, not_false_eq_true,
      decide_true, Bool.and_self, if_true, castToNum, if_pos digits, fails]
    rfl

def handled (backend : Backend N T) (type : GenericDataType) (op : FilterOperator)
    (value : Value N) : Option (Literal N) :=
  if op = .temporalRange then
    match value with
    | .null => none
    | .bool b => some (.bool b)
    | .number n => some (.number n)
    | .text s => some (.text s)
  else heard backend type op value

theorem handleSingleValue_of_converts (converts : Converts backend type op value) :
    handleSingleValue backend op type value = .ok (handled backend type op value) := by
  by_cases range : op = .temporalRange
  · subst range
    cases value <;> rfl
  · unfold handled
    rw [if_neg range, handleSingleValue_eq value range converts]

theorem handleSingleValues_of_converts (values : List (Value N))
    (converts : ∀ v ∈ values, Converts backend type op v) :
    values.mapM (handleSingleValue backend op type) = .ok (values.map (handled backend type op)) :=
  Fallible.mapM_ok values fun v member => handleSingleValue_of_converts (converts v member)

theorem handleSingleValues_error (values : List (Value N))
    (fails : ¬ ∀ v ∈ values, Converts backend type op v) :
    ∃ e, values.mapM (handleSingleValue backend op type) = .error e ∧ Escapes e := by
  have escapes : ∀ v e, handleSingleValue backend op type v = .error e → Escapes e := by
    intro v e raised
    by_cases converts : Converts backend type op v
    · rw [handleSingleValue_of_converts converts] at raised
      cases raised
    · obtain ⟨e', raised', escapes⟩ := handleSingleValue_error converts
      cases raised.symm.trans raised'
      exact escapes
  refine Fallible.mapM_error values (fun succeeds => fails fun v member => ?_) fun v _ => escapes v
  by_contra converts
  obtain ⟨b, succeeded⟩ := succeeds v member
  obtain ⟨e, raised, -⟩ := handleSingleValue_error converts
  cases succeeded.symm.trans raised

def compared (backend : Backend N T) (type : GenericDataType) (op : FilterOperator)
    (values : Values N) : Option (Literal N) :=
  (values.first.map (handled backend type op)).join

theorem handled_null (op : FilterOperator) : handled backend type op .null = none := by
  unfold handled
  split <;> rfl

theorem filterValuesHandler_one (values : Values N)
    (converts : ∀ v ∈ values.items, Converts backend type op v) :
    filterValuesHandler backend op type false values =
      .ok (.one (compared backend type op values)) := by
  cases values with
  | single v =>
    have first := converts v (mem_singleton_self v)
    cases v with
    | null =>
      rw [filterValuesHandler, compared]
      exact congrArg (fun x => Except.ok (Handled.one x)) (handled_null op).symm
    | bool | number | text =>
      rw [filterValuesHandler, handleSingleValue_of_converts first]
      · rfl
      · nofun
  | many vs =>
    rw [filterValuesHandler, handleSingleValues_of_converts vs converts]
    show Except.ok (Handled.one _) = _
    rw [compared, Values.first, Values.items, head?_map]

theorem filterValuesHandler_list (values : Values N) (given : values ≠ .single .null)
    (converts : ∀ v ∈ values.items, Converts backend type op v) :
    filterValuesHandler backend op type true values =
      .ok (.list (values.items.map (handled backend type op))) := by
  cases values with
  | single v =>
    rw [filterValuesHandler, handleSingleValue_of_converts (converts v (mem_singleton_self v))]
    · rfl
    · rintro rfl
      exact given rfl
  | many vs =>
    rw [filterValuesHandler, handleSingleValues_of_converts vs converts]
    rfl

theorem filterValuesHandler_error (isListTarget : Bool) (values : Values N)
    (fails : ¬ ∀ v ∈ values.items, Converts backend type op v) :
    ∃ e, filterValuesHandler backend op type isListTarget values = .error e ∧ Escapes e := by
  cases values with
  | single v =>
    obtain ⟨e, raised, escapes⟩ := handleSingleValue_error 
      fun first => fails (by simpa [Values.items] using first)
    refine ⟨e, ?_, escapes⟩
    rw [filterValuesHandler, raised]
    · rfl
    · rintro rfl
      exact fails (by simp [Values.items, Converts])
  | many vs =>
    obtain ⟨e, raised, escapes⟩ := handleSingleValues_error vs fails
    exact ⟨e, by rw [filterValuesHandler, raised]; rfl, escapes⟩

/-! ## One filter -/

variable [LinearOrder T] {isColumn : Bool} {values : Values N}

theorem not_faithful {e : FilterError}
    (raised : translateFilter backend type isColumn op values = .error e) (escapes : Escapes e) :
    ¬ Faithful backend type isColumn op values := by
  unfold Faithful
  rw [raised]
  cases e with
  | queryObjectValidationError message => exact absurd rfl (escapes message)
  | valueError | overflowError | argumentError | assertionError => exact id

theorem faithful_of_validation {message : String}
    (raised : translateFilter backend type isColumn op values =
      .error (.queryObjectValidationError message)) :
    Faithful backend type isColumn op values := by
  unfold Faithful
  rw [raised]
  trivial

theorem faithful_of_ok {condition : Condition N}
    (built : translateFilter backend type isColumn op values = .ok condition) :
    Faithful backend type isColumn op values ↔ condition.Runs backend type ∧
      ∀ cell, condition.eval backend type cell = some true ↔ Holds backend type values cell op := by
  unfold Faithful
  rw [built]

theorem converts_of_faithful (faithful : Faithful backend type isColumn op values) :
    ∀ v ∈ values.items, Converts backend type op v := by
  by_contra fails
  obtain ⟨e, raised, escapes⟩ := filterValuesHandler_error (op = .isIn || op = .notIn) values fails
  refine not_faithful (e := e) ?_ escapes faithful
  rw [translateFilter, raised]
  rfl

def Scalar (op : FilterOperator) : Prop :=
  op ∉ [.isIn, .notIn, .isNull, .isNotNull, .isTrue, .isFalse]

omit [LinearOrder T] in
theorem translateFilter_scalar (isColumn : Bool) (scalar : Scalar op)
    (converts : ∀ v ∈ values.items, Converts backend type op v) :
    translateFilter backend type isColumn op values =
      scalarCondition backend isColumn op (compared backend type op values) := by
  have oneValue : (decide (op = .isIn) || decide (op = .notIn)) = false := by
    simp only [Scalar, mem_cons, not_or] at scalar
    simp [scalar]
  rw [translateFilter, oneValue, filterValuesHandler_one values converts]
  cases op <;> first | rfl | exact absurd scalar (by simp [Scalar])

theorem evalCompare_eq_true (op : Comparison) (literal : Literal N)
    (cell : Option (Carrier N T type)) :
    evalCompare backend type op literal cell = some true ↔
      ∃ c v, cell = some c ∧ backend.reads type literal = some v ∧ op.holds c v = true := by
  unfold evalCompare
  cases cell with
  | none => simp
  | some c => cases backend.reads type literal <;> simp

omit [LinearOrder T] in
theorem heard_eq (noPattern : op ≠ .ilike ∧ op ≠ .like)
    (untouched : Untouched type value) :
    heard backend type op value = (intended backend type value).toOption := by
  cases value with
  | null | bool | number => rfl
  | text s =>
    have sameType : textType type op = type := if_neg (by simp [noPattern])
    rw [heard, intended, sameType]
    by_cases string : type = .string
    · rw [if_pos string, untouched string]
    · rw [if_neg string]

omit [LinearOrder T] in
theorem touched (backend : Backend N T) (op : FilterOperator)
    (stripped' : ¬ Untouched type value) : type = .string ∧ ∃ s, value = .text s ∧
      intended backend type value = .value (.text s) ∧
      (stripped s = NULL_STRING ∧ heard backend type op value = none ∨
        stripped s ≠ NULL_STRING ∧ ∃ u, u ≠ s ∧ heard backend type op value = some (.text u)) := by
  cases value with
  | null | bool | number => exact absurd trivial stripped'
  | text s =>
    simp only [Untouched, Classical.not_imp] at stripped'
    obtain ⟨rfl, changed⟩ := stripped'
    have notWord : s ∉ ["", NULL_STRING, EMPTY_STRING] := by
      intro word
      simp only [mem_cons, not_mem_nil, or_false] at word
      rcases word with rfl | rfl | rfl <;> exact changed (by decide)
    simp only [mem_cons, not_mem_nil, or_false, not_or] at notWord
    obtain ⟨notEmpty, notNull, notPlaceholder⟩ := notWord
    refine ⟨rfl, s, rfl, ?_, ?_⟩
    · simp [intended, intendedText, notNull, plain, notPlaceholder]
    · have sameType : textType .string op = .string := if_neg (by simp)
      rw [heard, sameType, intendedText_of_ne (by nofun)]
      by_cases null : stripped s = NULL_STRING
      · exact .inl ⟨null, if_pos null⟩
      · rw [if_neg null]
        by_cases empty : stripped s = EMPTY_STRING
        · exact .inr ⟨null, "", Ne.symm notEmpty, if_pos empty⟩
        · exact .inr ⟨null, stripped s, changed, by rw [if_neg empty]; rfl⟩

theorem exists_holds_ne {α : Type} [LinearOrder α] (op : Comparison) {a b : α} (other : a ≠ b) :
    ∃ c, op.holds c a ≠ op.holds c b := by
  rcases lt_or_gt_of_ne other with below | above
  · cases op with
    | eq | ne | gt | le => exact ⟨b, by simp [Comparison.holds, other.symm, below, below.not_ge]⟩
    | lt | ge => exact ⟨a, by simp [Comparison.holds, below, below.not_ge]⟩
  · cases op with
    | eq | ne | gt | le => exact ⟨a, by simp [Comparison.holds, other, above, above.not_ge]⟩
    | lt | ge => exact ⟨b, by simp [Comparison.holds, above, above.not_ge]⟩

variable {v : Value N}

omit [LinearOrder T] in
theorem compared_of_first (noRange : op ≠ .temporalRange)
    (first : values.first = some v) :
    compared backend type op values = heard backend type op v := by
  rw [compared, first]
  exact if_neg noRange

omit [LinearOrder T] in
theorem compared_of_empty (op : FilterOperator) (empty : values.first = none) :
    compared backend type op values = none := by
  rw [compared, empty]
  rfl

variable {literal : Literal N}

omit [LinearOrder N] in
theorem compareWith_of_ne_bool {op : Comparison} (noBool : ∀ b, literal ≠ .bool b) :
    compareWith op literal = .ok (.compare op literal) := by
  cases literal with
  | bool b => exact absurd rfl (noBool b)
  | number | text | sql => rfl

omit [LinearOrder T] in
theorem meaning_of_value (means : intended backend type v = .value literal) :
    meaning backend type v = .ofOption (backend.reads type literal) := by
  rw [meaning, means]
  rfl

omit [LinearOrder T] in
theorem meaning_of_read {c : Carrier N T type}
    (means : intended backend type v = .value literal)
    (read : backend.reads type literal = some c) :
    meaning backend type v = .value c := by
  rw [meaning_of_value means, read]
  rfl

omit [LinearOrder T] in
theorem readable_of_value (means : intended backend type v = .value literal)
    (read : (backend.reads type literal).isSome) : Readable backend type v := by
  intro other same
  cases means.symm.trans same
  exact read

omit [LinearOrder T] in
theorem readable_string {backend : Backend N T} {s : String}
    (means : intended backend .string v = .value (.text s)) : Readable backend .string v :=
  readable_of_value means (by rw [backend.reads_text]; rfl)

omit [LinearOrder N] in
theorem compareWith_text (op : Comparison) (s : String) :
    compareWith (N := N) op (.text s) = .ok (.compare op (.text s)) := rfl

theorem evalCompare_text {op : Comparison} {u c : String} :
    evalCompare backend .string op (.text u) (some c) = some true ↔
    op.holds (α := String) c u = true := by
  rw [evalCompare_eq_true]
  constructor
  · rintro ⟨c', v, same, read, holds⟩
    rw [backend.reads_text] at read
    cases same
    cases read
    exact holds
  · exact fun holds => ⟨c, u, rfl, backend.reads_text u, holds⟩

omit [LinearOrder T] in
theorem meaning_text {s : String} (means : intended backend .string v = .value (.text s)) :
    meaning backend .string v = .value s := meaning_of_read means (backend.reads_text s)

omit [LinearOrder N] [LinearOrder T] in
theorem scalarCondition_order {cmp : Comparison} (isCmp : comparison op = some cmp)
    (order : cmp ≠ .eq ∧ cmp ≠ .ne) (literal : Literal N) :
    scalarCondition backend isColumn op (some literal) = compareWith cmp literal ∧
      ∃ message, scalarCondition backend isColumn op none =
        .error (.queryObjectValidationError message) := by
  cases op <;> try cases isCmp
  all_goals first | exact absurd rfl order.1 | exact absurd rfl order.2 | exact ⟨rfl, _, rfl⟩

omit [LinearOrder N] in
theorem firstMeans_iff {α : Type} {of : Value N → Meaning α} {holds : Meaning α → Prop}
    (first : values.first = some v) : FirstMeans of values holds ↔ holds (of v) := by
  simp [FirstMeans, first]

/-- `>`, `<`, `>=` and `<=`. -/
theorem faithful_order_iff {cmp : Comparison} (isCmp : comparison op = some cmp)
    (order : cmp ≠ .eq ∧ cmp ≠ .ne) (converts : ∀ v ∈ values.items, Converts backend type op v)
    (holds : ∀ cell, Holds backend type values cell op ↔
      FirstMeans (meaning backend type) values fun m =>
      ∃ c v, cell = some c ∧ m = .value v ∧ cmp.holds c v = true) :
    Faithful backend type isColumn op values ↔ ∀ v ∈ values.first, Comparable backend type v := by
  have noRange : op ≠ .temporalRange := by rintro rfl; cases isCmp
  have noPattern : op ≠ .ilike ∧ op ≠ .like := by constructor <;> (rintro rfl; cases isCmp)
  have scalar : Scalar op := by cases op <;> first | (cases isCmp; done) | simp [Scalar]
  have translated := translateFilter_scalar isColumn scalar converts
  obtain ⟨message, refused⟩ : ∃ message, scalarCondition backend isColumn op none =
      .error (.queryObjectValidationError message) :=
    (scalarCondition_order isCmp order (.bool true)).2
  cases first : values.first with
  | none =>
    rw [compared_of_empty op first, refused] at translated
    exact iff_of_true (faithful_of_validation translated) nofun
  | some v =>
    rw [compared_of_first noRange first] at translated
    simp only [Option.mem_def, Option.some.injEq, forall_eq']
    by_cases kept : Untouched type v
    · rw [heard_eq noPattern kept] at translated
      cases means : intended backend type v with
      | null | nothing =>
        simp only [means, toOption_null, toOption_nothing, refused] at translated
        exact iff_of_true (faithful_of_validation translated)
          ⟨by simp [means], .inl kept, by simp [Readable, means]⟩
      | value literal =>
        rw [means, toOption_value, (scalarCondition_order isCmp order literal).1] at translated
        by_cases isBool : ∃ b, literal = .bool b
        · obtain ⟨b, rfl⟩ := isBool
          rw [compareWith, if_neg (by simp [order])] at translated
          refine iff_of_false (not_faithful translated nofun) fun comparable => ?_
          exact comparable.1 b means
        · rw [not_exists] at isBool
          rw [compareWith_of_ne_bool isBool] at translated
          rw [faithful_of_ok translated]
          constructor
          · rintro ⟨runs, -⟩
            exact ⟨by simpa [means] using isBool, .inl kept, readable_of_value means runs⟩
          · rintro ⟨-, -, readable⟩
            obtain ⟨bound, read⟩ := Option.isSome_iff_exists.mp (readable literal means)
            refine ⟨readable literal means, fun cell => ?_⟩
            rw [holds, firstMeans_iff first, meaning_of_read means read, Condition.eval,
              evalCompare_eq_true]
            simp [read]
    · obtain ⟨rfl, s, rfl, means, ⟨null, isNone⟩ | ⟨notNull, u, other, isText⟩⟩ :=
        touched backend op kept
      · rw [isNone, refused] at translated
        exact iff_of_true (faithful_of_validation translated)
          ⟨by simp [means], .inr ⟨s, rfl, null⟩, readable_string means⟩
      · rw [isText, (scalarCondition_order isCmp order _).1, compareWith_text] at translated
        refine iff_of_false ?_ ?_
        · rw [faithful_of_ok translated]
          rintro ⟨-, exact_⟩
          obtain ⟨c, differ⟩ := exists_holds_ne (α := String) cmp other
          have atCell := exact_ (some c)
          rw [holds, firstMeans_iff first, meaning_text means, Condition.eval,
            evalCompare_text] at atCell
          refine differ (Bool.eq_iff_iff.mpr (atCell.trans ?_))
          constructor
          · rintro ⟨c', v, same, same', held⟩
            cases same
            cases same'
            exact held
          · exact fun held => ⟨c, s, rfl, rfl, held⟩
        · rintro ⟨-, kept' | ⟨s', same, null⟩, -⟩
          · exact kept kept'
          · cases same
            exact notNull null

omit [LinearOrder N] [LinearOrder T] in
/-- `==` on a value: the handler's `None` is a null, whatever it came from. -/
theorem scalarCondition_equals (literal : Option (Literal N)) :
    scalarCondition backend isColumn .equals literal =
      .ok (match literal with | none => .isNull | some l => .compare .eq l) := by
  cases literal with
  | none => rfl
  | some l => cases l <;> rfl

omit [LinearOrder N] [LinearOrder T] in
theorem scalarCondition_notEquals (literal : Option (Literal N)) :
    scalarCondition backend isColumn .notEquals literal =
      .ok (match literal with | none => .isNotNull | some l => .compare .ne l) := by
  cases literal with
  | none => rfl
  | some l => cases l <;> rfl

theorem evalEq_iff {a : Carrier N T type} (read : backend.reads type literal = some a)
    (cell : Option (Carrier N T type)) : evalCompare backend type .eq literal cell = some true ↔
    cell = some a := by
  rw [evalCompare_eq_true]
  simp [read, Comparison.holds]

theorem evalNe_iff {a : Carrier N T type} (read : backend.reads type literal = some a)
    (cell : Option (Carrier N T type)) :
    evalCompare backend type .ne literal cell = some true ↔ cell ≠ none ∧ cell ≠ some a := by
  rw [evalCompare_eq_true]
  cases cell <;> simp [read, Comparison.holds]

theorem faithful_equals_iff (converts : ∀ v ∈ values.items, Converts backend type .equals v) :
    Faithful backend type isColumn .equals values ↔ ∃ v ∈ values.first, Untouched type v ∧
      Readable backend type v ∧ intended backend type v ≠ .nothing := by
  have translated := translateFilter_scalar isColumn (by simp [Scalar]) converts
  rw [scalarCondition_equals] at translated
  rw [faithful_of_ok translated]
  cases first : values.first with
  | none =>
    rw [compared_of_empty _ first]
    refine iff_of_false ?_ (by simp)
    rintro ⟨-, exact_⟩
    have atNull := exact_ none
    simp [Condition.eval, Holds, FirstMeans, first] at atNull
  | some v =>
    rw [compared_of_first (by decide) first]
    simp only [Option.mem_def, Option.some.injEq, exists_eq_left']
    by_cases kept : Untouched type v
    · rw [heard_eq (by simp) kept]
      cases means : intended backend type v with
      | null =>
        refine iff_of_true ⟨trivial, fun cell => ?_⟩ ⟨kept, by simp [Readable, means], nofun⟩
        simp [Condition.eval, Holds, firstMeans_iff first, meaning, means, Meaning.bind, equalsTo]
      | nothing =>
        refine iff_of_false ?_ (by simp)
        rintro ⟨-, exact_⟩
        have atNull := exact_ none
        simp [Condition.eval, Holds, firstMeans_iff first, meaning, means, Meaning.bind,
          equalsTo] at atNull
      | value literal =>
        constructor
        · exact fun faithful => ⟨kept, readable_of_value means faithful.1, nofun⟩
        · rintro ⟨-, readable, -⟩
          obtain ⟨a, read⟩ := Option.isSome_iff_exists.mp (readable literal means)
          refine ⟨readable literal means, fun cell => ?_⟩
          rw [Holds, firstMeans_iff first, meaning_of_read means read]
          exact evalEq_iff read cell
    · obtain ⟨rfl, s, rfl, means, heard_⟩ := touched backend .equals kept
      refine iff_of_false ?_ fun sound => kept sound.1
      rintro ⟨-, exact_⟩
      have atCell := (exact_ (some s)).mpr
      rw [Holds, firstMeans_iff first, meaning_text means] at atCell
      rcases heard_ with ⟨-, isNone⟩ | ⟨-, u, other, isText⟩
      · rw [isNone] at atCell
        cases atCell rfl
      · rw [isText] at atCell
        have same := (evalEq_iff (backend.reads_text u) _).mp (atCell rfl)
        exact other (Option.some.inj same).symm

theorem faithful_notEquals_iff (converts : ∀ v ∈ values.items, Converts backend type .notEquals v) :
    Faithful backend type isColumn .notEquals values ↔
    ∀ v ∈ values.first, Untouched type v ∧ Readable backend type v := by
  have translated := translateFilter_scalar isColumn (by simp [Scalar]) converts
  rw [scalarCondition_notEquals] at translated
  rw [faithful_of_ok translated]
  cases first : values.first with
  | none =>
    rw [compared_of_empty _ first]
    refine iff_of_true ⟨trivial, fun cell => ?_⟩ nofun
    cases cell <;> simp [Condition.eval, Holds, FirstMeans, first]
  | some v =>
    rw [compared_of_first (by decide) first]
    simp only [Option.mem_def, Option.some.injEq, forall_eq']
    by_cases kept : Untouched type v
    · rw [heard_eq (by simp) kept]
      cases means : intended backend type v with
      | null | nothing =>
        refine iff_of_true ⟨trivial, fun cell => ?_⟩ ⟨kept, by simp [Readable, means]⟩
        cases cell <;>
          simp [Condition.eval, Holds, firstMeans_iff first, meaning, means, Meaning.bind, equalsTo]
      | value literal =>
        constructor
        · exact fun faithful => ⟨kept, readable_of_value means faithful.1⟩
        · rintro ⟨-, readable⟩
          obtain ⟨a, read⟩ := Option.isSome_iff_exists.mp (readable literal means)
          refine ⟨readable literal means, fun cell => ?_⟩
          rw [Holds, firstMeans_iff first, meaning_of_read means read]
          exact evalNe_iff read cell
    · obtain ⟨rfl, s, rfl, means, heard_⟩ := touched backend .notEquals kept
      refine iff_of_false ?_ fun sound => kept sound.1
      rintro ⟨-, exact_⟩
      have atCell := (exact_ (some s)).mp
      rw [Holds, firstMeans_iff first, meaning_text means] at atCell
      rcases heard_ with ⟨-, isNone⟩ | ⟨-, u, other, isText⟩
      · rw [isNone] at atCell
        exact (atCell rfl).2 rfl
      · rw [isText] at atCell
        refine (atCell ((evalNe_iff (backend.reads_text u) _).mpr ⟨nofun, ?_⟩)).2 rfl
        exact fun same => other (Option.some.inj same).symm

/-! ## Lists of values -/

def Matches (backend : Backend N T) (type : GenericDataType) (cell : Option (Carrier N T type)) :
    Option (Literal N) → Prop
  | none => cell = none
  | some literal => ∃ a, backend.reads type literal = some a ∧ cell = some a

variable {eq : List (Option (Literal N))}

omit [LinearOrder N] in
theorem mem_reduceOption_length :
    eq.length > eq.reduceOption.length ↔ none ∈ eq := reduceOption_length_lt_iff

omit [LinearOrder N] [LinearOrder T] in
theorem listCondition_runs (op : FilterOperator) (eq : List (Option (Literal N))) :
    (listCondition op eq).Runs backend type ↔
    ∀ literal, some literal ∈ eq → (backend.reads type literal).isSome := by
  have members : (∀ literal ∈ eq.reduceOption, (backend.reads type literal).isSome) ↔
      ∀ literal, some literal ∈ eq → (backend.reads type literal).isSome := by
    simp [reduceOption_mem_iff]
  rw [← members]
  unfold listCondition
  by_cases null : eq.length > eq.reduceOption.length <;> by_cases negated : op = .notIn <;>
    simp [null, negated, Condition.Runs]

theorem eval_isIn_true (eq : List (Option (Literal N))) (cell : Option (Carrier N T type)) :
    (listCondition .isIn eq).eval backend type cell = some true ↔
    ∃ x ∈ eq, Matches backend type cell x := by
  have listed : (Condition.isIn eq.reduceOption).eval backend type cell = some true ↔
      ∃ literal, some literal ∈ eq ∧ Matches backend type cell (some literal) := by
    rw [Condition.eval, any3_eq_true, mem_map]
    refine exists_congr fun literal => ?_
    rw [reduceOption_mem_iff, evalCompare_eq_true]
    refine and_congr_right fun _ => ?_
    constructor
    · rintro ⟨c, v, rfl, read, same⟩
      simp only [Comparison.holds, decide_eq_true_eq] at same
      exact ⟨v, read, congrArg some same⟩
    · rintro ⟨a, read, rfl⟩
      exact ⟨a, a, rfl, read, by simp [Comparison.holds]⟩
  unfold listCondition
  rw [if_neg (by decide)]
  by_cases null : eq.length > eq.reduceOption.length
  · rw [if_pos null, Condition.eval, or3_eq_true, listed]
    rw [mem_reduceOption_length] at null
    constructor
    · rintro (isNull | ⟨literal, member, same⟩)
      · exact ⟨none, null, by simpa [Condition.eval, Matches] using isNull⟩
      · exact ⟨_, member, same⟩
    · rintro ⟨x, member, same⟩
      cases x with
      | none => exact .inl (by simpa [Condition.eval, Matches] using same)
      | some literal => exact .inr ⟨literal, member, same⟩
  · rw [if_neg null, listed]
    rw [mem_reduceOption_length] at null
    constructor
    · rintro ⟨literal, member, same⟩
      exact ⟨_, member, same⟩
    · rintro ⟨x, member, same⟩
      cases x with
      | none => exact absurd member null
      | some literal => exact ⟨literal, member, same⟩

/-- `NOT IN` on a cell that is not null: every equality is false. -/
theorem eval_notIn_some (c : Carrier N T type)
    (runs : ∀ literal, some literal ∈ eq → (backend.reads type literal).isSome) :
    (listCondition .notIn eq).eval backend type (some c) = some true ↔
    ¬ ∃ x ∈ eq, Matches backend type (some c) x := by
  have listed : (Condition.isIn eq.reduceOption).eval backend type (some c) = some false ↔
      ¬ ∃ x ∈ eq, Matches backend type (some c) x := by
    rw [Condition.eval, any3_eq_false]
    simp only [mem_map, reduceOption_mem_iff, forall_exists_index, and_imp, not_exists, not_and]
    constructor
    · intro unequal x member same
      cases x with
      | none => cases same
      | some literal =>
        obtain ⟨a, read, same⟩ := same
        cases same
        have false_ := unequal _ literal member rfl
        simp [evalCompare, read, Comparison.holds] at false_
    · rintro unequal _ literal member rfl
      obtain ⟨a, read⟩ := Option.isSome_iff_exists.mp (runs literal member)
      have other : c ≠ a := fun same => unequal _ member ⟨a, read, congrArg some same⟩
      simp [evalCompare, read, Comparison.holds, other]
  have notTrue : ∀ b : Option Bool, not3 b = some true ↔ b = some false := by
    intro b
    rcases b with _ | _ | _ <;> simp [not3]
  unfold listCondition
  rw [if_pos rfl]
  simp only [Condition.eval] at listed ⊢
  rw [notTrue]
  by_cases null : eq.length > eq.reduceOption.length
  · rw [if_pos null, Condition.eval, or3_eq_false]
    simpa [Condition.eval] using listed
  · rw [if_neg null]
    exact listed

theorem eval_notIn_none (nonempty : eq ≠ []) :
    (listCondition .notIn eq).eval backend type none ≠ some true := by
  have unknown : ∀ literals : List (Literal N), literals ≠ [] →
      any3 (literals.map fun value => evalCompare backend type .eq value none) ≠ some false := by
    intro literals some_ allFalse
    obtain ⟨literal, rest, rfl⟩ := exists_cons_of_ne_nil some_
    have false_ := (any3_eq_false _).mp allFalse _ (mem_map_of_mem mem_cons_self)
    cases false_
  unfold listCondition
  rw [if_pos rfl, Condition.eval]
  by_cases null : eq.length > eq.reduceOption.length
  · rw [if_pos null]
    simp [Condition.eval, or3, not3]
  · rw [if_neg null]
    intro isTrue
    refine unknown eq.reduceOption ?_ ?_
    · rw [mem_reduceOption_length] at null
      obtain ⟨x, rest, rfl⟩ := exists_cons_of_ne_nil nonempty
      cases x with
      | none => exact absurd mem_cons_self null
      | some literal => simp [reduceOption_cons_of_some]
    · rw [Condition.eval] at isTrue
      generalize any3 _ = b at isTrue ⊢
      rcases b with _ | _ | _ <;> first | rfl | cases isTrue

omit [LinearOrder T] in
theorem matches_iff (noPattern : op ≠ .ilike ∧ op ≠ .like) (kept : Untouched type v)
    (cell : Option (Carrier N T type)) :
    Matches backend type cell (heard backend type op v) ↔
      equalsTo cell (meaning backend type v) ∨ cell = none ∧
      intended backend type v = .nothing := by
  rw [heard_eq noPattern kept, meaning]
  cases means : intended backend type v with
  | null => simp [Matches, Meaning.bind, equalsTo]
  | nothing => simp [Matches, Meaning.bind, equalsTo]
  | value literal =>
    simp only [toOption_value, Matches, Meaning.bind]
    cases read : backend.reads type literal <;> simp [Meaning.ofOption, equalsTo]

omit [LinearOrder T] in
theorem not_matches_touched (op : FilterOperator) {s : String} (changed : stripped s ≠ s)
    (v : Value N) :
    ¬ Matches backend .string (some s) (heard backend .string op v) := by
  have otherLiteral : ∀ literal : Literal N, (∀ t, literal ≠ .text t) →
      ¬ Matches backend .string (some s) (some literal) := by
    rintro literal noText ⟨a, read, same⟩
    cases same
    rcases backend.reads_other literal s read with ⟨t, isText⟩ | unchanged
    · exact noText t isText
    · exact changed unchanged
  have textLiteral : ∀ t : String,
      stripped t = t → ¬ Matches backend .string (some s) (some (.text t)) := by
    rintro t unchanged ⟨a, read, same⟩
    rw [backend.reads_text] at read
    cases read
    cases Option.some.inj same
    exact changed unchanged
  cases v with
  | null => nofun
  | bool b => exact otherLiteral (.bool b) nofun
  | number n => exact otherLiteral (.number n) nofun
  | text t =>
    have sameType : textType .string op = .string := if_neg (by simp)
    rw [heard, sameType, intendedText_of_ne (by nofun)]
    by_cases null : stripped t = NULL_STRING
    · rw [if_pos null]
      nofun
    · rw [if_neg null]
      by_cases empty : stripped t = EMPTY_STRING
      · rw [if_pos empty]
        exact textLiteral "" (by decide)
      · rw [if_neg empty]
        exact textLiteral (stripped t) (PyText.strip_strip _ t)

omit [LinearOrder T] in
theorem translateFilter_list (list : op = .isIn ∨ op = .notIn)
    (converts : ∀ v ∈ values.items, Converts backend type op v) (isColumn : Bool) :
    (values = .single .null → translateFilter backend type isColumn op values =
      .error .assertionError) ∧
    (values.items = [] → ∃ message, translateFilter backend type isColumn op values =
      .error (.queryObjectValidationError message)) ∧
    (values ≠ .single .null → values.items ≠ [] → translateFilter backend type isColumn op values =
      .ok (listCondition op (values.items.map (heard backend type op)))) := by
  have isList : (decide (op = .isIn) || decide (op = .notIn)) = true := by simpa using list
  have noRange : op ≠ .temporalRange := by rcases list with rfl | rfl <;> nofun
  have sameHandled :
    values.items.map (handled backend type op) = values.items.map (heard backend type op) :=
    map_congr_left fun v _ => if_neg noRange
  refine ⟨?_, fun empty => ?_, fun given nonempty => ?_⟩
  · rintro rfl
    rw [translateFilter, isList]
    rfl
  · have given : values ≠ .single .null := by
      rintro rfl
      cases empty
    rw [translateFilter, isList, filterValuesHandler_list values given converts, empty]
    exact ⟨_, rfl⟩
  · rw [translateFilter, isList, filterValuesHandler_list values given converts, sameHandled]
    obtain ⟨v, rest, items⟩ := exists_cons_of_ne_nil nonempty
    rw [items]
    rfl

theorem untouched_of_exact (list : op = .isIn ∨ op = .notIn)
    (faithful : (listCondition op (values.items.map (heard backend type op))).Runs backend type ∧
      ∀ cell, (listCondition op (values.items.map (heard backend type op))).eval backend type cell =
        some true ↔
        Holds backend type values cell op) : ∀ v ∈ values.items, Untouched type v := by
  intro v member
  by_contra changed
  obtain ⟨runs, exact_⟩ := faithful
  rw [listCondition_runs] at runs
  obtain ⟨rfl, s, rfl, means, -⟩ := touched backend op changed
  have changed' : stripped s ≠ s := fun unchanged => changed fun _ => unchanged
  have inList : ∃ w ∈ values.items, equalsTo (some s) (meaning backend .string w) :=
    ⟨_, member, by rw [meaning_text means]; rfl⟩
  have noMatch : ¬ ∃ x ∈ values.items.map (heard backend .string op),
      Matches backend .string (some s) x := by
    rintro ⟨x, mapped, same⟩
    obtain ⟨w, -, rfl⟩ := mem_map.mp mapped
    exact not_matches_touched op changed' w same
  rcases list with rfl | rfl
  · exact noMatch ((eval_isIn_true _ _).mp ((exact_ (some s)).mpr inList))
  · have evaluated := (eval_notIn_some _ runs).mpr noMatch
    exact ((exact_ (some s)).mp evaluated).2 inList

omit [LinearOrder T] in
theorem runs_iff_readable (noPattern : op ≠ .ilike ∧ op ≠ .like)
    (kept : ∀ v ∈ values.items, Untouched type v) :
    (listCondition op (values.items.map (heard backend type op))).Runs backend type ↔
      ∀ v ∈ values.items, Readable backend type v := by
  rw [listCondition_runs]
  constructor
  · intro runs v member literal means
    refine runs literal (mem_map.mpr ⟨v, member, ?_⟩)
    rw [heard_eq noPattern (kept v member), means, toOption_value]
  · intro readable literal mapped
    obtain ⟨v, member, isLiteral⟩ := mem_map.mp mapped
    rw [heard_eq noPattern (kept v member)] at isLiteral
    refine readable v member literal ?_
    cases means : intended backend type v with
    | null | nothing => simp [means] at isLiteral
    | value l =>
      rw [means, toOption_value] at isLiteral
      rw [Option.some.inj isLiteral]

omit [LinearOrder T] in
theorem exists_matches_iff (noPattern : op ≠ .ilike ∧ op ≠ .like)
    (kept : ∀ v ∈ values.items, Untouched type v) (cell : Option (Carrier N T type)) :
    (∃ x ∈ values.items.map (heard backend type op), Matches backend type cell x) ↔
      (∃ v ∈ values.items, equalsTo cell (meaning backend type v)) ∨
        cell = none ∧ ∃ v ∈ values.items, intended backend type v = .nothing := by
  constructor
  · rintro ⟨x, mapped, same⟩
    obtain ⟨v, member, rfl⟩ := mem_map.mp mapped
    rcases (matches_iff noPattern (kept v member) cell).mp same with equal | ⟨null, nothing⟩
    · exact .inl ⟨v, member, equal⟩
    · exact .inr ⟨null, v, member, nothing⟩
  · rintro (⟨v, member, equal⟩ | ⟨null, v, member, nothing⟩)
    · exact ⟨_, mem_map_of_mem member,
        (matches_iff noPattern (kept v member) cell).mpr (.inl equal)⟩
    · exact ⟨_, mem_map_of_mem member,
        (matches_iff noPattern (kept v member) cell).mpr (.inr ⟨null, nothing⟩)⟩

omit [LinearOrder T] in
theorem equalsTo_none_iff (v : Value N) :
    equalsTo none (meaning backend type v) ↔ intended backend type v = .null := by
  unfold meaning
  cases intended backend type v with
  | null | nothing => simp [Meaning.bind, equalsTo]
  | value literal =>
    simp only [Meaning.bind]
    cases backend.reads type literal <;> simp [Meaning.ofOption, equalsTo]

theorem faithful_isIn_iff (converts : ∀ v ∈ values.items, Converts backend type .isIn v) :
    Faithful backend type isColumn .isIn values ↔
      values ≠ .single .null ∧ (∀ v ∈ values.items, Untouched type v ∧ Readable backend type v) ∧
        ((∃ v ∈ values.items, intended backend type v = .nothing) →
          ∃ v ∈ values.items, intended backend type v = .null) := by
  obtain ⟨refused, emptyList, built⟩ := translateFilter_list (.inl rfl) converts isColumn
  by_cases given : values = .single .null
  · exact iff_of_false (not_faithful (refused given) nofun) fun sound => sound.1 given
  by_cases nonempty : values.items = []
  · obtain ⟨message, translated⟩ := emptyList nonempty
    exact iff_of_true (faithful_of_validation translated)
      ⟨given, by simp [nonempty], by simp [nonempty]⟩
  rw [faithful_of_ok (built given nonempty)]
  have truth : ∀ cell, (∀ v ∈ values.items, Untouched type v) →
      ((listCondition .isIn (values.items.map (heard backend type .isIn))).eval backend type cell =
        some true ↔
        (∃ v ∈ values.items, equalsTo cell (meaning backend type v)) ∨
          cell = none ∧ ∃ v ∈ values.items, intended backend type v = .nothing) := by
    intro cell kept
    rw [eval_isIn_true, exists_matches_iff (by decide) kept]
  constructor
  · intro faithful
    have kept := untouched_of_exact (.inl rfl) faithful
    refine ⟨given, fun v member => ⟨kept v member, ?_⟩, fun nothing => ?_⟩
    · exact (runs_iff_readable (by decide) kept).mp faithful.1 v member
    · obtain ⟨v, member, equal⟩ :=
        (faithful.2 none).mp ((truth none kept).mpr (.inr ⟨rfl, nothing⟩))
      exact ⟨v, member, (equalsTo_none_iff v).mp equal⟩
  · rintro ⟨-, each, null⟩
    have kept := fun v member => (each v member).1
    refine ⟨(runs_iff_readable (by decide) kept).mpr fun v member => (each v member).2,
      fun cell => ?_⟩
    rw [truth cell kept, Holds]
    refine ⟨?_, .inl⟩
    rintro (equal | ⟨rfl, nothing⟩)
    · exact equal
    · obtain ⟨v, member, isNull⟩ := null nothing
      exact ⟨v, member, (equalsTo_none_iff v).mpr isNull⟩

theorem faithful_notIn_iff (converts : ∀ v ∈ values.items, Converts backend type .notIn v) :
    Faithful backend type isColumn .notIn values ↔
      values ≠ .single .null ∧ ∀ v ∈ values.items, Untouched type v ∧ Readable backend type v := by
  obtain ⟨refused, emptyList, built⟩ := translateFilter_list (.inr rfl) converts isColumn
  by_cases given : values = .single .null
  · exact iff_of_false (not_faithful (refused given) nofun) fun sound => sound.1 given
  by_cases nonempty : values.items = []
  · obtain ⟨message, translated⟩ := emptyList nonempty
    exact iff_of_true (faithful_of_validation translated) ⟨given, by simp [nonempty]⟩
  rw [faithful_of_ok (built given nonempty)]
  constructor
  · intro faithful
    have kept := untouched_of_exact (.inr rfl) faithful
    exact ⟨given, fun v member =>
      ⟨kept v member, (runs_iff_readable (by decide) kept).mp faithful.1 v member⟩⟩
  · rintro ⟨-, each⟩
    have kept := fun v member => (each v member).1
    have runs : (listCondition .notIn (values.items.map (heard backend type .notIn))).Runs
      backend type :=
      (runs_iff_readable (by decide) kept).mpr fun v member => (each v member).2
    refine ⟨runs, fun cell => ?_⟩
    cases cell with
    | none =>
      exact iff_of_false (eval_notIn_none (by simpa using nonempty)) fun holds => holds.1 rfl
    | some c =>
      rw [eval_notIn_some c ((listCondition_runs _ _).mp runs),
        exists_matches_iff (by decide) kept, Holds]
      simp

/-! ## Patterns -/

omit [LinearOrder N] [LinearOrder T] in
theorem evalLike_iff (fold : Char → Char) (literal : Literal N) (cell : Option (Carrier N T type))
    (b : Bool) :
    evalLike backend type fold literal cell = some b ↔
      ∃ c p, cell = some c ∧ backend.textOfLiteral literal = some p ∧
      likeText fold p (backend.textOf type c) = b := by
  unfold evalLike
  cases cell with
  | none => simp
  | some c => cases backend.textOfLiteral literal <;> simp

/-- What one of the three pattern operators does with a literal: it asks for the truth value
`wanted` of the match. -/
structure PatternOperator (backend : Backend N T) (type : GenericDataType) (isColumn : Bool)
    (values : Values N)
    (op : FilterOperator) (fold : Char → Char) (wanted : Bool) where
  make : Literal N → Condition N
  noRange : op ≠ .temporalRange
  scalar : Scalar op
  builds : ∀ literal, scalarCondition backend isColumn op (some literal) = likeWith make literal
  refuses : ∃ message,
    scalarCondition backend isColumn op none = .error (.queryObjectValidationError message)
  runs : ∀ literal, (make literal).Runs backend type ↔ (backend.textOfLiteral literal).isSome
  truth : ∀ literal cell, (make literal).eval backend type cell = some true ↔
    evalLike backend type fold literal cell = some wanted
  holds : ∀ cell, Holds backend type values cell op ↔
    FirstMeans (pattern backend type) values fun m =>
    ∃ c p, cell = some c ∧ m = .value p ∧ likeText fold p (backend.textOf type c) = wanted

def likeOperator : PatternOperator backend type isColumn values .like id true where
  make := .like
  noRange := by decide
  scalar := by simp [Scalar]
  builds := fun _ => rfl
  refuses := ⟨_, rfl⟩
  runs := fun _ => Iff.rfl
  truth := fun _ _ => Iff.rfl
  holds := fun _ => Iff.rfl

def ilikeOperator : PatternOperator backend type isColumn values .ilike backend.lower true where
  make := .ilike
  noRange := by decide
  scalar := by simp [Scalar]
  builds := fun _ => rfl
  refuses := ⟨_, rfl⟩
  runs := fun _ => Iff.rfl
  truth := fun _ _ => Iff.rfl
  holds := fun _ => Iff.rfl

def notLikeOperator : PatternOperator backend type isColumn values .notLike id false where
  make := .notLike
  noRange := by decide
  scalar := by simp [Scalar]
  builds := fun _ => rfl
  refuses := ⟨_, rfl⟩
  runs := fun _ => Iff.rfl
  truth := fun literal cell => by
    rw [Condition.eval]
    rcases evalLike backend type id literal cell with _ | _ | _ <;> simp [not3]
  holds := fun _ => Iff.rfl

section Patterns

variable {op : FilterOperator} {fold : Char → Char} {wanted : Bool} {v : Value N}
  (operator : PatternOperator backend type isColumn values op fold wanted)
  (converts : ∀ v ∈ values.items, Converts backend type op v) (first : values.first = some v)

include operator converts in
theorem translateFilter_pattern : translateFilter backend type isColumn op values =
    scalarCondition backend isColumn op (compared backend type op values) :=
  translateFilter_scalar isColumn operator.scalar converts

include operator converts first in
theorem faithful_of_unheard (unheard : heard backend type op v = none) :
    Faithful backend type isColumn op values := by
  obtain ⟨message, refused⟩ := operator.refuses
  have translated := translateFilter_pattern operator converts
  rw [compared_of_first operator.noRange first, unheard, refused] at translated
  exact faithful_of_validation translated

include operator converts first in
theorem not_faithful_of_bool {b : Bool} (isBool : heard backend type op v = some (.bool b)) :
    ¬ Faithful backend type isColumn op values := by
  have translated := translateFilter_pattern operator converts
  rw [compared_of_first operator.noRange first, isBool, operator.builds] at translated
  exact not_faithful translated nofun

include operator converts first in
theorem faithful_of_literal {literal : Literal N} (noBool : ∀ b, literal ≠ .bool b)
    (isLiteral : heard backend type op v = some literal) :
    Faithful backend type isColumn op values ↔ (backend.textOfLiteral literal).isSome ∧
      ∀ cell : Option (Carrier N T type), evalLike backend type fold literal cell = some wanted ↔
        ∃ c p, cell = some c ∧ pattern backend type v = .value p ∧
        likeText fold p (backend.textOf type c) = wanted := by
  have translated := translateFilter_pattern operator converts
  have built : likeWith operator.make literal = .ok (operator.make literal) := by
    cases literal with
    | bool b => exact absurd rfl (noBool b)
    | number | text | sql => rfl
  rw [compared_of_first operator.noRange first, isLiteral, operator.builds, built] at translated
  rw [faithful_of_ok translated, operator.runs]
  refine and_congr_right fun _ => forall_congr' fun cell => ?_
  rw [operator.truth, operator.holds, firstMeans_iff first]

include operator converts first in
theorem faithful_text_iff {s : String} {literal : Literal N} (isText : v = .text s)
    (notNull : s ≠ NULL_STRING)
    (isLiteral : heard backend type op v = some literal) (noBool : ∀ b, literal ≠ .bool b) :
    Faithful backend type isColumn op values ↔
      ∃ p, backend.textOfLiteral literal = some p ∧ SameMatches backend type fold p (plain s) := by
  rw [faithful_of_literal operator converts first noBool isLiteral, isText, pattern, if_neg notNull]
  have sameTruth : ∀ a b : Bool, (a = wanted ↔ b = wanted) ↔ a = b := by
    intro a b
    cases a <;> cases b <;> cases wanted <;> simp
  constructor
  · rintro ⟨some_, truth⟩
    obtain ⟨p, read⟩ := Option.isSome_iff_exists.mp some_
    refine ⟨p, read, fun c => (sameTruth _ _).mp ?_⟩
    have atCell := truth (some c)
    rw [evalLike_iff] at atCell
    simpa [read] using atCell
  · rintro ⟨p, read, same⟩
    refine ⟨by rw [read]; rfl, fun cell => ?_⟩
    rw [evalLike_iff]
    cases cell with
    | none => simp
    | some c => simpa [read] using (sameTruth _ _).mpr (same c)

include operator converts first in
theorem faithful_value_iff (noText : ∀ s, v ≠ .text s) : Faithful backend type isColumn op values ↔
    (∀ b, intended backend type v ≠ .value (.bool b)) ∧
      ∀ literal, intended backend type v = .value literal →
      (backend.textOfLiteral literal).isSome := by
  have isHeard : heard backend type op v = (intended backend type v).toOption := by
    cases v with
    | text s => exact absurd rfl (noText s)
    | null | bool | number => rfl
  have isPattern :
      pattern backend type v = (intended backend type v).bind backend.textOfLiteral := by
    cases v with
    | text s => exact absurd rfl (noText s)
    | null | bool | number => rfl
  cases means : intended backend type v with
  | null | nothing =>
    exact iff_of_true (faithful_of_unheard operator converts first (by rw [isHeard, means]; rfl))
      ⟨nofun, nofun⟩
  | value literal =>
    rw [means, toOption_value] at isHeard
    by_cases isBool : ∃ b, literal = .bool b
    · obtain ⟨b, rfl⟩ := isBool
      exact iff_of_false (not_faithful_of_bool operator converts first isHeard) fun kept =>
        kept.1 b rfl
    · rw [not_exists] at isBool
      rw [faithful_of_literal operator converts first isBool isHeard]
      constructor
      · rintro ⟨read, -⟩
        refine ⟨fun b same => isBool b (by cases same; rfl), fun other same => ?_⟩
        cases same
        exact read
      · rintro ⟨-, read⟩
        obtain ⟨p, isText⟩ := Option.isSome_iff_exists.mp (read literal rfl)
        refine ⟨read literal rfl, fun cell => ?_⟩
        rw [evalLike_iff, isPattern, means, Meaning.bind, isText]
        simp [Meaning.ofOption]

include operator converts in
theorem faithful_of_empty (empty : values.first = none) :
    Faithful backend type isColumn op values := by
  obtain ⟨message, refused⟩ := operator.refuses
  have translated := translateFilter_pattern operator converts
  rw [compared_of_empty op empty, refused] at translated
  exact faithful_of_validation translated

include operator converts first in
theorem faithful_written_iff {s : String} (isText : v = .text s)
    (noNumeric : textType type op ≠ .numeric) :
    Faithful backend type isColumn op values ↔ PatternKept backend type fold (.text s) := by
  have sameBoolean : textType type op = .boolean ↔ type = .boolean := by
    unfold textType
    split
    · simp_all
    · rfl
  have isHeard : heard backend type op v =
      if stripped s = NULL_STRING then none
      else if stripped s = EMPTY_STRING then some (.text "")
      else if textType type op = .boolean then some (.bool (castToBoolean (stripped s)))
      else some (.text (stripped s)) := by
    rw [isText, heard, intendedText_of_ne noNumeric]
  by_cases null : stripped s = NULL_STRING
  · rw [if_pos null] at isHeard
    exact iff_of_true (faithful_of_unheard operator converts first isHeard) (.inl null)
  · rw [if_neg null] at isHeard
    have notNull : s ≠ NULL_STRING := by
      rintro rfl
      exact null (by decide)
    by_cases empty : stripped s = EMPTY_STRING
    · rw [if_pos empty] at isHeard
      rw [faithful_text_iff operator converts first isText notNull isHeard nofun]
      have words : EMPTY_STRING ≠ NULL_STRING := by decide
      simp [PatternKept, words, empty, plain, backend.textOfLiteral_text]
    · rw [if_neg empty] at isHeard
      by_cases boolean : type = .boolean
      · rw [if_pos (sameBoolean.mpr boolean)] at isHeard
        refine iff_of_false (not_faithful_of_bool operator converts first isHeard) ?_
        simp [PatternKept, null, empty, boolean]
      · rw [if_neg (mt sameBoolean.mp boolean)] at isHeard
        rw [faithful_text_iff operator converts first isText notNull isHeard nofun]
        simp [PatternKept, null, boolean, plain, empty, backend.textOfLiteral_text]

end Patterns

theorem faithful_like_iff {fold : Char → Char} (isLike : op = .ilike ∨ op = .like)
    (operator : PatternOperator backend type isColumn values op fold true)
    (converts : ∀ v ∈ values.items, Converts backend type op v) :
    Faithful backend type isColumn op values ↔
    ∀ v ∈ values.first, PatternKept backend type fold v := by
  cases first : values.first with
  | none => exact iff_of_true (faithful_of_empty operator converts first) nofun
  | some v =>
    simp only [Option.mem_def, Option.some.injEq, forall_eq']
    cases v with
    | null | bool | number => exact faithful_value_iff operator converts first nofun
    | text s =>
      refine faithful_written_iff operator converts first rfl ?_
      unfold textType
      split
      · nofun
      · rename_i other
        exact fun numeric => other ⟨numeric, isLike⟩

theorem faithful_notLike_iff (converts : ∀ v ∈ values.items, Converts backend type .notLike v) :
    Faithful backend type isColumn .notLike values ↔
    ∀ v ∈ values.first, NotLikeKept backend type v := by
  cases first : values.first with
  | none => exact iff_of_true (faithful_of_empty notLikeOperator converts first) nofun
  | some v =>
    simp only [Option.mem_def, Option.some.injEq, forall_eq']
    have sameType : textType type .notLike = type := if_neg (by simp)
    cases v with
    | null | bool | number => exact faithful_value_iff notLikeOperator converts first nofun
    | text s =>
      by_cases numeric : type = .numeric
      · subst numeric
        have isHeard :
            heard backend .numeric .notLike (.text s) =
              (numberOf backend (stripped s)).map .number := by
          rw [heard, sameType, intendedText_numeric]
        rw [NotLikeKept, if_pos rfl]
        cases number : numberOf backend (stripped s) with
        | none =>
          rw [number] at isHeard
          exact iff_of_true (faithful_of_unheard notLikeOperator converts first isHeard) nofun
        | some n =>
          have notWord : s ∉ ["", NULL_STRING, EMPTY_STRING] := by
            intro word
            have unchanged : stripped s = s := by
              simp only [mem_cons, not_mem_nil, or_false] at word
              rcases word with rfl | rfl | rfl <;> decide
            rw [unchanged, numberOf_words word] at number
            cases number
          simp only [mem_cons, not_mem_nil, or_false, not_or] at notWord
          rw [number, Option.map_some] at isHeard
          rw [faithful_text_iff notLikeOperator converts first rfl notWord.2.1 isHeard nofun, plain,
            if_neg notWord.2.2]
          simp
      · rw [NotLikeKept, if_neg numeric]
        exact faithful_written_iff notLikeOperator converts first rfl (by rwa [sameType])

/-! ## The other operators -/

omit [LinearOrder T] in
theorem translateFilter_unary (unary : op ∈ [.isNull, .isNotNull, .isTrue, .isFalse])
    (isColumn : Bool) (converts : ∀ v ∈ values.items, Converts backend type op v) :
    translateFilter backend type isColumn op values = .ok (match op with
      | .isNull => .isNull
      | .isNotNull => .isNotNull
      | .isTrue => handleBooleanFilter backend true
      | _ => handleBooleanFilter backend false) := by
  have noList : (decide (op = .isIn) || decide (op = .notIn)) = false := by
    simp only [mem_cons, not_mem_nil, or_false] at unary
    rcases unary with rfl | rfl | rfl | rfl <;> rfl
  rw [translateFilter, noList, filterValuesHandler_one values converts]
  simp only [mem_cons, not_mem_nil, or_false] at unary
  rcases unary with rfl | rfl | rfl | rfl <;> rfl

theorem boolean_iff (b : Bool) :
    ((handleBooleanFilter backend b).Runs backend type ∧ ∀ cell : Option (Carrier N T type),
      (handleBooleanFilter backend b).eval backend type cell = some true ↔
        ∃ c, cell = some c ∧ backend.reads type (.bool b) = some c) ↔
        (backend.reads type (.bool b)).isSome := by
  have compared_ : ∀ cell : Option (Carrier N T type),
    evalCompare backend type .eq (.bool b) cell = some true ↔
      ∃ c, cell = some c ∧ backend.reads type (.bool b) = some c := by
    intro cell
    rw [evalCompare_eq_true]
    constructor
    · rintro ⟨c, v, rfl, read, same⟩
      simp only [Comparison.holds, decide_eq_true_eq] at same
      exact ⟨c, rfl, by rw [read, same]⟩
    · rintro ⟨c, rfl, read⟩
      exact ⟨c, c, rfl, read, by simp [Comparison.holds]⟩
  unfold handleBooleanFilter
  split
  · exact ⟨fun faithful => faithful.1, fun read => ⟨read, compared_⟩⟩
  · refine ⟨fun faithful => faithful.1, fun read => ⟨read, fun cell => ?_⟩⟩
    rw [Condition.eval, ← compared_ cell]
    simp

theorem getTimeFilter_true (since until_ : Option T) (cell : Option (Carrier N T type)) :
    (getTimeFilter backend since until_).eval backend type cell = some true ↔
      since = none ∧ until_ = none ∨ ∃ c, cell = some c ∧ Within backend type since until_ c := by
  rw [getTimeFilter, Condition.eval, all3_eq_true]
  cases cell with
  | none => cases since <;> cases until_ <;> simp [evalCompare]
  | some c =>
    cases since <;> cases until_ <;>
      simp [Within, evalCompare_eq_true, Comparison.holds]

theorem faithful_range_iff (converts : ∀ v ∈ values.items, Converts backend type .temporalRange v) :
    Faithful backend type isColumn .temporalRange values ↔
      ∀ v ∈ values.first, RangeRuns backend type isColumn v := by
  have translated := translateFilter_scalar isColumn (by simp [Scalar]) converts
  cases first : values.first with
  | none =>
    rw [compared_of_empty _ first] at translated
    exact iff_of_true (faithful_of_validation translated) nofun
  | some v =>
    simp only [Option.mem_def, Option.some.injEq, forall_eq']
    have isHandled :
        compared backend type .temporalRange values = handled backend type .temporalRange v := by
      rw [compared, first]
      rfl
    rw [isHandled] at translated
    cases v with
    | null | bool | number => exact iff_of_true (faithful_of_validation translated) trivial
    | text range =>
      cases isColumn with
      | false => exact iff_of_true (faithful_of_validation translated) nofun
      | true =>
        simp only [RangeRuns, forall_const]
        have parsed : translateFilter backend type true .temporalRange values =
            backend.sinceUntil range >>= fun bounds =>
              pure (getTimeFilter backend bounds.1 bounds.2) :=
          translated
        cases bounds : backend.sinceUntil range with
        | error e =>
          rw [bounds] at parsed
          cases e with
          | queryObjectValidationError message =>
            exact iff_of_true (faithful_of_validation parsed) ⟨message, rfl⟩
          | valueError | overflowError | argumentError | assertionError =>
            exact iff_of_false (not_faithful parsed nofun) fun ⟨_, same⟩ => nomatch same
        | ok bounds' =>
          obtain ⟨since, until_⟩ := bounds'
          rw [bounds] at parsed
          have built : translateFilter backend type true .temporalRange values =
              .ok (getTimeFilter backend since until_) := parsed
          rw [faithful_of_ok built]
          have runs : (getTimeFilter backend since until_).Runs backend type ↔
              ∀ dttm ∈ since.toList ++ until_.toList,
                (backend.reads type (.sql (some (backend.dttmSqlLiteral dttm)))).isSome := by
            cases since <;> cases until_ <;> simp [getTimeFilter, Condition.Runs]
          rw [runs]
          refine and_iff_left_of_imp fun _ cell => ?_
          have truth : Holds backend type values cell .temporalRange ↔
            since = none ∧ until_ = none ∨
              ∃ c, cell = some c ∧ Within backend type since until_ c := by
            simp [Holds, first, bounds]
          rw [truth]
          exact getTimeFilter_true since until_ cell

/-- A filter has the meaning of its operator exactly when its values convert and are compared
as what they are. -/
theorem faithful_iff (isColumn : Bool) (op : FilterOperator) (values : Values N) :
    Faithful backend type isColumn op values ↔ Sound backend type isColumn op values := by
  by_cases converts : ∀ v ∈ values.items, Converts backend type op v
  · unfold Sound
    rw [and_iff_right converts]
    cases op with
    | equals => exact faithful_equals_iff converts
    | notEquals => exact faithful_notEquals_iff converts
    | greaterThan =>
      exact faithful_order_iff rfl (by decide) converts fun cell =>
        by simp [Holds, Comparison.holds]
    | lessThan =>
      exact faithful_order_iff rfl (by decide) converts fun cell =>
        by simp [Holds, Comparison.holds]
    | greaterThanOrEquals =>
      exact faithful_order_iff rfl (by decide) converts fun cell =>
        by simp [Holds, Comparison.holds]
    | lessThanOrEquals =>
      exact faithful_order_iff rfl (by decide) converts fun cell =>
        by simp [Holds, Comparison.holds]
    | like => exact faithful_like_iff (.inr rfl) likeOperator converts
    | ilike => exact faithful_like_iff (.inl rfl) ilikeOperator converts
    | notLike => exact faithful_notLike_iff converts
    | isNull =>
      rw [faithful_of_ok (translateFilter_unary (by simp) isColumn converts)]
      exact iff_of_true ⟨trivial,
        fun cell => by cases cell <;> simp [Condition.eval, Holds]⟩ trivial
    | isNotNull =>
      rw [faithful_of_ok (translateFilter_unary (by simp) isColumn converts)]
      exact iff_of_true ⟨trivial,
        fun cell => by cases cell <;> simp [Condition.eval, Holds]⟩ trivial
    | isTrue =>
      rw [faithful_of_ok (translateFilter_unary (by simp) isColumn converts)]
      exact boolean_iff true
    | isFalse =>
      rw [faithful_of_ok (translateFilter_unary (by simp) isColumn converts)]
      exact boolean_iff false
    | isIn => exact faithful_isIn_iff converts
    | notIn => exact faithful_notIn_iff converts
    | temporalRange => exact faithful_range_iff converts
  · exact iff_of_false (fun faithful => converts (converts_of_faithful faithful)) fun sound =>
      converts sound.1

/-- A database that converts no numbers to strings and no strings to truth values; its
numbers are whole. -/
def strict : Backend Int Int where
  natural := Int.ofNat
  float := fun text => if PyText.isdigit text then (PyText.digitsValue text).map Int.ofNat else none
  utcfromtimestamp := some
  convertDttm := fun dttm => some (toString dttm)
  dttmSqlLiteral := toString
  useEqualityForBooleanFilters := false
  sinceUntil := fun _ => .ok (none, none)
  lower := Char.toLower
  reads
    | .numeric, .number n => some n
    | .string, .text s => some s
    | .temporal, .sql (some text) => (PyText.int text).map Int.ofNat
    | .boolean, .bool b => some b
    | _, _ => none
  textOf
    | .numeric, n => toString (show Int from n)
    | .string, s => s
    | .temporal, t => toString (show Int from t)
    | .boolean, b => toString (show Bool from b)
  textOfLiteral
    | .number n => some (toString n)
    | .text s => some s
    | .sql text => text
    | .bool _ => none
  float_words := by
    simp only [List.forall_mem_cons, List.not_mem_nil, false_implies, implies_true, and_true]
    decide
  reads_text := fun _ => rfl
  reads_other := by
    rintro (n | b | s | t) s' read
    · cases read
    · cases read
    · exact .inl ⟨s, rfl⟩
    · cases read
  unnamed := ⟨fun type => by cases type <;> rfl, rfl⟩
  textOf_string := fun _ => rfl
  textOfLiteral_text := fun _ => rfl

theorem word_matches_null : ¬ Faithful strict .numeric true .equals (.single (.text "abc")) := by
  have built : translateFilter strict .numeric true .equals (.single (.text "abc")) =
    .ok .isNull := by rfl
  rw [faithful_of_ok built]
  rintro ⟨-, exact_⟩
  obtain ⟨v, first, equal⟩ := (exact_ none).mp rfl
  cases first
  have nothing : intended strict .numeric (.text "abc") = .nothing := by rfl
  rw [meaning, nothing] at equal
  exact equal

end Liteset.Sql.FilterValues
