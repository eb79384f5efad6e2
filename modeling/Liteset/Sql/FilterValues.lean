import Mathlib.Data.Bool.Basic
import Mathlib.Data.List.ReduceOption
import Mathlib.Data.String.Basic
import Liteset.Lib.Kleene
import Liteset.Lib.PyText
import Liteset.Lib.SqlLike
import Liteset.Sql.ChartQuery

/-!
# The conditions of filters

`filter_values_handler` and the translation of a filter in `get_sqla_query` of
`superset/models/helpers.py`, with `cast_to_num` and `cast_to_boolean`.  A condition is what
SQLAlchemy has been told; `eval` is its truth value on a cell.  Advanced data types are off.
-/

set_option autoImplicit false

namespace Liteset.Sql.FilterValues

open Liteset.Lib Liteset.Lib.Condition
open Liteset.Sql.Chart (FilterOperator)

def NULL_STRING : String := "<NULL>"

def EMPTY_STRING : String := "<empty string>"

inductive GenericDataType where
  | numeric
  | string
  | temporal
  | boolean
  deriving DecidableEq

inductive Value (N : Type) where
  | null
  | bool (b : Bool)
  | number (n : N)
  | text (s : String)

inductive Values (N : Type) where
  | single (value : Value N)
  | many (values : List (Value N))

/-- What stands on the right of a comparison; `sql` is a `literal_column` or a `text`, which
cannot be compiled without a text. -/
inductive Literal (N : Type) where
  | number (n : N)
  | bool (b : Bool)
  | text (s : String)
  | sql (text : Option String)

inductive FilterError where
  | queryObjectValidationError (message : String)
  | valueError
  | overflowError
  | argumentError
  | assertionError
  deriving DecidableEq

def Carrier (N T : Type) : GenericDataType → Type
  | .numeric => N
  | .string => String
  | .temporal => T
  | .boolean => Bool

instance (N T : Type) [LinearOrder N] [LinearOrder T] : (type : GenericDataType) →
    LinearOrder (Carrier N T type)
  | .numeric => inferInstanceAs (LinearOrder N)
  | .string => inferInstanceAs (LinearOrder String)
  | .temporal => inferInstanceAs (LinearOrder T)
  | .boolean => inferInstanceAs (LinearOrder Bool)

/-- `value.strip("\t\n")` -/
def stripped (value : String) : String := PyText.strip (fun c => c = '\t' || c = '\n') value

/-- Python's floats and datetimes, the engine spec and the database.  `reads` is the value
of a column's type that the database makes of a literal, `textOf` the text of a cell cast to
a string, and `textOfLiteral` that of a pattern. -/
structure Backend (N T : Type) where
  natural : Nat → N
  float : String → Option N
  /-- `datetime.utcfromtimestamp(value / 1000)`, or `none` where it raises. -/
  utcfromtimestamp : N → Option T
  convertDttm : T → Option String
  dttmSqlLiteral : T → String
  useEqualityForBooleanFilters : Bool
  sinceUntil : String → Except FilterError (Option T × Option T)
  lower : Char → Char
  reads : (type : GenericDataType) → Literal N → Option (Carrier N T type)
  textOf : (type : GenericDataType) → Carrier N T type → String
  textOfLiteral : Literal N → Option String
  float_words : ∀ s ∈ ["", NULL_STRING, EMPTY_STRING], float s = none
  reads_text : ∀ s, reads .string (.text s) = some s
  reads_other : ∀ literal s, reads .string literal = some s → (∃ t, literal = .text t) ∨
    stripped s = s
  unnamed : (∀ type, reads type (.sql none) = none) ∧ textOfLiteral (.sql none) = none
  textOf_string : ∀ s, textOf .string s = s
  textOfLiteral_text : ∀ s, textOfLiteral (.text s) = some s

section Handler

variable {N T : Type} (backend : Backend N T)

/-- `cast_to_num` of a text -/
def castToNum (value : String) : Except FilterError (Option N) :=
  if PyText.isdigit value then
    match PyText.int value with
    | some n => .ok (some (backend.natural n))
    | none => .error .valueError
  else .ok (backend.float value)

/-- `cast_to_boolean` of a text -/
def castToBoolean (value : String) : Bool :=
  (PyText.strip PyText.isspace value).toList.map Char.toLower = "true".toList

/-- A number of milliseconds as the SQL of a datetime; `bool` is a subclass of `int`. -/
def dttmColumn (value : N) : Except FilterError (Literal N) :=
  match backend.utcfromtimestamp value with
  | some dttm => .ok (.sql (backend.convertDttm dttm))
  | none => .error .overflowError

/-- `handle_single_value`, where `none` is `None`. -/
def handleSingleValue [DecidableEq N] (operator : FilterOperator) (type : GenericDataType) :
    Value N → Except FilterError (Option (Literal N))
  | .null => .ok none
  | .bool b =>
    if operator = .temporalRange then .ok (some (.bool b))
    else if type = .temporal then some <$> dttmColumn backend (backend.natural b.toNat)
    else .ok (some (.bool b))
  | .number n =>
    if operator = .temporalRange then .ok (some (.number n))
    else if type = .temporal then some <$> dttmColumn backend n
    else if type = .boolean then .ok (some (.bool (n ≠ backend.natural 0)))
    else .ok (some (.number n))
  | .text s =>
    if operator = .temporalRange then .ok (some (.text s))
    else
      let value := stripped s
      if type = .numeric && operator ≠ .ilike && operator ≠ .like then
        Option.map Literal.number <$> castToNum backend value
      else if value = NULL_STRING then .ok none
      else if value = EMPTY_STRING then .ok (some (.text ""))
      else if type = .boolean then .ok (some (.bool (castToBoolean value)))
      else .ok (some (.text value))

/-- What `filter_values_handler` gives; `one none` is `None`. -/
inductive Handled (N : Type) where
  | one (value : Option (Literal N))
  | list (values : List (Option (Literal N)))

def filterValuesHandler [DecidableEq N] (operator : FilterOperator) (type : GenericDataType)
    (isListTarget : Bool) :
    Values N → Except FilterError (Handled N)
  | .single .null => .ok (.one none)
  | .single value => do
      let value ← handleSingleValue backend operator type value
      return if isListTarget then .list [value] else .one value
  | .many values => do
      let values ← values.mapM (handleSingleValue backend operator type)
      return if isListTarget then .list values else .one values.head?.join

end Handler

inductive Comparison where
  | eq
  | ne
  | gt
  | lt
  | ge
  | le
  deriving DecidableEq

inductive Condition (N : Type) where
  | isNull
  | isNotNull
  | isBool (b : Bool)
  | compare (op : Comparison) (value : Literal N)
  | isIn (values : List (Literal N))
  | like (pattern : Literal N)
  | ilike (pattern : Literal N)
  | notLike (pattern : Literal N)
  | or_ (a b : Condition N)
  | and_ (conditions : List (Comparison × Literal N))
  | negated (a : Condition N)

section Translation

variable {N T : Type} (backend : Backend N T)

/-- The operators `>`, `<` and so on of SQLAlchemy, which take no truth value on the right. -/
def compareWith (op : Comparison) : Literal N → Except FilterError (Condition N)
  | .bool b => if op = .eq ∨ op = .ne then .ok (.compare op (.bool b)) else .error .argumentError
  | value => .ok (.compare op value)

/-- `like`, `ilike` and `not_like` of SQLAlchemy -/
def likeWith (make : Literal N → Condition N) : Literal N → Except FilterError (Condition N)
  | .bool _ => .error .argumentError
  | value => .ok (make value)

def handleBooleanFilter (value : Bool) : Condition N :=
  if backend.useEqualityForBooleanFilters then .compare .eq (.bool value) else .isBool value

def handleComparisonFilter (op : Comparison) : Option (Literal N) → Except FilterError (Condition N)
  | none =>
    match op with
    | .eq => .ok .isNull
    | .ne => .ok .isNotNull
    | _ => .error .argumentError
  | some value => compareWith op value

def listCondition (op : FilterOperator) (eq : List (Option (Literal N))) : Condition N :=
  let eqWithoutNone := eq.reduceOption
  let cond :=
    if eq.length > eqWithoutNone.length then .or_ .isNull (.isIn eqWithoutNone)
    else .isIn eqWithoutNone
  if op = .notIn then .negated cond else cond

def getTimeFilter (startDttm endDttm : Option T) : Condition N :=
  let literal := fun dttm => Literal.sql (some (backend.dttmSqlLiteral dttm))
  .and_ ((startDttm.map fun dttm => (Comparison.ge, literal dttm)).toList ++
    (endDttm.map fun dttm => (Comparison.lt, literal dttm)).toList)

def comparison : FilterOperator → Option Comparison
  | .equals => some .eq
  | .notEquals => some .ne
  | .greaterThan => some .gt
  | .lessThan => some .lt
  | .greaterThanOrEquals => some .ge
  | .lessThanOrEquals => some .le
  | _ => none

def scalarCondition (isColumn : Bool) (op : FilterOperator) (eq : Option (Literal N)) :
    Except FilterError (Condition N) :=
  match comparison op, eq with
  | some .eq, eq => handleComparisonFilter .eq eq
  | some .ne, eq => handleComparisonFilter .ne eq
  | _, none => .error (.queryObjectValidationError
      "Must specify a value for filters with comparison operators")
  | some op, some value => handleComparisonFilter op (some value)
  | none, some value =>
    match op, value with
    | .like, value => likeWith .like value
    | .ilike, value => likeWith .ilike value
    | .notLike, value => likeWith .notLike value
    | .temporalRange, .text range =>
      if isColumn then do
        let (since, until_) ← backend.sinceUntil range
        return getTimeFilter backend since until_
      else .error (.queryObjectValidationError "Invalid filter operation type: TEMPORAL_RANGE")
    | _, _ => .error (.queryObjectValidationError "Invalid filter operation type: TEMPORAL_RANGE")

/-- What a filter adds to `where_clause_and`; `isColumn` is false for an ad-hoc column. -/
def translateFilter [DecidableEq N] (type : GenericDataType) (isColumn : Bool) (op : FilterOperator)
    (val : Values N) : Except FilterError (Condition N) := do
  let isListTarget := op = .isIn || op = .notIn
  let eq ← filterValuesHandler backend op type isListTarget val
  if isListTarget then
    match eq with
    | .list [] => .error (.queryObjectValidationError "Filter value list cannot be empty")
    | .list eq => .ok (listCondition op eq)
    | .one _ => .error .assertionError
  else
    match op with
    | .isNull => .ok .isNull
    | .isNotNull => .ok .isNotNull
    | .isTrue => .ok (handleBooleanFilter backend true)
    | .isFalse => .ok (handleBooleanFilter backend false)
    | op =>
      match eq with
      | .one eq => scalarCondition backend isColumn op eq
      | .list _ => .error .assertionError

end Translation

section Truth

variable {N T : Type} [LinearOrder N] [LinearOrder T] (backend : Backend N T)
    (type : GenericDataType)

def Comparison.holds {α : Type} [LinearOrder α] : Comparison → α → α → Bool
  | .eq, a, b => a = b
  | .ne, a, b => a ≠ b
  | .gt, a, b => a > b
  | .lt, a, b => a < b
  | .ge, a, b => a ≥ b
  | .le, a, b => a ≤ b

def evalCompare (op : Comparison) (value : Literal N) (cell : Option (Carrier N T type)) :
    Option Bool :=
  match cell, backend.reads type value with
  | some c, some v => some (op.holds c v)
  | _, _ => none

def likeText (fold : Char → Char) (pattern text : String) : Bool :=
  SqlLike.like (pattern.toList.map fold) (text.toList.map fold)

def evalLike (fold : Char → Char) (pattern : Literal N) (cell : Option (Carrier N T type)) :
    Option Bool :=
  match cell, backend.textOfLiteral pattern with
  | some c, some p => some (likeText fold p (backend.textOf type c))
  | _, _ => none

def Condition.eval (cell : Option (Carrier N T type)) : Condition N → Option Bool
  | .isNull => some cell.isNone
  | .isNotNull => some cell.isSome
  | .isBool b => some (evalCompare backend type .eq (.bool b) cell = some true)
  | .compare op value => evalCompare backend type op value cell
  | .isIn values => any3 (values.map fun value => evalCompare backend type .eq value cell)
  | .like pattern => evalLike backend type id pattern cell
  | .ilike pattern => evalLike backend type backend.lower pattern cell
  | .notLike pattern => not3 (evalLike backend type id pattern cell)
  | .or_ a b => or3 (a.eval cell) (b.eval cell)
  | .and_ conditions => all3 (conditions.map fun c => evalCompare backend type c.1 c.2 cell)
  | .negated a => not3 (a.eval cell)

def Condition.Runs : Condition N → Prop
  | .isNull | .isNotNull => True
  | .isBool b => (backend.reads type (.bool b)).isSome
  | .compare _ value => (backend.reads type value).isSome
  | .isIn values => ∀ value ∈ values, (backend.reads type value).isSome
  | .like pattern | .ilike pattern | .notLike pattern => (backend.textOfLiteral pattern).isSome
  | .or_ a b => a.Runs ∧ b.Runs
  | .and_ conditions => ∀ c ∈ conditions, (backend.reads type c.2).isSome
  | .negated a => a.Runs

end Truth

end Liteset.Sql.FilterValues
