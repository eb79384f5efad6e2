import Liteset.Lib.Attempt
import Liteset.Lib.Json

/-!
# The granularity of a query

`AsyncQueryObject` of `common/query_object.py`: the construction finds the time range that
becomes `from_dttm` and `to_dttm`, and `apply_granularity` then drops the filters on one
column, which a filter on the granularity replaces.  The caller swallows an exception of
the latter; what was changed before stays.  The parts of a query that neither reads are left
out, and the parser of time ranges is a parameter.
-/

set_option autoImplicit false

namespace Liteset.Charts.Granularity

open Liteset.Lib List

def TEMPORAL_RANGE : String := "TEMPORAL_RANGE"

def NO_TIME_RANGE : String := "No filter"

structure AdhocColumn where
  label : String
  sqlExpression : Option String := none
  sql_expression : Option String := none
  columnType : Option String := none
  isAdhoc : sqlExpression.isSome ∨ sql_expression.isSome
  deriving DecidableEq

inductive Column where
  | name (n : String)
  | adhoc (column : AdhocColumn)
  deriving DecidableEq

structure Filter where
  col : Option Column := none
  op : Option String := none
  val : Json := .null

structure Operation where
  operation : Option String
  options : Option (List (String × Json))

structure QueryObject (D : Type) where
  columns : List Column := []
  filters : List Filter := []
  timeRange : Option String := none
  granularity : Option String := none
  granularitySqla : Option String := none
  fromDttm : Option D := none
  toDttm : Option D := none
  postProcessing : List Operation := []

def nonempty (text : Option String) : Option String := text.filter fun t => t ≠ ""

def truthy (text : Option String) : Bool := (nonempty text).isSome

def Filter.isTemporal (flt : Filter) : Bool := flt.op = some TEMPORAL_RANGE

section Construction

variable {D : Type}

/-- `get_column_name`; `none` where it raises. -/
def getColumnName : Column → Option String
  | .name n => some n
  | .adhoc c =>
    if c.label ≠ "" then some c.label
    else if truthy c.sqlExpression then c.sqlExpression
    else nonempty c.sql_expression

def isBaseAxis : Column → Bool
  | .name _ => false
  | .adhoc c => c.columnType = some "BASE_AXIS"

/-- `get_x_axis_label`, which names every base axis to take the first. -/
def getXAxisLabel (columns : List Column) : Option (Option String) :=
  ((columns.filter isBaseAxis).mapM getColumnName).map List.head?

/-- The time range that `from_dttm` and `to_dttm` are read from, without a `time_range`. -/
def extractedTimeRange (query : QueryObject D) : Option Json :=
  match query.filters.filter Filter.isTemporal with
  | [] => some (.str NO_TIME_RANGE)
  | first :: rest =>
    (getXAxisLabel query.columns).map fun label =>
      (((first :: rest).find? fun flt => flt.col = label.map .name).getD first).val

def effectiveTimeRange (query : QueryObject D) : Option Json :=
  match query.timeRange with
  | some range => some (.str range)
  | none => extractedTimeRange query

def applyFilters (query : QueryObject D) : QueryObject D :=
  match query.timeRange with
  | some range =>
    if range = "" then query
    else { query with
      filters := query.filters.map fun flt => if flt.isTemporal then { flt with val := .str range }
      else flt }
  | none => query

/-- `__post_init__`; `none` where it raises.  `sinceUntil` is `get_since_until_from_time_range`
with the shift and the extras of the query, and `none` where that raises. -/
def postInit (sinceUntil : Json → Option (Option D × Option D)) (query : QueryObject D) :
    Option (QueryObject D) := do
  let query := if truthy query.granularitySqla
    then { query with granularity := query.granularitySqla } else query
  let range ← effectiveTimeRange query
  let query :=
    if query.fromDttm.isNone || query.toDttm.isNone then
      match sinceUntil range with
      | some (parsedFrom, parsedTo) =>
        { query with fromDttm := query.fromDttm.or parsedFrom, toDttm := query.toDttm.or parsedTo }
      | none => query
    else query
  return applyFilters query

end Construction

inductive KeyError where
  | missing (key : String)
  deriving DecidableEq

section Apply

variable {D : Type}

def axisExpression : Column → Option String
  | .name n => some n
  | .adhoc c => c.sqlExpression

def onAxis (axis : String) : Column → Bool
  | .name n => n = axis
  | .adhoc c => c.sqlExpression = some axis

def replaceAxis (axis granularity : String) (columns : List Column) : List Column :=
  match columns.find? (onAxis axis) with
  | some (.name n) =>
    columns.map fun column => if column = .name n then .name granularity else column
  | some (.adhoc _) => go columns
  | none => columns
where
  go : List Column → List Column
    | [] => []
    | .adhoc c :: rest =>
      if c.sqlExpression = some axis then
        .adhoc { c with
          label := granularity, sqlExpression := some granularity, isAdhoc := .inl rfl } :: rest
      else .adhoc c :: go rest
    | column :: rest => column :: go rest

/-- `options["index"] = [granularity]` -/
def setIndex (granularity : String) (options : List (String × Json)) : List (String × Json) :=
  let index : Json := .list [.str granularity]
  if options.any fun entry => entry.1 = "index" then
    options.map fun entry => if entry.1 = "index" then ("index", index) else entry
  else options ++ [("index", index)]

def setPivots (granularity : String) : List Operation → Except KeyError Unit × List Operation
  | [] => (.ok (), [])
  | operation :: rest =>
    if operation.operation = some "pivot" then
      match operation.options with
      | none => (.error (.missing "options"), operation :: rest)
      | some options =>
        let (outcome, rest) := setPivots granularity rest
        (outcome, { operation with options := some (setIndex granularity options) } :: rest)
    else
      let (outcome, rest) := setPivots granularity rest
      (outcome, operation :: rest)

/-- `flt["col"]` of every temporal filter. -/
def temporalColumns : List Filter → Except KeyError (List Column)
  | [] => .ok []
  | flt :: filters =>
    if flt.isTemporal then
      match flt.col with
      | none => .error (.missing "col")
      | some col => (temporalColumns filters).map (col :: ·)
    else temporalColumns filters

def temporalAxis (dttmCols : List String) (xAxis : Option Column) : Option String :=
  (nonempty (xAxis.bind axisExpression)).filter fun axis => axis ∈ dttmCols

def defaultColumn (granularity : String) (columns : List Column) : Option Column :=
  if .name granularity ∈ columns then some (.name granularity) else columns.head?

def removedName (column : Option Column) : Option String := nonempty (column.bind axisExpression)

def replaceOnAxis (axis granularity : String) : Attempt (QueryObject D) KeyError Unit := do
  if ← inspect fun query => query.columns.any (onAxis axis) then
    change fun query => { query with columns := replaceAxis axis granularity query.columns }
    fun query =>
      ((setPivots granularity query.postProcessing).1,
        { query with postProcessing := (setPivots granularity query.postProcessing).2 })

/-- `filter_to_remove` -/
def columnToRemove (dttmCols : List String) (xAxis : Option Column) (granularity : String) :
    Attempt (QueryObject D) KeyError (Option Column) :=
  match temporalAxis dttmCols xAxis with
  | some axis => do
      replaceOnAxis axis granularity
      return some (.name axis)
  | none => fun query => ((temporalColumns query.filters).map (defaultColumn granularity), query)

def removeFilters (column : Option String) (query : QueryObject D) : QueryObject D :=
  match column with
  | some n => { query with filters := query.filters.filter fun flt => flt.col ≠ some (.name n) }
  | none => query

/-- `apply_granularity`; `dttmCols` are the temporal columns of the datasource. -/
def applyGranularity (dttmCols : List String) (xAxis : Option Column) :
    Attempt (QueryObject D) KeyError Unit := do
  match ← inspect fun query => nonempty query.granularity with
  | none => return
  | some granularity =>
    let column ← columnToRemove dttmCols xAxis granularity
    change (removeFilters (removedName column))

end Apply

section Promise

variable {D : Type} (sinceUntil : Json → Option (Option D × Option D))

/-- After construction and `apply_granularity` all filters but temporal ones are left, and the
temporal filters that are gone were on one column and had the range of the query. -/
structure Replaces (query made after : QueryObject D) : Prop where
  others : after.filters.filter (!·.isTemporal) = query.filters.filter (!·.isTemporal)
  oneColumn : ∃ col, ∀ flt ∈ made.filters, flt.isTemporal → flt ∉ after.filters → flt.col = some col
  range : ∀ flt ∈ made.filters, flt.isTemporal → flt ∉ after.filters →
    sinceUntil flt.val = some (after.fromDttm, after.toDttm)

def chosenGranularity (query : QueryObject D) : Option String :=
  nonempty (if truthy query.granularitySqla then query.granularitySqla else query.granularity)

/-- The filters on the column are those that the granularity takes the place of: on the x-axis,
if it is a temporal column of the dataset; else on the granularity, if there are temporal
filters on it; else on the column of the first temporal filter.  A pivot without options and a
temporal filter without a column stop the method before that. -/
inductive Replaced (dttmCols : List String) (xAxis : Option Column) (query : QueryObject D)
    (granularity : String) :
    String → Prop
  | axis {axis : String} (isAxis : temporalAxis dttmCols xAxis = some axis)
      (pivots : ∀ column ∈ query.columns, onAxis axis column → ∀ operation ∈ query.postProcessing,
        operation.operation = some "pivot" → operation.options.isSome) :
      Replaced dttmCols xAxis query granularity axis
  | granularity (noAxis : temporalAxis dttmCols xAxis = none)
      (placed : ∀ flt ∈ query.filters, flt.isTemporal → flt.col.isSome)
      (filtered : ∃ flt ∈ query.filters, flt.isTemporal ∧ flt.col = some (.name granularity)) :
      Replaced dttmCols xAxis query granularity granularity
  | first {flt : Filter} {column : Column} {n : String}
      (noAxis : temporalAxis dttmCols xAxis = none)
      (placed : ∀ flt ∈ query.filters, flt.isTemporal → flt.col.isSome)
      (unfiltered : ∀ flt ∈ query.filters, flt.isTemporal → flt.col ≠ some (.name granularity))
      (isFirst : query.filters.find? Filter.isTemporal = some flt)
      (onColumn : flt.col = some column)
      (isName : axisExpression column = some n) (named : n ≠ "") :
      Replaced dttmCols xAxis query granularity n

/-- The text that the range of the request is read from: its `time_range`, else the value of
the first temporal filter on the base axis, else that of the first temporal filter. -/
inductive RangeText (query : QueryObject D) : Json → Prop
  | timeRange {range : String} (given : query.timeRange = some range) : RangeText query (.str range)
  | axis {flt : Filter} {axis : Option String} (missing : query.timeRange = none)
      (isAxis : getXAxisLabel query.columns = some axis)
      (onAxis : query.filters.find? (fun flt => flt.isTemporal && flt.col = axis.map .name) =
        some flt) :
      RangeText query flt.val
  | first {flt : Filter} {axis : Option String} (missing : query.timeRange = none)
      (isAxis : getXAxisLabel query.columns = some axis)
      (offAxis : ∀ flt ∈ query.filters, flt.isTemporal → flt.col ≠ axis.map .name)
      (isFirst : query.filters.find? Filter.isTemporal = some flt) : RangeText query flt.val
  | unfiltered (missing : query.timeRange = none) (none : ∀ flt ∈ query.filters, ¬ flt.isTemporal) :
      RangeText query (.str NO_TIME_RANGE)

/-- The range of a temporal filter, which a `time_range` overwrites. -/
def rangeOf (query : QueryObject D) (flt : Filter) : Json :=
  if truthy query.timeRange then .str (query.timeRange.getD "") else flt.val

/-- The filter has a readable range, with the same ends as the text; an end that the request
gives stands for that of the text. -/
def SameRange (query : QueryObject D) (flt : Filter) (text : Json) : Prop :=
  let ends := (sinceUntil text).getD (none, none)
  sinceUntil (rangeOf query flt) = some (query.fromDttm.or ends.1, query.toDttm.or ends.2)

/-- The filters that the granularity takes the place of are temporal, and say what the text
says that the range is read from. -/
def Sound (dttmCols : List String) (xAxis : Option Column) (query : QueryObject D) : Prop :=
  ∀ granularity ∈ chosenGranularity query, ∀ n, Replaced dttmCols xAxis query granularity n →
    ∀ flt ∈ query.filters, flt.col = some (.name n) →
      flt.isTemporal ∧ ∀ text, RangeText query text → SameRange sinceUntil query flt text

end Promise

section Methods

variable {D : Type} {sinceUntil : Json → Option (Option D × Option D)}

def pivotsRun (operations : List Operation) : Bool :=
  operations.all fun operation => operation.operation ≠ some "pivot" || operation.options.isSome

/-- `filter_to_remove`, or `none` where the method has stopped before. -/
def pickedColumn (dttmCols : List String) (xAxis : Option Column) (query : QueryObject D)
    (granularity : String) :
    Option String :=
  match temporalAxis dttmCols xAxis with
  | some axis =>
    if query.columns.any (onAxis axis) && !pivotsRun query.postProcessing then none
    else some axis
  | none =>
    match temporalColumns query.filters with
    | .ok columns => removedName (defaultColumn granularity columns)
    | .error _ => none

/-- The bounds that `__post_init__` leaves. -/
def requested (sinceUntil : Json → Option (Option D × Option D)) (query : QueryObject D)
    (range : Json) :
    Option D × Option D :=
  match sinceUntil range with
  | some (since, until_) => (query.fromDttm.or since, query.toDttm.or until_)
  | none => (query.fromDttm, query.toDttm)

theorem sameRange_iff {query : QueryObject D} {flt : Filter} {text : Json} :
    SameRange sinceUntil query flt text ↔
    sinceUntil (rangeOf query flt) = some (requested sinceUntil query text) := by
  unfold SameRange requested
  cases sinceUntil text with
  | none => simp
  | some ends => rfl

theorem extractedTimeRange_iff {query : QueryObject D} {text : Json}
    (missing : query.timeRange = none) :
    RangeText query text ↔ extractedTimeRange query = some text := by
  have isHead : (query.filters.filter Filter.isTemporal).head? =
    query.filters.find? Filter.isTemporal := head?_filter ..
  unfold extractedTimeRange
  cases temporal : query.filters.filter Filter.isTemporal with
  | nil =>
    have nothing : ∀ flt ∈ query.filters, ¬ flt.isTemporal := filter_eq_nil_iff.mp temporal
    constructor
    · rintro (given | ⟨-, -, found⟩ | ⟨-, -, -, found⟩ | -)
      · rw [missing] at given
        cases given
      · have both := find?_some found
        exact absurd (Bool.and_eq_true_iff.mp both).1 (nothing _ (mem_of_find?_eq_some found))
      · exact absurd (find?_some found) (nothing _ (mem_of_find?_eq_some found))
      · rfl
    · rintro ⟨⟩
      exact .unfiltered missing nothing
  | cons first rest =>
    rw [temporal, head?_cons] at isHead
    have isOn (axis : Option String) : (first :: rest).find? (fun flt => flt.col = axis.map .name) =
        query.filters.find? fun flt => flt.isTemporal && flt.col = axis.map .name := by
      rw [← temporal, find?_filter]
      simp
    simp only
    constructor
    · rintro (given | ⟨-, isAxis, found⟩ | ⟨-, isAxis, offAxis, found⟩ | ⟨-, nothing⟩)
      · rw [missing] at given
        cases given
      · rw [isAxis, Option.map_some, isOn, found]
        rfl
      · rename_i axis
        have noneOn : query.filters.find? (fun flt => flt.isTemporal && flt.col = axis.map .name) =
            none := by
          rw [find?_eq_none]
          intro flt member both
          obtain ⟨isTemporal, onAxis⟩ := Bool.and_eq_true_iff.mp both
          exact offAxis flt member isTemporal (of_decide_eq_true onAxis)
        rw [isAxis, Option.map_some, isOn, noneOn]
        cases isHead.trans found
        rfl
      · have isTemporal := find?_some isHead.symm
        exact absurd isTemporal (nothing _ (mem_of_find?_eq_some isHead.symm))
    · intro read
      obtain ⟨axis, isAxis, rfl⟩ := Option.map_eq_some_iff.mp read
      rw [isOn]
      cases found : query.filters.find? fun flt => flt.isTemporal && flt.col = axis.map .name with
      | some flt => exact .axis missing isAxis found
      | none =>
        refine .first missing isAxis ?_ isHead.symm
        intro flt member isTemporal onAxis
        exact find?_eq_none.mp found flt member (by simp [isTemporal, onAxis])

theorem rangeText_iff {query : QueryObject D} {text : Json} :
    RangeText query text ↔ effectiveTimeRange query = some text := by
  unfold effectiveTimeRange
  cases given : query.timeRange with
  | none => exact extractedTimeRange_iff given
  | some range =>
    constructor
    · rintro (isRange | ⟨missing, -⟩ | ⟨missing, -⟩ | ⟨missing, -⟩)
      · rw [Option.some.inj (given.symm.trans isRange)]
      all_goals cases given.symm.trans missing
    · rintro ⟨⟩
      exact .timeRange given

theorem temporalColumns_ok {filters : List Filter}
    (placed : ∀ flt ∈ filters, flt.isTemporal → flt.col.isSome) :
    temporalColumns filters = .ok ((filters.filter Filter.isTemporal).filterMap (·.col)) := by
  induction filters with
  | nil => rfl
  | cons flt filters ih =>
    have rest := ih fun other member => placed other (mem_cons_of_mem flt member)
    unfold temporalColumns
    cases isTemporal : flt.isTemporal with
    | false => simpa [isTemporal] using rest
    | true =>
      obtain ⟨col, isCol⟩ := Option.isSome_iff_exists.mp (placed flt mem_cons_self isTemporal)
      simp only [if_true, isCol, rest, filter_cons_of_pos isTemporal, filterMap_cons_some isCol]
      rfl

theorem placed_of_temporalColumns {filters : List Filter} {columns : List Column}
    (found : temporalColumns filters = .ok columns) :
    ∀ flt ∈ filters, flt.isTemporal → flt.col.isSome := by
  induction filters generalizing columns with
  | nil => nofun
  | cons flt filters ih =>
    intro other member isTemporal
    unfold temporalColumns at found
    split at found
    · split at found
      · cases found
      · rename_i col isCol
        cases rest : temporalColumns filters with
        | error e =>
          rw [rest] at found
          cases found
        | ok others =>
          rcases mem_cons.mp member with rfl | tail
          · rw [isCol]
            rfl
          · exact ih rest other tail isTemporal
    · rename_i notTemporal
      rcases mem_cons.mp member with rfl | tail
      · exact absurd isTemporal notTemporal
      · exact ih found other tail isTemporal

theorem nonempty_eq_some {text : Option String} {n : String} : nonempty text = some n ↔
    text = some n ∧ n ≠ "" := by
  rw [nonempty, Option.filter_eq_some_iff]
  simp

theorem defaultColumn_eq {filters : List Filter} {granularity : String}
    (placed : ∀ flt ∈ filters, flt.isTemporal → flt.col.isSome) :
    defaultColumn granularity ((filters.filter Filter.isTemporal).filterMap (·.col)) =
      if ∃ flt ∈ filters, flt.isTemporal ∧ flt.col = some (.name granularity)
        then some (.name granularity)
      else (filters.find? Filter.isTemporal).bind (·.col) := by
  have first : ((filters.filter Filter.isTemporal).filterMap (·.col)).head? =
      (filters.find? Filter.isTemporal).bind (·.col) := by
    rw [← head?_filter]
    cases temporal : filters.filter Filter.isTemporal with
    | nil => rfl
    | cons flt rest =>
      obtain ⟨member, isTemporal⟩ :=
        mem_filter.mp (temporal ▸ mem_cons_self : flt ∈ filters.filter Filter.isTemporal)
      obtain ⟨col, isCol⟩ := Option.isSome_iff_exists.mp (placed flt member isTemporal)
      rw [filterMap_cons_some isCol]
      exact isCol.symm
  unfold defaultColumn
  rw [first]
  congr 1
  simp [and_assoc]

theorem pivotsRun_iff {operations : List Operation} : pivotsRun operations = true ↔
    ∀ operation ∈ operations, operation.operation = some "pivot" → operation.options.isSome := by
  simp [pivotsRun, imp_iff_not_or]

theorem replaced_iff {dttmCols : List String} {xAxis : Option Column} {query : QueryObject D}
    {granularity n : String}
    (chosen : granularity ≠ "") :
    Replaced dttmCols xAxis query granularity n ↔
    pickedColumn dttmCols xAxis query granularity = some n := by
  unfold pickedColumn
  cases isAxis : temporalAxis dttmCols xAxis with
  | some axis =>
    have runs : (query.columns.any (onAxis axis) && !pivotsRun query.postProcessing) = false ↔
        ∀ column ∈ query.columns, onAxis axis column → ∀ operation ∈ query.postProcessing,
          operation.operation = some "pivot" → operation.options.isSome := by
      rw [Bool.and_eq_false_iff, any_eq_false, Bool.not_eq_false', pivotsRun_iff]
      grind
    simp only
    constructor
    · rintro (⟨found, pivots⟩ | ⟨noAxis⟩ | ⟨noAxis⟩)
      · cases isAxis.symm.trans found
        rw [if_neg (Bool.eq_false_iff.mp (runs.mpr pivots))]
      all_goals cases isAxis.symm.trans noAxis
    · intro picked
      split at picked
      · cases picked
      · rename_i free
        cases picked
        exact .axis isAxis (runs.mp (Bool.eq_false_iff.mpr free))
  | none =>
    have isGranularity : removedName (some (.name granularity)) = some granularity :=
      nonempty_eq_some.mpr ⟨rfl, chosen⟩
    constructor
    · rintro (⟨found⟩ | ⟨-, placed, filtered⟩ |
        ⟨-, placed, unfiltered, isFirst, onColumn, isName, named⟩)
      · cases isAxis.symm.trans found
      · simp only [temporalColumns_ok placed, defaultColumn_eq placed, if_pos filtered,
          isGranularity]
      · have noneOn :
          ¬ ∃ flt ∈ query.filters, flt.isTemporal ∧ flt.col = some (.name granularity) := by
          simpa using unfiltered
        simp only [temporalColumns_ok placed, defaultColumn_eq placed, if_neg noneOn, isFirst,
          Option.bind_some, onColumn]
        exact nonempty_eq_some.mpr ⟨isName, named⟩
    · intro picked
      cases found : temporalColumns query.filters with
      | error e =>
        simp only [found] at picked
        cases picked
      | ok columns =>
        have placed := placed_of_temporalColumns found
        cases found.symm.trans (temporalColumns_ok placed)
        simp only [found, defaultColumn_eq placed] at picked
        split at picked
        · rename_i filtered
          cases isGranularity.symm.trans picked
          exact .granularity isAxis placed filtered
        · rename_i unfiltered
          obtain ⟨isName, named⟩ := nonempty_eq_some.mp picked
          obtain ⟨column, isColumn, isName⟩ := Option.bind_eq_some_iff.mp isName
          obtain ⟨flt, isFirst, onColumn⟩ := Option.bind_eq_some_iff.mp isColumn
          exact .first isAxis placed (by simpa using unfiltered) isFirst onColumn isName named

theorem setPivots_outcome (granularity : String) (operations : List Operation) :
    (setPivots granularity operations).1 = .ok () ↔ pivotsRun operations = true := by
  induction operations with
  | nil => simp [setPivots, pivotsRun]
  | cons operation rest ih =>
    rw [pivotsRun] at ih
    unfold setPivots pivotsRun
    by_cases pivot : operation.operation = some "pivot"
    · cases options : operation.options with
      | none => simp [pivot, options]
      | some o => simp [pivot, options, ih]
    · simp [pivot, ih]

theorem temporalAxis_nonempty {dttmCols : List String} {xAxis : Option Column} {axis : String}
    (isAxis : temporalAxis dttmCols xAxis = some axis) : nonempty (some axis) = some axis := by
  unfold temporalAxis nonempty at isAxis
  have kept := Option.eq_some_of_filter_eq_some (Option.eq_some_of_filter_eq_some isAxis)
  rw [kept] at isAxis
  exact Option.eq_some_of_filter_eq_some isAxis

theorem replaceOnAxis_spec (axis granularity : String) (query : QueryObject D) :
    ∃ after, after.filters = query.filters ∧ after.fromDttm = query.fromDttm ∧
    after.toDttm = query.toDttm ∧
      ((∃ e, replaceOnAxis axis granularity query = (.error e, after) ∧
          (query.columns.any (onAxis axis) && !pivotsRun query.postProcessing) = true) ∨
        replaceOnAxis axis granularity query = (.ok (), after) ∧
          (query.columns.any (onAxis axis) && !pivotsRun query.postProcessing) = false) := by
  by_cases found : query.columns.any (onAxis axis) = true
  · have run : replaceOnAxis axis granularity query =
        ((setPivots granularity query.postProcessing).1,
          { query with
            columns := replaceAxis axis granularity query.columns
            postProcessing := (setPivots granularity query.postProcessing).2 }) := by
      show (if query.columns.any (onAxis axis) then _ else _ :
        Attempt (QueryObject D) KeyError Unit) query = _
      rw [if_pos found]
      rfl
    refine ⟨{ query with
      columns := replaceAxis axis granularity query.columns
      postProcessing := (setPivots granularity query.postProcessing).2 }, rfl, rfl, rfl, ?_⟩
    cases outcome : (setPivots granularity query.postProcessing).1 with
    | ok u =>
      have runs := (setPivots_outcome granularity query.postProcessing).mp outcome
      exact .inr ⟨by rw [run, outcome], by rw [found, runs]; rfl⟩
    | error e =>
      have stuck : pivotsRun query.postProcessing = false := by
        apply Bool.eq_false_iff.mpr
        intro runs
        rw [(setPivots_outcome granularity query.postProcessing).mpr runs] at outcome
        cases outcome
      exact .inl ⟨e, by rw [run, outcome], by rw [found, stuck]; rfl⟩
  · have none := Bool.eq_false_iff.mpr found
    refine ⟨query, rfl, rfl, rfl, .inr ⟨?_, by rw [none]; rfl⟩⟩
    show (if query.columns.any (onAxis axis) then _ else _ : Attempt (QueryObject D) KeyError Unit)
      query = _
    rw [if_neg found]
    rfl

theorem columnToRemove_spec (dttmCols : List String) (xAxis : Option Column) (granularity : String)
    (query : QueryObject D) :
    ∃ after, after.filters = query.filters ∧ after.fromDttm = query.fromDttm ∧
    after.toDttm = query.toDttm ∧
      ((∃ e, columnToRemove dttmCols xAxis granularity query = (.error e, after) ∧
          pickedColumn dttmCols xAxis query granularity = none) ∨
        ∃ column, columnToRemove dttmCols xAxis granularity query = (.ok column, after) ∧
          pickedColumn dttmCols xAxis query granularity = removedName column) := by
  cases isAxis : temporalAxis dttmCols xAxis with
  | some axis =>
    obtain ⟨after, filters, since, until_, outcome⟩ := replaceOnAxis_spec axis granularity query
    refine ⟨after, filters, since, until_, ?_⟩
    unfold columnToRemove pickedColumn
    simp only [isAxis]
    obtain ⟨e, run, stuck⟩ | ⟨run, free⟩ := outcome
    · exact .inl ⟨e, bind_of_error run, if_pos stuck⟩
    · refine .inr ⟨some (.name axis), bind_of_ok run, ?_⟩
      rw [if_neg (Bool.eq_false_iff.mp free)]
      exact (temporalAxis_nonempty isAxis).symm
  | none =>
    refine ⟨query, rfl, rfl, rfl, ?_⟩
    unfold columnToRemove pickedColumn
    simp only [isAxis]
    cases temporalColumns query.filters with
    | ok columns => exact .inr ⟨_, rfl, rfl⟩
    | error e => exact .inl ⟨e, rfl, rfl⟩

def keptFilters (column : Option String) (filters : List Filter) : List Filter :=
  filters.filter fun flt => !column.any fun n => flt.col = some (.name n)

theorem removeFilters_filters (column : Option String) (query : QueryObject D) :
    (removeFilters column query).filters = keptFilters column query.filters ∧
      (removeFilters column query).fromDttm = query.fromDttm ∧ (removeFilters column query).toDttm =
        query.toDttm := by
  cases column with
  | none => exact ⟨(filter_eq_self.mpr fun flt member => rfl).symm, rfl, rfl⟩
  | some n =>
    refine ⟨filter_congr fun flt member => ?_, rfl, rfl⟩
    simp [Option.any]

/-- `apply_granularity` drops the filters on the picked column and leaves the range. -/
theorem applyGranularity_spec (dttmCols : List String) (xAxis : Option Column)
    (query : QueryObject D) :
    (applyGranularity dttmCols xAxis query).2.filters =
        keptFilters ((nonempty query.granularity).bind (pickedColumn dttmCols xAxis query))
          query.filters ∧
      (applyGranularity dttmCols xAxis query).2.fromDttm = query.fromDttm ∧
      (applyGranularity dttmCols xAxis query).2.toDttm = query.toDttm := by
  have unchanged : keptFilters none query.filters = query.filters :=
    filter_eq_self.mpr fun flt member => rfl
  cases chosen : nonempty query.granularity with
  | none =>
    have run : applyGranularity dttmCols xAxis query = (.ok (), query) := by
      show (match nonempty query.granularity with
        | none => _
        | some granularity => _ : Attempt (QueryObject D) KeyError Unit) query = _
      rw [chosen]
      rfl
    rw [run]
    exact ⟨unchanged.symm, rfl, rfl⟩
  | some granularity =>
    have run : applyGranularity dttmCols xAxis query =
        (columnToRemove dttmCols xAxis granularity >>= fun column =>
          change (removeFilters (removedName column))) query := by
      show (match nonempty query.granularity with
        | none => _
        | some granularity => _ : Attempt (QueryObject D) KeyError Unit) query = _
      rw [chosen]
    rw [run, Option.bind_some]
    obtain ⟨after, filters, since, until_, ⟨e, raised, picked⟩ | ⟨column, found, picked⟩⟩ :=
      columnToRemove_spec dttmCols xAxis granularity query
    · rw [bind_of_error raised, picked, unchanged]
      exact ⟨filters, since, until_⟩
    · obtain ⟨left, leftFrom, leftTo⟩ := removeFilters_filters (removedName column) after
      rw [bind_of_ok found, picked, ← filters, ← since, ← until_]
      exact ⟨left, leftFrom, leftTo⟩

def overwritten (query : QueryObject D) (flt : Filter) : Filter :=
  if flt.isTemporal then { flt with val := rangeOf query flt } else flt

theorem overwritten_col (query : QueryObject D) (flt : Filter) :
    (overwritten query flt).col = flt.col := by
  unfold overwritten
  split <;> rfl

theorem overwritten_isTemporal (query : QueryObject D) (flt : Filter) :
    (overwritten query flt).isTemporal = flt.isTemporal := by
  unfold overwritten
  split <;> rfl

theorem overwritten_val {query : QueryObject D} {flt : Filter}
    (isTemporal : flt.isTemporal = true) :
    (overwritten query flt).val = rangeOf query flt := by
  rw [overwritten, if_pos isTemporal]

theorem overwritten_other {query : QueryObject D} {flt : Filter} (other : flt.isTemporal = false) :
    overwritten query flt = flt := if_neg (Bool.eq_false_iff.mp other)

theorem applyFilters_eq (query : QueryObject D) :
    applyFilters query = { query with filters := query.filters.map (overwritten query) } := by
  have same (blank : truthy query.timeRange = false) :
      query.filters.map (overwritten query) = query.filters := by
    have each : ∀ flt ∈ query.filters, overwritten query flt = flt := by
      intro flt _
      rw [overwritten, rangeOf, if_neg (Bool.eq_false_iff.mp blank), ite_self]
    rw [map_congr_left each, map_id']
  unfold applyFilters
  split
  · next range given =>
    split
    · next blank => rw [same (by rw [given, blank]; rfl)]
    · next blank =>
      have isSet : truthy query.timeRange = true := by
        simp [given, truthy, nonempty, Option.filter, blank]
      congr 1
      apply map_congr_left
      intro flt _
      rw [overwritten, rangeOf, if_pos isSet, given]
      rfl
  · next given => rw [same (by rw [given]; rfl)]

theorem requested_eq (query : QueryObject D) (range : Json) :
    (if query.fromDttm.isNone || query.toDttm.isNone then
        match sinceUntil range with
        | some (parsedFrom, parsedTo) =>
          { query with
            fromDttm := query.fromDttm.or parsedFrom, toDttm := query.toDttm.or parsedTo }
        | none => query
      else query) =
      { query with
        fromDttm := (requested sinceUntil query range).1
        toDttm := (requested sinceUntil query range).2 } := by
  obtain ⟨columns, filters, timeRange, granularity, granularitySqla, fromDttm, toDttm,
    postProcessing⟩ := query
  unfold requested
  cases fromDttm <;> cases toDttm <;> cases sinceUntil range <;> rfl

theorem postInit_spec {query made : QueryObject D} (built : postInit sinceUntil query = some made) :
    ∃ range, effectiveTimeRange query = some range ∧
    (made.fromDttm, made.toDttm) = requested sinceUntil query range ∧
      made.filters = query.filters.map (overwritten query) ∧ made.columns = query.columns ∧
      made.postProcessing = query.postProcessing ∧
      nonempty made.granularity = chosenGranularity query := by
  obtain ⟨range, ranged, rest⟩ := Option.bind_eq_some_iff.mp built
  have result := Option.some.inj rest
  rw [requested_eq, applyFilters_eq] at result
  subst result
  by_cases chosen : truthy query.granularitySqla = true
  · rw [chosenGranularity, if_pos chosen]
    rw [if_pos chosen] at ranged ⊢
    exact ⟨range, ranged, rfl, rfl, rfl, rfl, rfl⟩
  · rw [chosenGranularity, if_neg chosen]
    rw [if_neg chosen] at ranged ⊢
    exact ⟨range, ranged, rfl, rfl, rfl, rfl, rfl⟩

theorem temporalColumns_map (query : QueryObject D) (filters : List Filter) :
    temporalColumns (filters.map (overwritten query)) = temporalColumns filters := by
  induction filters with
  | nil => rfl
  | cons flt filters ih =>
    rw [map_cons, temporalColumns, temporalColumns, overwritten_isTemporal, overwritten_col, ih]

theorem pickedColumn_congr {dttmCols : List String} {xAxis : Option Column}
    {query made : QueryObject D}
    (columns : made.columns = query.columns)
    (operations : made.postProcessing = query.postProcessing)
    (filters : made.filters = query.filters.map (overwritten query)) :
    pickedColumn dttmCols xAxis made = pickedColumn dttmCols xAxis query := by
  funext granularity
  unfold pickedColumn
  rw [columns, operations, filters, temporalColumns_map]

theorem mem_keptFilters {column : Option String} {filters : List Filter} {flt : Filter} :
    flt ∈ keptFilters column filters ↔ flt ∈ filters ∧ ∀ n ∈ column, flt.col ≠ some (.name n) := by
  unfold keptFilters
  cases column <;> simp

theorem others_map (query : QueryObject D) (filters : List Filter) :
    (filters.map (overwritten query)).filter (!·.isTemporal) = filters.filter (!·.isTemporal) := by
  induction filters with
  | nil => rfl
  | cons flt filters ih =>
    rw [map_cons, filter_cons, filter_cons, overwritten_isTemporal, ih]
    cases temporal : flt.isTemporal with
    | true => rfl
    | false => rw [overwritten_other temporal]

theorem others_kept {column : Option String} {filters : List Filter}
    (temporalOnly : ∀ n ∈ column, ∀ flt ∈ filters, flt.col = some (.name n) →
      flt.isTemporal = true) :
    (keptFilters column filters).filter (!·.isTemporal) = filters.filter (!·.isTemporal) := by
  rw [keptFilters, filter_filter]
  apply filter_congr
  intro flt member
  cases temporal : flt.isTemporal with
  | true => rfl
  | false =>
    have spared : (column.any fun n => flt.col = some (.name n)) = false := by
      apply Bool.eq_false_iff.mpr
      intro dropped
      obtain ⟨n, isColumn, onColumn⟩ := (Option.any_eq_true _ column).mp dropped
      rw [temporalOnly n isColumn flt member (of_decide_eq_true onColumn)] at temporal
      cases temporal
    rw [spared]
    rfl

end Methods

def years : Json → Option (Option String × Option String)
  | .str "2020-01-01 : 2021-01-01" => some (some "2020-01-01", some "2021-01-01")
  | .str "2021-01-01 : 2022-01-01" => some (some "2021-01-01", some "2022-01-01")
  | .str "No filter" => some (none, none)
  | _ => none

def temporalFilter (col range : String) : Filter :=
  { col := some (.name col), op := some TEMPORAL_RANGE, val := .str range }

def shippedOrders : QueryObject String where
  filters := [temporalFilter "ordered" "2020-01-01 : 2021-01-01",
    temporalFilter "shipped" "2021-01-01 : 2022-01-01"]

end Liteset.Charts.Granularity
