import Liteset.Lib.CachedRun
import Liteset.Lib.Json

/-!
# The cache of chart data

`get_payload` of `query_context_processor.py`: what is asked for each result type, the key
under which `get_df_payload` looks a dataframe up, and how it is computed on a miss, with
the sub-queries of time comparisons, which have entries of their own.  `DataState` holds
what the datasource, pandas and the date parser make of given arguments; it is fixed, as
are the datasource and the user, whose parts of the key are therefore left out.  The key is
the dictionary that is hashed.
-/

set_option autoImplicit false

namespace Liteset.Charts

open Lib

abbrev Members := List (String × Json)

structure Filter where
  col : Json
  op : String
  val : Json
deriving DecidableEq

/-- The fields of `to_dict`; a date and time is its text. -/
structure QueryDict where
  columns : List Json := []
  metrics : Option (List Json) := some []
  orderby : List (Json × Bool) := []
  filters : List Filter := []
  extras : Members := []
  timeShift : Option String := none
  granularity : Option String := none
  rowLimit : Option Nat := none
  rowOffset : Nat := 0
  fromDttm : Option String := none
  toDttm : Option String := none
  innerFromDttm : Option String := none
  innerToDttm : Option String := none
  orderDesc : Bool := true
  seriesColumns : List String := []
  seriesLimit : Nat := 0
  seriesLimitMetric : Option Json := none
  isTimeseries : Bool := false
  appliedTimeExtras : Members := []
  applyFetchValuesPredicate : Bool := false
  isRowcount : Bool := false
  groupOthersWhenLimitReached : Bool := false
deriving DecidableEq

/-- A query object after `__post_init__`. -/
structure QueryObject extends QueryDict where
  resultType : Option String := none
  timeRange : Option String := none
  postProcessing : List Members := []
  timeOffsets : List String := []
  annotationLayers : List Members := []
deriving DecidableEq

/-- Python `text or None`. -/
def orNone (text : Option String) : Option String := text.filter fun t => t ≠ ""

def textOrNull : Option String → Json
  | none => .null
  | some text => .str text

def annotationCacheFields : List String :=
  ["annotationType", "descriptionColumns", "intervalEndColumn", "name", "overrides", "sourceType",
    "timeColumn", "titleColumn", "value"]

def annotationCacheKey (layer : Members) : Members :=
  layer.filter fun member => member.1 ∈ annotationCacheFields

/-- The dictionary of `_get_cache_key`; a missing entry is `none` or empty. -/
structure CacheDict where
  base : QueryDict
  resultType : Option String
  timeRange : Option String
  postProcessing : List Members
  timeOffsets : List String
  annotationLayers : List Members
  timeOffset : Option String
  extraCacheKeys : List Json
deriving DecidableEq

/-- Why no dataframe comes of a query: the datasource reports an error status, the query
is not valid, something else is raised, or a time delta or range is ambiguous. -/
inductive Failure where
  | status
  | validation
  | other
  | ambiguous
deriving DecidableEq

structure DataState (Frame : Type) where
  columnNames : List String
  rowLimit : Nat
  samplesRowLimit : Nat
  dateRangeTimeshifts : Bool
  validate : QueryObject → Except Failure QueryObject
  extraCacheKeys : QueryDict → List Json
  query : QueryDict → Except Failure Frame
  postProcess : Members → Frame → Except Failure Frame
  annotationData : List Members → Except Failure Unit
  isEmpty : Frame → Bool
  emptyFrame : Frame
  unescape : Frame → Frame
  sums : Frame → Json
  sinceUntil : Option String → Option String → Members →
    Except Failure (Option String × Option String)
  pastOrFuture : String → String → Except Failure String
  shiftRange : String → String → Except Failure String
  daysAgo : String → String → String → Except Failure String
  isDate : String → Bool
  isDateRange : String → Bool
  baseAxisLabels : List Json → List String
  temporalColumn : Option String
  isDatetimeSeries : Frame → String → Bool
  joinColumns : Frame → Option (List Json) → List (String × String)
  normalize : QueryDict → Frame → Frame
  rename : Option (List Json) → String → Frame → Frame
  placeholder : List (String × String) → Option (List Json) → String → Except Failure Frame
  join : Frame → List (String × Frame) → Json → Option (List Json) → Except Failure Frame
  str : Json → String

section Keys

variable {Frame : Type} (state : DataState Frame)

/-- `query_object.cache_key()` with the time offset and the extra keys. -/
def getCacheKey (query : QueryObject) (timeOffset : Option String) : CacheDict where
  base := { query.toQueryDict with fromDttm := none, toDttm := none }
  resultType := orNone query.resultType
  timeRange := orNone query.timeRange
  postProcessing := query.postProcessing
  timeOffsets := query.timeOffsets
  annotationLayers := query.annotationLayers.map annotationCacheKey
  timeOffset := timeOffset
  extraCacheKeys := state.extraCacheKeys query.toQueryDict

end Keys

abbrev ChartM (Frame : Type) : Type → Type := CacheM CacheDict Frame Failure

section Offsets

variable {Frame : Type} (state : DataState Frame) (query : QueryObject)

def resolvedTimeRange : Option String :=
  (orNone query.timeRange).orElse fun _ =>
    (query.filters.filterMap fun filter =>
      match filter.val with
      | .str range => if filter.op = "TEMPORAL_RANGE" then some range else none
      | _ => none).getLast?

def outerBounds : Except Failure (String × String) :=
  match orNone query.fromDttm, orNone query.toDttm with
  | some since, some until_ => .ok (since, until_)
  | since, until_ =>
    (state.sinceUntil (resolvedTimeRange query) query.timeShift query.extras).bind fun parsed =>
      match since.orElse fun _ => orNone parsed.1, until_.orElse fun _ => orNone parsed.2 with
      | some since, some until_ => .ok (since, until_)
      | _, _ => .error .validation

def xAxisLabel : Option String := (state.baseAxisLabels query.columns).head?

/-- `get_time_grain` -/
def timeGrain : Json :=
  match query.columns.head? with
  | some (.object members) =>
    if (Json.get members "timeGrain").truthy then Json.get members "timeGrain"
      else Json.get members "time_grain"
  | _ => Json.get query.extras "time_grain_sqla"

structure Shifted where
  clone : QueryObject
  resolved : String
  label : String
deriving DecidableEq

def shiftFilter (aligned : Bool) (temporalColumn : Option String) (window resolved : String)
    (filter : Filter) :
    Except Failure Filter :=
  if filter.op ≠ "TEMPORAL_RANGE" then .ok filter
  else if aligned then
    .ok (if filter.col = textOrNull temporalColumn then
      { filter with val := .str window } else filter)
  else
    match filter.val with
    | .str range =>
      (state.shiftRange range resolved).map fun shifted => { filter with val := .str shifted }
    | _ => .ok filter

def shiftWindow (frame : Frame) (offset : String) (bounds : String × String) :
    Except Failure (QueryDict × String) :=
  let axis := (state.baseAxisLabels query.columns).head?.getD "__timestamp"
  let granularity := (orNone query.granularity).orElse fun _ => xAxisLabel state query
  if state.isDateRange offset then
    if !state.dateRangeTimeshifts then .error .validation
    else
      (state.sinceUntil (some offset) none []).bind fun range =>
        match granularity.orElse fun _ => state.temporalColumn with
        | none => .error .validation
        | some column =>
          let kept := query.filters.filter fun filter => filter.op ≠ "TEMPORAL_RANGE"
          let window := range.1.getD "None" ++ " : " ++ range.2.getD "None"
          .ok ({ query.toQueryDict with
              fromDttm := range.1, toDttm := range.2, innerFromDttm := none, innerToDttm :=
                none, granularity
              filters := kept ++ [⟨.str column, "TEMPORAL_RANGE", .str window⟩] }, offset)
  else
    (if offset = "inherit" ∨ state.isDate offset then state.daysAgo offset bounds.1 bounds.2 else
      .ok offset).bind
      fun resolved => (state.pastOrFuture resolved bounds.1).bind fun since =>
        (state.pastOrFuture resolved bounds.2).bind fun until_ =>
          (query.filters.mapM (shiftFilter state (state.isDatetimeSeries frame axis) granularity
              (since ++ " : " ++ until_) resolved)).map fun filters =>
            ({ query.toQueryDict with
                fromDttm := some since, toDttm := some until_, innerFromDttm := some since
                innerToDttm := some until_, granularity, filters }, resolved)

def shift (frame : Frame) (offset : String) (bounds : String × String) : Except Failure Shifted :=
  (shiftWindow state query frame offset bounds).map fun (dict, resolved) =>
    let capped := (query.rowLimit.any fun limit => limit ≠ 0) || query.rowOffset ≠ 0
    { clone := { query with
        toQueryDict := { dict with
          filters := dict.filters.filter fun filter =>
            !(filter.col = textOrNull (xAxisLabel state query) && filter.op ≠ "TEMPORAL_RANGE")
          rowLimit := if capped then some state.rowLimit else dict.rowLimit
          rowOffset := if capped then 0 else dict.rowOffset }
        timeOffsets := [], postProcessing := [] }
      resolved
      label := (if resolved = offset then offset else resolved ++ "_" ++ offset) ++ "|" ++
        state.str (timeGrain query) }

def offsetFrame (frame : Frame) (offset : String) (clone : QueryDict) : Except Failure Frame :=
  (state.query clone).bind fun result =>
    if state.isEmpty result
      then state.placeholder (state.joinColumns frame query.metrics) query.metrics offset
    else .ok (state.rename query.metrics offset (state.normalize clone result))

/-- The loop body of `processing_time_offsets`. -/
def processOffset (frame : Frame) (bounds : String × String) (offset : String) :
    ChartM Frame (String × Frame) := do
  let shifted ← CacheM.ofExcept (shift state query frame offset bounds)
  let result ← CacheM.cached (getCacheKey state shifted.clone (some shifted.label))
    (CacheM.ofExcept (offsetFrame state query frame offset shifted.clone.toQueryDict))
  pure (shifted.resolved, result)

/-- `offset_dfs`: a later frame replaces an earlier one of the same resolved offset. -/
def offsetDfs (frames : List (String × Frame)) : List (String × Frame) :=
  frames.foldl (fun dict item =>
    if item.1 ∈ dict.map Prod.fst then dict.map fun entry => if entry.1 = item.1 then item
      else entry
    else dict ++ [item]) []

def processingTimeOffsets (frame : Frame) : ChartM Frame Frame :=
  if query.timeOffsets = [] then pure frame
  else do
    let bounds ← CacheM.ofExcept (outerBounds state query)
    let frames ← query.timeOffsets.mapM (processOffset state query frame bounds)
    CacheM.ofExcept (state.join frame (offsetDfs frames) (timeGrain query) query.metrics)

end Offsets

section Payload

variable {Frame : Type} (state : DataState Frame)

/-- The `try` of `get_df_payload`. -/
def computeFrame (query : QueryObject) (skipPostProcessing : Bool) : ChartM Frame Frame := do
  let result ← CacheM.ofExcept (state.query query.toQueryDict)
  let compared ← processingTimeOffsets state query result
  let processed ← CacheM.ofExcept
    (if skipPostProcessing || state.isEmpty compared then .ok compared
      else query.postProcessing.foldlM (fun frame operation => state.postProcess operation frame)
        compared)
  CacheM.ofExcept
    ((state.annotationData (query.annotationLayers.map annotationCacheKey)).map fun _ => processed)

def failed (failure : Failure) : Except Failure Frame :=
  if failure = .ambiguous then .error failure else .ok state.emptyFrame

/-- `get_df_payload` after validation. -/
def dfPayload (query : QueryObject) (skipPostProcessing : Bool) : ChartM Frame Frame :=
  CacheM.recover
    (CacheM.cached (getCacheKey state query none) (computeFrame state query skipPostProcessing))
    (failed state)

/-- `_get_samples` -/
def samplesQuery (query : QueryObject) : QueryObject :=
  { query with
    isTimeseries := false, orderby := [], metrics := none, postProcessing := []
    columns := state.columnNames.map Json.str, fromDttm := none, toDttm := none
    rowLimit := if query.rowLimit.any fun limit => limit ≠ 0 then query.rowLimit
      else some state.samplesRowLimit }

/-- `_get_drill_detail`, which fails without columns. -/
def drillDetailQuery (query : QueryObject) : Except Failure QueryObject :=
  match state.columnNames with
  | [] => .error .other
  | first :: _ => .ok { query with
      isTimeseries := false, metrics := none, postProcessing := []
      columns := state.columnNames.map Json.str, orderby := [(.str first, true)] }

/-- What a query of a request asks of `get_df_payload`: the query object as validated and
whether post-processing is skipped; nothing for metadata. -/
def dispatch (contextType : Option String) (query : QueryObject) :
    Except Failure (Option (QueryObject × Bool)) :=
  let resultType := ((orNone query.resultType).orElse fun _ => orNone contextType).getD "full"
  if resultType ∈ ["columns", "timegrains", "query"] then .ok none
  else if resultType = "samples" then (state.validate (samplesQuery state query)).map fun q =>
    some (q, true)
  else if resultType = "drill_detail" then
    (drillDetailQuery state query).bind fun q => (state.validate q).map fun q => some (q, false)
  else if resultType = "results" then (state.validate query).map fun q => some (q, true)
  else if resultType = "full" ∨ resultType = "post_processed"
    then (state.validate query).map fun q => some (q, false)
  else .error .validation

def isContribution (operation : Members) : Bool :=
  Json.get operation "operation" = .str "contribution"

def isTotals (query : QueryObject) : Bool :=
  query.columns.isEmpty && query.metrics.any (fun metrics => !metrics.isEmpty) &&
    query.postProcessing.isEmpty

/-- `members[key] = value`, with the keys in order. -/
def setMember (key : String) (value : Json) : Members → Members
  | [] => [(key, value)]
  | (k, v) :: rest =>
    if k = key then (k, value) :: rest else if key < k then (key, value) :: (k, v) :: rest
    else (k, v) :: setMember key value rest

def withTotals (totals : Json) (operation : Members) : Members :=
  if isContribution operation then
    let options := match Json.get operation "options" with
      | .object members => members
      | _ => []
    setMember "options" (.object (setMember "contribution_totals" totals options)) operation
  else operation

/-- `_ensure_totals_available`: the totals query loses its row limit, is run without the
cache, and its sums go into the options of the contributions. -/
def ensureTotalsAvailable (queries : List QueryObject) : Except Failure (List QueryObject) :=
  if !queries.any fun query => query.postProcessing.any isContribution then .ok queries
  else
    match queries.findIdx? isTotals with
    | none => .ok queries
    | some index =>
      let unlimited := queries.modify index fun query => { query with rowLimit := none }
      match unlimited[index]?.map fun query => state.query query.toQueryDict with
      | some (.ok frame) =>
        if state.isEmpty frame then .ok unlimited
        else .ok (unlimited.map fun query =>
          { query with postProcessing := query.postProcessing.map (withTotals (state.sums frame)) })
      | some (.error .status) => .error .validation
      | some (.error .validation) => .error .validation
      | _ => .ok unlimited

structure Request where
  resultType : Option String := none
  queries : List QueryObject := []
deriving DecidableEq

def answerQuery (contextType : Option String) (query : QueryObject) :
    ChartM Frame (Option Frame) := do
  match ← CacheM.ofExcept (dispatch state contextType query) with
  | none => pure none
  | some (query, skipPostProcessing) =>
    let frame ← dfPayload state query skipPostProcessing
    pure (some (state.unescape frame))

def getPayload (request : Request) : ChartM Frame (List (Option Frame)) := do
  let queries ← CacheM.ofExcept (ensureTotalsAvailable state request.queries)
  queries.mapM (answerQuery state request.resultType)

end Payload

end Liteset.Charts
