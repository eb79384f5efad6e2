import Liteset.Charts.ChartDataCache
import Liteset.Lib.Fallible

/-!
# When the cache of chart data is transparent

The key has no `from_dttm` and no `to_dttm`, has the result type of the query but not that
of its context, and has nothing of the frame that types the placeholder of an empty
comparison.  A history is `Orderly` when no two of its queries, and no two of its
comparisons, share a key and differ in these.
-/

set_option autoImplicit false

namespace Liteset.Charts

open Lib CacheM Lib.Fallible

variable {Frame : Type} (state : DataState Frame)

section Fresh

variable (query : QueryObject)

def offsetItem (frame : Frame) (bounds : String × String) (offset : String) :
    Except Failure (String × Frame) :=
  (shift state query frame offset bounds).bind fun shifted =>
    (offsetFrame state query frame offset shifted.clone.toQueryDict).bind fun result =>
      .ok (shifted.resolved, result)

def comparedFrame (frame : Frame) : Except Failure Frame :=
  if query.timeOffsets = [] then .ok frame
  else
    (outerBounds state query).bind fun bounds =>
      (query.timeOffsets.mapM (offsetItem state query frame bounds)).bind fun frames =>
        state.join frame (offsetDfs frames) (timeGrain query) query.metrics

def computedFrame (skipPostProcessing : Bool) : Except Failure Frame :=
  (state.query query.toQueryDict).bind fun result =>
    (comparedFrame state query result).bind fun compared =>
      (if skipPostProcessing || state.isEmpty compared then .ok compared
        else query.postProcessing.foldlM (fun frame operation => state.postProcess operation frame)
          compared).bind
        fun processed =>
          (state.annotationData (query.annotationLayers.map annotationCacheKey)).map fun _ =>
            processed

def freshFrame (skipPostProcessing : Bool) : Except Failure Frame :=
  (computedFrame state query skipPostProcessing).tryCatch (failed state)

end Fresh

def freshAnswer (contextType : Option String) (query : QueryObject) :
    Except Failure (Option Frame) :=
  (dispatch state contextType query).bind fun
    | none => .ok none
    | some (query, skipPostProcessing) =>
      (freshFrame state query skipPostProcessing).bind fun frame =>
        .ok (some (state.unescape frame))

def freshPayload (request : Request) : Except Failure (List (Option Frame)) :=
  (ensureTotalsAvailable state request.queries).bind fun queries =>
    queries.mapM (freshAnswer state request.resultType)

/-- The queries of a request that reach `get_df_payload`. -/
def frameQueries (request : Request) : List (QueryObject × Bool) :=
  match ensureTotalsAvailable state request.queries with
  | .error _ => []
  | .ok queries => queries.filterMap fun query =>
    match dispatch state request.resultType query with
    | .ok asked => asked
    | .error _ => none

structure Comparison (Frame : Type) where
  query : QueryObject
  frame : Frame
  offset : String
  shifted : Shifted

def comparisons (query : QueryObject) : List (Comparison Frame) :=
  match state.query query.toQueryDict, outerBounds state query with
  | .ok frame, .ok bounds => query.timeOffsets.filterMap fun offset =>
    match shift state query frame offset bounds with
    | .ok shifted => some ⟨query, frame, offset, shifted⟩
    | .error _ => none
  | _, _ => []

def Comparison.key (comparison : Comparison Frame) : CacheDict :=
  getCacheKey state comparison.shifted.clone (some comparison.shifted.label)

def Comparison.result (comparison : Comparison Frame) : Except Failure Frame :=
  offsetFrame state comparison.query comparison.frame comparison.offset
    comparison.shifted.clone.toQueryDict

def Comparison.hasRows (comparison : Comparison Frame) : Bool :=
  match state.query comparison.shifted.clone.toQueryDict with
  | .ok result => !state.isEmpty result
  | .error _ => true

def Comparison.joinColumns (comparison : Comparison Frame) : List (String × String) :=
  state.joinColumns comparison.frame comparison.query.metrics

def historyQueries (history : List Request) : List (QueryObject × Bool) :=
  history.flatMap (frameQueries state)

def historyComparisons (history : List Request) : List (Comparison Frame) :=
  (historyQueries state history).flatMap fun item => comparisons state item.1

/-- Queries with one key have one window, and post-processing is skipped for all of them
or for none unless there is none; comparisons with one key have one offset, and the same
columns to join on unless they have rows. -/
structure Orderly (history : List Request) : Prop where
  queries : ∀ first ∈ historyQueries state history, ∀ second ∈ historyQueries state history,
    getCacheKey state first.1 none = getCacheKey state second.1 none →
      first.1.fromDttm = second.1.fromDttm ∧ first.1.toDttm = second.1.toDttm ∧
        (first.2 = second.2 ∨ first.1.postProcessing = [])
  comparisons : ∀ first ∈ historyComparisons state history,
    ∀ second ∈ historyComparisons state history,
    first.key state = second.key state → first.offset = second.offset ∧
      (first.hasRows state ∨ first.joinColumns state = second.joinColumns state)

section Keys

variable {state} {first second : QueryObject}

theorem toQueryDict_eq_of_key {firstOffset secondOffset : Option String}
    (same : getCacheKey state first firstOffset = getCacheKey state second secondOffset)
    (since : first.fromDttm = second.fromDttm) (until_ : first.toDttm = second.toDttm) :
    first.toQueryDict = second.toQueryDict := by
  have base := congrArg CacheDict.base same
  rcases first with ⟨⟨⟩⟩
  rcases second with ⟨⟨⟩⟩
  simp only [getCacheKey, QueryDict.mk.injEq] at base since until_ ⊢
  simp only [base, since, until_, and_self]

theorem offsetItem_congr (same : first.toQueryDict = second.toQueryDict) :
    offsetItem state first = offsetItem state second := by
  obtain ⟨dict, _, _, _, _, _⟩ := first
  obtain ⟨_, resultType, timeRange, postProcessing, timeOffsets, annotationLayers⟩ := second
  subst same
  funext frame bounds offset
  have window : shiftWindow state
    { toQueryDict := dict, resultType, timeRange, postProcessing, timeOffsets, annotationLayers }
      frame offset bounds = shiftWindow state { toQueryDict := dict } frame offset bounds := rfl
  unfold offsetItem shift
  rw [window]
  change (Except.map _ (shiftWindow state { toQueryDict := dict } frame offset bounds)).bind _ = _
  cases shiftWindow state { toQueryDict := dict } frame offset bounds <;> rfl

theorem computedFrame_congr (same : getCacheKey state first none = getCacheKey state second none)
    (since : first.fromDttm = second.fromDttm) (until_ : first.toDttm = second.toDttm)
    (skipPostProcessing : Bool) :
    computedFrame state first skipPostProcessing =
      computedFrame state second skipPostProcessing := by
  have dict := toQueryDict_eq_of_key same since until_
  have range : orNone first.timeRange = orNone second.timeRange := congrArg CacheDict.timeRange same
  have operations : first.postProcessing = second.postProcessing :=
    congrArg CacheDict.postProcessing same
  have offsets : first.timeOffsets = second.timeOffsets := congrArg CacheDict.timeOffsets same
  have layers : first.annotationLayers.map annotationCacheKey =
    second.annotationLayers.map annotationCacheKey :=
    congrArg CacheDict.annotationLayers same
  simp only [computedFrame, comparedFrame, outerBounds, resolvedTimeRange, timeGrain,
    offsetItem_congr dict, dict, range,
    operations, offsets, layers]

theorem computedFrame_nil {query : QueryObject} (nothing : query.postProcessing = [])
    (first second : Bool) :
    computedFrame state query first = computedFrame state query second := by
  have unprocessed : ∀ (skipped : Bool) (compared : Frame), (if skipped then Except.ok compared
      else query.postProcessing.foldlM (fun frame operation => state.postProcess operation frame)
        compared) =
        .ok compared := by
    intro skipped compared
    rw [nothing]
    cases skipped <;> rfl
  simp only [computedFrame, unprocessed]

theorem shiftWindow_window {query : QueryObject} {frame : Frame} {offset : String}
    {bounds : String × String}
    {window : QueryDict × String}
    (done : shiftWindow state query frame offset bounds = .ok window) :
    window.1.metrics = query.metrics ∧
      if state.isDateRange offset then
        state.sinceUntil (some offset) none [] = .ok (window.1.fromDttm, window.1.toDttm)
      else window.1.innerFromDttm = window.1.fromDttm ∧ window.1.innerToDttm = window.1.toDttm := by
  unfold shiftWindow at done
  by_cases ranged : state.isDateRange offset
  · simp only [ranged, if_true] at done ⊢
    split at done
    · cases done
    · obtain ⟨range, parsed, done⟩ := ok_of_bind done
      split at done
      · cases done
      · cases done
        exact ⟨rfl, parsed⟩
  · simp only [ranged, Bool.false_eq_true, if_false] at done ⊢
    obtain ⟨resolved, _, done⟩ := ok_of_bind done
    obtain ⟨since, _, done⟩ := ok_of_bind done
    obtain ⟨until_, _, done⟩ := ok_of_bind done
    obtain ⟨filters, _, rfl⟩ := ok_of_map done
    exact ⟨rfl, rfl, rfl⟩

theorem shift_window {query : QueryObject} {frame : Frame} {offset : String}
    {bounds : String × String}
    {shifted : Shifted} (done : shift state query frame offset bounds = .ok shifted) :
    shifted.clone.metrics = query.metrics ∧
      if state.isDateRange offset then
        state.sinceUntil (some offset) none [] = .ok (shifted.clone.fromDttm, shifted.clone.toDttm)
      else
        shifted.clone.innerFromDttm = shifted.clone.fromDttm ∧
        shifted.clone.innerToDttm = shifted.clone.toDttm := by
  obtain ⟨window, found, rfl⟩ := ok_of_map done
  exact shiftWindow_window found

end Keys

section Comparisons

variable {state}

theorem shift_of_mem {query : QueryObject} {comparison : Comparison Frame}
    (mem : comparison ∈ comparisons state query) :
    ∃ bounds, shift state comparison.query comparison.frame comparison.offset bounds =
      .ok comparison.shifted := by
  unfold comparisons at mem
  split at mem
  · next frame bounds _ _ =>
    obtain ⟨offset, _, kept⟩ := List.mem_filterMap.mp mem
    split at kept
    · next shifted found =>
      cases kept
      exact ⟨bounds, found⟩
    · cases kept
  · cases mem

theorem mem_comparisons {query : QueryObject} {frame : Frame} {bounds : String × String}
    {offset : String}
    {shifted : Shifted} (ran : state.query query.toQueryDict = .ok frame)
    (bounded : outerBounds state query = .ok bounds)
    (asked : offset ∈ query.timeOffsets)
    (done : shift state query frame offset bounds = .ok shifted) :
    ⟨query, frame, offset, shifted⟩ ∈ comparisons state query := by
  unfold comparisons
  rw [ran, bounded]
  exact List.mem_filterMap.mpr ⟨offset, asked, by rw [done]⟩

theorem clone_eq_of_key {first second : Comparison Frame} {firstQuery secondQuery : QueryObject}
    (firstMem : first ∈ comparisons state firstQuery)
    (secondMem : second ∈ comparisons state secondQuery)
    (same : first.key state = second.key state) (offset : first.offset = second.offset) :
    first.shifted.clone.toQueryDict = second.shifted.clone.toQueryDict ∧
    first.query.metrics = second.query.metrics := by
  obtain ⟨_, firstDone⟩ := shift_of_mem firstMem
  obtain ⟨_, secondDone⟩ := shift_of_mem secondMem
  obtain ⟨firstMetrics, firstWindow⟩ := shift_window firstDone
  obtain ⟨secondMetrics, secondWindow⟩ := shift_window secondDone
  have metrics : first.shifted.clone.metrics = second.shifted.clone.metrics :=
    congrArg (fun key => key.base.metrics) same
  refine ⟨?_, firstMetrics.symm.trans (metrics.trans secondMetrics)⟩
  rw [offset] at firstWindow
  by_cases ranged : state.isDateRange second.offset
  · rw [if_pos ranged] at firstWindow secondWindow
    have window := Except.ok.inj (firstWindow.symm.trans secondWindow)
    exact toQueryDict_eq_of_key same (congrArg Prod.fst window) (congrArg Prod.snd window)
  · rw [if_neg ranged] at firstWindow secondWindow
    have inner : first.shifted.clone.innerFromDttm = second.shifted.clone.innerFromDttm :=
      congrArg (fun key => key.base.innerFromDttm) same
    have innerTo : first.shifted.clone.innerToDttm = second.shifted.clone.innerToDttm :=
      congrArg (fun key => key.base.innerToDttm) same
    refine toQueryDict_eq_of_key same ?_ ?_
    · rw [← firstWindow.1, inner, secondWindow.1]
    · rw [← firstWindow.2, innerTo, secondWindow.2]

/-- The frame of a comparison, given its clone, offset and metrics, and what types a placeholder. -/
theorem result_eq_of_clone {first second : Comparison Frame}
    (clone : first.shifted.clone.toQueryDict = second.shifted.clone.toQueryDict)
    (offset : first.offset = second.offset) (metrics : first.query.metrics = second.query.metrics)
    (typed : first.hasRows state ∨ first.joinColumns state = second.joinColumns state) :
    first.result state = second.result state := by
  unfold Comparison.result offsetFrame
  rw [← clone, ← offset, ← metrics]
  unfold Comparison.hasRows Comparison.joinColumns at typed
  rw [← metrics] at typed
  cases ran : state.query first.shifted.clone.toQueryDict with
  | error failure => rfl
  | ok result =>
    rw [ran] at typed
    cases empty : state.isEmpty result with
    | false => simp only [Except.bind, empty, Bool.false_eq_true, if_false]
    | true =>
      simp only [empty, Bool.not_true, Bool.false_eq_true, false_or] at typed
      simp only [Except.bind, typed]

end Comparisons

section Soundness

variable {state} {history : List Request}

/-- The value is the frame of every query and of every comparison of the history with the key. -/
def Stored (state : DataState Frame) (history : List Request) (key : CacheDict)
    (value : Frame) : Prop :=
  (∀ item ∈ historyQueries state history, getCacheKey state item.1 none = key →
    computedFrame state item.1 item.2 = .ok value) ∧
  ∀ comparison ∈ historyComparisons state history, comparison.key state = key →
  comparison.result state = .ok value

variable {item : QueryObject × Bool}

section
variable (orderly : Orderly state history)
include orderly

theorem stored_of_query (mem : item ∈ historyQueries state history) {value : Frame}
    (computed : computedFrame state item.1 item.2 = .ok value) :
    Stored state history (getCacheKey state item.1 none) value := by
  constructor
  · intro other otherMem same
    obtain ⟨since, until_, skipped⟩ := orderly.queries other otherMem item mem same
    rw [← computed]
    rcases skipped with skipped | nothing
    · rw [skipped]
      exact computedFrame_congr same since until_ item.2
    · rw [computedFrame_nil nothing other.2 item.2]
      exact computedFrame_congr same since until_ item.2
  · intro comparison _ same
    cases congrArg CacheDict.timeOffset same

theorem stored_of_comparison {comparison : Comparison Frame}
    (mem : comparison ∈ historyComparisons state history) {value : Frame}
    (computed : comparison.result state = .ok value) :
    Stored state history (comparison.key state) value := by
  constructor
  · intro item _ same
    cases congrArg CacheDict.timeOffset same
  · intro other otherMem same
    obtain ⟨offset, typed⟩ := orderly.comparisons other otherMem comparison mem same
    obtain ⟨_, _, otherOf⟩ := List.mem_flatMap.mp otherMem
    obtain ⟨_, _, comparisonOf⟩ := List.mem_flatMap.mp mem
    obtain ⟨clone, metrics⟩ := clone_eq_of_key otherOf comparisonOf same offset
    rw [← computed]
    exact result_eq_of_clone clone offset metrics typed

section
variable (mem : item ∈ historyQueries state history)
include mem

theorem computes_processOffset {frame : Frame} {bounds : String × String} {offset : String}
    (ran : state.query item.1.toQueryDict = .ok frame)
    (bounded : outerBounds state item.1 = .ok bounds)
    (asked : offset ∈ item.1.timeOffsets) :
    Computes (Stored state history) (processOffset state item.1 frame bounds offset)
      (offsetItem state item.1 frame bounds offset) := by
  refine computes_bind (computes_ofExcept _) fun shifted done => ?_
  have comparisonMem : ⟨item.1, frame, offset, shifted⟩ ∈ historyComparisons state history :=
    List.mem_flatMap.mpr ⟨item, mem, mem_comparisons ran bounded asked done⟩
  refine computes_bind (computes_cached (computes_ofExcept _) ?_ ?_) fun result _ => computes_pure _
  · exact fun value stored => stored.2 _ comparisonMem rfl
  · exact fun value computed => stored_of_comparison orderly comparisonMem computed

theorem computes_processingTimeOffsets {frame : Frame}
    (ran : state.query item.1.toQueryDict = .ok frame) :
    Computes (Stored state history) (processingTimeOffsets state item.1 frame)
      (comparedFrame state item.1 frame) := by
  unfold processingTimeOffsets comparedFrame
  split
  · exact computes_pure frame
  · refine computes_bind (computes_ofExcept _) fun bounds bounded => ?_
    refine computes_bind (computes_mapM _ _ _ fun offset asked => ?_) fun frames _ =>
      computes_ofExcept _
    exact computes_processOffset orderly mem ran bounded asked

theorem computes_computeFrame :
    Computes (Stored state history) (computeFrame state item.1 item.2)
      (computedFrame state item.1 item.2) := by
  refine computes_bind (computes_ofExcept _) fun frame ran => ?_
  refine computes_bind (computes_processingTimeOffsets orderly mem ran) fun compared _ => ?_
  exact computes_bind (computes_ofExcept _) fun processed _ => computes_ofExcept _

theorem computes_dfPayload :
    Computes (Stored state history) (dfPayload state item.1 item.2)
      (freshFrame state item.1 item.2) := by
  refine computes_recover _ (computes_cached (computes_computeFrame orderly mem) ?_ ?_)
  · exact fun value stored => stored.1 item mem rfl
  · exact fun value computed => stored_of_query orderly mem computed

end

end

theorem mem_historyQueries {request : Request} (asked : request ∈ history)
    {queries : List QueryObject}
    (ensured : ensureTotalsAvailable state request.queries = .ok queries) {query : QueryObject}
    (mem : query ∈ queries)
    (dispatched : dispatch state request.resultType query = .ok (some item)) :
    item ∈ historyQueries state history := by
  refine List.mem_flatMap.mpr ⟨request, asked, ?_⟩
  unfold frameQueries
  rw [ensured]
  exact List.mem_filterMap.mpr ⟨query, mem, by rw [dispatched]⟩

theorem computes_getPayload (orderly : Orderly state history) {request : Request}
    (asked : request ∈ history) :
    Computes (Stored state history) (getPayload state request) (freshPayload state request) := by
  refine computes_bind (computes_ofExcept _) fun queries ensured => ?_
  refine computes_mapM _ _ _ fun query mem => ?_
  refine computes_bind (computes_ofExcept _) fun item dispatched => ?_
  cases item with
  | none => exact computes_pure none
  | some item =>
    have itemMem := mem_historyQueries asked ensured mem dispatched
    exact computes_bind (computes_dfPayload orderly itemMem) fun frame _ => computes_pure _

end Soundness

def yearly : DataState (List String) where
  columnNames := ["ds"]
  rowLimit := 50000
  samplesRowLimit := 1000
  dateRangeTimeshifts := false
  validate := .ok
  extraCacheKeys _ := []
  query dict := .ok (["2022-05-01", "2023-05-01", "2024-05-01"].filter fun row =>
    (dict.fromDttm.all fun since => decide (since ≤ row)) && dict.toDttm.all fun until_ =>
      decide (row < until_))
  postProcess _ frame := .ok frame.reverse
  annotationData _ := .ok ()
  isEmpty := List.isEmpty
  emptyFrame := []
  unescape := id
  sums _ := .object []
  sinceUntil _ _ _ := .ok (none, none)
  pastOrFuture _ date :=
    .ok (if date = "2025-01-01" then "2024-01-01" else if date = "2024-01-01" then "2023-01-01" else
      "2022-01-01")
  shiftRange range _ := .ok range
  daysAgo offset _ _ := .ok offset
  isDate _ := false
  isDateRange _ := false
  baseAxisLabels _ := []
  temporalColumn := some "ds"
  isDatetimeSeries _ _ := true
  joinColumns _ _ := [("ds", "datetime64[ns]")]
  normalize _ frame := frame
  rename _ _ frame := frame
  placeholder _ _ _ := .ok ["NaT"]
  join frame frames _ _ := .ok (frame ++ frames.flatMap Prod.snd)
  str _ := "None"

def yearOverYear : Request where
  queries :=
    [{ columns := [.str "ds"], fromDttm := some "2024-01-01", toDttm := some "2025-01-01",
       timeOffsets := ["1 year ago"] }]

def windowOf (since until_ : String) : Request where
  queries := [{ columns := [.str "ds"], fromDttm := some since, toDttm := some until_ }]

def reversed (resultType : String) : Request where
  resultType := some resultType
  queries := [{ columns := [.str "ds"], postProcessing :=
    [[("operation", .str "sort"),
      ("options", .object [("ascending", .bool false), ("by", .str "ds")])]] }]

end Liteset.Charts
