import Liteset.Lib.Memo
import Liteset.Dashboard.ActiveFilters

/-!
# The form data of a chart with its extra filters

`getFormDataWithExtraFilters` keeps, for each slice, the filters object and the form
data of its last computation, and returns the latter while the inputs it compares are
those of that computation.
-/

set_option autoImplicit false

namespace Liteset.Dashboard.FormDataCache

open Lib
open Lib.JsObject (Record Value Object)
open ActiveFilters (ActiveFilter)

def sorted (members : List (String × Json)) : Json :=
  .object (members.insertionSort fun a b => a.1 ≤ b.1)

/-- `Object.entries(record)` -/
def entries {α : Type} (record : Record α) : List (String × α) :=
  (Record.enumerate record.keys).filterMap fun key => (record.entry key).map fun value =>
    (key, value)

def valueOf (record : Record Json) : Json := sorted (entries record)

/-- `value.key` -/
def property (value : Value) (key : String) : Value :=
  match value with
  | some (.object members) => members.lookup key
  | _ => JsObject.undefined

/-- `[...value]`, or nothing where the value is not iterable. -/
def spreadItems : Value → List Json
  | some (.list items) => items
  | some (.str text) => text.toList.map fun c => .str (String.singleton c)
  | _ => []

def indexed (items : List Json) : List (String × Json) :=
  items.zipIdx.map fun item => (toString item.2, item.1)

/-- `omitBy(value, i => i === undefined)` of lodash, which makes an object of a text or a
list and an empty one of everything that has no members. -/
def omitUndefined (value : Value) : Json :=
  match value with
  | some (.object members) => .object members
  | some (.list _) | some (.str _) => sorted (indexed (spreadItems value))
  | _ => .object []

/-- `areObjectsEqual(first, second, { ignoreUndefined: true })` -/
def EqualIgnoringUndefined (first second : Value) : Prop :=
  omitUndefined first = omitUndefined second

instance (first second : Value) : Decidable (EqualIgnoringUndefined first second) :=
  inferInstanceAs (Decidable (omitUndefined first = omitUndefined second))

structure DataMask extends ActiveFilters.DataMaskItem where
  others : List (String × Json)

def DataMask.value (mask : DataMask) : Json :=
  sorted (("id", .str mask.id) :: (mask.extraFormData.map fun value =>
    ("extraFormData", value)).toList ++ mask.others)

/-- `DataRecordFilters`; the number tells one object from another. -/
structure Filters where
  identity : Nat
  columns : Record Json

structure Chart where
  id : Int
  /-- Empty where the chart has none. -/
  formData : Object

structure Arguments where
  chart : Chart
  filters : Filters
  nativeFilters : String → Option ActiveFilters.NativeFilter
  crossFilterScope : Option Int → Option (List Int)
  colorScheme : Value
  ownColorScheme : Value
  colorNamespace : Value
  sliceId : Int
  dataMask : Record DataMask
  extraControls : Record Json
  labelsColor : Value
  labelsColorMap : Value
  sharedLabelsColors : Value
  allSliceIds : Option (List Int)
  passedActiveFilters : Option (Record ActiveFilter)

/-- `EXTRA_FORM_DATA_APPEND_KEYS` -/
def appendKeys : List String :=
  ["adhoc_filters", "filters", "interactive_groupby", "interactive_highlight",
    "interactive_drilldown", "custom_form_data"]

/-- `EXTRA_FORM_DATA_OVERRIDE_KEYS` -/
def overrideKeys : List String :=
  ["granularity", "granularity_sqla", "time_column", "time_grain", "time_range", "time_compare",
    "relative_start", "relative_end", "time_grain_sqla"]

def mergedProperty (originalExtra newExtra : Json) (key : String) : Value :=
  let originalValue := property (some originalExtra) key
  let newValue := property (some newExtra) key
  if key ∈ appendKeys then
    match spreadItems originalValue ++ spreadItems newValue with
    | [] => JsObject.undefined
    | mergedValues => some (.list mergedValues)
  else newValue.or originalValue

def mergeExtraFormData (originalExtra newExtra : Json) : Json :=
  sorted ((appendKeys ++ overrideKeys).filterMap fun key =>
    (mergedProperty originalExtra newExtra key).map fun value => (key, value))

/-- `dataMask[key]?.extraFormData ?? {}` -/
def extraFormDataOf (dataMask : Record DataMask) (filterId : String) : Json :=
  ((JsObject.nullish ((dataMask.entry filterId).bind fun mask => mask.extraFormData)
    (some (.object [])))).getD
    (.object [])

def getExtraFormData (dataMask : Record DataMask) (filterIds : List String) : Json :=
  filterIds.foldl
    (fun extraFormData filterId =>
      mergeExtraFormData extraFormData (extraFormDataOf dataMask filterId))
    (.object [])

def createFilterDataMapping (dataMask : Record DataMask) (filterIds : List String) : Json :=
  sorted (filterIds.filterMap fun filterId =>
    match property (some (getExtraFormData dataMask [filterId])) "filters" with
    | some (.list (filter :: filters)) => some (filterId, .list (filter :: filters))
    | _ => none)

def getEffectiveExtraFilters (filters : Filters) : Json :=
  .list (((entries filters.columns).filter fun column => column.2 ≠ .null).map fun column =>
    let op := match column.2 with
      | .list _ => "IN"
      | _ => "=="
    .object [("col", .str column.1), ("op", .str op), ("val", column.2)])

section Computation
variable (args : Arguments)

def activeFilters : Record ActiveFilter :=
  args.passedActiveFilters.getD (ActiveFilters.getAllActiveFilters
    { crossFilterScope := args.crossFilterScope
      dataMask := args.dataMask.values.map DataMask.toDataMaskItem
      nativeFilters := args.nativeFilters
      allSliceIds := args.allSliceIds })

def filterIdsAppliedOnChart : List String :=
  ((entries (activeFilters args)).filter fun filter => args.chart.id ∈ filter.2.scope).map Prod.fst

/-- `isDeckMultiChart || hasLayerScopeInActiveFilters` -/
def HasLayers : Prop :=
  JsObject.get args.chart.formData "viz_type" = JsObject.text "deck_multi"
    ∨ (((args.passedActiveFilters.map Record.values).getD []).any fun filter =>
      filter.layerScope.isSome) = true

instance : Decidable (HasLayers args) := inferInstanceAs (Decidable (_ ∨ _))

def extraData : Object :=
  let filterIds := filterIdsAppliedOnChart args
  if filterIds = [] then JsObject.empty
  else JsObject.spread
    (JsObject.single "extra_form_data" (some (getExtraFormData args.dataMask filterIds)))
    (JsObject.spreadIf (HasLayers args)
      (JsObject.single "filter_data_mapping"
        (some (createFilterDataMapping args.dataMask filterIds))))

def layerFilterScope : List (String × Json) :=
  if HasLayers args then
    (entries (activeFilters args)).filterMap fun filter =>
      (filter.2.layerScope.bind fun layers => layers.lookup args.chart.id).map fun layers =>
        (filter.1, .list (layers.map Json.int))
  else []

def formData : Object :=
  [JsObject.ofList
      [("chart_id", JsObject.number args.chart.id), ("label_colors", args.labelsColor),
        ("shared_label_colors", args.sharedLabelsColors),
        ("map_label_colors", args.labelsColorMap)],
    JsObject.spreadIf (JsObject.truthy args.colorScheme)
      (JsObject.single "color_scheme" args.colorScheme),
    JsObject.spreadIf (JsObject.truthy args.ownColorScheme)
      (JsObject.single "own_color_scheme" args.ownColorScheme),
    JsObject.single "extra_filters" (some (getEffectiveExtraFilters args.filters)),
    extraData args,
    fun key => (args.extraControls.entry key).map some,
    JsObject.spreadIf (layerFilterScope args ≠ [])
      (JsObject.single "layer_filter_scope" (some (sorted (layerFilterScope args))))].foldl
    JsObject.spread args.chart.formData

def stored : Object :=
  JsObject.ofList
    [("dataMask", some (sorted ((entries args.dataMask).map fun mask => (mask.1, mask.2.value)))),
      ("extraControls", some (valueOf args.extraControls))]

end Computation

structure Caches where
  cachedFiltersByChart : Int → Option Filters
  cachedFormdataByChart : Int → Option Object

structure Unchanged (cachedFilters : Filters) (cachedFormData : Object) (args : Arguments) :
    Prop where
  filters : cachedFilters.identity = args.filters.identity
  ownColorScheme : JsObject.get cachedFormData "own_color_scheme" = args.ownColorScheme
  colorScheme : JsObject.get cachedFormData "color_scheme" = args.colorScheme
  colorNamespace :
    EqualIgnoringUndefined (JsObject.get cachedFormData "color_namespace") args.colorNamespace
  labelsColor : EqualIgnoringUndefined (JsObject.get cachedFormData "label_colors") args.labelsColor
  labelsColorMap :
    EqualIgnoringUndefined (JsObject.get cachedFormData "map_label_colors") args.labelsColorMap
  sharedLabelsColors : JsObject.get cachedFormData "shared_label_colors" = args.sharedLabelsColors
  dataMask : EqualIgnoringUndefined (JsObject.get cachedFormData "dataMask")
    (JsObject.get (stored args) "dataMask")
  extraControls :
    EqualIgnoringUndefined (JsObject.get cachedFormData "extraControls")
      (JsObject.get (stored args) "extraControls")

instance (cachedFilters : Filters) (cachedFormData : Object) (args : Arguments) :
    Decidable (Unchanged cachedFilters cachedFormData args) :=
  decidable_of_iff
    (cachedFilters.identity = args.filters.identity ∧
      JsObject.get cachedFormData "own_color_scheme" = args.ownColorScheme ∧
      JsObject.get cachedFormData "color_scheme" = args.colorScheme ∧
      EqualIgnoringUndefined (JsObject.get cachedFormData "color_namespace") args.colorNamespace ∧
      EqualIgnoringUndefined (JsObject.get cachedFormData "label_colors") args.labelsColor ∧
      EqualIgnoringUndefined (JsObject.get cachedFormData "map_label_colors") args.labelsColorMap ∧
      JsObject.get cachedFormData "shared_label_colors" = args.sharedLabelsColors ∧
      EqualIgnoringUndefined (JsObject.get cachedFormData "dataMask")
        (JsObject.get (stored args) "dataMask") ∧
      EqualIgnoringUndefined (JsObject.get cachedFormData "extraControls")
        (JsObject.get (stored args) "extraControls"))
    ⟨fun ⟨a, b, c, d, e, f, g, h, i⟩ => ⟨a, b, c, d, e, f, g, h, i⟩,
      fun ⟨a, b, c, d, e, f, g, h, i⟩ => ⟨a, b, c, d, e, f, g, h, i⟩⟩

def cachedFormDataFor (caches : Caches) (args : Arguments) : Option Object :=
  match caches.cachedFiltersByChart args.sliceId, caches.cachedFormdataByChart args.sliceId with
  | some filters, some cachedFormData =>
    if Unchanged filters cachedFormData args then some cachedFormData else none
  | _, _ => none

def getFormDataWithExtraFilters (caches : Caches) (args : Arguments) : Caches × Object :=
  match cachedFormDataFor caches args with
  | some cachedFormData => (caches, cachedFormData)
  | none =>
    ({ cachedFiltersByChart :=
         Function.update caches.cachedFiltersByChart args.sliceId (some args.filters)
       cachedFormdataByChart := Function.update caches.cachedFormdataByChart args.sliceId
         (some (JsObject.spread (formData args) (stored args))) },
      formData args)

def results (caches : Caches) : List Arguments → List Object
  | [] => []
  | args :: rest =>
    let (caches, result) := getFormDataWithExtraFilters caches args
    result :: results caches rest

def noCaches : Caches where
  cachedFiltersByChart := fun _ => none
  cachedFormdataByChart := fun _ => none

def entryOf (args : Arguments) : Object := JsObject.spread (formData args) (stored args)

def memo : Memo Arguments Int Object where
  key := Arguments.sliceId
  hits earlier asked := Unchanged earlier.filters (entryOf earlier) asked
  served earlier _ := entryOf earlier
  compute := formData

instance (earlier asked : Arguments) : Decidable (memo.hits earlier asked) :=
  inferInstanceAs (Decidable (Unchanged earlier.filters (entryOf earlier) asked))

/-- The caches hold what the calls of the memo's cache left there. -/
structure Holds (caches : Caches) (cache : Int → Option Arguments) : Prop where
  filters : ∀ sliceId, caches.cachedFiltersByChart sliceId = (cache sliceId).map Arguments.filters
  formdata : ∀ sliceId, caches.cachedFormdataByChart sliceId = (cache sliceId).map entryOf

section
variable {caches : Caches} {cache : Int → Option Arguments}

theorem Holds.cachedFormDataFor (holds : Holds caches cache) (args : Arguments) :
    cachedFormDataFor caches args = (memo.answering cache args).map entryOf := by
  unfold FormDataCache.cachedFormDataFor Memo.answering
  rw [holds.filters, holds.formdata]
  change _ = ((cache args.sliceId).filter _).map entryOf
  cases cache args.sliceId with
  | none => rfl
  | some earlier =>
    by_cases unchanged : Unchanged earlier.filters (entryOf earlier) args
    · have hit : memo.hits earlier args := unchanged
      simp [unchanged, hit]
    · have miss : ¬memo.hits earlier args := unchanged
      simp [unchanged, miss]

theorem Holds.call (holds : Holds caches cache) (args : Arguments) :
    Holds (getFormDataWithExtraFilters caches args).1 (memo.after cache args)
      ∧ (getFormDataWithExtraFilters caches args).2 = memo.answer cache args := by
  have found := holds.cachedFormDataFor args
  unfold getFormDataWithExtraFilters Memo.after Memo.answer
  rw [found]
  cases memo.answering cache args with
  | some earlier => exact ⟨holds, rfl⟩
  | none =>
    refine ⟨⟨fun sliceId => ?_, fun sliceId => ?_⟩, rfl⟩
    · by_cases own : sliceId = args.sliceId
      · subst own
        simp [memo]
      · simp [memo, own, holds.filters]
    · by_cases own : sliceId = args.sliceId
      · subst own
        simp [memo, entryOf]
      · simp [memo, own, holds.formdata]

theorem Holds.results {history : List Arguments} :
    ∀ {caches : Caches} {cache : Int → Option Arguments}, Holds caches cache →
      results caches history = memo.answers cache history := by
  induction history with
  | nil => exact fun _ => rfl
  | cons args rest ih =>
    intro caches cache holds
    obtain ⟨after, answer⟩ := holds.call args
    rw [Memo.answers, ← answer, ← ih after]
    rfl

theorem holds_noCaches : Holds noCaches fun _ => none where
  filters _ := rfl
  formdata _ := rfl

end

/-- The inputs that the computation reads are the same. -/
def SameInputs (earlier asked : Arguments) : Prop :=
  { earlier with colorNamespace := asked.colorNamespace } = asked

/-- The chart or the extra controls have the members that are put beside the form data,
with the same values. -/
def Carries (args : Arguments) : Prop :=
  ∀ key ∈ ["dataMask", "extraControls"],
    JsObject.spread args.chart.formData (fun key => (args.extraControls.entry key).map some) key =
      stored args key

theorem formData_of_sameInputs {earlier asked : Arguments} (same : SameInputs earlier asked) :
    formData earlier = formData asked ∧ stored earlier = stored asked := by
  rw [← same]
  exact ⟨rfl, rfl⟩

theorem spreadIf_lacks {condition : Prop} [Decidable condition] {key other : String} {value : Value}
    (apart : other ≠ key) :
    ¬JsObject.Has (JsObject.spreadIf condition (JsObject.single key value)) other := by
  unfold JsObject.spreadIf
  split
  · exact fun has => apart (JsObject.has_single_iff.mp has)
  · exact JsObject.not_has_empty

theorem extraData_lacks (args : Arguments) {key : String} (apart : key ≠ "extra_form_data")
    (other : key ≠ "filter_data_mapping") : ¬JsObject.Has (extraData args) key := by
  unfold extraData
  dsimp only
  split
  · exact JsObject.not_has_empty
  · rw [JsObject.has_spread_iff, not_or]
    exact ⟨spreadIf_lacks other, fun has => apart (JsObject.has_single_iff.mp has)⟩

theorem spread_skip {first second third : Object} {key : String}
    (lacks : ¬JsObject.Has second key) :
    JsObject.spread (JsObject.spread first second) third key = JsObject.spread first third key := by
  have skipped : JsObject.spread first second key = first key := JsObject.spread_of_not_has lacks
  simp only [JsObject.spread] at skipped ⊢
  rw [skipped]

theorem formData_stored_key (args : Arguments) {key : String}
    (member : key ∈ ["dataMask", "extraControls"]) :
    formData args key =
      JsObject.spread args.chart.formData (fun key => (args.extraControls.entry key).map some)
        key := by
  have apart : ∀ name ∉ ["dataMask", "extraControls"], key ≠ name := by
    rintro name other rfl
    exact other member
  have lacksColors : ¬JsObject.Has (JsObject.ofList
      [("chart_id", JsObject.number args.chart.id), ("label_colors", args.labelsColor),
        ("shared_label_colors", args.sharedLabelsColors),
        ("map_label_colors", args.labelsColorMap)]) key := by
    rw [JsObject.has_ofList_iff]
    simp only [List.map_cons, List.map_nil, List.mem_cons, List.not_mem_nil, or_false, not_or]
    exact ⟨apart _ (by decide), apart _ (by decide), apart _ (by decide), apart _ (by decide)⟩
  simp only [formData, List.foldl_cons, List.foldl_nil]
  rw [JsObject.spread_of_not_has (spreadIf_lacks (apart _ (by decide))),
    spread_skip (extraData_lacks args (apart _ (by decide)) (apart _ (by decide))),
    spread_skip fun has => apart _ (by decide) (JsObject.has_single_iff.mp has),
    spread_skip (spreadIf_lacks (apart _ (by decide))),
    spread_skip (spreadIf_lacks (apart _ (by decide))),
    spread_skip lacksColors]

theorem has_stored_iff (args : Arguments) {key : String} :
    JsObject.Has (stored args) key ↔ key ∈ ["dataMask", "extraControls"] := JsObject.has_ofList_iff

/-- An entry of a call with the same inputs may answer when the form data carries what
was put beside it. -/
theorem served_eq_iff {earlier asked : Arguments} (same : SameInputs earlier asked) :
    memo.served earlier asked = memo.compute asked ↔ Carries asked := by
  obtain ⟨formed, put⟩ := formData_of_sameInputs same
  change JsObject.spread (formData earlier) (stored earlier) = formData asked ↔ _
  rw [formed, put]
  constructor
  · intro equal key member
    rw [← formData_stored_key asked member, ← equal]
    exact JsObject.spread_of_has ((has_stored_iff asked).mpr member)
  · intro carries
    funext key
    by_cases member : key ∈ ["dataMask", "extraControls"]
    · rw [JsObject.spread_of_has ((has_stored_iff asked).mpr member),
        formData_stored_key asked member, carries key member]
    · exact JsObject.spread_of_not_has fun has => member ((has_stored_iff asked).mp has)

/-- A history in which an entry answers only calls with the inputs it was stored for,
whose form data carries what was put beside it, is answered as if there were no cache. -/
theorem transparent_of_each (history : List Arguments)
    (answered : memo.Each (fun earlier asked => SameInputs earlier asked ∧ Carries asked)
      (fun _ => none) history) :
    results noCaches history = history.map formData := by
  rw [holds_noCaches.results]
  apply Memo.answers_eq_iff.mpr
  exact answered.mono fun earlier asked _ both => (served_eq_iff both.1).mpr both.2

/-- A call on chart 1 with one native filter; `identity` tells its filters object. -/
def call (identity : Nat) (chartsInScope : List Int) : Arguments where
  chart := { id := 1, formData := JsObject.empty }
  filters := { identity := identity, columns := Record.empty }
  nativeFilters filterId :=
    if filterId = "NATIVE_FILTER-a" then
      some { chartsInScope := some chartsInScope, filterType := none, targets := none,
             scope := none }
    else none
  crossFilterScope _ := none
  colorScheme := JsObject.undefined
  ownColorScheme := JsObject.undefined
  colorNamespace := JsObject.undefined
  sliceId := 1
  dataMask := Record.empty.set "NATIVE_FILTER-a"
    { id := "NATIVE_FILTER-a"
      extraFormData := some (.object [("time_range", .str "Last week")])
      others := [] }
  extraControls := Record.empty
  labelsColor := JsObject.undefined
  labelsColorMap := JsObject.undefined
  sharedLabelsColors := JsObject.undefined
  allSliceIds := some [1]
  passedActiveFilters := none

/-- A call whose chart's form data carries the members that are put beside it. -/
def carrying (identity : Nat) : Arguments :=
  { call identity [1] with chart := { id := 1, formData := stored (call identity [1]) } }

theorem carrying_hits :
    memo.Answers (memo.after (fun _ => none) (carrying 0)) (carrying 0) (carrying 0) :=
  ⟨rfl, by decide⟩

/-- The repeated call is answered from the cache; the last one, with another filters object,
is computed. -/
theorem transparent_repeated :
    memo.answering (memo.after (fun _ => none) (carrying 0)) (carrying 0) = some (carrying 0) ∧
      results noCaches [carrying 0, carrying 0, call 1 [1]] =
        [carrying 0, carrying 0, call 1 [1]].map formData := by
  refine ⟨Memo.answering_eq_some_iff.mpr carrying_hits,
    transparent_of_each _
      ⟨fun _ found => (nomatch found), fun earlier found => ?_, fun earlier found => ?_, trivial⟩⟩
  · obtain rfl : carrying 0 = earlier := Option.some.inj (Memo.answering_eq_some_iff.mp found).1
    refine ⟨rfl, fun key member => ?_⟩
    exact JsObject.spread_of_not_has fun has => nomatch has
  · rw [Memo.after_of_answers carrying_hits] at found
    obtain ⟨stored, hit⟩ := Memo.answering_eq_some_iff.mp found
    obtain rfl : carrying 0 = earlier := Option.some.inj stored
    exact absurd hit.filters (by decide)

def extraFormData (returned : List Object) : List (Option Value) :=
  returned.map fun result => result "extra_form_data"

/-- With another scope of the native filter the second call gets the form data of the first; one
that is merely repeated gets two members too many. -/
theorem scope_change_missed :
    results noCaches [call 0 [], call 0 [1]] ≠ [call 0 [], call 0 [1]].map formData
      ∧ extraFormData (results noCaches [call 0 [], call 0 [1]]) = [none, none]
      ∧ extraFormData ([call 0 [], call 0 [1]].map formData) =
        [none, some (some (.object [("time_range", .str "Last week")]))]
      ∧ results noCaches [call 0 [1], call 0 [1]] ≠ [call 0 [1], call 0 [1]].map formData := by
  have returned :
    extraFormData (results noCaches [call 0 [], call 0 [1]]) = [none, none] := by decide
  have computed : extraFormData ([call 0 [], call 0 [1]].map formData) =
      [none, some (some (.object [("time_range", .str "Last week")]))] := by decide
  have masks : (results noCaches [call 0 [1], call 0 [1]]).map
    (fun result => (result "dataMask").isSome) ≠
      ([call 0 [1], call 0 [1]].map formData).map fun result =>
        (result "dataMask").isSome := by decide
  refine ⟨fun same => ?_, returned, computed, fun same => masks (by rw [same])⟩
  rw [same, computed] at returned
  exact absurd returned (by decide)

end Liteset.Dashboard.FormDataCache
