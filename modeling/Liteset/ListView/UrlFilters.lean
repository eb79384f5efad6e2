import Mathlib.Data.List.Nodup
import Mathlib.Data.List.Perm.Basic
import Liteset.Lib.JsObject

/-!
# Filters of a list page in its URL

`convertFilters` sends the filters of a list page to the API.  The page also writes
their values to its URL, and `convertFiltersRison` makes filters of them when the page
is loaded again.
-/

set_option autoImplicit false

namespace Liteset.ListView.UrlFilters

open Lib List
open Lib.JsObject (Value)

structure FilterValue where
  id : String
  operator : Option String
  value : Value

structure Filter where
  id : String
  urlDisplay : Option String
  operator : Option String

/-- A filter of the page with its value; applying a value to a filter replaces this value. -/
structure InternalFilter extends Filter where
  value : Value

/-- `urlDisplay || id` -/
def urlName (filter : Filter) : String :=
  match filter.urlDisplay with
  | some urlDisplay => if urlDisplay ≠ "" then urlDisplay else filter.id
  | none => filter.id

/-- The filters of the API for one that is neither undefined nor an empty list. -/
def dataObjects (filter : InternalFilter) : List FilterValue :=
  match filter.operator, filter.value with
  -- a range is sent as two filters
  | some "between", some (.list values) =>
    [{ id := filter.id, operator := some "gt", value := values[0]? },
      { id := filter.id, operator := some "lt", value := values[1]? }]
  | operator, value => [{ id := filter.id, operator := operator, value := value }]

def convertFilters (fts : List InternalFilter) : List FilterValue :=
  (fts.filter fun f => !(f.value = none || f.value = some (.list []))).flatMap dataObjects

/-- The object of the URL, whose names are distinct.  Assigning to `__proto__` adds no key. -/
def filterObj (internalFilters : List InternalFilter) : List (String × Value) :=
  internalFilters.filterMap fun filter =>
    if filter.value ≠ none ∧ filter.value ≠ some (.str "") ∧
      urlName filter.toFilter ≠ "__proto__" then
      some (urlName filter.toFilter, filter.value)
    else none

def convertFiltersRison (filterObj : List (String × Value)) (list : List Filter) :
    List FilterValue :=
  filterObj.map fun (name, value) =>
    -- the last filter of this name sets the operator and the id
    match list.reverse.find? fun filter => urlName filter = name with
    | some filter => { id := filter.id, operator := filter.operator, value := value }
    | none => { id := name, operator := none, value := value }

/-- The filters of the page when it is loaded from the URL it wrote.  An empty object is
not written, and no filters are read then. -/
def reloaded (internalFilters : List InternalFilter) : List FilterValue :=
  convertFiltersRison (filterObj internalFilters) (internalFilters.map InternalFilter.toFilter)

section Parts
variable {α β κ : Type} [DecidableEq κ] {key : α → κ} {tag : β → κ} {first second : α → List β}

theorem filter_parts (tagged : ∀ a, ∀ b ∈ first a, tag b = key a) {a : α} {rest : List α}
    (fresh : key a ∉ rest.map key) :
    ((a :: rest).flatMap first).filter (fun b => tag b = key a) = first a := by
  have own : (first a).filter (fun b => tag b = key a) = first a :=
    filter_eq_self.mpr fun b member => decide_eq_true (tagged a b member)
  have others : (rest.flatMap first).filter (fun b => tag b = key a) = [] := by
    refine filter_eq_nil_iff.mpr fun b member same => ?_
    obtain ⟨other, isItem, isPart⟩ := mem_flatMap.mp member
    exact fresh (mem_map.mpr ⟨other, isItem,
      (tagged other b isPart).symm.trans (of_decide_eq_true same)⟩)
  rw [flatMap_cons, filter_append, own, others, append_nil]

/-- Lists put together from parts that their keys tell apart. -/
theorem perm_flatMap_iff (taggedFirst : ∀ a, ∀ b ∈ first a, tag b = key a)
    (taggedSecond : ∀ a, ∀ b ∈ second a, tag b = key a) {items : List α}
    (distinct : (items.map key).Nodup) :
    (items.flatMap first).Perm (items.flatMap second) ↔ ∀ a ∈ items, (first a).Perm (second a) := by
  induction items with
  | nil => simp
  | cons a rest ih =>
    obtain ⟨fresh, others⟩ := nodup_cons.mp distinct
    rw [forall_mem_cons, ← ih others]
    constructor
    · intro perm
      have part : (first a).Perm (second a) := by
        rw [← filter_parts taggedFirst fresh, ← filter_parts taggedSecond fresh]
        exact perm.filter _
      refine ⟨part, (perm_append_left_iff (first a)).mp (perm.trans ?_)⟩
      exact part.symm.append_right _
    · rintro ⟨part, rests⟩
      exact part.append rests

end Parts

/-- What is read back from the URL of one filter. -/
def writtenBack (filter : InternalFilter) : List FilterValue :=
  if filter.value ≠ none ∧ filter.value ≠ some (.str "") ∧
    urlName filter.toFilter ≠ "__proto__" then
    [{ id := filter.id, operator := filter.operator, value := filter.value }]
  else []

def sent (filter : InternalFilter) : List FilterValue :=
  if filter.value = none ∨ filter.value = some (.list []) then [] else dataObjects filter

theorem convertFilters_eq (fts : List InternalFilter) : convertFilters fts = fts.flatMap sent := by
  unfold convertFilters
  induction fts with
  | nil => rfl
  | cons f rest ih =>
    rw [flatMap_cons, ← ih, filter_cons, sent]
    by_cases dropped : f.value = none ∨ f.value = some (.list [])
    · rw [if_pos dropped, if_neg (by simpa [or_iff_not_imp_left] using dropped), nil_append]
    · rw [if_neg dropped, if_pos (by simpa using dropped), flatMap_cons]

theorem find_name {fts : List InternalFilter}
    (distinct : (fts.map fun f => urlName f.toFilter).Nodup)
    {f : InternalFilter} (member : f ∈ fts) :
    (fts.map InternalFilter.toFilter).reverse.find?
      (fun filter => urlName filter = urlName f.toFilter) =
      some f.toFilter := by
  have isFilter : f.toFilter ∈ (fts.map InternalFilter.toFilter).reverse :=
    mem_reverse.mpr (mem_map_of_mem member)
  have distinctNames : ((fts.map InternalFilter.toFilter).map urlName).Nodup := by
    rwa [map_map]
  cases found : (fts.map InternalFilter.toFilter).reverse.find? fun filter =>
      urlName filter = urlName f.toFilter with
  | none =>
    have differs := find?_eq_none.mp found _ isFilter
    simp at differs
  | some other =>
    have same : urlName other = urlName f.toFilter := by simpa using find?_some found
    rw [inj_on_of_nodup_map distinctNames (mem_reverse.mp (mem_of_find?_eq_some found))
      (mem_reverse.mp isFilter) same]

theorem reloaded_eq {fts : List InternalFilter}
    (distinct : (fts.map fun f => urlName f.toFilter).Nodup) :
    reloaded fts = fts.flatMap writtenBack := by
  rw [reloaded, convertFiltersRison, filterObj, map_filterMap, filterMap_eq_flatMap_toList]
  refine flatMap_congr fun f member => ?_
  unfold writtenBack
  split
  · simp only [Option.map_some, find_name distinct member]
    rfl
  · rfl

/-- Neither an empty text, nor an empty list (which only a filter called `__proto__` does
not write), nor a range. -/
structure Agrees (filter : InternalFilter) : Prop where
  notEmpty : filter.value ≠ some (.str "")
  list : filter.value ≠ none →
    (filter.value = some (.list []) ↔ urlName filter.toFilter = "__proto__")
  range : ∀ value values, filter.value = some (.list (value :: values)) →
    filter.operator ≠ some "between"

theorem dataObjects_plain {filter : InternalFilter}
    (plain : ∀ values, filter.value = some (.list values) → filter.operator ≠ some "between") :
    dataObjects filter =
      [{ id := filter.id, operator := filter.operator, value := filter.value }] := by
  unfold dataObjects
  split
  · next values isBetween isList => exact absurd isBetween (plain values isList)
  · rfl

theorem writtenBack_perm_iff (filter : InternalFilter) : (writtenBack filter).Perm (sent filter) ↔
    Agrees filter := by
  by_cases undefined : filter.value = none
  · have agrees : Agrees filter := ⟨by simp [undefined], absurd undefined, by simp [undefined]⟩
    simp [writtenBack, sent, undefined, agrees]
  by_cases emptyList : filter.value = some (.list [])
  · have agrees_iff : Agrees filter ↔ urlName filter.toFilter = "__proto__" :=
      ⟨fun agrees => (agrees.list undefined).mp emptyList,
        fun proto => ⟨by simp [emptyList], fun _ => iff_of_true emptyList proto,
          by simp [emptyList]⟩⟩
    rw [agrees_iff, sent, if_pos (.inr emptyList), perm_nil, writtenBack]
    simp [emptyList]
  rw [sent, if_neg (by simp [undefined, emptyList])]
  by_cases range : ∃ values, filter.value = some (.list values) ∧ filter.operator = some "between"
  · obtain ⟨values, isList, isBetween⟩ := range
    have twice : (dataObjects filter).length = 2 := by
      rw [dataObjects, isList, isBetween]
      rfl
    have atMostOnce : (writtenBack filter).length ≤ 1 := by
      unfold writtenBack
      split <;> simp
    refine iff_of_false (fun perm => ?_) fun agrees => ?_
    · have sameLength := perm.length_eq
      omega
    · cases values with
      | nil => exact emptyList isList
      | cons value values => exact agrees.range value values isList isBetween
  · have plain : ∀ values, filter.value = some (.list values) → filter.operator ≠ some "between" :=
      fun values isList isBetween => range ⟨values, isList, isBetween⟩
    have agrees_iff : Agrees filter ↔ filter.value ≠ some (.str "") ∧
      urlName filter.toFilter ≠ "__proto__" :=
      ⟨fun agrees => ⟨agrees.notEmpty, fun proto => emptyList ((agrees.list undefined).mpr proto)⟩,
        fun ⟨notEmpty, noProto⟩ => ⟨notEmpty, fun _ => iff_of_false emptyList noProto,
          fun value values isList => plain _ isList⟩⟩
    rw [agrees_iff, dataObjects_plain plain, writtenBack]
    split
    · next written => simp [written]
    · next dropped =>
      rw [nil_perm]
      refine iff_of_false (cons_ne_nil _ _) fun kept => dropped ⟨undefined, kept⟩

/-- The filters read back from the URL are those sent to the API, up to order, exactly
when both agree on every filter. -/
theorem reload_iff (fts : List InternalFilter) (distinctIds : (fts.map fun f => f.id).Nodup)
    (distinctNames : (fts.map fun f => urlName f.toFilter).Nodup) :
    (reloaded fts).Perm (convertFilters fts) ↔ ∀ filter ∈ fts, Agrees filter := by
  have tagged : ∀ f, ∀ b ∈ writtenBack f, b.id = f.id := by
    intro f b member
    unfold writtenBack at member
    split at member
    · rw [mem_singleton.mp member]
    · cases member
  have taggedSent : ∀ f, ∀ b ∈ sent f, b.id = f.id := by
    intro f b member
    unfold sent dataObjects at member
    split at member
    · cases member
    · split at member <;> grind
  rw [reloaded_eq distinctNames, convertFilters_eq, perm_flatMap_iff tagged taggedSent distinctIds]
  exact forall₂_congr fun f _ => writtenBack_perm_iff f

def withValue (id operator : String) (value : Value) : InternalFilter where
  id := id
  urlDisplay := none
  operator := some operator
  value := value

/-- A text, a selection under another name in the URL, a choice and a filter that is not set. -/
def chartFilters : List InternalFilter :=
  [withValue "slice_name" "chart_all_text" (JsObject.text "sales"),
    { withValue "owners" "rel_m_m" (some (.list [.int 1, .int 5])) with
      urlDisplay := some "owner" }, withValue "id" "chart_is_favorite" (some (.bool false)),
    withValue "viz_type" "eq" none]

theorem reload_iff_charts : (reloaded chartFilters).Perm (convertFilters chartFilters) := by
  refine (reload_iff chartFilters (by decide) (by decide)).mpr ?_
  simp only [chartFilters, forall_mem_cons, not_mem_nil, false_imp_iff, implies_true, and_true]
  exact ⟨⟨by decide, fun _ => by decide, nofun⟩,
    ⟨by decide, fun _ => by decide, fun _ _ _ => by decide⟩,
    ⟨by decide, fun _ => by decide, nofun⟩, ⟨by decide, fun set => absurd rfl set, nofun⟩⟩

/-- An empty text is sent to the API and not written; a range is sent as two filters. -/
theorem empty_and_range_differ :
    ¬(reloaded [withValue "name" "ct" (JsObject.text "")]).Perm
      (convertFilters [withValue "name" "ct" (JsObject.text "")])
    ∧ ¬(reloaded [withValue "age" "between" (some (.list [.int 1, .int 5]))]).Perm
      (convertFilters [withValue "age" "between" (some (.list [.int 1, .int 5]))]) :=
  ⟨fun perm => absurd perm.length_eq (by decide), fun perm => absurd perm.length_eq (by decide)⟩

end Liteset.ListView.UrlFilters
