import Mathlib.Data.List.Nodup
import Mathlib.Data.Option.Basic
import Liteset.Lib.Json

/-!
# Saving native filters

`UpdateDashboardFiltersCommand` merges what one client deleted, modified and
reordered into the filters stored with the dashboard.  The merge loses nothing; the
reordering keeps the filters that the order names.
-/

set_option autoImplicit false

namespace Liteset.Dashboard.FilterUpdates

open Lib List

def legacyKey : String := "show_native_filters"

/-- `id` is `none` where the object has no such key; `members` are its other keys. -/
structure FilterConfig where
  id : Option String
  members : List (String × Json)
deriving DecidableEq

def FilterConfig.HasLegacyKey (config : FilterConfig) : Prop :=
  ∃ m ∈ config.members, m.1 = legacyKey

instance (config : FilterConfig) : Decidable config.HasLegacyKey :=
  inferInstanceAs (Decidable (∃ m ∈ config.members, m.1 = legacyKey))

/-- `filter_conf.pop("show_native_filters", None)` -/
def FilterConfig.popLegacyKey (config : FilterConfig) : FilterConfig :=
  { config with members := config.members.filter fun m => m.1 ≠ legacyKey }

structure FiltersUpdate where
  deleted : List String
  modified : List FilterConfig
  reordered : List String

structure Metadata where
  nativeFilterConfiguration : Option (List FilterConfig)
  others : List (String × Json)

structure KeyError where
  key : String
deriving DecidableEq, Repr

def ids (configs : List FilterConfig) : List (Option String) := configs.map FilterConfig.id

/-- One turn of the first loop of `_apply_filter_updates`. -/
def updateExisting (deleted : List String) (modified : List FilterConfig) (conf : FilterConfig) :
    Option FilterConfig :=
  if conf.id ∈ deleted.map some then none
  else some ((modified.find? fun f => f.id = conf.id).getD conf)

def appendNew (state : List FilterConfig × List (Option String)) (newFilter : FilterConfig) :
    List FilterConfig × List (Option String) :=
  if newFilter.id ∈ ids state.1 then state
  else
    (state.1 ++ [newFilter],
      if state.2 ≠ [] ∧ newFilter.id ∉ state.2 then state.2 ++ [newFilter.id] else state.2)

def applyFilterUpdates (nativeFilterConfiguration : List FilterConfig) (deleted : List String)
    (modified : List FilterConfig) (reorderedFilterIds : List (Option String)) :
    List FilterConfig × List (Option String) :=
  modified.foldl appendNew
    (nativeFilterConfiguration.filterMap (updateExisting deleted modified), reorderedFilterIds)

/-- `filter_map.get(filter_id)`: the last filter of an id is the one in the map. -/
def filterMapGet (configs : List FilterConfig) (id : Option String) : Option FilterConfig :=
  configs.reverse.find? fun f => f.id = id

def reorder (updatedConfiguration : List FilterConfig) (reorderedFilterIds : List (Option String)) :
    Except KeyError (List FilterConfig) :=
  if reorderedFilterIds = [] then .ok updatedConfiguration
  else if none ∈ ids updatedConfiguration then .error ⟨"id"⟩
  else .ok (reorderedFilterIds.filterMap (filterMapGet updatedConfiguration))

def reorderAndCleanFilters (updatedConfiguration : List FilterConfig)
    (reorderedFilterIds : List (Option String)) : Except KeyError (List FilterConfig) := do
  let updatedConfiguration ← reorder updatedConfiguration reorderedFilterIds
  return updatedConfiguration.map FilterConfig.popLegacyKey

def run (metadata : Metadata) (data : FiltersUpdate) :
    Except KeyError (List FilterConfig × Metadata) := do
  let merged := applyFilterUpdates (metadata.nativeFilterConfiguration.getD []) data.deleted
    data.modified (data.reordered.map some)
  let updatedConfiguration ← reorderAndCleanFilters merged.1 merged.2
  return (updatedConfiguration,
    { nativeFilterConfiguration := some updatedConfiguration
      others := metadata.others.filter fun m => m.1 ≠ legacyKey })

/-- Every filter has an id, and no two have the same. -/
structure DistinctIds (configs : List FilterConfig) : Prop where
  named : none ∉ ids configs
  distinct : (ids configs).Nodup

instance (configs : List FilterConfig) : Decidable (DistinctIds configs) :=
  decidable_of_iff (none ∉ ids configs ∧ (ids configs).Nodup)
    ⟨fun both => ⟨both.1, both.2⟩, fun h => ⟨h.named, h.distinct⟩⟩

def Stays (deleted : List String) (config : FilterConfig) : Prop := config.id ∉ deleted.map some

instance (deleted : List String) (config : FilterConfig) : Decidable (Stays deleted config) :=
  inferInstanceAs (Decidable (config.id ∉ deleted.map some))

def Remains (stored : List FilterConfig) (data : FiltersUpdate) (id : Option String) : Prop :=
  id ∈ ids stored ∧ id ∉ data.deleted.map some ∨ id ∈ ids data.modified

instance (stored : List FilterConfig) (data : FiltersUpdate) (id : Option String) :
    Decidable (Remains stored data id) :=
  inferInstanceAs
    (Decidable (id ∈ ids stored ∧ id ∉ data.deleted.map some ∨ id ∈ ids data.modified))

structure LosesNothing (stored : List FilterConfig) (data : FiltersUpdate)
    (result : List FilterConfig) :
    Prop where
  distinct : (ids result).Nodup
  exactly : ∀ id, id ∈ ids result ↔ Remains stored data id
  survivors : ∀ c ∈ stored, Stays data.deleted c → c.id ∉ ids data.modified → c ∈ result
  modified : ∀ c ∈ data.modified, c ∈ result

/-- No order is given, or it lists every stored filter that stays, and no filter twice. -/
def ListsAll (stored : List FilterConfig) (data : FiltersUpdate) : Prop :=
  data.reordered = [] ∨
    (∀ c ∈ stored, Stays data.deleted c → c.id ∈ data.reordered.map some)
      ∧ (data.reordered.filter fun id => decide (Remains stored data (some id))).Nodup

/-- No filter of the result comes with the legacy key. -/
def WithoutLegacyKey (stored : List FilterConfig) (data : FiltersUpdate) : Prop :=
  (∀ c ∈ data.modified, ¬c.HasLegacyKey)
    ∧ ∀ c ∈ stored, Stays data.deleted c → c.id ∉ ids data.modified → ¬c.HasLegacyKey

section Merge
variable {stored modified configs : List FilterConfig} {deleted : List String} {c : FilterConfig}

theorem mem_ids (member : c ∈ configs) : c.id ∈ ids configs :=
  mem_map_of_mem member

theorem ids_append (first second : List FilterConfig) :
    ids (first ++ second) = ids first ++ ids second :=
  map_append

theorem filter_unique (distinct : (ids configs).Nodup) {c d : FilterConfig} (inC : c ∈ configs)
    (inD : d ∈ configs) (same : c.id = d.id) : c = d :=
  inj_on_of_nodup_map distinct inC inD same

theorem find?_id (distinct : (ids configs).Nodup) (member : c ∈ configs) :
    (configs.find? fun f => f.id = c.id) = some c := by
  cases found : configs.find? fun f => f.id = c.id with
  | none =>
    have absent := find?_eq_none.mp found c member
    simp at absent
  | some d =>
    have same : d.id = c.id := by simpa using find?_some found
    rw [filter_unique distinct (mem_of_find?_eq_some found) member same]

theorem getD_find?_id (id : Option String) (conf : FilterConfig) (same : conf.id = id) :
    ((modified.find? fun f => f.id = id).getD conf).id = id := by
  cases found : modified.find? fun f => f.id = id with
  | none => exact same
  | some d => simpa using find?_some found

theorem ids_existing (stored : List FilterConfig) :
    ids (stored.filterMap (updateExisting deleted modified)) =
      (ids stored).filter fun id => decide (id ∉ deleted.map some) := by
  induction stored with
  | nil => rfl
  | cons conf rest ih =>
    by_cases gone : conf.id ∈ deleted.map some
    · rw [filterMap_cons_none (by rw [updateExisting, if_pos gone]), ih]
      exact (filter_cons_of_neg (by simpa using gone)).symm
    · rw [filterMap_cons_some (by rw [updateExisting, if_neg gone])]
      change _ :: ids _ = (conf.id :: ids rest).filter _
      rw [filter_cons_of_pos (by simpa using gone), ih, getD_find?_id conf.id conf rfl]

def newFilters (existing modified : List FilterConfig) : List FilterConfig :=
  modified.filter fun f => decide (f.id ∉ ids existing)

def addedIds (existing modified : List FilterConfig) (order : List (Option String)) :
    List (Option String) :=
  (ids (newFilters existing modified)).filter fun id => decide (id ∉ order)

theorem newFilters_append {f : FilterConfig} (existing : List FilterConfig)
    (absent : f.id ∉ ids modified) :
    newFilters (existing ++ [f]) modified = newFilters existing modified := by
  unfold newFilters
  refine filter_congr fun g member => ?_
  have other : g.id ≠ f.id := fun same => absent (same ▸ mem_ids member)
  simp [ids, other]

theorem foldl_appendNew (modified : List FilterConfig) :
    ∀ (existing : List FilterConfig) (order : List (Option String)), (ids modified).Nodup →
      modified.foldl appendNew (existing, order) =
        (existing ++ newFilters existing modified,
          if order = [] then [] else order ++ addedIds existing modified order) := by
  induction modified with
  | nil =>
    intro existing order _
    by_cases empty : order = []
    · simp [newFilters, empty]
    · simp [newFilters, addedIds, ids, empty]
  | cons f rest ih =>
    intro existing order distinct
    obtain ⟨fresh, distinct⟩ := nodup_cons.mp distinct
    rw [foldl_cons]
    by_cases present : f.id ∈ ids existing
    · have same : newFilters existing (f :: rest) = newFilters existing rest :=
        filter_cons_of_neg (by simpa using present)
      rw [appendNew, if_pos present, ih existing order distinct, addedIds, addedIds, same]
    · have added : newFilters existing (f :: rest) = f :: newFilters existing rest :=
        filter_cons_of_pos (by simpa using present)
      rw [appendNew, if_neg present, ih _ _ distinct, newFilters_append existing fresh, added]
      refine Prod.ext (by simp) ?_
      by_cases empty : order = []
      · simp [empty]
      · have step : addedIds existing (f :: rest) order =
            if f.id ∈ order then addedIds existing rest order
            else f.id :: addedIds existing rest order := by
          unfold addedIds
          rw [added]
          by_cases listed : f.id ∈ order
          · rw [if_pos listed]
            exact filter_cons_of_neg (by simpa using listed)
          · rw [if_neg listed]
            exact filter_cons_of_pos (by simpa using listed)
        by_cases listed : f.id ∈ order
        · have same : addedIds (existing ++ [f]) rest order = addedIds existing rest order := by
            rw [addedIds, addedIds, newFilters_append existing fresh]
          simp [empty, listed, step, same]
        · have others : addedIds (existing ++ [f]) rest (order ++ [f.id]) =
              addedIds existing rest order := by
            unfold addedIds
            rw [newFilters_append existing fresh]
            refine filter_congr fun id member => ?_
            have other : id ≠ f.id := by
              rintro rfl
              obtain ⟨g, inNew, same⟩ := mem_map.mp member
              exact fresh (same ▸ mem_ids (mem_of_mem_filter inNew))
            simp [other]
          simp [empty, listed, step, others]

theorem mem_existing :
    c ∈ stored.filterMap (updateExisting deleted modified) ↔
      ∃ conf ∈ stored,
        Stays deleted conf ∧ (modified.find? fun f => f.id = conf.id).getD conf = c := by
  rw [mem_filterMap]
  refine exists_congr fun conf => and_congr_right fun _ => ?_
  unfold updateExisting Stays
  by_cases gone : conf.id ∈ deleted.map some
  · simp [gone]
  · simp [gone]

theorem mem_newFilters {existing : List FilterConfig} :
    c ∈ newFilters existing modified ↔ c ∈ modified ∧ c.id ∉ ids existing := by
  simp [newFilters]

theorem mem_ids_newFilters {existing : List FilterConfig} {id : Option String} :
    id ∈ ids (newFilters existing modified) ↔ id ∈ ids modified ∧ id ∉ ids existing := by
  constructor
  · intro member
    obtain ⟨c, inNew, rfl⟩ := mem_map.mp member
    exact ⟨mem_ids (mem_newFilters.mp inNew).1, (mem_newFilters.mp inNew).2⟩
  · rintro ⟨member, absent⟩
    obtain ⟨c, inModified, rfl⟩ := mem_map.mp member
    exact mem_ids (mem_newFilters.mpr ⟨inModified, absent⟩)

end Merge

section Saved
variable {stored result : List FilterConfig} {data : FiltersUpdate}

def existing (stored : List FilterConfig) (data : FiltersUpdate) : List FilterConfig :=
  stored.filterMap (updateExisting data.deleted data.modified)

/-- What the loops of `_apply_filter_updates` leave. -/
def merged (stored : List FilterConfig) (data : FiltersUpdate) : List FilterConfig :=
  existing stored data ++ newFilters (existing stored data) data.modified

def finalOrder (stored : List FilterConfig) (data : FiltersUpdate) : List (Option String) :=
  if data.reordered = [] then []
  else data.reordered.map some
    ++ addedIds (existing stored data) data.modified (data.reordered.map some)

theorem applyFilterUpdates_eq (distinct : (ids data.modified).Nodup) :
    applyFilterUpdates stored data.deleted data.modified (data.reordered.map some) =
      (merged stored data, finalOrder stored data) := by
  rw [applyFilterUpdates, foldl_appendNew data.modified _ _ distinct]
  simp [merged, existing, finalOrder]

variable {id : Option String}

theorem mem_ids_existing :
    id ∈ ids (existing stored data) ↔ id ∈ ids stored ∧ id ∉ data.deleted.map some := by
  rw [existing, ids_existing, mem_filter, decide_eq_true_eq]

theorem mem_ids_merged : id ∈ ids (merged stored data) ↔ Remains stored data id := by
  rw [merged, ids_append, mem_append, mem_ids_newFilters, mem_ids_existing]
  unfold Remains
  tauto

theorem merged_losesNothing (distinctStored : DistinctIds stored)
    (distinctModified : DistinctIds data.modified) :
    LosesNothing stored data (merged stored data) where
  distinct := by
    rw [merged, ids_append]
    refine nodup_append.mpr ⟨?_, ?_, ?_⟩
    · rw [existing, ids_existing]
      exact distinctStored.distinct.filter _
    · exact distinctModified.distinct.sublist ((filter_sublist).map _)
    · rintro id inExisting _ inNew rfl
      exact (mem_ids_newFilters.mp inNew).2 inExisting
  exactly id := mem_ids_merged
  survivors c member stays unmodified := by
    refine mem_append_left _ (mem_existing.mpr ⟨c, member, stays, ?_⟩)
    have absent : (data.modified.find? fun f => f.id = c.id) = none :=
      find?_eq_none.mpr fun f inModified same =>
        unmodified (of_decide_eq_true same ▸ mem_ids inModified)
    rw [absent]
    rfl
  modified c member := by
    by_cases present : c.id ∈ ids (existing stored data)
    · obtain ⟨inStored, stays⟩ := mem_ids_existing.mp present
      obtain ⟨conf, inStored, same⟩ := mem_map.mp inStored
      refine mem_append_left _ (mem_existing.mpr ⟨conf, inStored, ?_, ?_⟩)
      · rw [Stays, same]
        exact stays
      · rw [same, find?_id distinctModified.distinct member]
        rfl
    · exact mem_append_right _ (mem_newFilters.mpr ⟨member, present⟩)

theorem merged_named (distinctStored : DistinctIds stored)
    (distinctModified : DistinctIds data.modified) :
    none ∉ ids (merged stored data) := by
  intro member
  rcases mem_ids_merged.mp member with ⟨inStored, _⟩ | inModified
  · exact distinctStored.named inStored
  · exact distinctModified.named inModified

def ordered (stored : List FilterConfig) (data : FiltersUpdate) : List FilterConfig :=
  if data.reordered = [] then merged stored data
  else (finalOrder stored data).filterMap (filterMapGet (merged stored data))

theorem run_eq (metadata : Metadata) (data : FiltersUpdate)
    (distinctStored : DistinctIds (metadata.nativeFilterConfiguration.getD []))
    (distinctModified : DistinctIds data.modified) :
    run metadata data =
      .ok ((ordered (metadata.nativeFilterConfiguration.getD []) data).map
        FilterConfig.popLegacyKey,
        { nativeFilterConfiguration :=
            some ((ordered (metadata.nativeFilterConfiguration.getD []) data).map
              FilterConfig.popLegacyKey)
          others := metadata.others.filter fun m => m.1 ≠ legacyKey }) := by
  have named := merged_named distinctStored distinctModified
  unfold run reorderAndCleanFilters reorder ordered
  rw [applyFilterUpdates_eq distinctModified.distinct]
  dsimp only
  by_cases empty : data.reordered = []
  · have noOrder : finalOrder (metadata.nativeFilterConfiguration.getD []) data = [] := if_pos empty
    rw [if_pos noOrder, if_pos empty]
    rfl
  · have order : finalOrder (metadata.nativeFilterConfiguration.getD []) data ≠ [] := by
      simp [finalOrder, empty]
    rw [if_neg order, if_neg named, if_neg empty]
    rfl

variable {c : FilterConfig}

theorem filterMapGet_eq_some (distinct : (ids result).Nodup) :
    filterMapGet result id = some c ↔ c ∈ result ∧ c.id = id := by
  constructor
  · intro found
    exact ⟨mem_reverse.mp (mem_of_find?_eq_some found), by simpa using find?_some found⟩
  · rintro ⟨member, rfl⟩
    refine find?_id ?_ (mem_reverse.mpr member)
    rw [ids, map_reverse]
    exact nodup_reverse.mpr distinct

theorem filterMapGet_eq_none : filterMapGet result id = none ↔ id ∉ ids result := by
  unfold filterMapGet
  rw [find?_eq_none]
  constructor
  · rintro absent member
    obtain ⟨c, inResult, rfl⟩ := mem_map.mp member
    exact absent c (mem_reverse.mpr inResult) (decide_eq_true rfl)
  · rintro absent c member same
    exact absent (of_decide_eq_true same ▸ mem_ids (mem_reverse.mp member))

theorem ids_filterMapGet (distinct : (ids result).Nodup) (order : List (Option String)) :
    ids (order.filterMap (filterMapGet result)) = order.filter fun id =>
      decide (id ∈ ids result) := by
  induction order with
  | nil => rfl
  | cons id rest ih =>
    cases found : filterMapGet result id with
    | none =>
      rw [filterMap_cons_none found, ih]
      exact (filter_cons_of_neg (by simpa using filterMapGet_eq_none.mp found)).symm
    | some c =>
      obtain ⟨member, same⟩ := (filterMapGet_eq_some distinct).mp found
      rw [filterMap_cons_some found]
      change c.id :: ids _ = _
      rw [ih, same]
      exact (filter_cons_of_pos (by simpa using same ▸ mem_ids member)).symm

theorem mem_finalOrder_existing (given : data.reordered ≠ [])
    (inExisting : id ∈ ids (existing stored data)) :
    id ∈ finalOrder stored data ↔ id ∈ data.reordered.map some := by
  rw [finalOrder, if_neg given, mem_append]
  refine ⟨fun either => ?_, Or.inl⟩
  rcases either with listed | added
  · exact listed
  · exact absurd inExisting (mem_ids_newFilters.mp (mem_of_mem_filter added)).2

theorem mem_finalOrder_new (given : data.reordered ≠ [])
    (inNew : id ∈ ids (newFilters (existing stored data) data.modified)) :
    id ∈ finalOrder stored data := by
  rw [finalOrder, if_neg given, mem_append]
  by_cases listed : id ∈ data.reordered.map some
  · exact Or.inl listed
  · exact Or.inr (mem_filter.mpr ⟨inNew, decide_eq_true listed⟩)

/-- The final order names every filter of the merge exactly when the client's names
those of them that are stored. -/
theorem finalOrder_complete (given : data.reordered ≠ []) :
    (∀ id ∈ ids (merged stored data), id ∈ finalOrder stored data) ↔
      ∀ c ∈ stored, Stays data.deleted c → c.id ∈ data.reordered.map some := by
  constructor
  · intro complete c member stays
    have inExisting := mem_ids_existing.mpr ⟨mem_ids member, stays⟩
    refine (mem_finalOrder_existing given inExisting).mp (complete c.id ?_)
    rw [merged, ids_append]
    exact mem_append_left _ inExisting
  · intro lists id member
    rw [merged, ids_append, mem_append] at member
    rcases member with inExisting | inNew
    · obtain ⟨inStored, stays⟩ := mem_ids_existing.mp inExisting
      obtain ⟨c, isStored, rfl⟩ := mem_map.mp inStored
      exact (mem_finalOrder_existing given inExisting).mpr (lists c isStored stays)
    · exact mem_finalOrder_new given inNew

theorem nodup_finalOrder (given : data.reordered ≠ []) (distinct : (ids data.modified).Nodup) :
    ((finalOrder stored data).filter fun id => decide (id ∈ ids (merged stored data))).Nodup ↔
      (data.reordered.filter fun id => decide (Remains stored data (some id))).Nodup := by
  have sameIds :
    (data.reordered.map some).filter (fun id => decide (id ∈ ids (merged stored data))) =
      (data.reordered.filter fun id => decide (Remains stored data (some id))).map some := by
    rw [filter_map]
    congr 1
    exact filter_congr fun id _ => decide_eq_decide.mpr mem_ids_merged
  rw [finalOrder, if_neg given, filter_append, nodup_append, sameIds,
    nodup_map_iff (Option.some_injective String)]
  refine ⟨And.left, fun once => ⟨once, ?_, ?_⟩⟩
  · exact ((distinct.sublist ((filter_sublist).map _)).filter _).filter _
  · rintro id inOrder _ added rfl
    have unlisted := (mem_filter.mp (mem_of_mem_filter added)).2
    obtain ⟨name, inOrder, same⟩ := mem_map.mp inOrder
    refine of_decide_eq_true unlisted (same ▸ ?_)
    exact mem_map_of_mem (mem_of_mem_filter inOrder)

theorem ids_popLegacyKey (configs : List FilterConfig) :
    ids (configs.map FilterConfig.popLegacyKey) = ids configs := by
  rw [ids, map_map]
  rfl

theorem popLegacyKey_eq (lacks : ¬c.HasLegacyKey) : c.popLegacyKey = c := by
  have kept : c.members.filter (fun m => m.1 ≠ legacyKey) = c.members :=
    filter_eq_self.mpr fun m member => decide_eq_true fun same => lacks ⟨m, member, same⟩
  rw [FilterConfig.popLegacyKey, kept]

theorem not_hasLegacyKey_pop (c : FilterConfig) : ¬c.popLegacyKey.HasLegacyKey := by
  rintro ⟨m, member, same⟩
  exact of_decide_eq_true (mem_filter.mp member).2 same

theorem not_hasLegacyKey_of_mem (member : c ∈ result.map FilterConfig.popLegacyKey) :
    ¬c.HasLegacyKey := by
  obtain ⟨d, _, rfl⟩ := mem_map.mp member
  exact not_hasLegacyKey_pop d

theorem mem_of_complete (distinct : (ids result).Nodup) {order : List (Option String)}
    (complete : ∀ id ∈ ids result, id ∈ order) (member : c ∈ result) :
    c ∈ order.filterMap (filterMapGet result) :=
  mem_filterMap.mpr
    ⟨c.id, complete c.id (mem_ids member), (filterMapGet_eq_some distinct).mpr ⟨member, rfl⟩⟩

section
variable (distinctStored : DistinctIds stored) (distinctModified : DistinctIds data.modified)
include distinctStored distinctModified

/-- The reordering leaves the filters of the merge, without repeating one, exactly when
the client's order lists them all. -/
theorem ordered_complete :
    ((ids (ordered stored data)).Nodup ∧ ∀ id, id ∈ ids (ordered stored data) ↔
      Remains stored data id) ↔
      ListsAll stored data := by
  have whole := merged_losesNothing distinctStored distinctModified
  by_cases empty : data.reordered = []
  · rw [ordered, if_pos empty]
    exact ⟨fun _ => Or.inl empty, fun _ => ⟨whole.distinct, whole.exactly⟩⟩
  · have idsOf := ids_filterMapGet whole.distinct (finalOrder stored data)
    rw [ordered, if_neg empty, idsOf, nodup_finalOrder empty distinctModified.distinct, ListsAll,
      or_iff_right empty, and_comm]
    refine and_congr_left fun _ => Iff.trans ?_ (finalOrder_complete empty)
    constructor
    · intro exact id member
      exact mem_of_mem_filter ((exact id).mpr (mem_ids_merged.mp member))
    · intro complete id
      rw [mem_filter, decide_eq_true_eq, ← mem_ids_merged]
      exact ⟨And.right, fun member => ⟨complete id member, member⟩⟩

theorem ordered_holds
    (lists : ListsAll stored data) (member : c ∈ merged stored data) : c ∈ ordered stored data := by
  have whole := merged_losesNothing distinctStored distinctModified
  rcases lists with empty | ⟨named, _⟩
  · rw [ordered, if_pos empty]
    exact member
  · by_cases empty : data.reordered = []
    · rw [ordered, if_pos empty]
      exact member
    · rw [ordered, if_neg empty]
      exact mem_of_complete whole.distinct ((finalOrder_complete empty).mpr named) member

/-- A save loses nothing exactly when it gives no order or one that lists every stored
filter that stays and none twice, and no filter has the key that is taken out. -/
theorem losesNothing_iff :
    LosesNothing stored data ((ordered stored data).map FilterConfig.popLegacyKey) ↔
      ListsAll stored data ∧ WithoutLegacyKey stored data := by
  have whole := merged_losesNothing distinctStored distinctModified
  constructor
  · intro saved
    refine ⟨(ordered_complete distinctStored distinctModified).mp ⟨?_, ?_⟩, ?_, ?_⟩
    · rw [← ids_popLegacyKey]
      exact saved.distinct
    · rw [← ids_popLegacyKey]
      exact saved.exactly
    · exact fun c member => not_hasLegacyKey_of_mem (saved.modified c member)
    · exact fun c member stays unmodified =>
        not_hasLegacyKey_of_mem (saved.survivors c member stays unmodified)
  · rintro ⟨lists, modifiedClean, storedClean⟩
    obtain ⟨distinct, exactly⟩ := (ordered_complete distinctStored distinctModified).mpr lists
    refine ⟨?_, ?_, fun c member stays unmodified => ?_, fun c member => ?_⟩
    · rw [ids_popLegacyKey]
      exact distinct
    · rw [ids_popLegacyKey]
      exact exactly
    · refine mem_map.mpr ⟨c, ?_, popLegacyKey_eq (storedClean c member stays unmodified)⟩
      exact ordered_holds distinctStored distinctModified lists
        (whole.survivors c member stays unmodified)
    · refine mem_map.mpr ⟨c, ?_, popLegacyKey_eq (modifiedClean c member)⟩
      exact ordered_holds distinctStored distinctModified lists (whole.modified c member)

end

end Saved

/-- The command returns and stores a list of filters that loses nothing. -/
def Saves (metadata : Metadata) (data : FiltersUpdate) : Prop :=
  ∃ result updated, run metadata data = .ok (result, updated)
    ∧ updated.nativeFilterConfiguration = some result
    ∧ LosesNothing (metadata.nativeFilterConfiguration.getD []) data result

theorem saves_iff (metadata : Metadata) (data : FiltersUpdate)
    (distinctStored : DistinctIds (metadata.nativeFilterConfiguration.getD []))
    (distinctModified : DistinctIds data.modified) :
    Saves metadata data ↔
      ListsAll (metadata.nativeFilterConfiguration.getD []) data
        ∧ WithoutLegacyKey (metadata.nativeFilterConfiguration.getD []) data := by
  rw [← losesNothing_iff distinctStored distinctModified]
  unfold Saves
  rw [run_eq metadata data distinctStored distinctModified]
  constructor
  · rintro ⟨result, updated, ran, _, saved⟩
    cases ran
    exact saved
  · intro saved
    exact ⟨_, _, rfl, rfl, saved⟩

def region : FilterConfig := { id := some "NATIVE_FILTER-1", members := [("name", .str "Region")] }
def country : FilterConfig :=
  { id := some "NATIVE_FILTER-2", members := [("name", .str "Country")] }
def city : FilterConfig := { id := some "NATIVE_FILTER-3", members := [("name", .str "City")] }
def storedFilters : Metadata :=
  { nativeFilterConfiguration := some [region, country], others := [] }

def area : FilterConfig := { region with members := [("name", .str "Area")] }

/-- The country is replaced by the city, which comes first, and the region gets another name. -/
def replacingCountry : FiltersUpdate :=
  { deleted := ["NATIVE_FILTER-2"], modified := [area, city], reordered := ["NATIVE_FILTER-3",
    "NATIVE_FILTER-1"] }

theorem saves_replacingCountry : Saves storedFilters replacingCountry :=
  (saves_iff storedFilters replacingCountry (by decide) (by decide)).mpr
    ⟨Or.inr ⟨by decide, by decide⟩, by decide, by decide⟩

def staleOrder : FiltersUpdate :=
  { deleted := [], modified := [city], reordered := ["NATIVE_FILTER-1"] }

theorem staleOrder_drops :
    DistinctIds (storedFilters.nativeFilterConfiguration.getD []) ∧ DistinctIds staleOrder.modified
      ∧ (run storedFilters staleOrder).map Prod.fst = .ok [region, city]
      ∧ ¬Saves storedFilters staleOrder := by
  refine ⟨by decide, by decide, by rfl, ?_⟩
  rintro ⟨result, updated, ran, _, saved⟩
  have known : result = [region, city] := by
    have first := congrArg (Except.map Prod.fst) ran
    exact (Except.ok.inj first).symm
  have kept := saved.survivors country (by decide) (by decide) (by decide)
  rw [known] at kept
  exact absurd kept (by decide)

end Liteset.Dashboard.FilterUpdates
