import Std.Data.String.ToInt
import Liteset.Assets.DashboardCopy
import Liteset.Assets.ImportRefsSafety

/-!
# When a copied dashboard refers to its own charts

The intended copy has every reference to a duplicated chart replaced by one to the duplicate and
every other reference kept.  Only the position and the filter scopes are remapped by the code;
the default filters are compared with the new ids while they still have the old ones, and the
other fields are taken over as they are.
-/

set_option autoImplicit false

namespace Liteset.Assets

open Lib Dashboard List

section Intended
variable (rename : Int → Option Int)

def remapId (id : Int) : Int := (rename id).getD id

def remapKey (text : String) : String :=
  match (PyText.parseInt text).bind rename with
  | some new => toString new
  | none => text

def remapEntries {β : Type} (remap : β → β) (entries : List (String × β)) : List (String × β) :=
  entries.map fun entry => (remapKey rename entry.1, remap entry.2)

def remapColumns (columns : List (String × FilterAttributes)) : List (String × FilterAttributes) :=
  columns.map fun column =>
    (column.1, { column.2 with immune := some ((column.2.immune.getD []).map (remapId rename)) })

def NativeFilter.remapped (filter : NativeFilter) : NativeFilter where
  targets := filter.targets
  excluded := filter.excluded.map (remapId rename)
  chartsInScope := filter.chartsInScope.map (remapId rename)

def GlobalChartConfiguration.remapped (scoping : GlobalChartConfiguration) :
    GlobalChartConfiguration where
  excluded := scoping.excluded.map (remapId rename)
  chartsInScope := scoping.chartsInScope.map (remapId rename)

def CrossFilterScope.remapped : CrossFilterScope → CrossFilterScope
  | .pointer text => .pointer text
  | .scope excluded => .scope (excluded.map (remapId rename))

def ChartConfiguration.remapped : ChartConfiguration → ChartConfiguration
  | .configured id crossFilters =>
    .configured (id.map (remapId rename))
      { scope := crossFilters.scope.map (CrossFilterScope.remapped rename)
        chartsInScope := crossFilters.chartsInScope.map (remapId rename) }
  | .other value => .other value

def Entry.remapped : Entry → Entry
  | .text value => .text value
  | .component c =>
    .component { c with
      details := { c.details with chartId := c.details.chartId.map (remapId rename) } }

end Intended

def Entry.withoutUuid : Entry → Entry
  | .text value => .text value
  | .component c => .component { c with details := { c.details with uuid := none } }

/-- The copy refers to the new ids where the original refers to the old ones, and has an entry
for every entry of the original.  A field that is missing counts as an empty one. -/
structure Remapped (rename : Int → Option Int) (original copy : StoredDashboard) : Prop where
  position : copy.position.mapValues Entry.withoutUuid =
    original.position.mapValues fun entry => (entry.remapped rename).withoutUuid
  filterScopes : (copy.metadata.filterScopes.getD .empty).entries =
    remapEntries rename (remapColumns rename) (original.metadata.filterScopes.getD .empty).entries
  defaultFilters : (copy.metadata.defaultFilters.getD (some .empty)).map JsMap.entries =
    (original.metadata.defaultFilters.getD (some .empty)).map fun filters =>
      remapEntries rename id filters.entries
  immuneSlices : copy.metadata.timedRefreshImmuneSlices.getD [] =
    (original.metadata.timedRefreshImmuneSlices.getD []).map (remapId rename)
  expandedSlices : (copy.metadata.expandedSlices.getD .empty).entries =
    remapEntries rename id (original.metadata.expandedSlices.getD .empty).entries
  nativeFilters : copy.metadata.nativeFilterConfiguration =
    original.metadata.nativeFilterConfiguration.map (NativeFilter.remapped rename)
  globalScoping : copy.metadata.globalChartConfiguration =
    original.metadata.globalChartConfiguration.map (GlobalChartConfiguration.remapped rename)
  chartConfiguration : copy.metadata.chartConfiguration.map JsMap.entries =
    original.metadata.chartConfiguration.map fun configurations =>
      remapEntries rename (ChartConfiguration.remapped rename) configurations.entries

def duplicateOf (newIdOf : Int → Int) (slices : List Int) (old : Int) : Option Int :=
  if old ∈ slices then some (newIdOf old) else none

def Metadata.keys (metadata : Metadata) : List String :=
  (metadata.filterScopes.getD .empty).keys ++ (metadata.expandedSlices.getD .empty).keys ++
    ((metadata.defaultFilters.getD (some .empty)).getD .empty).keys ++
      (metadata.chartConfiguration.getD .empty).keys

/-- The ids of new rows: none is that of a chart of the dashboard or a key of its metadata. -/
structure NewIds (newIdOf : Int → Int) (original : StoredDashboard) : Prop where
  injective : ∀ a ∈ original.slices, ∀ b ∈ original.slices, newIdOf a = newIdOf b → a = b
  nonzero : ∀ a ∈ original.slices, newIdOf a ≠ 0
  other : ∀ a ∈ original.slices, newIdOf a ∉ original.slices
  freshKeys : ∀ a ∈ original.slices, ∀ key ∈ original.metadata.keys,
    key ≠ toString (newIdOf a) ∧ PyText.parseInt key ≠ some (newIdOf a)
  oldNonzero : 0 ∉ original.slices ∧ 0 ∉ sliceIds original.position

def PlacedChart (original : StoredDashboard) (id : Int) : Prop :=
  id ∈ original.slices ∧ id ∈ sliceIds original.position

def Foreign (original : StoredDashboard) (ids : List Int) : Prop := ∀ id ∈ ids, id ∉ original.slices

def ChartConfiguration.ids : ChartConfiguration → List Int
  | .configured id crossFilters =>
    id.toList ++ (match crossFilters.scope with | some (.scope excluded) => excluded | _ => []) ++
      crossFilters.chartsInScope
  | .other _ => []

/-- The dashboards whose copies have all their references remapped. -/
structure Copyable (original : StoredDashboard) : Prop where
  identified : ∀ entry ∈ original.position.values, lacksChartId entry = false
  positionCharts : ∀ id ∈ sliceIds original.position, id ∈ original.slices
  scopeKeys : ∀ key ∈ (original.metadata.filterScopes.getD .empty).keys,
    ∃ id, PyText.parseInt key = some id ∧ PlacedChart original id
  scopesDistinct : ((original.metadata.filterScopes.getD .empty).keys.map PyText.parseInt).Nodup
  scopeImmune : ∀ columns ∈ (original.metadata.filterScopes.getD .empty).values, ∀ column ∈ columns,
    ∀ id ∈ column.2.immune.getD [], PlacedChart original id
  noDefaultFilters : original.metadata.defaultFilters.getD (some .empty) = some .empty
  immuneSlices : Foreign original (original.metadata.timedRefreshImmuneSlices.getD [])
  expandedSlices : ∀ key ∈ (original.metadata.expandedSlices.getD .empty).keys,
    Foreign original (PyText.parseInt key).toList
  nativeFilters : ∀ filter ∈ original.metadata.nativeFilterConfiguration,
    Foreign original (filter.excluded ++ filter.chartsInScope)
  globalScoping : ∀ scoping ∈ original.metadata.globalChartConfiguration,
    Foreign original (scoping.excluded ++ scoping.chartsInScope)
  configurationKeys : ∀ configurations ∈ original.metadata.chartConfiguration,
    ∀ key ∈ configurations.keys, Foreign original (PyText.parseInt key).toList
  configurations : ∀ configurations ∈ original.metadata.chartConfiguration,
    ∀ configuration ∈ configurations.values,
    Foreign original configuration.ids

section Fixed
variable {newIdOf : Int → Int} {original : StoredDashboard} {slices : List Int}

theorem duplicateOf_eq_some_iff {old new : Int} :
    duplicateOf newIdOf slices old = some new ↔ old ∈ slices ∧ newIdOf old = new := by
  unfold duplicateOf
  split <;> simp_all

theorem remapId_of_mem {old : Int} (member : old ∈ slices) :
    remapId (duplicateOf newIdOf slices) old = newIdOf old := by
  rw [remapId, duplicateOf, if_pos member]
  rfl

theorem remapId_of_not_mem {old : Int} (absent : old ∉ slices) :
    remapId (duplicateOf newIdOf slices) old = old := by
  rw [remapId, duplicateOf, if_neg absent]
  rfl

theorem remapId_fixed_iff (new : NewIds newIdOf original) {old : Int} :
    remapId (duplicateOf newIdOf original.slices) old = old ↔ old ∉ original.slices := by
  constructor
  · intro fixed member
    rw [remapId_of_mem member] at fixed
    exact new.other old member (fixed.symm ▸ member)
  · exact remapId_of_not_mem

theorem map_remapId_iff (new : NewIds newIdOf original) (ids : List Int) :
    ids.map (remapId (duplicateOf newIdOf original.slices)) = ids ↔ Foreign original ids := by
  rw [← map_id ids, map_map, map_inj_left, map_id]
  exact forall₂_congr fun id _ => remapId_fixed_iff new

theorem foreign_append {first second : List Int} :
    Foreign original (first ++ second) ↔ Foreign original first ∧ Foreign original second :=
  forall_mem_append

theorem remapKey_of_some {text : String} {old : Int} (read : PyText.parseInt text = some old)
    (member : old ∈ slices) :
    remapKey (duplicateOf newIdOf slices) text = toString (newIdOf old) := by
  rw [remapKey, read, Option.bind_some, duplicateOf, if_pos member]

theorem remapKey_of_foreign {text : String}
    (foreign : Foreign original (PyText.parseInt text).toList) :
    remapKey (duplicateOf newIdOf original.slices) text = text := by
  unfold remapKey
  cases read : PyText.parseInt text with
  | none => rfl
  | some old =>
    have absent : old ∉ original.slices := foreign old (by rw [read]; exact mem_cons_self)
    rw [Option.bind_some, duplicateOf, if_neg absent]

section
variable (new : NewIds newIdOf original)
include new

theorem remapKey_fixed_iff {key : String} (isKey : key ∈ original.metadata.keys) :
    key = remapKey (duplicateOf newIdOf original.slices) key ↔
    Foreign original (PyText.parseInt key).toList := by
  constructor
  · intro fixed old read isSlice
    rw [remapKey_of_some (Option.mem_toList.mp read) isSlice] at fixed
    exact (new.freshKeys old isSlice key isKey).1 fixed
  · exact fun foreign => (remapKey_of_foreign foreign).symm

/-- A remapping leaves a map with keys of the metadata alone when it leaves each entry alone. -/
theorem remapEntries_fixed_iff {β : Type} {remap : β → β} {map : JsMap String β}
    (keys : ∀ key ∈ map.keys, key ∈ original.metadata.keys) :
    map.entries = remapEntries (duplicateOf newIdOf original.slices) remap map.entries ↔
      (∀ key ∈ map.keys, Foreign original (PyText.parseInt key).toList) ∧ ∀ value ∈ map.values,
        value = remap value := by
  have each (entry : String × β) (member : entry ∈ map.entries) :
      entry = (remapKey (duplicateOf newIdOf original.slices) entry.1, remap entry.2) ↔
        Foreign original (PyText.parseInt entry.1).toList ∧ entry.2 = remap entry.2 := by
    rw [Prod.ext_iff, remapKey_fixed_iff new (keys _ (mem_map_of_mem member))]
  conv_lhs => lhs; rw [← map_id map.entries]
  rw [remapEntries, map_inj_left, JsMap.keys, JsMap.values, forall_mem_map, forall_mem_map]
  constructor
  · exact fun fixed => ⟨fun entry member => ((each entry member).mp (fixed entry member)).1,
      fun entry member => ((each entry member).mp (fixed entry member)).2⟩
  · exact fun fixed entry member =>
      (each entry member).mpr ⟨fixed.1 entry member, fixed.2 entry member⟩

theorem filter_remapped_iff (filter : NativeFilter) :
    filter = filter.remapped (duplicateOf newIdOf original.slices) ↔
      Foreign original (filter.excluded ++ filter.chartsInScope) := by
  obtain ⟨targets, excluded, chartsInScope⟩ := filter
  rw [NativeFilter.remapped, NativeFilter.mk.injEq, foreign_append, ← map_remapId_iff new,
    ← map_remapId_iff new]
  exact ⟨fun same => ⟨same.2.1.symm, same.2.2.symm⟩, fun same => ⟨rfl, same.1.symm, same.2.symm⟩⟩

theorem scoping_remapped_iff (scoping : GlobalChartConfiguration) :
    scoping = scoping.remapped (duplicateOf newIdOf original.slices) ↔
      Foreign original (scoping.excluded ++ scoping.chartsInScope) := by
  obtain ⟨excluded, chartsInScope⟩ := scoping
  rw [GlobalChartConfiguration.remapped, GlobalChartConfiguration.mk.injEq, foreign_append,
    ← map_remapId_iff new, ← map_remapId_iff new]
  exact ⟨fun same => ⟨same.1.symm, same.2.symm⟩, fun same => ⟨same.1.symm, same.2.symm⟩⟩

theorem configuration_remapped_iff (configuration : ChartConfiguration) :
    configuration = configuration.remapped (duplicateOf newIdOf original.slices) ↔
    Foreign original configuration.ids := by
  rw [eq_comm]
  cases configuration with
  | other value => exact ⟨fun _ _ member => absurd member not_mem_nil, fun _ => rfl⟩
  | configured id crossFilters =>
    obtain ⟨scope, chartsInScope⟩ := crossFilters
    have ownId : id.map (remapId (duplicateOf newIdOf original.slices)) = id ↔
        Foreign original id.toList := by
      cases id with
      | none => simp [Foreign]
      | some id => simp [Foreign, remapId_fixed_iff new]
    have ownScope :
      scope.map (CrossFilterScope.remapped (duplicateOf newIdOf original.slices)) = scope ↔
        Foreign original (match scope with | some (.scope excluded) => excluded | _ => []) := by
      rcases scope with _ | ⟨text⟩ | ⟨excluded⟩
      · simp [Foreign]
      · simp [Foreign, CrossFilterScope.remapped]
      · rw [← map_remapId_iff new]
        simp [CrossFilterScope.remapped]
    rw [ChartConfiguration.remapped, ChartConfiguration.ids, foreign_append, foreign_append,
      ← ownId, ← ownScope,
      ← map_remapId_iff new, ChartConfiguration.configured.injEq, CrossFilters.mk.injEq, and_assoc]

end

end Fixed

section Ids
variable {newIdOf : Int → Int} {original : StoredDashboard}

theorem oldToNewSliceIds_get (newIdOf : Int → Int) (slices : List Int) :
    (oldToNewSliceIds newIdOf slices).get = duplicateOf newIdOf slices := by
  funext old
  apply Option.ext
  intro new
  rw [JsMap.get_eq_some_iff, duplicateOf_eq_some_iff]
  have listed {new : Int} (entry : (old, new) ∈ (oldToNewSliceIds newIdOf slices).entries) :
      old ∈ slices ∧ newIdOf old = new := by
    obtain ⟨id, member, same⟩ := mem_map.mp (JsMap.mem_of_mem_ofEntries entry)
    cases same
    exact ⟨member, rfl⟩
  constructor
  · exact listed
  · rintro ⟨member, rfl⟩
    obtain ⟨last, entry⟩ :=
      JsMap.key_mem_ofEntries (mem_map_of_mem (f := fun old => (old, newIdOf old)) member)
    rw [(listed entry).2]
    exact entry

theorem remapChartId_component (oldToNew : JsMap Int Int) {c : Component}
    (nonzero : c.details.chartId ≠ some 0) :
    remapChartId oldToNew (.component c) =
      .component { c with
        details := { c.details with chartId := c.details.chartId.bind oldToNew.get } } := by
  obtain ⟨type, id, children, parents, ⟨chartId, uuid, others⟩⟩ := c
  cases chartId with
  | none => rfl
  | some old =>
    have truthy : truthyId (some old) = some old := by
      have isNonzero : old ≠ 0 := fun isZero => nonzero (congrArg some isZero)
      simp [truthyId, Option.filter, isNonzero]
    simp only [remapChartId, truthy]
    rfl

theorem remapChartId_chartId (oldToNew : JsMap Int Int) {entry : Entry}
    (nonzero : entry.chartId ≠ some 0) :
    (remapChartId oldToNew entry).chartId = entry.chartId.bind oldToNew.get := by
  cases entry with
  | text _ => rfl
  | component c =>
    rw [remapChartId_component oldToNew nonzero]
    rfl

def copiedPosition (newIdOf : Int → Int) (original : StoredDashboard) : Position :=
  original.position.mapValues (remapChartId (oldToNewSliceIds newIdOf original.slices))

def copiedIds (newIdOf : Int → Int) (original : StoredDashboard) : Int → Option Int :=
  slcIdDict (oldToNewSliceIds newIdOf original.slices) (sliceIds (copiedPosition newIdOf original))

theorem chartId_ne_zero (new : NewIds newIdOf original) {entry : Entry}
    (member : entry ∈ original.position.values) :
    entry.chartId ≠ some 0 :=
  fun isZero => new.oldNonzero.2 (mem_filterMap.mpr ⟨entry, member, isZero⟩)

theorem mem_sliceIds_copied (new : NewIds newIdOf original) {id : Int} :
    id ∈ sliceIds (copiedPosition newIdOf original) ↔
    ∃ old, PlacedChart original old ∧ newIdOf old = id := by
  have values : (copiedPosition newIdOf original).values =
      original.position.values.map (remapChartId (oldToNewSliceIds newIdOf original.slices)) := by
    simp [copiedPosition, JsMap.values, map_map]
  rw [sliceIds, values, mem_filterMap]
  constructor
  · rintro ⟨_, member, hasId⟩
    obtain ⟨entry, isEntry, rfl⟩ := mem_map.mp member
    rw [remapChartId_chartId _ (chartId_ne_zero new isEntry), oldToNewSliceIds_get] at hasId
    obtain ⟨old, hasOld, renamed⟩ := Option.bind_eq_some_iff.mp hasId
    obtain ⟨isSlice, isNew⟩ := duplicateOf_eq_some_iff.mp renamed
    exact ⟨old, ⟨isSlice, mem_filterMap.mpr ⟨entry, isEntry, hasOld⟩⟩, isNew⟩
  · rintro ⟨old, ⟨isSlice, isPlaced⟩, isNew⟩
    obtain ⟨entry, isEntry, hasOld⟩ := mem_filterMap.mp isPlaced
    refine ⟨_, mem_map_of_mem isEntry, ?_⟩
    rw [remapChartId_chartId _ (chartId_ne_zero new isEntry), oldToNewSliceIds_get, hasOld]
    exact duplicateOf_eq_some_iff.mpr ⟨isSlice, isNew⟩

theorem copiedIds_iff (new : NewIds newIdOf original) (old id : Int) :
    copiedIds newIdOf original old = some id ↔ PlacedChart original old ∧ newIdOf old = id := by
  unfold copiedIds slcIdDict
  split
  · next isEmpty =>
    have noSlices : original.slices = [] := by
      by_contra some
      obtain ⟨slice, member⟩ := exists_mem_of_ne_nil _ some
      obtain ⟨last, entry⟩ :=
        JsMap.key_mem_ofEntries (mem_map_of_mem (f := fun old => (old, newIdOf old)) member)
      have noEntries : (oldToNewSliceIds newIdOf original.slices).entries = [] :=
        isEmpty_iff.mp isEmpty
      rw [oldToNewSliceIds] at noEntries
      rw [noEntries] at entry
      exact not_mem_nil entry
    constructor
    · intro found
      split at found
      · next member =>
        obtain ⟨a, ⟨isSlice, _⟩, _⟩ := (mem_sliceIds_copied new).mp member
        rw [noSlices] at isSlice
        exact absurd isSlice not_mem_nil
      · cases found
    · rintro ⟨⟨isSlice, _⟩, _⟩
      rw [noSlices] at isSlice
      exact absurd isSlice not_mem_nil
  · rw [Option.filter_eq_some_iff, oldToNewSliceIds_get, duplicateOf_eq_some_iff,
      decide_eq_true_iff, mem_sliceIds_copied new]
    constructor
    · rintro ⟨⟨isSlice, isNew⟩, a, placed, same⟩
      have sameOld := new.injective a placed.1 old isSlice (same.trans isNew.symm)
      exact ⟨sameOld ▸ placed, isNew⟩
    · rintro ⟨placed, isNew⟩
      exact ⟨⟨placed.1, isNew⟩, old, placed, isNew⟩

theorem truthyId_copiedIds (new : NewIds newIdOf original) (old : Int) :
    truthyId (copiedIds newIdOf original old) = copiedIds newIdOf original old := by
  cases found : copiedIds newIdOf original old with
  | none => rfl
  | some id =>
    obtain ⟨placed, isNew⟩ := (copiedIds_iff new old id).mp found
    have nonzero : id ≠ 0 := isNew ▸ new.nonzero old placed.1
    simp [truthyId, Option.filter, nonzero]

end Ids

section PositionOfCopy
variable {newIdOf : Int → Int} {original : StoredDashboard}

theorem withoutUuid_updateUuid (uuidOf : Int → Option String) (entry : Entry) :
    (updateUuid uuidOf entry).withoutUuid = entry.withoutUuid := by
  cases entry with
  | text _ => rfl
  | component c =>
    show (match if c.type = ComponentType.chart then truthyId c.details.chartId else none with
      | some id => Entry.component { c with details := { c.details with uuid := uuidOf id } }
      | none => .component c).withoutUuid = _
    cases if c.type = ComponentType.chart then truthyId c.details.chartId else none <;> rfl

theorem entry_remapped_iff (new : NewIds newIdOf original) {entry : Entry}
    (member : entry ∈ original.position.values) :
    (remapChartId (oldToNewSliceIds newIdOf original.slices) entry).withoutUuid =
        (entry.remapped (duplicateOf newIdOf original.slices)).withoutUuid ↔
      ∀ id ∈ entry.chartId, id ∈ original.slices := by
  cases entry with
  | text _ => exact ⟨fun _ id isId => (by cases isId), fun _ => rfl⟩
  | component c =>
    rw [remapChartId_component _ (chartId_ne_zero new member), oldToNewSliceIds_get]
    show _ ↔ ∀ id ∈ c.details.chartId, id ∈ original.slices
    have sameId : c.details.chartId.bind (duplicateOf newIdOf original.slices) =
        c.details.chartId.map (remapId (duplicateOf newIdOf original.slices)) ↔
        ∀ id ∈ c.details.chartId, id ∈ original.slices := by
      cases c.details.chartId with
      | none => simp
      | some old =>
        by_cases isSlice : old ∈ original.slices
        · simp [isSlice, remapId_of_mem, duplicateOf]
        · simp [isSlice, duplicateOf]
    rw [← sameId]
    constructor
    · intro same
      injection same with same
      exact congrArg (fun c : Component => c.details.chartId) same
    · intro same
      rw [same]
      rfl

theorem position_remapped_iff (new : NewIds newIdOf original) (uuidOf : Int → Option String) :
    ((copiedPosition newIdOf original).mapValues (updateUuid uuidOf)).mapValues Entry.withoutUuid =
        original.position.mapValues
          (fun entry => (entry.remapped (duplicateOf newIdOf original.slices)).withoutUuid) ↔
      ∀ id ∈ sliceIds original.position, id ∈ original.slices := by
  rw [copiedPosition, JsMap.mapValues_mapValues, JsMap.mapValues_mapValues, JsMap.mapValues_eq_iff]
  constructor
  · intro each id member
    obtain ⟨entry, isEntry, hasId⟩ := mem_filterMap.mp member
    obtain ⟨pair, inMap, rfl⟩ := mem_map.mp isEntry
    have same := each pair inMap
    rw [Function.comp, Function.comp, withoutUuid_updateUuid] at same
    exact (entry_remapped_iff new isEntry).mp same id hasId
  · intro slices pair inMap
    have isEntry : pair.2 ∈ original.position.values := mem_map_of_mem inMap
    rw [Function.comp, Function.comp, withoutUuid_updateUuid]
    exact (entry_remapped_iff new isEntry).mpr fun id hasId =>
      slices id (mem_filterMap.mpr ⟨pair.2, isEntry, hasId⟩)

end PositionOfCopy

section Scopes
variable {newIdOf : Int → Int} {original : StoredDashboard}

-- Renamings of keys are compared below, which must not evaluate the reader of integers.
attribute [local irreducible] PyText.parseInt

theorem ofEntries_of_nodup {κ β : Type} [DecidableEq κ] {entries : List (κ × β)}
    (distinct : (entries.map Prod.fst).Nodup) : (JsMap.ofEntries entries).entries = entries :=
  JsMap.entries_foldl_set distinct

def copiedColumns (dict : Int → Option Int) (columns : List (String × FilterAttributes)) :
    List (String × FilterAttributes) :=
  columns.map fun column =>
    (column.1, { column.2 with immune := some ((column.2.immune.getD []).filterMap dict) })

variable {dict : Int → Option Int}

theorem columns_remapped_iff
    (placed : ∀ old id, dict old = some id ↔ PlacedChart original old ∧ newIdOf old = id)
    (columns : List (String × FilterAttributes)) :
    copiedColumns dict columns = remapColumns (duplicateOf newIdOf original.slices) columns ↔
      ∀ column ∈ columns, ∀ id ∈ column.2.immune.getD [], PlacedChart original id := by
  rw [copiedColumns, remapColumns, map_inj_left]
  refine forall₂_congr fun column _ => ?_
  have sameIds (ids : List Int) :
      ids.filterMap dict = ids.map (remapId (duplicateOf newIdOf original.slices)) ↔
      ∀ id ∈ ids, PlacedChart original id := by
    induction ids with
    | nil => simp
    | cons id ids ih =>
      rw [forall_mem_cons, ← ih]
      cases found : dict id with
      | none =>
        rw [filterMap_cons_none found, map_cons]
        constructor
        · intro same
          have shorter : (ids.filterMap dict).length ≤ ids.length := length_filterMap_le dict ids
          have longer := congrArg List.length same
          rw [length_cons, length_map] at longer
          omega
        · rintro ⟨isPlaced, _⟩
          rw [(placed id (newIdOf id)).mpr ⟨isPlaced, rfl⟩] at found
          cases found
      | some other =>
        obtain ⟨isPlaced, rfl⟩ := (placed id other).mp found
        rw [filterMap_cons_some found, map_cons, remapId_of_mem isPlaced.1, cons_inj_right]
        exact ⟨fun same => ⟨isPlaced, same⟩, fun same => same.2⟩
  rw [← sameIds]
  simp

theorem kept_of_placed {β : Type}
    (new : NewIds newIdOf original)
    (placed : ∀ old id, dict old = some id ↔ PlacedChart original old ∧ newIdOf old = id)
    {map : JsMap String β}
    (known : ∀ key ∈ map.keys, ∃ id, PyText.parseInt key = some id ∧ PlacedChart original id)
    (distinct : (map.keys.map PyText.parseInt).Nodup) :
    ((kept dict map.entries).mapValues Prod.snd).entries =
      map.entries.map fun entry =>
        (remapKey (duplicateOf newIdOf original.slices) entry.1, entry.2) := by
  have listed : ((keptList dict map.entries).map fun entry => (entry.1, entry.2.2)) =
      map.entries.map fun entry =>
        (remapKey (duplicateOf newIdOf original.slices) entry.1, entry.2) := by
    rw [keptList, map_filterMap, ← filterMap_eq_map]
    refine filterMap_congr fun entry member => ?_
    obtain ⟨id, read, isPlaced⟩ := known entry.1 (mem_map_of_mem member)
    rw [read, Option.bind_some, (placed id _).mpr ⟨isPlaced, rfl⟩, Function.comp,
      remapKey_of_some read isPlaced.1]
    rfl
  rw [← ofEntries_keptList, listed]
  refine ofEntries_of_nodup ?_
  rw [map_map]
  show (map.entries.map (remapKey (duplicateOf newIdOf original.slices) ∘ Prod.fst)).Nodup
  rw [← map_map]
  refine (nodup_map_iff_inj_on map.distinct).mpr fun first isFirst second isSecond same => ?_
  obtain ⟨a, readA, placedA⟩ := known first isFirst
  obtain ⟨b, readB, placedB⟩ := known second isSecond
  rw [remapKey_of_some readA placedA.1, remapKey_of_some readB placedB.1] at same
  have sameId : a = b := new.injective a placedA.1 b placedB.1 (Int.repr_injective same)
  exact inj_on_of_nodup_map distinct isFirst isSecond (by rw [readA, readB, sameId])

theorem copyFilterScopes_ok_iff (truthy : ∀ old, truthyId (dict old) = dict old)
    (scopes out : JsMap String (List (String × FilterAttributes))) :
    copyFilterScopes dict scopes = .ok out ↔
      (∀ entry ∈ scopes.entries, (PyText.parseInt entry.1).isSome = true) ∧
        out = ((kept dict scopes.entries).mapValues Prod.snd).mapValues (copiedColumns dict) := by
  rw [copyFilterScopes, Fallible.map_eq_ok_iff, funext truthy]
  constructor
  · rintro ⟨entries, listed, rfl⟩
    obtain ⟨readable, rfl⟩ := (keepKnown_ok_iff _ _).mp listed
    rw [ofEntries_keptList]
    exact ⟨readable, rfl⟩
  · rintro ⟨readable, rfl⟩
    exact ⟨_, (keepKnown_ok_iff _ _).mpr ⟨readable, rfl⟩, by rw [ofEntries_keptList]; rfl⟩

section
variable (new : NewIds newIdOf original)
    (placed : ∀ old id, dict old = some id ↔ PlacedChart original old ∧ newIdOf old = id)
include new placed

theorem placed_of_kept {β : Type}
    {entries : List (String × β)} {key : String} {value : Int × β}
    (isKey : key ∈ original.metadata.keys)
    (isKept : (remapKey (duplicateOf newIdOf original.slices) key, value) ∈
      (kept dict entries).entries) :
    ∃ id, PyText.parseInt key = some id ∧ PlacedChart original id := by
  obtain ⟨entry, _, renamed⟩ := mem_filterMap.mp (JsMap.mem_of_mem_ofEntries isKept)
  obtain ⟨id, found, same⟩ := Option.map_eq_some_iff.mp renamed
  obtain ⟨old, _, inDict⟩ := Option.bind_eq_some_iff.mp found
  obtain ⟨isPlaced, rfl⟩ := (placed old id).mp inDict
  have sameKey : toString (newIdOf old) = remapKey (duplicateOf newIdOf original.slices) key :=
    congrArg Prod.fst same
  by_cases foreign : Foreign original (PyText.parseInt key).toList
  · rw [remapKey_of_foreign foreign] at sameKey
    exact absurd sameKey.symm (new.freshKeys old isPlaced.1 key isKey).1
  · rw [Foreign] at foreign
    push Not at foreign
    obtain ⟨other, read, isSlice⟩ := foreign
    rw [remapKey_of_some (Option.mem_toList.mp read) isSlice] at sameKey
    have sameOld : old = other :=
      new.injective old isPlaced.1 other isSlice (Int.repr_injective sameKey)
    exact ⟨other, Option.mem_toList.mp read, sameOld ▸ isPlaced⟩

theorem scopes_remapped_iff
    {scopes : JsMap String (List (String × FilterAttributes))}
    (keys : ∀ key ∈ scopes.keys, key ∈ original.metadata.keys) :
    (((kept dict scopes.entries).mapValues Prod.snd).mapValues (copiedColumns dict)).entries =
        remapEntries (duplicateOf newIdOf original.slices)
          (remapColumns (duplicateOf newIdOf original.slices)) scopes.entries ↔
      (∀ key ∈ scopes.keys, ∃ id, PyText.parseInt key = some id ∧ PlacedChart original id) ∧
        (scopes.keys.map PyText.parseInt).Nodup ∧
        ∀ columns ∈ scopes.values,
          ∀ column ∈ columns, ∀ id ∈ column.2.immune.getD [], PlacedChart original id := by
  have whenKnown (known : ∀ key ∈ scopes.keys,
    ∃ id, PyText.parseInt key = some id ∧ PlacedChart original id)
      (distinct : (scopes.keys.map PyText.parseInt).Nodup) :
      (((kept dict scopes.entries).mapValues Prod.snd).mapValues (copiedColumns dict)).entries =
          remapEntries (duplicateOf newIdOf original.slices)
            (remapColumns (duplicateOf newIdOf original.slices)) scopes.entries ↔
        ∀ columns ∈ scopes.values,
          ∀ column ∈ columns, ∀ id ∈ column.2.immune.getD [], PlacedChart original id := by
    rw [JsMap.entries_mapValues, kept_of_placed new placed known distinct, remapEntries, map_map,
      map_inj_left, JsMap.values, forall_mem_map]
    refine forall₂_congr fun entry _ => ?_
    rw [← columns_remapped_iff placed, Function.comp, Prod.mk.injEq]
    exact ⟨fun same => same.2, fun same => ⟨rfl, same⟩⟩
  constructor
  · intro same
    have known : ∀ key ∈ scopes.keys,
        ∃ id, PyText.parseInt key = some id ∧ PlacedChart original id := by
      intro key isKey
      obtain ⟨entry, member, rfl⟩ := mem_map.mp isKey
      have remapped : (remapKey (duplicateOf newIdOf original.slices) entry.1,
          remapColumns (duplicateOf newIdOf original.slices) entry.2) ∈
          remapEntries (duplicateOf newIdOf original.slices)
            (remapColumns (duplicateOf newIdOf original.slices)) scopes.entries :=
        mem_map_of_mem member
      rw [← same, JsMap.mapValues_mapValues] at remapped
      obtain ⟨⟨newKey, value⟩, isKept, isEntry⟩ := mem_map.mp remapped
      cases congrArg Prod.fst isEntry
      exact placed_of_kept new placed (keys _ isKey) isKept
    have distinct : (scopes.keys.map PyText.parseInt).Nodup := by
      have newKeys := congrArg (List.map Prod.fst) same
      rw [remapEntries, map_map] at newKeys
      have noTwice : (scopes.keys.map (remapKey (duplicateOf newIdOf original.slices))).Nodup := by
        rw [JsMap.keys, map_map]
        exact newKeys ▸ JsMap.distinct _
      refine (nodup_map_iff_inj_on scopes.distinct).mpr fun first isFirst second isSecond sameId =>
        ?_
      refine inj_on_of_nodup_map noTwice isFirst isSecond ?_
      obtain ⟨a, readA, placedA⟩ := known first isFirst
      obtain ⟨b, readB, placedB⟩ := known second isSecond
      rw [readA, readB, Option.some.injEq] at sameId
      rw [remapKey_of_some readA placedA.1, remapKey_of_some readB placedB.1, sameId]
    exact ⟨known, distinct, (whenKnown known distinct).mp same⟩
  · rintro ⟨known, distinct, immune⟩
    exact (whenKnown known distinct).mpr immune

end

end Scopes

theorem applicableFilters_of_fresh {ids : List Int} {filters out : JsMap String Json}
    (fresh : ∀ entry ∈ filters.entries, ∀ id ∈ ids, PyText.parseInt entry.1 ≠ some id)
    (done : applicableFilters ids (some filters) = .ok out) : out = .empty := by
  have each (entry : String × Json) (out : Int × String × Json) :
      (do return (← readId entry.1, entry) : Except AssetError (Int × String × Json)) = .ok out ↔
        (PyText.parseInt entry.1).isSome = true ∧
        out = ((PyText.parseInt entry.1).getD 0, entry) := by
    rw [Fallible.bind_eq_ok_iff]
    constructor
    · rintro ⟨id, read, result⟩
      rw [readId_ok_iff.mp read]
      exact ⟨rfl, (Except.ok.inj result).symm⟩
    · rintro ⟨readable, rfl⟩
      obtain ⟨id, read⟩ := Option.isSome_iff_exists.mp readable
      exact ⟨id, readId_ok_iff.mpr read, by rw [read]; rfl⟩
  obtain ⟨read, listed, result⟩ := Fallible.ok_of_bind done
  obtain ⟨readable, rfl⟩ := (Fallible.mapM_ok_iff each _ _).mp listed
  have noneApplies :
    (filters.entries.map fun entry => ((PyText.parseInt entry.1).getD 0, entry)).filter
      (fun entry => entry.1 ∈ ids) = [] := by
    rw [filter_eq_nil_iff, forall_mem_map]
    intro entry member isId
    obtain ⟨id, read⟩ := Option.isSome_iff_exists.mp (readable entry member)
    rw [read, Option.getD_some, decide_eq_true_iff] at isId
    exact fresh entry member id isId read
  rw [noneApplies] at result
  exact (Except.ok.inj result).symm

section Copy
variable {newIdOf : Int → Int} {original : StoredDashboard} (uuidOf : Int → Option String)

def copyWith (newIdOf : Int → Int) (original : StoredDashboard)
    (scopes : Option (JsMap String (List (String × FilterAttributes))))
    (filters : JsMap String Json) : StoredDashboard where
  metadata := { original.metadata with
    timedRefreshImmuneSlices := some (original.metadata.timedRefreshImmuneSlices.getD [])
    expandedSlices := some (original.metadata.expandedSlices.getD .empty)
    filterScopes := scopes.filter fun scopes => !scopes.entries.isEmpty
    defaultFilters := some (some filters) }
  display := original.display
  position := (copiedPosition newIdOf original).mapValues (updateUuid uuidOf)
  slices := (sliceIds (copiedPosition newIdOf original)).filter fun id => (uuidOf id).isSome

theorem duplicated_ok_iff {copy : StoredDashboard} :
    duplicated uuidOf newIdOf original (requestOf original) = .ok copy ↔
      (∀ entry ∈ original.position.values, lacksChartId entry = false) ∧
        ∃ scopes filters,
          Fallible.onField (copyFilterScopes (copiedIds newIdOf original))
            original.metadata.filterScopes = .ok scopes ∧
          applicableFilters (sliceIds (copiedPosition newIdOf original))
            (original.metadata.defaultFilters.getD (some .empty)) = .ok filters ∧
          copy = copyWith uuidOf newIdOf original scopes filters := by
  have lacks : original.position.values.any lacksChartId = true ↔
      ¬ ∀ entry ∈ original.position.values, lacksChartId entry = false := by
    simp
  rw [duplicated]
  show (if original.position.values.any lacksChartId = true then _ else _) = _ ↔ _
  split
  · next lacking =>
    exact ⟨fun raised => (by cases raised), fun done => absurd done.1 (lacks.mp lacking)⟩
  · next identified =>
    refine Fallible.bind_eq_ok_iff.trans ⟨?_, ?_⟩
    · rintro ⟨scopes, hasScopes, rest⟩
      obtain ⟨filters, hasFilters, result⟩ := Fallible.ok_of_bind rest
      exact ⟨not_not.mp (mt lacks.mpr identified), scopes, filters, hasScopes, hasFilters,
        (Except.ok.inj result).symm⟩
    · rintro ⟨_, scopes, filters, hasScopes, hasFilters, rfl⟩
      exact ⟨scopes, hasScopes, Fallible.bind_eq_ok_iff.mpr ⟨filters, hasFilters, rfl⟩⟩

/-! The metadata that the copy takes over. -/

theorem fixed_map_iff {α : Type} {f : α → α} {items : List α} : items = items.map f ↔
    ∀ item ∈ items, item = f item := by
  conv_lhs => lhs; rw [← map_id items]
  exact map_inj_left

theorem fixed_option_iff {α : Type} {f : α → α} {value : Option α} : value = value.map f ↔
    ∀ a ∈ value, a = f a := by
  cases value <;> simp

theorem nativeFilters_iff (new : NewIds newIdOf original) :
    original.metadata.nativeFilterConfiguration =
        original.metadata.nativeFilterConfiguration.map
          (NativeFilter.remapped (duplicateOf newIdOf original.slices)) ↔
      ∀ filter ∈ original.metadata.nativeFilterConfiguration,
        Foreign original (filter.excluded ++ filter.chartsInScope) :=
  fixed_map_iff.trans (forall₂_congr fun filter _ => filter_remapped_iff new filter)

theorem globalScoping_iff (new : NewIds newIdOf original) :
    original.metadata.globalChartConfiguration =
        original.metadata.globalChartConfiguration.map
          (GlobalChartConfiguration.remapped (duplicateOf newIdOf original.slices)) ↔
      ∀ scoping ∈ original.metadata.globalChartConfiguration,
        Foreign original (scoping.excluded ++ scoping.chartsInScope) :=
  fixed_option_iff.trans (forall₂_congr fun scoping _ => scoping_remapped_iff new scoping)

theorem expandedSlices_iff (new : NewIds newIdOf original) :
    (original.metadata.expandedSlices.getD .empty).entries =
        remapEntries (duplicateOf newIdOf original.slices) id
          (original.metadata.expandedSlices.getD .empty).entries ↔
      ∀ key ∈ (original.metadata.expandedSlices.getD .empty).keys,
        Foreign original (PyText.parseInt key).toList := by
  rw [remapEntries_fixed_iff new fun key isKey => by simp [Metadata.keys, isKey]]
  exact ⟨fun fixed => fixed.1, fun foreign => ⟨foreign, fun _ _ => rfl⟩⟩

theorem chartConfiguration_iff (new : NewIds newIdOf original) :
    original.metadata.chartConfiguration.map JsMap.entries =
        original.metadata.chartConfiguration.map (fun configurations =>
          remapEntries (duplicateOf newIdOf original.slices)
            (ChartConfiguration.remapped (duplicateOf newIdOf original.slices))
              configurations.entries) ↔
      (∀ configurations ∈ original.metadata.chartConfiguration, ∀ key ∈ configurations.keys,
          Foreign original (PyText.parseInt key).toList) ∧
        ∀ configurations ∈ original.metadata.chartConfiguration,
          ∀ configuration ∈ configurations.values,
          Foreign original configuration.ids := by
  rw [option_map_eq_iff, ← forall₂_and]
  refine forall₂_congr fun configurations stored => ?_
  have keys : ∀ key ∈ configurations.keys, key ∈ original.metadata.keys := by
    intro key isKey
    rw [Option.mem_def] at stored
    simp [Metadata.keys, stored, isKey]
  rw [remapEntries_fixed_iff new keys]
  exact and_congr_right fun _ => forall₂_congr fun configuration _ =>
    configuration_remapped_iff new configuration

theorem eq_empty {κ β : Type} [DecidableEq κ] {map : JsMap κ β} (none : map.entries = []) :
    map = .empty := by
  obtain ⟨entries, distinct⟩ := map
  cases none
  rfl

theorem filterScopes_getD (scopes : Option (JsMap String (List (String × FilterAttributes)))) :
    (scopes.filter fun scopes => !scopes.entries.isEmpty).getD .empty = scopes.getD .empty := by
  cases scopes with
  | none => rfl
  | some scopes =>
    cases isEmpty : scopes.entries.isEmpty with
    | true =>
      rw [Option.filter, isEmpty, eq_empty (isEmpty_iff.mp isEmpty)]
      rfl
    | false => simp [Option.filter, isEmpty]

theorem filterScopes_copied (new : NewIds newIdOf original)
    (scopes : Option (JsMap String (List (String × FilterAttributes)))) :
    Fallible.onField (copyFilterScopes (copiedIds newIdOf original))
      original.metadata.filterScopes = .ok scopes ↔
      (∀ stored ∈ original.metadata.filterScopes,
        ∀ entry ∈ stored.entries, (PyText.parseInt entry.1).isSome = true) ∧
        scopes = original.metadata.filterScopes.map fun stored =>
          ((kept (copiedIds newIdOf original) stored.entries).mapValues Prod.snd).mapValues
            (copiedColumns (copiedIds newIdOf original)) :=
  Fallible.onField_ok_iff (copyFilterScopes_ok_iff (truthyId_copiedIds new)) _ _

theorem filterScopes_remapped_iff (new : NewIds newIdOf original) :
    ((original.metadata.filterScopes.map fun stored =>
        ((kept (copiedIds newIdOf original) stored.entries).mapValues Prod.snd).mapValues
          (copiedColumns (copiedIds newIdOf original))).getD .empty).entries =
        remapEntries (duplicateOf newIdOf original.slices)
          (remapColumns (duplicateOf newIdOf original.slices))
          (original.metadata.filterScopes.getD .empty).entries ↔
      (∀ key ∈ (original.metadata.filterScopes.getD .empty).keys,
          ∃ id, PyText.parseInt key = some id ∧ PlacedChart original id) ∧
        ((original.metadata.filterScopes.getD .empty).keys.map PyText.parseInt).Nodup ∧
        ∀ columns ∈ (original.metadata.filterScopes.getD .empty).values, ∀ column ∈ columns,
          ∀ id ∈ column.2.immune.getD [], PlacedChart original id := by
  rw [← scopes_remapped_iff new (copiedIds_iff new) fun key isKey => by simp [Metadata.keys, isKey]]
  cases original.metadata.filterScopes <;> rfl

theorem defaultFilters_copied (new : NewIds newIdOf original) {applicable : JsMap String Json}
    (done : applicableFilters (sliceIds (copiedPosition newIdOf original))
      (original.metadata.defaultFilters.getD (some .empty)) = .ok applicable) :
    applicable = .empty ∧ ∃ filters,
      original.metadata.defaultFilters.getD (some .empty) = some filters := by
  cases stored : original.metadata.defaultFilters.getD (some .empty) with
  | none =>
    rw [stored] at done
    cases done
  | some filters =>
    rw [stored] at done
    refine ⟨applicableFilters_of_fresh (fun entry member id isId read => ?_) done, filters, rfl⟩
    obtain ⟨old, placed, rfl⟩ := (mem_sliceIds_copied new).mp isId
    have isKey : entry.1 ∈ original.metadata.keys := by
      have isFilter : entry.1 ∈ filters.keys := mem_map_of_mem member
      simp [Metadata.keys, stored, isFilter]
    exact (new.freshKeys old placed.1 entry.1 isKey).2 read

end Copy

def filtered : StoredDashboard where
  metadata :=
    { filterScopes := some (JsMap.ofEntries [("101", [("region", { immune := some [102] })])]) }
  position := sales
  slices := [101, 102]

def immune : StoredDashboard where
  metadata :=
    { timedRefreshImmuneSlices := some [101], defaultFilters := some (some (JsMap.ofEntries
      [("102", .str "EU")])) }
  position := sales
  slices := [101, 102]

end Liteset.Assets
