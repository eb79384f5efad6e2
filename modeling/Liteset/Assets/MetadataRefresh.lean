import Mathlib.Data.List.Nodup

/-!
# Refreshing the columns of a dataset

`fetch_metadata` merges the columns the source reports into those of a dataset and
tells which names were added, removed and modified.  Calculated columns, those with an
expression, are added back after the names were compared.
-/

set_option autoImplicit false

namespace Liteset.Assets.MetadataRefresh

open List

/-- The engine specs that override `alter_new_orm_column`, and all others. -/
inductive EngineSpec where
  | parseable
  | druid
  | crate
  | other
  deriving DecidableEq

structure TableColumn where
  id : Nat
  columnName : String
  type : Option String
  description : Option String
  isDttm : Option Bool
  expression : Option String
  groupby : Option Bool
  filterable : Option Bool
  pythonDateFormat : Option String
  deriving DecidableEq

/-- A column that the source reports. -/
structure Reported where
  columnName : String
  type : Option String
  comment : Option String

/-- What a refresh is given. -/
structure Source where
  spec : EngineSpec
  /-- `get_column_spec(type).is_dttm` -/
  temporalType : String → Bool
  /-- The id that the flush gives to the row of a new column. -/
  newId : String → Nat
  reported : List Reported
  distinct : (reported.map Reported.columnName).Nodup
  metrics : List String

structure Dataset where
  columns : List TableColumn
  mainDttmCol : Option String
  /-- The names of its metrics. -/
  metrics : List String
  deriving DecidableEq

structure MetadataResult where
  added : List String
  removed : List String
  modified : List String
  deriving DecidableEq

/-- `bool(text)` -/
def truthy (text : Option String) : Bool := text.any fun t => t ≠ ""

def names (columns : List TableColumn) : List String := columns.map TableColumn.columnName

def reportedNames (reported : List Reported) : List String := reported.map Reported.columnName

def isCalculated (column : TableColumn) : Bool := truthy column.expression

def alterNewOrmColumn (column : TableColumn) : EngineSpec → TableColumn
  | .parseable =>
    if column.columnName = "p_timestamp" then
      { column with pythonDateFormat := some "epoch_ms", isDttm := some true }
    else column
  | .druid => if column.columnName = "__time" then { column with isDttm := some true } else column
  | .crate =>
    if column.type = some "TIMESTAMP" then { column with pythonDateFormat := some "epoch_ms" }
      else column
  | .other => column

section Refresh

variable (source : Source)

def isTemporal (column : TableColumn) : Bool :=
  match column.isDttm with
  | some isDttm => isDttm
  | none => column.type.any fun type => type ≠ "" && source.temporalType type

def newColumn (col : Reported) : TableColumn :=
  let created : TableColumn :=
    { id := source.newId col.columnName, columnName := col.columnName, type := col.type,
      description := none
      isDttm := none, expression := none, groupby := none, filterable :=
        none, pythonDateFormat := none }
  let dated := { created with isDttm := some (isTemporal source created) }
  alterNewOrmColumn (if truthy col.comment then { dated with description := col.comment } else
    dated) source.spec

def updatedColumn (old : TableColumn) (col : Reported) : TableColumn :=
  { old with
    type := col.type
    expression := some ""
    description := if truthy col.comment then col.comment else old.description }

def mergeColumn (old : Option TableColumn) (col : Reported) : TableColumn :=
  { old.elim (newColumn source col) (updatedColumn · col) with
    groupby := some true
    filterable := some true }

/-- `old_columns_by_name.pop(name, None)`, the columns having different names. -/
def oldOf (olds : List TableColumn) (name : String) : Option TableColumn :=
  olds.find? fun old => old.columnName = name

structure Merge where
  columns : List TableColumn
  added : List String
  modified : List String

def mergeLoop (olds : List TableColumn) : List Reported → Merge
  | [] => { columns := [], added := [], modified := [] }
  | col :: rest =>
    let merge := mergeLoop (olds.filter fun old => old.columnName ≠ col.columnName) rest
    let old := oldOf olds col.columnName
    { columns := mergeColumn source old col :: merge.columns
      added := if old.isNone then col.columnName :: merge.added else merge.added
      modified := if old.any fun o => o.type ≠ col.type then col.columnName :: merge.modified
        else merge.modified }

/-- The objects of the old columns after the loop, which changed those reported. -/
def changedOlds (olds : List TableColumn) (reported : List Reported) : List TableColumn :=
  olds.map fun old =>
    match reported.find? fun col => col.columnName = old.columnName with
    | some col => mergeColumn source (some old) col
    | none => old

def anyDateCol (columns : List TableColumn) : Option String :=
  columns.foldl
    (fun found column => if !truthy found && isTemporal source column then
      some column.columnName else found)
    none

/-- `add_missing_metrics` -/
def addMissingMetrics (existing metrics : List String) : List String :=
  existing ++ metrics.filter fun metric => metric ∉ existing

/-- The mutator of tables is the default one, which changes nothing. -/
def fetchMetadata (model : Dataset) : MetadataResult × Dataset :=
  let merge := mergeLoop source model.columns source.reported
  ({ added := merge.added
     removed := (names model.columns).filter fun name => name ∉ reportedNames source.reported
     modified := merge.modified },
    { columns := merge.columns
        ++ (changedOlds source model.columns source.reported).filter isCalculated
      mainDttmCol :=
        if truthy model.mainDttmCol then model.mainDttmCol else anyDateCol source merge.columns
      metrics := addMissingMetrics model.metrics source.metrics })

end Refresh

section Columns
variable {source : Source} {olds : List TableColumn}

theorem oldOf_eq_some (distinct : (names olds).Nodup) {name : String} {old : TableColumn} :
    oldOf olds name = some old ↔ old ∈ olds ∧ old.columnName = name := by
  constructor
  · intro found
    exact ⟨mem_of_find?_eq_some found, by simpa using find?_some found⟩
  · rintro ⟨member, rfl⟩
    cases found : oldOf olds old.columnName with
    | none =>
      have differs := find?_eq_none.mp found old member
      simp at differs
    | some other =>
      have same : other.columnName = old.columnName := by simpa using find?_some found
      rw [inj_on_of_nodup_map distinct (mem_of_find?_eq_some found) member same]

theorem oldOf_eq_none {name : String} : oldOf olds name = none ↔ name ∉ names olds := by
  simp [oldOf, names]

theorem oldOf_filter {name other : String} (different : name ≠ other) :
    oldOf (olds.filter fun old => old.columnName ≠ other) name = oldOf olds name := by
  unfold oldOf
  rw [find?_filter]
  congr 1
  funext old
  by_cases same : old.columnName = name
  · simp [same, different]
  · simp [same]

theorem newColumn_fields (col : Reported) :
    (newColumn source col).columnName = col.columnName
      ∧ (newColumn source col).type = col.type ∧ (newColumn source col).expression = none := by
  unfold newColumn alterNewOrmColumn
  cases source.spec <;> grind

theorem mergeColumn_columnName (distinct : (names olds).Nodup) (col : Reported) :
    (mergeColumn source (oldOf olds col.columnName) col).columnName = col.columnName := by
  cases found : oldOf olds col.columnName with
  | none => exact (newColumn_fields col).1
  | some old => exact ((oldOf_eq_some distinct).mp found).2

theorem mergeColumn_type (old : Option TableColumn) (col : Reported) :
    (mergeColumn source old col).type = col.type := by
  cases old with
  | none => exact (newColumn_fields col).2.1
  | some old => rfl

theorem mergeColumn_physical (old : Option TableColumn) (col : Reported) :
    isCalculated (mergeColumn source old col) = false := by
  cases old with
  | none =>
    have noExpression : (mergeColumn source none col).expression = none :=
      (newColumn_fields col).2.2
    rw [isCalculated, noExpression]
    rfl
  | some old => rfl

/-- A column that was new has no expression, and the empty one when it is merged again. -/
theorem mergeColumn_again {old : Option TableColumn} {col : Reported} :
    mergeColumn source (some (mergeColumn source old col)) col =
        mergeColumn source old col ↔ old ≠ none := by
  cases old with
  | none =>
    refine iff_of_false (fun same => ?_) (by simp)
    have noExpression : (mergeColumn source none col).expression = none :=
      (newColumn_fields col).2.2
    rw [← same] at noExpression
    cases noExpression
  | some old =>
    refine iff_of_true ?_ (by simp)
    simp only [mergeColumn, Option.elim_some, updatedColumn]
    split <;> rfl

theorem mergeLoop_eq {reported : List Reported} (distinct : (reportedNames reported).Nodup)
    (olds : List TableColumn) :
    mergeLoop source olds reported =
      { columns := reported.map fun col => mergeColumn source (oldOf olds col.columnName) col
        added := reportedNames (reported.filter fun col => (oldOf olds col.columnName).isNone)
        modified := reportedNames
          (reported.filter fun col => (oldOf olds col.columnName).any fun old =>
            old.type ≠ col.type) } := by
  induction reported generalizing olds with
  | nil => rfl
  | cons col rest ih =>
    obtain ⟨fresh, others⟩ := nodup_cons.mp distinct
    have same : ∀ c ∈ rest,
      oldOf (olds.filter fun old => old.columnName ≠ col.columnName) c.columnName =
        oldOf olds c.columnName := by
      intro c member
      exact oldOf_filter fun equal => fresh (equal ▸ mem_map_of_mem member)
    rw [mergeLoop, ih others]
    simp only [reportedNames, map_cons, filter_cons, Merge.mk.injEq, List.cons.injEq, true_and]
    refine ⟨map_congr_left fun c member => by rw [same c member], ?_, ?_⟩
    · rw [filter_congr fun c member => by rw [same c member]]
      split <;> rfl
    · rw [filter_congr fun c member => by rw [same c member]]
      split <;> rfl

/-- Neither reported nor without an expression. -/
def addedBack (olds : List TableColumn) (reported : List Reported) : List TableColumn :=
  olds.filter fun old => old.columnName ∉ reportedNames reported ∧ isCalculated old = true

theorem changedOlds_calculated (olds : List TableColumn) (reported : List Reported) :
    (changedOlds source olds reported).filter isCalculated = addedBack olds reported := by
  unfold changedOlds addedBack
  induction olds with
  | nil => rfl
  | cons old rest ih =>
    rw [map_cons, filter_cons, filter_cons, ih]
    split
    · next col found =>
      have listed : old.columnName ∈ reportedNames reported := by
        have named : col.columnName = old.columnName := by simpa using find?_some found
        exact named ▸ mem_map_of_mem (mem_of_find?_eq_some found)
      simp [mergeColumn_physical, listed]
    · next unfound =>
      have unlisted : old.columnName ∉ reportedNames reported := by
        simpa [reportedNames] using unfound
      simp [unlisted]

end Columns

section Refreshes
variable {source : Source} {model : Dataset}

def refreshed (source : Source) (model : Dataset) : Dataset := (fetchMetadata source model).2

def result (source : Source) (model : Dataset) : MetadataResult := (fetchMetadata source model).1

theorem refreshed_eq (source : Source) (model : Dataset) :
    refreshed source model =
      { columns := (mergeLoop source model.columns source.reported).columns
          ++ addedBack model.columns source.reported
        mainDttmCol :=
          if truthy model.mainDttmCol then model.mainDttmCol
          else anyDateCol source (mergeLoop source model.columns source.reported).columns
        metrics := addMissingMetrics model.metrics source.metrics } := by
  rw [refreshed, fetchMetadata, changedOlds_calculated]

theorem refreshed_columns :
    (refreshed source model).columns =
      (source.reported.map fun col => mergeColumn source (oldOf model.columns col.columnName) col)
        ++ addedBack model.columns source.reported := by
  rw [refreshed_eq, mergeLoop_eq source.distinct]

theorem not_mem_addedBack {olds : List TableColumn} {reported : List Reported} {name : String}
    (kept : name ∈ names (addedBack olds reported)) : name ∉ reportedNames reported := by
  obtain ⟨old, member, rfl⟩ := mem_map.mp kept
  have unreported := (mem_filter.mp member).2
  simp only [decide_eq_true_eq] at unreported
  exact unreported.1

theorem addedBack_refreshed :
    addedBack (refreshed source model).columns source.reported =
      addedBack model.columns source.reported := by
  rw [refreshed_columns]
  unfold addedBack
  rw [filter_append, filter_filter]
  simp [mergeColumn_physical]

variable (distinctOld : (names model.columns).Nodup)
include distinctOld

theorem refreshed_names :
    names (refreshed source model).columns =
      reportedNames source.reported ++ names (addedBack model.columns source.reported) := by
  rw [refreshed_columns, names, map_append, map_map]
  congr 1
  exact map_congr_left fun col _ => mergeColumn_columnName distinctOld col

theorem refreshed_distinct : (names (refreshed source model).columns).Nodup := by
  rw [refreshed_names distinctOld, nodup_append]
  refine ⟨source.distinct, (filter_sublist.map _).nodup distinctOld, ?_⟩
  rintro name isReported other kept rfl
  exact not_mem_addedBack kept isReported

theorem oldOf_refreshed {col : Reported} (member : col ∈ source.reported) :
    oldOf (refreshed source model).columns col.columnName =
      some (mergeColumn source (oldOf model.columns col.columnName) col) := by
  rw [oldOf_eq_some (refreshed_distinct distinctOld), refreshed_columns]
  exact ⟨mem_append_left _ (mem_map_of_mem member), mergeColumn_columnName distinctOld col⟩

theorem mergeLoop_again :
    mergeLoop source (refreshed source model).columns source.reported =
      { columns := source.reported.map fun col =>
          mergeColumn source
            (some (mergeColumn source (oldOf model.columns col.columnName) col)) col
        added := []
        modified := [] } := by
  rw [mergeLoop_eq source.distinct, Merge.mk.injEq]
  refine ⟨map_congr_left fun col member => by rw [oldOf_refreshed distinctOld member], ?_, ?_⟩
  · rw [filter_congr fun col member => by rw [oldOf_refreshed distinctOld member]]
    simp [reportedNames]
  · rw [filter_congr fun col member => by rw [oldOf_refreshed distinctOld member]]
    simp [mergeColumn_type, reportedNames]

theorem result_again :
    result source (refreshed source model) =
      { added := [], removed := names (addedBack model.columns
        source.reported), modified := [] } := by
  simp only [result, fetchMetadata, mergeLoop_again distinctOld, MetadataResult.mk.injEq, true_and,
    and_true]
  rw [refreshed_names distinctOld, filter_append]
  have reportedKept :
    ((reportedNames source.reported).filter fun name => name ∉ reportedNames source.reported) =
      [] := filter_eq_nil_iff.mpr fun name member => by simp [member]
  rw [reportedKept, nil_append, filter_eq_self]
  exact fun name kept => decide_eq_true (not_mem_addedBack kept)

omit distinctOld in
theorem addMissingMetrics_again (existing metrics : List String) :
    addMissingMetrics (addMissingMetrics existing metrics) metrics =
      addMissingMetrics existing metrics := by
  have noneMissing :
      (metrics.filter fun metric => metric ∉ addMissingMetrics existing metrics) = [] := by
    refine filter_eq_nil_iff.mpr fun metric member => ?_
    simp [addMissingMetrics, member, em]
  rw [addMissingMetrics, noneMissing, append_nil]

theorem refreshed_again :
    refreshed source (refreshed source model) = refreshed source model ↔
      ∀ name ∈ reportedNames source.reported, name ∈ names model.columns := by
  have known_iff : (∀ name ∈ reportedNames source.reported, name ∈ names model.columns) ↔
      ∀ col ∈ source.reported, oldOf model.columns col.columnName ≠ none := by
    simp only [reportedNames, forall_mem_map, ne_eq, oldOf_eq_none, not_not]
  have merged : (mergeLoop source (refreshed source model).columns source.reported).columns =
      (mergeLoop source model.columns source.reported).columns ↔
        ∀ col ∈ source.reported, oldOf model.columns col.columnName ≠ none := by
    rw [mergeLoop_again distinctOld, mergeLoop_eq source.distinct, map_inj_left]
    exact forall₂_congr fun col _ => mergeColumn_again
  rw [known_iff, ← merged, refreshed_eq source (refreshed source model), addedBack_refreshed]
  constructor
  · intro same
    have columns := congrArg Dataset.columns same
    rwa [refreshed_eq, append_cancel_right_eq, ← refreshed_eq] at columns
  · intro same
    have dttm : ∀ main found : Option String, (if truthy (if truthy main then main else found) then
        (if truthy main then main else found) else found) = if truthy main then main
        else found := by
      intro main found
      split <;> simp_all
    rw [same, refreshed_eq, Dataset.mk.injEq]
    exact ⟨rfl, dttm _ _, addMissingMetrics_again _ _⟩

end Refreshes

structure Merged (reported : List Reported) (before after : List TableColumn) : Prop where
  distinct : (names after).Nodup
  names : ∀ name, name ∈ names after ↔
    name ∈ reportedNames reported ∨ ∃ old ∈ before, isCalculated old = true ∧ old.columnName = name
  calculated : ∀ old ∈ before, isCalculated old = true → old.columnName ∉ reportedNames reported →
    old ∈ after
  rows : ∀ old ∈ before, ∀ column ∈ after, column.columnName = old.columnName → column.id = old.id

structure Tells (before after : List TableColumn) (result : MetadataResult) : Prop where
  added : ∀ name, name ∈ result.added ↔ name ∈ names after ∧ name ∉ names before
  removed : ∀ name, name ∈ result.removed ↔ name ∈ names before ∧ name ∉ names after
  modified : ∀ name, name ∈ result.modified ↔ ∃ old ∈ before, ∃ column ∈ after,
    old.columnName = name ∧ column.columnName = name ∧ old.type ≠ column.type

section Exact
variable {source : Source} {model : Dataset}

theorem mem_refreshed {column : TableColumn} :
    column ∈ (refreshed source model).columns ↔
      (∃ col ∈ source.reported,
        mergeColumn source (oldOf model.columns col.columnName) col = column)
        ∨ column ∈ model.columns ∧ column.columnName ∉ reportedNames source.reported ∧
        isCalculated column = true := by
  rw [refreshed_columns, mem_append, mem_map, addedBack, mem_filter, decide_eq_true_eq]

theorem mem_added {name : String} :
    name ∈ (result source model).added ↔ name ∈ reportedNames source.reported ∧
    name ∉ names model.columns := by
  simp only [result, fetchMetadata, mergeLoop_eq source.distinct, reportedNames, mem_map,
    mem_filter, Option.isNone_iff_eq_none, oldOf_eq_none]
  grind

variable (distinctOld : (names model.columns).Nodup)
include distinctOld

theorem refreshed_merged :
    Merged source.reported model.columns (refreshed source model).columns where
  distinct := refreshed_distinct distinctOld
  names := by
    intro name
    rw [refreshed_names distinctOld, mem_append]
    constructor
    · rintro (isReported | kept)
      · exact .inl isReported
      · obtain ⟨old, member, rfl⟩ := mem_map.mp kept
        obtain ⟨isOld, unreported⟩ := mem_filter.mp member
        exact .inr ⟨old, isOld, (of_decide_eq_true unreported).2, rfl⟩
    · rintro (isReported | ⟨old, member, calculated, rfl⟩)
      · exact .inl isReported
      · by_cases isReported : old.columnName ∈ reportedNames source.reported
        · exact .inl isReported
        · exact .inr (mem_map_of_mem
            (mem_filter.mpr ⟨member, decide_eq_true ⟨isReported, calculated⟩⟩))
  calculated := fun old member calculated unreported =>
    mem_refreshed.mpr (.inr ⟨member, unreported, calculated⟩)
  rows := by
    intro old isOld column member same
    obtain ⟨col, _, rfl⟩ | ⟨kept, _, _⟩ := mem_refreshed.mp member
    · rw [mergeColumn_columnName distinctOld] at same
      rw [same, (oldOf_eq_some distinctOld).mpr ⟨isOld, rfl⟩]
      rfl
    · rw [inj_on_of_nodup_map distinctOld kept isOld same]

theorem mem_modified {name : String} :
    name ∈ (result source model).modified ↔
    ∃ old ∈ model.columns, ∃ column ∈ (refreshed source model).columns,
      old.columnName = name ∧ column.columnName = name ∧ old.type ≠ column.type := by
  simp only [result, fetchMetadata, mergeLoop_eq source.distinct, reportedNames, mem_map,
    mem_filter, Option.any_eq_true, decide_eq_true_eq]
  constructor
  · rintro ⟨col, ⟨isReported, old, found, differs⟩, rfl⟩
    obtain ⟨isOld, same⟩ := (oldOf_eq_some distinctOld).mp found
    refine ⟨old, isOld, _, mem_refreshed.mpr (.inl ⟨col, isReported, rfl⟩), same,
      mergeColumn_columnName distinctOld col, ?_⟩
    rwa [mergeColumn_type]
  · rintro ⟨old, isOld, column, member, rfl, same, differs⟩
    obtain ⟨col, isReported, rfl⟩ | ⟨kept, _, _⟩ := mem_refreshed.mp member
    · rw [mergeColumn_columnName distinctOld] at same
      rw [mergeColumn_type] at differs
      exact ⟨col, ⟨isReported, old, (oldOf_eq_some distinctOld).mpr ⟨isOld, same.symm⟩, differs⟩,
        same⟩
    · exact absurd
        (congrArg TableColumn.type (inj_on_of_nodup_map distinctOld isOld kept same.symm)) differs

theorem tells_iff :
    Tells model.columns (refreshed source model).columns (result source model) ↔
      ∀ old ∈ model.columns, isCalculated old = true →
      old.columnName ∈ reportedNames source.reported := by
  have merged := @refreshed_merged source model distinctOld
  have removed_iff : ∀ name, name ∈ (result source model).removed ↔
      name ∈ names model.columns ∧ name ∉ reportedNames source.reported := by
    intro name
    simp only [result, fetchMetadata, mem_filter, decide_eq_true_eq]
  constructor
  · intro tells old isOld calculated
    by_contra unreported
    have listed := (removed_iff old.columnName).mpr ⟨mem_map_of_mem isOld, unreported⟩
    have gone := ((tells.removed old.columnName).mp listed).2
    exact gone (mem_map_of_mem (merged.calculated old isOld calculated unreported))
  · intro reported
    have names_iff : ∀ name, name ∈ names (refreshed source model).columns ↔
        name ∈ reportedNames source.reported := by
      intro name
      rw [merged.names]
      constructor
      · rintro (isReported | ⟨old, isOld, calculated, rfl⟩)
        · exact isReported
        · exact reported old isOld calculated
      · exact .inl
    exact
      { added := fun name => by rw [mem_added, names_iff]
        removed := fun name => by rw [removed_iff, names_iff]
        modified := fun name => mem_modified distinctOld }

end Exact

/-- The columns are always merged.  The lists are right, and empty the second time,
exactly when every calculated column is reported; the second refresh changes nothing
exactly when the first one added no column. -/
theorem refresh_iff (source : Source) (model : Dataset)
    (distinctOld : (names model.columns).Nodup) :
    Merged source.reported model.columns (refreshed source model).columns
    ∧ (Tells model.columns (refreshed source model).columns (result source model) ↔
        ∀ old ∈ model.columns, isCalculated old = true →
        old.columnName ∈ reportedNames source.reported)
    ∧ (result source (refreshed source model) = { added := [], removed := [], modified := [] } ↔
        ∀ old ∈ model.columns, isCalculated old = true →
        old.columnName ∈ reportedNames source.reported)
    ∧ (refreshed source (refreshed source model) = refreshed source model ↔
        ∀ name ∈ reportedNames source.reported, name ∈ names model.columns) := by
  refine ⟨refreshed_merged distinctOld, tells_iff distinctOld, ?_, refreshed_again distinctOld⟩
  rw [result_again distinctOld, MetadataResult.mk.injEq, names, map_eq_nil_iff, addedBack,
    filter_eq_nil_iff]
  simp only [true_and, and_true, decide_eq_true_eq]
  exact forall₂_congr fun old _ => by tauto

def column (name : String) (expression : Option String) : TableColumn where
  id := name.length
  columnName := name
  type := some "INT"
  description := none
  isDttm := some false
  expression := expression
  groupby := some true
  filterable := some true
  pythonDateFormat := none

/-- The table has the one column `a`. -/
def onlyA : Source where
  spec := .other
  temporalType := fun _ => false
  newId := fun _ => 0
  reported := [⟨"a", some "INT", none⟩]
  distinct := by decide
  metrics := []

def withTwice : Dataset :=
  { columns := [column "a" none,
    column "twice" (some "a + a")], mainDttmCol := none, metrics := [] }

theorem refresh_iff_withTwice :
    Merged onlyA.reported withTwice.columns (refreshed onlyA withTwice).columns
    ∧ ¬Tells withTwice.columns (refreshed onlyA withTwice).columns (result onlyA withTwice) := by
  obtain ⟨merged, tells, _⟩ := refresh_iff onlyA withTwice (by decide)
  exact ⟨merged, fun told => absurd (tells.mp told) (by decide)⟩

theorem twice_told_removed :
    "twice" ∈ (result onlyA withTwice).removed ∧ "twice" ∈ names (refreshed onlyA withTwice).columns
    ∧ result onlyA (refreshed onlyA withTwice) =
      { added := [], removed := ["twice"], modified := [] } := by decide

end Liteset.Assets.MetadataRefresh
