import Liteset.Lib.Fallible
import Liteset.Sql.RowConfinement

/-!
# Applied and rejected filters

`get_sqla_query` walks over the filters and then reports columns as applied or rejected, by
tests of their own.  Templates that are rendered on the way may take filters over: they
remove a filter, or only read it, and both lists grow while the loop runs.

`Asks` is what a filter says about a row, and an applied filter contributes when its clauses
stand in the WHERE of the query and hold on just the rows that it asks for.
-/

set_option autoImplicit false

namespace Liteset.Sql.Chart.Reports

open Liteset.Lib.Condition Liteset.Lib.Fallible

/-- `removed_filters` and `applied_template_filters`. -/
structure TemplateFilters where
  removed : List String := []
  applied : List String := []

def TemplateFilters.add (lists more : TemplateFilters) : TemplateFilters where
  removed := lists.removed ++ more.removed.filter (· ∉ lists.removed)
  applied := lists.applied ++ more.applied.filter (· ∉ lists.applied)

inductive Outcome where
  | incomplete
  | notFound
  | unknown
  | removed
  | applied (clauses : List Clause)

/-- The parts of `get_sqla_query` around the loop; `renders` is what the template of a
column's expression adds to the lists. -/
structure Query where
  dataset : Dataset
  sinceUntil : String → Option Dttm × Option Dttm
  renders : TableColumn → TemplateFilters
  isTimeseries : Bool
  dttmCol : Option TableColumn

variable (query : Query)

def Query.colObj (columnName : String) : Option TableColumn :=
  if columnName = DTTM_ALIAS && query.isTimeseries && query.dttmCol.isSome then query.dttmCol
  else query.dataset.columnByName columnName

def sqlaColumn (col : TableColumn) (grain : Option String) : Text :=
  match grain with
  | some grain => query.dataset.engine.timestampExpression col grain
  | none => col.sqlaCol

def filterStep (lists : TemplateFilters) (flt : Filter) :
    Except QueryError (Outcome × TemplateFilters) :=
  match flt.col, flt.op with
  | some (.adhoc label sql), some op =>
    match sql with
    | none => .ok (.notFound, lists)
    | some sql =>
      if label ∈ lists.removed then .ok (.removed, lists)
      else do
        let clauses ← applyFilter query.dataset query.sinceUntil none sql op flt
        return (.applied clauses, lists)
  | some (.name columnName), some op =>
    match query.colObj columnName with
    | none => if columnName ∈ lists.removed then .ok (.removed, lists) else .ok (.unknown, lists)
    | some col =>
      if columnName ∈ lists.removed ∨ columnName = DTTM_ALIAS ∧ col.name ∈ lists.removed
        then .ok (.removed, lists)
      else do
        let clauses ← applyFilter query.dataset query.sinceUntil (some col)
          (sqlaColumn query col flt.grain) op flt
        return (.applied clauses, lists.add (query.renders col))
  | _, _ => .ok (.incomplete, lists)

def filterLoop (lists : TemplateFilters) :
    List Filter → Except QueryError (List (Filter × Outcome) × TemplateFilters)
  | [] => .ok ([], lists)
  | flt :: filters => do
      let (outcome, lists) ← filterStep query lists flt
      let (outcomes, lists) ← filterLoop lists filters
      return ((flt, outcome) :: outcomes, lists)

/-- What the loop has added to `where_clause_and`. -/
def Outcome.clauses : Outcome → List Clause
  | .applied clauses => clauses
  | _ => []

def whereClauses (outcomes : List (Filter × Outcome)) : List Clause :=
  outcomes.flatMap (·.2.clauses)

def filterColumns (filters : List Filter) : List FilterColumn := filters.filterMap (·.col)

/-- `rejected_adhoc_filters_columns` -/
def rejectedAdhoc (outcomes : List (Filter × Outcome)) : List FilterColumn :=
  outcomes.filterMap fun entry =>
    match entry.1.col, entry.2 with
    | some (.adhoc label sql), .notFound => some (.adhoc label sql)
    | _, _ => none

/-- `applied_adhoc_filters_columns`, to which the loop adds before it looks for a removal. -/
def appliedAdhoc (outcomes : List (Filter × Outcome)) : List FilterColumn :=
  outcomes.filterMap fun entry =>
    match entry.1.col, entry.2 with
    | some (.adhoc label sql), .removed => some (.adhoc label sql)
    | some (.adhoc label sql), .applied _ => some (.adhoc label sql)
    | _, _ => none

def columnNames : List String := query.dataset.columns.map (·.name)

def rejectedFilterColumns (outcomes : List (Filter × Outcome)) (lists : TemplateFilters) :
    List FilterColumn :=
  ((filterColumns (outcomes.map (·.1))).filter fun col =>
    match col with
    | .name n => n ∉ columnNames query ∧ n ∉ lists.applied
    | .adhoc _ _ => false) ++ rejectedAdhoc outcomes

def appliedFilterColumns (outcomes : List (Filter × Outcome)) (lists : TemplateFilters) :
    List FilterColumn :=
  ((filterColumns (outcomes.map (·.1))).filter fun col =>
    match col with
    | .name n => n ∈ columnNames query ∨ n ∈ lists.applied
    | .adhoc _ _ => false) ++ appliedAdhoc outcomes

/-- What `get_sqla_query` says about its filters.  `later` is what the templates that are
rendered after the loop add. -/
structure Report where
  outcomes : List (Filter × Outcome)
  whereClauseAnd : List Clause
  lists : TemplateFilters
  rejected : List FilterColumn
  applied : List FilterColumn

def report (before later : TemplateFilters) (filters : List Filter) : Except QueryError Report := do
  let (outcomes, lists) ← filterLoop query before filters
  let lists := lists.add later
  return {
    outcomes
    whereClauseAnd := whereClauses outcomes
    lists
    rejected := rejectedFilterColumns query outcomes lists
    applied := appliedFilterColumns query outcomes lists }

/-- The SELECT around the clauses of the loop: `rest` has the time filters, the predicate and
the where text of the query. -/
def Report.select (r : Report) (rest : Conditions) (rls : List Clause) : Select :=
  plainSelect { rest with filters := r.whereClauseAnd } rls

/-- The expression that a filter compares, and its column of the dataset. -/
def Query.target (flt : Filter) : Option (Text × Option TableColumn) :=
  match flt.col with
  | none => none
  | some (.adhoc _ sql) => sql.map fun sql => (sql, none)
  | some (.name n) => (query.colObj n).map fun col => (sqlaColumn query col flt.grain, some col)

/-- The values of a filter, of which a single one may be null. -/
def itemsOf (flt : Filter) : List (Option Literal) :=
  match flt.val with
  | .none => []
  | .scalar value => [value]
  | .many values => values

def valueOf (flt : Filter) : Option Literal := (itemsOf flt).head?.join

section Asks
variable (row : Row) (column : Text)

def truth (comparison : Comparison) : Option Bool := (column.compareLast comparison).truth row

def Says (comparison : Comparison) : Prop := truth row column comparison = some true

def Denies (comparison : Comparison) : Prop := truth row column comparison = some false

/-- An operator and a value ask this of a row; without a value an order and a pattern ask
for nothing that a row has. -/
def OperatorAsks (flt : Filter) (col : Option TableColumn) : FilterOperator → Prop
  | .equals => Says row column ((valueOf flt).elim .isNull .eq)
  | .notEquals => Says row column ((valueOf flt).elim .isNotNull .ne)
  | .greaterThan => ∃ v ∈ valueOf flt, Says row column (.gt v)
  | .lessThan => ∃ v ∈ valueOf flt, Says row column (.lt v)
  | .greaterThanOrEquals => ∃ v ∈ valueOf flt, Says row column (.ge v)
  | .lessThanOrEquals => ∃ v ∈ valueOf flt, Says row column (.le v)
  | .like => ∃ v ∈ valueOf flt, if col.elim true (·.isString) then Says row column (.like v)
      else Says row column.grouped (.castLike v)
  | .notLike => ∃ v ∈ valueOf flt, if col.elim true (·.isString) then Says row column (.notLike v)
      else Says row column.grouped (.castNotLike v)
  | .ilike => ∃ v ∈ valueOf flt, if col.elim true (·.isString) then Says row column (.ilike v)
      else Says row column.grouped (.castIlike v)
  | .isNull => Says row column .isNull
  | .isNotNull => Says row column .isNotNull
  | .isIn => none ∈ itemsOf flt ∧ Says row column .isNull ∨
      Says row column (.isIn ((itemsOf flt).filterMap id))
  | .notIn => if none ∈ itemsOf flt then
        Denies row column .isNull ∧ Denies row column (.isIn ((itemsOf flt).filterMap id))
      else Says row column (.notIn ((itemsOf flt).filterMap id))
  | .isTrue => Says row column
      (if query.dataset.engine.useEqualityForBooleanFilters then .eq (.other "true") else .is true)
  | .isFalse => Says row column
      (if query.dataset.engine.useEqualityForBooleanFilters then .eq (.other "false") else
        .is false)
  | .temporalRange => ∃ range timeCol, valueOf flt = some (.str range) ∧ col = some timeCol ∧
      let bound := fun dttm => Literal.other (query.dataset.engine.dttmSqlLiteral dttm timeCol)
      (∀ since ∈ (query.sinceUntil range).1, Says row column (.ge (bound since))) ∧
        ∀ until_ ∈ (query.sinceUntil range).2, Says row column (.lt (bound until_))

end Asks

/-- What a filter asks of a row.  An advanced data type makes a condition of its own. -/
def Asks (flt : Filter) (row : Row) : Prop :=
  ∃ column col op, query.target flt = some (column, col) ∧ flt.op = some op ∧
    match col.bind (·.translateFilter) with
    | none => OperatorAsks query row column flt col op
    | some translate => ∃ clause, clause.Holds row ∧
        translate op (filterValuesHandler flt.val (op = .isIn || op = .notIn)) = .ok clause

def Outcome.Applied : Outcome → Prop
  | .applied _ => True
  | _ => False

/-- The filter has put clauses into the WHERE that hold on the rows it asks for, and on no
others. -/
def Report.Contributes (r : Report) (entry : Filter × Outcome) : Prop :=
  ∃ clauses, entry.2 = .applied clauses ∧
    (∀ rest rls, ∀ clause ∈ clauses, clause ∈ (r.select rest rls).criteria) ∧
    ∀ row, (∀ clause ∈ clauses, clause.Holds row) ↔ Asks query entry.1 row

/-- Every filter is applied or reported, and the reports are right. -/
structure Report.Right (r : Report) : Prop where
  accounted : ∀ entry ∈ r.outcomes, r.Contributes query entry ∨ ∃ col, entry.1.col = some col ∧
    (col.columnName ∈ r.lists.removed ∨ col ∈ r.rejected)
  rejected : ∀ col ∈ r.rejected, ∀ entry ∈ r.outcomes, entry.1.col = some col → ¬ entry.2.Applied
  applied : ∀ col ∈ r.applied, ∀ entry ∈ r.outcomes, entry.1.col = some col →
    r.Contributes query entry

/-- A template has removed the filters on the column or has read them; `__timestamp` stands
for the datetime column as well. -/
def TakenOver (lists : TemplateFilters) (col : FilterColumn) : Prop :=
  col.columnName ∈ lists.removed ∨ col.columnName ∈ lists.applied ∨
    col = .name DTTM_ALIAS ∧ ∃ c, query.colObj DTTM_ALIAS = some c ∧ c.name ∈ lists.removed

def TemplateFilters.Within (lists more : TemplateFilters) : Prop :=
  (∀ n ∈ lists.removed, n ∈ more.removed) ∧ ∀ n ∈ lists.applied, n ∈ more.applied

theorem TemplateFilters.Within.refl (lists : TemplateFilters) : lists.Within lists :=
  ⟨fun _ => id, fun _ => id⟩

theorem TemplateFilters.Within.trans {a b c : TemplateFilters} (first : a.Within b)
    (second : b.Within c) :
    a.Within c :=
  ⟨fun n member => second.1 n (first.1 n member), fun n member => second.2 n (first.2 n member)⟩

theorem TemplateFilters.within_add (lists more : TemplateFilters) : lists.Within (lists.add more) :=
  ⟨fun _ => List.mem_append_left _, fun _ => List.mem_append_left _⟩

variable {query}

theorem TakenOver.mono {lists more : TemplateFilters} {col : FilterColumn}
    (within : lists.Within more)
    (taken : TakenOver query lists col) : TakenOver query more col := by
  rcases taken with removed | applied | ⟨isAlias, c, found, removed⟩
  · exact .inl (within.1 _ removed)
  · exact .inr (.inl (within.2 _ applied))
  · exact .inr (.inr ⟨isAlias, c, found, within.1 _ removed⟩)

theorem columnByName_none {dataset : Dataset} {n : String} :
    dataset.columnByName n = none ↔ n ∉ dataset.columns.map (·.name) := by
  simp [Dataset.columnByName]

theorem not_mem_columnNames {n : String} (unknown : query.colObj n = none) :
    n ∉ columnNames query := by
  unfold Query.colObj at unknown
  split at unknown
  · rename_i isAlias
    rw [unknown] at isAlias
    simp at isAlias
  · exact columnByName_none.mp unknown

section Asks
variable {row : Row} {column : Text} {flt : Filter} {col : Option TableColumn} {op : FilterOperator}

theorem compare_holds (comparison : Comparison) :
    (Clause.compare column comparison).Holds row ↔ Says row column comparison := Iff.rfl

theorem or_holds (a b : Clause) : (Clause.or_ a b).Holds row ↔ a.Holds row ∨ b.Holds row :=
  Disjunction.holds_orElse row (a.reading false) (b.reading false)

theorem not_or_holds (a b : Comparison) :
    (Clause.negated (.or_ (.compare column a) (.compare column b))).Holds row ↔
      Denies row column a ∧ Denies row column b := by
  refine (Disjunction.holds_negated row _).trans ?_
  exact Disjunction.orElse_eq_false row (column.compareLast a) (column.compareLast b)

theorem length_filterMap_lt {items : List (Option Literal)} :
    (items.filterMap id).length < items.length ↔ none ∈ items := by
  rw [List.length_filterMap_lt_length_iff_exists]
  simp

theorem listFilter_holds (list : op = .isIn ∨ op = .notIn) :
    (listFilter column op (itemsOf flt)).Holds row ↔ OperatorAsks query row column flt col op := by
  unfold listFilter
  simp only [length_filterMap_lt]
  rcases list with rfl | rfl
  · by_cases null : none ∈ itemsOf flt
    · simp only [null, if_true, reduceCtorEq, if_false, or_holds, compare_holds, OperatorAsks,
        true_and]
    · simp only [null, if_false, reduceCtorEq, compare_holds, OperatorAsks, false_and, false_or]
  · by_cases null : none ∈ itemsOf flt
    · simp only [if_pos null, if_true, not_or_holds, OperatorAsks]
    · simp only [if_neg null, if_true, OperatorAsks]
      exact Disjunction.holds_grouped row _

theorem single_holds {clause : Clause} : (∀ c ∈ [clause], c.Holds row) ↔ clause.Holds row := by simp

theorem listTarget_asks {clauses : List Clause} (list : op = .isIn ∨ op = .notIn)
    (built : (match filterValuesHandler flt.val true with
      | .many [] => .error (.queryObjectValidationError "Filter value list cannot be empty")
      | .many items => .ok [listFilter column op items]
      | _ => .error .assertionError) = (.ok clauses : Except QueryError (List Clause))) :
    (∀ c ∈ clauses, c.Holds row) ↔ OperatorAsks query row column flt col op := by
  have items : ∀ items, filterValuesHandler flt.val true = .many items → items = itemsOf flt := by
    intro items
    unfold itemsOf filterValuesHandler
    cases flt.val <;> simp [eq_comm]
  split at built
  · cases built
  · rename_i found
    cases built
    rw [single_holds, items _ found]
    exact listFilter_holds list
  · cases built

theorem single_filterValuesHandler (flt : Filter) :
    (filterValuesHandler flt.val false).single = valueOf flt := by
  unfold valueOf itemsOf filterValuesHandler
  cases flt.val with
  | none => rfl
  | scalar value => rfl
  | many items => rfl

theorem getTimeFilter_holds {dataset : Dataset} {timeCol : TableColumn} {since until_ : Option Dttm}
    {grain : Option String} :
    (∀ c ∈ getTimeFilter dataset timeCol since until_ grain, c.Holds row) ↔
      let bound := fun dttm => Literal.other (dataset.engine.dttmSqlLiteral dttm timeCol)
      let column := grain.elim timeCol.sqlaCol (dataset.engine.timestampExpression timeCol)
      (∀ dttm ∈ since, Says row column (.ge (bound dttm))) ∧
        ∀ dttm ∈ until_, Says row column (.lt (bound dttm)) := by
  unfold getTimeFilter
  cases grain <;> cases since <;> cases until_ <;> simp [compare_holds]

theorem handleComparisonFilter_asks {clause : Clause}
    (built : handleComparisonFilter column op (valueOf flt) = some clause) :
    clause.Holds row ↔ OperatorAsks query row column flt col op := by
  cases value : valueOf flt with
  | none =>
    rw [value] at built
    cases op <;> cases built <;> simp [OperatorAsks, value, compare_holds]
  | some v =>
    rw [value] at built
    cases op <;> cases built <;> simp [OperatorAsks, value, compare_holds]

theorem likeFilter_asks {clause : Clause} {v : Literal} (value : valueOf flt = some v)
    (built : likeFilter column (col.elim true (·.isString)) op v = some clause) :
    clause.Holds row ↔ OperatorAsks query row column flt col op := by
  cases string : col.elim true (·.isString) <;> rw [string] at built <;> cases op <;>
    cases built <;>
    simp [OperatorAsks, value, string, compare_holds]

theorem booleanFilter_asks (b : Bool) (boolean : op = if b then .isTrue else .isFalse) :
    (handleBooleanFilter query.dataset column b).Holds row ↔
    OperatorAsks query row column flt col op := by
  subst boolean
  unfold handleBooleanFilter
  cases b <;> cases equality : query.dataset.engine.useEqualityForBooleanFilters <;>
    simp [OperatorAsks, equality, compare_holds, toString]

/-- The clauses of a filter on a known column hold on just the rows that it asks for. -/
theorem applyFilter_asks {clauses : List Clause}
    (named : ∀ timeCol, col = some timeCol → column = sqlaColumn query timeCol flt.grain)
    (built : applyFilter query.dataset query.sinceUntil col column op flt = .ok clauses) :
    (∀ c ∈ clauses, c.Holds row) ↔ match col.bind (·.translateFilter) with
      | none => OperatorAsks query row column flt col op
      | some translate => ∃ clause, clause.Holds row ∧
          translate op (filterValuesHandler flt.val (op = .isIn || op = .notIn)) = .ok clause := by
  unfold applyFilter at built
  cases advanced : col.bind (·.translateFilter) with
  | some translate =>
    rw [advanced] at built
    obtain ⟨clause, made, built⟩ := ok_of_bind built
    cases built
    rw [single_holds]
    constructor
    · exact fun holds => ⟨clause, holds, made⟩
    · rintro ⟨other, holds, madeOther⟩
      cases made.symm.trans madeOther
      exact holds
  | none =>
    rw [advanced] at built
    by_cases list : op = .isIn ∨ op = .notIn
    · have isList : (decide (op = .isIn) || decide (op = .notIn)) = true := by simpa using list
      simp only [isList, if_true] at built
      exact listTarget_asks list built
    · have single : (decide (op = .isIn) || decide (op = .notIn)) = false := by simpa using list
      simp only [single, Bool.false_eq_true, if_false] at built
      rw [single_filterValuesHandler] at built
      split at built
      · rename_i null
        cases built
        rw [single_holds]
        rcases (by simpa using null : op = .isNull ∨ op = .isNotNull) with rfl | rfl
        · exact Iff.rfl
        · exact Iff.rfl
      split at built
      · rename_i isTrue
        cases built
        rw [single_holds]
        exact booleanFilter_asks true isTrue
      split at built
      · rename_i isFalse
        cases built
        rw [single_holds]
        exact booleanFilter_asks false isFalse
      split at built
      · rename_i compared
        cases built
        rw [single_holds]
        exact handleComparisonFilter_asks compared
      split at built
      · cases built
      rename_i v value
      split at built
      · rename_i like
        cases built
        rw [single_holds]
        exact likeFilter_asks value like
      split at built
      · cases built
        rw [getTimeFilter_holds, named _ rfl]
        cases flt.grain <;> simp [OperatorAsks, value, sqlaColumn]
      · cases built

theorem asks_of_applied {clauses : List Clause} (target : query.target flt = some (column, col))
    (hasOp : flt.op = some op)
    (named : ∀ timeCol, col = some timeCol → column = sqlaColumn query timeCol flt.grain)
    (built : applyFilter query.dataset query.sinceUntil col column op flt = .ok clauses) :
    (∀ clause ∈ clauses, clause.Holds row) ↔ Asks query flt row := by
  rw [applyFilter_asks named built]
  constructor
  · exact fun asks => ⟨column, col, op, target, hasOp, asks⟩
  · rintro ⟨_, _, _, otherTarget, otherOp, asks⟩
    cases target.symm.trans otherTarget
    cases hasOp.symm.trans otherOp
    exact asks

end Asks

def OutcomeFits (query : Query) (lists : TemplateFilters) (flt : Filter) : Outcome → Prop
  | .incomplete => flt.col = none ∨ flt.op = none
  | .notFound => ∃ label, flt.col = some (.adhoc label none)
  | .unknown => ∃ n, flt.col = some (.name n) ∧ query.colObj n = none
  | .removed =>
    ∃ col, flt.col = some col ∧ TakenOver query lists col ∧ ∀ label, col ≠ .adhoc label none
  | .applied clauses => (∃ col, flt.col = some col ∧ (∀ label, col ≠ .adhoc label none) ∧
      ∀ n, col = .name n → query.colObj n ≠ none) ∧
        ∀ row, (∀ clause ∈ clauses, clause.Holds row) ↔ Asks query flt row

theorem filterStep_spec {lists after : TemplateFilters} {flt : Filter} {outcome : Outcome}
    (step : filterStep query lists flt = .ok (outcome, after)) :
    lists.Within after ∧ OutcomeFits query after flt outcome := by
  unfold filterStep at step
  split at step
  · rename_i label sql op isAdhoc hasOp
    cases sql with
    | none =>
      cases step
      exact ⟨.refl lists, label, isAdhoc⟩
    | some sql =>
      simp only at step
      split at step
      · rename_i removed
        cases step
        exact ⟨.refl lists, _, isAdhoc, .inl removed, nofun⟩
      · obtain ⟨clauses, built, step⟩ := ok_of_bind step
        cases step
        refine ⟨.refl lists, ⟨_, isAdhoc, nofun, nofun⟩, fun row => ?_⟩
        refine asks_of_applied (by simp [Query.target, isAdhoc]) hasOp ?_ built
        rintro _ ⟨⟩
  · rename_i columnName op isName hasOp
    cases found : query.colObj columnName with
    | none =>
      rw [found] at step
      simp only at step
      split at step
      · rename_i removed
        cases step
        exact ⟨.refl lists, _, isName, .inl removed, nofun⟩
      · cases step
        exact ⟨.refl lists, columnName, isName, found⟩
    | some col =>
      rw [found] at step
      simp only at step
      split at step
      · rename_i removed
        cases step
        refine ⟨.refl lists, _, isName, ?_, nofun⟩
        rcases removed with byName | ⟨rfl, byColumn⟩
        · exact .inl byName
        · exact .inr (.inr ⟨rfl, col, found, byColumn⟩)
      · obtain ⟨clauses, built, step⟩ := ok_of_bind step
        cases step
        refine ⟨lists.within_add _, ⟨_, isName, nofun, ?_⟩, fun row => ?_⟩
        · rintro n ⟨⟩
          rw [found]
          nofun
        · refine asks_of_applied (by simp [Query.target, isName, found]) hasOp ?_ built
          rintro timeCol ⟨⟩
          rfl
  · rename_i notAdhoc notName
    cases step
    refine ⟨.refl lists, ?_⟩
    cases hasCol : flt.col with
    | none => exact .inl hasCol
    | some col =>
      cases hasOp : flt.op with
      | none => exact .inr hasOp
      | some op =>
        cases col with
        | adhoc label sql => exact absurd hasOp (notAdhoc label sql op hasCol)
        | name n => exact absurd hasOp (notName n op hasCol)

theorem OutcomeFits.mono {lists more : TemplateFilters} (within : lists.Within more) {flt : Filter}
    {outcome : Outcome}
    (fits : OutcomeFits query lists flt outcome) : OutcomeFits query more flt outcome := by
  cases outcome with
  | removed =>
    obtain ⟨col, hasCol, taken, found⟩ := fits
    exact ⟨col, hasCol, taken.mono within, found⟩
  | incomplete | notFound | unknown | applied => exact fits

variable {outcomes : List (Filter × Outcome)}

theorem filterLoop_cons {lists final : TemplateFilters} {flt : Filter} {filters : List Filter}
    (run : filterLoop query lists (flt :: filters) = .ok (outcomes, final)) :
    ∃ outcome after rest, filterStep query lists flt = .ok (outcome, after) ∧
      filterLoop query after filters = .ok (rest, final) ∧ outcomes = (flt, outcome) :: rest := by
  obtain ⟨⟨outcome, after⟩, step, run⟩ := ok_of_bind run
  obtain ⟨⟨rest, final'⟩, tail, run⟩ := ok_of_bind run
  cases run
  exact ⟨outcome, after, rest, step, tail, rfl⟩

theorem filterLoop_spec {lists final : TemplateFilters} {filters : List Filter}
    (run : filterLoop query lists filters = .ok (outcomes, final)) :
    lists.Within final ∧ outcomes.map (·.1) = filters ∧
      ∀ entry ∈ outcomes, OutcomeFits query final entry.1 entry.2 := by
  induction filters generalizing lists outcomes with
  | nil =>
    cases run
    exact ⟨.refl _, rfl, by simp⟩
  | cons flt filters ih =>
    obtain ⟨outcome, after, rest, step, tail, rfl⟩ := filterLoop_cons run
    obtain ⟨firstWithin, fits⟩ := filterStep_spec step
    obtain ⟨restWithin, sameFilters, restFits⟩ := ih tail
    refine ⟨firstWithin.trans restWithin, by simp [sameFilters], ?_⟩
    rintro entry (- | ⟨-, member⟩)
    · exact fits.mono restWithin
    · exact restFits entry member

theorem mem_rejectedAdhoc {col : FilterColumn} :
    col ∈ rejectedAdhoc outcomes ↔ (∃ label sql, col = .adhoc label sql) ∧
      ∃ entry ∈ outcomes, entry.1.col = some col ∧ entry.2 = .notFound := by
  rw [rejectedAdhoc, List.mem_filterMap]
  constructor
  · rintro ⟨entry, member, isCol⟩
    split at isCol
    · rename_i label sql hasCol notFound
      cases isCol
      exact ⟨⟨label, sql, rfl⟩, entry, member, hasCol, notFound⟩
    · cases isCol
  · rintro ⟨⟨label, sql, rfl⟩, entry, member, hasCol, notFound⟩
    exact ⟨entry, member, by rw [hasCol, notFound]⟩

theorem of_mem_appliedAdhoc {col : FilterColumn} (member : col ∈ appliedAdhoc outcomes) :
    (∃ label sql, col = .adhoc label sql) ∧
      ∃ entry ∈ outcomes, entry.1.col = some col ∧ (entry.2 = .removed ∨ entry.2.Applied) := by
  rw [appliedAdhoc, List.mem_filterMap] at member
  obtain ⟨entry, listed, isCol⟩ := member
  split at isCol
  · rename_i label sql hasCol removed
    cases isCol
    exact ⟨⟨label, sql, rfl⟩, entry, listed, hasCol, .inl removed⟩
  · rename_i label sql clauses hasCol applied
    cases isCol
    exact ⟨⟨label, sql, rfl⟩, entry, listed, hasCol, .inr (by rw [applied]; trivial)⟩
  · cases isCol

theorem mem_rejectedFilterColumns_name {lists : TemplateFilters} {n : String} :
    .name n ∈ rejectedFilterColumns query outcomes lists ↔
      (∃ entry ∈ outcomes, entry.1.col = some (.name n)) ∧ n ∉ columnNames query ∧
      n ∉ lists.applied := by
  simp [rejectedFilterColumns, filterColumns, mem_rejectedAdhoc]

theorem mem_appliedFilterColumns_name {lists : TemplateFilters} {n : String}
    (member : .name n ∈ appliedFilterColumns query outcomes lists) :
    n ∈ columnNames query ∨ n ∈ lists.applied := by
  rcases List.mem_append.mp member with listed | adhoc
  · simpa using (List.mem_filter.mp listed).2
  · obtain ⟨⟨label, sql, isAdhoc⟩, -⟩ := of_mem_appliedAdhoc adhoc
    cases isAdhoc

theorem report_spec {before later : TemplateFilters} {filters : List Filter} {r : Report}
    (reported : report query before later filters = .ok r) :
    r.outcomes.map (·.1) = filters ∧
    (∀ entry ∈ r.outcomes, OutcomeFits query r.lists entry.1 entry.2) ∧
      r.whereClauseAnd = whereClauses r.outcomes ∧
      r.rejected = rejectedFilterColumns query r.outcomes r.lists ∧
      r.applied = appliedFilterColumns query r.outcomes r.lists := by
  obtain ⟨⟨outcomes, lists⟩, run, reported⟩ := ok_of_bind reported
  cases reported
  obtain ⟨-, sameFilters, fits⟩ := filterLoop_spec run
  exact ⟨sameFilters, fun entry member => (fits entry member).mono (lists.within_add later), rfl,
    rfl, rfl⟩

theorem mem_select {r : Report} (rest : Conditions) (rls : List Clause) {clause : Clause}
    (member : clause ∈ r.whereClauseAnd) : clause ∈ (r.select rest rls).criteria := by
  unfold Report.select plainSelect whereClauseAnd
  split
  · simp [member]
  · simp [member]

section Reported
variable {r : Report} (fits : ∀ entry ∈ r.outcomes, OutcomeFits query r.lists entry.1 entry.2)
include fits

theorem contributes_of_applied (contributed : r.whereClauseAnd = whereClauses r.outcomes)
    {entry : Filter × Outcome}
    (member : entry ∈ r.outcomes) (applied : entry.2.Applied) : r.Contributes query entry := by
  have fit := fits entry member
  cases outcome : entry.2 with
  | incomplete | notFound | unknown | removed =>
    rw [outcome] at applied
    exact absurd applied id
  | applied clauses =>
    rw [outcome] at fit
    refine ⟨clauses, outcome, ?_, fit.2⟩
    intro rest rls clause listed
    refine mem_select rest rls ?_
    rw [contributed]
    exact List.mem_flatMap.mpr ⟨entry, member, by rwa [outcome]⟩

/-- A filter with a column and an operator is applied, taken over by a template, or rejected. -/
theorem accounted_of_complete
    (rejected : r.rejected = rejectedFilterColumns query r.outcomes r.lists)
    (entry : Filter × Outcome) (member : entry ∈ r.outcomes) (col : FilterColumn)
    (hasCol : entry.1.col = some col) (hasOp : entry.1.op ≠ none) :
    entry.2.Applied ∨ TakenOver query r.lists col ∨ col ∈ r.rejected := by
  have fit := fits entry member
  cases outcome : entry.2 with
  | applied clauses => exact .inl trivial
  | incomplete =>
    rw [outcome] at fit
    rcases fit with noCol | noOp
    · cases hasCol.symm.trans noCol
    · exact absurd noOp hasOp
  | removed =>
    rw [outcome] at fit
    obtain ⟨col', hasCol', taken, -⟩ := fit
    cases hasCol.symm.trans hasCol'
    exact .inr (.inl taken)
  | notFound =>
    rw [outcome] at fit
    obtain ⟨label, isAdhoc⟩ := fit
    cases hasCol.symm.trans isAdhoc
    refine .inr (.inr ?_)
    rw [rejected]
    exact List.mem_append_right _
      (mem_rejectedAdhoc.mpr ⟨⟨_, _, rfl⟩, entry, member, hasCol, outcome⟩)
  | unknown =>
    rw [outcome] at fit
    obtain ⟨n, isName, unknown⟩ := fit
    cases hasCol.symm.trans isName
    by_cases read : n ∈ r.lists.applied
    · exact .inr (.inl (.inr (.inl read)))
    · refine .inr (.inr ?_)
      rw [rejected, mem_rejectedFilterColumns_name]
      exact ⟨⟨entry, member, hasCol⟩, not_mem_columnNames unknown, read⟩

theorem not_applied_of_rejected
    (rejected : r.rejected = rejectedFilterColumns query r.outcomes r.lists)
    (col : FilterColumn) (isRejected : col ∈ r.rejected) (notAlias : col ≠ .name DTTM_ALIAS)
    (entry : Filter × Outcome) (member : entry ∈ r.outcomes) (hasCol : entry.1.col = some col) :
    ¬ entry.2.Applied := by
  intro applied
  have fit := fits entry member
  cases outcome : entry.2 with
  | incomplete | notFound | unknown | removed =>
    rw [outcome] at applied
    exact applied
  | applied clauses =>
    rw [outcome] at fit
    obtain ⟨⟨col', hasCol', notMissing, known⟩, -⟩ := fit
    cases hasCol.symm.trans hasCol'
    rw [rejected] at isRejected
    cases col with
    | name n =>
      obtain ⟨-, unlisted, -⟩ := mem_rejectedFilterColumns_name.mp isRejected
      refine known n rfl ?_
      have noAlias : n ≠ DTTM_ALIAS := fun isAlias => notAlias (congrArg _ isAlias)
      rw [Query.colObj, if_neg (by simp [noAlias])]
      exact columnByName_none.mpr unlisted
    | adhoc label sql =>
      rcases List.mem_append.mp isRejected with listed | adhoc
      · simp at listed
      · obtain ⟨-, other, listed, hasCol', notFound⟩ := mem_rejectedAdhoc.mp adhoc
        have otherFit := fits other listed
        rw [notFound] at otherFit
        obtain ⟨label', isMissing⟩ := otherFit
        cases hasCol'.symm.trans isMissing
        exact notMissing _ rfl

/-- An applied column is not a rejected one. -/
theorem not_rejected_of_applied
    (rejected : r.rejected = rejectedFilterColumns query r.outcomes r.lists)
    (applied : r.applied = appliedFilterColumns query r.outcomes r.lists) (col : FilterColumn)
    (isApplied : col ∈ r.applied) : col ∉ r.rejected := by
  intro isRejected
  rw [rejected] at isRejected
  rw [applied] at isApplied
  cases col with
  | name n =>
    obtain ⟨-, unlisted, unread⟩ := mem_rejectedFilterColumns_name.mp isRejected
    rcases mem_appliedFilterColumns_name isApplied with known | read
    · exact unlisted known
    · exact unread read
  | adhoc label sql =>
    have missing : sql = none := by
      rcases List.mem_append.mp isRejected with listed | adhoc
      · simp at listed
      · obtain ⟨-, other, listed, hasCol', notFound⟩ := mem_rejectedAdhoc.mp adhoc
        have fit := fits other listed
        rw [notFound] at fit
        obtain ⟨label', isMissing⟩ := fit
        cases hasCol'.symm.trans isMissing
        rfl
    rcases List.mem_append.mp isApplied with listed | adhoc
    · simp at listed
    · obtain ⟨-, other, listed, hasCol', found⟩ := of_mem_appliedAdhoc adhoc
      have fit := fits other listed
      cases outcome : other.2 with
      | incomplete | notFound | unknown => simp [outcome, Outcome.Applied] at found
      | removed =>
        rw [outcome] at fit
        obtain ⟨col', isCol, -, notMissing⟩ := fit
        cases hasCol'.symm.trans isCol
        exact notMissing label (congrArg _ missing)
      | applied clauses =>
        rw [outcome] at fit
        obtain ⟨⟨col', isCol, notMissing, -⟩, -⟩ := fit
        cases hasCol'.symm.trans isCol
        exact notMissing label (congrArg _ missing)

end Reported

def cities : Query where
  dataset := {
    engine := {
      dttmSqlLiteral := fun _ _ => ""
      timestampExpression := fun col _ => col.sqlaCol }
    columns := [{ name := "city" }] }
  sinceUntil := fun _ => (none, none)
  renders := fun _ => {}
  isTimeseries := false
  dttmCol := none

def equalTo (column : String) : Filter :=
  { col := some (.name column), op := some .equals, val := .scalar (some (.str "x")) }

def namelessColumn : Filter :=
  { col := some (.adhoc "label" none), op := some .equals, val := .scalar (some (.str "x")) }

def citiesFilters : List Filter :=
  [equalTo "city", equalTo "region", equalTo "town", namelessColumn]

end Liteset.Sql.Chart.Reports
