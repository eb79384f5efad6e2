import Liteset.Lib.Condition

/-!
# The WHERE clauses of a chart query

`get_sqla_query` and `values_for_column` of `superset/models/helpers.py`, with
`compose_rls_text_clauses` of `superset/utils/rls.py` and the filter handlers of
the engine spec.  The SELECT list, GROUP BY, HAVING and ORDER BY are left out:
they do not decide which rows of the dataset are read.

SQLAlchemy parenthesises an OR below an AND, but copies `text()` and
`literal_column()` as they are; the database reads the compiled text.
-/

set_option autoImplicit false

namespace Liteset.Sql.Chart

open Liteset.Lib.Condition

inductive Literal where
  | str (s : String)
  | other (rendered : String)
  deriving DecidableEq

/-- The right-hand sides of SQLAlchemy's column operators; `cast*` first cast
their left operand to a string. -/
inductive Comparison where
  | eq (value : Literal)
  | ne (value : Literal)
  | gt (value : Literal)
  | lt (value : Literal)
  | ge (value : Literal)
  | le (value : Literal)
  | like (value : Literal)
  | notLike (value : Literal)
  | ilike (value : Literal)
  | castLike (value : Literal)
  | castNotLike (value : Literal)
  | castIlike (value : Literal)
  | isNull
  | isNotNull
  | isIn (values : List Literal)
  | notIn (values : List Literal)
  | is (value : Bool)
  deriving DecidableEq

abbrev Text := Disjunction String Comparison

abbrev SqlToken := Token String Comparison

abbrev Row := Valuation String Comparison

inductive Clause where
  | text (t : Text)
  | compare (column : Text) (comparison : Comparison)
  | grouped (c : Clause)
  | negated (c : Clause)
  | and_ (a b : Clause)
  | or_ (a b : Clause)

/-- The compiled text; `underAnd` is `self_group(against=and_)`. -/
def Clause.render : Bool → Clause → List SqlToken
  | _, .text t => t.tokens
  | _, .compare column comparison => column.tokens ++ [.compare comparison]
  | _, .grouped c => .openGroup :: c.render false ++ [.closeGroup]
  | _, .negated c => .not :: .openGroup :: c.render false ++ [.closeGroup]
  | _, .and_ a b => a.render true ++ .and :: b.render true
  | false, .or_ a b => a.render false ++ .or :: b.render false
  | true, .or_ a b => .openGroup :: (a.render false ++ .or :: b.render false) ++ [.closeGroup]

def orAll (first : Clause) (rest : List Clause) : Clause := rest.foldl .or_ first

structure RlsFilter where
  clause : Text
  groupKey : Option String

def rlsTextClause (rendered : Text) : Clause := .text rendered.grouped

def groupKeys : List RlsFilter → List String
  | [] => []
  | f :: fs =>
    match f.groupKey with
    | none => groupKeys fs
    | some key => key :: (groupKeys fs).filter (· ≠ key)

def groupClause (filters : List RlsFilter) (key : String) : Option Clause :=
  match (filters.filter (·.groupKey = some key)).map (rlsTextClause ·.clause) with
  | [] => none
  | clause :: clauses => some (orAll clause clauses)

/-- `compose_rls_text_clauses` and `compose_rls_where_clauses`: a guest clause may be empty. -/
def composeRlsTextClauses (filters : List RlsFilter) (guestClauses : List (Option Text)) :
    List Clause :=
  (filters.filter (·.groupKey = none)).map (rlsTextClause ·.clause) ++
    guestClauses.filterMap (Option.map rlsTextClause) ++
    (groupKeys filters).filterMap (groupClause filters)

inductive RlsClause where
  | element (c : Clause)
  | fragment (stripped : Option Text)

def RlsClause.clause : RlsClause → Option Clause
  | .element c => some c
  | .fragment stripped => stripped.map .text

abbrev Dttm := Int

inductive FilterOperator where
  | equals | notEquals | greaterThan | lessThan | greaterThanOrEquals | lessThanOrEquals
  | like | notLike | ilike | isNull | isNotNull | isIn | notIn | isTrue | isFalse
  | temporalRange
  deriving DecidableEq

inductive QueryError where
  | queryObjectValidationError (message : String)
  | notImplementedError
  | assertionError
  | keyError (key : String)
  deriving DecidableEq

/-- The value of a filter after its items went through `handle_single_value`. -/
inductive FilterValue where
  | none
  | scalar (value : Option Literal)
  | many (values : List (Option Literal))

/-- The value of an operator that takes one, where `none` is `None`. -/
def FilterValue.single : FilterValue → Option Literal
  | .scalar value => value
  | _ => .none

structure TableColumn where
  name : String
  expression : Option Text := none
  isDttm : Bool := false
  isString : Bool := true
  /-- `translate_filter` of the column's advanced data type, when that is enabled. -/
  translateFilter : Option (FilterOperator → FilterValue → Except QueryError Clause) := none

/-- `convert_tbl_column_to_sqla_col` -/
def TableColumn.sqlaCol (column : TableColumn) : Text :=
  column.expression.getD (.one (.one (.mk 0 (.atom column.name))))

structure EngineSpec where
  allowsJoins : Bool := true
  allowsSubqueries : Bool := true
  timeGroupbyInline : Bool := false
  useEqualityForBooleanFilters : Bool := false
  dttmSqlLiteral : Dttm → TableColumn → String
  timestampExpression : TableColumn → String → Text

structure Dataset where
  engine : EngineSpec
  columns : List TableColumn
  mainDttmCol : Option String := none
  alwaysFilterMainDttm : Bool := false
  fetchValuesPredicate : Option Text := none

def Dataset.dttmCols (dataset : Dataset) : List String :=
  let cols := (dataset.columns.filter (·.isDttm)).map (·.name)
  match dataset.mainDttmCol with
  | none => cols
  | some main => if main ∈ cols then cols else cols ++ [main]

/-- `columns_by_name`: the last column of a name wins. -/
def Dataset.columnByName (dataset : Dataset) (name : String) : Option TableColumn :=
  dataset.columns.reverse.find? (·.name = name)

inductive FilterColumn where
  | name (columnName : String)
  | adhoc (label : String) (sql : Option Text)

def FilterColumn.columnName : FilterColumn → String
  | .name columnName => columnName
  | .adhoc label _ => label

structure Filter where
  col : Option FilterColumn
  op : Option FilterOperator
  val : FilterValue := .none
  grain : Option String := none

structure QueryObject where
  applyFetchValuesPredicate : Bool := false
  granularity : Option String := none
  isTimeseries : Bool := false
  fromDttm : Option Dttm := none
  toDttm : Option Dttm := none
  innerFromDttm : Option Dttm := none
  innerToDttm : Option Dttm := none
  filter : List Filter := []
  /-- `extras.where`, rendered and sanitized. -/
  extrasWhere : Option Text := none
  /-- `series_limit` is set and there are series columns to limit. -/
  limitsSeries : Bool := false
  groupOthersWhenLimitReached : Bool := false
  isRowcount : Bool := false
  /-- Columns whose filters the templates of the dataset took over. -/
  removedFilters : List String := []

def DTTM_ALIAS : String := "__timestamp"

section Query
variable (dataset : Dataset)

/-- `get_time_filter`, whose `and_` is taken apart by the `and_` around it. -/
def getTimeFilter (timeCol : TableColumn) (startDttm endDttm : Option Dttm)
    (timeGrain : Option String) : List Clause :=
  let col := match timeGrain with
    | some grain => dataset.engine.timestampExpression timeCol grain
    | none => timeCol.sqlaCol
  let literal := fun dttm => Literal.other (dataset.engine.dttmSqlLiteral dttm timeCol)
  (startDttm.map fun dttm => Clause.compare col (.ge (literal dttm))).toList ++
    (endDttm.map fun dttm => Clause.compare col (.lt (literal dttm))).toList

def filterValuesHandler (values : FilterValue) (isListTarget : Bool) : FilterValue :=
  match values with
  | .none => .none
  | .scalar value => if isListTarget then .many [value] else .scalar value
  | .many items => if isListTarget then .many items else .scalar (items.head?.join)

def handleNullFilter (sqlaCol : Text) (op : FilterOperator) : Clause :=
  .compare sqlaCol (if op = .isNull then .isNull else .isNotNull)

def handleBooleanFilter (sqlaCol : Text) (value : Bool) : Clause :=
  if dataset.engine.useEqualityForBooleanFilters then
    .compare sqlaCol (.eq (.other (toString value)))
  else .compare sqlaCol (.is value)

/-- `IN` and `NOT IN`: a null among the values becomes `IS NULL OR …`. -/
def listFilter (sqlaCol : Text) (op : FilterOperator) (eq : List (Option Literal)) : Clause :=
  let values := eq.filterMap id
  if values.length < eq.length then
    let cond := Clause.or_ (.compare sqlaCol .isNull) (.compare sqlaCol (.isIn values))
    if op = .notIn then .negated cond else cond
  else if op = .notIn then .grouped (.compare sqlaCol (.notIn values))
  else .compare sqlaCol (.isIn values)

/-- `handle_comparison_filter` with SQLAlchemy's reading of `== None` and `!= None`. -/
def handleComparisonFilter (sqlaCol : Text) (op : FilterOperator) (eq : Option Literal) :
    Option Clause :=
  match op, eq with
  | .equals, none => some (.compare sqlaCol .isNull)
  | .notEquals, none => some (.compare sqlaCol .isNotNull)
  | .equals, some v => some (.compare sqlaCol (.eq v))
  | .notEquals, some v => some (.compare sqlaCol (.ne v))
  | .greaterThan, some v => some (.compare sqlaCol (.gt v))
  | .lessThan, some v => some (.compare sqlaCol (.lt v))
  | .greaterThanOrEquals, some v => some (.compare sqlaCol (.ge v))
  | .lessThanOrEquals, some v => some (.compare sqlaCol (.le v))
  | _, _ => none

/-- `LIKE` and its kin; a column that is not a string is cast first. -/
def likeFilter (sqlaCol : Text) (isString : Bool) (op : FilterOperator) (v : Literal) :
    Option Clause :=
  match op, isString with
  | .like, true => some (.compare sqlaCol (.like v))
  | .ilike, true => some (.compare sqlaCol (.ilike v))
  | .notLike, true => some (.compare sqlaCol (.notLike v))
  | .like, false => some (.compare sqlaCol.grouped (.castLike v))
  | .ilike, false => some (.compare sqlaCol.grouped (.castIlike v))
  | .notLike, false => some (.compare sqlaCol.grouped (.castNotLike v))
  | _, _ => none

/-- The clauses that a filter on a known column adds to `where_clause_and`. -/
def applyFilter (sinceUntil : String → Option Dttm × Option Dttm) (colObj : Option TableColumn)
    (sqlaCol : Text) (op : FilterOperator) (flt : Filter) : Except QueryError (List Clause) :=
  let isListTarget := op = .isIn || op = .notIn
  let eq := filterValuesHandler flt.val isListTarget
  match colObj.bind (·.translateFilter) with
  | some translate => return [← translate op eq]
  | none =>
    if isListTarget then
      match eq with
      | .many [] => .error (.queryObjectValidationError "Filter value list cannot be empty")
      | .many items => .ok [listFilter sqlaCol op items]
      | _ => .error .assertionError
    else if op = .isNull || op = .isNotNull then .ok [handleNullFilter sqlaCol op]
    else if op = .isTrue then .ok [handleBooleanFilter dataset sqlaCol true]
    else if op = .isFalse then .ok [handleBooleanFilter dataset sqlaCol false]
    else
      let value := eq.single
      match handleComparisonFilter sqlaCol op value with
      | some clause => .ok [clause]
      | none =>
        match value with
        | none => .error (.queryObjectValidationError
            "Must specify a value for filters with comparison operators")
        | some v =>
          match likeFilter sqlaCol (colObj.elim true (·.isString)) op v with
          | some clause => .ok [clause]
          | none =>
            match op, v, colObj with
            | .temporalRange, .str range, some timeCol =>
              let (since, until_) := sinceUntil range
              .ok (getTimeFilter dataset timeCol since until_ flt.grain)
            | _, _, _ =>
              .error (.queryObjectValidationError "Invalid filter operation type")

/-- One turn of the loop over `filter`. -/
def filterClauses (sinceUntil : String → Option Dttm × Option Dttm) (q : QueryObject)
    (dttmCol : Option TableColumn) (flt : Filter) : Except QueryError (List Clause) :=
  match flt.col, flt.op with
  | some (.adhoc label (some sql)), some op =>
    if label ∈ q.removedFilters then .ok [] else applyFilter dataset sinceUntil none sql op flt
  | some (.name columnName), some op =>
    let isAlias := columnName = DTTM_ALIAS
    let colObj := if isAlias && q.isTimeseries && dttmCol.isSome then dttmCol
      else dataset.columnByName columnName
    match colObj with
    | none => .ok []
    | some col =>
      if columnName ∈ q.removedFilters || (isAlias && col.name ∈ q.removedFilters) then .ok []
      else
        let sqlaCol := match flt.grain with
          | some grain => dataset.engine.timestampExpression col grain
          | none => col.sqlaCol
        applyFilter dataset sinceUntil (some col) sqlaCol op flt
  | _, _ => .ok []

/-- What `get_sqla_query` has put together before it looks at row-level security. -/
structure Conditions where
  granularity : Option String
  dttmCol : Option TableColumn
  fetchPredicate : Option Text
  timeFilters : List Clause
  filters : List Clause
  extrasWhere : Option Text

def timeFilters (q : QueryObject) (dttmCol : TableColumn) : Except QueryError (List Clause) := do
  let range := fun col => getTimeFilter dataset col q.fromDttm q.toDttm none
  let main ← match dataset.mainDttmCol with
    | some main =>
      if dataset.alwaysFilterMainDttm && main ∈ dataset.dttmCols && main ≠ dttmCol.name &&
          main ∉ q.removedFilters then
        match dataset.columnByName main with
        | some col => pure (range col)
        | none => throw (.keyError main)
      else pure []
    | none => pure []
  let own := if dttmCol.name ∈ q.removedFilters || DTTM_ALIAS ∈ q.removedFilters then []
    else range dttmCol
  return main ++ own

/-- The code outside this file: ranges of a time expression, and whether
`_process_select_expression` accepts a where text. -/
structure QuerySettings where
  sinceUntil : String → Option Dttm × Option Dttm
  processSelectExpression : Text → Except QueryError Unit

def resolveGranularity (q : QueryObject) : Option String :=
  q.granularity.bind fun name =>
    if name ∈ dataset.dttmCols then some name else dataset.mainDttmCol

def granularityTimeFilters (q : QueryObject) : Except QueryError (List Clause) :=
  match resolveGranularity dataset q with
  | none =>
    if q.isTimeseries then .error (.queryObjectValidationError
      "Datetime column not provided as part table configuration and is required by this type of chart")
    else .ok []
  | some name =>
    match dataset.columnByName name with
    | none => .error (.queryObjectValidationError
        ("Time column \"" ++ name ++ "\" does not exist in dataset"))
    | some col => timeFilters dataset q col

def conditions (settings : QuerySettings) (q : QueryObject) : Except QueryError Conditions := do
  let granularity := resolveGranularity dataset q
  let dttmCol := granularity.bind dataset.columnByName
  let time ← granularityTimeFilters dataset q
  let filters ← q.filter.mapM (filterClauses dataset settings.sinceUntil q dttmCol)
  q.extrasWhere.elim (.ok ()) settings.processSelectExpression
  return {
    granularity
    dttmCol
    fetchPredicate := if q.applyFetchValuesPredicate then dataset.fetchValuesPredicate else none
    timeFilters := time
    filters := filters.flatten
    extrasWhere := q.extrasWhere }

inductive JoinKind where
  | inner
  | leftOuter
  deriving DecidableEq

/-- A SELECT over the rows of the dataset: the operands of its WHERE in the
order in which they are compiled. -/
structure Select where
  criteria : List Clause

structure SqlaQuery where
  outer : Select
  series : Option (JoinKind × Select) := none
  rowcount : Bool := false

def whereClauseAnd (c : Conditions) (rls : List Clause) : List Clause :=
  c.filters ++ rls ++ (c.extrasWhere.map .text).toList

def predicateClause (c : Conditions) : List Clause := (c.fetchPredicate.map .text).toList

def plainSelect (c : Conditions) (rls : List Clause) : Select :=
  if c.granularity.isSome then ⟨predicateClause c ++ (c.timeFilters ++ whereClauseAnd c rls)⟩
  else ⟨predicateClause c ++ whereClauseAnd c rls⟩

/-- `_reapply_query_filters`, on the statement rebuilt for the Others group: with
and without a granularity it filters on the same list. -/
def reapplyQueryFilters (c : Conditions) (rls : List Clause) : Select :=
  ⟨predicateClause c ++ (c.timeFilters ++ whereClauseAnd c rls)⟩

def innerTimeFilter (q : QueryObject) (c : Conditions) : List Clause :=
  match c.dttmCol with
  | some col =>
    if dataset.engine.timeGroupbyInline then []
    else getTimeFilter dataset col (q.innerFromDttm.or q.fromDttm) (q.innerToDttm.or q.toDttm)
      none
  | none => []

def seriesSubquery (q : QueryObject) (c : Conditions) (rls : List Clause) : Select :=
  ⟨whereClauseAnd c rls ++ innerTimeFilter dataset q c⟩

def joinsSeries (q : QueryObject) : Bool :=
  q.limitsSeries && dataset.engine.allowsJoins && dataset.engine.allowsSubqueries

def limitSeries (q : QueryObject) (c : Conditions) (rls : List Clause) :
    Except QueryError SqlaQuery :=
  if joinsSeries dataset q then
    let subquery := seriesSubquery dataset q c rls
    if q.groupOthersWhenLimitReached then
      .ok { outer := reapplyQueryFilters c rls, series := some (.leftOuter, subquery) }
    else .ok { outer := plainSelect c rls, series := some (.inner, subquery) }
  -- the pre-query goes through `query`, which no datasource implements
  else if q.limitsSeries then .error .notImplementedError
  else .ok { outer := plainSelect c rls }

def getSqlaQuery (settings : QuerySettings) (q : QueryObject)
    (rlsFilters : Option (List RlsClause)) (rowLevelFilters : List Clause) :
    Except QueryError SqlaQuery := do
  let c ← conditions dataset settings q
  let rls := rlsFilters.elim rowLevelFilters (List.filterMap RlsClause.clause)
  let statement ← limitSeries dataset q c rls
  if q.isRowcount then
    if dataset.engine.allowsSubqueries then .ok { statement with rowcount := true }
    else .error (.queryObjectValidationError "Database does not support subqueries")
  else .ok statement

def valuesForColumn (columnName : String) (rowLevelFilters : List Clause) :
    Except QueryError Select :=
  match dataset.columnByName columnName with
  | none => .error (.keyError columnName)
  | some _ => .ok ⟨(dataset.fetchValuesPredicate.map .text).toList ++ rowLevelFilters⟩

end Query

def Select.whereText (select : Select) : List SqlToken :=
  conjoinText (select.criteria.map (Clause.render true))

def Select.reads (select : Select) (row : Row) : Bool :=
  select.criteria.isEmpty || (parse select.whereText).any fun condition =>
    condition.truth row = some true

end Liteset.Sql.Chart
