import Liteset.Lib.Fallible
import Liteset.Sql.ChartQuery

/-!
# Which rows a chart query reads

`extras.where`, the fetch-values predicate and the column expressions of filters
enter the WHERE without parentheses, so a top-level `OR` in one of them cuts the
conjunction: what stands on the far side of the `OR` is no longer tied to the
row-level-security clauses.  The series-limit sub-query has a time filter of its own in
place of those of the query.  `confined_iff` says exactly when the rows that are read
stay within all the conditions.
-/

set_option autoImplicit false

namespace Liteset.Sql.Chart

open Liteset.Lib.Condition Liteset.Lib.Fallible List

def Clause.reading : Bool → Clause → Text
  | _, .text t => t
  | _, .compare column comparison => column.compareLast comparison
  | _, .grouped c => (c.reading false).grouped
  | _, .negated c => (c.reading false).negated
  | _, .and_ a b => (a.reading true).andThen (b.reading true)
  | false, .or_ a b => (a.reading false).orElse (b.reading false)
  | true, .or_ a b => ((a.reading false).orElse (b.reading false)).grouped

theorem Clause.render_eq (underAnd : Bool) (c : Clause) :
    c.render underAnd = (c.reading underAnd).tokens := by
  induction c generalizing underAnd with
  | text t => rfl
  | compare column comparison => exact (Disjunction.tokens_compareLast comparison column).symm
  | grouped c ih => rw [Clause.render, ih, Clause.reading, Disjunction.tokens_grouped]
  | negated c ih => rw [Clause.render, ih, Clause.reading, Disjunction.tokens_negated]
  | and_ a b iha ihb => rw [Clause.render, iha, ihb, Clause.reading, Disjunction.tokens_andThen]
  | or_ a b iha ihb =>
    cases underAnd with
    | false => rw [Clause.render, iha, ihb, Clause.reading, Disjunction.tokens_orElse]
    | true =>
      rw [Clause.render, iha, ihb, Clause.reading, Disjunction.tokens_grouped,
        Disjunction.tokens_orElse]

/-- The clause is true of the row when it is compiled alone. -/
def Clause.Holds (row : Row) (c : Clause) : Prop := (c.reading false).Holds row

theorem Clause.holds_underAnd (row : Row) (c : Clause) : (c.reading true).Holds row ↔
    c.Holds row := by
  cases c <;> exact Iff.rfl

def operands (cs : List Clause) : List Text := cs.map (Clause.reading true)

theorem operands_hold (row : Row) (cs : List Clause) :
    (∀ d ∈ operands cs, d.Holds row) ↔ ∀ c ∈ cs, c.Holds row := by
  simp only [operands, forall_mem_map, Clause.holds_underAnd]

theorem Select.reads_iff (select : Select) (row : Row) :
    select.reads row = true ↔ Holds row (conjoin (operands select.criteria)) := by
  have text : select.whereText =
      conjoinText ((operands select.criteria).map Disjunction.tokens) := by
    simp only [Select.whereText, operands, map_map]
    congr 1
    exact map_congr_left fun c _ => Clause.render_eq true c
  unfold Select.reads
  rw [text]
  cases shape : select.criteria with
  | nil => simp [operands, conjoin, Holds]
  | cons c cs =>
    have joined := parse_conjoinText (c.reading true) (operands cs)
    simp only [operands, map_cons] at joined ⊢
    rw [joined]
    simp [conjoin, Holds, Disjunction.Holds]

def Permits (row : Row) (filters : List RlsFilter) (guestClauses : List (Option Text)) : Prop :=
  (∀ f ∈ filters, f.groupKey = none → f.clause.Holds row) ∧
    (∀ clause, some clause ∈ guestClauses → clause.Holds row) ∧
    ∀ key, (∃ f ∈ filters, f.groupKey = some key) →
      ∃ f ∈ filters, f.groupKey = some key ∧ f.clause.Holds row

theorem orAll_holds (row : Row) (first : Clause) (rest : List Clause) :
    (orAll first rest).Holds row ↔ first.Holds row ∨ ∃ c ∈ rest, c.Holds row := by
  unfold orAll
  induction rest generalizing first with
  | nil => simp
  | cons c rest ih =>
    have either : (Clause.or_ first c).Holds row ↔ first.Holds row ∨ c.Holds row :=
      Disjunction.holds_orElse row (first.reading false) (c.reading false)
    rw [foldl_cons, ih, either]
    simp [or_assoc]

theorem orAll_single (first : Clause) (rest : List Clause) (single : (first.reading true).Single) :
    ((orAll first rest).reading true).Single := by
  unfold orAll
  induction rest generalizing first with
  | nil => exact single
  | cons c rest ih => exact ih (.or_ first c) rfl

theorem mem_groupKeys (filters : List RlsFilter) (key : String) :
    key ∈ groupKeys filters ↔ ∃ f ∈ filters, f.groupKey = some key := by
  induction filters with
  | nil => simp [groupKeys]
  | cons f fs ih =>
    cases own : f.groupKey with
    | none => simp [groupKeys, own, ih]
    | some k =>
      by_cases same : key = k
      · simp [groupKeys, own, same]
      · simp [groupKeys, own, ih, same, Ne.symm same]

theorem rlsTextClause_holds (row : Row) (rendered : Text) :
    (rlsTextClause rendered).Holds row ↔ rendered.Holds row := Iff.rfl

theorem groupClause_holds (row : Row) (filters : List RlsFilter) (key : String) :
    (∀ c, groupClause filters key = some c → c.Holds row) ↔
      ((∃ f ∈ filters, f.groupKey = some key) →
        ∃ f ∈ filters, f.groupKey = some key ∧ f.clause.Holds row) := by
  have members : ∀ f, f ∈ filters.filter (·.groupKey = some key) ↔
      f ∈ filters ∧ f.groupKey = some key := by
    intro f
    simp
  unfold groupClause
  cases shape : filters.filter (·.groupKey = some key) with
  | nil =>
    have none : ¬ ∃ f ∈ filters, f.groupKey = some key := by
      rintro ⟨f, member, own⟩
      have absent := (members f).mpr ⟨member, own⟩
      rw [shape] at absent
      cases absent
    simp [none]
  | cons f fs =>
    rw [shape] at members
    have present : ∃ f ∈ filters, f.groupKey = some key := ⟨f, (members f).mp mem_cons_self⟩
    simp only [map_cons, Option.some.injEq, forall_eq', orAll_holds, rlsTextClause_holds,
      mem_map, exists_exists_and_eq_and, present, forall_const]
    have either : (f.clause.Holds row ∨ ∃ a ∈ fs, a.clause.Holds row) ↔
        ∃ a ∈ f :: fs, a.clause.Holds row := by simp
    rw [either]
    simp only [members, and_assoc]

theorem composeRlsTextClauses_hold (row : Row) (filters : List RlsFilter)
    (guestClauses : List (Option Text)) :
    (∀ c ∈ composeRlsTextClauses filters guestClauses, c.Holds row) ↔
    Permits row filters guestClauses := by
  have ungrouped : (∀ c ∈ (filters.filter (·.groupKey = none)).map (rlsTextClause ·.clause),
      c.Holds row) ↔ ∀ f ∈ filters, f.groupKey = none → f.clause.Holds row := by
    simp only [forall_mem_map, mem_filter, decide_eq_true_eq, and_imp,
      rlsTextClause_holds]
  have guest : (∀ c ∈ guestClauses.filterMap (Option.map rlsTextClause), c.Holds row) ↔
      ∀ clause, some clause ∈ guestClauses → clause.Holds row := by
    constructor
    · intro holds clause member
      exact holds (rlsTextClause clause) (mem_filterMap.mpr ⟨some clause, member, rfl⟩)
    · intro holds c member
      obtain ⟨item, isItem, isClause⟩ := mem_filterMap.mp member
      obtain ⟨clause, rfl, rfl⟩ := Option.map_eq_some_iff.mp isClause
      exact holds clause isItem
  have groups : (∀ c ∈ (groupKeys filters).filterMap (groupClause filters), c.Holds row) ↔
      ∀ key, (∃ f ∈ filters, f.groupKey = some key) →
        ∃ f ∈ filters, f.groupKey = some key ∧ f.clause.Holds row := by
    constructor
    · intro holds key present
      refine (groupClause_holds row filters key).mp ?_ present
      intro c isClause
      exact holds c (mem_filterMap.mpr
        ⟨key, (mem_groupKeys filters key).mpr present, isClause⟩)
    · intro holds c member
      obtain ⟨key, -, isClause⟩ := mem_filterMap.mp member
      exact (groupClause_holds row filters key).mpr (holds key) c isClause
  rw [composeRlsTextClauses, forall_mem_append, forall_mem_append, ungrouped, guest,
    groups, and_assoc]
  rfl

theorem composeRlsTextClauses_single (filters : List RlsFilter)
    (guestClauses : List (Option Text)) :
    ∀ d ∈ operands (composeRlsTextClauses filters guestClauses), d.Single := by
  simp only [operands, forall_mem_map, composeRlsTextClauses, forall_mem_append]
  refine ⟨⟨fun f _ => rfl, ?_⟩, ?_⟩
  · intro c member
    simp only [mem_filterMap, Option.map_eq_some_iff] at member
    obtain ⟨_, _, t, _, rfl⟩ := member
    rfl
  · intro c member
    obtain ⟨key, -, isClause⟩ := mem_filterMap.mp member
    unfold groupClause at isClause
    cases shape : (filters.filter (·.groupKey = some key)).map (rlsTextClause ·.clause) with
    | nil => simp [shape] at isClause
    | cons first rest =>
      rw [shape, Option.some.injEq] at isClause
      obtain ⟨f, -, rfl⟩ := mem_map.mp (shape ▸ mem_cons_self :
        first ∈ (filters.filter (·.groupKey = some key)).map (rlsTextClause ·.clause))
      rw [← isClause]
      exact orAll_single _ rest rfl

section Selects
variable (before after required : List Clause)

/-- On the row, nothing that a top-level `OR` cuts off from the row-level-security
clauses is true, and what stays next to them implies the required conditions. -/
def Uncut (row : Row) : Prop :=
  ¬ EarlyHolds row (conjoin (operands before)) ∧ ¬ LateHolds row (conjoin (operands after)) ∧
    (LastHolds row (conjoin (operands before)) → FirstHolds row (conjoin (operands after)) →
      ∀ c ∈ required, c.Holds row)

theorem reads_around_rls (row : Row) (filters : List RlsFilter)
    (guestClauses : List (Option Text)) :
    Select.reads ⟨before ++ (composeRlsTextClauses filters guestClauses ++ after)⟩ row = true ↔
      EarlyHolds row (conjoin (operands before)) ∨
        (LastHolds row (conjoin (operands before)) ∧ Permits row filters guestClauses ∧
          FirstHolds row (conjoin (operands after))) ∨
          LateHolds row (conjoin (operands after)) := by
  have single := composeRlsTextClauses_single filters guestClauses
  rw [Select.reads_iff, ← composeRlsTextClauses_hold, ← operands_hold,
    ← holds_conjoin_single row (operands before) (operands after) single]
  simp only [operands, map_append]

theorem not_permits_negated {row : Row} {c : Conjunction String Comparison} (holds : c.Holds row) :
    ¬ Permits row [⟨(Disjunction.one c).negated, none⟩] [] := by
  intro permits
  have refused := permits.1 _ mem_cons_self rfl
  exact Disjunction.not_holds_negated ((Disjunction.holds_one row c).mpr holds) refused

theorem permits_nil (row : Row) : Permits row [] [] := by
  simp [Permits]

/-- Whatever the row-level-security clauses are, the SELECT reads only rows that
satisfy them and the required conditions, exactly when the row is uncut. -/
theorem select_confined_iff (row : Row) :
    (∀ filters guestClauses,
        Select.reads ⟨before ++ (composeRlsTextClauses filters guestClauses ++ after)⟩ row = true →
          Permits row filters guestClauses ∧ ∀ c ∈ required, c.Holds row) ↔
      Uncut before after required row := by
  constructor
  · intro confined
    refine ⟨?_, ?_, ?_⟩
    · intro early
      obtain ⟨d, isBefore, c, member, holds⟩ := early
      refine not_permits_negated holds (confined _ _ ((reads_around_rls before after row _ _).mpr
        (Or.inl ⟨d, isBefore, c, member, holds⟩))).1
    · intro late
      obtain ⟨d, isAfter, c, member, holds⟩ := late
      refine not_permits_negated holds (confined _ _ ((reads_around_rls before after row _ _).mpr
        (Or.inr (Or.inr ⟨d, isAfter, c, member, holds⟩)))).1
    · intro last first
      exact (confined [] [] ((reads_around_rls before after row [] []).mpr
        (Or.inr (Or.inl ⟨last, permits_nil row, first⟩)))).2
  · intro uncut filters guestClauses reads
    obtain ⟨noEarly, noLate, implied⟩ := uncut
    rcases (reads_around_rls before after row filters guestClauses).mp reads with
      early | ⟨last, permits, first⟩ | late
    · exact absurd early noEarly
    · exact ⟨permits, implied last first⟩
    · exact absurd late noLate

end Selects

section Requests
variable (dataset : Dataset) (settings : QuerySettings)

inductive Request where
  | chart (q : QueryObject)
  | values (columnName : String)

def whereClause (c : Conditions) : List Clause := (c.extrasWhere.map .text).toList

def outerBefore (c : Conditions) : List Clause := predicateClause c ++ (c.timeFilters ++ c.filters)

def outerRequired (c : Conditions) : List Clause := c.timeFilters ++ c.filters ++ whereClause c

def subqueryAfter (q : QueryObject) (c : Conditions) : List Clause :=
  whereClause c ++ innerTimeFilter dataset q c

def subqueryRequired (q : QueryObject) (c : Conditions) : List Clause :=
  outerRequired c ++ innerTimeFilter dataset q c

def rlsFilters (pushed : Bool) (clauses : List Clause) : Option (List RlsClause) :=
  if pushed then some (clauses.map .element) else none

/-- Whatever the row-level-security clauses of the user, every row that the outer query
or the sub-query reads satisfies them, the filters, all the time filters of the query
and the where text. -/
def Confined (rows : List Row) : Request → Prop
  | .chart q => ∀ filters guestClauses pushed c statement,
      conditions dataset settings q = .ok c →
      getSqlaQuery dataset settings q
          (rlsFilters pushed (composeRlsTextClauses filters guestClauses))
          (composeRlsTextClauses filters guestClauses) = .ok statement →
      ∀ row ∈ rows,
        (statement.outer.reads row = true →
          Permits row filters guestClauses ∧ ∀ k ∈ outerRequired c, k.Holds row) ∧
        ∀ join subquery, statement.series = some (join, subquery) → subquery.reads row = true →
          Permits row filters guestClauses ∧ ∀ k ∈ subqueryRequired dataset q c, k.Holds row
  | .values columnName => ∀ filters guestClauses select,
      valuesForColumn dataset columnName (composeRlsTextClauses filters guestClauses) =
        .ok select →
      ∀ row ∈ rows, select.reads row = true → Permits row filters guestClauses

def compiles (q : QueryObject) : Bool :=
  (!q.limitsSeries || joinsSeries dataset q) && !(q.isRowcount && !dataset.engine.allowsSubqueries)

/-- No text is cut on a row, and in the sub-query its own conditions imply the time
filters that it leaves out. -/
def UncutTexts (rows : List Row) : Request → Prop
  | .chart q => ∀ c, conditions dataset settings q = .ok c → compiles dataset q = true →
      ∀ row ∈ rows, Uncut (outerBefore c) (whereClause c) (outerRequired c) row ∧
        (joinsSeries dataset q = true →
          Uncut c.filters (subqueryAfter dataset q c) (subqueryRequired dataset q c) row)
  | .values columnName => (dataset.columnByName columnName).isSome →
      ∀ row ∈ rows, ∀ predicate, dataset.fetchValuesPredicate = some predicate →
        ¬ SomeHolds row predicate.early

theorem rlsFilters_clauses (pushed : Bool) (clauses : List Clause) :
    (rlsFilters pushed clauses).elim clauses (List.filterMap RlsClause.clause) = clauses := by
  cases pushed with
  | false => rfl
  | true =>
    simp only [rlsFilters, if_true, Option.elim_some, filterMap_map]
    exact filterMap_some

variable {q : QueryObject} {c : Conditions}

theorem timeFilters_of_granularity_none
    (assembled : conditions dataset settings q = .ok c) (absent : c.granularity = none) :
    c.timeFilters = [] := by
  obtain ⟨time, timeOk, assembled⟩ := ok_of_bind assembled
  obtain ⟨filters, -, assembled⟩ := ok_of_bind assembled
  obtain ⟨-, -, assembled⟩ := ok_of_bind assembled
  cases assembled
  simp only at absent
  simp only [granularityTimeFilters, absent] at timeOk
  split at timeOk
  · cases timeOk
  · exact (Except.ok.inj timeOk).symm

theorem plainSelect_eq (assembled : conditions dataset settings q = .ok c) (rls : List Clause) :
    plainSelect c rls = ⟨outerBefore c ++ (rls ++ whereClause c)⟩ := by
  unfold plainSelect outerBefore whereClauseAnd whereClause
  cases shape : c.granularity with
  | none =>
    rw [timeFilters_of_granularity_none dataset settings assembled shape]
    simp [append_assoc]
  | some name => simp [append_assoc]

theorem reapplyQueryFilters_eq (c : Conditions) (rls : List Clause) :
    reapplyQueryFilters c rls = ⟨outerBefore c ++ (rls ++ whereClause c)⟩ := by
  simp [reapplyQueryFilters, outerBefore, whereClauseAnd, whereClause, append_assoc]

theorem seriesSubquery_eq (q : QueryObject) (c : Conditions) (rls : List Clause) :
    seriesSubquery dataset q c rls = ⟨c.filters ++ (rls ++ subqueryAfter dataset q c)⟩ := by
  simp [seriesSubquery, subqueryAfter, whereClauseAnd, whereClause, append_assoc]

theorem selects_of_getSqlaQuery {statement : SqlaQuery}
    (assembled : conditions dataset settings q = .ok c) (pushed : Bool) (rls : List Clause)
    (compiled : getSqlaQuery dataset settings q (rlsFilters pushed rls) rls = .ok statement) :
    compiles dataset q = true ∧
      statement.outer = ⟨outerBefore c ++ (rls ++ whereClause c)⟩ ∧
      statement.series.map Prod.snd =
        if joinsSeries dataset q then some ⟨c.filters ++ (rls ++ subqueryAfter dataset q c)⟩
        else none := by
  obtain ⟨c', assembled', compiled⟩ := ok_of_bind compiled
  cases assembled.symm.trans assembled'
  obtain ⟨limited, isLimited, counted⟩ := ok_of_bind compiled
  rw [rlsFilters_clauses] at isLimited
  have wraps : (q.isRowcount && !dataset.engine.allowsSubqueries) = false ∧
      statement.outer = limited.outer ∧ statement.series = limited.series := by
    split at counted
    · split at counted
      · cases counted
        simp_all
      · cases counted
    · cases counted
      simp_all
  obtain ⟨wraps, outer, series⟩ := wraps
  rw [outer, series]
  unfold limitSeries at isLimited
  by_cases joins : joinsSeries dataset q = true
  · simp only [joins, if_true] at isLimited
    refine ⟨by simp [compiles, joins, wraps], ?_⟩
    split at isLimited
    · cases isLimited
      simp [reapplyQueryFilters_eq, seriesSubquery_eq, joins]
    · cases isLimited
      simp [plainSelect_eq dataset settings assembled, seriesSubquery_eq, joins]
  · simp only [joins, if_false, Bool.false_eq_true] at isLimited
    by_cases limits : q.limitsSeries = true
    · simp [limits] at isLimited
    · simp only [limits, Bool.false_eq_true, if_false, Except.ok.injEq] at isLimited
      subst isLimited
      refine ⟨?_, plainSelect_eq dataset settings assembled rls, by simp [joins]⟩
      simp [compiles, limits, wraps]

theorem getSqlaQuery_of_compiles
    (assembled : conditions dataset settings q = .ok c) (compiled : compiles dataset q = true)
    (pushed : Bool) (rls : List Clause) :
    ∃ statement, getSqlaQuery dataset settings q (rlsFilters pushed rls) rls = .ok statement := by
  simp only [compiles, Bool.and_eq_true, Bool.or_eq_true, Bool.not_eq_true'] at compiled
  obtain ⟨limits, wraps⟩ := compiled
  have limited : ∃ statement, limitSeries dataset q c rls = .ok statement := by
    unfold limitSeries
    by_cases joins : joinsSeries dataset q = true
    · rw [if_pos joins]
      by_cases others : q.groupOthersWhenLimitReached = true
      · exact ⟨_, if_pos others⟩
      · exact ⟨_, if_neg others⟩
    · have unlimited : q.limitsSeries = false := limits.resolve_right joins
      exact ⟨_, by rw [if_neg joins, unlimited]; rfl⟩
  obtain ⟨statement, isLimited⟩ := limited
  unfold getSqlaQuery
  rw [assembled]
  simp only [bind, Except.bind, rlsFilters_clauses, isLimited]
  cases counts : q.isRowcount with
  | false => exact ⟨statement, rfl⟩
  | true =>
    have subqueries : dataset.engine.allowsSubqueries = true := by simpa [counts] using wraps
    exact ⟨{ statement with rowcount := true }, by simp [subqueries]⟩

theorem values_confined_iff (rows : List Row) (columnName : String) :
    Confined dataset settings rows (.values columnName) ↔
      UncutTexts dataset settings rows (.values columnName) := by
  have alone : ∀ row, Uncut ((dataset.fetchValuesPredicate.map Clause.text).toList) [] [] row ↔
      ∀ predicate, dataset.fetchValuesPredicate = some predicate →
      ¬ SomeHolds row predicate.early := by
    intro row
    cases dataset.fetchValuesPredicate with
    | none => simp [Uncut, operands, conjoin, EarlyHolds, LateHolds]
    | some predicate =>
      simp [Uncut, operands, conjoin, EarlyHolds, LateHolds, Clause.reading]
  simp only [Confined, UncutTexts, valuesForColumn]
  cases dataset.columnByName columnName with
  | none => simp
  | some col =>
    simp only [Option.isSome_some, forall_const, ← alone, ← select_confined_iff, Except.ok.injEq,
      forall_eq', append_nil]
    constructor
    · intro confined row member filters guestClauses reads
      exact ⟨confined filters guestClauses row member reads, by simp⟩
    · intro confined filters guestClauses row member reads
      exact (confined row member filters guestClauses reads).1

theorem chart_confined_iff (rows : List Row) (q : QueryObject) :
    Confined dataset settings rows (.chart q) ↔ UncutTexts dataset settings rows (.chart q) := by
  constructor
  · intro confined c assembled compiled row member
    refine ⟨(select_confined_iff _ _ _ row).mp ?_, ?_⟩
    · intro filters guestClauses reads
      obtain ⟨statement, isStatement⟩ := getSqlaQuery_of_compiles dataset settings assembled
        compiled true (composeRlsTextClauses filters guestClauses)
      obtain ⟨-, outer, -⟩ := selects_of_getSqlaQuery dataset settings assembled true _ isStatement
      refine (confined filters guestClauses true c statement assembled isStatement row member).1 ?_
      rw [outer]
      exact reads
    · intro joins
      refine (select_confined_iff _ _ _ row).mp ?_
      intro filters guestClauses reads
      obtain ⟨statement, isStatement⟩ := getSqlaQuery_of_compiles dataset settings assembled
        compiled true (composeRlsTextClauses filters guestClauses)
      obtain ⟨-, -, series⟩ :=
        selects_of_getSqlaQuery dataset settings assembled true _ isStatement
      rw [if_pos joins, Option.map_eq_some_iff] at series
      obtain ⟨⟨join, subquery⟩, isSeries, isSubquery⟩ := series
      refine (confined filters guestClauses true c statement assembled isStatement row member).2
        join subquery isSeries ?_
      rw [show subquery = _ from isSubquery]
      exact reads
  · intro uncut filters guestClauses pushed c statement assembled isStatement row member
    obtain ⟨compiled, outer, series⟩ :=
      selects_of_getSqlaQuery dataset settings assembled pushed _ isStatement
    obtain ⟨outerUncut, subqueryUncut⟩ := uncut c assembled compiled row member
    refine ⟨?_, ?_⟩
    · intro reads
      rw [outer] at reads
      exact (select_confined_iff _ _ _ row).mpr outerUncut filters guestClauses reads
    · intro join subquery isSeries reads
      rw [isSeries] at series
      by_cases joins : joinsSeries dataset q = true
      · rw [if_pos joins, Option.map_some, Option.some.injEq] at series
        rw [show subquery = _ from series] at reads
        exact (select_confined_iff _ _ _ row).mpr (subqueryUncut joins) filters guestClauses reads
      · rw [if_neg joins] at series
        cases series

/-- Every row that a request reads satisfies the row-level-security clauses,
whatever they are, and all its conditions, exactly when no text in it is cut. -/
theorem confined_iff (rows : List Row) (request : Request) :
    Confined dataset settings rows request ↔ UncutTexts dataset settings rows request := by
  cases request with
  | chart q => exact chart_confined_iff dataset settings rows q
  | values columnName => exact values_confined_iff dataset settings rows columnName

end Requests

def comparison (column : String) (value : String) : Conjunction String Comparison :=
  .one (.mk 0 (.compared (.atom column) (.eq (.str value))))

def plainSettings : QuerySettings where
  sinceUntil := fun _ => (none, none)
  processSelectExpression := fun _ => .ok ()

def salesDataset : Dataset where
  engine := { dttmSqlLiteral := fun _ _ => "", timestampExpression := fun col _ => col.sqlaCol }
  columns := [{ name := "tenant" }, { name := "region" }]

/-- A row of tenant `globex` in region `US`. -/
def globexRow : Row where
  atom := fun _ => none
  compared := fun o s =>
    match o, s with
    | .atom "tenant", .eq (.str value) => some (value == "globex")
    | .atom "region", .eq (.str value) => some (value == "US")
    | _, _ => none

/-- `extras.where` is `region = 'EU' OR region = 'US'`. -/
def regionQuery : QueryObject where
  extrasWhere := some (.or (.one (comparison "region" "EU")) (comparison "region" "US"))

/-- Row-level security says `tenant = 'acme'`, and the row of `globex` is read. -/
theorem not_confined_regionQuery :
    ¬ Confined salesDataset plainSettings [globexRow] (.chart regionQuery) := by
  intro confined
  have permits := ((confined [⟨.one (comparison "tenant" "acme"), none⟩] [] false _ _ rfl rfl
    globexRow mem_cons_self).1 (by decide)).1
  have tenant := permits.1 _ mem_cons_self rfl
  exact absurd tenant (by decide)

end Liteset.Sql.Chart
