import Liteset.Lib.Groups
import Liteset.Lib.Joins
import Liteset.Lib.Pages
import Liteset.Sql.ChartQuery

/-!
# Series limits of a chart query

What the statement of `get_sqla_query` returns when its series are limited: the join with
the series of a sub-query, or the rebuilt statement that groups the other series.  A table
is a list of rows; columns and metrics are functions of a row and of a group of rows.
-/

set_option autoImplicit false

namespace Liteset.Sql.Chart.Series

open Lib
open Lib.Pages

abbrev Cell := Option String

/-- A member of `groupby_all_columns`, and whether it is one of `groupby_series_columns`. -/
structure GroupColumn (R : Type) where
  isSeries : Bool
  value : R → Cell

inductive Metric (R κ : Type) where
  | adhoc (value : List R → κ)
  | saved (name : String)

abbrev Group (R : Type) := List Cell × List R

section Metrics
variable {R κ : Type}

def getSeriesOrderby (metricsByName : List (String × (List R → κ))) :
    Metric R κ → Except QueryError (List R → κ)
  | .adhoc value => .ok value
  | .saved name =>
    match metricsByName.lookup name with
    | some value => .ok value
    | none => .error (.queryObjectValidationError ("Metric '" ++ name ++ "' does not exist"))

def orderMetric (metricsByName : List (String × (List R → κ))) (metrics : List (List R → κ))
    (countAll : List R → κ) : Option (Metric R κ) → Except QueryError (List R → κ)
  | some metric => getSeriesOrderby metricsByName metric
  | none => .ok (metrics.head?.getD countAll)

end Metrics

structure Request (R κ : Type) where
  dataset : Dataset
  settings : QuerySettings
  query : QueryObject
  conditions : Conditions
  rls : List Clause
  valuation : R → Row
  columns : List (GroupColumn R)
  metricsByName : List (String × (List R → κ))
  metrics : List (List R → κ)
  countAll : List R → κ
  seriesLimitMetric : Option (Metric R κ)
  orderDesc : Bool
  seriesLimit : Nat
  page : Page (Group R) κ
  seriesMetric : List R → κ
  built : Chart.conditions dataset settings query = .ok conditions
  found : orderMetric metricsByName metrics countAll seriesLimitMetric = .ok seriesMetric
  limits : query.limitsSeries = (seriesLimit ≠ 0 && columns.any GroupColumn.isSeries)
  limited : query.limitsSeries = true

section Keys
variable {R : Type}

def groupKey (columns : List (GroupColumn R)) (row : R) : List Cell :=
  columns.map fun column => column.value row

def seriesKey (columns : List (GroupColumn R)) (row : R) : List Cell :=
  groupKey (columns.filter GroupColumn.isSeries) row

/-- `AND` of the comparisons with the columns of the sub-query; a null equals nothing. -/
def onClause (columns : List (GroupColumn R)) (row : R) (series : List Cell) : Bool :=
  ((seriesKey columns row).zip series).all fun pair => pair.1.isSome && pair.1 = pair.2

def nullSeries (columns : List (GroupColumn R)) : List Cell :=
  List.replicate (columns.filter GroupColumn.isSeries).length none

/-- `CASE WHEN series column IS NOT NULL THEN column ELSE 'Others' END` for each series column. -/
def caseKey (row : R) : List (GroupColumn R) → List Cell → List Cell
  | [], _ => []
  | column :: columns, series =>
    if column.isSeries then
      (if series.head?.join.isSome then column.value row else some "Others") ::
        caseKey row columns series.tail
    else column.value row :: caseKey row columns series

end Keys

section Statement
variable {R κ : Type} [LinearOrder κ] (request : Request R κ)

def seriesGroups (select : Select) (table : List R) : List (Group R) :=
  Groups.collect ((table.filter fun row => select.reads (request.valuation row)).map fun row =>
    (seriesKey request.columns row, row))

def topSeries (metric : List R → κ) (select : Select) (table : List R) : List (List Cell) :=
  ((sorted [(fun group : Group R => metric group.2, !request.orderDesc)]
    (seriesGroups request select table)).take
    request.seriesLimit).map Prod.fst

def joinSeries (kind : JoinKind) (top : List (List Cell)) (table : List R) : List (R × List Cell) :=
  match kind with
  | .inner => table.flatMap (Joins.innerRow (onClause request.columns) Prod.mk top)
  | .leftOuter =>
    table.flatMap (Joins.leftRow (onClause request.columns) Prod.mk
      (nullSeries request.columns) top)

def selectRow (group : Group R) : List Cell × List κ :=
  (group.1, request.metrics.map fun metric => metric group.2)

/-- What the database returns for a statement; the rebuilt one has no `ORDER BY`, limit
and offset. -/
def execute (metric : List R → κ) (statement : SqlaQuery) (having : List R → Bool)
    (table : List R) :
    List (List Cell × List κ) :=
  match statement.series with
  | none =>
    let rows := table.filter fun row => statement.outer.reads (request.valuation row)
    let groups := Groups.collect (rows.map fun row => (groupKey request.columns row, row))
    (request.page.of (groups.filter fun group => having group.2)).map (selectRow request)
  | some (.inner, select) =>
    let rows := (joinSeries request .inner (topSeries request metric select table) table).filter
      fun row =>
      statement.outer.reads (request.valuation row.1)
    let groups := Groups.collect (rows.map fun row => (groupKey request.columns row.1, row.1))
    (request.page.of (groups.filter fun group => having group.2)).map (selectRow request)
  | some (.leftOuter, select) =>
    let rows := (joinSeries request .leftOuter (topSeries request metric select table) table).filter
      fun row =>
      statement.outer.reads (request.valuation row.1)
    let groups := Groups.collect (rows.map fun row => (caseKey row.1 request.columns row.2, row.1))
    (groups.filter fun group => having group.2).map (selectRow request)

def run (having : List R → Bool) (table : List R) :
    Except QueryError (List (List Cell × List κ)) := do
  let metric ← orderMetric request.metricsByName request.metrics request.countAll
    request.seriesLimitMetric
  let statement ← limitSeries request.dataset request.query request.conditions request.rls
  return execute request metric statement having table

end Statement

end Liteset.Sql.Chart.Series
