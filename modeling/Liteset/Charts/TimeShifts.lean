import Liteset.Lib.JsText
import Liteset.Lib.JsMap

/-!
# Labels of time shifts

`renameOperator` with `getMetricOffsetsMap` and `isTimeComparison`, `getTimeOffset` and
`getOriginalSeries` of superset-ui-chart-controls, and `get_column_groups` of
`utils/pandas_postprocessing/contribution.py`.  Texts are lists of characters, and metrics are
given by their labels.
-/

set_option autoImplicit false

namespace Liteset.Charts.TimeShifts

open Lib

abbrev Text := List Char

inductive ComparisonType where
  | values
  | difference
  | percentage
  | ratio
  deriving DecidableEq

def ComparisonType.text : ComparisonType → Text
  | .values => "values".toList
  | .difference => "difference".toList
  | .percentage => "percentage".toList
  | .ratio => "ratio".toList

/-- What `renameOperator` reads of the form data; `xAxisLabel` is that of `getXAxisLabel`, and
`comparisonType` is `none` for a text that is no `ComparisonType`. -/
structure FormData where
  timeCompare : List Text
  comparisonType : Option ComparisonType
  truncateMetric : Option Bool
  xAxisLabel : Option Text

structure QueryObject where
  metrics : List Text
  columns : List Text

/-- `TIME_COMPARISON_SEPARATOR` -/
def separator : Text := "__".toList

def getMetricOffsetsMap (formData : FormData) (queryObject : QueryObject) : JsMap Text Text :=
  JsMap.ofEntries (queryObject.metrics.flatMap fun metric =>
    formData.timeCompare.map fun offset => (metric ++ separator ++ offset, metric))

def isTimeComparison (formData : FormData) (queryObject : QueryObject) : Bool :=
  formData.comparisonType.isSome && !(getMetricOffsetsMap formData queryObject).entries.isEmpty

def columnName (comparisonType : ComparisonType) (metricOnly metricWithOffset : Text) : Text :=
  if comparisonType = .values then metricWithOffset
  else comparisonType.text ++ separator ++ metricOnly ++ separator ++ metricWithOffset

/-- The new label; `undefined` in a template is the text of it. -/
def newLabel (metrics : List Text) (metricOnly : Text) (offsetLabel : Option Text) : Option Text :=
  if metrics.length > 1 then some (metricOnly ++ ", ".toList ++ offsetLabel.getD "undefined".toList)
    else offsetLabel

def renamePairs (formData : FormData) (queryObject : QueryObject)
    (comparisonType : ComparisonType) :
    List (Text × Option Text) :=
  (getMetricOffsetsMap formData queryObject).entries.map fun entry =>
    (columnName comparisonType entry.2 entry.1,
      newLabel queryObject.metrics entry.2 (formData.timeCompare.find? fun offset =>
        offset <:+: entry.1))

def comparedPairs (formData : FormData) (queryObject : QueryObject) : List (Text × Option Text) :=
  match formData.comparisonType with
  | some comparisonType =>
    if isTimeComparison formData queryObject
      then renamePairs formData queryObject comparisonType else []
  | none => []

def allPairs (formData : FormData) (queryObject : QueryObject) : List (Text × Option Text) :=
  if (formData.comparisonType = none ∨ formData.comparisonType = some .values) ∧
    queryObject.metrics.length = 1 ∧
      (comparedPairs formData queryObject).isEmpty then
    (queryObject.metrics.head?.map fun metric => (metric, none)).toList
  else comparedPairs formData queryObject

/-- `renameOperator`; the result has the `columns` of its options, which are renamed at the first
level and in place. -/
def renameOperator (formData : FormData) (queryObject : QueryObject) :
    Option (JsMap Text (Option Text)) :=
  if queryObject.metrics.length > 0 ∧ (formData.xAxisLabel.any fun label => !label.isEmpty) ∧
      (isTimeComparison formData queryObject ∨
        ((queryObject.columns.length > 0 ∨ formData.timeCompare.length > 1) ∧
          formData.truncateMetric = some true)) then
    if (allPairs formData queryObject).isEmpty then none
      else some (JsMap.ofEntries (allPairs formData queryObject))
  else none

def getTimeOffset (seriesName : Text) (timeCompare : List Text) : Option Text :=
  timeCompare.find? fun timeOffset => (timeOffset ++ [',']) <:+: seriesName ∨
    (separator ++ timeOffset) <:+: seriesName

/-- One turn of the loop of `getOriginalSeries` -/
def removeShift (result compare : Text) : Text :=
  JsText.removeFirst (separator ++ compare) (JsText.removeFirst (compare ++ [',']) result)

def getOriginalSeries (seriesName : Text) (timeCompare : List Text) : Text :=
  JsText.trim (timeCompare.foldl removeShift seriesName)

structure Column where
  first : Option Text
  rest : List Text := []
  deriving DecidableEq

abbrev Group := List Column × List Text

structure ColumnGroups where
  nonTimeShift : Group
  timeShifts : JsMap Text Group

def timeShiftOf (timeShifts : List Text) (column : Column) : Option Text :=
  column.first.bind fun name => timeShifts.find? fun shift => shift <:+ name

def addColumn (group : Group) (column : Column) (renamed : Text) : Group :=
  (group.1 ++ [column], group.2 ++ [renamed])

def placeColumn (timeShifts : List Text) (groups : ColumnGroups) (column : Column × Text) :
    ColumnGroups :=
  match timeShiftOf timeShifts column.1 with
  | some shift =>
    { groups with timeShifts := groups.timeShifts.set shift (addColumn
      ((groups.timeShifts.get shift).getD ([], [])) column.1 column.2) }
  | none => { groups with nonTimeShift := addColumn groups.nonTimeShift column.1 column.2 }

/-- `get_column_groups` of the columns with their new names. -/
def getColumnGroups (columns : List (Column × Text)) (timeShifts : List Text) : ColumnGroups :=
  columns.foldl (placeColumn timeShifts) { nonTimeShift := ([], []), timeShifts := .empty }

end Liteset.Charts.TimeShifts
