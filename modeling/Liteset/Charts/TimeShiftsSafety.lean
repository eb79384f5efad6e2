import Liteset.Charts.TimeShifts

/-!
# When labels of time shifts are those of their shifts

A label is searched for the shifts in the order of their list, as a part, at the end, after the
separator or before a comma.  So it is attributed to its own shift when no shift that is listed
before occurs in it, and the name of its series is found again when nothing else that looks like a
shift occurs in it.  Both are also necessary.
-/

set_option autoImplicit false

namespace Liteset.Charts.TimeShifts

open Lib List

/-- `metric__shift` -/
def shifted (metric shift : Text) : Text := metric ++ separator ++ shift

/-- `shift, group` -/
def grouped (shift group : Text) : Text := shift ++ ", ".toList ++ group

def labelOf (metrics : List Text) (metric shift : Text) : Text :=
  if metrics.length > 1 then metric ++ ", ".toList ++ shift else shift

/-- Every column has the label of its shift, and no two columns have one label. -/
structure Renames (formData : FormData) (queryObject : QueryObject)
    (comparisonType : ComparisonType) : Prop where
  own : ∀ metric ∈ queryObject.metrics, ∀ shift ∈ formData.timeCompare,
    ∃ columns, renameOperator formData queryObject = some columns ∧
      columns.get (columnName comparisonType metric (shifted metric shift)) =
        some (some (labelOf queryObject.metrics metric shift))
  distinct : ∀ columns, renameOperator formData queryObject = some columns →
    ∀ first ∈ columns.entries, ∀ second ∈ columns.entries, first.2 = second.2 → first.1 = second.1

/-- The shift and the name of a series are found again. -/
def FoundAgain (shifts : List Text) (seriesName shift original : Text) : Prop :=
  getTimeOffset seriesName shifts = some shift ∧ getOriginalSeries seriesName shifts = original

/-- The columns of a metric and its shift are in the group of the shift, with their new names. -/
def Grouped (shifts : List Text) (metric shift : Text) : Prop :=
  ∀ columns : List (Column × Text),
    ∀ column ∈ columns, column.1.first = some (shifted metric shift) →
    ∃ group, (getColumnGroups columns shifts).timeShifts.get shift = some group ∧
    column ∈ group.1.zip group.2

def before (shifts : List Text) (shift : Text) : List Text :=
  shifts.takeWhile fun other => other ≠ shift

def after (shifts : List Text) (shift : Text) : List Text :=
  (shifts.dropWhile fun other => other ≠ shift).drop 1

variable {shifts : List Text} {shift : Text}

theorem split_at_shift (listed : shift ∈ shifts) :
    shifts = before shifts shift ++ shift :: after shifts shift := by
  have rest : shifts.dropWhile (fun other => other ≠ shift) = shift :: after shifts shift := by
    induction shifts with
    | nil => exact absurd listed not_mem_nil
    | cons first shifts ih =>
      by_cases same : first = shift
      · subst same
        simp [after]
      · have later := (mem_cons.mp listed).resolve_left (Ne.symm same)
        simpa [after, same] using ih later
  calc
    shifts = shifts.takeWhile (fun other => other ≠ shift) ++
        shifts.dropWhile (fun other => other ≠ shift) := takeWhile_append_dropWhile.symm
    _ = before shifts shift ++ shift :: after shifts shift := by rw [rest, before]

theorem find_shift_iff (listed : shift ∈ shifts) {matched : Text → Bool}
    (isMatched : matched shift = true) :
    shifts.find? matched = some shift ↔ ∀ other ∈ before shifts shift, matched other = false := by
  have noneBefore : ∀ other ∈ before shifts shift, other ≠ shift := by
    intro other member
    have kept := mem_takeWhile_imp member
    exact of_decide_eq_true kept
  have found : shifts.find? matched = ((before shifts shift).find? matched).or (some shift) := by
    conv_lhs => rw [split_at_shift listed]
    rw [find?_append, find?_cons_of_pos isMatched]
  rw [found]
  cases first : (before shifts shift).find? matched with
  | none =>
    rw [find?_eq_none] at first
    exact iff_of_true rfl fun other member => Bool.not_eq_true _ ▸ first other member
  | some other =>
    have member := mem_of_find?_eq_some first
    have otherMatched := find?_some first
    refine iff_of_false (fun same => noneBefore other member (Option.some.inj same))
      fun unmatched => ?_
    rw [unmatched other member] at otherMatched
    cases otherMatched

def Quiet (shifts : List Text) (text : Text) : Prop :=
  ∀ shift ∈ shifts, ¬ (shift ++ [',']) <:+: text ∧ ¬ (separator ++ shift) <:+: text

variable {text shift : Text}

theorem removeShift_of_quiet (comma : ¬ (shift ++ [',']) <:+: text)
    (bars : ¬ (separator ++ shift) <:+: text) :
    removeShift text shift = text := by
  rw [removeShift, JsText.removeFirst_of_absent comma, JsText.removeFirst_of_absent bars]

theorem count_removeShift_le (text shift : Text) (c : Char) :
    (removeShift text shift).count c ≤ text.count c :=
  (JsText.count_removeFirst_le _ _ c).trans (JsText.count_removeFirst_le _ _ c)

theorem comma_of_removed (occurs : (shift ++ [',']) <:+: text) :
    (JsText.removeFirst (shift ++ [',']) text).count ',' < text.count ',' := by
  have counted := JsText.count_removeFirst occurs ','
  have inPart : (shift ++ [',']).count ',' = shift.count ',' + 1 := by simp
  omega

theorem bars_of_removed (occurs : (separator ++ shift) <:+: text) :
    (JsText.removeFirst (separator ++ shift) text).count '_' < text.count '_' := by
  have counted := JsText.count_removeFirst occurs '_'
  have inPart : (separator ++ shift).count '_' = shift.count '_' + 2 := by
    rw [count_append, Nat.add_comm]
    rfl
  omega

theorem quiet_of_counts (commas : text.count ',' ≤ (removeShift text shift).count ',')
    (bars : text.count '_' ≤ (removeShift text shift).count '_') :
    ¬ (shift ++ [',']) <:+: text ∧ ¬ (separator ++ shift) <:+: text := by
  have noComma : ¬ (shift ++ [',']) <:+: text := by
    intro occurs
    have fewer := comma_of_removed occurs
    have outer := JsText.count_removeFirst_le (separator ++ shift)
      (JsText.removeFirst (shift ++ [',']) text) ','
    rw [removeShift] at commas
    omega
  refine ⟨noComma, fun occurs => ?_⟩
  have fewer := bars_of_removed occurs
  rw [removeShift, JsText.removeFirst_of_absent noComma] at bars
  omega

theorem foldl_of_quiet {text : Text} (quiet : Quiet shifts text) :
    shifts.foldl removeShift text = text := by
  induction shifts with
  | nil => rfl
  | cons shift shifts ih =>
    obtain ⟨here, later⟩ := forall_mem_cons.mp quiet
    rw [foldl_cons, removeShift_of_quiet here.1 here.2, ih later]

theorem count_foldl_le (shifts : List Text) (text : Text) (c : Char) :
    (shifts.foldl removeShift text).count c ≤ text.count c := by
  induction shifts generalizing text with
  | nil => exact Nat.le_refl _
  | cons shift shifts ih =>
    exact (ih (removeShift text shift)).trans (count_removeShift_le text shift c)

theorem quiet_of_foldl {text : Text}
    (commas : text.count ',' ≤ (shifts.foldl removeShift text).count ',')
    (bars : text.count '_' ≤ (shifts.foldl removeShift text).count '_') : Quiet shifts text := by
  induction shifts generalizing text with
  | nil => exact forall_mem_nil _
  | cons shift shifts ih =>
    rw [foldl_cons] at commas bars
    have here := quiet_of_counts (commas.trans (count_foldl_le shifts _ ','))
      (bars.trans (count_foldl_le shifts _ '_'))
    rw [removeShift_of_quiet here.1 here.2] at commas bars
    exact forall_mem_cons.mpr ⟨here, ih commas bars⟩

theorem getTimeOffset_iff (listed : shift ∈ shifts) {seriesName : Text}
    (looksLike : (shift ++ [',']) <:+: seriesName ∨ (separator ++ shift) <:+: seriesName) :
    getTimeOffset seriesName shifts = some shift ↔ Quiet (before shifts shift) seriesName := by
  rw [getTimeOffset, find_shift_iff listed (decide_eq_true looksLike)]
  refine forall₂_congr fun other _ => ?_
  rw [decide_eq_false_iff_not, not_or]

theorem getOriginalSeries_of_quiet (listed : shift ∈ shifts) {seriesName : Text}
    (quiet : Quiet (before shifts shift) seriesName) :
    getOriginalSeries seriesName shifts =
      JsText.trim ((after shifts shift).foldl removeShift (removeShift seriesName shift)) := by
  rw [getOriginalSeries]
  conv_lhs => rw [split_at_shift listed]
  rw [foldl_append, foldl_of_quiet quiet, foldl_cons]

structure SeriesKept (shifts : List Text) (metric shift : Text) : Prop where
  before : Quiet (before shifts shift) (shifted metric shift)
  noComma : ¬ (shift ++ [',']) <:+: shifted metric shift
  own : JsText.removeFirst (separator ++ shift) (shifted metric shift) = metric
  after : Quiet (after shifts shift) metric
  trimmed : JsText.trim metric = metric

structure GroupKept (shifts : List Text) (shift group : Text) : Prop where
  before : Quiet (before shifts shift) (grouped shift group)
  own : ¬ (separator ++ shift) <:+: ' ' :: group
  after : Quiet (after shifts shift) (' ' :: group)
  trimmed : JsText.trim group = group

theorem isSpace_marks : JsText.isSpace ',' = false ∧ JsText.isSpace '_' = false := by decide

/-- A comma that is removed is missing in the name; after the own shift nothing may be removed. -/
theorem series_found_iff (listed : shift ∈ shifts) (metric : Text) :
    FoundAgain shifts (shifted metric shift) shift metric ↔ SeriesKept shifts metric shift := by
  have occurs : (separator ++ shift) <:+: shifted metric shift :=
    ⟨metric, [], by rw [shifted, append_nil, append_assoc]⟩
  have found := getTimeOffset_iff listed (.inr occurs)
  constructor
  · rintro ⟨hasShift, hasName⟩
    have quiet := found.mp hasShift
    rw [getOriginalSeries_of_quiet listed quiet] at hasName
    have counted (c : Char) (isMark : JsText.isSpace c = false) :
        metric.count c ≤ (removeShift (shifted metric shift) shift).count c := by
      calc metric.count c
          = ((after shifts shift).foldl removeShift
            (removeShift (shifted metric shift) shift)).count c := by
            rw [← JsText.count_trim isMark ((after shifts shift).foldl _ _), hasName]
        _ ≤ (removeShift (shifted metric shift) shift).count c := count_foldl_le _ _ c
    have whole (c : Char) :
        (shifted metric shift).count c = metric.count c + (separator.count c + shift.count c) := by
      rw [shifted, count_append, count_append, Nat.add_assoc]
    have noComma : ¬ (shift ++ [',']) <:+: shifted metric shift := by
      intro comma
      have removed := JsText.count_removeFirst comma ','
      have inPart : (shift ++ [',']).count ',' = shift.count ',' + 1 := by simp
      have inSeparator : separator.count ',' = 0 := rfl
      have outer := JsText.count_removeFirst_le (separator ++ shift)
        (JsText.removeFirst (shift ++ [',']) (shifted metric shift)) ','
      have kept := counted ',' isSpace_marks.1
      rw [removeShift] at kept
      rw [whole, inSeparator] at removed
      omega
    have turn : removeShift (shifted metric shift) shift = JsText.removeFirst (separator ++ shift)
        (shifted metric shift) := by
      rw [removeShift, JsText.removeFirst_of_absent noComma]
    have remaining (c : Char) :
        (JsText.removeFirst (separator ++ shift) (shifted metric shift)).count c =
          metric.count c := by
      have removed := JsText.count_removeFirst occurs c
      rw [whole, count_append] at removed
      omega
    rw [turn] at hasName
    have quietAfter :
        Quiet (after shifts shift)
          (JsText.removeFirst (separator ++ shift) (shifted metric shift)) := by
      have kept (c : Char) (isMark : JsText.isSpace c = false) :
          (JsText.removeFirst (separator ++ shift) (shifted metric shift)).count c ≤
            ((after shifts shift).foldl removeShift
              (JsText.removeFirst (separator ++ shift) (shifted metric shift))).count c := by
        rw [← JsText.count_trim isMark ((after shifts shift).foldl _ _), hasName, remaining]
      exact quiet_of_foldl (kept ',' isSpace_marks.1) (kept '_' isSpace_marks.2)
    rw [foldl_of_quiet quietAfter] at hasName
    have lengths : (JsText.removeFirst (separator ++ shift) (shifted metric shift)).length =
        metric.length := by
      obtain ⟨front, back, isWhole, removed⟩ := JsText.removeFirst_of_occurs occurs
      have lengthWhole := congrArg List.length isWhole
      rw [removed]
      simp only [shifted, length_append] at lengthWhole ⊢
      omega
    have own : JsText.removeFirst (separator ++ shift) (shifted metric shift) = metric :=
      (JsText.trim_eq_self (by rw [hasName, lengths])).symm.trans hasName
    rw [own] at quietAfter hasName
    exact ⟨quiet, noComma, own, quietAfter, hasName⟩
  · rintro ⟨quiet, noComma, own, quietAfter, trimmed⟩
    refine ⟨found.mpr quiet, ?_⟩
    rw [getOriginalSeries_of_quiet listed quiet, removeShift, JsText.removeFirst_of_absent noComma,
      own, foldl_of_quiet quietAfter, trimmed]

theorem group_found_iff (listed : shift ∈ shifts) (group : Text) :
    FoundAgain shifts (grouped shift group) shift group ↔ GroupKept shifts shift group := by
  have name : grouped shift group = (shift ++ [',']) ++ ' ' :: group := by
    rw [grouped, append_assoc, append_assoc]
    rfl
  have found : getTimeOffset (grouped shift group) shifts = some shift ↔
    Quiet (before shifts shift) (grouped shift group) :=
    getTimeOffset_iff listed (.inl ⟨[], ' ' :: group, name.symm⟩)
  have turn : removeShift (grouped shift group) shift = JsText.removeFirst (separator ++ shift)
      (' ' :: group) := by
    rw [removeShift, name, JsText.removeFirst_append]
  have blank (c : Char) (isMark : JsText.isSpace c = false) :
      (' ' :: group).count c = group.count c := by
    refine count_cons_of_ne ?_
    rintro rfl
    cases isMark
  constructor
  · rintro ⟨hasShift, hasName⟩
    have quiet := found.mp hasShift
    rw [getOriginalSeries_of_quiet listed quiet, turn] at hasName
    have counted (c : Char) (isMark : JsText.isSpace c = false) :
        (' ' :: group).count c ≤ ((after shifts shift).foldl removeShift
          (JsText.removeFirst (separator ++ shift) (' ' :: group))).count c := by
      rw [← JsText.count_trim isMark ((after shifts shift).foldl _ _), hasName, blank c isMark]
    have own : ¬ (separator ++ shift) <:+: ' ' :: group := by
      intro bars
      have fewer := bars_of_removed bars
      have kept := (counted '_' isSpace_marks.2).trans (count_foldl_le _ _ '_')
      omega
    rw [JsText.removeFirst_of_absent own] at counted hasName
    have quietAfter := quiet_of_foldl (counted ',' isSpace_marks.1) (counted '_' isSpace_marks.2)
    rw [foldl_of_quiet quietAfter, JsText.trim_blank_cons] at hasName
    exact ⟨quiet, own, quietAfter, hasName⟩
  · rintro ⟨quiet, own, quietAfter, trimmed⟩
    refine ⟨found.mpr quiet, ?_⟩
    rw [getOriginalSeries_of_quiet listed quiet, turn, JsText.removeFirst_of_absent own,
      foldl_of_quiet quietAfter, JsText.trim_blank_cons, trimmed]

theorem getColumnGroups_get (columns : List (Column × Text)) (shifts : List Text) (shift : Text) :
    ((getColumnGroups columns shifts).timeShifts.get shift).getD ([], []) =
      ((columns.filter fun column => timeShiftOf shifts column.1 = some shift).map Prod.fst,
        (columns.filter fun column => timeShiftOf shifts column.1 = some shift).map Prod.snd) := by
  induction columns using reverseRecOn with
  | nil => rfl
  | append_singleton columns column ih =>
    have last : getColumnGroups (columns ++ [column]) shifts =
        placeColumn shifts (getColumnGroups columns shifts) column := by
      rw [getColumnGroups, foldl_append]
      rfl
    rw [last, placeColumn, filter_append]
    cases own : timeShiftOf shifts column.1 with
    | none => simpa [own] using ih
    | some other =>
      by_cases same : other = shift
      · subst same
        simp [own, ih, addColumn]
      · simpa [own, JsMap.get_set, same, Ne.symm same] using ih

theorem timeShiftOf_iff (listed : shift ∈ shifts) {column : Column} {metric : Text}
    (isColumn : column.first = some (shifted metric shift)) :
    timeShiftOf shifts column = some shift ↔ ∀ other ∈ before shifts shift,
      ¬ other <:+ shifted metric shift := by
  have ends : shift <:+ shifted metric shift := ⟨metric ++ separator, rfl⟩
  rw [timeShiftOf, isColumn, Option.bind_some, find_shift_iff listed (decide_eq_true ends)]
  exact forall₂_congr fun other _ => decide_eq_false_iff_not

theorem grouped_of_order (listed : shift ∈ shifts) {metric : Text}
    (order : ∀ other ∈ before shifts shift, ¬ other <:+: shifted metric shift) :
    Grouped shifts metric shift := by
  intro columns column member isColumn
  have own := (timeShiftOf_iff listed isColumn).mpr fun other earlier ends =>
    order other earlier ends.isInfix
  have groups := getColumnGroups_get columns shifts shift
  have inFilter : column ∈ columns.filter fun column => timeShiftOf shifts column.1 = some shift :=
    mem_filter.mpr ⟨member, decide_eq_true own⟩
  generalize columns.filter (fun column => timeShiftOf shifts column.1 = some shift) =
    chosen at groups inFilter
  cases found : (getColumnGroups columns shifts).timeShifts.get shift with
  | none =>
    rw [found] at groups
    have noneChosen : chosen = [] := map_eq_nil_iff.mp (congrArg Prod.fst groups).symm
    rw [noneChosen] at inFilter
    exact absurd inFilter not_mem_nil
  | some group =>
    rw [found, Option.getD_some] at groups
    refine ⟨group, rfl, ?_⟩
    rw [groups, zip_map', map_id'']
    · exact inFilter
    · exact fun _ => rfl

section Labels
variable {formData : FormData} {queryObject : QueryObject} {comparisonType : ComparisonType}

theorem mem_getMetricOffsetsMap {key metric : Text}
    (entry : (key, metric) ∈ (getMetricOffsetsMap formData queryObject).entries) :
    metric ∈ queryObject.metrics ∧ ∃ shift ∈ formData.timeCompare, key = shifted metric shift := by
  obtain ⟨other, isMetric, inShifts⟩ := mem_flatMap.mp (JsMap.mem_of_mem_ofEntries entry)
  obtain ⟨shift, listed, same⟩ := mem_map.mp inShifts
  cases same
  exact ⟨isMetric, shift, listed, rfl⟩

theorem key_mem_getMetricOffsetsMap {metric shift : Text} (isMetric : metric ∈ queryObject.metrics)
    (listed : shift ∈ formData.timeCompare) :
    ∃ last, (shifted metric shift, last) ∈ (getMetricOffsetsMap formData queryObject).entries :=
  JsMap.key_mem_ofEntries (mem_flatMap.mpr ⟨metric, isMetric, mem_map.mpr ⟨shift, listed, rfl⟩⟩)

theorem eq_of_separators {first second x y u v : Text}
    (bars : first ++ separator ++ x = second ++ separator ++ y)
    (commas : first ++ ", ".toList ++ u = second ++ ", ".toList ++ v) : first = second := by
  rw [append_assoc, append_assoc] at bars commas
  rcases append_eq_append_iff.mp bars with ⟨gap, isSecond, rest⟩ | ⟨gap, isFirst, rest⟩
  · subst isSecond
    cases gap with
    | nil => exact (append_nil first).symm
    | cons c gap =>
      rw [append_assoc, append_cancel_left_eq] at commas
      have isBar : '_' = c := (List.cons.inj rest).1
      have isComma : ',' = c := (List.cons.inj commas).1
      exact absurd (isBar.trans isComma.symm) (by decide)
  · subst isFirst
    cases gap with
    | nil => exact append_nil second
    | cons c gap =>
      rw [append_assoc, append_cancel_left_eq] at commas
      have isBar : '_' = c := (List.cons.inj rest).1
      have isComma : c = ',' := (List.cons.inj commas).1
      exact absurd (isBar.trans isComma) (by decide)

theorem shifted_inj {metric shift other : Text} : shifted metric shift = shifted metric other ↔
    shift = other := by
  rw [shifted, shifted, append_cancel_left_eq]

theorem eq_of_single {metrics : List Text} (single : ¬ metrics.length > 1) {metric other : Text}
    (isMetric : metric ∈ metrics)
    (isOther : other ∈ metrics) : metric = other := by
  cases metrics with
  | nil => exact absurd isMetric not_mem_nil
  | cons first metrics =>
    have noMore : metrics = [] := by
      rw [length_cons] at single
      exact length_eq_zero_iff.mp (by omega)
    subst noMore
    rw [mem_singleton.mp isMetric, mem_singleton.mp isOther]

theorem eq_of_column {metrics : List Text} {metric other shift otherShift : Text}
    (isMetric : metric ∈ metrics)
    (isOther : other ∈ metrics)
    (sameColumn : columnName comparisonType metric (shifted metric shift) =
      columnName comparisonType other (shifted other otherShift))
    {label : Option Text}
    (sameLabel : some (labelOf metrics metric shift) = newLabel metrics other label) :
    metric = other := by
  by_cases several : metrics.length > 1
  · rw [labelOf, if_pos several, newLabel, if_pos several, Option.some.injEq] at sameLabel
    unfold columnName at sameColumn
    split at sameColumn
    · exact eq_of_separators sameColumn sameLabel
    · have bars : metric ++ separator ++ shifted metric shift = other ++ separator ++
          shifted other otherShift := by
        simp only [append_assoc, append_cancel_left_eq] at sameColumn
        rw [append_assoc, append_assoc]
        exact sameColumn
      exact eq_of_separators bars sameLabel
  · exact eq_of_single several isMetric isOther

theorem newLabel_some (metrics : List Text) (metric shift : Text) :
    newLabel metrics metric (some shift) = some (labelOf metrics metric shift) := by
  unfold newLabel labelOf
  split <;> rfl

theorem renameOperator_eq (typed : formData.comparisonType = some comparisonType)
    (axis : (formData.xAxisLabel.any fun label => !label.isEmpty) = true) {entry : Text × Text}
    (isEntry : entry ∈ (getMetricOffsetsMap formData queryObject).entries) :
    renameOperator formData queryObject =
      some (JsMap.ofEntries (renamePairs formData queryObject comparisonType)) := by
  have someEntry : (getMetricOffsetsMap formData queryObject).entries.isEmpty = false := by
    rw [isEmpty_eq_false_iff]
    exact ne_nil_of_mem isEntry
  have compares : isTimeComparison formData queryObject = true := by
    rw [isTimeComparison, typed, someEntry]
    rfl
  have somePair : (renamePairs formData queryObject comparisonType).isEmpty = false := by
    rw [renamePairs, isEmpty_map, someEntry]
  have someMetric : 0 < queryObject.metrics.length :=
    length_pos_of_mem (mem_getMetricOffsetsMap isEntry).1
  have pairs : allPairs formData queryObject = renamePairs formData queryObject comparisonType := by
    simp [allPairs, comparedPairs, typed, compares, somePair]
  rw [renameOperator, if_pos ⟨someMetric, axis, .inl compares⟩, pairs, somePair]
  rfl

theorem renameOperator_unshifted (noEntry : (getMetricOffsetsMap formData queryObject).entries = [])
    {columns : JsMap Text (Option Text)}
    (renames : renameOperator formData queryObject = some columns)
    {first second : Text × Option Text} (isFirst : first ∈ columns.entries)
    (isSecond : second ∈ columns.entries) :
    first = second := by
  have noPairs : comparedPairs formData queryObject = [] := by
    unfold comparedPairs
    cases formData.comparisonType with
    | none => rfl
    | some comparisonType => simp [renamePairs, noEntry]
  have only : ∀ pair ∈ allPairs formData queryObject,
      queryObject.metrics.head?.map (fun metric => (metric, none)) = some pair := by
    intro pair member
    unfold allPairs at member
    split at member
    · exact Option.mem_toList.mp member
    · rw [noPairs] at member
      exact absurd member not_mem_nil
  unfold renameOperator at renames
  split at renames
  · split at renames
    · cases renames
    · cases renames
      exact Option.some.inj ((only first (JsMap.mem_of_mem_ofEntries isFirst)).symm.trans
        (only second (JsMap.mem_of_mem_ofEntries isSecond)))
  · cases renames

structure LabelsApart (metrics shifts : List Text) (comparisonType : ComparisonType) : Prop where
  order : ∀ metric ∈ metrics,
    ∀ shift ∈ shifts, ∀ other ∈ before shifts shift, ¬ other <:+: shifted metric shift
  names : ∀ metric ∈ metrics, ∀ other ∈ metrics, ∀ shift ∈ shifts, ∀ otherShift ∈ shifts,
    shifted metric shift = shifted other otherShift → metric = other
  columns : ∀ metric ∈ metrics, ∀ other ∈ metrics, ∀ shift ∈ shifts, ∀ otherShift ∈ shifts,
    columnName comparisonType metric (shifted metric shift) = columnName comparisonType other
      (shifted other otherShift) →
      metric = other
  labels : ∀ metric ∈ metrics, ∀ other ∈ metrics, ∀ shift ∈ shifts, ∀ otherShift ∈ shifts,
    metric ++ ", ".toList ++ shift = other ++ ", ".toList ++ otherShift → metric = other

theorem columnName_inj {metric first second : Text} :
    columnName comparisonType metric first = columnName comparisonType metric second ↔
    first = second := by
  unfold columnName
  split
  · exact Iff.rfl
  · rw [append_cancel_left_eq]

theorem labelOf_inj {metrics : List Text} {metric first second : Text} :
    labelOf metrics metric first = labelOf metrics metric second ↔ first = second := by
  unfold labelOf
  split
  · rw [append_cancel_left_eq]
  · exact Iff.rfl

theorem find_label_iff {metric shift : Text} (listed : shift ∈ formData.timeCompare) :
    (formData.timeCompare.find? fun offset => offset <:+: shifted metric shift) = some shift ↔
      ∀ other ∈ before formData.timeCompare shift, ¬ other <:+: shifted metric shift := by
  have ends : shift <:+: shifted metric shift := ⟨metric ++ separator, [], by rw [append_nil]; rfl⟩
  rw [find_shift_iff listed (decide_eq_true ends)]
  exact forall₂_congr fun other _ => decide_eq_false_iff_not

theorem mem_renamePairs {pair : Text × Option Text}
    (member : pair ∈ renamePairs formData queryObject comparisonType) :
    ∃ metric ∈ queryObject.metrics, ∃ shift ∈ formData.timeCompare,
      (shifted metric shift, metric) ∈ (getMetricOffsetsMap formData queryObject).entries ∧
        pair = (columnName comparisonType metric (shifted metric shift),
          newLabel queryObject.metrics metric (formData.timeCompare.find? fun offset =>
            offset <:+: shifted metric shift)) := by
  obtain ⟨⟨key, metric⟩, isEntry, rfl⟩ := mem_map.mp member
  obtain ⟨isMetric, shift, listed, rfl⟩ := mem_getMetricOffsetsMap isEntry
  exact ⟨metric, isMetric, shift, listed, isEntry, rfl⟩

theorem mem_of_get {columns : List (Text × Option Text)} {column : Text} {label : Option Text}
    (found : (JsMap.ofEntries columns).get column = some label) : (column, label) ∈ columns :=
  JsMap.mem_of_mem_ofEntries (JsMap.get_eq_some_iff.mp found)

theorem labelsApart_of_renames (typed : formData.comparisonType = some comparisonType)
    (axis : (formData.xAxisLabel.any fun label => !label.isEmpty) = true)
    (renames : Renames formData queryObject comparisonType) :
    LabelsApart queryObject.metrics formData.timeCompare comparisonType := by
  have found (metric) (isMetric : metric ∈ queryObject.metrics) (shift)
    (listed : shift ∈ formData.timeCompare) :
      renameOperator formData queryObject =
        some (JsMap.ofEntries (renamePairs formData queryObject comparisonType)) ∧
        (JsMap.ofEntries (renamePairs formData queryObject comparisonType)).get
          (columnName comparisonType metric (shifted metric shift)) =
            some (some (labelOf queryObject.metrics metric shift)) := by
    obtain ⟨last, isEntry⟩ := key_mem_getMetricOffsetsMap isMetric listed
    have result := renameOperator_eq typed axis isEntry
    obtain ⟨columns, isColumns, found⟩ := renames.own metric isMetric shift listed
    cases result.symm.trans isColumns
    exact ⟨result, found⟩
  -- the label of a column comes from the entry of its own metric
  have ownEntry (metric) (isMetric : metric ∈ queryObject.metrics) (shift)
    (listed : shift ∈ formData.timeCompare) :
      (shifted metric shift, metric) ∈ (getMetricOffsetsMap formData queryObject).entries ∧
        newLabel queryObject.metrics metric (formData.timeCompare.find? fun offset =>
          offset <:+: shifted metric shift) =
          some (labelOf queryObject.metrics metric shift) := by
    obtain ⟨other, isOther, otherShift, _, isEntry, same⟩ :=
      mem_renamePairs (mem_of_get (found metric isMetric shift listed).2)
    obtain ⟨sameColumn, sameLabel⟩ := Prod.mk.injEq .. ▸ same
    obtain rfl := eq_of_column isMetric isOther sameColumn sameLabel
    rw [columnName_inj] at sameColumn
    rw [sameColumn]
    exact ⟨isEntry, sameLabel.symm⟩
  refine ⟨?_, ?_, ?_, ?_⟩
  · intro metric isMetric shift listed
    rw [← find_label_iff listed]
    have label := (ownEntry metric isMetric shift listed).2
    cases first : formData.timeCompare.find? fun offset => offset <:+: shifted metric shift with
    | none =>
      have ends : shift <:+: shifted metric shift :=
        ⟨metric ++ separator, [], by rw [append_nil]; rfl⟩
      exact absurd (decide_eq_true ends) (find?_eq_none.mp first shift listed)
    | some other =>
      rw [first, newLabel_some, Option.some.injEq, labelOf_inj] at label
      rw [label]
  · intro metric isMetric other isOther shift listed otherShift otherListed same
    have first := JsMap.get_eq_some_iff.mpr (ownEntry metric isMetric shift listed).1
    have second := JsMap.get_eq_some_iff.mpr (ownEntry other isOther otherShift otherListed).1
    rw [← same, first] at second
    exact Option.some.inj second
  · intro metric isMetric other isOther shift listed otherShift otherListed same
    have first := (found metric isMetric shift listed).2
    have second := (found other isOther otherShift otherListed).2
    rw [← same, first, Option.some.injEq] at second
    rw [← newLabel_some queryObject.metrics other] at second
    exact eq_of_column isMetric isOther same second
  · intro metric isMetric other isOther shift listed otherShift otherListed same
    by_cases several : queryObject.metrics.length > 1
    · have result := (found metric isMetric shift listed).1
      have first := JsMap.get_eq_some_iff.mp (found metric isMetric shift listed).2
      have second := JsMap.get_eq_some_iff.mp (found other isOther otherShift otherListed).2
      have sameLabel :
          labelOf queryObject.metrics metric shift =
            labelOf queryObject.metrics other otherShift := by
        rw [labelOf, labelOf, if_pos several, if_pos several, same]
      have sameColumn := renames.distinct _ result _ first _ second (congrArg some sameLabel)
      exact eq_of_column isMetric isOther sameColumn
        ((congrArg some sameLabel).trans (newLabel_some ..).symm)
    · exact eq_of_single several isMetric isOther

theorem renames_of_labelsApart (typed : formData.comparisonType = some comparisonType)
    (axis : (formData.xAxisLabel.any fun label => !label.isEmpty) = true)
    (apart : LabelsApart queryObject.metrics formData.timeCompare comparisonType) :
    Renames formData queryObject comparisonType := by
  have label (metric) (isMetric : metric ∈ queryObject.metrics) (shift)
    (listed : shift ∈ formData.timeCompare) :
      newLabel queryObject.metrics metric (formData.timeCompare.find? fun offset =>
        offset <:+: shifted metric shift) =
        some (labelOf queryObject.metrics metric shift) := by
    rw [(find_label_iff listed).mpr (apart.order metric isMetric shift listed), newLabel_some]
  constructor
  · intro metric isMetric shift listed
    obtain ⟨last, isEntry⟩ := key_mem_getMetricOffsetsMap isMetric listed
    obtain ⟨isLast, otherShift, otherListed, same⟩ := mem_getMetricOffsetsMap isEntry
    obtain rfl := apart.names metric isMetric last isLast shift listed otherShift otherListed same
    refine ⟨_, renameOperator_eq typed axis isEntry, ?_⟩
    have isPair : (columnName comparisonType metric (shifted metric shift),
        newLabel queryObject.metrics metric (formData.timeCompare.find? fun offset =>
          offset <:+: shifted metric shift)) ∈
        renamePairs formData queryObject comparisonType := mem_map_of_mem isEntry
    obtain ⟨value, inColumns⟩ := JsMap.key_mem_ofEntries isPair
    rw [JsMap.get_eq_some_iff.mpr inColumns]
    obtain ⟨other, isOther, anyShift, anyListed, _, pair⟩ :=
      mem_renamePairs (JsMap.mem_of_mem_ofEntries inColumns)
    obtain ⟨sameColumn, isValue⟩ := Prod.mk.injEq .. ▸ pair
    obtain rfl := apart.columns metric isMetric other isOther shift listed anyShift anyListed
      sameColumn
    rw [columnName_inj, shifted_inj] at sameColumn
    rw [isValue, ← sameColumn, label metric isMetric shift listed]
  · intro columns renames first isFirst second isSecond sameLabel
    cases entries : (getMetricOffsetsMap formData queryObject).entries with
    | nil => rw [renameOperator_unshifted entries renames isFirst isSecond]
    | cons entry rest =>
      have result := renameOperator_eq typed axis (entries ▸ mem_cons_self : entry ∈ _)
      cases result.symm.trans renames
      obtain ⟨metric, isMetric, shift, listed, _, rfl⟩ :=
        mem_renamePairs (JsMap.mem_of_mem_ofEntries isFirst)
      obtain ⟨other, isOther, otherShift, otherListed, _, rfl⟩ :=
        mem_renamePairs (JsMap.mem_of_mem_ofEntries isSecond)
      dsimp only at sameLabel ⊢
      rw [label metric isMetric shift listed, label other isOther otherShift otherListed,
        Option.some.injEq] at sameLabel
      have sameMetric : metric = other := by
        by_cases several : queryObject.metrics.length > 1
        · rw [labelOf, labelOf, if_pos several, if_pos several] at sameLabel
          exact apart.labels metric isMetric other isOther shift listed otherShift otherListed
            sameLabel
        · exact eq_of_single several isMetric isOther
      subst sameMetric
      rw [labelOf_inj.mp sameLabel]

end Labels

/-- The texts whose labels are all attributed to their shifts. -/
structure Attributable (metrics shifts groups : List Text) (comparisonType : ComparisonType) :
    Prop where
  labels : LabelsApart metrics shifts comparisonType
  series : ∀ metric ∈ metrics, ∀ shift ∈ shifts, SeriesKept shifts metric shift
  groups : ∀ shift ∈ shifts, ∀ group ∈ groups, GroupKept shifts shift group

/-- In a time comparison, the labels, the series and the groups of columns are attributed to
their own shifts exactly when the texts are attributable. -/
theorem attributed_iff (formData : FormData) (queryObject : QueryObject)
    (comparisonType : ComparisonType) (groups : List Text)
    (typed : formData.comparisonType = some comparisonType)
    (axis : (formData.xAxisLabel.any fun label => !label.isEmpty) = true) :
    (Renames formData queryObject comparisonType ∧
        (∀ metric ∈ queryObject.metrics, ∀ shift ∈ formData.timeCompare,
          FoundAgain formData.timeCompare (shifted metric shift) shift metric ∧
          Grouped formData.timeCompare metric shift) ∧
        ∀ shift ∈ formData.timeCompare, ∀ group ∈ groups,
          FoundAgain formData.timeCompare (grouped shift group) shift group) ↔
      Attributable queryObject.metrics formData.timeCompare groups comparisonType := by
  constructor
  · rintro ⟨renames, series, groupSeries⟩
    exact {
      labels := labelsApart_of_renames typed axis renames
      series := fun metric isMetric shift listed =>
        (series_found_iff listed metric).mp (series metric isMetric shift listed).1
      groups := fun shift listed group isGroup =>
        (group_found_iff listed group).mp (groupSeries shift listed group isGroup) }
  · intro attributable
    refine ⟨renames_of_labelsApart typed axis attributable.labels,
      fun metric isMetric shift listed => ⟨?_, ?_⟩, ?_⟩
    · exact (series_found_iff listed metric).mpr (attributable.series metric isMetric shift listed)
    · exact grouped_of_order listed (attributable.labels.order metric isMetric shift listed)
    · exact fun shift listed group isGroup =>
        (group_found_iff listed group).mpr (attributable.groups shift listed group isGroup)

def years : FormData where
  timeCompare := ["1 year ago".toList, "2 years ago".toList]
  comparisonType := some .values
  truncateMetric := none
  xAxisLabel := some "day".toList

def births : QueryObject where
  metrics := ["sum".toList, "avg".toList]
  columns := ["gender".toList]

theorem years_attributed :
    Renames years births .values ∧
      (∀ metric ∈ births.metrics, ∀ shift ∈ years.timeCompare,
        FoundAgain years.timeCompare (shifted metric shift) shift metric ∧
        Grouped years.timeCompare metric shift) ∧
      ∀ shift ∈ years.timeCompare,
        ∀ group ∈ ["boy".toList],
          FoundAgain years.timeCompare (grouped shift group) shift group := by
  refine (attributed_iff years births .values ["boy".toList] rfl (by decide)).mpr {
    labels := ⟨by decide, by decide, by decide, by decide⟩
    series := fun metric isMetric shift listed => ?_
    groups := fun shift listed group isGroup => ?_ }
  · have quiet : ∀ metric ∈ births.metrics, ∀ shift ∈ years.timeCompare,
        Quiet (before years.timeCompare shift) (shifted metric shift) ∧
        Quiet (after years.timeCompare shift) metric := by
      unfold Quiet
      decide
    have kept : ∀ metric ∈ births.metrics, ∀ shift ∈ years.timeCompare,
      ¬ (shift ++ [',']) <:+: shifted metric shift ∧
        JsText.removeFirst (separator ++ shift) (shifted metric shift) = metric ∧
        JsText.trim metric = metric := by
      decide
    obtain ⟨quietBefore, quietAfter⟩ := quiet metric isMetric shift listed
    obtain ⟨noComma, own, trimmed⟩ := kept metric isMetric shift listed
    exact ⟨quietBefore, noComma, own, quietAfter, trimmed⟩
  · have quiet : ∀ shift ∈ years.timeCompare, ∀ group ∈ ["boy".toList],
        Quiet (before years.timeCompare shift) (grouped shift group) ∧
        Quiet (after years.timeCompare shift) (' ' :: group) := by
      unfold Quiet
      decide
    have kept : ∀ shift ∈ years.timeCompare, ∀ group ∈ ["boy".toList],
        ¬ (separator ++ shift) <:+: ' ' :: group ∧ JsText.trim group = group := by
      decide
    obtain ⟨quietBefore, quietAfter⟩ := quiet shift listed group isGroup
    obtain ⟨own, trimmed⟩ := kept shift listed group isGroup
    exact ⟨quietBefore, own, quietAfter, trimmed⟩

def days : FormData where
  timeCompare := ["1 day ago".toList, "11 day ago".toList]
  comparisonType := some .values
  truncateMetric := none
  xAxisLabel := some "day".toList

def count : QueryObject where
  metrics := ["count".toList]
  columns := []

/-- Both columns get the label of the first shift, and so do the series and the group. -/
theorem days_confused :
    ¬ Renames days count .values ∧
      getTimeOffset (grouped "11 day ago".toList "boy".toList) days.timeCompare =
        some "1 day ago".toList ∧
      getOriginalSeries (grouped "11 day ago".toList "boy".toList) days.timeCompare =
        "1 boy".toList ∧
      timeShiftOf days.timeCompare ⟨some (shifted "count".toList "11 day ago".toList), []⟩ =
        some "1 day ago".toList := by
  refine ⟨fun renames => ?_, by decide, by decide, by decide⟩
  obtain ⟨columns, isColumns, found⟩ :=
    renames.own "count".toList (by decide) "11 day ago".toList (by decide)
  have first : (renameOperator days count).bind (fun columns =>
      columns.get (columnName .values "count".toList
        (shifted "count".toList "11 day ago".toList))) =
        some (some "1 day ago".toList) := by
    decide
  rw [isColumns, Option.bind_some, found] at first
  exact absurd first (by decide)

end Liteset.Charts.TimeShifts
