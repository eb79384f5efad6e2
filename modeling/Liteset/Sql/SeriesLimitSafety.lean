import Mathlib.Algebra.GroupWithZero.Nat
import Liteset.Sql.RowConfinement
import Liteset.Sql.SeriesLimit

/-!
# When a series limit is exact

`exactGroups` says what a limited query means: the rows of the first series, or all rows
with the remaining series under one name.  A run returns that for every HAVING condition
exactly when the engine joins and no row of a first series has a null series value; with
the others grouped, also no first series may be named as they are and nothing may be left
to order or to cut.
-/

set_option autoImplicit false

namespace Liteset.Sql.Chart.Series

open Lib List
open Lib.Pages

section Keys
variable {R : Type} (columns : List (GroupColumn R))

def othersKey (row : R) : List Cell :=
  columns.map fun column => if column.isSeries then some "Others" else column.value row

def Complete (row : R) : Prop := none ∉ seriesKey columns row

instance (row : R) : Decidable (Complete columns row) :=
  inferInstanceAs (Decidable (none ∉ seriesKey columns row))

theorem zip_all_iff (cells series : List Cell) (same : cells.length = series.length) :
    ((cells.zip series).all fun pair => pair.1.isSome && pair.1 = pair.2) = true ↔
    series = cells ∧ none ∉ cells := by
  induction cells generalizing series with
  | nil =>
    cases series with
    | nil => simp
    | cons cell series => cases same
  | cons first cells ih =>
    cases series with
    | nil => cases same
    | cons cell series =>
      rw [zip_cons_cons, all_cons, Bool.and_eq_true, ih series (Nat.succ.inj same)]
      cases first with
      | none => simp
      | some text =>
        simp only [Option.isSome_some, Bool.true_and, decide_eq_true_eq, List.cons.injEq, mem_cons,
          reduceCtorEq, false_or]
        constructor
        · rintro ⟨here, rest, nulls⟩
          exact ⟨⟨here.symm, rest⟩, nulls⟩
        · rintro ⟨⟨here, rest⟩, nulls⟩
          exact ⟨here.symm, rest, nulls⟩

theorem onClause_iff (row : R) (series : List Cell)
    (width : series.length = (columns.filter GroupColumn.isSeries).length) :
    onClause columns row series = true ↔ series = seriesKey columns row ∧ Complete columns row :=
  zip_all_iff (seriesKey columns row) series (by rw [width, seriesKey, groupKey, length_map])

theorem seriesKey_cons (column : GroupColumn R) (row : R) :
    seriesKey (column :: columns) row =
      if column.isSeries then column.value row :: seriesKey columns row
        else seriesKey columns row := by
  cases series : column.isSeries <;> simp [seriesKey, groupKey, series]

theorem caseKey_matched (row : R) (complete : Complete columns row) :
    caseKey row columns (seriesKey columns row) = groupKey columns row := by
  induction columns with
  | nil => rfl
  | cons column columns ih =>
    unfold Complete at complete ih
    rw [seriesKey_cons] at complete ⊢
    rw [groupKey, map_cons, caseKey]
    cases series : column.isSeries with
    | true =>
      rw [series, if_pos rfl, mem_cons, not_or] at complete
      have some_ : (column.value row).isSome = true :=
        Option.isSome_iff_ne_none.mpr (Ne.symm complete.1)
      simp only [if_true, head?_cons, Option.join_some, some_, tail_cons]
      rw [ih complete.2, groupKey]
    | false =>
      rw [series, if_neg Bool.false_ne_true] at complete
      simp only [Bool.false_eq_true, if_false]
      rw [ih complete, groupKey]

theorem caseKey_unmatched (row : R) :
    caseKey row columns (nullSeries columns) = othersKey columns row := by
  induction columns with
  | nil => rfl
  | cons column columns ih =>
    unfold nullSeries at ih ⊢
    rw [othersKey, map_cons, caseKey]
    cases series : column.isSeries with
    | true =>
      simp only [filter_cons, series, if_true, length_cons, replicate_succ, head?_cons,
        Option.join_some, Option.isSome_none, Bool.false_eq_true, if_false, tail_cons]
      rw [ih, othersKey]
    | false =>
      simp only [filter_cons, series, Bool.false_eq_true, if_false]
      rw [ih, othersKey]

theorem groupKey_ne_othersKey (row other : R) (incomplete : ¬Complete columns row) :
    groupKey columns row ≠ othersKey columns other := by
  intro same
  obtain ⟨column, member, value⟩ := mem_map.mp (not_not.mp incomplete)
  obtain ⟨stored, series⟩ := mem_filter.mp member
  have cell := (map_inj_left.mp same) column stored
  rw [if_pos series, value] at cell
  cases cell

end Keys

section Meaning
variable {R κ : Type} [LinearOrder κ] (request : Request R κ) (table : List R)

def selectedRows : List R :=
  table.filter fun row => (plainSelect request.conditions request.rls).reads (request.valuation row)

def rankedSeries : List (Group R) :=
  seriesGroups request
    (seriesSubquery request.dataset request.query request.conditions request.rls) table

def isTop (series : List Cell) : Bool :=
  (rankedSeries request table).any fun group => group.1 = series &&
    ((rankedSeries request table).filter fun other =>
      ranksBefore (fun group : Group R => request.seriesMetric group.2)
        (!request.orderDesc) other group).length
        < request.seriesLimit

def topRow (row : R) : Bool := isTop request table (seriesKey request.columns row)

def identity (row : R) : Bool × List Cell :=
  if topRow request table row then (true, groupKey request.columns row)
  else (false, othersKey request.columns row)

def exactGroups : List (Group R) :=
  if request.query.groupOthersWhenLimitReached then
    (Groups.collect ((selectedRows request table).map fun row =>
      (identity request table row, row))).map
      fun group => (group.1.2, group.2)
  else
    Groups.collect (((selectedRows request table).filter (topRow request table)).map fun row =>
      (groupKey request.columns row, row))

def exactRows (having : List R → Bool) : List (List Cell × List κ) :=
  (request.page.of ((exactGroups request table).filter fun group => having group.2)).map
    (selectRow request)

/-- The series are limited exactly, under every condition on the groups. -/
def Exact : Prop := ∀ having, run request having table = .ok (exactRows request table having)

/-- No two series have the same value of the metric that orders them. -/
def NoTies : Prop :=
  (rankedSeries request table).Pairwise fun group other =>
    request.seriesMetric group.2 ≠ request.seriesMetric other.2

omit [LinearOrder κ] in
theorem mem_rankedSeries (group : Group R) (member : group ∈ rankedSeries request table) :
    ∃ row, group.1 = seriesKey request.columns row := by
  obtain ⟨item, stored, same⟩ := mem_map.mp ((Groups.mem_collect _ group.1 group.2).mp member).1
  obtain ⟨row, -, rfl⟩ := mem_map.mp stored
  exact ⟨row, same.symm⟩

def topList : List (List Cell) :=
  topSeries request request.seriesMetric
    (seriesSubquery request.dataset request.query request.conditions request.rls) table

theorem mem_topList (noTies : NoTies request table) (series : List Cell) :
    series ∈ topList request table ↔ isTop request table series = true := by
  have first := mem_take_sorted (fun group : Group R => request.seriesMetric group.2)
    (!request.orderDesc)
    (rankedSeries request table) request.seriesLimit noTies
  simp only [topList, topSeries, isTop, mem_map, any_eq_true, Bool.and_eq_true, decide_eq_true_eq]
  constructor
  · rintro ⟨group, taken, rfl⟩
    obtain ⟨member, few⟩ := (first group).mp taken
    exact ⟨group, member, rfl, few⟩
  · rintro ⟨group, member, rfl, few⟩
    exact ⟨group, (first group).mpr ⟨member, few⟩, rfl⟩

theorem nodup_topList : (topList request table).Nodup := by
  have keys := (Groups.collect_spec (((table.filter fun row =>
    (seriesSubquery request.dataset request.query request.conditions request.rls).reads
      (request.valuation row)).map
      fun row => (seriesKey request.columns row, row)))).1
  have perm :=
    (sorted_perm [(fun group : Group R => request.seriesMetric group.2, !request.orderDesc)]
    (rankedSeries request table)).map Prod.fst
  exact ((take_sublist _ _).map Prod.fst).nodup (perm.nodup_iff.mpr keys)

theorem topList_width (series : List Cell) (member : series ∈ topList request table) :
    series.length = (request.columns.filter GroupColumn.isSeries).length := by
  obtain ⟨group, taken, rfl⟩ := mem_map.mp member
  obtain ⟨row, same⟩ := mem_rankedSeries request table group
    ((sorted_perm _ _).mem_iff.mp (mem_of_mem_take taken))
  rw [same, seriesKey, groupKey, length_map]

def matched (row : R) : Bool := topRow request table row && Complete request.columns row

theorem partners (noTies : NoTies request table) (row : R) :
    (topList request table).filter (onClause request.columns row) =
      if matched request table row then [seriesKey request.columns row] else [] := by
  have on (series : List Cell) (member : series ∈ topList request table) :=
    onClause_iff request.columns row series (topList_width request table series member)
  cases match_ : matched request table row with
  | true =>
    obtain ⟨top, complete⟩ := Bool.and_eq_true_iff.mp match_
    have stored := (mem_topList request table noTies _).mpr top
    have alone : (topList request table).filter (onClause request.columns row) =
        (topList request table).filter (· == seriesKey request.columns row) :=
      filter_congr fun series member => by
        rw [Bool.eq_iff_iff, on series member, beq_iff_eq]
        exact and_iff_left (of_decide_eq_true complete)
    rw [if_pos rfl, alone, filter_beq, count_eq_one_of_mem (nodup_topList request table) stored]
    rfl
  | false =>
    rw [if_neg Bool.false_ne_true]
    refine filter_eq_nil_iff.mpr fun series member fits => ?_
    obtain ⟨rfl, complete⟩ := (on series member).mp fits
    have top := (mem_topList request table noTies _).mp member
    rw [matched, topRow, top, decide_eq_true complete] at match_
    cases match_

theorem flatMap_ite {α β : Type} (keep : α → Bool) (f : α → β) (xs : List α) :
    (xs.flatMap fun x => if keep x then [f x] else []) = (xs.filter keep).map f := by
  induction xs with
  | nil => rfl
  | cons x xs ih =>
    rw [flatMap_cons, ih, filter_cons]
    cases keep x <;> rfl

theorem inner_rows (noTies : NoTies request table) :
    joinSeries request .inner (topList request table) table =
      (table.filter (matched request table)).map fun row =>
        (row, seriesKey request.columns row) := by
  rw [← flatMap_ite]
  refine flatMap_congr fun row _ => ?_
  rw [Joins.innerRow, partners request table noTies]
  split <;> rfl

theorem left_rows (noTies : NoTies request table) :
    joinSeries request .leftOuter (topList request table) table =
      table.map fun row =>
        (row, if matched request table row then seriesKey request.columns row else
          nullSeries request.columns) := by
  rw [← flatMap_pure_eq_map]
  refine flatMap_congr fun row _ => ?_
  have found := partners request table noTies row
  rw [Joins.leftRow, Joins.innerRow, found]
  cases match_ : matched request table row with
  | true =>
    rw [match_, if_pos rfl] at found
    have some_ : (topList request table).any (onClause request.columns row) = true :=
      any_eq_true.mpr ⟨_, mem_filter.mp (found ▸ mem_singleton_self _)⟩
    rw [if_pos some_]
    simp [match_]
  | false =>
    rw [match_, if_neg Bool.false_ne_true] at found
    have none_ : ¬(topList request table).any (onClause request.columns row) = true := by
      intro some_
      obtain ⟨series, member, fits⟩ := any_eq_true.mp some_
      exact not_mem_nil (found ▸ mem_filter.mpr ⟨member, fits⟩)
    rw [if_neg none_]
    simp [match_]

def runKey (row : R) : List Cell :=
  if matched request table row then groupKey request.columns row else othersKey request.columns row

def runGroups : List (Group R) :=
  if request.query.groupOthersWhenLimitReached then
    Groups.collect ((selectedRows request table).map fun row => (runKey request table row, row))
  else
    Groups.collect (((selectedRows request table).filter (matched request table)).map fun row =>
      (groupKey request.columns row, row))

def runRows (having : List R → Bool) : List (List Cell × List κ) :=
  let groups := (runGroups request table).filter fun group => having group.2
  (if request.query.groupOthersWhenLimitReached then groups else request.page.of groups).map
    (selectRow request)

omit [LinearOrder κ] in
theorem reapply_eq :
    reapplyQueryFilters request.conditions request.rls =
      plainSelect request.conditions request.rls :=
  (reapplyQueryFilters_eq request.conditions request.rls).trans
    (plainSelect_eq request.dataset request.settings request.built request.rls).symm

theorem caseKey_eq_runKey (row : R) :
    caseKey row request.columns
        (if matched request table row then seriesKey request.columns row else
          nullSeries request.columns) =
      runKey request table row := by
  unfold runKey
  cases match_ : matched request table row with
  | true =>
    exact caseKey_matched request.columns row (of_decide_eq_true (Bool.and_eq_true_iff.mp match_).2)
  | false => exact caseKey_unmatched request.columns row

theorem run_without_joins (having : List R → Bool)
    (joins : joinsSeries request.dataset request.query = false) :
    run request having table = .error .notImplementedError := by
  unfold run limitSeries
  simp only [request.found, joins, request.limited]
  rfl

theorem run_eq (noTies : NoTies request table) (having : List R → Bool)
    (joins : joinsSeries request.dataset request.query = true) :
    run request having table = .ok (runRows request table having) := by
  have inner := inner_rows request table noTies
  have left := left_rows request table noTies
  unfold run limitSeries runRows runGroups
  simp only [request.found, joins, if_true]
  cases others : request.query.groupOthersWhenLimitReached with
  | false =>
    simp only [Bool.false_eq_true, if_false]
    refine congrArg Except.ok ?_
    unfold execute
    dsimp only
    unfold topList at inner
    rw [inner, filter_map, map_map, selectedRows, filter_filter, filter_filter]
    simp only [Function.comp_def, Bool.and_comm]
  | true =>
    simp only [if_true]
    refine congrArg Except.ok ?_
    unfold execute
    dsimp only
    unfold topList at left
    rw [left, filter_map, map_map, reapply_eq]
    simp only [Function.comp_def, caseKey_eq_runKey, selectedRows]

def NoNulls : Prop :=
  ∀ row ∈ selectedRows request table, topRow request table row = true → Complete request.columns row

def NamesFree : Prop :=
  ∀ row ∈ selectedRows request table, topRow request table row = true →
    ∀ other ∈ selectedRows request table, topRow request table other = false →
      groupKey request.columns row ≠ othersKey request.columns other

def Unpaged : Prop :=
  request.page.offset = 0 ∧
    (request.page.limit = 0 ∨ (exactGroups request table).length ≤ request.page.limit) ∧
    (exactGroups request table).Pairwise fun a b => before request.page.orderBy a b = true

def nullFree (columns : List (GroupColumn R)) (key : List Cell) : Bool :=
  (columns.zip key).all fun pair => !pair.1.isSeries || pair.2.isSome

theorem nullFree_groupKey (columns : List (GroupColumn R)) (row : R) :
    nullFree columns (groupKey columns row) = true ↔ Complete columns row := by
  induction columns with
  | nil => simp [nullFree, groupKey, Complete, seriesKey]
  | cons column columns ih =>
    unfold nullFree groupKey Complete at ih ⊢
    rw [seriesKey_cons, map_cons, zip_cons_cons, all_cons, Bool.and_eq_true, ih]
    cases series : column.isSeries with
    | false => simp
    | true => cases column.value row <;> simp

section
variable (alone : request.query.groupOthersWhenLimitReached = false)
include alone

theorem runGroups_alone :
    runGroups request table = (exactGroups request table).filter fun group =>
      nullFree request.columns group.1 := by
  have same (row : R) :
    (nullFree request.columns (groupKey request.columns row) && topRow request table row) =
      matched request table row := by
    rw [matched, Bool.and_comm, Bool.eq_iff_iff, Bool.and_eq_true, Bool.and_eq_true,
      nullFree_groupKey, decide_eq_true_eq]
  unfold runGroups exactGroups
  rw [if_neg (by rw [alone]; exact Bool.false_ne_true),
    if_neg (by rw [alone]; exact Bool.false_ne_true),
    ← Groups.collect_filter, filter_map, filter_filter]
  simp only [Function.comp_def, same]

theorem mem_exactGroups_alone (group : Group R) (member : group ∈ exactGroups request table) :
    (∃ row ∈ selectedRows request table, topRow request table row = true ∧
      groupKey request.columns row = group.1) ∧
      group.2.head?.map (groupKey request.columns) = some group.1 := by
  unfold exactGroups at member
  rw [if_neg (by rw [alone]; exact Bool.false_ne_true)] at member
  obtain ⟨⟨row, stored, same⟩, rows⟩ := (Groups.mem_collect_rows _ _ group.1 group.2).mp member
  obtain ⟨selected, top⟩ := mem_filter.mp stored
  refine ⟨⟨row, selected, top, same⟩, ?_⟩
  have inside : row ∈ group.2 := rows ▸ mem_filter.mpr ⟨stored, by simpa using same⟩
  cases shape : group.2 with
  | nil => simp [shape] at inside
  | cons first rest =>
    have kept : first ∈ group.2 := shape ▸ mem_cons_self
    rw [rows] at kept
    simpa using (mem_filter.mp kept).2

theorem exists_group_alone (row : R)
    (selected : row ∈ selectedRows request table) (top : topRow request table row = true) :
    ∃ group ∈ exactGroups request table, group.1 = groupKey request.columns row := by
  unfold exactGroups
  rw [if_neg (by rw [alone]; exact Bool.false_ne_true)]
  exact ⟨(groupKey request.columns row, _), (Groups.mem_collect_rows _ _ _ _).mpr
    ⟨⟨row, mem_filter.mpr ⟨selected, top⟩, rfl⟩, rfl⟩, rfl⟩

theorem nodup_exactGroups_alone : ((exactGroups request table).map Prod.fst).Nodup := by
  unfold exactGroups
  rw [if_neg (by rw [alone]; exact Bool.false_ne_true)]
  exact (Groups.collect_spec _).1

end

theorem exists_picked {α : Type} [DecidableEq α] (keys : List α) (distinct : keys.Nodup) (key : α)
    (member : key ∈ keys)
    (n : Nat) (more : n < keys.length) :
    ∃ picked : List α, key ∈ picked ∧ (keys.filter fun k => k ∈ picked).length = n + 1 := by
  refine ⟨key :: (keys.erase key).take n, mem_cons_self, ?_⟩
  have nodup : (key :: (keys.erase key).take n).Nodup := nodup_cons.mpr
    ⟨fun inside => (List.Nodup.not_mem_erase distinct) (mem_of_mem_take inside),
      (take_sublist _ _).nodup (distinct.erase key)⟩
  have perm : (keys.filter fun k => k ∈ key :: (keys.erase key).take n).Perm
      (key :: (keys.erase key).take n) := by
    refine (perm_ext_iff_of_nodup (distinct.filter _) nodup).mpr fun k => ?_
    rw [mem_filter, decide_eq_true_eq]
    refine and_iff_right_of_imp fun inside => ?_
    rcases mem_cons.mp inside with rfl | later
    · exact member
    · exact mem_of_mem_erase (mem_of_mem_take later)
  rw [perm.length_eq, length_cons, length_take, length_erase_of_mem member]
  omega

theorem runRows_alone_iff (alone : request.query.groupOthersWhenLimitReached = false) :
    (∀ having, runRows request table having = exactRows request table having) ↔
      NoNulls request table ∨ (exactGroups request table).length ≤ request.page.offset := by
  have rows (having : List R → Bool) : runRows request table having =
      (request.page.of
        (((exactGroups request table).filter fun group => nullFree request.columns group.1).filter
        fun group => having group.2)).map (selectRow request) := by
    unfold runRows
    rw [runGroups_alone request table alone]
    simp only [alone, Bool.false_eq_true, if_false]
  constructor
  · intro same
    by_contra neither
    obtain ⟨nulls, more⟩ := not_or.mp neither
    unfold NoNulls at nulls
    push Not at nulls
    obtain ⟨row, selected, top, incomplete⟩ := nulls
    obtain ⟨group, member, key⟩ := exists_group_alone request table alone row selected top
    -- a condition that picks just as many groups as lie before the page, and the lost one
    obtain ⟨picked, inside, size⟩ := exists_picked ((exactGroups request table).map Prod.fst)
      (nodup_exactGroups_alone request table alone) group.1
        (mem_map_of_mem member) request.page.offset
      (by rw [length_map]; omega)
    have picks : (exactGroups request table).filter
        (fun group => (group.2.head?.map (groupKey request.columns)).any (· ∈ picked)) =
          (exactGroups request table).filter fun group => group.1 ∈ picked :=
      filter_congr fun group member => by
        rw [(mem_exactGroups_alone request table alone group member).2, Option.any_some]
    have shown : ((exactGroups request table).filter fun group => group.1 ∈ picked).length =
        request.page.offset + 1 := by
      rw [← size, filter_map, length_map]
      exact congrArg List.length (filter_congr fun group _ => by simp)
    have lost : (((exactGroups request table).filter fun group => group.1 ∈ picked).filter
        fun group => nullFree request.columns group.1).length ≤ request.page.offset := by
      have fewer : (((exactGroups request table).filter fun group => group.1 ∈ picked).filter
          fun group => nullFree request.columns group.1).length <
            ((exactGroups request table).filter fun group => group.1 ∈ picked).length := by
        refine length_filter_lt_length_iff_exists.mpr
          ⟨group, mem_filter.mpr ⟨member, by simpa using inside⟩, ?_⟩
        rw [key, nullFree_groupKey]
        exact incomplete
      omega
    have equal := same fun rows => (rows.head?.map (groupKey request.columns)).any (· ∈ picked)
    rw [rows, filter_comm, picks, (of_eq_nil_iff _ _).mpr lost, exactRows, picks] at equal
    have none_ := (of_eq_nil_iff _ _).mp (map_eq_nil_iff.mp equal.symm)
    omega
  · intro fits having
    rw [rows, exactRows]
    rcases fits with whole | behind
    · have all : (exactGroups request table).filter
        (fun group => nullFree request.columns group.1) =
          exactGroups request table := filter_eq_self.mpr fun group member => by
        obtain ⟨⟨row, selected, top, key⟩, -⟩ :=
          mem_exactGroups_alone request table alone group member
        rw [← key, nullFree_groupKey]
        exact whole row selected top
      rw [all]
    · have empty (keep : Group R → Bool) (groups : List (Group R))
        (few : groups.length ≤ request.page.offset) :
          request.page.of (groups.filter keep) = [] :=
        (of_eq_nil_iff _ _).mpr (length_filter_le _ _ |>.trans few)
      rw [empty _ _ behind, empty _ _ ((length_filter_le _ _).trans behind)]

theorem runKey_eq (row : R)
    (complete : topRow request table row = true → Complete request.columns row) :
    runKey request table row = (identity request table row).2 := by
  unfold runKey identity matched
  cases top : topRow request table row with
  | false => rfl
  | true => rw [decide_eq_true (complete top)]; rfl

theorem runGroups_others (others : request.query.groupOthersWhenLimitReached = true)
    (noNulls : NoNulls request table) (names : NamesFree request table) :
    runGroups request table = exactGroups request table := by
  have keys : (selectedRows request table).map (fun row => (runKey request table row, row)) =
      ((selectedRows request table).map fun row => (identity request table row, row)).map
        (Prod.map Prod.snd id) := by
    rw [map_map]
    exact map_congr_left fun row member => by
      rw [runKey_eq request table row (noNulls row member)]
      rfl
  unfold runGroups exactGroups
  rw [if_pos others, if_pos others, keys]
  refine Groups.collect_map Prod.snd _ fun item member other member' same => ?_
  obtain ⟨row, stored, rfl⟩ := mem_map.mp member
  obtain ⟨second, stored', rfl⟩ := mem_map.mp member'
  unfold identity at same ⊢
  cases top : topRow request table row with
  | false =>
    cases top' : topRow request table second with
    | false => simpa [top, top'] using same
    | true =>
      rw [top, top', if_neg Bool.false_ne_true, if_pos rfl] at same
      exact absurd same.symm (names second stored' top' row stored top)
  | true =>
    cases top' : topRow request table second with
    | true => simpa [top, top'] using same
    | false =>
      rw [top, top', if_pos rfl, if_neg Bool.false_ne_true] at same
      exact absurd same (names row stored top second stored' top')

theorem identity_of_exact (others : request.query.groupOthersWhenLimitReached = true)
    (same : ∀ having, runRows request table having = exactRows request table having) (row : R)
    (selected : row ∈ selectedRows request table) :
    (identity request table row).2 = runKey request table row ∧
      ∀ other ∈ selectedRows request table, runKey request table other = runKey request table row →
        identity request table other = identity request table row := by
  classical
  have grouped : (runKey request table row,
      (selectedRows request table).filter fun other =>
        runKey request table other = runKey request table row) ∈
        runGroups request table := by
    unfold runGroups
    rw [if_pos others]
    exact (Groups.mem_collect_rows _ _ _ _).mpr ⟨⟨row, selected, rfl⟩, rfl⟩
  generalize rows_ :
    (selectedRows request table).filter
      (fun other => runKey request table other = runKey request table row) =
    rows at grouped
  have equal := same fun shown => decide (shown = rows)
  have shown : selectRow request (runKey request table row, rows) ∈
      exactRows request table fun shown => decide (shown = rows) := by
    rw [← equal, runRows]
    simp only [others, if_true]
    exact mem_map_of_mem (mem_filter.mpr ⟨grouped, by simp⟩)
  obtain ⟨group, member, columns⟩ := mem_map.mp shown
  obtain ⟨stored, content⟩ := mem_filter.mp (mem_of_page _ _ _ member)
  have content : group.2 = rows := of_decide_eq_true content
  unfold exactGroups at stored
  rw [if_pos others] at stored
  obtain ⟨keyed, collected, rfl⟩ := mem_map.mp stored
  obtain ⟨⟨first, -, key⟩, values⟩ := (Groups.mem_collect_rows _ _ keyed.1 keyed.2).mp collected
  have each (other : R) (inside : other ∈ rows) : identity request table other = keyed.1 := by
    rw [← content, values] at inside
    simpa using (mem_filter.mp inside).2
  have own : row ∈ rows := rows_ ▸ mem_filter.mpr ⟨selected, by simp⟩
  refine ⟨?_, fun other inside equal => ?_⟩
  · rw [each row own]
    exact congrArg Prod.fst columns
  · rw [each row own]
    exact each other (rows_ ▸ mem_filter.mpr ⟨inside, by simpa using equal⟩)

theorem eq_of_perm_of_map_eq {α β : Type} (f : α → β) (xs ys : List α) (perm : ys.Perm xs)
    (same : xs.map f = ys.map f) (distinct : (xs.map f).Nodup) : ys = xs := by
  refine ext_getElem perm.length_eq fun n left right => ?_
  refine inj_on_of_nodup_map distinct (perm.subset (getElem_mem left)) (getElem_mem right) ?_
  have value := congrArg (·[n]?) same
  simpa [left, right] using value.symm

theorem runRows_others_iff (others : request.query.groupOthersWhenLimitReached = true) :
    (∀ having, runRows request table having = exactRows request table having) ↔
      selectedRows request table = [] ∨
        (NoNulls request table ∧ NamesFree request table ∧ Unpaged request table) := by
  constructor
  · intro same
    refine or_iff_not_imp_left.mpr fun some_ => ?_
    have alike := identity_of_exact request table others same
    have noNulls : NoNulls request table := by
      intro row selected top
      by_contra incomplete
      have key := (alike row selected).1
      unfold identity runKey matched at key
      rw [top, if_pos rfl, decide_eq_false incomplete, Bool.and_false,
        if_neg Bool.false_ne_true] at key
      exact groupKey_ne_othersKey request.columns row row incomplete key
    have names : NamesFree request table := by
      intro row selected top other selected' rest clash
      have own := runKey_eq request table row (noNulls row selected)
      have its := runKey_eq request table other (noNulls other selected')
      have flags := (alike row selected).2 other selected' (by
        rw [own, its]
        simp [identity, top, rest, clash])
      simp [identity, top, rest] at flags
    refine ⟨noNulls, names, ?_⟩
    have groups := runGroups_others request table others noNulls names
    have distinct : ((exactGroups request table).map Prod.fst).Nodup := by
      rw [← groups, runGroups, if_pos others]
      exact (Groups.collect_spec _).1
    have nonempty : exactGroups request table ≠ [] := by
      obtain ⟨row, selected⟩ := exists_mem_of_ne_nil _ some_
      rw [← groups, runGroups, if_pos others]
      exact ne_nil_of_mem
        ((Groups.mem_collect_rows _ _ (runKey request table row) _).mpr ⟨⟨row, selected, rfl⟩, rfl⟩)
    have all := same fun _ => true
    unfold runRows exactRows at all
    simp only [others, if_true, filter_true, groups] at all
    have whole : (request.page.of (exactGroups request table)).length =
        (exactGroups request table).length := by
      simpa using (congrArg List.length all).symm
    obtain ⟨start, fits, sorted_⟩ :=
      of_of_length_eq request.page (exactGroups request table) nonempty whole
    refine ⟨start, fits, (sorted_eq_self_iff _ _).mp ?_⟩
    rw [sorted_] at all
    have columns := congrArg (List.map Prod.fst) all
    rw [map_map, map_map] at columns
    exact eq_of_perm_of_map_eq Prod.fst _ _ (sorted_perm _ _) columns distinct
  · intro fits having
    unfold runRows exactRows
    simp only [others, if_true]
    rcases fits with none_ | ⟨noNulls, names, start, few, ordered⟩
    · have nothing : runGroups request table = [] ∧ exactGroups request table = [] := by
        unfold runGroups exactGroups
        rw [if_pos others, if_pos others, none_]
        exact ⟨rfl, rfl⟩
      rw [nothing.1, nothing.2, (of_eq_nil_iff _ _).mpr (Nat.zero_le _)]
      rfl
    · rw [runGroups_others request table others noNulls names,
        of_eq_self request.page _ (ordered.filter _) start]
      exact few.imp_right (length_filter_le _ _).trans

/-- The condition on the engine, the table and the request. -/
def ExactWhen : Prop :=
  (request.dataset.engine.allowsJoins = true ∧ request.dataset.engine.allowsSubqueries = true) ∧
    if request.query.groupOthersWhenLimitReached then
      selectedRows request table = [] ∨
      (NoNulls request table ∧ NamesFree request table ∧ Unpaged request table)
    else NoNulls request table ∨ (exactGroups request table).length ≤ request.page.offset

theorem exact_iff (noTies : NoTies request table) : Exact request table ↔
    ExactWhen request table := by
  have engine : (request.dataset.engine.allowsJoins = true ∧
    request.dataset.engine.allowsSubqueries = true) ↔
      joinsSeries request.dataset request.query = true := by
    rw [joinsSeries, request.limited, Bool.true_and, Bool.and_eq_true]
  unfold Exact ExactWhen
  rw [engine]
  cases joins : joinsSeries request.dataset request.query with
  | false =>
    refine iff_of_false (fun exact_ => ?_) fun condition => Bool.false_ne_true condition.1
    have answer := exact_ fun _ => true
    rw [run_without_joins request table _ joins] at answer
    cases answer
  | true =>
    have rows (having : List R → Bool) :
      run request having table = .ok (exactRows request table having) ↔
        runRows request table having = exactRows request table having := by
      rw [run_eq request table noTies having joins, Except.ok.injEq]
    rw [forall_congr' rows, and_iff_right rfl]
    cases others : request.query.groupOthersWhenLimitReached with
    | false => exact runRows_alone_iff request table others
    | true => exact runRows_others_iff request table others

end Meaning

abbrev Sale := Cell × Nat

def sales (joins others : Bool) (page : Page (Group Sale) Nat) : Request Sale Nat where
  dataset :=
    { engine :=
        { allowsJoins := joins
          dttmSqlLiteral := fun _ _ => ""
          timestampExpression := fun column _ => column.sqlaCol }
      columns := [] }
  settings := { sinceUntil := fun _ => (none, none), processSelectExpression := fun _ => .ok () }
  query := { limitsSeries := true, groupOthersWhenLimitReached := others }
  conditions :=
    { granularity := none
      dttmCol := none
      fetchPredicate := none
      timeFilters := []
      filters := []
      extrasWhere := none }
  rls := []
  valuation := fun _ => ⟨fun _ => none, fun _ _ => none⟩
  columns := [⟨true, Prod.fst⟩]
  metricsByName := []
  metrics := [fun rows => (rows.map Prod.snd).sum]
  countAll := List.length
  seriesLimitMetric := none
  orderDesc := true
  seriesLimit := 1
  page := page
  seriesMetric := fun rows => (rows.map Prod.snd).sum
  built := rfl
  found := rfl
  limits := rfl
  limited := rfl

theorem sales_exact : Exact (sales true false {}) [(some "a", 3), (some "b", 5), (some "a", 4)] :=
  (exact_iff (sales true false {}) [(some "a", 3), (some "b", 5), (some "a", 4)]
    (by unfold NoTies; decide)).mpr
    ⟨⟨rfl, rfl⟩, Or.inl (by unfold NoNulls; decide)⟩

/-- The best product is unknown; an engine does not join; the best comes last with the others. -/
theorem sales_not_exact :
    ¬Exact (sales true false {}) [(none, 5), (some "a", 3)] ∧
      ¬Exact (sales false false {}) [(some "a", 3)] ∧
      ¬Exact (sales true true { orderBy := [(fun group => (group.2.map Prod.snd).sum, false)] })
        [(some "a", 3), (some "b", 5)] := by
  refine ⟨fun exact_ => ?_, fun exact_ => ?_, fun exact_ => ?_⟩
  · have equal := Except.ok.inj ((rfl : Except.ok [] = run _ _ _).trans (exact_ fun _ => true))
    exact absurd equal (by decide)
  · have equal := exact_ fun _ => true
    cases equal
  · have equal :=
      Except.ok.inj ((rfl : Except.ok [([some "Others"], [3]), ([some "b"], [5])] = run _ _ _).trans
      (exact_ fun _ => true))
    exact absurd equal (by decide)

end Liteset.Sql.Chart.Series
