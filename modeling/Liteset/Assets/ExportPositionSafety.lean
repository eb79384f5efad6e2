import Liteset.Assets.ExportPosition

/-!
# When an exported dashboard shows every chart

A new row below the grid, with new charts in it, keeps the tree.  What is in the way are a root
without a grid, charts that are placed more than once or without their uuid, and drawn keys that
are taken.
-/

set_option autoImplicit false

namespace Liteset.Assets

open Lib Dashboard List
open Lib.Forest (Under SingleParent)
open Lib.Paths (Path EdgeList)

section Components
variable {position : Position} {key : String}

theorem mem_children_iff {child : String} :
    child ∈ children position key ↔ ∃ c, componentAt position key c ∧ child ∈ c.children := by
  unfold children componentAt
  cases position.get key with
  | none => simp
  | some entry => cases entry <;> simp

theorem children_eq {c : Component} (isAt : componentAt position key c) :
    children position key = c.children := by
  unfold children
  rw [isAt]

theorem componentAt_unique {c d : Component} (first : componentAt position key c)
    (second : componentAt position key d) :
    c = d := Entry.component.inj (Option.some.inj (first.symm.trans second))

theorem chart_of_mem {uuid : String} {id : Option Int} (member : (uuid, id) ∈ charts position) :
    ∃ key c, componentAt position key c ∧ c.type = .chart ∧ c.details.uuid = some uuid ∧
    c.details.chartId = id := by
  obtain ⟨entry, value, isChart⟩ := mem_filterMap.mp member
  obtain ⟨⟨key, entry'⟩, inMap, same⟩ := mem_map.mp value
  subst same
  cases entry' with
  | text _ => cases isChart
  | component c =>
    unfold Entry.chart at isChart
    dsimp only at isChart
    split at isChart
    · next chart =>
      obtain ⟨u, hasUuid, same⟩ := Option.map_eq_some_iff.mp isChart
      cases same
      exact ⟨key, c, JsMap.get_eq_some_iff.mpr inMap, chart, hasUuid, rfl⟩
    · cases isChart

theorem mem_charts_of {c : Component} {uuid : String} (isAt : componentAt position key c)
    (chart : c.type = .chart)
    (hasUuid : c.details.uuid = some uuid) : (uuid, c.details.chartId) ∈ charts position := by
  refine mem_filterMap.mpr ⟨.component c, mem_map_of_mem (JsMap.get_eq_some_iff.mp isAt), ?_⟩
  show (if c.type = .chart then _ else _) = _
  rw [if_pos chart, hasUuid]
  rfl

end Components

theorem ne_of_getElem {a b : String} (i : Nat) (differs : a.toList[i]? ≠ b.toList[i]?) : a ≠ b :=
  fun same => differs (by rw [same])

theorem chartHash_ne_row (a b : String) : chartHash a ≠ rowHash b :=
  ne_of_getElem 0 (by simp [chartHash, rowHash])

variable (a : String)

theorem chartHash_ne_grid : chartHash a ≠ dashboardGridId :=
  ne_of_getElem 0 (by simp [chartHash, dashboardGridId])

theorem chartHash_ne_root : chartHash a ≠ dashboardRootId :=
  ne_of_getElem 0 (by simp [chartHash, dashboardRootId])

theorem rowHash_ne_grid : rowHash a ≠ dashboardGridId :=
  ne_of_getElem 0 (by simp [rowHash, dashboardGridId])

theorem rowHash_ne_root : rowHash a ≠ dashboardRootId :=
  ne_of_getElem 3 (by simp [rowHash, dashboardRootId])

section Placed
variable {charts : List (String × Slice)} {row : Option String} {position : Position} {key : String}

theorem get_placeCharts : (placeCharts row charts position).get key =
    (JsMap.last key
      (charts.map fun chart => (chart.1, Entry.component (chartComponent chart.1 row chart.2)))).or
      (position.get key) := by
  rw [← JsMap.get_foldl_set, foldl_map]
  rfl

theorem placed_cases {c : Component} (isAt : componentAt (placeCharts row charts position) key c) :
    (∃ chart, (key, chart) ∈ charts ∧ c = chartComponent key row chart) ∨
      key ∉ charts.map Prod.fst ∧ componentAt position key c := by
  unfold componentAt at isAt
  rw [get_placeCharts, Option.or_eq_some_iff] at isAt
  rcases isAt with placed | ⟨absent, before⟩
  · obtain ⟨⟨hash, chart⟩, member, same⟩ := mem_map.mp (JsMap.mem_of_last placed)
    cases same
    exact .inl ⟨chart, member, rfl⟩
  · refine .inr ⟨fun member => JsMap.last_eq_none_iff.mp absent ?_, before⟩
    rw [map_map]
    exact member

theorem placed_other (other : key ∉ charts.map Prod.fst) :
    (placeCharts row charts position).get key = position.get key := by
  rw [get_placeCharts, JsMap.last_eq_none_iff.mpr (by rw [map_map]; exact other)]
  rfl

theorem placed_chart (distinct : (charts.map Prod.fst).Nodup) {chart : Slice}
    (member : (key, chart) ∈ charts) :
    componentAt (placeCharts row charts position) key (chartComponent key row chart) := by
  have entries : (key, Entry.component (chartComponent key row chart)) ∈
      charts.map fun chart => (chart.1, Entry.component (chartComponent chart.1 row chart.2)) :=
    mem_map.mpr ⟨_, member, rfl⟩
  unfold componentAt
  rw [get_placeCharts, JsMap.last_eq_some (by rw [map_map]; exact distinct) entries]
  rfl

end Placed

structure Placement (before : Position) (charts : List (String × Slice)) (row : String)
    (grid : Component) : Prop where
  wellFormed : WellFormed before
  gridAt : componentAt before dashboardGridId grid
  room : Room before (charts.map Prod.fst) row
  chartKeys : ∀ hash ∈ charts.map Prod.fst, hash ≠ row ∧ hash ≠ dashboardGridId ∧
    hash ≠ dashboardRootId
  rowKey : row ≠ dashboardGridId ∧ row ≠ dashboardRootId

def grown (before : Position) (charts : List (String × Slice)) (row : String) (grid : Component) :
    Position :=
  placeCharts (some row) charts
    ((before.set dashboardGridId (.component { grid with children := grid.children ++ [row] })).set
      row
      (.component (rowComponent row (charts.map Prod.fst))))

section Grown
variable {before : Position} {charts : List (String × Slice)} {row : String} {grid : Component}
    {key : String}

theorem grown_row (placement : Placement before charts row grid) :
    componentAt (grown before charts row grid) row (rowComponent row (charts.map Prod.fst)) := by
  unfold componentAt grown
  rw [placed_other fun member => (placement.chartKeys row member).1 rfl, JsMap.get_set_self]

theorem grown_grid (placement : Placement before charts row grid) :
    componentAt (grown before charts row grid) dashboardGridId
      { grid with children := grid.children ++ [row] } := by
  unfold componentAt grown
  rw [placed_other fun member => (placement.chartKeys _ member).2.1 rfl, JsMap.get_set,
    if_neg placement.rowKey.1.symm, JsMap.get_set_self]

theorem grown_other (other : key ∉ charts.map Prod.fst) (notRow : key ≠ row)
    (notGrid : key ≠ dashboardGridId) :
    (grown before charts row grid).get key = before.get key := by
  unfold grown
  rw [placed_other other, JsMap.get_set, if_neg notRow, JsMap.get_set, if_neg notGrid]

theorem grown_cases {c : Component} (isAt : componentAt (grown before charts row grid) key c) :
    (∃ chart, (key, chart) ∈ charts ∧ c = chartComponent key (some row) chart) ∨
      key ∉ charts.map Prod.fst ∧
        (key = row ∧ c = rowComponent row (charts.map Prod.fst) ∨
          key = dashboardGridId ∧ c = { grid with children := grid.children ++ [row] } ∨
          key ≠ row ∧ key ≠ dashboardGridId ∧ componentAt before key c) := by
  rcases placed_cases isAt with placed | ⟨other, before'⟩
  · exact .inl placed
  · refine .inr ⟨other, ?_⟩
    unfold componentAt at before'
    rw [JsMap.get_set, JsMap.get_set] at before'
    split at before'
    · next isRow =>
      cases before'
      exact .inl ⟨isRow, rfl⟩
    · next notRow =>
      split at before'
      · next isGrid =>
        cases before'
        exact .inr (.inl ⟨isGrid, rfl⟩)
      · next notGrid => exact .inr (.inr ⟨notRow, notGrid, before'⟩)

section
variable (placement : Placement before charts row grid)
include placement

theorem Placement.old {c : Component} (isAt : componentAt before key c) :
    key ∉ charts.map Prod.fst ∧ key ≠ row :=
  ⟨fun member => placement.room.freshCharts key member c isAt,
    fun isRow => placement.room.freshRow c (isRow ▸ isAt)⟩

theorem grown_child_iff {parent child : String} :
    Child (grown before charts row grid) parent child ↔
      Child before parent child ∨ parent = dashboardGridId ∧ child = row ∨
        parent = row ∧ child ∈ charts.map Prod.fst := by
  constructor
  · intro edge
    obtain ⟨c, isAt, listed⟩ := mem_children_iff.mp edge
    rcases grown_cases isAt with ⟨chart, _, rfl⟩ | ⟨_, ⟨rfl, rfl⟩ | ⟨rfl, rfl⟩ | ⟨_, _, isBefore⟩⟩
    · exact absurd listed not_mem_nil
    · exact .inr (.inr ⟨rfl, listed⟩)
    · rcases mem_append.mp listed with old | new
      · exact .inl (mem_children_iff.mpr ⟨grid, placement.gridAt, old⟩)
      · exact .inr (.inl ⟨rfl, mem_singleton.mp new⟩)
    · exact .inl (mem_children_iff.mpr ⟨c, isBefore, listed⟩)
  · rintro (old | ⟨rfl, rfl⟩ | ⟨rfl, listed⟩)
    · obtain ⟨c, isAt, listed⟩ := mem_children_iff.mp old
      obtain ⟨notChart, notRow⟩ := placement.old isAt
      by_cases isGrid : parent = dashboardGridId
      · subst isGrid
        rw [componentAt_unique isAt placement.gridAt] at listed
        exact mem_children_iff.mpr ⟨_, grown_grid placement, mem_append_left _ listed⟩
      · exact mem_children_iff.mpr ⟨c, (grown_other notChart notRow isGrid).trans isAt, listed⟩
    · exact mem_children_iff.mpr ⟨_, grown_grid placement, mem_append_right _ mem_cons_self⟩
    · exact mem_children_iff.mpr ⟨_, grown_row placement, listed⟩

theorem grown_kept : Kept before (grown before charts row grid) := by
  intro key c isAt
  obtain ⟨notChart, notRow⟩ := placement.old isAt
  by_cases isGrid : key = dashboardGridId
  · subst isGrid
    refine ⟨[row], ?_⟩
    rw [componentAt_unique isAt placement.gridAt]
    exact grown_grid placement
  · refine ⟨[], ?_⟩
    rw [append_nil]
    exact (grown_other notChart notRow isGrid).trans isAt

theorem Placement.parentless {parent child : String}
    (isNew : child = row ∨ child ∈ charts.map Prod.fst) : ¬ Child before parent child := by
  intro edge
  obtain ⟨c, isAt⟩ := placement.wellFormed.listed parent child edge
  obtain ⟨notChart, notRow⟩ := placement.old isAt
  exact isNew.elim notRow notChart

theorem grown_single : SingleParent (Child (grown before charts row grid)) := by
  intro p q child first second
  rcases (grown_child_iff placement).mp first with old | ⟨rfl, isRow⟩ | ⟨rfl, isChart⟩
  · rcases (grown_child_iff placement).mp second with old' | ⟨_, isRow⟩ | ⟨_, isChart⟩
    · exact placement.wellFormed.single p q child old old'
    · exact absurd old (placement.parentless (.inl isRow))
    · exact absurd old (placement.parentless (.inr isChart))
  · rcases (grown_child_iff placement).mp second with old' | ⟨rfl, _⟩ | ⟨_, isChart⟩
    · exact absurd old' (placement.parentless (.inl isRow))
    · rfl
    · exact absurd isRow (placement.chartKeys child isChart).1
  · rcases (grown_child_iff placement).mp second with old' | ⟨_, isRow⟩ | ⟨rfl, _⟩
    · exact absurd old' (placement.parentless (.inr isChart))
    · exact absurd isRow (placement.chartKeys child isChart).1
    · rfl

theorem grown_top (parent : String) :
    ¬ Child (grown before charts row grid) parent dashboardRootId := by
  intro edge
  rcases (grown_child_iff placement).mp edge with old | ⟨_, isRow⟩ | ⟨_, isChart⟩
  · exact placement.wellFormed.top parent old
  · exact placement.rowKey.2 isRow.symm
  · exact (placement.chartKeys _ isChart).2.2 rfl

theorem path_before {above : List String}
    (path : Path (Child (grown before charts row grid)) dashboardRootId above key)
    (old : key ≠ row ∧ key ∉ charts.map Prod.fst) :
    Path (Child before) dashboardRootId above key := by
  induction path with
  | root => exact .root
  | step _ last ih =>
    rcases (grown_child_iff placement).mp last with edge | ⟨_, isRow⟩ | ⟨_, isChart⟩
    · obtain ⟨c, isAt, _⟩ := mem_children_iff.mp edge
      exact (ih (placement.old isAt).symm).step edge
    · exact absurd isRow old.1
    · exact absurd isChart old.2

theorem rootPath_grid :
    Path (Child (grown before charts row grid)) dashboardRootId [dashboardRootId] dashboardGridId :=
  Path.root.step ((grown_child_iff placement).mpr (.inl placement.room.grid))

theorem rootPath_row :
    Path (Child (grown before charts row grid)) dashboardRootId [dashboardRootId,
      dashboardGridId] row :=
  (rootPath_grid placement).step ((grown_child_iff placement).mpr (.inr (.inl ⟨rfl, rfl⟩)))

theorem rootPath_chart (isChart : key ∈ charts.map Prod.fst) :
    Path (Child (grown before charts row grid)) dashboardRootId [dashboardRootId, dashboardGridId,
      row] key :=
  (rootPath_row placement).step ((grown_child_iff placement).mpr (.inr (.inr ⟨rfl, isChart⟩)))

theorem wellFormed_grown : WellFormed (grown before charts row grid) := by
  have rootKept : (grown before charts row grid).get dashboardRootId = before.get dashboardRootId :=
    grown_other (fun isChart => (placement.chartKeys _ isChart).2.2 rfl) placement.rowKey.2.symm
      (by decide)
  have wasReached {key : String} (reached : Under (Child before) dashboardRootId key) :
      Under (Child (grown before charts row grid)) dashboardRootId key :=
    Forest.under_mono (fun _ _ edge => (grown_child_iff placement).mpr (.inl edge)) reached
  have unique {key : String} {above below : List String}
      (first : Path (Child (grown before charts row grid)) dashboardRootId above key)
      (second : Path (Child (grown before charts row grid)) dashboardRootId below key) :
      above = below :=
    first.unique (grown_single placement) (grown_top placement) second
  refine ⟨?_, ?_, ?_, ?_, ?_, grown_single placement, grown_top placement, ?_, ?_⟩
  · intro key c isAt
    rcases grown_cases isAt with ⟨chart, _, rfl⟩ | ⟨_, ⟨rfl, rfl⟩ | ⟨rfl, rfl⟩ | ⟨_, _, isBefore⟩⟩
    · rfl
    · rfl
    · exact placement.wellFormed.keyed _ grid placement.gridAt
    · exact placement.wellFormed.keyed key c isBefore
  · obtain ⟨c, isAt, isRoot⟩ := placement.wellFormed.root
    exact ⟨c, rootKept.trans isAt, isRoot⟩
  · obtain ⟨child, only, _⟩ := placement.wellFormed.rootChild
    have isGrid := placement.room.grid
    rw [Child, only] at isGrid
    refine ⟨child, ?_, .inl (mem_singleton.mp isGrid).symm⟩
    rw [children, rootKept, ← only]
    rfl
  · intro parent child edge
    rcases (grown_child_iff placement).mp edge with old | ⟨_, rfl⟩ | ⟨_, isChart⟩
    · obtain ⟨c, isAt⟩ := placement.wellFormed.listed parent child old
      obtain ⟨added, kept⟩ := grown_kept placement child c isAt
      exact ⟨_, kept⟩
    · exact ⟨_, grown_row placement⟩
    · obtain ⟨⟨_, chart⟩, member, rfl⟩ := mem_map.mp isChart
      exact ⟨_, placed_chart placement.room.distinctCharts member⟩
  · intro parent
    cases found : children (grown before charts row grid) parent with
    | nil => exact nodup_nil
    | cons child rest =>
      have edge : Child (grown before charts row grid) parent child := by
        rw [Child, found]
        exact mem_cons_self
      obtain ⟨c, isAt, _⟩ := mem_children_iff.mp edge
      rw [← found, children_eq isAt]
      rcases grown_cases isAt with ⟨chart, _, rfl⟩ | ⟨_, ⟨rfl, rfl⟩ | ⟨rfl, rfl⟩ | ⟨_, _, isBefore⟩⟩
      · exact nodup_nil
      · exact placement.room.distinctCharts
      · have distinct := placement.wellFormed.distinct dashboardGridId
        rw [children_eq placement.gridAt] at distinct
        refine nodup_append.mpr ⟨distinct, nodup_singleton row, ?_⟩
        intro child listed other isRow same
        have edge := mem_children_iff.mpr ⟨grid, placement.gridAt, listed⟩
        exact placement.parentless (.inl (same.trans (mem_singleton.mp isRow))) edge
      · rw [← children_eq isBefore]
        exact placement.wellFormed.distinct parent
  · intro key c isAt notHeader notGrid
    rcases grown_cases isAt with ⟨chart, member, rfl⟩ |
      ⟨_, ⟨rfl, rfl⟩ | ⟨rfl, rfl⟩ | ⟨_, _, isBefore⟩⟩
    · exact (rootPath_chart placement (mem_map.mpr ⟨_, member, rfl⟩)).under
    · exact (rootPath_row placement).under
    · exact (rootPath_grid placement).under
    · exact wasReached (placement.wellFormed.reachable key c isBefore notHeader notGrid)
  · intro key c above isAt path notRoot
    rcases grown_cases isAt with ⟨chart, member, rfl⟩ |
      ⟨notChart, ⟨rfl, rfl⟩ | ⟨rfl, rfl⟩ | ⟨notRow, _, isBefore⟩⟩
    · rw [unique path (rootPath_chart placement (mem_map.mpr ⟨_, member, rfl⟩))]
      rfl
    · rw [unique path (rootPath_row placement)]
      rfl
    · exact placement.wellFormed.parents _ grid above placement.gridAt
        (path_before placement path ⟨placement.rowKey.1.symm, notChart⟩) notRoot
    · exact placement.wellFormed.parents key c above isBefore
        (path_before placement path ⟨notRow, notChart⟩) notRoot

end

end Grown

section Export
variable {dashboard : ExportedDashboard} {draw : Draw} {after mid : Position} {row : Option String}
  {chart : Slice}

theorem mem_orphanCharts :
    chart ∈ dashboard.orphanCharts ↔ chart ∈ dashboard.slices ∧
      ∀ key c, componentAt dashboard.base key c → c.type = .chart →
      c.details.uuid ≠ some chart.uuid := by
  rw [ExportedDashboard.orphanCharts, mem_filter, all_eq_true]
  constructor
  · rintro ⟨member, each⟩
    refine ⟨member, fun key c isAt isChart hasUuid => ?_⟩
    exact of_decide_eq_true (each _ (mem_charts_of isAt isChart hasUuid)) rfl
  · rintro ⟨member, each⟩
    refine ⟨member, fun placed isPlaced => decide_eq_true fun same => ?_⟩
    obtain ⟨key, c, isAt, isChart, hasUuid, _⟩ := chart_of_mem isPlaced
    exact each key c isAt isChart (hasUuid.trans (congrArg some same))

theorem orphans_eq {uuids : List String} (found : findChartUuids dashboard.base = .ok uuids) :
    orphans dashboard.slices uuids = dashboard.orphanCharts := by
  obtain ⟨ids, built, _⟩ := Fallible.ok_of_map found
  obtain ⟨identified, _⟩ := buildUuidToIdMap_ok_iff.mp built
  apply filter_congr
  intro chart _
  apply Bool.eq_iff_iff.mpr
  rw [decide_eq_true_iff, all_eq_true, uuid_found_iff found]
  constructor
  · intro absent placed isPlaced
    obtain ⟨id, hasId⟩ := Option.isSome_iff_exists.mp (identified placed isPlaced)
    exact decide_eq_true fun same => absent ⟨id, same ▸ hasId ▸ isPlaced⟩
  · rintro each ⟨id, isPlaced⟩
    exact of_decide_eq_true (each _ isPlaced) rfl

theorem exportPosition_ok_iff :
    exportPosition dashboard draw = .ok after ↔ Identified dashboard.base ∧
      if dashboard.orphanCharts.isEmpty then after = dashboard.base
      else appendCharts dashboard.base (draw.hashed dashboard.orphanCharts) (rowHash draw.row) =
        .ok after := by
  have rest {uuids : List String} (found : findChartUuids dashboard.base = .ok uuids) :
      (if (orphans dashboard.slices uuids).isEmpty then return dashboard.base
        else appendCharts dashboard.base (draw.hashed (orphans dashboard.slices uuids))
          (rowHash draw.row)) =
          (.ok after : Except AssetError Position) ↔
        if dashboard.orphanCharts.isEmpty then after = dashboard.base
        else appendCharts dashboard.base (draw.hashed dashboard.orphanCharts) (rowHash draw.row) =
          .ok after := by
    rw [orphans_eq found]
    split
    · exact ⟨fun done => (Except.ok.inj done).symm, fun same => congrArg Except.ok same.symm⟩
    · exact Iff.rfl
  rw [exportPosition, Fallible.bind_eq_ok_iff]
  constructor
  · rintro ⟨uuids, found, continues⟩
    obtain ⟨ids, built, _⟩ := Fallible.ok_of_map found
    exact ⟨(buildUuidToIdMap_ok_iff.mp built).1, (rest found).mp continues⟩
  · rintro ⟨identified, result⟩
    have built := buildUuidToIdMap_ok_iff.mpr ⟨identified, rfl⟩
    have found : findChartUuids dashboard.base = .ok _ := Fallible.map_eq_ok_iff.mpr ⟨_, built, rfl⟩
    exact ⟨_, found, (rest found).mpr result⟩

variable {hash : String}

theorem mem_hashed_snd (member : (hash, chart) ∈ draw.hashed dashboard.orphanCharts) :
    chart ∈ dashboard.orphanCharts := by
  obtain ⟨⟨suffix, c⟩, drawn, same⟩ := mem_map.mp member
  cases same
  exact (draw.perm _).mem_iff.mp (mem_map.mpr ⟨_, drawn, rfl⟩)

theorem exists_hashed (draw : Draw) (orphan : chart ∈ dashboard.orphanCharts) :
    ∃ hash, (hash, chart) ∈ draw.hashed dashboard.orphanCharts := by
  obtain ⟨⟨suffix, c⟩, drawn, same⟩ := mem_map.mp ((draw.perm _).mem_iff.mpr orphan)
  cases same
  exact ⟨_, mem_map.mpr ⟨_, drawn, rfl⟩⟩

theorem nodup_hashed_snd : ((draw.hashed dashboard.orphanCharts).map Prod.snd).Nodup := by
  have drawn : ((draw.order dashboard.orphanCharts).map Prod.snd).Nodup :=
    (draw.perm _).nodup_iff.mpr ((List.Nodup.of_map _ dashboard.distinctIds).filter _)
  rw [Draw.hashed, map_map]
  exact drawn

theorem hash_unique {first second : String}
    (isFirst : (first, chart) ∈ draw.hashed dashboard.orphanCharts)
    (isSecond : (second, chart) ∈ draw.hashed dashboard.orphanCharts) : first = second :=
  (Prod.mk.inj (inj_on_of_nodup_map nodup_hashed_snd isFirst isSecond rfl)).1

theorem hash_keys (isHash : hash ∈ (draw.hashed dashboard.orphanCharts).map Prod.fst) :
    hash ≠ rowHash draw.row ∧ hash ≠ dashboardGridId ∧ hash ≠ dashboardRootId := by
  obtain ⟨⟨_, chart⟩, member, rfl⟩ := mem_map.mp isHash
  obtain ⟨⟨suffix, c⟩, _, same⟩ := mem_map.mp member
  cases same
  exact ⟨chartHash_ne_row _ _, chartHash_ne_grid _, chartHash_ne_root _⟩

theorem slice_unique {first second : Slice} (isFirst : first ∈ dashboard.slices)
    (isSecond : second ∈ dashboard.slices)
    (same : first.uuid = second.uuid ∨ first.id = second.id) : first = second := by
  rcases same with sameUuid | sameId
  · exact inj_on_of_nodup_map dashboard.distinctUuids isFirst isSecond sameUuid
  · exact inj_on_of_nodup_map dashboard.distinctIds isFirst isSecond sameId

theorem orphan_of_names {row : Option String} {chart placed : Slice}
    (member : chart ∈ dashboard.slices)
    (isPlaced : (hash, placed) ∈ draw.hashed dashboard.orphanCharts)
    (names : Names (chartComponent hash row placed) chart) : placed = chart := by
  apply slice_unique (mem_orphanCharts.mp (mem_hashed_snd isPlaced)).1 member
  exact names.2.imp (fun sameUuid => Option.some.inj sameUuid) fun sameId => Option.some.inj sameId

theorem kept_refl (position : Position) : Kept position position := by
  intro key c isAt
  refine ⟨[], ?_⟩
  rw [append_nil]
  exact isAt

theorem shown_placed {key : String} {c : Component} (wellFormed : WellFormed after)
    (isAt : componentAt after key c) (isChart : c.type = .chart)
    (hasUuid : c.details.uuid = some chart.uuid)
    (once : ∀ other c', componentAt after other c' → Names c' chart → other = key) :
    Shown after chart := by
  have reached :=
    wellFormed.reachable key c isAt (by rw [isChart]; decide) (by rw [isChart]; decide)
  obtain ⟨above, path⟩ := Paths.exists_path reached
  have notRoot : key ≠ dashboardRootId := by
    intro isRoot
    obtain ⟨root, rootAt, rootType⟩ := wellFormed.root
    rw [← isRoot] at rootAt
    rw [componentAt_unique isAt rootAt, rootType] at isChart
    cases isChart
  exact ⟨key, c, above, isAt, isChart, hasUuid, path,
    wellFormed.parents key c above isAt path notRoot, once⟩

variable {grid : Component}

theorem shown_grown (exportable : Exportable dashboard draw)
    (placement : Placement dashboard.base (draw.hashed dashboard.orphanCharts)
      (rowHash draw.row) grid)
    (member : chart ∈ dashboard.slices) :
    Shown (grown dashboard.base (draw.hashed dashboard.orphanCharts) (rowHash draw.row) grid)
      chart := by
  have once := exportable.once chart member
  -- an old component that names the chart is also one of the stored position
  have origin {key : String} {c : Component}
      (isAt : componentAt
        (grown dashboard.base (draw.hashed dashboard.orphanCharts) (rowHash draw.row) grid) key c)
      (names : Names c chart) :
      (key, chart) ∈ draw.hashed dashboard.orphanCharts ∨
        ∃ d, componentAt dashboard.base key d ∧ Names d chart := by
    rcases grown_cases isAt with ⟨placed, isPlaced, rfl⟩ |
      ⟨_, ⟨_, rfl⟩ | ⟨rfl, rfl⟩ | ⟨_, _, isBefore⟩⟩
    · rw [orphan_of_names member isPlaced names] at isPlaced
      exact .inl isPlaced
    · cases names.1
    · exact .inr ⟨grid, placement.gridAt, names⟩
    · exact .inr ⟨c, isBefore, names⟩
  by_cases orphan : chart ∈ dashboard.orphanCharts
  · obtain ⟨hash, isHashed⟩ := exists_hashed draw orphan
    have isHash : hash ∈ (draw.hashed dashboard.orphanCharts).map Prod.fst :=
      mem_map.mpr ⟨_, isHashed, rfl⟩
    refine ⟨hash, _, _, placed_chart placement.room.distinctCharts isHashed, rfl, rfl,
      rootPath_chart placement isHash, rfl, ?_⟩
    intro other c isAt names
    rcases origin isAt names with isOther | ⟨d, isBefore, namesBefore⟩
    · exact hash_unique isOther isHashed
    · exact absurd (once other d isBefore namesBefore).1
        ((mem_orphanCharts.mp orphan).2 other d isBefore namesBefore.1)
  · have isPlaced : ∃ key c, componentAt dashboard.base key c ∧ c.type = .chart ∧
        c.details.uuid = some chart.uuid := by
      by_contra none
      exact orphan (mem_orphanCharts.mpr ⟨member, fun key c isAt isChart hasUuid =>
        none ⟨key, c, isAt, isChart, hasUuid⟩⟩)
    obtain ⟨key, c, isAt, isChart, hasUuid⟩ := isPlaced
    obtain ⟨added, kept⟩ := grown_kept placement key c isAt
    refine shown_placed (wellFormed_grown placement) kept isChart hasUuid ?_
    intro other c' isAt' names
    rcases origin isAt' names with isOther | ⟨d, isBefore, namesBefore⟩
    · exact absurd (mem_hashed_snd isOther) orphan
    · exact (once key c isAt ⟨isChart, .inl hasUuid⟩).2 other d isBefore namesBefore

def OldCharts (base mid : Position) : Prop :=
  ∀ key c, componentAt mid key c → c.type = .chart → ∃ d, componentAt base key d ∧ d.type = .chart ∧
    d.details = c.details

theorem placed_of_shown (old : OldCharts dashboard.base mid)
    (shown : Shown (placeCharts row (draw.hashed dashboard.orphanCharts) mid) chart)
    (isHashed : (hash, chart) ∈ draw.hashed dashboard.orphanCharts) :
    ∃ above, componentAt (placeCharts row (draw.hashed dashboard.orphanCharts) mid) hash
      (chartComponent hash row chart) ∧
      (chartComponent hash row chart).parents = some above := by
  have orphan := mem_hashed_snd isHashed
  obtain ⟨key, c, above, isAt, isChart, hasUuid, _, parents, _⟩ := shown
  rcases placed_cases isAt with ⟨placed, isPlaced, rfl⟩ | ⟨_, isMid⟩
  · have same : placed = chart :=
      orphan_of_names (mem_orphanCharts.mp orphan).1 isPlaced ⟨rfl, .inl hasUuid⟩
    subst same
    rw [hash_unique isHashed isPlaced]
    exact ⟨above, isAt, parents⟩
  · obtain ⟨d, isBefore, chartBefore, details⟩ := old key c isMid isChart
    exact absurd (details ▸ hasUuid) ((mem_orphanCharts.mp orphan).2 key d isBefore chartBefore)

theorem freshCharts_of_kept
    (kept : Kept dashboard.base (placeCharts row (draw.hashed dashboard.orphanCharts) mid))
    (isHash : hash ∈ (draw.hashed dashboard.orphanCharts).map Prod.fst) (c : Component) :
    ¬ componentAt dashboard.base hash c := by
  intro isBefore
  obtain ⟨added, isAt⟩ := kept hash c isBefore
  rcases placed_cases isAt with ⟨placed, isPlaced, same⟩ | ⟨notHash, _⟩
  · have isChart : c.type = .chart := congrArg Component.type same
    have hasUuid : c.details.uuid = some placed.uuid :=
      congrArg (fun c : Component => c.details.uuid) same
    exact (mem_orphanCharts.mp (mem_hashed_snd isPlaced)).2 hash c isBefore isChart hasUuid
  · exact notHash isHash

theorem distinct_of_shown (old : OldCharts dashboard.base mid)
    (shown : ∀ chart ∈ dashboard.slices,
      Shown (placeCharts row (draw.hashed dashboard.orphanCharts) mid) chart) :
    ((draw.hashed dashboard.orphanCharts).map Prod.fst).Nodup := by
  refine List.Nodup.map_on ?_ (List.Nodup.of_map _ nodup_hashed_snd)
  rintro ⟨hash, first⟩ isFirst ⟨_, second⟩ isSecond rfl
  have shownAt {chart : Slice} (isHashed : (hash, chart) ∈ draw.hashed dashboard.orphanCharts) :=
    shown chart (mem_orphanCharts.mp (mem_hashed_snd isHashed)).1
  obtain ⟨_, firstAt, _⟩ := placed_of_shown old (shownAt isFirst) isFirst
  obtain ⟨_, secondAt, _⟩ := placed_of_shown old (shownAt isSecond) isSecond
  have same := componentAt_unique firstAt secondAt
  have sameUuid : first.uuid = second.uuid :=
    Option.some.inj (congrArg (fun c : Component => c.details.uuid) same)
  rw [slice_unique (mem_orphanCharts.mp (mem_hashed_snd isFirst)).1
    (mem_orphanCharts.mp (mem_hashed_snd isSecond)).1 (.inl sameUuid)]

theorem once_of_shown (kept : Kept dashboard.base after) (shown : Shown after chart) {key : String}
    {c : Component} (isAt : componentAt dashboard.base key c) (names : Names c chart) :
    c.details.uuid = some chart.uuid ∧ ∀ other c', componentAt dashboard.base other c' →
    Names c' chart → other = key := by
  obtain ⟨place, d, _, placeAt, _, hasUuid, _, _, once⟩ := shown
  have isPlace {other : String} {c' : Component} (otherAt : componentAt dashboard.base other c')
    (otherNames : Names c' chart) :
      other = place := by
    obtain ⟨added, keptAt⟩ := kept other c' otherAt
    exact once other _ keptAt otherNames
  have same := isPlace isAt names
  subst same
  obtain ⟨added, keptAt⟩ := kept key c isAt
  rw [componentAt_unique placeAt keptAt] at hasUuid
  exact ⟨hasUuid, fun other c' otherAt otherNames => isPlace otherAt otherNames⟩

/-- A component under the drawn row key would be a second parent or a second child of the grid. -/
theorem freshRow_of_wellFormed {charts : List (String × Slice)} {row : String} {base : Position}
    (wellFormed : WellFormed base) (gridAt : componentAt base dashboardGridId grid)
    (wellFormedAfter : WellFormed (grown base charts row grid))
    (kept : Kept base (grown base charts row grid))
    (chartKeys : ∀ hash ∈ charts.map Prod.fst, hash ≠ row ∧ hash ≠ dashboardGridId ∧
      hash ≠ dashboardRootId)
    (rowKey : row ≠ dashboardGridId ∧ row ≠ dashboardRootId) (c : Component) :
    ¬ componentAt base row c := by
  intro isAt
  have rowAfter :
      componentAt (grown base charts row grid) row (rowComponent row (charts.map Prod.fst)) := by
    unfold componentAt grown
    rw [placed_other fun isChart => (chartKeys row isChart).1 rfl, JsMap.get_set_self]
  have gridAfter :
      componentAt (grown base charts row grid) dashboardGridId
        { grid with children := grid.children ++ [row] } := by
    unfold componentAt grown
    rw [placed_other fun isChart => (chartKeys _ isChart).2.1 rfl, JsMap.get_set,
      if_neg rowKey.1.symm, JsMap.get_set_self]
  obtain ⟨added, keptAt⟩ := kept row c isAt
  have isRow : c.type = .row := congrArg Component.type (componentAt_unique keptAt rowAfter)
  have reached := wellFormed.reachable row c isAt (by rw [isRow]; decide) (by rw [isRow]; decide)
  obtain isRoot | ⟨parent, _, edge⟩ := Forest.under_cases reached
  · exact rowKey.2 isRoot.symm
  · obtain ⟨d, parentAt, listed⟩ := mem_children_iff.mp edge
    obtain ⟨added, parentAfter⟩ := kept parent d parentAt
    have first : Child (grown base charts row grid) parent row :=
      mem_children_iff.mpr ⟨_, parentAfter, mem_append_left _ listed⟩
    have second : Child (grown base charts row grid) dashboardGridId row :=
      mem_children_iff.mpr ⟨_, gridAfter, mem_append_right _ mem_cons_self⟩
    have isGrid := wellFormedAfter.single parent dashboardGridId row first second
    subst isGrid
    have distinct := wellFormedAfter.distinct dashboardGridId
    rw [children_eq gridAfter] at distinct
    rw [componentAt_unique parentAt gridAt] at listed
    exact (nodup_append.mp distinct).2.2 row listed row mem_cons_self rfl

theorem oldCharts_grown {base : Position} {row : String} {charts : List String}
    (gridAt : componentAt base dashboardGridId grid) :
    OldCharts base
      ((base.set dashboardGridId (.component { grid with children := grid.children ++ [row] })).set
      row
      (.component (rowComponent row charts))) := by
  intro key c isAt isChart
  unfold componentAt at isAt
  rw [JsMap.get_set, JsMap.get_set] at isAt
  split at isAt
  · cases isAt
    cases isChart
  · split at isAt
    · next isGrid =>
      cases isAt
      exact ⟨grid, isGrid ▸ gridAt, isChart, rfl⟩
    · exact ⟨c, isAt, isChart, rfl⟩

theorem appendCharts_grid {charts : List (String × Slice)} {row : String} {base : Position}
    (hasGrid : Child base dashboardRootId dashboardGridId)
    (gridAt : componentAt base dashboardGridId grid) :
    appendCharts base charts row = .ok (grown base charts row grid) := by
  unfold componentAt at gridAt
  rw [appendCharts, if_pos hasGrid, gridAt]
  rfl

theorem room_of_shown (wellFormed : WellFormed dashboard.base) (shows : ShowsCharts dashboard after)
    (orphans : dashboard.orphanCharts ≠ [])
    (run : appendCharts dashboard.base (draw.hashed dashboard.orphanCharts) (rowHash draw.row) =
      .ok after) :
    Room dashboard.base ((draw.hashed dashboard.orphanCharts).map Prod.fst) (rowHash draw.row) := by
  by_cases hasGrid : Child dashboard.base dashboardRootId dashboardGridId
  · obtain ⟨grid, gridAt⟩ := wellFormed.listed _ _ hasGrid
    rw [appendCharts_grid hasGrid gridAt] at run
    have isGrown := Except.ok.inj run
    subst isGrown
    exact ⟨hasGrid, fun hash isHash => freshCharts_of_kept shows.kept isHash,
      distinct_of_shown (oldCharts_grown gridAt) shows.shown,
      freshRow_of_wellFormed wellFormed gridAt shows.wellFormed shows.kept (fun _ => hash_keys)
        ⟨rowHash_ne_grid _, rowHash_ne_root _⟩⟩
  · -- without a row the new charts list no path
    rw [appendCharts, if_neg hasGrid] at run
    have isPlaced := Except.ok.inj run
    subst isPlaced
    obtain ⟨chart, orphan⟩ := exists_mem_of_ne_nil _ orphans
    obtain ⟨hash, isHashed⟩ := exists_hashed draw orphan
    obtain ⟨above, _, parents⟩ := placed_of_shown (fun _ c isAt isChart => ⟨c, isAt, isChart, rfl⟩)
      (shows.shown chart (mem_orphanCharts.mp orphan).1) isHashed
    cases parents

end Export

/-- An export shows every chart of a dashboard if and only if no chart is placed twice or without
its uuid and there is room for those that are not placed. -/
theorem shows_charts_iff (dashboard : ExportedDashboard) (draw : Draw)
    (wellFormed : WellFormed dashboard.base) :
    (∃ after, exportPosition dashboard draw = .ok after ∧ ShowsCharts dashboard after) ↔
    Exportable dashboard draw := by
  constructor
  · rintro ⟨after, run, shows⟩
    obtain ⟨identified, result⟩ := exportPosition_ok_iff.mp run
    refine ⟨identified,
      fun chart member key c => once_of_shown shows.kept (shows.shown chart member),
      fun orphans => ?_⟩
    rw [if_neg (by simpa using orphans)] at result
    exact room_of_shown wellFormed shows orphans result
  · intro exportable
    by_cases orphans : dashboard.orphanCharts = []
    · refine ⟨dashboard.base, exportPosition_ok_iff.mpr ⟨exportable.identified, ?_⟩, wellFormed,
        kept_refl _, ?_⟩
      · rw [if_pos (by rw [orphans]; rfl)]
      · intro chart member
        by_contra hidden
        have isOrphan : chart ∈ dashboard.orphanCharts := by
          refine mem_orphanCharts.mpr ⟨member, fun key c isAt isChart hasUuid => hidden ?_⟩
          exact shown_placed wellFormed isAt isChart hasUuid
            (exportable.once chart member key c isAt ⟨isChart, .inl hasUuid⟩).2
        rw [orphans] at isOrphan
        exact not_mem_nil isOrphan
    · have room := exportable.room orphans
      obtain ⟨grid, gridAt⟩ := wellFormed.listed _ _ room.grid
      have placement :
        Placement dashboard.base (draw.hashed dashboard.orphanCharts) (rowHash draw.row) grid :=
        ⟨wellFormed, gridAt, room, fun _ => hash_keys, rowHash_ne_grid _, rowHash_ne_root _⟩
      refine ⟨_, exportPosition_ok_iff.mpr ⟨exportable.identified, ?_⟩, wellFormed_grown placement,
        grown_kept placement, fun chart => shown_grown exportable placement⟩
      rw [if_neg (by simpa using orphans)]
      exact appendCharts_grid room.grid gridAt

section Checking
variable {position : Position} {key parent child : String} {above : List String} {c : Component}

def Entry.component? : Entry → Option Component
  | .text _ => none
  | .component c => some c

def componentsOf (position : Position) : List (String × Component) :=
  position.entries.filterMap fun entry => entry.2.component?.map fun c => (entry.1, c)

theorem mem_componentsOf_iff : (key, c) ∈ componentsOf position ↔ componentAt position key c := by
  unfold componentsOf componentAt
  rw [JsMap.get_eq_some_iff, mem_filterMap]
  constructor
  · rintro ⟨⟨name, entry⟩, member, found⟩
    obtain ⟨d, isComponent, same⟩ := Option.map_eq_some_iff.mp found
    cases same
    cases entry with
    | text value => cases isComponent
    | component d =>
      cases isComponent
      exact member
  · exact fun member => ⟨_, member, rfl⟩

def edges (position : Position) : List (String × String) :=
  (componentsOf position).flatMap fun entry => entry.2.children.map fun child => (entry.1, child)

theorem mem_edges_iff : (parent, child) ∈ edges position ↔ Child position parent child := by
  rw [Child, mem_children_iff, edges, mem_flatMap]
  constructor
  · rintro ⟨⟨key, c⟩, member, listed⟩
    obtain ⟨name, isChild, same⟩ := mem_map.mp listed
    cases same
    exact ⟨c, mem_componentsOf_iff.mp member, isChild⟩
  · rintro ⟨c, isAt, isChild⟩
    exact ⟨(parent, c), mem_componentsOf_iff.mpr isAt, mem_map_of_mem isChild⟩

def parentsAt (position : Position) (key : String) : Option (List String) :=
  match position.get key with
  | some (.component c) => c.parents
  | _ => none

theorem parentsAt_of_componentAt (isAt : componentAt position key c) :
    parentsAt position key = c.parents := by
  rw [parentsAt, isAt]

theorem componentAt_of_parentsAt (isSome : parentsAt position key = some above) :
    ∃ c, componentAt position key c := by
  unfold parentsAt at isSome
  split at isSome
  · next c isAt => exact ⟨c, isAt⟩
  · cases isSome

def aboveOf (position : Position) (key : String) : List String :=
  if key = dashboardRootId then [] else (parentsAt position key).getD []

/-- What is read off the entries of a well-formed position, one after the other. -/
@[mk_iff]
structure Checked (position : Position) : Prop where
  keyed : ∀ entry ∈ componentsOf position, entry.2.id = entry.1
  root : ∃ entry ∈ componentsOf position, entry.1 = dashboardRootId ∧ entry.2.type = .root
  rootChild : children position dashboardRootId = [dashboardGridId] ∨
    ∃ entry ∈ componentsOf position, children position dashboardRootId = [entry.1] ∧
    entry.2.type = .tabs
  distinct : ((edges position).map Prod.snd).Nodup
  top : dashboardRootId ∉ (edges position).map Prod.snd
  parents : ∀ edge ∈ edges position,
    parentsAt position edge.2 = some (aboveOf position edge.1 ++ [edge.1])
  held : ∀ edge ∈ edges position, edge.1 = dashboardRootId ∨ edge.1 ∈ (edges position).map Prod.snd
  reached : ∀ entry ∈ componentsOf position, entry.2.type ≠ .header → entry.2.type ≠ .grid →
    entry.1 = dashboardRootId ∨ entry.1 ∈ (edges position).map Prod.snd

instance (position : Position) : Decidable (Checked position) :=
  decidable_of_iff _ (checked_iff position).symm

section
variable (checked : Checked position)
include checked

theorem Checked.edgeList :
    EdgeList (Child position) dashboardRootId (edges position) (aboveOf position) where
  mem_iff _ _ := mem_edges_iff
  distinct := checked.distinct
  top := checked.top
  held := checked.held
  start := if_pos rfl
  grows edge member := by
    have notRoot : edge.2 ≠ dashboardRootId :=
      fun same => checked.top (same ▸ mem_map_of_mem member)
    rw [aboveOf, if_neg notRoot, checked.parents edge member, Option.getD_some]

theorem wellFormed_of_checked : WellFormed position where
  keyed key c isAt := checked.keyed (key, c) (mem_componentsOf_iff.mpr isAt)
  root := by
    obtain ⟨⟨key, c⟩, member, rfl, isRoot⟩ := checked.root
    exact ⟨c, mem_componentsOf_iff.mp member, isRoot⟩
  rootChild := by
    obtain isGrid | ⟨⟨key, c⟩, member, only, tabs⟩ := checked.rootChild
    · exact ⟨_, isGrid, .inl rfl⟩
    · exact ⟨key, only, .inr ⟨c, mem_componentsOf_iff.mp member, tabs⟩⟩
  listed parent child edge := componentAt_of_parentsAt (checked.parents _ (mem_edges_iff.mpr edge))
  distinct parent := by
    have parts := checked.distinct
    rw [edges, map_flatMap, nodup_flatMap] at parts
    unfold children
    split
    · next c isAt =>
      have own := parts.1 _ (mem_componentsOf_iff.mpr isAt)
      rwa [map_map, show Prod.snd ∘ (fun child => (parent, child)) = id from rfl, map_id] at own
    · exact nodup_nil
  single := checked.edgeList.single
  top := checked.edgeList.not_edge_root
  reachable key c isAt notHeader notGrid :=
    checked.edgeList.under_iff.mpr
      (checked.reached _ (mem_componentsOf_iff.mpr isAt) notHeader notGrid)
  parents key c above isAt path notRoot := by
    cases path with
    | root => exact absurd rfl notRoot
    | step path last =>
      rw [← parentsAt_of_componentAt isAt, checked.parents _ (mem_edges_iff.mpr last),
        checked.edgeList.above_eq path]

end

end Checking

def girls : Slice := { id := 5, uuid := "girls", sliceName := "Girls" }

def births : Slice := { id := 7, uuid := "births", sliceName := "Births" }

def boys : Slice := { id := 9, uuid := "boys", sliceName := "Boys" }

def girlsRow : Position := JsMap.ofEntries [
  ("DASHBOARD_VERSION_KEY", .text "v2"),
  (dashboardRootId,
    .component { type := .root, id := dashboardRootId, children := [dashboardGridId] }),
  (dashboardGridId,
    .component
      { type := .grid, id := dashboardGridId, children := ["ROW-1"],
        parents := some [dashboardRootId] }),
  (dashboardHeaderId, .component { type := .header, id := dashboardHeaderId }),
  ("ROW-1", .component (rowComponent "ROW-1" ["CHART-1"])),
  ("CHART-1", .component (chartComponent "CHART-1" (some "ROW-1") girls))]

/-- One of three charts is placed. -/
def girlsPlaced : ExportedDashboard where
  title := "Names"
  position := some girlsRow
  slices := [births, girls, boys]
  distinctIds := by decide
  distinctUuids := by decide

def drawn : Draw where
  order charts := charts.reverse.map fun chart => (chart.uuid, chart)
  perm charts := by
    rw [map_map, show Prod.snd ∘ (fun chart : Slice => (chart.uuid, chart)) = id from rfl, map_id]
    exact reverse_perm charts
  row := "ABCDEFGH"

theorem not_componentAt {position : Position} {key : String} (lacks : position.get key = none)
    (c : Component) :
    ¬componentAt position key c := by
  intro isAt
  rw [componentAt, lacks] at isAt
  cases isAt

theorem girlsPlaced_shown : girlsPlaced.orphanCharts = [births, boys] ∧
    ∃ after, exportPosition girlsPlaced drawn = .ok after ∧ ShowsCharts girlsPlaced after := by
  have wellFormed : WellFormed girlsPlaced.base := wellFormed_of_checked (by decide)
  have once : ∀ chart ∈ girlsPlaced.slices, ∀ entry ∈ componentsOf girlsPlaced.base,
    Names entry.2 chart →
      entry.2.details.uuid = some chart.uuid ∧
        ∀ other ∈ componentsOf girlsPlaced.base, Names other.2 chart → other.1 = entry.1 := by
    unfold Names
    decide
  refine ⟨by decide,
    (shows_charts_iff girlsPlaced drawn wellFormed).mpr ⟨?_, ?_, fun _ => ⟨?_, ?_, by decide, ?_⟩⟩⟩
  · unfold Identified
    decide
  · intro chart member key c isAt named
    obtain ⟨uuid, only⟩ := once chart member (key, c) (mem_componentsOf_iff.mpr isAt) named
    exact ⟨uuid, fun other c' isOther => only (other, c') (mem_componentsOf_iff.mpr isOther)⟩
  · exact mem_edges_iff.mp (by decide)
  · have free : ∀ hash ∈ (drawn.hashed girlsPlaced.orphanCharts).map Prod.fst,
        girlsPlaced.base.get hash = none := by
      decide
    exact fun hash isHash => not_componentAt (free hash isHash)
  · exact not_componentAt (by decide)

def tabbedPosition : Position := JsMap.ofEntries [
  (dashboardRootId, .component { type := .root, id := dashboardRootId, children := ["TABS-1"] }),
  (dashboardGridId,
    .component { type := .grid, id := dashboardGridId, parents := some [dashboardRootId] }),
  ("TABS-1", .component
    { type := .tabs, id := "TABS-1", children := ["TAB-1"], parents := some [dashboardRootId] }),
  ("TAB-1", .component
    { type := .tab, id := "TAB-1", parents := some [dashboardRootId, "TABS-1"] })]

def unplacedInTabs : ExportedDashboard where
  title := "Names"
  position := some tabbedPosition
  slices := [births]
  distinctIds := nodup_singleton _
  distinctUuids := nodup_singleton _

/-- The chart is put into the position but nowhere below the root. -/
theorem unplaced_in_tabs_hidden : WellFormed unplacedInTabs.base ∧
    ¬ ∃ after, exportPosition unplacedInTabs drawn = .ok after ∧
    ShowsCharts unplacedInTabs after := by
  have wellFormed : WellFormed unplacedInTabs.base := wellFormed_of_checked (by decide)
  refine ⟨wellFormed, ?_⟩
  rintro ⟨after, run, shows⟩
  have orphans : unplacedInTabs.orphanCharts = [births] := by decide
  have result := (exportPosition_ok_iff.mp run).2
  rw [if_neg (by rw [orphans]; decide)] at result
  have room := room_of_shown wellFormed shows (by rw [orphans]; decide) result
  exact absurd (mem_edges_iff.mpr room.grid) (by decide)

end Liteset.Assets
