import Liteset.Assets.Position

/-!
# Linking imported dashboards to their charts

The link phases of `ImportAssetsCommand` and `ImportDashboardsCommand`.  Both enumerate the set
of chart uuids of a dashboard and stop at the first uuid without an id.  The first replaces the
links of the dashboard; the second adds, for all dashboards at once, the links that are missing.
Filter boxes leave their dashboards when those get native filters, and imported filter boxes are
deleted at the end.
-/

set_option autoImplicit false

namespace Liteset.Assets

open Lib List

/-- `chart_ids`; a chart has one uuid. -/
structure ChartIds where
  idOf : String → Option Int
  distinct : ∀ u v id, idOf u = some id → idOf v = some id → u = v

structure ImportedDashboard where
  id : Int
  position : Position
  uuids : List String
  enumerates : ∃ found, findChartUuids position = .ok found ∧ uuids.Perm found

/-- The rows of `dashboard_slices`, under its unique constraint. -/
structure Links where
  rows : List (Int × Int)
  unique : rows.Nodup

inductive LinkError where
  | integrity
  deriving DecidableEq

def insertRows (rows : List (Int × Int)) (links : Links) : Except LinkError Links :=
  if unique : (links.rows ++ rows).Nodup then .ok ⟨links.rows ++ rows, unique⟩
    else .error .integrity

def Links.only (keep : Int × Int → Bool) (links : Links) : Links :=
  ⟨links.rows.filter keep, links.unique.filter keep⟩

/-- What `migrate_dashboard` does to the charts of a dashboard. -/
def migrateDashboard (filterBox : Int → Bool) (dashboard : Int) (links : Links) : Links :=
  links.only fun link => link.1 ≠ dashboard || !filterBox link.2

/-- `session.delete(chart)` for the imported filter boxes. -/
def deleteFilterBoxes (filterBox imported : Int → Bool) (links : Links) : Links :=
  links.only fun link => !(imported link.2 && filterBox link.2)

section Commands
variable (chartIds : ChartIds) (filterBox imported : Int → Bool)

/-- The loop over the uuids, up to its `break`. -/
def linkedCharts : List String → List Int
  | [] => []
  | uuid :: rest =>
    match chartIds.idOf uuid with
    | none => []
    | some id => id :: linkedCharts rest

/-- The links of one dashboard in the loop of `ImportAssetsCommand`. -/
def linkDashboard (links : Links) (dashboard : ImportedDashboard) : Except LinkError Links := do
  let others := links.only fun link => link.1 ≠ dashboard.id
  let inserted ← insertRows ((linkedCharts chartIds dashboard.uuids).map fun chart =>
    (dashboard.id, chart)) others
  return migrateDashboard filterBox dashboard.id inserted

def importAssets (dashboards : List ImportedDashboard) (links : Links) : Except LinkError Links :=
  deleteFilterBoxes filterBox imported <$> dashboards.foldlM
    (linkDashboard chartIds filterBox) links

/-- `dashboard_chart_ids` of `ImportDashboardsCommand`. -/
def dashboardChartIds (dashboards : List ImportedDashboard) (links : Links) : List (Int × Int) :=
  dashboards.flatMap fun dashboard =>
    ((linkedCharts chartIds dashboard.uuids).map fun chart => (dashboard.id, chart)).filter
      fun link => link ∉ links.rows

def importDashboards (dashboards : List ImportedDashboard) (links : Links) :
    Except LinkError Links :=
  (fun inserted => deleteFilterBoxes filterBox imported
    (dashboards.foldl (fun links dashboard => migrateDashboard filterBox dashboard.id links)
      inserted)) <$>
      insertRows (dashboardChartIds chartIds dashboards links) links

end Commands

inductive ImportCommand where
  | assets
  | dashboards
  deriving DecidableEq

def ImportCommand.run (command : ImportCommand) (chartIds : ChartIds)
    (filterBox imported : Int → Bool) :
    List ImportedDashboard → Links → Except LinkError Links :=
  match command with
  | .assets => importAssets chartIds filterBox imported
  | .dashboards => importDashboards chartIds filterBox imported

def lastImport (dashboard : Int) : List ImportedDashboard → Option ImportedDashboard
  | [] => none
  | first :: rest =>
    (lastImport dashboard rest).or (if first.id = dashboard then some first else none)

section Promise
variable (chartIds : ChartIds) (filterBox : Int → Bool)

def KnownChart (dashboard : ImportedDashboard) (chart : Int) : Prop :=
  ∃ uuid id, (uuid, some id) ∈ charts dashboard.position ∧ chartIds.idOf uuid = some chart

/-- Every imported dashboard is linked to the known charts of its position and no others. -/
def LinksKnown (dashboards : List ImportedDashboard) (links : Links) : Prop :=
  ∀ dashboard imported, lastImport dashboard dashboards = some imported → ∀ chart,
    (dashboard, chart) ∈ links.rows ↔ KnownChart chartIds imported chart ∧ filterBox chart = false

def Early (dashboard : ImportedDashboard) (chart : Int) : Prop :=
  ∃ uuid ∈ dashboard.uuids.takeWhile fun uuid => (chartIds.idOf uuid).isSome,
    chartIds.idOf uuid = some chart

def AllEarly (dashboards : List ImportedDashboard) : Prop :=
  ∀ dashboard imported, lastImport dashboard dashboards = some imported → ∀ chart,
    KnownChart chartIds imported chart → filterBox chart = false → Early chartIds imported chart

structure Completed (dashboards : List ImportedDashboard) (links : Links) : Prop where
  once : (dashboardChartIds chartIds dashboards links).Nodup
  linkedBefore : ∀ dashboard imported, lastImport dashboard dashboards = some imported → ∀ chart,
    (dashboard, chart) ∈ links.rows → filterBox chart = false → KnownChart chartIds imported chart
  otherFiles : ∀ dashboard imported, lastImport dashboard dashboards = some imported →
    ∀ file ∈ dashboards, file.id = dashboard → ∀ chart, Early chartIds file chart →
    filterBox chart = false →
      KnownChart chartIds imported chart
  found : ∀ dashboard imported, lastImport dashboard dashboards = some imported → ∀ chart,
    KnownChart chartIds imported chart → filterBox chart = false →
      (dashboard, chart) ∈ links.rows ∨ ∃ file ∈ dashboards,
        file.id = dashboard ∧ Early chartIds file chart

def ImportCommand.Sound (command : ImportCommand) (dashboards : List ImportedDashboard)
    (links : Links) : Prop :=
  match command with
  | .assets => AllEarly chartIds filterBox dashboards
  | .dashboards => Completed chartIds filterBox dashboards links

end Promise

section Phases
variable {chartIds : ChartIds} {filterBox imported : Int → Bool}

theorem mem_linkedCharts {uuids : List String} {chart : Int} :
    chart ∈ linkedCharts chartIds uuids ↔
      ∃ uuid ∈ uuids.takeWhile fun uuid => (chartIds.idOf uuid).isSome,
        chartIds.idOf uuid = some chart := by
  induction uuids with
  | nil => simp [linkedCharts]
  | cons uuid rest ih =>
    rw [linkedCharts]
    cases known : chartIds.idOf uuid with
    | none =>
      rw [takeWhile_cons_of_neg (by simp [known])]
      simp
    | some id =>
      rw [takeWhile_cons_of_pos (by simp [known])]
      simp only [mem_cons, ih, exists_eq_or_imp, known, Option.some.injEq]
      exact or_congr eq_comm Iff.rfl

theorem nodup_linkedCharts {uuids : List String} (distinct : uuids.Nodup) :
    (linkedCharts chartIds uuids).Nodup := by
  induction uuids with
  | nil => exact nodup_nil
  | cons uuid rest ih =>
    obtain ⟨fresh, distinctRest⟩ := nodup_cons.mp distinct
    rw [linkedCharts]
    cases known : chartIds.idOf uuid with
    | none => exact nodup_nil
    | some id =>
      refine nodup_cons.mpr ⟨fun again => ?_, ih distinctRest⟩
      obtain ⟨other, member, isId⟩ := mem_linkedCharts.mp again
      have same := chartIds.distinct other uuid id isId known
      exact fresh (same ▸ (takeWhile_subset _ member))

theorem known_of_early {dashboard : ImportedDashboard} {chart : Int}
    (early : Early chartIds dashboard chart) :
    KnownChart chartIds dashboard chart := by
  obtain ⟨uuid, member, known⟩ := early
  obtain ⟨found, listed, perm⟩ := dashboard.enumerates
  obtain ⟨id, isChart⟩ :=
    (uuid_found_iff listed uuid).mp (perm.mem_iff.mp (takeWhile_subset _ member))
  exact ⟨uuid, id, isChart, known⟩

theorem nodup_uuids (dashboard : ImportedDashboard) : dashboard.uuids.Nodup := by
  obtain ⟨found, listed, perm⟩ := dashboard.enumerates
  obtain ⟨ids, _, rfl⟩ := Fallible.ok_of_map listed
  exact perm.nodup_iff.mpr ids.distinct

theorem mem_only {keep : Int × Int → Bool} {links : Links} {link : Int × Int} :
    link ∈ (links.only keep).rows ↔ link ∈ links.rows ∧ keep link = true := mem_filter

theorem insertRows_ok_iff {rows : List (Int × Int)} {links after : Links} :
    insertRows rows links = .ok after ↔ after.rows = links.rows ++ rows := by
  unfold insertRows
  constructor
  · intro inserted
    split at inserted
    · rw [← Except.ok.inj inserted]
    · cases inserted
  · intro same
    have unique : (links.rows ++ rows).Nodup := same ▸ after.unique
    rw [dif_pos unique]
    obtain ⟨afterRows, _⟩ := after
    subst same
    rfl

theorem linkDashboard_spec (chartIds : ChartIds) (filterBox : Int → Bool)
    (dashboard : ImportedDashboard) (links : Links) :
    ∃ after, linkDashboard chartIds filterBox links dashboard = .ok after ∧ ∀ k chart,
      (k, chart) ∈ after.rows ↔
      if dashboard.id = k then Early chartIds dashboard chart ∧ filterBox chart = false
        else (k, chart) ∈ links.rows := by
  have rowsOf (k chart : Int) :
    (k, chart) ∈ (linkedCharts chartIds dashboard.uuids).map (fun chart => (dashboard.id, chart)) ↔
      dashboard.id = k ∧ Early chartIds dashboard chart := by
    rw [mem_map]
    constructor
    · rintro ⟨_, linked, same⟩
      cases same
      exact ⟨rfl, mem_linkedCharts.mp linked⟩
    · rintro ⟨rfl, early⟩
      exact ⟨chart, mem_linkedCharts.mpr early, rfl⟩
  have unique : ((links.only fun link => link.1 ≠ dashboard.id).rows ++
      (linkedCharts chartIds dashboard.uuids).map fun chart => (dashboard.id, chart)).Nodup := by
    refine nodup_append.mpr ⟨(links.only _).unique,
      (nodup_linkedCharts (nodup_uuids dashboard)).map fun _ _ same => (Prod.mk.inj same).2, ?_⟩
    rintro ⟨k, chart⟩ before _ new rfl
    have other := (mem_only.mp before).2
    rw [← ((rowsOf k chart).mp new).1] at other
    simp at other
  refine ⟨migrateDashboard filterBox dashboard.id ⟨_, unique⟩, ?_, ?_⟩
  · rw [linkDashboard, insertRows, dif_pos unique]
    rfl
  · intro k chart
    rw [migrateDashboard, mem_only, mem_append, mem_only, rowsOf]
    by_cases same : dashboard.id = k
    · subst same
      simp
    · simp [same, Ne.symm same]

variable {dashboards : List ImportedDashboard}

theorem lastImport_mem {dashboard : Int} {last : ImportedDashboard}
    (isLast : lastImport dashboard dashboards = some last) :
    last ∈ dashboards ∧ last.id = dashboard := by
  induction dashboards with
  | nil => cases isLast
  | cons first rest ih =>
    rw [lastImport] at isLast
    cases later : lastImport dashboard rest with
    | some d =>
      rw [later] at isLast
      cases isLast
      exact (ih later).imp (mem_cons_of_mem _) id
    | none =>
      rw [later, Option.none_or] at isLast
      split at isLast
      · cases isLast
        exact ⟨mem_cons_self, by assumption⟩
      · cases isLast

theorem linkDashboards_spec (chartIds : ChartIds) (filterBox : Int → Bool)
    (dashboards : List ImportedDashboard) (links : Links) :
    ∃ after, dashboards.foldlM (linkDashboard chartIds filterBox) links = .ok after ∧
      ∀ k chart, (k, chart) ∈ after.rows ↔
        match lastImport k dashboards with
        | some last => Early chartIds last chart ∧ filterBox chart = false
        | none => (k, chart) ∈ links.rows := by
  induction dashboards generalizing links with
  | nil => exact ⟨links, rfl, fun _ _ => Iff.rfl⟩
  | cons first rest ih =>
    obtain ⟨between, linked, rows⟩ := linkDashboard_spec chartIds filterBox first links
    obtain ⟨after, run, later⟩ := ih between
    refine ⟨after, ?_, fun k chart => ?_⟩
    · rw [foldlM_cons, linked]
      exact run
    · rw [later, lastImport]
      cases lastImport k rest with
      | some last => exact Iff.rfl
      | none =>
        rw [Option.none_or, rows]
        by_cases same : first.id = k
        · rw [if_pos same, if_pos same]
        · rw [if_neg same, if_neg same]

theorem importAssets_spec (chartIds : ChartIds) (filterBox imported : Int → Bool)
    (dashboards : List ImportedDashboard) (links : Links) :
    ∃ after, importAssets chartIds filterBox imported dashboards links = .ok after ∧
      ∀ dashboard last, lastImport dashboard dashboards = some last → ∀ chart,
        (dashboard, chart) ∈ after.rows ↔ Early chartIds last chart ∧ filterBox chart = false := by
  obtain ⟨linked, run, rows⟩ := linkDashboards_spec chartIds filterBox dashboards links
  refine ⟨deleteFilterBoxes filterBox imported linked, by rw [importAssets, run]; rfl, ?_⟩
  intro dashboard last isLast chart
  rw [deleteFilterBoxes, mem_only, rows, isLast]
  exact ⟨fun both => both.1, fun early => ⟨early, by simp [early.2]⟩⟩

theorem mem_dashboardChartIds {links : Links} {dashboard chart : Int} :
    (dashboard, chart) ∈ dashboardChartIds chartIds dashboards links ↔
      (∃ file ∈ dashboards, file.id = dashboard ∧ Early chartIds file chart) ∧ (dashboard, chart) ∉
        links.rows := by
  rw [dashboardChartIds, mem_flatMap]
  constructor
  · rintro ⟨file, member, link⟩
    obtain ⟨linked, isNew⟩ := mem_filter.mp link
    obtain ⟨_, early, same⟩ := mem_map.mp linked
    cases same
    exact ⟨⟨file, member, rfl, mem_linkedCharts.mp early⟩, of_decide_eq_true isNew⟩
  · rintro ⟨⟨file, member, rfl, early⟩, isNew⟩
    exact ⟨file, member, mem_filter.mpr
      ⟨mem_map_of_mem (mem_linkedCharts.mpr early), decide_eq_true isNew⟩⟩

theorem mem_migrated {links : Links} {dashboard chart : Int} :
    (dashboard, chart) ∈
        (dashboards.foldl (fun links dashboard => migrateDashboard filterBox dashboard.id links)
          links).rows ↔
      (dashboard, chart) ∈ links.rows ∧ ∀ file ∈ dashboards, file.id = dashboard →
      filterBox chart = false := by
  induction dashboards generalizing links with
  | nil => simp
  | cons first rest ih =>
    rw [foldl_cons, ih, migrateDashboard, mem_only, forall_mem_cons]
    by_cases same : first.id = dashboard
    · subst same
      simp [and_assoc]
    · simp [same, Ne.symm same]

theorem importDashboards_ok_iff {links after : Links} :
    importDashboards chartIds filterBox imported dashboards links = .ok after ↔
      ∃ inserted : Links,
        inserted.rows = links.rows ++ dashboardChartIds chartIds dashboards links ∧
        after = deleteFilterBoxes filterBox imported
          (dashboards.foldl (fun links dashboard => migrateDashboard filterBox dashboard.id links)
            inserted) := by
  rw [importDashboards, Fallible.map_eq_ok_iff]
  constructor
  · rintro ⟨inserted, rows, same⟩
    exact ⟨inserted, insertRows_ok_iff.mp rows, same.symm⟩
  · rintro ⟨inserted, rows, same⟩
    exact ⟨inserted, insertRows_ok_iff.mpr rows, same.symm⟩

theorem mem_importDashboards (filterBox imported : Int → Bool) {links inserted : Links}
    {dashboard : Int}
    {last : ImportedDashboard} (isLast : lastImport dashboard dashboards = some last)
    (rows : inserted.rows = links.rows ++ dashboardChartIds chartIds dashboards links)
    (chart : Int) :
    (dashboard, chart) ∈ (deleteFilterBoxes filterBox imported
        (dashboards.foldl (fun links dashboard => migrateDashboard filterBox dashboard.id links)
          inserted)).rows ↔
      ((dashboard, chart) ∈ links.rows ∨ ∃ file ∈ dashboards,
        file.id = dashboard ∧ Early chartIds file chart) ∧
        filterBox chart = false := by
  obtain ⟨member, isDashboard⟩ := lastImport_mem isLast
  rw [deleteFilterBoxes, mem_only, mem_migrated, rows, mem_append, mem_dashboardChartIds]
  constructor
  · rintro ⟨⟨before | new, plain⟩, _⟩
    · exact ⟨.inl before, plain last member isDashboard⟩
    · exact ⟨.inr new.1, plain last member isDashboard⟩
  · rintro ⟨linked, plain⟩
    refine ⟨⟨?_, fun _ _ _ => plain⟩, by simp [plain]⟩
    by_cases before : (dashboard, chart) ∈ links.rows
    · exact .inl before
    · exact .inr ⟨linked.resolve_left before, before⟩

end Phases

def danglingPosition : Position := JsMap.ofEntries [
  ("CHART-1", .component
    { type := .chart, id := "CHART-1", details := { chartId := some 101,
                                                    uuid := some "imported" } }),
  ("CHART-2", .component
    { type := .chart, id := "CHART-2", details := { chartId := some 102,
                                                    uuid := some "missing" } })]

def dangling : ImportedDashboard where
  id := 7
  position := danglingPosition
  uuids := ["missing", "imported"]
  enumerates := ⟨["imported", "missing"], by decide, List.Perm.swap ..⟩

def oneChart : ChartIds where
  idOf uuid := if uuid = "imported" then some 1 else none
  distinct u v id isU isV := by
    split at isU <;> split at isV <;> simp_all

end Liteset.Assets
