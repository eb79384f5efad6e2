import Liteset.Assets.Position
import Liteset.Lib.Paths

/-!
# The position of an exported dashboard

`_get_default_position` and `_append_charts` of `commands/dashboard/importers/v1/utils.py` and
the part of `_export_single` that calls them.  The set of orphan charts is enumerated in some
order, and each of them gets a key with a suffix that is drawn for it.
-/

set_option autoImplicit false

namespace Liteset.Assets

open Lib Dashboard
open Lib.Forest (Under SingleParent)
open Lib.Paths (Path)

def DEFAULT_CHART_HEIGHT : Int := 50

def DEFAULT_CHART_WIDTH : Int := 4

structure Slice where
  id : Int
  uuid : String
  sliceName : String
  deriving DecidableEq

def getDefaultPosition (title : String) : Position := JsMap.ofEntries [
  ("DASHBOARD_VERSION_KEY", .text "v2"),
  (dashboardRootId,
    .component { type := .root, id := dashboardRootId, children := [dashboardGridId] }),
  (dashboardGridId,
    .component { type := .grid, id := dashboardGridId, parents := some [dashboardRootId] }),
  (dashboardHeaderId,
    .component
      { type := .header, id := dashboardHeaderId,
        details := { others := [("text", .str title)] } })]

def children (position : Position) (key : String) : List String :=
  match position.get key with
  | some (.component c) => c.children
  | _ => []

def chartHash (suffix : String) : String := "CHART-" ++ suffix

def rowHash (suffix : String) : String := "ROW-N-" ++ suffix

def chartComponent (hash : String) (row : Option String) (chart : Slice) : Component where
  type := .chart
  id := hash
  parents := row.map fun row => [dashboardRootId, dashboardGridId, row]
  details := {
    chartId := some chart.id
    uuid := some chart.uuid
    others := [("height", .int DEFAULT_CHART_HEIGHT), ("sliceName", .str chart.sliceName),
      ("width", .int DEFAULT_CHART_WIDTH)] }

def rowComponent (hash : String) (charts : List String) : Component where
  type := .row
  id := hash
  children := charts
  parents := some [dashboardRootId, dashboardGridId]
  details :=
    { others := [("0", .str dashboardRootId), ("background", .str "BACKGROUND_TRANSPARENT")] }

def placeCharts (row : Option String) (charts : List (String × Slice)) (position : Position) :
    Position :=
  charts.foldl (fun position chart =>
    position.set chart.1 (.component (chartComponent chart.1 row chart.2))) position

/-- `_append_charts`; `charts` are the hashes with their charts. -/
def appendCharts (position : Position) (charts : List (String × Slice)) (row : String) :
    Except AssetError Position :=
  if dashboardGridId ∈ children position dashboardRootId then
    match position.get dashboardGridId with
    | some (.component grid) =>
      let position :=
        position.set dashboardGridId (.component { grid with children := grid.children ++ [row] })
      let position := position.set row (.component (rowComponent row (charts.map Prod.fst)))
      .ok (placeCharts (some row) charts position)
    | _ => .error (.missingKey dashboardGridId)
  else .ok (placeCharts none charts position)

structure Draw where
  order : List Slice → List (String × Slice)
  perm : ∀ charts, ((order charts).map Prod.snd).Perm charts
  row : String

def Draw.hashed (draw : Draw) (charts : List Slice) : List (String × Slice) :=
  (draw.order charts).map fun chart => (chartHash chart.1, chart.2)

structure ExportedDashboard where
  title : String
  position : Option Position
  slices : List Slice
  distinctIds : (slices.map Slice.id).Nodup
  distinctUuids : (slices.map Slice.uuid).Nodup

def ExportedDashboard.base (dashboard : ExportedDashboard) : Position :=
  match dashboard.position with
  | some position =>
    if position.entries.isEmpty then getDefaultPosition dashboard.title else position
  | none => getDefaultPosition dashboard.title

def orphans (slices : List Slice) (uuids : List String) : List Slice :=
  slices.filter fun chart => chart.uuid ∉ uuids

/-- The position in the payload of `_export_single`. -/
def exportPosition (dashboard : ExportedDashboard) (draw : Draw) : Except AssetError Position := do
  let referenced ← findChartUuids dashboard.base
  let orphanCharts := orphans dashboard.slices referenced
  if orphanCharts.isEmpty then return dashboard.base
  else appendCharts dashboard.base (draw.hashed orphanCharts) (rowHash draw.row)

abbrev Child (position : Position) (parent child : String) : Prop :=
  child ∈ children position parent

def componentAt (position : Position) (key : String) (c : Component) : Prop :=
  position.get key = some (.component c)

/-- The components but for headers and grids form a tree below the root, whose child is the grid or
has the tabs, and list what is above them. -/
structure WellFormed (position : Position) : Prop where
  keyed : ∀ key c, componentAt position key c → c.id = key
  root : ∃ c, componentAt position dashboardRootId c ∧ c.type = .root
  rootChild : ∃ child, children position dashboardRootId = [child] ∧
    (child = dashboardGridId ∨ ∃ c, componentAt position child c ∧ c.type = .tabs)
  listed : ∀ parent child, Child position parent child → ∃ c, componentAt position child c
  distinct : ∀ parent, (children position parent).Nodup
  single : SingleParent (Child position)
  top : ∀ parent, ¬ Child position parent dashboardRootId
  reachable : ∀ key c, componentAt position key c → c.type ≠ .header → c.type ≠ .grid →
    Under (Child position) dashboardRootId key
  parents : ∀ key c above, componentAt position key c →
    Path (Child position) dashboardRootId above key →
    key ≠ dashboardRootId → c.parents = some above

def Names (c : Component) (chart : Slice) : Prop :=
  c.type = .chart ∧ (c.details.uuid = some chart.uuid ∨ c.details.chartId = some chart.id)

/-- One component, with the uuid of the chart, names it; it is reached from the root and
lists its path. -/
def Shown (position : Position) (chart : Slice) : Prop :=
  ∃ key c above, componentAt position key c ∧ c.type = .chart ∧ c.details.uuid = some chart.uuid ∧
    Path (Child position) dashboardRootId above key ∧ c.parents = some above ∧
      ∀ other c', componentAt position other c' → Names c' chart → other = key

/-- A component is kept when at most children are added to it. -/
def Kept (before after : Position) : Prop :=
  ∀ key c, componentAt before key c →
    ∃ added, componentAt after key { c with children := c.children ++ added }

structure ShowsCharts (dashboard : ExportedDashboard) (after : Position) : Prop where
  wellFormed : WellFormed after
  kept : Kept dashboard.base after
  shown : ∀ chart ∈ dashboard.slices, Shown after chart

def ExportedDashboard.orphanCharts (dashboard : ExportedDashboard) : List Slice :=
  dashboard.slices.filter fun chart => (charts dashboard.base).all fun placed =>
    placed.1 ≠ chart.uuid

structure Room (position : Position) (hashes : List String) (row : String) : Prop where
  grid : Child position dashboardRootId dashboardGridId
  freshCharts : ∀ hash ∈ hashes, ∀ c, ¬ componentAt position hash c
  distinctCharts : hashes.Nodup
  freshRow : ∀ c, ¬ componentAt position row c

structure Exportable (dashboard : ExportedDashboard) (draw : Draw) : Prop where
  identified : Identified dashboard.base
  once : ∀ chart ∈ dashboard.slices, ∀ key c, componentAt dashboard.base key c → Names c chart →
    c.details.uuid = some chart.uuid ∧ ∀ other c', componentAt dashboard.base other c' →
    Names c' chart → other = key
  room : dashboard.orphanCharts ≠ [] →
    Room dashboard.base ((draw.hashed dashboard.orphanCharts).map Prod.fst) (rowHash draw.row)

end Liteset.Assets
