import Liteset.Assets.ImportRefs

/-!
# Copying a dashboard with its charts

`copy_dashboard` and `set_dash_metadata` of `db/daos/dashboard.py`, with `copy_filter_scopes` of
`utils/dashboard_filter_scopes_converter.py`, for copies that duplicate the charts.  The copy
starts with the metadata of the original, since `params` and `json_metadata` are one text, and
takes the fields that `set_dash_metadata` sets from the request.
-/

set_option autoImplicit false

namespace Liteset.Assets

open Lib Dashboard

structure Display where
  colorNamespace : Option Json := none
  refreshFrequency : Json := .int 0
  colorScheme : Json := .str ""
  labelColors : Json := .object []
  sharedLabelColors : Json := .list []
  mapLabelColors : Json := .object []
  colorSchemeDomain : Json := .list []
  crossFiltersEnabled : Json := .bool true
  deriving DecidableEq

/-- `slices` are the ids of the charts. -/
structure StoredDashboard where
  metadata : Metadata
  display : Display := {}
  position : Position
  slices : List Int
  deriving DecidableEq

/-- `json_metadata` of a request. -/
structure CopyRequest where
  positions : Option Position
  filterScopes : Option (JsMap String (List (String × FilterAttributes)))
  defaultFilters : Option (Option (JsMap String Json))
  expandedSlices : Option (JsMap String Json)
  display : Display

def requestOf (dashboard : StoredDashboard) : CopyRequest where
  positions := some dashboard.position
  filterScopes := dashboard.metadata.filterScopes
  defaultFilters := dashboard.metadata.defaultFilters
  expandedSlices := dashboard.metadata.expandedSlices
  display := dashboard.display

def Entry.chartId : Entry → Option Int
  | .text _ => none
  | .component c => c.details.chartId

/-- `slice_ids`, without the charts that have none. -/
def sliceIds (positions : Position) : List Int := positions.values.filterMap Entry.chartId

def truthyId (id : Option Int) : Option Int := id.filter fun id => id ≠ 0

def updateUuid (uuidOf : Int → Option String) : Entry → Entry
  | .text value => .text value
  | .component c =>
    match if c.type = .chart then truthyId c.details.chartId else none with
    | some id => .component { c with details := { c.details with uuid := uuidOf id } }
    | none => .component c

def slcIdDict (oldToNew : JsMap Int Int) (sliceIds : List Int) (old : Int) : Option Int :=
  if oldToNew.entries.isEmpty then if old ∈ sliceIds then some old else none
  else (oldToNew.get old).filter fun new => new ∈ sliceIds

def copyFilterScopes (oldToNewSlcId : Int → Option Int)
    (scopes : JsMap String (List (String × FilterAttributes))) :
    Except AssetError (JsMap String (List (String × FilterAttributes))) :=
  (fun entries => (JsMap.ofEntries entries).mapValues fun columns => columns.map fun column =>
    (column.1, { column.2 with
      immune := some ((column.2.immune.getD []).filterMap oldToNewSlcId) })) <$>
      keepKnown (fun old => truthyId (oldToNewSlcId old)) scopes.entries

def applicableFilters (sliceIds : List Int) : Option (JsMap String Json) →
    Except AssetError (JsMap String Json)
  | some filters => do
      let read ← filters.entries.mapM fun entry => do return (← readId entry.1, entry)
      return JsMap.ofEntries ((read.filter fun entry => entry.1 ∈ sliceIds).map Prod.snd)
  | none => .error .notAnObject

/-- `set_dash_metadata`; `uuidOf` finds the uuid of a chart of the database. -/
def setDashMetadata (uuidOf : Int → Option String) (dashboard : StoredDashboard)
    (data : CopyRequest)
    (oldToNew : JsMap Int Int) : Except AssetError StoredDashboard := do
  let md := { dashboard.metadata with
    filterScopes := none
    timedRefreshImmuneSlices := some (dashboard.metadata.timedRefreshImmuneSlices.getD [])
    expandedSlices := some (data.expandedSlices.getD .empty) }
  match data.positions with
  | none => return { dashboard with metadata := md, display := data.display }
  | some positions =>
    let ids := sliceIds positions
    let newFilterScopes ← Fallible.onField (copyFilterScopes (slcIdDict oldToNew ids))
      data.filterScopes
    let defaultFilters ← applicableFilters ids (data.defaultFilters.getD (some .empty))
    return {
      metadata := { md with
        filterScopes := newFilterScopes.filter fun scopes => !scopes.entries.isEmpty
        defaultFilters := some (some defaultFilters) }
      display := data.display
      position := positions.mapValues (updateUuid uuidOf)
      slices := ids.filter fun id => (uuidOf id).isSome }

def remapChartId (oldToNew : JsMap Int Int) : Entry → Entry
  | .text value => .text value
  | .component c =>
    match truthyId c.details.chartId with
    | some old => .component { c with details := { c.details with chartId := oldToNew.get old } }
    | none => .component c

/-- `obj["meta"]["chartId"]` raises for such a chart. -/
def lacksChartId : Entry → Bool
  | .text _ => false
  | .component c => c.type = .chart && c.details.chartId.isNone

/-- `old_to_new_slice_ids`, with the ids that the duplicates get. -/
def oldToNewSliceIds (newIdOf : Int → Int) (slices : List Int) : JsMap Int Int :=
  JsMap.ofEntries (slices.map fun old => (old, newIdOf old))

/-- The dashboard that `copy_dashboard` makes.  Charts without a `chartId` are looked for before
the others may have lost theirs. -/
def duplicated (uuidOf : Int → Option String) (newIdOf : Int → Int) (original : StoredDashboard)
    (data : CopyRequest) :
    Except AssetError StoredDashboard :=
  if (data.positions.getD .empty).values.any lacksChartId then .error (.missingKey "chartId")
  else
    let oldToNew := oldToNewSliceIds newIdOf original.slices
    setDashMetadata uuidOf
      { original with position := .empty, slices := original.slices.map newIdOf, display := {} }
      { data with positions := data.positions.map (·.mapValues (remapChartId oldToNew)) } oldToNew

/-- `copy_dashboard` on the stored dashboards; the copy gets the id `copyId`. -/
def copyDashboard (uuidOf : Int → Option String) (newIdOf : Int → Int) (copyId : Int)
    (original : StoredDashboard)
    (data : CopyRequest) (store : JsMap Int StoredDashboard) :
    Except AssetError (JsMap Int StoredDashboard) :=
  (fun copy => store.set copyId copy) <$> duplicated uuidOf newIdOf original data

end Liteset.Assets
