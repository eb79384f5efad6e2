import Liteset.Dashboard.LayoutItem
import Liteset.Lib.Fallible
import Liteset.Lib.JsMap

/-!
# The position of a stored dashboard

The position maps the ids of its components to them; one key holds the version of the
format instead.  `_build_uuid_to_id_map` and `find_chart_uuids` of
`commands/dashboard/importers/v1/utils.py` read the charts off it.
-/

set_option autoImplicit false

namespace Liteset.Assets

open Lib Dashboard

inductive AssetError where
  | missingKey (key : String)
  | unknownChart (id : Int)
  | notAnInteger (text : String)
  | notAnObject
  deriving DecidableEq

/-- The `meta` of a component. -/
structure Details where
  chartId : Option Int := none
  uuid : Option String := none
  others : List (String × Json) := []
  deriving DecidableEq

structure Component where
  type : ComponentType
  id : String
  children : List String := []
  parents : Option (List String) := none
  details : Details := {}
  deriving DecidableEq

inductive Entry where
  | text (value : String)
  | component (c : Component)
  deriving DecidableEq

abbrev Position := JsMap String Entry

def Entry.chart : Entry → Option (String × Option Int)
  | .text _ => none
  | .component c =>
    if c.type = .chart then c.details.uuid.map fun uuid => (uuid, c.details.chartId) else none

def charts (position : Position) : List (String × Option Int) :=
  position.values.filterMap Entry.chart

def buildUuidToIdMap (position : Position) : Except AssetError (JsMap String Int) :=
  JsMap.ofEntries <$> (charts position).mapM fun chart =>
    match chart.2 with
    | some id => .ok (chart.1, id)
    | none => .error (.missingKey "chartId")

def findChartUuids (position : Position) : Except AssetError (List String) :=
  JsMap.keys <$> buildUuidToIdMap position

def Identified (position : Position) : Prop := ∀ chart ∈ charts position, chart.2.isSome

def placed (position : Position) : List (String × Int) :=
  (charts position).map fun chart => (chart.1, chart.2.getD 0)

theorem buildUuidToIdMap_ok_iff {position : Position} {ids : JsMap String Int} :
    buildUuidToIdMap position = .ok ids ↔
    Identified position ∧ ids = JsMap.ofEntries (placed position) := by
  have each : ∀ (chart : String × Option Int) (found : String × Int),
      (match chart.2 with
        | some id => .ok (chart.1, id)
        | none => .error (.missingKey "chartId") : Except AssetError (String × Int)) = .ok found ↔
        chart.2.isSome = true ∧ found = (chart.1, chart.2.getD 0) := by
    rintro ⟨uuid, id⟩ found
    cases id <;> simp [eq_comm]
  rw [buildUuidToIdMap, Fallible.map_eq_ok_iff]
  constructor
  · rintro ⟨found, listed, rfl⟩
    obtain ⟨identified, rfl⟩ := (Fallible.mapM_ok_iff each _ _).mp listed
    exact ⟨identified, rfl⟩
  · rintro ⟨identified, rfl⟩
    exact ⟨_, (Fallible.mapM_ok_iff each _ _).mpr ⟨identified, rfl⟩, rfl⟩

theorem mem_placed_iff {position : Position} {uuid : String} {id : Int}
    (identified : Identified position) :
    (uuid, id) ∈ placed position ↔ (uuid, some id) ∈ charts position := by
  unfold placed
  constructor
  · intro member
    obtain ⟨⟨u, i⟩, chart, same⟩ := List.mem_map.mp member
    obtain ⟨found, isSome⟩ := Option.isSome_iff_exists.mp (identified _ chart)
    cases isSome
    cases same
    exact chart
  · intro chart
    exact List.mem_map.mpr ⟨_, chart, rfl⟩

theorem uuid_found_iff {position : Position} {uuids : List String}
    (found : findChartUuids position = .ok uuids) (uuid : String) :
    uuid ∈ uuids ↔ ∃ id, (uuid, some id) ∈ charts position := by
  obtain ⟨ids, built, rfl⟩ := Fallible.ok_of_map found
  obtain ⟨identified, rfl⟩ := buildUuidToIdMap_ok_iff.mp built
  constructor
  · intro member
    obtain ⟨⟨u, id⟩, entry, rfl⟩ := List.mem_map.mp member
    exact ⟨id, (mem_placed_iff identified).mp (JsMap.mem_of_mem_ofEntries entry)⟩
  · rintro ⟨id, chart⟩
    obtain ⟨last, entry⟩ := JsMap.key_mem_ofEntries ((mem_placed_iff identified).mpr chart)
    exact List.mem_map_of_mem entry

end Liteset.Assets
