import Liteset.Assets.Position
import Liteset.Lib.PyText

/-!
# Chart references of an imported dashboard

`update_id_refs` of `commands/dashboard/importers/v1/utils.py`, which gives the charts of an
imported dashboard their new ids in the position and in the metadata.  A field of the metadata
may be missing; lists that are missing and lists that are empty are not told apart where the
source does not.  Parts that hold no chart are carried along.
-/

set_option autoImplicit false

namespace Liteset.Assets

open Lib Dashboard

structure FilterAttributes where
  immune : Option (List Int)
  others : List (String × Json) := []
  deriving DecidableEq

structure Target where
  datasetUuid : Option String := none
  datasetId : Option Int := none
  others : List (String × Json) := []
  deriving DecidableEq

/-- `excluded` is a member of `scope`. -/
structure NativeFilter where
  targets : List Target := []
  excluded : List Int := []
  chartsInScope : List Int := []
  deriving DecidableEq

structure GlobalChartConfiguration where
  excluded : List Int := []
  chartsInScope : List Int := []
  deriving DecidableEq

inductive CrossFilterScope where
  | pointer (text : String)
  | scope (excluded : List Int)
  deriving DecidableEq

structure CrossFilters where
  scope : Option CrossFilterScope := none
  chartsInScope : List Int := []
  deriving DecidableEq

inductive ChartConfiguration where
  | configured (id : Option Int) (crossFilters : CrossFilters)
  | other (value : Json)
  deriving DecidableEq

/-- `default_filters` is a text of JSON; `some none` is one that is no object. -/
structure Metadata where
  timedRefreshImmuneSlices : Option (List Int) := none
  filterScopes : Option (JsMap String (List (String × FilterAttributes))) := none
  expandedSlices : Option (JsMap String Json) := none
  defaultFilters : Option (Option (JsMap String Json)) := none
  nativeFilterConfiguration : List NativeFilter := []
  globalChartConfiguration : Option GlobalChartConfiguration := none
  chartConfiguration : Option (JsMap String ChartConfiguration) := none
  deriving DecidableEq

structure Config where
  position : Position
  metadata : Metadata := {}
  deriving DecidableEq

section Update
variable {β : Type} (idMap : Int → Option Int)

def readId (text : String) : Except AssetError Int :=
  match PyText.parseInt text with
  | some id => .ok id
  | none => .error (.notAnInteger text)

/-- `id_map[old_id]` -/
def lookUp (old : Int) : Except AssetError Int :=
  match idMap old with
  | some new => .ok new
  | none => .error (.unknownChart old)

/-- `{str(id_map[int(old_id)]): value … if int(old_id) in id_map}` -/
def keepKnown : List (String × β) → Except AssetError (List (String × β))
  | [] => .ok []
  | (text, value) :: rest => do
      let old ← readId text
      let later ← keepKnown rest
      match idMap old with
      | some new => return (toString new, value) :: later
      | none => return later

/-- `[id_map[old_id] … if old_id in id_map]` -/
def knownIds (ids : List Int) : List Int := ids.filterMap idMap

def updateImmuneSlices (ids : List Int) : Except AssetError (List Int) := ids.mapM (lookUp idMap)

def updateColumns (columns : List (String × FilterAttributes)) : List (String × FilterAttributes) :=
  columns.map fun column =>
    (column.1, { column.2 with immune := column.2.immune.map (knownIds idMap) })

def listsImmune (columns : List (String × FilterAttributes)) : Bool :=
  columns.all fun column => column.2.immune.isSome

def updateFilterScopes (scopes : JsMap String (List (String × FilterAttributes))) :
    Except AssetError (JsMap String (List (String × FilterAttributes))) := do
  let kept := JsMap.ofEntries (← keepKnown idMap scopes.entries)
  if kept.entries.all fun entry => listsImmune entry.2
    then return kept.mapValues (updateColumns idMap)
  else .error (.missingKey "immune")

def updateExpandedSlices (slices : JsMap String Json) : Except AssetError (JsMap String Json) :=
  JsMap.ofEntries <$> slices.entries.mapM fun entry => do
    let old ← readId entry.1
    let new ← lookUp idMap old
    return (toString new, entry.2)

def updateDefaultFilters : Option (JsMap String Json) →
    Except AssetError (Option (JsMap String Json))
  | some filters => (fun kept => some (JsMap.ofEntries kept)) <$> keepKnown idMap filters.entries
  | none => .error .notAnObject

def updateChartId (chartIds : String → Option Int) : Entry → Entry
  | .text value => .text value
  | .component c =>
    match if c.type = .chart then c.details.uuid.bind chartIds else none with
    | some new => .component { c with details := { c.details with chartId := some new } }
    | none => .component c

def updateTarget (datasetInfo : String → Option Int) (target : Target) : Except AssetError Target :=
  match target.datasetUuid with
  | none => .ok target
  | some uuid =>
    if uuid = "" then .ok { target with datasetUuid := none }
    else
      match datasetInfo uuid with
      | some id => .ok { target with datasetUuid := none, datasetId := some id }
      | none => .error (.missingKey uuid)

def updateNativeFilter (datasetInfo : String → Option Int) (filter : NativeFilter) :
    Except AssetError NativeFilter :=
  (fun targets => { filter with targets, excluded := knownIds idMap filter.excluded }) <$>
    filter.targets.mapM (updateTarget datasetInfo)

def updateScope : CrossFilterScope → CrossFilterScope
  | .pointer text => .pointer text
  | .scope excluded => .scope (knownIds idMap excluded)

def updateChartConfiguration (new : Int) : ChartConfiguration → ChartConfiguration
  | .configured _ crossFilters =>
    .configured (some new) { crossFilters with scope := crossFilters.scope.map (updateScope idMap) }
  | .other value => .other value

/-- The loop that fills `new_chart_configuration`. -/
def updateChartConfigurations (configurations : JsMap String ChartConfiguration) :
    JsMap String ChartConfiguration :=
  configurations.entries.foldl (fun updated entry =>
    match (PyText.parseInt entry.1).bind idMap with
    | some new => updated.set (toString new) (updateChartConfiguration idMap new entry.2)
    | none => updated) JsMap.empty

def updateCrossFilterScoping (metadata : Metadata) : Metadata :=
  { metadata with
    globalChartConfiguration :=
      metadata.globalChartConfiguration.map fun scoping =>
        { scoping with excluded := knownIds idMap scoping.excluded }
    chartConfiguration := metadata.chartConfiguration.map (updateChartConfigurations idMap) }

end Update

def idMap (oldIds : JsMap String Int) (chartIds : String → Option Int) : JsMap Int Int :=
  JsMap.ofEntries (oldIds.entries.filterMap fun entry => (chartIds entry.1).map fun new =>
    (entry.2, new))

/-- `update_id_refs`; `datasetInfo` answers with the `datasource_id` of a dataset. -/
def updateIdRefs (config : Config) (chartIds datasetInfo : String → Option Int) :
    Except AssetError Config := do
  let known := (idMap (← buildUuidToIdMap config.position) chartIds).get
  let timedRefreshImmuneSlices ← Fallible.onField
    (updateImmuneSlices known) config.metadata.timedRefreshImmuneSlices
  let filterScopes ← Fallible.onField (updateFilterScopes known) config.metadata.filterScopes
  let expandedSlices ← Fallible.onField (updateExpandedSlices known) config.metadata.expandedSlices
  let defaultFilters ← Fallible.onField (updateDefaultFilters known) config.metadata.defaultFilters
  let nativeFilterConfiguration ←
    config.metadata.nativeFilterConfiguration.mapM (updateNativeFilter known datasetInfo)
  return {
    position := config.position.mapValues (updateChartId chartIds)
    metadata := updateCrossFilterScoping known { config.metadata with
      timedRefreshImmuneSlices, filterScopes, expandedSlices, defaultFilters,
        nativeFilterConfiguration } }

end Liteset.Assets
