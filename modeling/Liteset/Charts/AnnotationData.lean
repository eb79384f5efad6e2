import Liteset.Lib.Descent
import Liteset.Lib.Groups
import Liteset.Lib.Json
import Liteset.Security.Access
import Liteset.Sql.ChartQuery

/-!
# Annotation data of a chart query

`get_annotation_data` and `get_viz_annotation_data` of the query-context processor, with
`get_viz`, `BaseViz.get_payload` and `DeckGLMultiLayer` of `viz.py`.  What a visualisation
class makes of its form data and data frames is a parameter, as is the answer of the
database.  A `Read` is a query whose frame went into the data beside it.
-/

set_option autoImplicit false

namespace Liteset.Charts.Annotations

open Lib (Json)
open Lib.Descent (Node visit walk)
open Security
open Security.Access (User Grants)

abbrev Dict (β : Type) := List (String × β)

abbrev FormData := Dict Json

namespace Dict
variable {β : Type}

def has (dict : Dict β) (key : String) : Bool := dict.any fun entry => entry.1 = key

def set (dict : Dict β) (key : String) (value : β) : Dict β :=
  if has dict key then dict.map fun entry => if entry.1 = key then (key, value) else entry
  else dict ++ [(key, value)]

def update (dict entries : Dict β) : Dict β :=
  entries.foldl (fun dict entry => set dict entry.1 entry.2) dict

def getD (dict : Dict β) (key : String) (default : β) : β :=
  ((dict.find? fun entry => entry.1 = key).map Prod.snd).getD default

def pop (dict : Dict β) (key : String) : Dict β := dict.filter fun entry => entry.1 ≠ key

end Dict

/-- `other` is any exception that is no `SupersetException`. -/
inductive VizError where
  | queryObjectValidationError (message : String)
  | supersetSecurityException (message : String)
  | supersetException (message : String)
  | other (type : String)
deriving DecidableEq

def iterate (value : Json) : Except VizError (List Json) :=
  value.iterate.elim (.error (.other "TypeError")) .ok

/-- `any(…)` over the adhoc filters stops at the first that is a "No filter". -/
def hasNoFilter (temporalColumn : Json) : List Json → Except VizError Bool
  | [] => .ok false
  | .object filter :: rest =>
    if Json.equals (Json.get filter "subject") temporalColumn
        && Json.equals (Json.get filter "comparator") (.str "No filter") then .ok true
    else hasNoFilter temporalColumn rest
  | _ :: _ => .error (.other "AttributeError")

/-- `str` is Python's. -/
def updateTimeRange (str : Json → String) (formData : FormData) : Except VizError FormData := do
  let orEmpty := fun (value : Json) => if value.truthy then value else .str ""
  let ranged :=
    if Dict.has formData "since" || Dict.has formData "until" then
      let since := orEmpty (Dict.getD formData "since" (.str ""))
      let until_ := orEmpty (Dict.getD formData "until" (.str ""))
      Dict.set (Dict.pop (Dict.pop formData "since") "until") "time_range"
        (.str (str since ++ " : " ++ str until_))
    else formData
  let temporalColumn := Dict.getD ranged "granularity_sqla" .null
  if temporalColumn.truthy then
    let filters ← iterate (Dict.getD ranged "adhoc_filters" (.list []))
    if (← hasNoFilter temporalColumn filters) && !Dict.has ranged "time_range" then
      return Dict.set ranged "time_range" (.str "No filter")
    return ranged
  return ranged

/-- `columns` are the labels of the columns, groupby and metrics. -/
structure VizQuery where
  columns : List String := []
  query : Sql.Chart.QueryObject := {}

/-- `cacheKey` stands for the key and the timeout of the cache, which may raise; no cache
is wired to these visualisations. -/
structure SqlaTable where
  id : Nat
  source : Access.Datasource := {}
  columnNames : List String := []
  cacheKey : FormData → VizQuery → Except VizError Unit := fun _ _ => .ok ()
  dataset : Sql.Chart.Dataset
  rows : List Sql.Chart.Row := []

/-- `params` is the parsed column, empty when that is no JSON object. -/
structure Slice where
  id : Nat
  vizType : Option String
  datasourceId : Option Nat
  datasourceType : Option String := some "table"
  params : FormData := []
  cacheTimeout : Option Int := none
  data : Json := .object []

def Slice.formData (str : Json → String) (slice : Slice) : Except VizError FormData :=
  let named := Dict.update slice.params
    [("slice_id", .int slice.id), ("viz_type", slice.vizType.elim .null .str),
      ("datasource",
        .str (slice.datasourceId.elim "None" toString ++ "__" ++ slice.datasourceType.getD "None"))]
  let timed := match slice.cacheTimeout with
    | some timeout => if timeout = 0 then named else Dict.set named "cache_timeout" (.int timeout)
    | none => named
  updateTimeRange str timed

/-- What `get_data` returns apart from `None`; `dict` is one without the key `features`,
`layers` that of a multi-layer map. -/
inductive VizData where
  | records (rows : List FormData)
  | dict (members : FormData)
  | features (items : List Json) (members : FormData)
  | layers (features : Dict (List Json)) (mapboxApiKey : String) (slices : List Json)

/-- What iterating over `data["features"]` gives, when there is such a key. -/
def VizData.featuresOf (data : VizData) : Option (List Json) :=
  match data with
  | .records _ => none
  | .dict _ => none
  | .features items _ => some items
  | .layers byType _ _ => some (byType.map fun entry => .str entry.1)

/-- The methods in which the classes differ; `extraQueries` holds the query of each time
comparison and `processExtra` skips a frame without a time column. -/
structure VizMethods (DataFrame : Type) where
  init : FormData → Except VizError FormData := .ok
  extraQueries : FormData → List (Except VizError VizQuery) := fun _ => []
  processExtra : FormData → DataFrame → Except VizError (Option DataFrame) :=
    fun _ df => .ok (some df)
  queryObj : FormData → Except VizError VizQuery
  getData : FormData → List DataFrame → Option DataFrame → Except VizError (Option VizData)

inductive VizClass (DataFrame : Type) where
  | base (methods : VizMethods DataFrame)
  | deckGLMultiLayer (init : FormData → Except VizError FormData)

def VizClass.init {DataFrame : Type} : VizClass DataFrame → FormData → Except VizError FormData
  | .base methods => methods.init
  | .deckGLMultiLayer init => init

structure Viz (DataFrame : Type) where
  datasource : SqlaTable
  formData : FormData
  vizClass : VizClass DataFrame

inductive QueryFailure where
  | supersetErrorException
  | other

/-- The metadata database, the registry of `viz.py` and the databases behind the datasets. -/
structure Site (DataFrame : Type) where
  settings : Access.Settings := {}
  grants : Grants := {}
  slices : List Slice := []
  tables : List SqlaTable := []
  baseViz : VizMethods DataFrame
  vizTypes : Dict (VizClass DataFrame)
  vizTypeDenylist : List String := []
  mapboxApiKey : String := ""
  str : Json → String
  querySettings : Sql.Chart.QuerySettings
  rlsFilters : User → SqlaTable → List Sql.Chart.RlsFilter := fun _ _ => []
  guestClauses : User → SqlaTable → List (Option Sql.Chart.Text) := fun _ _ => []
  emptyFrame : DataFrame
  execute : FormData → SqlaTable → Sql.Chart.SqlaQuery → Except QueryFailure DataFrame

structure Read where
  datasource : SqlaTable
  query : Sql.Chart.QueryObject
  statement : Sql.Chart.SqlaQuery

structure Payload where
  data : Option VizData
  reads : List Read

def Payload.of (data : Option VizData) (reads : List Read) : Payload :=
  ⟨data, if data.isSome then reads else []⟩

structure DfPayload (DataFrame : Type) where
  df : Option DataFrame
  failed : Bool
  reads : List Read

section Payloads
variable {DataFrame : Type} (site : Site DataFrame) (user : User)

/-- `SqlaTable.async_query`, which is handed no row-level-security clauses and looks those
of the current user up. -/
def asyncQuery (formData : FormData) (table : SqlaTable) (query : Sql.Chart.QueryObject) :
    DfPayload DataFrame :=
  let rowLevelFilters :=
    Sql.Chart.composeRlsTextClauses (site.rlsFilters user table) (site.guestClauses user table)
  match Sql.Chart.getSqlaQuery table.dataset site.querySettings query none rowLevelFilters with
  | .error _ => ⟨some site.emptyFrame, false, []⟩
  | .ok statement =>
    match site.execute formData table statement with
    | .ok df => ⟨some df, false, [⟨table, query, statement⟩]⟩
    | .error .supersetErrorException => ⟨none, true, []⟩
    | .error .other => ⟨some site.emptyFrame, false, []⟩

def getDfPayload (formData : FormData) (table : SqlaTable) (query : VizQuery) :
    Except VizError (DfPayload DataFrame) := do
  table.cacheKey formData query
  if query.columns.all (· ∈ table.columnNames)
    then return asyncQuery site user formData table query.query
  return ⟨none, true, []⟩

structure ExtraChartData (DataFrame : Type) where
  frames : List DataFrame := []
  reads : List Read := []

/-- `async_run_extra_queries`: what it has gathered when it ends or raises. -/
def runExtraQueries (methods : VizMethods DataFrame) (formData : FormData) (table : SqlaTable) :
    List (Except VizError VizQuery) → ExtraChartData DataFrame →
      ExtraChartData DataFrame × Option VizError
  | [], extra => (extra, none)
  | .error e :: _, extra => (extra, some e)
  | .ok query :: rest, extra =>
    match getDfPayload site user formData table query with
    | .error e => (extra, some e)
    | .ok ⟨none, _, _⟩ => runExtraQueries methods formData table rest extra
    | .ok ⟨some df, _, reads⟩ =>
      match methods.processExtra formData df with
      | .error e => (extra, some e)
      | .ok none => runExtraQueries methods formData table rest extra
      | .ok (some frame) =>
        runExtraQueries methods formData table rest ⟨extra.frames ++ [frame], extra.reads ++ reads⟩

/-- The main query and `get_data`. -/
def runMainQuery (methods : VizMethods DataFrame) (formData : FormData) (table : SqlaTable)
    (extra : ExtraChartData DataFrame) : Except VizError Payload := do
  let query ← methods.queryObj formData
  let payload ← getDfPayload site user formData table query
  if payload.failed then return .of none []
  let data ← methods.getData formData extra.frames payload.df
  return .of data (extra.reads ++ payload.reads)

/-- `BaseViz.get_payload`: a security error of the extra queries is noted and the main
query is run all the same. -/
def getPayload (methods : VizMethods DataFrame) (formData : FormData) (table : SqlaTable) :
    Except VizError Payload :=
  let gathered :=
    runExtraQueries site user methods formData table (methods.extraQueries formData) {}
  match gathered.2 with
  | none => runMainQuery site user methods formData table gathered.1
  | some (.supersetSecurityException _) => runMainQuery site user methods formData table gathered.1
  | some e => .error e

/-- `_filter_items_by_scope`: the items are JSON values, which have no `filterId`. -/
def filterItemsByScope (items : Json) : Except VizError Json := (iterate items).map .list

/-- `not filter_scope or layer_index in filter_scope` -/
def inScope (layerIndex : Nat) (filterScope : Json) : Except VizError Bool :=
  if !filterScope.truthy then .ok true
  else (iterate filterScope).map fun indices => indices.any fun index => index.equalsNat layerIndex

/-- The filters of `filter_data_mapping` whose scope has the layer. -/
def scopedFilters (layerIndex : Nat) (mapping : FormData) : FormData → Except VizError (List Json)
  | [] => .ok []
  | (filterId, filterScope) :: rest => do
      let own ← if ← inScope layerIndex filterScope
        then iterate (Dict.getD mapping filterId (.list []))
        else pure []
      return own ++ (← scopedFilters layerIndex mapping rest)

def members : Json → Except VizError FormData
  | .object entries => .ok entries
  | _ => .error (.other "AttributeError")

def processExtraFormDataFilters (layerIndex : Nat) (layerFilterScope : Json)
    (filterDataMapping extraFormData : Json) :
    Except VizError Json := do
  if !extraFormData.truthy || !filterDataMapping.truthy then return extraFormData
  let filters ← scopedFilters layerIndex (← members filterDataMapping) (← members layerFilterScope)
  return .object (Dict.set (← members extraFormData) "filters" (.list filters))

/-- `_apply_layer_filtering`: `own` is the form data of the map, `formData` that of a layer. -/
def applyLayerFiltering (own formData : FormData) (layerIndex : Nat) :
    Except VizError FormData := do
  let layerFilterScope := Dict.getD own "layer_filter_scope" (.object [])
  if !layerFilterScope.truthy then
    return Dict.update formData
      [("extra_filters", Dict.getD own "extra_filters" (.list [])),
        ("adhoc_filters", Dict.getD own "adhoc_filters" .null),
        ("extra_form_data", Dict.getD own "extra_form_data" .null)]
  let extraFilters ← filterItemsByScope (Dict.getD own "extra_filters" (.list []))
  let adhocFilters ← filterItemsByScope (Dict.getD own "adhoc_filters" (.list []))
  let extraFormData ← processExtraFormDataFilters layerIndex layerFilterScope
    (Dict.getD own "filter_data_mapping" (.object []))
      (Dict.getD own "extra_form_data" (.object []))
  return Dict.update formData
    [("extra_filters", extraFilters), ("adhoc_filters", adhocFilters),
      ("extra_form_data", extraFormData)]

def construct (vizClass : VizClass DataFrame) (table : SqlaTable) (formData : FormData) :
    Except VizError (Viz DataFrame) :=
  (vizClass.init formData).map fun formData => ⟨table, formData, vizClass⟩

def vizClassOf (vizType : Json) : Option (VizClass DataFrame) :=
  match vizType with
  | .str name => (site.vizTypes.find? fun entry => entry.1 = name).map Prod.snd
  | _ => none

/-- The `IN` of integer keys. -/
def sliceIds (value : Json) : Except VizError (List Int) :=
  match value with
  | .list items => items.mapM fun item =>
    match item with
    | .int n => .ok n
    | _ => .error (.other "DBAPIError")
  | _ => .error (.other "ArgumentError")

/-- One turn of the loop over the slices: `none` for `continue`.  The registry is asked without
the denylist. -/
def layerViz (own : FormData) (slice : Slice) (layerIndex : Nat) :
    Except VizError (Option (String × Viz DataFrame)) := do
  let formData ← applyLayerFiltering own (← slice.formData site.str) layerIndex
  match Dict.getD formData "viz_type" .null with
  | .str name =>
    match vizClassOf site (.str name), site.tables.find? fun table =>
      slice.datasourceId = some table.id with
    | some vizClass, some table => return some (name, ← construct vizClass table formData)
    | _, _ => return none
  | _ => return none

def layerVizzes (own : FormData) (slices : List Slice) :
    List (String × Except VizError (Viz DataFrame)) :=
  slices.zipIdx.filterMap fun (slice, layerIndex) =>
    match layerViz site own slice layerIndex with
    | .error e => some ("", .error e)
    | .ok none => none
    | .ok (some (name, viz)) => some (name, .ok viz)

def mergeFeatures (layers : List (String × Payload)) : Dict (List Json) :=
  (Lib.Groups.collect (layers.filterMap fun layer =>
    (layer.2.data.bind VizData.featuresOf).map fun items => (layer.1, items))).map fun group =>
      (group.1, group.2.flatten)

/-- The reads behind the features that a layer hands to the map: those of a map inside the
map are only the names of visualisation types. -/
def Payload.layerReads (payload : Payload) : List Read :=
  match payload.data with
  | some (.features _ _) => payload.reads
  | _ => []

def node (viz : Viz DataFrame) : Node VizError (Viz DataFrame) Payload :=
  match viz.vizClass with
  | .base methods => .leaf (getPayload site user methods viz.formData viz.datasource)
  | .deckGLMultiLayer _ =>
    let deckSlices := Dict.getD viz.formData "deck_slices" .null
    if !deckSlices.truthy then .leaf (.ok (.of (some (.layers [] site.mapboxApiKey [])) []))
    else
      match sliceIds deckSlices with
      | .error e => .leaf (.error e)
      | .ok ids =>
        let slices := site.slices.filter fun slice => (slice.id : Int) ∈ ids
        let layers := layerVizzes site viz.formData slices
        .branch (layers.map Prod.snd) fun payloads =>
          .of (some (.layers (mergeFeatures ((layers.map Prod.fst).zip payloads)) site.mapboxApiKey
            (slices.map Slice.data))) (payloads.flatMap Payload.layerReads)

end Payloads

structure AnnotationLayer where
  name : String
  sourceType : Option String
  value : Nat
  overrides : FormData := []

structure NativeLayer where
  id : Nat
  annotation : List FormData

inductive AnnotationData where
  | native (columns : List String) (records : List FormData)
  | viz (data : VizData) (reads : List Read)

def AnnotationData.reads : AnnotationData → List Read
  | .native _ _ => []
  | .viz _ reads => reads

/-- `annotationLayers` is what the annotation DAO finds, `none` without such a DAO. -/
structure Processor where
  annotationLayers : Option (List NativeLayer) := none
  hasChartDao : Bool := false
  recursionDepth : Nat := 0

/-- The processors that the program builds: no caller hands over a DAO of charts, and the
processor of an annotation chart is given what the one that builds it has. -/
inductive Built : Processor → Prop
  | caller (annotationLayers : Option (List NativeLayer)) : Built { annotationLayers }
  | nested {processor : Processor} (builder : Built processor) :
      Built { processor with recursionDepth := processor.recursionDepth + 1 }

def nativeColumns : List String :=
  ["start_dttm", "end_dttm", "short_descr", "long_descr", "json_metadata"]

def addNative (stored : List NativeLayer) (data : Dict AnnotationData) (layer : AnnotationLayer) :
    Dict AnnotationData :=
  match stored.find? fun native => native.id = layer.value with
  | none => data
  | some native => Dict.set data layer.name (.native nativeColumns
      (native.annotation.map fun row => nativeColumns.map fun column =>
        (column, Json.get row column)))

def getNativeAnnotationData (processor : Processor) (layers : List AnnotationLayer) :
    Dict AnnotationData :=
  match processor.annotationLayers with
  | none => []
  | some stored =>
    (layers.filter fun layer => layer.sourceType = some "NATIVE").foldl (addNative stored) []

def MAX_RECURSION_DEPTH : Nat := 2

def chartNotFound (layer : AnnotationLayer) : String :=
  "Chart with ID " ++ toString layer.value ++ " (referenced by annotation layer '" ++ layer.name ++
    "') was not found. Please verify that the chart exists and is accessible."

def datasetNotFound (chart : Slice) (layer : AnnotationLayer) : String :=
  "The dataset for chart ID " ++ toString chart.id ++ " (referenced by annotation layer '" ++
    layer.name ++ "') was not found. Please check that the dataset exists and is accessible."

def queryContextNotFound (chart : Slice) (layer : AnnotationLayer) : String :=
  "The query context for chart ID " ++ toString chart.id ++ " (referenced by annotation layer '" ++
    layer.name ++
      "') was not found. Please ensure the chart is properly configured and has a valid query context."

def VizError.reraised : VizError → VizError
  | .queryObjectValidationError message => .queryObjectValidationError message
  | .supersetSecurityException message => .queryObjectValidationError message
  | .supersetException message => .queryObjectValidationError message
  | .other type => .other type

section Processing
variable {DataFrame : Type} (site : Site DataFrame) (user : User)

/-- The `table` relationship of a chart. -/
def datasourceOf (chart : Slice) : Option SqlaTable :=
  if chart.datasourceType = some "table" then
    site.tables.find? fun table => chart.datasourceId = some table.id
  else none

def isActive (vizType : Option String) : Bool :=
  vizType.any fun name => Dict.has site.vizTypes name && name ∉ site.vizTypeDenylist

def isDenied (vizType : Json) : Bool :=
  match vizType with
  | .str name => name ∈ site.vizTypeDenylist
  | _ => false

/-- A type outside the registry is a `BaseViz`; lists and dicts are no keys of it. -/
def getViz (table : SqlaTable) (formData : FormData) : Except VizError (Viz DataFrame) :=
  let vizType := Dict.getD formData "viz_type" (.str "table")
  if isDenied site vizType then
    .error (.supersetException
      ("Visualization type '" ++ site.str vizType ++ "' has been disabled by the administrator."))
  else
    match vizType with
    | .list _ | .object _ => .error (.other "TypeError")
    | _ => construct ((vizClassOf site vizType).getD (.base site.baseViz)) table formData

/-- `get_viz_annotation_data` up to the payload.  A `Slice` has no `get_query_context`, so
that a chart of a type outside the registry raises before the branch for query contexts. -/
def annotationViz (processor : Processor) (layer : AnnotationLayer) :
    Except VizError (Viz DataFrame) :=
  if processor.recursionDepth ≥ MAX_RECURSION_DEPTH then
    .error (.queryObjectValidationError
      ("Annotation recursion depth exceeded (max=" ++ toString MAX_RECURSION_DEPTH ++ ")"))
  else if !processor.hasChartDao then
    .error (.queryObjectValidationError "Chart DAO not available for annotations")
  else
    match site.slices.find? fun slice => slice.id = layer.value with
    | none => .error (.queryObjectValidationError (chartNotFound layer))
    | some chart =>
      if isActive site chart.vizType then
        match datasourceOf site chart with
        | none => .error (.queryObjectValidationError (datasetNotFound chart layer))
        | some table =>
          do getViz site table (Dict.update (← chart.formData site.str) layer.overrides)
      else .error (.queryObjectValidationError (queryContextNotFound chart layer))

/-- `payload.get("data") or []` -/
def dataOrEmpty : Option VizData → VizData
  | none => .records []
  | some (.dict []) => .records []
  | some data => data

def vizLayers (layers : List AnnotationLayer) : List AnnotationLayer :=
  layers.filter fun layer => layer.sourceType = some "line" || layer.sourceType = some "table"

def getAnnotationData (fuel : Nat) (processor : Processor) (layers : List AnnotationLayer) :
    Option (Except VizError (Dict AnnotationData)) :=
  (visit (walk (node site user) fuel) ((vizLayers layers).map (annotationViz site processor))).map
    fun result =>
    match result with
    | .error e => .error e.reraised
    | .ok payloads => .ok (Dict.update (getNativeAnnotationData processor layers)
        (((vizLayers layers).zip payloads).map fun layer =>
          (layer.1.name, .viz (dataOrEmpty layer.2.data) layer.2.reads)))

def datasourceAccessErrorObject (table : SqlaTable) : Access.SupersetError where
  errorType := "DATASOURCE_SECURITY_ACCESS_ERROR"
  message := "This endpoint requires the datasource " ++ toString table.id ++
    ", database or `all_datasource_access` permission"
  level := "warning"

/-- `raise_for_access(datasource=…)` -/
def raiseForAccess (table : SqlaTable) : Except Access.SupersetError Unit :=
  if Access.canAccessDatasourceSchema site.grants user table.source
      || Access.hasAccess site.grants user Access.datasourceAccess (table.source.perm.getD "")
      || Access.isOwner site.settings user table.source.owners then .ok ()
  else .error (datasourceAccessErrorObject table)

end Processing

end Liteset.Charts.Annotations
