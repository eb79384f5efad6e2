import Liteset.Assets.ImportRefs

/-!
# When an import renames every reference

The map from old to new ids is given by the charts of the position with a known uuid.  The
intended result has every chart id of the configuration renamed by it, and dropped where the
map has none.  `update_id_refs` returns that result exactly under the conditions of `Sound`.
-/

set_option autoImplicit false

namespace Liteset.Assets

open Lib Dashboard List

def newId (position : Position) (chartIds : String → Option Int) (old : Int) : Option Int :=
  (charts position).findSome? fun chart => if chart.2 = some old then chartIds chart.1 else none

/-- The position and the uuids give an injective map of ids. -/
def IsIdMap (position : Position) (chartIds : String → Option Int) : Prop :=
  ∀ first ∈ charts position, ∀ second ∈ charts position, (chartIds first.1).isSome →
    (chartIds second.1).isSome →
    (first.2 = second.2 ↔ chartIds first.1 = chartIds second.1)

section Intended
variable {β : Type} (newId : Int → Option Int)

def Entry.renamed : Entry → Entry
  | .text value => .text value
  | .component c =>
    if c.type = .chart
      then .component
        { c with details := { c.details with chartId := c.details.chartId.bind newId } }
    else .component c

def keptList (entries : List (String × β)) : List (String × Int × β) :=
  entries.filterMap fun entry => ((PyText.parseInt entry.1).bind newId).map fun new =>
    (toString new, new, entry.2)

def kept (entries : List (String × β)) : JsMap String (Int × β) :=
  JsMap.ofEntries (keptList newId entries)

def FilterAttributes.renamed (attributes : FilterAttributes) : FilterAttributes :=
  { attributes with immune := attributes.immune.map (·.filterMap newId) }

def Target.renamed (datasetInfo : String → Option Int) (target : Target) : Target where
  datasetUuid := none
  datasetId :=
    match target.datasetUuid with
    | none => target.datasetId
    | some uuid => if uuid = "" then target.datasetId else datasetInfo uuid
  others := target.others

def NativeFilter.renamed (datasetInfo : String → Option Int) (filter : NativeFilter) :
    NativeFilter where
  targets := filter.targets.map (Target.renamed datasetInfo)
  excluded := filter.excluded.filterMap newId
  chartsInScope := filter.chartsInScope.filterMap newId

def CrossFilterScope.renamed : CrossFilterScope → CrossFilterScope
  | .pointer text => .pointer text
  | .scope excluded => .scope (excluded.filterMap newId)

/-- The configuration of the chart with the id `new`; its own id counts as a reference. -/
def ChartConfiguration.renamed (new : Int) : ChartConfiguration → ChartConfiguration
  | .configured id crossFilters =>
    .configured (id.elim (some new) newId)
      { scope := crossFilters.scope.map (CrossFilterScope.renamed newId)
        chartsInScope := crossFilters.chartsInScope.filterMap newId }
  | .other value => .other value

def Metadata.renamed (datasetInfo : String → Option Int) (metadata : Metadata) : Metadata where
  timedRefreshImmuneSlices := metadata.timedRefreshImmuneSlices.map (·.filterMap newId)
  filterScopes := metadata.filterScopes.map fun scopes =>
    (kept newId scopes.entries).mapValues fun scope =>
      scope.2.map fun column => (column.1, column.2.renamed newId)
  expandedSlices :=
    metadata.expandedSlices.map fun slices => (kept newId slices.entries).mapValues Prod.snd
  defaultFilters := metadata.defaultFilters.map fun text =>
    text.map fun filters => (kept newId filters.entries).mapValues Prod.snd
  nativeFilterConfiguration :=
    metadata.nativeFilterConfiguration.map (NativeFilter.renamed newId datasetInfo)
  globalChartConfiguration := metadata.globalChartConfiguration.map fun scoping =>
    { excluded := scoping.excluded.filterMap newId,
      chartsInScope := scoping.chartsInScope.filterMap newId }
  chartConfiguration := metadata.chartConfiguration.map fun configurations =>
    (kept newId configurations.entries).mapValues fun configuration =>
      configuration.2.renamed newId configuration.1

def Config.renamed (datasetInfo : String → Option Int) (config : Config) : Config where
  position := config.position.mapValues (Entry.renamed newId)
  metadata := config.metadata.renamed newId datasetInfo

def Fixed (ids : List Int) : Prop := ids.filterMap newId = ids

/-- Where an import succeeds and leaves no old id. -/
structure Sound (chartIds datasetInfo : String → Option Int) (config : Config) : Prop where
  identified : Identified config.position
  unknownPlaced : ∀ key c, (key, Entry.component c) ∈ config.position.entries → c.type = .chart →
    c.details.uuid.bind chartIds = none → c.details.chartId.bind newId = c.details.chartId
  immuneSlices : ∀ ids ∈ config.metadata.timedRefreshImmuneSlices, ∀ old ∈ ids, (newId old).isSome
  filterScopes : ∀ scopes ∈ config.metadata.filterScopes,
    (∀ entry ∈ scopes.entries, (PyText.parseInt entry.1).isSome) ∧
      ∀ entry ∈ (kept newId scopes.entries).entries, listsImmune entry.2.2
  expandedSlices : ∀ slices ∈ config.metadata.expandedSlices, ∀ entry ∈ slices.entries,
    ((PyText.parseInt entry.1).bind newId).isSome
  defaultFilters : ∀ text ∈ config.metadata.defaultFilters, ∃ filters, text = some filters ∧
    ∀ entry ∈ filters.entries, (PyText.parseInt entry.1).isSome
  datasets : ∀ filter ∈ config.metadata.nativeFilterConfiguration, ∀ target ∈ filter.targets,
    ∀ uuid ∈ target.datasetUuid, uuid ≠ "" → (datasetInfo uuid).isSome
  filtersInScope : ∀ filter ∈ config.metadata.nativeFilterConfiguration,
    Fixed newId filter.chartsInScope
  globalInScope : ∀ scoping ∈ config.metadata.globalChartConfiguration,
    Fixed newId scoping.chartsInScope
  configurations : ∀ configurations ∈ config.metadata.chartConfiguration,
    ∀ entry ∈ (kept newId configurations.entries).entries, ∀ id crossFilters,
      entry.2.2 = ChartConfiguration.configured id crossFilters →
        (∀ own ∈ id, newId own = some entry.2.1) ∧ Fixed newId crossFilters.chartsInScope

end Intended

section IdMap
variable {position : Position} {chartIds : String → Option Int}

theorem newId_iff (isMap : IsIdMap position chartIds) {old new : Int} :
    newId position chartIds old = some new ↔
    ∃ uuid, (uuid, some old) ∈ charts position ∧ chartIds uuid = some new := by
  unfold newId
  constructor
  · intro found
    obtain ⟨⟨uuid, id⟩, member, hit⟩ := exists_of_findSome?_eq_some found
    dsimp only at hit
    split at hit
    · next isOld =>
      subst isOld
      exact ⟨uuid, member, hit⟩
    · cases hit
  · rintro ⟨uuid, member, known⟩
    cases found : (charts position).findSome? fun chart => if chart.2 = some old
      then chartIds chart.1 else none with
    | none =>
      have misses := findSome?_eq_none_iff.mp found _ member
      rw [if_pos rfl, known] at misses
      cases misses
    | some other =>
      obtain ⟨⟨uuid', id⟩, member', hit⟩ := exists_of_findSome?_eq_some found
      dsimp only at hit
      split at hit
      · next isOld =>
        have same := (isMap _ member' _ member (by rw [hit]; rfl) (by rw [known]; rfl)).mp isOld
        rw [← hit, same, known]
      · cases hit

theorem idMap_get (isMap : IsIdMap position chartIds) {ids : JsMap String Int}
    (built : buildUuidToIdMap position = .ok ids) :
    (idMap ids chartIds).get = newId position chartIds := by
  obtain ⟨identified, rfl⟩ := buildUuidToIdMap_ok_iff.mp built
  funext old
  apply Option.ext
  intro new
  rw [newId_iff isMap, JsMap.get_eq_some_iff]
  have listed {u : String} {o n : Int}
    (entry : (u, o) ∈ (JsMap.ofEntries (placed position)).entries)
      (known : chartIds u = some n) :
      (o, n) ∈ (JsMap.ofEntries (placed position)).entries.filterMap fun entry =>
        (chartIds entry.1).map fun new => (entry.2, new) :=
    mem_filterMap.mpr ⟨(u, o), entry, by rw [known]; rfl⟩
  have origin {o n : Int}
    (entry : (o, n) ∈ (idMap (JsMap.ofEntries (placed position)) chartIds).entries) :
      ∃ uuid, (uuid, some o) ∈ charts position ∧ chartIds uuid = some n := by
    obtain ⟨⟨u, i⟩, chart, known⟩ := mem_filterMap.mp (JsMap.mem_of_mem_ofEntries entry)
    obtain ⟨n', isNew, same⟩ := Option.map_eq_some_iff.mp known
    cases same
    exact ⟨u, (mem_placed_iff identified).mp (JsMap.mem_of_mem_ofEntries chart), isNew⟩
  constructor
  · exact origin
  · rintro ⟨uuid, chart, known⟩
    obtain ⟨o, last⟩ := JsMap.key_mem_ofEntries ((mem_placed_iff identified).mpr chart)
    have lastChart := (mem_placed_iff identified).mp (JsMap.mem_of_mem_ofEntries last)
    have isSome : (chartIds uuid).isSome := by rw [known]; rfl
    have same := (isMap _ lastChart _ chart isSome isSome).mpr rfl
    cases same
    obtain ⟨n, entry⟩ := JsMap.key_mem_ofEntries (listed last known)
    obtain ⟨uuid', chart', known'⟩ := origin entry
    have isSome' : (chartIds uuid').isSome := by rw [known']; rfl
    have sameNew := (isMap _ chart' _ chart isSome' isSome).mp rfl
    dsimp only at sameNew
    rw [known', known] at sameNew
    cases sameNew
    exact entry

end IdMap

section Updates
variable {β : Type} {newId : Int → Option Int}

attribute [local irreducible] PyText.parseInt

theorem readId_ok_iff {text : String} {id : Int} : readId text = .ok id ↔
    PyText.parseInt text = some id := by
  unfold readId
  cases PyText.parseInt text <;> simp

theorem lookUp_ok_iff (old new : Int) :
    lookUp newId old = .ok new ↔ (newId old).isSome = true ∧ new = (newId old).getD 0 := by
  unfold lookUp
  cases newId old <;> simp [eq_comm]

theorem map_getD_eq {α γ : Type} {f : α → Option γ} (default : γ) (items : List α)
    (each : ∀ a ∈ items, (f a).isSome = true) :
    items.map (fun a => (f a).getD default) = items.filterMap f := by
  induction items with
  | nil => rfl
  | cons a items ih =>
    obtain ⟨first, rest⟩ := forall_mem_cons.mp each
    obtain ⟨value, found⟩ := Option.isSome_iff_exists.mp first
    rw [map_cons, filterMap_cons_some found, ih rest, found]
    rfl

theorem updateImmuneSlices_ok_iff (ids out : List Int) :
    updateImmuneSlices newId ids = .ok out ↔ (∀ old ∈ ids, (newId old).isSome = true) ∧
    out = ids.filterMap newId := by
  rw [updateImmuneSlices, Fallible.mapM_ok_iff lookUp_ok_iff]
  constructor
  · rintro ⟨known, rfl⟩
    exact ⟨known, map_getD_eq 0 ids known⟩
  · rintro ⟨known, rfl⟩
    exact ⟨known, (map_getD_eq 0 ids known).symm⟩

theorem keepKnown_ok_iff (entries out : List (String × β)) :
    keepKnown newId entries = .ok out ↔
      (∀ entry ∈ entries, (PyText.parseInt entry.1).isSome = true) ∧
        out = (keptList newId entries).map fun entry => (entry.1, entry.2.2) := by
  induction entries generalizing out with
  | nil =>
    rw [keepKnown]
    exact ⟨fun done => ⟨fun _ none => absurd none not_mem_nil, (Except.ok.inj done).symm⟩,
      fun done => congrArg Except.ok done.2.symm⟩
  | cons entry entries ih =>
    obtain ⟨text, value⟩ := entry
    rw [keepKnown, Fallible.bind_eq_ok_iff, forall_mem_cons]
    have rest (later : List (String × β))
      (read : ∀ entry ∈ entries, (PyText.parseInt entry.1).isSome = true) :
        keepKnown newId entries = .ok later ↔ later = (keptList newId entries).map fun entry =>
          (entry.1, entry.2.2) := by
      rw [ih]
      exact and_iff_right read
    cases parsed : PyText.parseInt text with
    | none =>
      constructor
      · rintro ⟨old, read, _⟩
        rw [readId_ok_iff, parsed] at read
        cases read
      · rintro ⟨⟨isSome, _⟩, _⟩
        cases isSome
    | some old =>
      have read : readId text = .ok old := readId_ok_iff.mpr parsed
      have renamed : keptList newId ((text, value) :: entries) =
          ((newId old).map fun new => (toString new, new, value)).toList ++
            keptList newId entries := by
        unfold keptList
        cases found : newId old with
        | none => rw [filterMap_cons_none (by simp [parsed, found])]; rfl
        | some new =>
          rw [filterMap_cons_some (b := (toString new, new, value)) (by simp [parsed, found])]; rfl
      rw [renamed]
      constructor
      · rintro ⟨o, isOld, continues⟩
        rw [read] at isOld
        cases isOld
        obtain ⟨later, listed, result⟩ := Fallible.ok_of_bind continues
        obtain ⟨readable, rfl⟩ := (ih later).mp listed
        refine ⟨⟨rfl, readable⟩, ?_⟩
        cases found : newId old with
        | none => rw [found] at result; exact (Except.ok.inj result).symm
        | some new => rw [found] at result; exact (Except.ok.inj result).symm
      · rintro ⟨⟨_, readable⟩, rfl⟩
        refine ⟨old, read, ?_⟩
        rw [(rest _ readable).mpr rfl]
        cases newId old <;> rfl

theorem ofEntries_keptList (entries : List (String × β)) :
    JsMap.ofEntries ((keptList newId entries).map fun entry => (entry.1, entry.2.2)) =
      (kept newId entries).mapValues Prod.snd := (JsMap.mapValues_ofEntries Prod.snd _).symm

theorem updateFilterScopes_ok_iff (scopes out : JsMap String (List (String × FilterAttributes))) :
    updateFilterScopes newId scopes = .ok out ↔
      ((∀ entry ∈ scopes.entries, (PyText.parseInt entry.1).isSome = true) ∧
          ∀ entry ∈ (kept newId scopes.entries).entries, listsImmune entry.2.2 = true) ∧
        out = (kept newId scopes.entries).mapValues fun scope =>
          scope.2.map fun column => (column.1, column.2.renamed newId) := by
  have immune : (((kept newId scopes.entries).mapValues Prod.snd).entries.all fun entry =>
    listsImmune entry.2) = true ↔
      ∀ entry ∈ (kept newId scopes.entries).entries, listsImmune entry.2.2 = true := by
    simp only [JsMap.mapValues, all_map, all_eq_true, Function.comp]
  have values : ((kept newId scopes.entries).mapValues Prod.snd).mapValues (updateColumns newId) =
      (kept newId scopes.entries).mapValues fun scope =>
        scope.2.map fun column => (column.1, column.2.renamed newId) := by
    simp only [JsMap.mapValues, map_map]
    rfl
  rw [updateFilterScopes, Fallible.bind_eq_ok_iff]
  constructor
  · rintro ⟨entries, listed, result⟩
    obtain ⟨readable, rfl⟩ := (keepKnown_ok_iff _ _).mp listed
    dsimp only at result
    rw [ofEntries_keptList] at result
    split at result
    · next holds =>
      rw [← values]
      exact ⟨⟨readable, immune.mp holds⟩, (Except.ok.inj result).symm⟩
    · cases result
  · rintro ⟨⟨readable, holds⟩, rfl⟩
    refine ⟨_, (keepKnown_ok_iff _ _).mpr ⟨readable, rfl⟩, ?_⟩
    dsimp only
    rw [ofEntries_keptList, if_pos (immune.mpr holds), values]
    rfl

theorem updateExpandedSlices_ok_iff (slices out : JsMap String Json) :
    updateExpandedSlices newId slices = .ok out ↔
      (∀ entry ∈ slices.entries, ((PyText.parseInt entry.1).bind newId).isSome = true) ∧
        out = (kept newId slices.entries).mapValues Prod.snd := by
  have each : ∀ (entry out : String × Json),
      (do let old ← readId entry.1
          let new ← lookUp newId old
          return (toString new, entry.2)) = Except.ok (ε := AssetError) out ↔
        ((PyText.parseInt entry.1).bind newId).isSome = true ∧
          out = (toString (((PyText.parseInt entry.1).bind newId).getD 0), entry.2) := by
    intro entry out
    rw [Fallible.bind_eq_ok_iff]
    constructor
    · rintro ⟨old, read, rest⟩
      obtain ⟨new, found, result⟩ := Fallible.ok_of_bind rest
      obtain ⟨isSome, rfl⟩ := (lookUp_ok_iff old new).mp found
      rw [readId_ok_iff.mp read, Option.bind_some]
      exact ⟨isSome, (Except.ok.inj result).symm⟩
    · rintro ⟨isSome, rfl⟩
      obtain ⟨new, found⟩ := Option.isSome_iff_exists.mp isSome
      obtain ⟨old, read, isNew⟩ := Option.bind_eq_some_iff.mp found
      refine ⟨old, readId_ok_iff.mpr read, ?_⟩
      rw [(lookUp_ok_iff old new).mpr ⟨by rw [isNew]; rfl, by rw [isNew]; rfl⟩, found]
      rfl
  have listed (known : ∀ entry ∈ slices.entries,
    ((PyText.parseInt entry.1).bind newId).isSome = true) :
      slices.entries.map
        (fun entry => (toString (((PyText.parseInt entry.1).bind newId).getD 0), entry.2)) =
        (keptList newId slices.entries).map fun entry => (entry.1, entry.2.2) := by
    have each (entry : String × Json)
      (isSome : ((PyText.parseInt entry.1).bind newId).isSome = true) :
        (((PyText.parseInt entry.1).bind newId).map fun new =>
          (toString new, new, entry.2)).isSome = true ∧
          (toString (((PyText.parseInt entry.1).bind newId).getD 0), entry.2) =
            (fun kept : String × Int × Json => (kept.1, kept.2.2))
              ((((PyText.parseInt entry.1).bind newId).map fun new =>
                (toString new, new, entry.2)).getD ("", 0, .null)) := by
      obtain ⟨new, found⟩ := Option.isSome_iff_exists.mp isSome
      rw [found]
      exact ⟨rfl, rfl⟩
    rw [keptList, ← map_getD_eq ("", 0, Json.null) _ fun entry member =>
      (each entry (known entry member)).1,
      map_map]
    exact map_congr_left fun entry member => (each entry (known entry member)).2
  rw [updateExpandedSlices, Fallible.map_eq_ok_iff]
  constructor
  · rintro ⟨entries, done, rfl⟩
    obtain ⟨known, rfl⟩ := (Fallible.mapM_ok_iff each _ _).mp done
    exact ⟨known, by rw [listed known, ofEntries_keptList]⟩
  · rintro ⟨known, rfl⟩
    exact ⟨_, (Fallible.mapM_ok_iff each _ _).mpr ⟨known, rfl⟩,
      by rw [listed known, ofEntries_keptList]⟩

theorem updateDefaultFilters_ok_iff (text out : Option (JsMap String Json)) :
    updateDefaultFilters newId text = .ok out ↔
      (∃ filters, text = some filters ∧ ∀ entry ∈ filters.entries,
        (PyText.parseInt entry.1).isSome = true) ∧
        out = text.map fun filters => (kept newId filters.entries).mapValues Prod.snd := by
  cases text with
  | none => exact ⟨nofun, fun fine => nomatch fine.1⟩
  | some filters =>
    rw [updateDefaultFilters, Fallible.map_eq_ok_iff]
    constructor
    · rintro ⟨entries, listed, rfl⟩
      obtain ⟨readable, rfl⟩ := (keepKnown_ok_iff _ _).mp listed
      exact ⟨⟨filters, rfl, readable⟩, by rw [ofEntries_keptList]; rfl⟩
    · rintro ⟨⟨_, isFilters, readable⟩, rfl⟩
      cases isFilters
      exact ⟨_, (keepKnown_ok_iff _ _).mpr ⟨readable, rfl⟩, by rw [ofEntries_keptList]; rfl⟩

theorem updateTarget_ok_iff {datasetInfo : String → Option Int} (target out : Target) :
    updateTarget datasetInfo target = .ok out ↔
      (∀ uuid ∈ target.datasetUuid, uuid ≠ "" → (datasetInfo uuid).isSome = true) ∧
      out = target.renamed datasetInfo := by
  obtain ⟨datasetUuid, datasetId, others⟩ := target
  unfold updateTarget Target.renamed
  cases datasetUuid with
  | none =>
    exact ⟨fun done => ⟨nofun, (Except.ok.inj done).symm⟩,
      fun fine => congrArg Except.ok fine.2.symm⟩
  | some uuid =>
    by_cases blank : uuid = ""
    · simp only [if_pos blank]
      exact ⟨fun done =>
        ⟨fun _ same named => absurd (Option.some.inj same ▸ blank) named,
          (Except.ok.inj done).symm⟩, fun fine => congrArg Except.ok fine.2.symm⟩
    · simp only [if_neg blank]
      cases found : datasetInfo uuid with
      | none => exact ⟨nofun, fun fine => by simpa [found] using fine.1 uuid rfl blank⟩
      | some id =>
        exact ⟨fun done =>
          ⟨fun _ same _ => by rw [← Option.some.inj same, found]; rfl, (Except.ok.inj done).symm⟩,
          fun fine => congrArg Except.ok fine.2.symm⟩

theorem updateNativeFilter_ok_iff {datasetInfo : String → Option Int} (filter out : NativeFilter) :
    updateNativeFilter newId datasetInfo filter = .ok out ↔
      (∀ target ∈ filter.targets, ∀ uuid ∈ target.datasetUuid, uuid ≠ "" →
        (datasetInfo uuid).isSome = true) ∧
        out = { filter.renamed newId datasetInfo with chartsInScope := filter.chartsInScope } := by
  rw [updateNativeFilter, Fallible.map_eq_ok_iff]
  constructor
  · rintro ⟨targets, done, rfl⟩
    obtain ⟨known, rfl⟩ := (Fallible.mapM_ok_iff updateTarget_ok_iff _ _).mp done
    exact ⟨known, rfl⟩
  · rintro ⟨known, rfl⟩
    exact ⟨_, (Fallible.mapM_ok_iff updateTarget_ok_iff _ _).mpr ⟨known, rfl⟩, rfl⟩

theorem updateChartConfigurations_eq (configurations : JsMap String ChartConfiguration) :
    updateChartConfigurations newId configurations =
      (kept newId configurations.entries).mapValues fun configuration =>
        updateChartConfiguration newId configuration.1 configuration.2 := by
  unfold kept updateChartConfigurations
  rw [JsMap.mapValues_ofEntries, JsMap.ofEntries, keptList, map_filterMap, foldl_filterMap]
  congr 1
  funext updated entry
  cases (PyText.parseInt entry.1).bind newId <;> rfl

end Updates

section Whole
variable {config : Config} {chartIds datasetInfo : String → Option Int}

/-- What an update that succeeds leaves: everything renamed but the charts that no uuid of the
position gives an id, the lists of charts in scope, and the ids inside the configurations. -/
def updated (chartIds datasetInfo : String → Option Int) (config : Config) : Config :=
  let newId := newId config.position chartIds
  { position := config.position.mapValues (updateChartId chartIds)
    metadata := { config.metadata.renamed newId datasetInfo with
      nativeFilterConfiguration := config.metadata.nativeFilterConfiguration.map fun filter =>
        { filter.renamed newId datasetInfo with chartsInScope := filter.chartsInScope }
      globalChartConfiguration := config.metadata.globalChartConfiguration.map fun scoping =>
        { scoping with excluded := scoping.excluded.filterMap newId }
      chartConfiguration := config.metadata.chartConfiguration.map fun configurations =>
        (kept newId configurations.entries).mapValues fun configuration =>
          updateChartConfiguration newId configuration.1 configuration.2 } }

structure Runs (newId : Int → Option Int) (datasetInfo : String → Option Int) (config : Config) :
    Prop where
  identified : Identified config.position
  immuneSlices : ∀ ids ∈ config.metadata.timedRefreshImmuneSlices, ∀ old ∈ ids, (newId old).isSome
  filterScopes : ∀ scopes ∈ config.metadata.filterScopes,
    (∀ entry ∈ scopes.entries, (PyText.parseInt entry.1).isSome) ∧
      ∀ entry ∈ (kept newId scopes.entries).entries, listsImmune entry.2.2
  expandedSlices : ∀ slices ∈ config.metadata.expandedSlices, ∀ entry ∈ slices.entries,
    ((PyText.parseInt entry.1).bind newId).isSome
  defaultFilters : ∀ text ∈ config.metadata.defaultFilters, ∃ filters, text = some filters ∧
    ∀ entry ∈ filters.entries, (PyText.parseInt entry.1).isSome
  datasets : ∀ filter ∈ config.metadata.nativeFilterConfiguration, ∀ target ∈ filter.targets,
    ∀ uuid ∈ target.datasetUuid, uuid ≠ "" → (datasetInfo uuid).isSome

theorem updateIdRefs_ok_iff (isMap : IsIdMap config.position chartIds) (after : Config) :
    updateIdRefs config chartIds datasetInfo = .ok after ↔
      Runs (newId config.position chartIds) datasetInfo config ∧
      after = updated chartIds datasetInfo config := by
  have scoping :
    config.metadata.chartConfiguration.map
      (updateChartConfigurations (newId config.position chartIds)) =
      config.metadata.chartConfiguration.map fun configurations =>
        (kept (newId config.position chartIds) configurations.entries).mapValues
          fun configuration =>
          updateChartConfiguration (newId config.position chartIds) configuration.1
            configuration.2 := by
    rw [funext updateChartConfigurations_eq]
  rw [updateIdRefs, Fallible.bind_eq_ok_iff]
  constructor
  · rintro ⟨ids, built, rest⟩
    rw [idMap_get isMap built] at rest
    obtain ⟨_, immune, rest⟩ := Fallible.ok_of_bind rest
    obtain ⟨_, scopes, rest⟩ := Fallible.ok_of_bind rest
    obtain ⟨_, slices, rest⟩ := Fallible.ok_of_bind rest
    obtain ⟨_, filters, rest⟩ := Fallible.ok_of_bind rest
    obtain ⟨_, natives, rest⟩ := Fallible.ok_of_bind rest
    obtain ⟨immuneSlices, rfl⟩ := (Fallible.onField_ok_iff updateImmuneSlices_ok_iff _ _).mp immune
    obtain ⟨filterScopes, rfl⟩ := (Fallible.onField_ok_iff updateFilterScopes_ok_iff _ _).mp scopes
    obtain ⟨expandedSlices, rfl⟩ :=
      (Fallible.onField_ok_iff updateExpandedSlices_ok_iff _ _).mp slices
    obtain ⟨defaultFilters, rfl⟩ :=
      (Fallible.onField_ok_iff updateDefaultFilters_ok_iff _ _).mp filters
    obtain ⟨datasets, rfl⟩ := (Fallible.mapM_ok_iff updateNativeFilter_ok_iff _ _).mp natives
    refine ⟨⟨(buildUuidToIdMap_ok_iff.mp built).1, immuneSlices, filterScopes, expandedSlices,
      defaultFilters, datasets⟩, ?_⟩
    rw [← Except.ok.inj rest, updateCrossFilterScoping, scoping]
    rfl
  · rintro ⟨runs, rfl⟩
    have built := buildUuidToIdMap_ok_iff.mpr ⟨runs.identified, rfl⟩
    refine ⟨_, built, ?_⟩
    rw [idMap_get isMap built]
    dsimp only
    rw [(Fallible.onField_ok_iff updateImmuneSlices_ok_iff _ _).mpr ⟨runs.immuneSlices, rfl⟩,
      (Fallible.onField_ok_iff updateFilterScopes_ok_iff _ _).mpr ⟨runs.filterScopes, rfl⟩,
      (Fallible.onField_ok_iff updateExpandedSlices_ok_iff _ _).mpr ⟨runs.expandedSlices, rfl⟩,
      (Fallible.onField_ok_iff updateDefaultFilters_ok_iff _ _).mpr ⟨runs.defaultFilters, rfl⟩,
      (Fallible.mapM_ok_iff updateNativeFilter_ok_iff _ _).mpr ⟨runs.datasets, rfl⟩]
    show Except.ok _ = Except.ok _
    rw [updateCrossFilterScoping, scoping]
    rfl

theorem entry_renamed_iff (isMap : IsIdMap config.position chartIds)
    (identified : Identified config.position)
    {key : String} {c : Component} (member : (key, Entry.component c) ∈ config.position.entries) :
    updateChartId chartIds (.component c) = (Entry.component c).renamed
      (newId config.position chartIds) ↔
      (c.type = .chart → c.details.uuid.bind chartIds = none →
        c.details.chartId.bind (newId config.position chartIds) = c.details.chartId) := by
  unfold updateChartId Entry.renamed
  by_cases isChart : c.type = .chart
  · simp only [if_pos isChart]
    cases known : c.details.uuid.bind chartIds with
    | none =>
      constructor
      · intro same _ _
        injection same with same
        exact (congrArg (fun c : Component => c.details.chartId) same).symm
      · intro fixed
        rw [fixed isChart rfl]
    | some new =>
      obtain ⟨uuid, hasUuid, isKnown⟩ := Option.bind_eq_some_iff.mp known
      have listed : (uuid, c.details.chartId) ∈ charts config.position :=
        mem_filterMap.mpr ⟨.component c, mem_map_of_mem member, by
          show (if c.type = .chart then _ else _) = _
          rw [if_pos isChart, hasUuid]
          rfl⟩
      obtain ⟨old, hasId⟩ := Option.isSome_iff_exists.mp (identified _ listed)
      dsimp only at hasId
      rw [hasId] at listed
      rw [hasId, Option.bind_some, (newId_iff isMap).mpr ⟨uuid, listed, isKnown⟩]
      exact ⟨fun _ _ => nofun, fun _ => rfl⟩
  · simp only [if_neg isChart]
    exact ⟨fun _ chart => absurd chart isChart, fun _ => trivial⟩

theorem position_renamed_iff (isMap : IsIdMap config.position chartIds)
    (identified : Identified config.position) :
    config.position.mapValues (updateChartId chartIds) =
        config.position.mapValues (Entry.renamed (newId config.position chartIds)) ↔
      ∀ key c, (key, Entry.component c) ∈ config.position.entries → c.type = .chart →
        c.details.uuid.bind chartIds = none →
          c.details.chartId.bind (newId config.position chartIds) = c.details.chartId := by
  rw [JsMap.mapValues_eq_iff]
  constructor
  · intro each key c member
    exact (entry_renamed_iff isMap identified member).mp (each _ member)
  · rintro each ⟨key, _ | c⟩ member
    · rfl
    · exact (entry_renamed_iff isMap identified member).mpr (each key c member)

theorem option_map_eq_iff {α β : Type} {f g : α → β} {field : Option α} :
    field.map f = field.map g ↔ ∀ a ∈ field, f a = g a := by
  cases field <;> simp

theorem filter_renamed_iff {newId : Int → Option Int} (filter : NativeFilter) :
    { filter.renamed newId datasetInfo with chartsInScope := filter.chartsInScope } =
      filter.renamed newId datasetInfo ↔
      Fixed newId filter.chartsInScope := by
  rw [NativeFilter.renamed, NativeFilter.mk.injEq]
  exact ⟨fun same => same.2.2.symm, fun fixed => ⟨rfl, rfl, fixed.symm⟩⟩

theorem configuration_renamed_iff {newId : Int → Option Int} (new : Int)
    (configuration : ChartConfiguration) :
    updateChartConfiguration newId new configuration = configuration.renamed newId new ↔
      ∀ id crossFilters, configuration = .configured id crossFilters →
        (∀ own ∈ id, newId own = some new) ∧ Fixed newId crossFilters.chartsInScope := by
  cases configuration with
  | other value => exact ⟨fun _ _ _ => nofun, fun _ => rfl⟩
  | configured id crossFilters =>
    have scopes : updateScope newId = CrossFilterScope.renamed newId := by
      funext scope
      cases scope <;> rfl
    have own : some new = id.elim (some new) newId ↔ ∀ own ∈ id, newId own = some new := by
      cases id <;> simp [eq_comm]
    rw [updateChartConfiguration, ChartConfiguration.renamed, scopes]
    constructor
    · intro same
      injection same with sameId sameFilters
      rintro _ _ ⟨⟩
      exact ⟨own.mp sameId, (congrArg CrossFilters.chartsInScope sameFilters).symm⟩
    · intro fixed
      obtain ⟨sameId, inScope⟩ := fixed id crossFilters rfl
      rw [← own.mpr sameId, inScope]

end Whole

def sales : Position := JsMap.ofEntries [
  ("CHART-1", .component
    { type := .chart, id := "CHART-1", details := { chartId := some 101, uuid := some "uuid1" } }),
  ("CHART-2", .component
    { type := .chart, id := "CHART-2", details := { chartId := some 102, uuid := some "uuid2" } })]

def salesIds : String → Option Int
  | "uuid1" => some 1
  | "uuid2" => some 2
  | _ => none

def salesMetadata : Metadata where
  timedRefreshImmuneSlices := some [102]
  filterScopes :=
    some (JsMap.ofEntries [("101", [("region", { immune := some [102, 103] })]), ("104", [])])
  nativeFilterConfiguration := [{ excluded := [101, 103] }]
  chartConfiguration :=
    some (JsMap.ofEntries [("101", .configured (some 101) { scope := some (.scope [102, 103]) }),
      ("104", .other .null)])

end Liteset.Assets
