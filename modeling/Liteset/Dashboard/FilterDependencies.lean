import Liteset.Lib.Cycles
import Liteset.Lib.JsObject

/-!
# Dependencies between native filters

The modal that configures native filters offers, for each filter, the filters it may
depend on.  It looks for cycles in a map of the filters whose forms have been opened;
the others are known from the saved configuration only.
-/

set_option autoImplicit false

namespace Liteset.Dashboard.FilterDependencies

open Lib
open Lib.Cycles (insertEdge)
open Lib.Forest (Acyclic Under)
open Lib.JsObject (Record)

/-- An entry of the form; `none` where the object lacks the key. -/
structure FormItem where
  name : Option String
  title : Option String
  filterType : Option String
  dependencies : Option (List String)

structure ConfigItem where
  name : Option String
  title : Option String
  filterType : Option String
  cascadeParentIds : Option (List String)

structure Modal where
  /-- `form.getFieldValue('filters')` -/
  filters : Option (Record (Option FormItem))
  /-- `formValues.filters`, the copy that titles are read from. -/
  formValues : Record FormItem
  filterConfigMap : Record ConfigItem
  /-- The filters being configured, those pending removal among them. -/
  filterIds : List String
  removedFilters : List String

def allowDependencies : List String := ["filter_range", "filter_select", "filter_time"]

variable (modal : Modal)

/-- `form.getFieldValue('filters')?.[id]` -/
def Modal.formItem (id : String) : Option FormItem :=
  (modal.filters.bind fun filters => filters.entry id).join

def Modal.HasFormEntry (id : String) : Prop :=
  ∃ filters, modal.filters = some filters ∧ id ∈ filters.keys

def getFilterTitle (id : String) : String :=
  let formValue := modal.formValues.entry id
  let config := modal.filterConfigMap.entry id
  (([formValue.bind FormItem.name, formValue.bind FormItem.title, config.bind ConfigItem.name,
      config.bind ConfigItem.title].reduceOption.find? fun text => text ≠ "").getD "[untitled]")

def canBeUsedAsDependency (filterId : String) : Bool :=
  if filterId ∈ modal.removedFilters then false
  else
    let filterType := match modal.formItem filterId with
      | some item => item.filterType
      | none => (modal.filterConfigMap.entry filterId).bind ConfigItem.filterType
    match filterType with
    | some type => type ∈ allowDependencies
    | none => false

abbrev DependencyMap := Record (List String)

theorem fewer_untraced {keys trace : List String} {id : String} (listed : id ∈ keys)
    (untraced : id ∉ trace) :
    (keys.filter fun k => k ∉ trace ++ [id]).length < (keys.filter fun k => k ∉ trace).length := by
  have inside : (keys.filter fun k => k ∉ trace ++ [id]) =
      (keys.filter fun k => k ∉ trace).filter fun k => k ≠ id := by
    rw [List.filter_filter]
    exact List.filter_congr fun k _ => by simp [and_comm]
  rw [inside]
  refine List.length_filter_lt_length_iff_exists.mpr ⟨id, ?_, by simp⟩
  simpa using ⟨listed, untraced⟩

def hasCircularDependency (dependencyMap : DependencyMap) (filterId : String)
    (trace : List String) : Bool :=
  if _traced : filterId ∈ trace then true
  else
    match _found : dependencyMap.entry filterId with
    | some dependencies =>
      dependencies.any fun dependency =>
        hasCircularDependency dependencyMap dependency (trace ++ [filterId])
    | none => false
termination_by (dependencyMap.keys.filter fun k => k ∉ trace).length
decreasing_by
  exact fewer_untraced (dependencyMap.listed filterId (by simp [_found])) _traced

def dependencyArray (formItem : Option FormItem) (configItem : Option ConfigItem) : List String :=
  match formItem.bind FormItem.dependencies with
  | some dependencies => dependencies
  | none => (configItem.bind ConfigItem.cascadeParentIds).getD []

def buildDependencyMap : DependencyMap :=
  match modal.filters with
  | none => Record.empty
  | some filters =>
    (Record.enumerate filters.keys).foldl
      (fun map key =>
        map.set key (dependencyArray (modal.formItem key) (modal.filterConfigMap.entry key)))
      Record.empty

structure Offer where
  label : String
  value : String
  type : Option String

def getAvailableFilters (filterId : String) : List Offer :=
  let dependencyMap := buildDependencyMap modal
  ((modal.filterIds.filter fun id => id ≠ filterId).filter fun id =>
    canBeUsedAsDependency modal id).filter
      (fun id =>
        let currentDependencies := (dependencyMap.entry filterId).getD []
        let testDependencies := currentDependencies ++ [id]
        !hasCircularDependency (dependencyMap.set filterId testDependencies) filterId [])
    |>.map fun id =>
      { label := getFilterTitle modal id
        value := id
        type := (modal.filterConfigMap.entry id).bind ConfigItem.filterType }

section Walk
variable {dependencyMap : DependencyMap} {filterId : String} {trace : List String}

/-- `y` is among the dependencies the map gives `x`. -/
def MapEdge (dependencyMap : DependencyMap) (x y : String) : Prop :=
  ∃ dependencies, dependencyMap.entry x = some dependencies ∧ y ∈ dependencies

/-- Some filter that `start` leads to depends on itself. -/
def ReachesCycle (edge : String → String → Prop) (start : String) : Prop :=
  ∃ x, Under edge start x ∧ Relation.TransGen edge x x

theorem reachesCycle_of_walk (found : hasCircularDependency dependencyMap filterId trace = true)
    (led : ∀ t ∈ trace, Relation.TransGen (MapEdge dependencyMap) t filterId) :
    ReachesCycle (MapEdge dependencyMap) filterId := by
  fun_induction hasCircularDependency dependencyMap filterId trace with
  | case1 filterId trace traced => exact ⟨filterId, .refl, led filterId traced⟩
  | case2 filterId trace traced dependencies entry ih =>
    obtain ⟨dependency, member, found⟩ := List.any_eq_true.mp found
    have edge : MapEdge dependencyMap filterId dependency := ⟨dependencies, entry, member⟩
    obtain ⟨x, reached, cycle⟩ := ih dependency found fun t inTrace => by
      rcases List.mem_append.mp inTrace with old | new
      · exact (led t old).tail edge
      · rw [List.mem_singleton.mp new]
        exact .single edge
    exact ⟨x, reached.head edge, cycle⟩
  | case3 => cases found

theorem walk_complete (none : hasCircularDependency dependencyMap filterId trace = false) :
    ∀ x, Under (MapEdge dependencyMap) filterId x →
      x ∉ trace ∧ ¬Relation.TransGen (MapEdge dependencyMap) x x := by
  fun_induction hasCircularDependency dependencyMap filterId trace with
  | case1 => cases none
  | case2 filterId trace traced dependencies entry ih =>
    have below : ∀ dependency, MapEdge dependencyMap filterId dependency →
        ∀ x, Under (MapEdge dependencyMap) dependency x →
          x ∉ trace ++ [filterId] ∧ ¬Relation.TransGen (MapEdge dependencyMap) x x := by
      rintro dependency ⟨others, same, member⟩
      rw [entry] at same
      cases same
      exact ih dependency (Bool.eq_false_iff.mpr (List.any_eq_false.mp none dependency member))
    intro x reached
    rcases Relation.ReflTransGen.cases_head reached with rfl | ⟨dependency, first, rest⟩
    · refine ⟨traced, fun cycle => ?_⟩
      obtain ⟨dependency, first, rest⟩ := Relation.TransGen.head'_iff.mp cycle
      exact (below dependency first filterId rest).1 (by simp)
    · obtain ⟨untraced, acyclic⟩ := below dependency first x rest
      exact ⟨fun inTrace => untraced (List.mem_append_left _ inTrace), acyclic⟩
  | case3 filterId trace traced entry =>
    have leaf : ∀ y, ¬MapEdge dependencyMap filterId y := by
      rintro y ⟨dependencies, same, _⟩
      rw [entry] at same
      cases same
    intro x reached
    rw [Forest.under_leaf leaf reached]
    refine ⟨traced, fun cycle => ?_⟩
    obtain ⟨y, first, _⟩ := Relation.TransGen.head'_iff.mp cycle
    exact leaf y first

/-- Called without a trace, `hasCircularDependency` tells whether a cycle can be reached. -/
theorem hasCircularDependency_eq_true (dependencyMap : DependencyMap) (filterId : String) :
    hasCircularDependency dependencyMap filterId [] = true ↔
      ReachesCycle (MapEdge dependencyMap) filterId := by
  refine ⟨fun found => reachesCycle_of_walk found (by simp), fun cyclic => ?_⟩
  obtain ⟨x, reached, cycle⟩ := cyclic
  cases walked : hasCircularDependency dependencyMap filterId [] with
  | true => rfl
  | false => exact absurd cycle (walk_complete walked x reached).2

end Walk

def effectiveDependencies (id : String) : List String :=
  dependencyArray (modal.formItem id) (modal.filterConfigMap.entry id)

def addDependency (graph : String → List String) (filterId id : String) : String → List String :=
  fun x => if x = filterId then graph x ++ [id] else graph x

def Edge (graph : String → List String) (x y : String) : Prop := y ∈ graph x

theorem edge_addDependency (graph : String → List String) (filterId id : String) :
    Edge (addDependency graph filterId id) = insertEdge (Edge graph) filterId id := by
  funext x y
  unfold Edge addDependency insertEdge
  by_cases same : x = filterId
  · simp [same]
  · simp [same]

def FormEdge (x y : String) : Prop := modal.HasFormEntry x ∧ y ∈ effectiveDependencies modal x

theorem entry_foldl_set (array : String → List String) (keys : List String) (k : String) :
    ∀ map : DependencyMap, (keys.foldl (fun map key => map.set key (array key)) map).entry k =
      if k ∈ keys then some (array k) else map.entry k := by
  induction keys with
  | nil => simp
  | cons key rest ih =>
    intro map
    rw [List.foldl_cons, ih, Record.entry_set]
    by_cases later : k ∈ rest
    · simp [later]
    · by_cases same : k = key
      · simp [same]
      · simp [later, same]

theorem mapEdge_buildDependencyMap : MapEdge (buildDependencyMap modal) = FormEdge modal := by
  funext x y
  refine propext ?_
  unfold MapEdge FormEdge Modal.HasFormEntry buildDependencyMap
  cases form : modal.filters with
  | none => simp
  | some filters =>
    dsimp only
    rw [entry_foldl_set _ (Record.enumerate filters.keys) x Record.empty]
    by_cases entered : x ∈ filters.keys
    · simp [Record.mem_enumerate, entered, effectiveDependencies]
    · simp [Record.mem_enumerate, entered]

theorem mapEdge_set (map : DependencyMap) (filterId id : String) :
    MapEdge (map.set filterId ((map.entry filterId).getD [] ++ [id])) =
      insertEdge (MapEdge map) filterId id := by
  funext x y
  refine propext ?_
  unfold MapEdge insertEdge
  rw [Record.entry_set]
  by_cases same : x = filterId
  · subst same
    cases entry : map.entry x with
    | none => simp [entry]
    | some dependencies => simp [entry]
  · simp [same]

def Pickable (filterId id : String) : Prop :=
  id ∈ modal.filterIds ∧ id ≠ filterId ∧ canBeUsedAsDependency modal id = true

variable {modal} in
theorem formEdge_edge {x y : String} (edge : FormEdge modal x y) :
    Edge (effectiveDependencies modal) x y :=
  edge.2

/-- On an acyclic graph the walk from a filter finds a cycle exactly when the filter to
be added leads back to it through opened forms. -/
theorem hasCircularDependency_added (acyclic : Acyclic (Edge (effectiveDependencies modal)))
    (filterId id : String) :
    hasCircularDependency
        ((buildDependencyMap modal).set filterId
          (((buildDependencyMap modal).entry filterId).getD [] ++ [id])) filterId [] = true ↔
      Under (FormEdge modal) id filterId := by
  rw [hasCircularDependency_eq_true, mapEdge_set, mapEdge_buildDependencyMap]
  have acyclicForm : Acyclic (FormEdge modal) := fun x cycle =>
    acyclic x (Relation.TransGen.mono (fun _ _ => formEdge_edge) x x cycle)
  constructor
  · rintro ⟨x, _, cycle⟩
    exact Cycles.under_of_cycle acyclicForm cycle
  · intro back
    exact ⟨filterId, .refl, Cycles.cycle_insertEdge back⟩

theorem mem_getAvailableFilters (acyclic : Acyclic (Edge (effectiveDependencies modal)))
    (filterId id : String) :
    (∃ offer ∈ getAvailableFilters modal filterId, offer.value = id) ↔
      Pickable modal filterId id ∧ ¬Under (FormEdge modal) id filterId := by
  have walked := hasCircularDependency_added modal acyclic filterId id
  unfold getAvailableFilters Pickable
  simp only [List.mem_map, List.mem_filter, decide_eq_true_eq, Bool.not_eq_true', and_assoc]
  constructor
  · rintro ⟨_, ⟨picked, configured, other, usable, none, rfl⟩, rfl⟩
    refine ⟨configured, other, usable, fun back => ?_⟩
    rw [walked.mpr back] at none
    cases none
  · rintro ⟨configured, other, usable, unseen⟩
    exact ⟨_, ⟨id, configured, other, usable, Bool.eq_false_iff.mpr fun found =>
      unseen (walked.mp found), rfl⟩, rfl⟩

/-- Each filter that could be picked for this one and depends on it does so through
filters whose forms have been opened. -/
def SeesDependents (filterId : String) : Prop :=
  ∀ id, Pickable modal filterId id → Under (Edge (effectiveDependencies modal)) id filterId →
    Under (FormEdge modal) id filterId

/-- Adding to a filter what is offered for it closes no cycle. -/
def KeepsAcyclic (filterId : String) : Prop :=
  ∀ offer ∈ getAvailableFilters modal filterId,
    Acyclic (Edge (addDependency (effectiveDependencies modal) filterId offer.value))

/-- What is offered for a filter closes no cycle exactly when the forms opened so far
show which filters depend on it; and the test for cycles always ends with the truth. -/
theorem offers_acyclic_iff (acyclic : Acyclic (Edge (effectiveDependencies modal)))
    (filterId : String) :
    (KeepsAcyclic modal filterId ↔ SeesDependents modal filterId)
      ∧ ∀ (dependencyMap : DependencyMap) (start : String),
          hasCircularDependency dependencyMap start [] = true ↔
            ReachesCycle (MapEdge dependencyMap) start := by
  refine ⟨?_, hasCircularDependency_eq_true⟩
  have offered := mem_getAvailableFilters modal acyclic filterId
  constructor
  · intro keeps id pickable back
    by_contra unseen
    obtain ⟨offer, member, rfl⟩ := (offered id).mpr ⟨pickable, unseen⟩
    have kept := keeps offer member
    rw [edge_addDependency, Cycles.acyclic_insertEdge_iff acyclic] at kept
    exact kept back
  · intro sees offer member
    obtain ⟨pickable, unseen⟩ := (offered offer.value).mp ⟨offer, member, rfl⟩
    rw [edge_addDependency, Cycles.acyclic_insertEdge_iff acyclic]
    exact fun back => unseen (sees offer.value pickable back)

def savedFilter (parents : List String) : ConfigItem :=
  { name := none, title := none, filterType := some "filter_select",
    cascadeParentIds := some parents }

def savedFilters : Record ConfigItem :=
  (Record.empty.set "region" (savedFilter [])).set "city" (savedFilter ["region"])

def opened (forms : Record (Option FormItem)) : Modal :=
  { filters := some forms
    formValues := Record.empty
    filterConfigMap := savedFilters
    filterIds := ["region", "city"]
    removedFilters := [] }

def formOf (dependencies : List String) : Option FormItem :=
  some { name := none, title := none, filterType := some "filter_select",
         dependencies := some dependencies }

def regionOpened : Modal := opened (Record.empty.set "region" (formOf []))

def bothOpened : Modal :=
  opened ((Record.empty.set "region" (formOf [])).set "city" (formOf ["region"]))

def OnlyCity (modal : Modal) : Prop :=
  ∀ x y, Edge (effectiveDependencies modal) x y ↔ x = "city" ∧ y = "region"

theorem acyclic_of_onlyCity {modal : Modal} (only : OnlyCity modal) :
    Acyclic (Edge (effectiveDependencies modal)) := by
  intro x cycle
  obtain ⟨y, first, _⟩ := Relation.TransGen.head'_iff.mp cycle
  obtain ⟨z, _, last⟩ := Relation.TransGen.tail'_iff.mp cycle
  have start := ((only x y).mp first).1
  have fin := ((only z x).mp last).2
  rw [start] at fin
  exact absurd fin (by decide)

theorem onlyCity_regionOpened : OnlyCity regionOpened := by
  intro x y
  by_cases region : x = "region"
  · subst region
    simp [Edge, effectiveDependencies, dependencyArray, regionOpened, opened,
      Modal.formItem, formOf]
  · by_cases city : x = "city"
    · subst city
      simp [Edge, effectiveDependencies, dependencyArray, regionOpened, opened, Modal.formItem,
        savedFilters, savedFilter]
    · simp [Edge, effectiveDependencies, dependencyArray, regionOpened, opened, Modal.formItem,
        savedFilters, region, city]

theorem onlyCity_bothOpened : OnlyCity bothOpened := by
  intro x y
  by_cases region : x = "region"
  · subst region
    simp [Edge, effectiveDependencies, dependencyArray, bothOpened, opened, Modal.formItem, formOf]
  · by_cases city : x = "city"
    · subst city
      simp [Edge, effectiveDependencies, dependencyArray, bothOpened, opened,
        Modal.formItem, formOf]
    · simp [Edge, effectiveDependencies, dependencyArray, bothOpened, opened, Modal.formItem,
        savedFilters, region, city]

theorem bothOpened_keepsAcyclic : KeepsAcyclic bothOpened "region" := by
  have acyclic := acyclic_of_onlyCity onlyCity_bothOpened
  refine (offers_acyclic_iff bothOpened acyclic "region").1.mpr fun id _ back => ?_
  refine Relation.ReflTransGen.mono (fun x y edge => ⟨⟨_, rfl, ?_⟩, edge⟩) id "region" back
  rw [((onlyCity_bothOpened x y).mp edge).1]
  decide

/-- With the form of the region filter alone, the city filter is offered for it. -/
theorem regionOpened_closes_cycle :
    Acyclic (Edge (effectiveDependencies regionOpened))
      ∧ (∃ offer ∈ getAvailableFilters regionOpened "region", offer.value = "city")
      ∧ ¬KeepsAcyclic regionOpened "region" := by
  have acyclic := acyclic_of_onlyCity onlyCity_regionOpened
  have offered := (mem_getAvailableFilters regionOpened acyclic "region" "city").mpr
    ⟨⟨by decide, by decide, by decide⟩, fun back => by
      have leaf : ∀ c, ¬FormEdge regionOpened "city" c := by
        rintro c ⟨⟨filters, form, entered⟩, _⟩
        cases form
        exact absurd entered (by decide)
      exact absurd (Forest.under_leaf leaf back) (by decide)⟩
  refine ⟨acyclic, offered, fun keeps => ?_⟩
  obtain ⟨offer, member, value⟩ := offered
  have kept := keeps offer member
  rw [value, edge_addDependency, Cycles.acyclic_insertEdge_iff acyclic] at kept
  exact kept (.single ((onlyCity_regionOpened "city" "region").mpr ⟨rfl, rfl⟩))

end Liteset.Dashboard.FilterDependencies
