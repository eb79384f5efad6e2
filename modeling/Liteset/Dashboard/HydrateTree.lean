import Liteset.Lib.Paths
import Liteset.Lib.Cycles
import Liteset.Dashboard.Hydrate

/-!
# Stored layouts as trees

Hanging a fresh component below one that is reached keeps the tree, and
`updateComponentParentsList` turns the parents of all it reaches into their paths.
-/

set_option autoImplicit false

namespace Liteset.Dashboard.Hydrate

open Lib List
open Lib.Forest (Under SingleParent)
open Lib.Paths (Path)
open Lib.JsObject (Record)

section Components
variable {layout : StoredLayout} {key child k : String} {component : StoredComponent}

theorem entry_of_componentAt (found : componentAt layout k = some component) :
    layout.entry k = some (.component component) := by
  unfold componentAt at found
  split at found
  · rename_i entry
    cases found
    exact entry
  · cases found

theorem componentAt_of_entry (found : layout.entry k = some (.component component)) :
    componentAt layout k = some component := by
  unfold componentAt
  rw [found]

theorem childrenOf_of_componentAt (found : componentAt layout k = some component) :
    childrenOf layout k = component.children := by
  unfold childrenOf
  rw [found]
  rfl

theorem exists_component_of_child {parent : String} (edge : Child layout parent child) :
    ∃ component, componentAt layout parent = some component ∧ child ∈ component.children := by
  unfold Child childrenOf at edge
  cases found : componentAt layout parent with
  | none =>
    rw [found] at edge
    exact (not_mem_nil edge).elim
  | some component =>
    rw [found] at edge
    exact ⟨component, rfl, edge⟩

@[simp] theorem componentAt_set :
    componentAt (layout.set key (.component component)) k
      = if k = key then some component else componentAt layout k := by
  unfold componentAt
  rw [Record.entry_set]
  by_cases same : k = key
  · rw [if_pos same, if_pos same]
  · rw [if_neg same, if_neg same]

theorem componentAt_pushChild :
    componentAt (pushChild layout key child) k
      = if k = key then
          (componentAt layout key).map fun component =>
            { component with children := component.children ++ [child] }
        else componentAt layout k := by
  unfold pushChild
  cases found : componentAt layout key with
  | none =>
    by_cases same : k = key
    · rw [if_pos same, same, found]
      rfl
    · rw [if_neg same]
  | some component => exact componentAt_set

def lackingAt (layout : StoredLayout) (key : String) : Bool := (layout.entry key).any lacksParents

theorem not_lackingAt {parents : List String} (found : componentAt layout k = some component)
    (given : component.parents = some parents) : lackingAt layout k = false := by
  unfold lackingAt
  rw [entry_of_componentAt found]
  show (decide (component.id ≠ dashboardRootId) && component.parents.isNone) = false
  rw [given]
  exact Bool.and_false _

theorem lackingAt_set :
    lackingAt (layout.set key (.component component)) k
      = if k = key then lacksParents (.component component) else lackingAt layout k := by
  unfold lackingAt
  rw [Record.entry_set]
  by_cases same : k = key
  · rw [if_pos same, if_pos same]
    rfl
  · rw [if_neg same, if_neg same]

theorem lackingAt_pushChild : lackingAt (pushChild layout key child) k = lackingAt layout k := by
  unfold pushChild
  cases found : componentAt layout key with
  | none => rfl
  | some component =>
    dsimp only
    rw [lackingAt_set]
    by_cases same : k = key
    · rw [if_pos same, same]
      unfold lackingAt
      rw [entry_of_componentAt found]
      rfl
    · rw [if_neg same]

theorem any_lacksParents_iff : layout.values.any lacksParents = true ↔
    ∃ k, lackingAt layout k = true := by
  rw [any_eq_true]
  constructor
  · rintro ⟨entry, listed, lacks⟩
    obtain ⟨k, found⟩ := Record.mem_values.mp listed
    refine ⟨k, ?_⟩
    unfold lackingAt
    rw [found]
    exact lacks
  · rintro ⟨k, lacks⟩
    unfold lackingAt at lacks
    cases found : layout.entry k with
    | none =>
      rw [found] at lacks
      cases lacks
    | some entry =>
      rw [found] at lacks
      exact ⟨entry, Record.mem_values.mpr ⟨k, found⟩, lacks⟩

end Components

/-- The components form a tree below `ROOT_ID`; what is not reached is no chart and
has no children. -/
structure Tree (layout : StoredLayout) : Prop where
  keyed : ∀ k component, componentAt layout k = some component → component.id = k
  rootType : ∃ root, componentAt layout dashboardRootId = some root ∧ root.type = .root
  rootOnTop : ∀ a, ¬Child layout a dashboardRootId
  listed : ∀ a b, Child layout a b → componentAt layout b ≠ none
  distinct : ∀ k, (childrenOf layout k).Nodup
  single : SingleParent (Child layout)
  aside : ∀ k component, componentAt layout k = some component →
    ¬Under (Child layout) dashboardRootId k → component.type ≠ .chart ∧ component.children = []

/-- The parents of what is reached are its path; the root needs no list. -/
def Exact (layout : StoredLayout) : Prop :=
  ∀ k component, componentAt layout k = some component → Under (Child layout) dashboardRootId k →
    Path (Child layout) dashboardRootId (component.parents.getD []) k

def StoredComponent.shape (component : StoredComponent) :
    String × ComponentType × List String × Option Int :=
  (component.id, component.type, component.children, component.chartId)

def SameShape (before after : StoredLayout) : Prop :=
  ∀ k, (componentAt after k).map StoredComponent.shape =
    (componentAt before k).map StoredComponent.shape

section Shape
variable {first second third : StoredLayout} {k : String} {component : StoredComponent}

theorem SameShape.refl (layout : StoredLayout) : SameShape layout layout := fun _ => rfl

theorem SameShape.symm (same : SameShape first second) : SameShape second first :=
  fun k => (same k).symm

theorem SameShape.trans (one : SameShape first second) (two : SameShape second third) :
    SameShape first third := fun k => (two k).trans (one k)

theorem SameShape.exists_component (same : SameShape first second)
    (found : componentAt second k = some component) :
    ∃ before, componentAt first k = some before ∧ before.shape = component.shape := by
  have shapes := same k
  rw [found, Option.map_some] at shapes
  exact Option.map_eq_some_iff.mp shapes.symm

theorem SameShape.childrenOf_eq (same : SameShape first second) (k : String) :
    childrenOf second k = childrenOf first k := by
  unfold childrenOf
  cases found : componentAt second k with
  | none =>
    have shapes := same k
    rw [found, Option.map_none] at shapes
    rw [Option.map_eq_none_iff.mp shapes.symm]
  | some component =>
    obtain ⟨before, found', shapes⟩ := same.exists_component found
    rw [found']
    exact (congrArg (fun shape => shape.2.2.1) shapes).symm

theorem SameShape.child_eq (same : SameShape first second) : Child second = Child first := by
  funext parent child
  exact congrArg (fun children => child ∈ children) (same.childrenOf_eq parent)

theorem Tree.of_sameShape (tree : Tree first) (same : SameShape first second) : Tree second := by
  have children := same.childrenOf_eq
  have edges := same.child_eq
  refine ⟨?_, ?_, ?_, ?_, ?_, ?_, ?_⟩
  · intro k component found
    obtain ⟨before, found', shapes⟩ := same.exists_component found
    exact (congrArg Prod.fst shapes).symm.trans (tree.keyed k before found')
  · obtain ⟨root, found, type⟩ := tree.rootType
    obtain ⟨after, found', shapes⟩ := same.symm.exists_component found
    exact ⟨after, found', (congrArg (fun shape => shape.2.1) shapes).trans type⟩
  · rw [edges]
    exact tree.rootOnTop
  · intro a b edge absent
    rw [edges] at edge
    have shapes := same b
    rw [absent, Option.map_none] at shapes
    exact tree.listed a b edge (Option.map_eq_none_iff.mp shapes.symm)
  · intro k
    rw [children]
    exact tree.distinct k
  · rw [edges]
    exact tree.single
  · intro k component found outside
    rw [edges] at outside
    obtain ⟨before, found', shapes⟩ := same.exists_component found
    obtain ⟨noChart, empty⟩ := tree.aside k before found' outside
    refine ⟨fun chart => noChart ?_, ?_⟩
    · exact (congrArg (fun shape => shape.2.1) shapes).trans chart
    · exact (congrArg (fun shape => shape.2.2.1) shapes).symm.trans empty

theorem sameShape_set {key : String} {before after : StoredComponent}
    (found : componentAt first key = some before)
    (shapes : after.shape = before.shape) : SameShape first (first.set key (.component after)) := by
  intro k
  rw [componentAt_set]
  by_cases same : k = key
  · rw [if_pos same, same, found, Option.map_some, Option.map_some, shapes]
  · rw [if_neg same]

end Shape

section TreeFacts
variable {layout : StoredLayout} (tree : Tree layout)
include tree

theorem Tree.component_of_under {k : String} (reached : Under (Child layout) dashboardRootId k) :
    ∃ component, componentAt layout k = some component := by
  rcases Forest.under_cases reached with same | ⟨p, _, last⟩
  · subst same
    obtain ⟨root, found, _⟩ := tree.rootType
    exact ⟨root, found⟩
  · exact Option.ne_none_iff_exists'.mp (tree.listed p k last)

theorem Tree.under_of_child {p k : String} (edge : Child layout p k) :
    Under (Child layout) dashboardRootId p := by
  obtain ⟨component, found, member⟩ := exists_component_of_child edge
  by_contra outside
  rw [(tree.aside p component found outside).2] at member
  exact not_mem_nil member

theorem Tree.path_nodup {above : List String} {k : String}
    (path : Path (Child layout) dashboardRootId above k) :
    above.Nodup := path.nodup tree.single tree.rootOnTop

theorem Tree.path_length_le {above : List String} {k : String}
    (path : Path (Child layout) dashboardRootId above k) : above.length ≤ layout.keys.length := by
  refine (subperm_of_subset (tree.path_nodup path) ?_).length_le
  intro a member
  obtain ⟨component, found⟩ :=
    tree.component_of_under ((Path.mem_iff tree.single tree.rootOnTop path).mp member).1
  apply layout.listed
  rw [entry_of_componentAt found]
  exact Option.some_ne_none _

end TreeFacts

/-- The component is stored under its id and listed last among the children of `p`. -/
def hang (layout : StoredLayout) (p : String) (component : StoredComponent) : StoredLayout :=
  pushChild (layout.set component.id (.component component)) p component.id

section Hang
variable {layout : StoredLayout} {p k : String} {parent component : StoredComponent}

theorem componentAt_hang (found : componentAt layout p = some parent) (other : p ≠ component.id) :
    componentAt (hang layout p component) k
      = if k = p then some { parent with children := parent.children ++ [component.id] }
        else if k = component.id then some component else componentAt layout k := by
  unfold hang
  rw [componentAt_pushChild, componentAt_set, componentAt_set, if_neg other, found]
  rfl

theorem childrenOf_hang (found : componentAt layout p = some parent) (other : p ≠ component.id)
    (leaf : component.children = []) (unused : childrenOf layout component.id = []) :
    childrenOf (hang layout p component) k
      = if k = p then childrenOf layout p ++ [component.id] else childrenOf layout k := by
  by_cases above : k = p
  · subst above
    rw [if_pos rfl, childrenOf_of_componentAt found]
    have now : componentAt (hang layout k component) k
        = some { parent with children := parent.children ++ [component.id] } := by
      rw [componentAt_hang found other, if_pos rfl]
    exact childrenOf_of_componentAt now
  · rw [if_neg above]
    unfold childrenOf
    rw [componentAt_hang found other, if_neg above]
    by_cases same : k = component.id
    · subst same
      rw [if_pos rfl, Option.map_some, leaf]
      exact unused.symm
    · rw [if_neg same]

theorem child_of_set (leaf : component.children = []) {key a b : String}
    (edge : Child (layout.set key (.component component)) a b) : Child layout a b := by
  change b ∈ childrenOf _ a at edge
  unfold childrenOf at edge
  rw [componentAt_set] at edge
  by_cases same : a = key
  · rw [if_pos same, Option.map_some, leaf] at edge
    exact (not_mem_nil edge).elim
  · rw [if_neg same] at edge
    exact edge

theorem child_of_hang (leaf : component.children = []) {a b : String}
    (edge : Child (hang layout p component) a b) : Child layout a b ∨ a = p := by
  by_cases same : a = p
  · exact Or.inr same
  · change b ∈ childrenOf _ a at edge
    unfold hang childrenOf at edge
    rw [componentAt_pushChild, if_neg same] at edge
    exact Or.inl (child_of_set leaf edge)

theorem Tree.childrenOf_outside (tree : Tree layout)
    (outside : ¬Under (Child layout) dashboardRootId component.id) :
    childrenOf layout component.id = [] := by
  cases children : childrenOf layout component.id with
  | nil => rfl
  | cons child rest =>
    refine (outside (tree.under_of_child (k := child) ?_)).elim
    show child ∈ childrenOf layout component.id
    rw [children]
    exact mem_cons_self

theorem ne_of_outside (reached : Under (Child layout) dashboardRootId p)
    (outside : ¬Under (Child layout) dashboardRootId component.id) : p ≠ component.id := by
  rintro rfl
  exact outside reached

variable (tree : Tree layout) (reached : Under (Child layout) dashboardRootId p)
  (outside : ¬Under (Child layout) dashboardRootId component.id) (leaf : component.children = [])
include tree reached outside leaf

theorem Tree.child_hang :
    Child (hang layout p component) = Cycles.insertEdge (Child layout) p component.id := by
  obtain ⟨parent, found⟩ := tree.component_of_under reached
  have other := ne_of_outside reached outside
  have unused := tree.childrenOf_outside outside
  funext a b
  show (b ∈ childrenOf (hang layout p component) a) = _
  rw [childrenOf_hang found other leaf unused]
  apply propext
  by_cases above : a = p
  · subst above
    rw [if_pos rfl, mem_append, mem_singleton]
    exact ⟨fun member => member.imp_right fun same => ⟨rfl, same⟩,
      fun edge => edge.imp_right And.right⟩
  · rw [if_neg above]
    exact ⟨Or.inl, fun edge => edge.elim id fun new => (above new.1).elim⟩

theorem Tree.under_hang_iff :
    Under (Child (hang layout p component)) dashboardRootId k
      ↔ Under (Child layout) dashboardRootId k ∨ k = component.id := by
  rw [tree.child_hang reached outside leaf]
  constructor
  · intro way
    rcases Cycles.under_insertEdge way with old | ⟨_, below⟩
    · exact Or.inl old
    · refine Or.inr (Forest.under_leaf (fun c edge => ?_) below)
      exact outside (tree.under_of_child edge)
  · rintro (old | rfl)
    · exact Cycles.under_insertEdge_of_under old
    · exact (Cycles.under_insertEdge_of_under reached).tail (Or.inr ⟨rfl, rfl⟩)

theorem Tree.hang : Tree (hang layout p component) := by
  obtain ⟨parent, found⟩ := tree.component_of_under reached
  have other := ne_of_outside reached outside
  have unused := tree.childrenOf_outside outside
  have edges := tree.child_hang reached outside leaf
  have noParent : ∀ a, ¬Child layout a component.id := fun a edge =>
    outside ((tree.under_of_child edge).tail edge)
  have kept : ∀ k, componentAt layout k ≠ none → componentAt (Hydrate.hang layout p component) k ≠
      none := by
    intro k held
    rw [componentAt_hang found other]
    split
    · exact Option.some_ne_none _
    · split
      · exact Option.some_ne_none _
      · exact held
  refine ⟨?_, ?_, ?_, ?_, ?_, ?_, ?_⟩
  · intro k item at_k
    rw [componentAt_hang found other] at at_k
    split at at_k
    · rename_i above
      subst above
      cases at_k
      exact tree.keyed k parent found
    · split at at_k
      · rename_i same
        cases at_k
        exact same.symm
      · exact tree.keyed k item at_k
  · obtain ⟨root, foundRoot, type⟩ := tree.rootType
    rw [componentAt_hang found other]
    by_cases above : dashboardRootId = p
    · subst above
      rw [if_pos rfl]
      rw [foundRoot] at found
      cases found
      exact ⟨_, rfl, type⟩
    · rw [if_neg above, if_neg fun same : dashboardRootId = component.id => outside (same ▸ .refl)]
      exact ⟨root, foundRoot, type⟩
  · intro a edge
    rw [edges] at edge
    rcases edge with old | ⟨_, same⟩
    · exact tree.rootOnTop a old
    · exact outside (same ▸ .refl)
  · intro a b edge
    rw [edges] at edge
    rcases edge with old | ⟨_, rfl⟩
    · exact kept b (tree.listed a b old)
    · rw [componentAt_hang found other, if_neg other.symm, if_pos rfl]
      exact Option.some_ne_none _
  · intro k
    rw [childrenOf_hang found other leaf unused]
    split
    · rw [nodup_append]
      refine ⟨tree.distinct p, nodup_singleton _, ?_⟩
      rintro a member b last rfl
      rw [mem_singleton] at last
      subst last
      exact noParent p member
    · exact tree.distinct k
  · intro a b c first second
    rw [edges] at first second
    rcases first with old | ⟨rfl, rfl⟩
    · rcases second with older | ⟨rfl, rfl⟩
      · exact tree.single a b c old older
      · exact (noParent a old).elim
    · rcases second with older | ⟨rfl, _⟩
      · exact (noParent b older).elim
      · rfl
  · intro k item at_k away
    rw [tree.under_hang_iff reached outside leaf, not_or] at away
    rw [componentAt_hang found other, if_neg fun above : k = p => away.1 (above ▸ reached),
      if_neg away.2] at at_k
    exact tree.aside k item at_k away.1

end Hang

section Aside
variable {layout : StoredLayout} {component : StoredComponent} (tree : Tree layout)
  (outside : ¬Under (Child layout) dashboardRootId component.id) (leaf : component.children = [])
include tree outside leaf

theorem Tree.child_set : Child (layout.set component.id (.component component)) = Child layout := by
  funext a b
  show (b ∈ childrenOf _ a) = (b ∈ childrenOf layout a)
  by_cases same : a = component.id
  · subst same
    rw [tree.childrenOf_outside outside]
    unfold childrenOf
    rw [componentAt_set, if_pos rfl, Option.map_some, leaf]
    rfl
  · unfold childrenOf
    rw [componentAt_set, if_neg same]

theorem Tree.set_aside (noChart : component.type ≠ .chart) :
    Tree (layout.set component.id (.component component)) := by
  have edges := tree.child_set outside leaf
  have others : ∀ k item, componentAt (layout.set component.id (.component component)) k =
    some item →
      k = component.id ∧ item = component ∨ componentAt layout k = some item := by
    intro k item found
    rw [componentAt_set] at found
    by_cases same : k = component.id
    · rw [if_pos same] at found
      cases found
      exact Or.inl ⟨same, rfl⟩
    · rw [if_neg same] at found
      exact Or.inr found
  refine ⟨?_, ?_, ?_, ?_, ?_, ?_, ?_⟩
  · intro k item found
    rcases others k item found with ⟨same, rfl⟩ | old
    · exact same.symm
    · exact tree.keyed k item old
  · obtain ⟨root, found, type⟩ := tree.rootType
    rw [componentAt_set, if_neg fun same : dashboardRootId = component.id => outside (same ▸ .refl)]
    exact ⟨root, found, type⟩
  · rw [edges]
    exact tree.rootOnTop
  · intro a b edge
    rw [edges] at edge
    rw [componentAt_set]
    split
    · exact Option.some_ne_none _
    · exact tree.listed a b edge
  · intro k
    by_cases same : k = component.id
    · subst same
      unfold childrenOf
      rw [componentAt_set, if_pos rfl, Option.map_some, leaf]
      exact nodup_nil
    · have distinct := tree.distinct k
      unfold childrenOf at distinct ⊢
      rw [componentAt_set, if_neg same]
      exact distinct
  · rw [edges]
    exact tree.single
  · intro k item found away
    rw [edges] at away
    rcases others k item found with ⟨_, rfl⟩ | old
    · exact ⟨noChart, leaf⟩
    · exact tree.aside k item old away

theorem Tree.exact_set (exact : Exact layout) :
    Exact (layout.set component.id (.component component)) := by
  intro k item found reached
  rw [tree.child_set outside leaf] at reached ⊢
  rw [componentAt_set, if_neg fun same : k = component.id => outside (same ▸ reached)] at found
  exact exact k item found reached

end Aside

theorem Exact.named {layout : StoredLayout} {key : String} {component : StoredComponent}
    (exact : Exact layout) (found : componentAt layout key = some component)
    (metadata : JsObject.Object) :
    Exact (layout.set key (.component { component with metadata })) := by
  have same : SameShape layout (layout.set key (.component { component with metadata })) :=
    sameShape_set found rfl
  intro k item found' reached
  rw [same.child_eq] at reached ⊢
  rw [componentAt_set] at found'
  by_cases at_key : k = key
  · subst at_key
    rw [if_pos rfl] at found'
    cases found'
    exact exact k component found reached
  · rw [if_neg at_key] at found'
    exact exact k item found' reached

theorem sameShape_updateChild {update : StoredComponent → StoredLayout → Option StoredLayout}
    {parentsList : List String} {layout after : StoredLayout} {childId : String}
    (keeps : ∀ component layout after, update component layout = some after →
      SameShape layout after)
    (run : updateChild update parentsList layout childId = some after) :
    SameShape layout after := by
  unfold updateChild at run
  split at run
  · cases run
    exact .refl _
  · cases run
  · rename_i child found
    let moved : StoredComponent := { child with parents := some parentsList }
    have stored : SameShape layout (layout.set childId (.component moved)) :=
      sameShape_set (componentAt_of_entry found) rfl
    exact stored.trans (keeps moved _ after run)

theorem sameShape_update :
    ∀ (fuel : Nat) (component : StoredComponent) (layout after : StoredLayout),
    updateComponentParentsList fuel component layout = some after → SameShape layout after := by
  intro fuel
  induction fuel with
  | zero =>
    intro component layout after run
    cases run
  | succ fuel ih =>
    intro component layout after run
    rw [updateComponentParentsList] at run
    split at run
    · cases run
      exact .refl _
    · rename_i held
      clear held
      dsimp only at run
      generalize component.parents.getD [] ++ [component.id] = parentsList at run
      generalize component.children = children at run
      induction children generalizing layout with
      | nil =>
        cases run
        exact .refl _
      | cons child rest step =>
        rw [foldlM_cons] at run
        obtain ⟨next, first, others⟩ := Option.bind_eq_some_iff.mp run
        exact (sameShape_updateChild ih first).trans (step next others)

section Rebuild
variable {base : StoredLayout}

/-- The parents at a key are the path in the tree of `base`. -/
def Placed (base layout : StoredLayout) (k : String) : Prop :=
  ∀ component, componentAt layout k = some component →
    Path (Child base) dashboardRootId (component.parents.getD []) k

theorem Placed.set {layout : StoredLayout} {key : String} {component : StoredComponent}
    (path : Path (Child base) dashboardRootId (component.parents.getD []) key) {k : String}
    (placed : Placed base layout k ∨ k = key) :
    Placed base (layout.set key (.component component)) k := by
  intro item found
  rw [componentAt_set] at found
  by_cases same : k = key
  · rw [if_pos same] at found
    cases found
    exact same ▸ path
  · rw [if_neg same] at found
    exact (placed.resolve_right same) item found

/-- A run that reaches `k` places all below it and displaces nothing. -/
structure Rebuilt (base layout : StoredLayout) (keys : List String) (after : StoredLayout) :
    Prop where
  shape : SameShape base after
  kept : ∀ j, Placed base layout j → Placed base after j
  placed : ∀ k ∈ keys, ∀ j, Under (Child base) k j → Placed base after j

variable (tree : Tree base)
include tree

/-- By induction on the fuel; the path of a component and the fuel left for it always
add up to one more than the keys. -/
theorem update_rebuilds :
    ∀ (fuel : Nat) (k : String) (component : StoredComponent) (layout : StoredLayout),
    SameShape base layout → componentAt layout k = some component →
    Path (Child base) dashboardRootId (component.parents.getD []) k →
    (component.parents.getD []).length + fuel = base.keys.length + 1 →
    ∃ after, updateComponentParentsList fuel component layout = some after ∧
    Rebuilt base layout [k] after := by
  intro fuel
  induction fuel with
  | zero =>
    intro k component layout _ _ path enough
    have bound := tree.path_length_le path
    omega
  | succ fuel ih =>
    intro k component layout same found path enough
    have keyed := (tree.of_sameShape same).keyed k component found
    have children : ∀ x ∈ component.children, Child base k x := by
      intro x member
      show x ∈ childrenOf base k
      rw [← same.childrenOf_eq, childrenOf_of_componentAt found]
      exact member
    have loop : ∀ (rest : List String) (layout : StoredLayout), (∀ x ∈ rest, Child base k x) →
        SameShape base layout →
        ∃ after, rest.foldlM (updateChild (updateComponentParentsList fuel)
            (component.parents.getD [] ++ [component.id])) layout = some after
          ∧ Rebuilt base layout rest after := by
      intro rest
      induction rest with
      | nil =>
        intro layout _ same
        exact ⟨layout, rfl, same, fun _ placed => placed, fun _ none => (not_mem_nil none).elim⟩
      | cons x rest step =>
        intro layout edges same
        have edge := edges x mem_cons_self
        obtain ⟨child, foundChild⟩ :=
          Option.ne_none_iff_exists'.mp ((tree.of_sameShape same).listed k x (same.child_eq ▸ edge))
        have below : Path (Child base) dashboardRootId
            (component.parents.getD [] ++ [component.id]) x := by
          rw [keyed]
          exact path.step edge
        let moved : StoredComponent :=
          { child with parents := some (component.parents.getD [] ++ [component.id]) }
        obtain ⟨next, run, first⟩ := ih x moved (layout.set x (.component moved))
          (same.trans (sameShape_set foundChild rfl)) (by rw [componentAt_set, if_pos rfl]) below
          (by
            show (component.parents.getD [] ++ [component.id]).length + fuel = _
            rw [length_append, length_singleton]
            omega)
        obtain ⟨after, others, second⟩ :=
          step next (fun y member => edges y (mem_cons_of_mem _ member)) first.shape
        refine ⟨after, ?_, second.shape, ?_, ?_⟩
        · rw [foldlM_cons]
          refine Option.bind_eq_some_iff.mpr ⟨next, ?_, others⟩
          unfold updateChild
          rw [entry_of_componentAt foundChild]
          exact run
        · exact fun j placed => second.kept j (first.kept j (Placed.set below (Or.inl placed)))
        · intro y member j way
          rcases mem_cons.mp member with rfl | later
          · exact second.kept j (first.placed y mem_cons_self j way)
          · exact second.placed y later j way
    obtain ⟨after, run, rebuilt⟩ := loop component.children layout children same
    refine ⟨after, ?_, rebuilt.shape, rebuilt.kept, ?_⟩
    · rw [updateComponentParentsList, keyed, entry_of_componentAt found]
      rw [keyed] at run
      exact run
    · intro l member j way
      rw [mem_singleton] at member
      subst member
      rcases Relation.ReflTransGen.cases_head way with rfl | ⟨x, edge, further⟩
      · refine rebuilt.kept l ?_
        intro item found'
        rw [found] at found'
        cases found'
        exact path
      · refine rebuilt.placed x ?_ j further
        have member : x ∈ childrenOf base l := edge
        rw [← same.childrenOf_eq, childrenOf_of_componentAt found] at member
        exact member

end Rebuild

end Liteset.Dashboard.Hydrate
