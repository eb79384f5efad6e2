import Liteset.Dashboard.HydrateTree

/-!
# Rebuilding the lists of parents

`UPDATE_COMPONENTS_PARENTS_LIST` walks down from `ROOT_ID` and gives each component it meets
the list of its ancestors.  Ids of components that are not there are skipped.
-/

set_option autoImplicit false

namespace Liteset.Dashboard.Hydrate

open Lib List
open Lib.Forest (Under SingleParent)
open Lib.Paths (Path)
open Lib.JsObject (Record)

/-- `UPDATE_COMPONENTS_PARENTS_LIST` -/
def updateComponentsParents (fuel : Nat) (state : StoredLayout) : Option StoredLayout :=
  match state.entry dashboardRootId with
  | none => some state
  | some (.text _) => none
  | some (.component root) => updateComponentParentsList fuel root state

/-- A child that is there. -/
def Edge (layout : StoredLayout) (parent child : String) : Prop :=
  Child layout parent child ∧ componentAt layout child ≠ none

/-- A layout whose components form trees, one of them below a root without a list of
parents; children may be dangling. -/
structure LayoutTree (layout : StoredLayout) : Prop where
  keyed : ∀ k component, componentAt layout k = some component → component.id = k
  single : SingleParent (Edge layout)
  rootOnTop : ∀ a, ¬Edge layout a dashboardRootId
  unparented : ∀ root, componentAt layout dashboardRootId = some root → root.parents.getD [] = []
  rootComponent : ∀ value, layout.entry dashboardRootId ≠ some (.text value)
  children : ∀ a b value, Child layout a b → layout.entry b ≠ some (.text value)

/-- What is reached has its path as parents, and nothing else is changed. -/
structure ParentsExact (before after : StoredLayout) : Prop where
  keys : after.keys = before.keys
  root : after.entry dashboardRootId = before.entry dashboardRootId
  reached : ∀ k component above, k ≠ dashboardRootId → componentAt before k = some component →
    Path (Edge before) dashboardRootId above k →
    after.entry k = some (.component { component with parents := some above })
  framed : ∀ k, ¬Under (Edge before) dashboardRootId k → after.entry k = before.entry k
  skipped : ∀ a k, Child before a k → before.entry k = none → after.entry k = none

section Walk
variable {base layout after : StoredLayout} {k j : String}

/-- A component below the root has its path in `base` as parents. -/
def Fixed (base layout : StoredLayout) (k : String) : Prop :=
  k ≠ dashboardRootId ∧ ∃ component above, componentAt base k = some component ∧
    Path (Edge base) dashboardRootId above k ∧
    layout.entry k = some (.component { component with parents := some above })

/-- A state of the walk through `base`. -/
structure Advanced (base layout : StoredLayout) : Prop where
  keys : layout.keys = base.keys
  entries : ∀ k, layout.entry k = base.entry k ∨ Fixed base layout k

theorem Advanced.entry_none (advanced : Advanced base layout) (absent : base.entry k = none) :
    layout.entry k = none := by
  obtain same | ⟨_, component, _, found, _⟩ := advanced.entries k
  · rw [same, absent]
  · rw [entry_of_componentAt found] at absent
    cases absent

theorem Advanced.entry_component (advanced : Advanced base layout) {component : StoredComponent}
    (found : componentAt base k = some component) :
    ∃ parents, layout.entry k = some (.component { component with parents := parents }) := by
  obtain same | ⟨_, other, above, foundOther, _, entry⟩ := advanced.entries k
  · exact ⟨component.parents, same.trans (entry_of_componentAt found)⟩
  · rw [found] at foundOther
    obtain rfl := Option.some.inj foundOther
    exact ⟨some above, entry⟩

section Moved
variable {component : StoredComponent} {above : List String}
    (found : componentAt base k = some component)
  (path : Path (Edge base) dashboardRootId above k) (lower : k ≠ dashboardRootId)
include found path lower

theorem fixed_set (fixed : Fixed base layout j ∨ j = k) :
    Fixed base (layout.set k (.component { component with parents := some above })) j := by
  by_cases same : j = k
  · subst same
    exact ⟨lower, component, above, found, path, if_pos rfl⟩
  · obtain ⟨notRoot, other, higher, foundOther, otherPath, entry⟩ := fixed.resolve_right same
    exact ⟨notRoot, other, higher, foundOther, otherPath, (if_neg same).trans entry⟩

theorem Advanced.set (advanced : Advanced base layout) :
    Advanced base (layout.set k (.component { component with parents := some above })) := by
  constructor
  · obtain ⟨parents, entry⟩ := advanced.entry_component found
    exact (if_pos (layout.listed k (entry ▸ Option.some_ne_none _))).trans advanced.keys
  · intro j
    by_cases same : j = k
    · exact .inr (fixed_set found path lower (.inr same))
    · obtain kept | fixed := advanced.entries j
      · exact .inl ((if_neg same).trans kept)
      · exact .inr (fixed_set found path lower (.inl fixed))

end Moved

structure Visited (base layout : StoredLayout) (ids : List String) (after : StoredLayout) :
    Prop where
  advanced : Advanced base after
  kept : ∀ j, Fixed base layout j → Fixed base after j
  fixed : ∀ x ∈ ids, componentAt base x ≠ none → ∀ j, Under (Edge base) x j → Fixed base after j

variable (tree : LayoutTree base)
include tree

theorem LayoutTree.path_length_le {above : List String}
    (path : Path (Edge base) dashboardRootId above k)
    (present : componentAt base dashboardRootId ≠ none) : above.length ≤ base.keys.length := by
  refine (subperm_of_subset (path.nodup tree.single tree.rootOnTop) fun a member =>
    base.listed a ?_).length_le
  have here : componentAt base a ≠ none := by
    obtain rfl | ⟨p, _, edge⟩ :=
      Forest.under_cases ((path.mem_iff tree.single tree.rootOnTop).mp member).1
    · exact present
    · exact edge.2
  obtain ⟨component, found⟩ := Option.ne_none_iff_exists'.mp here
  rw [entry_of_componentAt found]
  exact Option.some_ne_none _

theorem update_visits (present : componentAt base dashboardRootId ≠ none) :
    ∀ (fuel : Nat) (component : StoredComponent)
    (layout : StoredLayout), Advanced base layout → componentAt base component.id ≠ none →
    component.children = childrenOf base component.id →
    Path (Edge base) dashboardRootId (component.parents.getD []) component.id →
    base.keys.length < (component.parents.getD []).length + fuel →
    ∃ after, updateComponentParentsList fuel component layout = some after ∧
    Visited base layout component.children after := by
  intro fuel
  induction fuel with
  | zero =>
    intro component layout _ _ _ path enough
    have bound := tree.path_length_le path present
    omega
  | succ fuel ih =>
    intro component layout advanced here list path enough
    have loop : ∀ (rest : List String) (layout : StoredLayout),
      (∀ x ∈ rest, Child base component.id x) →
        Advanced base layout → ∃ after, rest.foldlM (updateChild (updateComponentParentsList fuel)
            (component.parents.getD [] ++ [component.id])) layout = some after ∧
            Visited base layout rest after := by
      intro rest
      induction rest with
      | nil =>
        intro layout _ advanced
        exact ⟨layout, rfl, advanced, fun _ fixed => fixed, fun _ none => (not_mem_nil none).elim⟩
      | cons x rest step =>
        intro layout edges advanced
        have edge := edges x mem_cons_self
        -- what one child leaves, from which the others go on
        suffices first : ∃ next, updateChild (updateComponentParentsList fuel)
            (component.parents.getD [] ++ [component.id]) layout x = some next ∧
            Visited base layout [x] next by
          obtain ⟨next, run, one⟩ := first
          obtain ⟨after, others, more⟩ :=
            step next (fun y member => edges y (mem_cons_of_mem _ member)) one.advanced
          refine ⟨after, ?_, more.advanced, fun j fixed => more.kept j (one.kept j fixed), ?_⟩
          · rw [foldlM_cons]
            exact Option.bind_eq_some_iff.mpr ⟨next, run, others⟩
          · intro y member foundY j way
            obtain rfl | later := mem_cons.mp member
            · exact more.kept j (one.fixed y mem_cons_self foundY j way)
            · exact more.fixed y later foundY j way
        cases entry : base.entry x with
        | none =>
          refine ⟨layout, ?_, advanced, fun _ fixed => fixed, ?_⟩
          · rw [updateChild, advanced.entry_none entry]
          · intro y member foundY
            rw [mem_singleton.mp member, componentAt, entry] at foundY
            exact absurd rfl foundY
        | some value =>
          cases value with
          | text value => exact absurd entry (tree.children _ x value edge)
          | component child =>
            have found := componentAt_of_entry entry
            have edgeThere : Edge base component.id x := ⟨edge, found ▸ Option.some_ne_none _⟩
            have lower : x ≠ dashboardRootId := fun same => tree.rootOnTop _ (same ▸ edgeThere)
            have below : Path (Edge base) dashboardRootId
              (component.parents.getD [] ++ [component.id]) x :=
              path.step edgeThere
            obtain ⟨parents, current⟩ := advanced.entry_component found
            have isId := tree.keyed x child found
            obtain ⟨next, run, visited⟩ :=
              ih { child with parents := some (component.parents.getD [] ++ [component.id]) }
              (layout.set x (.component
                { child with parents := some (component.parents.getD [] ++ [component.id]) }))
              (advanced.set found below lower) (isId ▸ found ▸ Option.some_ne_none _)
              (by rw [← childrenOf_of_componentAt found, isId]) (isId ▸ below)
              (by simp only [Option.getD_some, length_append, length_singleton]; omega)
            refine ⟨next, ?_, visited.advanced,
              fun j fixed => visited.kept j (fixed_set found below lower (.inl fixed)), ?_⟩
            · rw [updateChild, current]
              exact run
            · intro y member foundY j way
              obtain rfl := mem_singleton.mp member
              obtain rfl | ⟨z, first, further⟩ := Relation.ReflTransGen.cases_head way
              · exact visited.kept y (fixed_set found below lower (.inr rfl))
              · refine visited.fixed z ?_ first.2 j further
                have listed := first.1
                rwa [Child, childrenOf_of_componentAt found] at listed
    obtain ⟨after, run, visited⟩ :=
      loop component.children layout (fun x member => by rwa [Child, ← list]) advanced
    refine ⟨after, ?_, visited⟩
    obtain ⟨item, found⟩ := Option.ne_none_iff_exists'.mp here
    obtain ⟨parents, entry⟩ := advanced.entry_component found
    rw [updateComponentParentsList, entry]
    exact run

end Walk

section Action
variable {layout after : StoredLayout}

theorem parents_exact (tree : LayoutTree layout) {fuel : Nat} (enough : layout.keys.length < fuel) :
    ∃ after, updateComponentsParents fuel layout = some after ∧ ParentsExact layout after := by
  cases entry : layout.entry dashboardRootId with
  | none =>
    have unreached : ∀ k, componentAt layout k ≠ none → ¬Under (Edge layout) dashboardRootId k := by
      intro k found reached
      obtain rfl | ⟨x, first, _⟩ := Relation.ReflTransGen.cases_head reached
      · rw [componentAt, entry] at found
        exact found rfl
      · obtain ⟨root, foundRoot, _⟩ := exists_component_of_child first.1
        rw [componentAt, entry] at foundRoot
        cases foundRoot
    refine ⟨layout, by rw [updateComponentsParents, entry], rfl, rfl, ?_,
      fun _ _ => rfl, fun _ _ _ absent => absent⟩
    intro k component above _ found path
    exact absurd path.under (unreached k (found ▸ Option.some_ne_none _))
  | some value =>
    cases value with
    | text value => exact absurd entry (tree.rootComponent value)
    | component root =>
      have found := componentAt_of_entry entry
      have present : componentAt layout dashboardRootId ≠ none := found ▸ Option.some_ne_none _
      have isId := tree.keyed _ root found
      have noParents := tree.unparented root found
      obtain ⟨after, run, visited⟩ :=
        update_visits tree present fuel root layout ⟨rfl, fun _ => .inl rfl⟩ (isId ▸ present)
        (by rw [isId, childrenOf_of_componentAt found]) (by rw [noParents, isId]; exact .root)
        (by rw [noParents]; simpa using enough)
      refine ⟨after, by rw [updateComponentsParents, entry]; exact run, visited.advanced.keys, ?_,
        ?_, ?_, ?_⟩
      · obtain same | ⟨notRoot, _⟩ := visited.advanced.entries dashboardRootId
        · exact same
        · exact absurd rfl notRoot
      · intro k component above lower foundK path
        obtain same | ⟨x, first, further⟩ := Relation.ReflTransGen.cases_head path.under
        · exact absurd same.symm lower
        · have listed : x ∈ root.children := by
            have edge := first.1
            rwa [Child, childrenOf_of_componentAt found] at edge
          obtain ⟨_, other, higher, foundOther, otherPath, fixed⟩ :=
            visited.fixed x listed first.2 k further
          rw [foundK] at foundOther
          obtain rfl := Option.some.inj foundOther
          rw [fixed, otherPath.unique tree.single tree.rootOnTop path]
      · intro k unreached
        obtain same | ⟨_, _, _, _, path, _⟩ := visited.advanced.entries k
        · exact same
        · exact absurd path.under unreached
      · exact fun _ k _ absent => visited.advanced.entry_none absent

section
variable (exact : ParentsExact layout after)
include exact

theorem ParentsExact.children :
    ∀ k, (componentAt after k).map (fun component => (component.id, component.children)) =
      (componentAt layout k).map (fun component => (component.id, component.children)) := by
  intro k
  by_cases reached : Under (Edge layout) dashboardRootId k
  · obtain ⟨above, path⟩ := Paths.exists_path reached
    obtain same | ⟨p, _, edge⟩ := Forest.under_cases reached
    · rw [componentAt, ← same, exact.root]
      rfl
    · obtain ⟨component, found⟩ := Option.ne_none_iff_exists'.mp edge.2
      by_cases lower : k = dashboardRootId
      · rw [componentAt, lower, exact.root]
        rfl
      · rw [componentAt_of_entry (exact.reached k component above lower found path), found]
        rfl
  · rw [componentAt, exact.framed k reached]
    rfl

theorem ParentsExact.childrenOf_eq : childrenOf after = childrenOf layout := by
  funext k
  have same := congrArg (fun found => (found.map Prod.snd).getD []) (exact.children k)
  simp only [Option.map_map] at same
  exact same

theorem ParentsExact.edge_eq : Edge after = Edge layout := by
  funext a b
  have present : componentAt after b = none ↔ componentAt layout b = none := by
    rw [← Option.map_eq_none_iff, exact.children, Option.map_eq_none_iff]
  rw [Edge, Edge, Child, Child, exact.childrenOf_eq, Ne, Ne, present]

theorem ParentsExact.unique {other : StoredLayout} (second : ParentsExact layout other) :
    after = other := by
  have entries : after.entry = other.entry := by
    funext k
    by_cases reached : Under (Edge layout) dashboardRootId k
    · by_cases lower : k = dashboardRootId
      · rw [lower, exact.root, second.root]
      · obtain ⟨above, path⟩ := Paths.exists_path reached
        obtain same | ⟨p, _, edge⟩ := Forest.under_cases reached
        · exact absurd same.symm lower
        · obtain ⟨component, found⟩ := Option.ne_none_iff_exists'.mp edge.2
          rw [exact.reached k component above lower found path,
            second.reached k component above lower found path]
    · rw [exact.framed k reached, second.framed k reached]
  have keys := exact.keys.trans second.keys.symm
  cases after
  cases other
  cases keys
  cases entries
  rfl

theorem ParentsExact.layoutTree (tree : LayoutTree layout) : LayoutTree after := by
  have edges := exact.edge_eq
  refine ⟨?_, edges ▸ tree.single, edges ▸ tree.rootOnTop, ?_,
    fun value => exact.root ▸ tree.rootComponent value, ?_⟩
  · intro k component found
    have same := exact.children k
    rw [found] at same
    obtain ⟨before, foundBefore, pair⟩ := Option.map_eq_some_iff.mp same.symm
    exact (congrArg Prod.fst pair).symm.trans (tree.keyed k before foundBefore)
  · intro root found
    rw [componentAt, exact.root] at found
    exact tree.unparented root found
  · intro a b value edge isText
    have edgeBefore : Child layout a b := by
      rw [Child, ← exact.childrenOf_eq]
      exact edge
    cases entry : layout.entry b with
    | none => rw [exact.skipped a b edgeBefore entry] at isText; cases isText
    | some held =>
      cases held with
      | text value => exact tree.children a b value edgeBefore entry
      | component component =>
        have same := exact.children b
        rw [componentAt_of_entry entry, componentAt, isText] at same
        cases same

theorem ParentsExact.again : ParentsExact after after := by
  refine ⟨rfl, rfl, ?_, fun _ _ => rfl, fun _ _ _ absent => absent⟩
  intro k component above lower found path
  rw [exact.edge_eq] at path
  obtain same | ⟨p, _, edge⟩ := Forest.under_cases path.under
  · exact absurd same.symm lower
  · obtain ⟨before, foundBefore⟩ := Option.ne_none_iff_exists'.mp edge.2
    have entry := exact.reached k before above lower foundBefore path
    rw [componentAt_of_entry entry] at found
    obtain rfl := Option.some.inj found
    exact entry

end

/-- Rebuilding the parents ends; it makes the lists of all that is reached exact,
changes nothing else, and a second time changes nothing at all. -/
theorem parents_rebuilt (tree : LayoutTree layout) : ∃ after, ParentsExact layout after ∧
    (∀ fuel, layout.keys.length < fuel → updateComponentsParents fuel layout = some after) ∧
    (∀ fuel, after.keys.length < fuel → updateComponentsParents fuel after = some after) := by
  obtain ⟨after, _, exact⟩ := parents_exact tree (Nat.lt_succ_self layout.keys.length)
  refine ⟨after, exact, fun fuel enough => ?_, fun fuel enough => ?_⟩
  · obtain ⟨other, run, second⟩ := parents_exact tree enough
    rw [run, exact.unique second]
  · obtain ⟨other, run, second⟩ := parents_exact (exact.layoutTree tree) enough
    rw [run, exact.again.unique second]

end Action

def staleLayout : StoredLayout :=
  let component := fun id type children parents =>
    Entry.component { id, type, children, parents, chartId := none, metadata := JsObject.empty }
  ((Record.empty.set "ASIDE" (component "ASIDE" .row [] none)).set dashboardGridId
    (component dashboardGridId .grid [] (some ["TAB"]))).set dashboardRootId
      (component dashboardRootId .root [dashboardGridId, "GONE"] none)

theorem staleLayout_edge {a b : String} (edge : Edge staleLayout a b) :
    a = dashboardRootId ∧ b = dashboardGridId := by
  obtain ⟨child, present⟩ := edge
  simp only [Child, childrenOf, staleLayout, componentAt_set] at child
  split at child
  · next isRoot =>
    refine ⟨isRoot, ?_⟩
    have either : b = dashboardGridId ∨ b = "GONE" := by simpa using child
    obtain isGrid | isGone := either
    · exact isGrid
    · subst isGone
      exact absurd (by decide) present
  · split at child
    · exact absurd child not_mem_nil
    · split at child
      · exact absurd child not_mem_nil
      · exact absurd child not_mem_nil

theorem stale_parents_rebuilt : ∃ after, ParentsExact staleLayout after ∧
    (∀ fuel, staleLayout.keys.length < fuel →
      updateComponentsParents fuel staleLayout = some after) ∧
    (∀ fuel, after.keys.length < fuel → updateComponentsParents fuel after = some after) := by
  refine parents_rebuilt ⟨?_, ?_, ?_, ?_, ?_, ?_⟩
  · intro k component found
    simp only [staleLayout, componentAt_set] at found
    split at found
    · next isKey => exact (Option.some.inj found) ▸ isKey.symm
    · split at found
      · next isKey => exact (Option.some.inj found) ▸ isKey.symm
      · split at found
        · next isKey => exact (Option.some.inj found) ▸ isKey.symm
        · cases found
  · exact fun p q c first second =>
      (staleLayout_edge first).1.trans (staleLayout_edge second).1.symm
  · exact fun a edge => absurd (staleLayout_edge edge).2 (by decide)
  · intro root found
    obtain rfl := Option.some.inj found
    rfl
  · exact fun value isText => by cases isText
  · intro a b value _ isText
    simp only [staleLayout, Record.entry_set, Record.entry_empty] at isText
    split at isText
    · cases isText
    · split at isText
      · cases isText
      · split at isText <;> cases isText

end Liteset.Dashboard.Hydrate
