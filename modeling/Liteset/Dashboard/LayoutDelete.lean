import Liteset.Dashboard.LayoutTree

/-!
# Deleting a component

`recursivelyDeleteChildren` walks over a map that it changes on the way.  On every
layout it removes exactly what hangs below the component, and takes the component
out of the list of its parent.
-/

set_option autoImplicit false

namespace Liteset.Dashboard

open Lib
open Lib.JsObject (Record)
open Lib.Forest (Under SingleParent Acyclic)

def Pruned (before after : Layout) (removed : String → Prop) : Prop :=
  ∀ k, (removed k → after.entry k = none) ∧ (¬removed k → after.entry k = before.entry k)

section Pruned
variable {before middle after : Layout} {removed : String → Prop}

section
variable (pruned : Pruned before after removed)
include pruned

theorem Pruned.childrenOf_eq {k : String}
    (kept : ¬removed k) : childrenOf after k = childrenOf before k := by
  unfold childrenOf
  rw [(pruned k).2 kept]

theorem Pruned.child {a b : String} (edge : Child after a b) : Child before a b := by
  by_cases gone : removed a
  · exact (entry_of_child edge ((pruned a).1 gone)).elim
  · unfold Child at edge ⊢
    rw [← pruned.childrenOf_eq gone]
    exact edge

theorem Pruned.under {a b : String}
    (reached : Under (Child after) a b) : Under (Child before) a b :=
  Forest.under_mono (fun _ _ edge => pruned.child edge) reached

theorem Pruned.absent {k : String}
    (gone : before.entry k = none) : after.entry k = none := by
  by_cases out : removed k
  · exact (pruned k).1 out
  · rw [(pruned k).2 out, gone]

end

/-- Removing first what hangs below one thing and then, of what is left, what hangs
below others. -/
theorem Pruned.next {c : String} {rest : List String}
    (first : Pruned before middle (Under (Child before) c))
    (later : Pruned middle after fun k => ∃ d ∈ rest, Under (Child middle) d k) :
    Pruned before after fun k => ∃ d ∈ c :: rest, Under (Child before) d k := by
  intro k
  constructor
  · rintro ⟨d, member, reached⟩
    by_cases under : Under (Child before) c k
    · exact later.absent ((first k).1 under)
    · rcases List.mem_cons.mp member with same | member
      · exact (under (same ▸ reached)).elim
      · refine (later k).1 ⟨d, member, ?_⟩
        refine Forest.under_pruned (fun i j edge away => ?_) reached under
        have kept : ¬Under (Child before) c i := fun way => away (way.tail edge)
        unfold Child
        rw [first.childrenOf_eq kept]
        exact edge
  · intro out
    have notFirst : ¬Under (Child before) c k := fun under => out ⟨c, List.mem_cons_self, under⟩
    have notLater : ¬∃ d ∈ rest, Under (Child middle) d k := by
      rintro ⟨d, member, reached⟩
      exact out ⟨d, List.mem_cons_of_mem c member, first.under reached⟩
    rw [(later k).2 notLater, (first k).2 notFirst]

theorem under_iff_delete {next : Layout} {c : String} {component : LayoutItem}
    (found : next.entry c = some component) (k : String) :
    Under (Child next) c k ↔ k = c ∨ ∃ d ∈ component.children,
      Under (Child (next.delete c)) d k := by
  have lists : ∀ i, i ≠ c → childrenOf (next.delete c) i = childrenOf next i := by
    intro i other
    unfold childrenOf
    rw [Record.entry_delete, if_neg other]
  constructor
  · intro reached
    induction reached with
    | refl => exact Or.inl rfl
    | @tail j k up last ih =>
      right
      by_cases at_c : j = c
      · rw [at_c] at last
        unfold Child at last
        rw [childrenOf_of_entry found] at last
        exact ⟨k, last, Relation.ReflTransGen.refl⟩
      · rcases ih with same | ⟨d, member, way⟩
        · exact (at_c same).elim
        · refine ⟨d, member, way.tail ?_⟩
          unfold Child
          rw [lists j at_c]
          exact last
  · rintro (rfl | ⟨d, member, way⟩)
    · exact Relation.ReflTransGen.refl
    · have edge : Child next c d := by
        unfold Child
        rw [childrenOf_of_entry found]
        exact member
      refine Relation.ReflTransGen.head edge (Forest.under_mono (fun i j inside => ?_) way)
      by_cases at_c : i = c
      · exact (entry_of_child inside (by rw [Record.entry_delete, if_pos at_c])).elim
      · unfold Child at inside ⊢
        rw [← lists i at_c]
        exact inside

end Pruned

section Recursion
variable {next : Layout}

theorem removeFromParent_of_none {c j : String} (gone : next.entry j = none) :
    removeFromParent c j next = next := by
  unfold removeFromParent
  rw [gone]

theorem deleteWithin_of_none {fuel : Nat} {c j : String} (gone : next.entry c = none) :
    deleteWithin fuel c j next = next := by
  cases fuel with
  | zero => rfl
  | succ fuel => simp only [deleteWithin, gone]

theorem length_delete {c : String} (here : next.entry c ≠ none) :
    (next.delete c).keys.length < next.keys.length := by
  have member := next.listed c here
  refine List.length_filter_lt_length_iff_exists.mpr ⟨c, member, by simp⟩

theorem deleteChildren_pruned {fuel : Nat}
    (recursion : ∀ (c j : String) (next : Layout), next.keys.length ≤ fuel → next.entry j = none →
      Pruned next (deleteWithin fuel c j next) (Under (Child next) c)
        ∧ (deleteWithin fuel c j next).keys.length ≤ next.keys.length)
    (j : String) (children : List String) (next : Layout) (enough : next.keys.length ≤ fuel)
    (gone : next.entry j = none) :
    Pruned next (children.foldl (fun next childId => deleteWithin fuel childId j next) next)
        (fun k => ∃ d ∈ children, Under (Child next) d k)
      ∧ (children.foldl (fun next childId => deleteWithin fuel childId j next) next).keys.length
        ≤ next.keys.length := by
  induction children generalizing next with
  | nil =>
    refine ⟨fun k => ⟨?_, fun _ => rfl⟩, Nat.le_refl _⟩
    rintro ⟨d, member, _⟩
    cases member
  | cons c rest ih =>
    obtain ⟨pruned, shorter⟩ := recursion c j next enough gone
    obtain ⟨prunedRest, shorterRest⟩ := ih (deleteWithin fuel c j next)
      (Nat.le_trans shorter enough) (pruned.absent gone)
    exact ⟨pruned.next prunedRest, Nat.le_trans shorterRest shorter⟩

theorem deleteWithin_spec (fuel : Nat) (c j : String) (next : Layout)
    (enough : next.keys.length ≤ fuel) (here : next.entry c ≠ none) :
    ∃ rest, Pruned next rest (Under (Child next) c) ∧ rest.keys.length ≤ next.keys.length
      ∧ deleteWithin fuel c j next = removeFromParent c j rest := by
  induction fuel generalizing c j next with
  | zero =>
    have none_left := next.listed c here
    rw [List.length_eq_zero_iff.mp (Nat.le_zero.mp enough)] at none_left
    cases none_left
  | succ fuel ih =>
    obtain ⟨component, found⟩ := exists_entry here
    have shorter := length_delete here
    have recursion : ∀ (c j : String) (next : Layout), next.keys.length ≤ fuel →
        next.entry j = none → Pruned next (deleteWithin fuel c j next) (Under (Child next) c)
          ∧ (deleteWithin fuel c j next).keys.length ≤ next.keys.length := by
      intro c j next enough gone
      by_cases absent : next.entry c = none
      · rw [deleteWithin_of_none absent]
        refine ⟨fun k => ⟨fun under => ?_, fun _ => rfl⟩, Nat.le_refl _⟩
        have leaf : ∀ d, ¬Child next c d := fun d edge => entry_of_child edge absent
        rw [Forest.under_leaf leaf under]
        exact absent
      · obtain ⟨rest, pruned, length, ran⟩ := ih c j next enough absent
        rw [ran, removeFromParent_of_none (pruned.absent gone)]
        exact ⟨pruned, length⟩
    obtain ⟨pruned, length⟩ := deleteChildren_pruned recursion c component.children (next.delete c)
      (by omega) (by rw [Record.entry_delete, if_pos rfl])
    refine ⟨_, ?_, Nat.le_trans length (Nat.le_of_lt shorter), ?_⟩
    · intro k
      rw [under_iff_delete found k]
      constructor
      · rintro (rfl | below)
        · exact pruned.absent (by rw [Record.entry_delete, if_pos rfl])
        · exact (pruned k).1 below
      · intro out
        rw [not_or] at out
        rw [(pruned k).2 out.2, Record.entry_delete, if_neg out.1]
    · simp only [deleteWithin, found]

end Recursion

section Parent
variable {layout : Layout} {p k : String} {cache : ParentCache}

theorem ne_of_child (acyclic : Acyclic (Child layout)) (edge : Child layout p k) : p ≠ k := by
  rintro rfl
  exact acyclic p (Relation.TransGen.single edge)

theorem findParentId_of_child (single : SingleParent (Child layout)) (different : p ≠ k)
    (edge : Child layout p k) :
    findParentId k layout = some p := by
  unfold findParentId
  have found : ((Record.enumerate layout.keys).find? fun id =>
      decide (id ≠ k) && decide (k ∈ childrenOf layout id)).isSome := by
    rw [List.find?_isSome]
    refine ⟨p, Record.mem_enumerate.mpr (layout.listed p (entry_of_child edge)), ?_⟩
    simp [different, edge]
  obtain ⟨q, at_q⟩ := Option.isSome_iff_exists.mp found
  have holds := List.find?_some at_q
  simp only [Bool.and_eq_true, decide_eq_true_eq] at holds
  rw [at_q, single q p k holds.2 edge]

theorem ne_of_findParentId (found : findParentId k layout = some p) : p ≠ k ∧ Child layout p k := by
  have holds := List.find?_some found
  rwa [Bool.and_eq_true, decide_eq_true_eq, decide_eq_true_eq] at holds

theorem child_of_cachedParentId (keyed : Keyed layout)
    (cached : cachedParentId cache k layout = some p) :
    cache k = some p ∧ Child layout p k := by
  unfold cachedParentId at cached
  split at cached
  · cases cached
  next value held =>
      split at cached
      · cases cached
      · split at cached
        · cases cached
        next lastParent at_value =>
            split at cached
            next member =>
                cases cached
                rw [keyed value lastParent at_value]
                exact ⟨held, child_of_entry at_value member⟩
            · cases cached

theorem child_of_findParentIdWithCache (keyed : Keyed layout)
    (found : (findParentIdWithCache cache k layout).1 = some p) : Child layout p k := by
  unfold findParentIdWithCache at found
  cases cached : cachedParentId cache k layout with
  | none =>
    rw [cached] at found
    exact (ne_of_findParentId found).2
  | some id =>
    rw [cached] at found
    cases found
    exact (child_of_cachedParentId keyed cached).2

theorem findParentIdWithCache_of_child (keyed : Keyed layout) (single : SingleParent (Child layout))
    (acyclic : Acyclic (Child layout)) (edge : Child layout p k) :
    (findParentIdWithCache cache k layout).1 = some p := by
  have answered : ∃ q, (findParentIdWithCache cache k layout).1 = some q := by
    unfold findParentIdWithCache
    cases cachedParentId cache k layout with
    | none => exact ⟨p, findParentId_of_child single (ne_of_child acyclic edge) edge⟩
    | some id => exact ⟨id, rfl⟩
  obtain ⟨q, found⟩ := answered
  rw [found, single q p k (child_of_findParentIdWithCache keyed found) edge]

end Parent

/-- The subtree of `x` is gone, and `x` from the list of its parent. -/
structure Cut (before after : Layout) (x p : String) : Prop where
  keyed : Keyed after
  gone : ∀ k, Under (Child before) x k → after.entry k = none
  types : ∀ k, ¬Under (Child before) x k → typeOf after k = typeOf before k
  parent : childrenOf after p = (childrenOf before p).erase x
  others : ∀ k, ¬Under (Child before) x k → k ≠ p → childrenOf after k = childrenOf before k

section Cut
variable {before after : Layout} {x p : String}

theorem recursivelyDeleteChildren_cut (keyed : Keyed before) (acyclic : Acyclic (Child before))
    (listed : ∀ a b, Child before a b → before.entry b ≠ none) (edge : Child before p x) :
    Cut before (recursivelyDeleteChildren x (some p) before) x p := by
  obtain ⟨rest, pruned, _, ran⟩ := deleteWithin_spec before.keys.length x p before (Nat.le_refl _)
    (listed p x edge)
  have outside : ¬Under (Child before) x p :=
    fun way => acyclic x (Relation.TransGen.tail' way edge)
  obtain ⟨parent, found⟩ := exists_entry (entry_of_child edge)
  have at_rest : rest.entry p = some parent := by rw [(pruned p).2 outside, found]
  have member : x ∈ parent.children := by
    unfold Child at edge
    rwa [childrenOf_of_entry found] at edge
  have result : recursivelyDeleteChildren x (some p) before
      = rest.set p { parent with children := parent.children.erase x } := by
    unfold recursivelyDeleteChildren
    have key : idKey (some p) = p := rfl
    rw [key, ran]
    unfold removeFromParent
    rw [at_rest]
    exact if_pos member
  have keyedRest : Keyed rest := by
    intro k component at_k
    by_cases under : Under (Child before) x k
    · rw [(pruned k).1 under] at at_k
      cases at_k
    · rw [(pruned k).2 under] at at_k
      exact keyed k component at_k
  rw [result]
  refine ⟨keyedRest.setChildren at_rest _, ?_, ?_, ?_, ?_⟩
  · intro k under
    rw [Record.entry_set, if_neg]
    · exact (pruned k).1 under
    · rintro rfl
      exact outside under
  · intro k out
    rw [typeOf_set_entry at_rest]
    unfold typeOf
    rw [(pruned k).2 out]
  · rw [childrenOf_set, if_pos rfl, childrenOf_of_entry found]
  · intro k out other
    rw [childrenOf_set, if_neg other, pruned.childrenOf_eq out]

theorem Cut.child_iff (cut : Cut before after x p) (wellFormed : WellFormed before)
    (edge : Child before p x) (a b : String) :
    Child after a b ↔ Child before a b ∧ ¬Under (Child before) x b := by
  have outside : ¬Under (Child before) x p := fun way =>
    wellFormed.acyclic x (Relation.TransGen.tail' way edge)
  by_cases under : Under (Child before) x a
  · constructor
    · intro left
      exact (entry_of_child left (cut.gone a under)).elim
    · rintro ⟨old, out⟩
      exact (out (under.tail old)).elim
  · have inside : Child before a b → Under (Child before) x b → x = b ∧ a = p := by
      intro old way
      rcases Forest.under_parent wellFormed.single old way with same | above
      · exact ⟨same, wellFormed.single a p b old (same ▸ edge)⟩
      · exact (under above).elim
    by_cases at_p : a = p
    · unfold Child
      rw [at_p, cut.parent, (wellFormed.distinct p).mem_erase_iff]
      constructor
      · rintro ⟨other, member⟩
        exact ⟨member, fun way => other (inside (at_p ▸ member) way).1.symm⟩
      · rintro ⟨member, out⟩
        exact ⟨fun same => out (same ▸ Relation.ReflTransGen.refl), member⟩
    · unfold Child
      rw [cut.others a under at_p]
      constructor
      · intro member
        exact ⟨member, fun way => at_p (inside member way).2⟩
      · exact fun both => both.1

theorem under_root_of_child (wellFormed : WellFormed before) (anchored : Anchored before)
    (edge : Child before p x) : Under (Child before) dashboardRootId p := by
  have present := entry_of_child edge
  by_cases at_root : p = dashboardRootId
  · rw [at_root]
  · by_cases at_grid : p = dashboardGridId
    · by_cases hung : Child before dashboardRootId dashboardGridId
      · rw [at_grid]
        exact Relation.ReflTransGen.single hung
      · rw [at_grid] at edge
        unfold Child at edge
        rw [wellFormed.gridEmpty hung] at edge
        cases edge
    · by_cases at_header : p = dashboardHeaderId
      · have not_header : x ≠ dashboardHeaderId := by
          intro same
          rw [at_header, same] at edge
          exact wellFormed.acyclic _ (Relation.TransGen.single edge)
        have not_root : x ≠ dashboardRootId := fun same => anchored.rootOnTop p (same ▸ edge)
        have not_grid : x ≠ dashboardGridId := fun same =>
          at_root (anchored.gridUnderRoot p (same ▸ edge))
        have reached :=
          wellFormed.reachable x (wellFormed.listed p x edge) not_root not_header not_grid
        rcases Forest.under_parent wellFormed.single edge reached with same | above
        · exact (not_root same.symm).elim
        · exact above
      · exact wellFormed.reachable p present at_root at_header at_grid

theorem WellFormed.cut (wellFormed : WellFormed before) (anchored : Anchored before)
    (edge : Child before p x) (notGrid : x ≠ dashboardGridId) (cut : Cut before after x p) :
    WellFormed after ∧ Anchored after := by
  have edges := cut.child_iff wellFormed edge
  have rootStays : ¬Under (Child before) x dashboardRootId := by
    intro way
    rcases Forest.under_cases way with same | ⟨above, _, last⟩
    · exact anchored.rootOnTop p (same ▸ edge)
    · exact anchored.rootOnTop above last
  have gridStays : ¬Under (Child before) x dashboardGridId := by
    intro way
    rcases Forest.under_cases way with same | ⟨above, up, last⟩
    · exact notGrid same
    · exact rootStays (anchored.gridUnderRoot above last ▸ up)
  have stays : ∀ k, after.entry k ≠ none → ¬Under (Child before) x k :=
    fun k here under => here (cut.gone k under)
  have entry_iff :
      ∀ k, ¬Under (Child before) x k → (after.entry k ≠ none ↔ before.entry k ≠ none) := by
    intro k out
    rw [Ne, ← typeOf_eq_none, cut.types k out, typeOf_eq_none]
  refine ⟨⟨cut.keyed, (entry_iff _ rootStays).mpr wellFormed.rooted, ?_, ?_, ?_, ?_, ?_, ?_, ?_⟩,
    ⟨?_, ?_, ?_, ?_⟩⟩
  · intro a b left
    obtain ⟨old, out⟩ := (edges a b).mp left
    exact (entry_iff b out).mpr (wellFormed.listed a b old)
  · intro k
    by_cases under : Under (Child before) x k
    · rw [childrenOf_of_none (cut.gone k under)]
      exact List.nodup_nil
    · by_cases at_p : k = p
      · rw [at_p, cut.parent]
        exact (wellFormed.distinct p).erase x
      · rw [cut.others k under at_p]
        exact wellFormed.distinct k
  · intro a b c left other
    exact wellFormed.single a b c ((edges a c).mp left).1 ((edges b c).mp other).1
  · intro k cycle
    exact wellFormed.acyclic k
      (Relation.TransGen.mono (fun a b left => ((edges a b).mp left).1) k k cycle)
  · intro k here not_root not_header not_grid
    have out := stays k here
    refine Forest.under_pruned (fun i j old away => (edges i j).mpr ⟨old, away⟩) ?_ out
    exact wellFormed.reachable k ((entry_iff k out).mp here) not_root not_header not_grid
  · intro unhung
    have unhungBefore : ¬Child before dashboardRootId dashboardGridId := fun old =>
      unhung ((edges _ _).mpr ⟨old, gridStays⟩)
    apply List.eq_nil_iff_forall_not_mem.mpr
    intro b left
    have old : Child before dashboardGridId b := ((edges _ b).mp left).1
    unfold Child at old
    rw [wellFormed.gridEmpty unhungBefore] at old
    cases old
  · intro a b left
    obtain ⟨old, out⟩ := (edges a b).mp left
    have outside : ¬Under (Child before) x a := fun way => out (way.tail old)
    intro parentType childType found foundChild
    rw [cut.types a outside] at found
    rw [cut.types b out] at foundChild
    exact wellFormed.wrapped a b old parentType childType found foundChild
  · exact fun a left => anchored.rootOnTop a ((edges a _).mp left).1
  · exact fun a left => anchored.gridUnderRoot a ((edges a _).mp left).1
  · rw [cut.types _ rootStays]
    exact anchored.rootType
  · rw [cut.types _ gridStays]
    exact anchored.gridType

/-- Deleting a component keeps the layout well-formed, and so does deleting the row
it leaves empty. -/
theorem deleteComponent_wellFormed {state : Layout} {cache : ParentCache}
    (wellFormed : WellFormed state) (anchored : Anchored state) (edge : Child state p x)
    (notGrid : x ≠ dashboardGridId) :
    WellFormed (deleteComponent cache x (some p) state).1
      ∧ Anchored (deleteComponent cache x (some p) state).1 := by
  unfold deleteComponent
  dsimp only
  split
  · exact ⟨wellFormed, anchored⟩
  · have cut := recursivelyDeleteChildren_cut wellFormed.keyed wellFormed.acyclic
      wellFormed.listed edge
    obtain ⟨left, held⟩ := wellFormed.cut anchored edge notGrid cut
    generalize recursivelyDeleteChildren x (some p) state = next at cut left held
    unfold deleteEmptyRow
    cases found : next.entry p with
    | none => exact ⟨left, held⟩
    | some nextParent =>
      dsimp only
      split
      · rename_i emptyRow
        have rowType : typeOf next p = some .row := by rw [typeOf_of_entry found, emptyRow.1]
        have not_root : p ≠ dashboardRootId := by
          rintro rfl
          rw [held.rootType] at rowType
          cases rowType
        have not_grid : p ≠ dashboardGridId := by
          rintro rfl
          rw [held.gridType] at rowType
          cases rowType
        have outside : ¬Under (Child state) x p := fun way =>
          wellFormed.acyclic x (Relation.TransGen.tail' way edge)
        have reached : Under (Child next) dashboardRootId p := by
          refine Forest.under_pruned (fun i j old away => ?_)
            (under_root_of_child wellFormed anchored edge) outside
          exact (cut.child_iff wellFormed edge i j).mpr ⟨old, away⟩
        rcases Forest.under_cases reached with same | ⟨g, _, above⟩
        · exact (not_root same.symm).elim
        · dsimp only
          rw [findParentIdWithCache_of_child left.keyed left.single left.acyclic above]
          exact left.cut held above not_grid
            (recursivelyDeleteChildren_cut left.keyed left.acyclic left.listed above)
      · exact ⟨left, held⟩

end Cut

structure Shrunk (before after : Layout) (gone : String → Prop) : Prop where
  edges : ∀ a b, Child after a b → Child before a b
  entries : ∀ k, ¬gone k → before.entry k ≠ none → after.entry k ≠ none

section Shrunk
variable {before middle after : Layout} {c g : String}

theorem Shrunk.refl (layout : Layout) (gone : String → Prop) : Shrunk layout layout gone :=
  ⟨fun _ _ edge => edge, fun _ _ here => here⟩

theorem Shrunk.trans {gone : String → Prop} (first : Shrunk before middle gone)
    (later : Shrunk middle after gone) : Shrunk before after gone where
  edges a b edge := first.edges a b (later.edges a b edge)
  entries k kept here := later.entries k kept (first.entries k kept here)

theorem Shrunk.mono {gone more : String → Prop} (shrunk : Shrunk before after gone)
    (weaker : ∀ k, gone k → more k) : Shrunk before after more where
  edges := shrunk.edges
  entries k kept here := shrunk.entries k (fun out => kept (weaker k out)) here

theorem removeFromParent_shrunk (componentId parentKey : String) (layout : Layout) :
    Shrunk layout (removeFromParent componentId parentKey layout) fun _ => False := by
  unfold removeFromParent
  cases found : layout.entry parentKey with
  | none => exact Shrunk.refl layout _
  | some parent =>
    dsimp only
    split
    · constructor
      · intro a b edge
        unfold Child at edge ⊢
        rw [childrenOf_set] at edge
        split at edge
        · rename_i at_parent
          rw [at_parent, childrenOf_of_entry found]
          exact List.mem_of_mem_erase edge
        · exact edge
      · intro k _ here
        rw [JsObject.Record.entry_set]
        split
        · simp
        · exact here
    · exact Shrunk.refl layout _

theorem recursivelyDeleteChildren_shrunk (parentId : Option String)
    (leaf : childrenOf before c = []) :
    Shrunk before (recursivelyDeleteChildren c parentId before) fun k => k = c := by
  unfold recursivelyDeleteChildren
  by_cases here : before.entry c = none
  · rw [deleteWithin_of_none here]
    exact Shrunk.refl before _
  · obtain ⟨rest, pruned, _, ran⟩ :=
      deleteWithin_spec before.keys.length c (idKey parentId) before (Nat.le_refl _) here
    rw [ran]
    refine Shrunk.trans ⟨fun a b edge => pruned.child edge, fun k kept present => ?_⟩
      ((removeFromParent_shrunk c (idKey parentId) rest).mono fun _ never => never.elim)
    have noChild : ∀ b, ¬Child before c b := by
      intro b edge
      unfold Child at edge
      rw [leaf] at edge
      cases edge
    have out : ¬Under (Child before) c k := fun under => kept (Forest.under_leaf noChild under)
    rw [(pruned k).2 out]
    exact present

theorem deleteComponent_shrunk (cache : ParentCache) (leaf : childrenOf before c = []) :
    Shrunk before (deleteComponent cache c (some g) before).1 fun k => k = c ∨ k = g := by
  unfold deleteComponent
  dsimp only
  split
  · exact Shrunk.refl before _
  · refine Shrunk.trans ((recursivelyDeleteChildren_shrunk (some g) leaf).mono fun _ same =>
      Or.inl same) ?_
    unfold deleteEmptyRow
    generalize recursivelyDeleteChildren c (some g) before = rest
    cases found : rest.entry g with
    | none => exact Shrunk.refl rest _
    | some nextParent =>
      dsimp only
      split
      · rename_i emptyRow
        have empty : childrenOf rest g = [] := by
          rw [childrenOf_of_entry found]
          exact List.length_eq_zero_iff.mp emptyRow.2
        exact (recursivelyDeleteChildren_shrunk _ empty).mono fun _ same => Or.inr same
      · exact Shrunk.refl rest _

end Shrunk

end Liteset.Dashboard
