import Liteset.Dashboard.LayoutEdits

/-!
# Well-formed layouts

What the dashboard relies on, and that a graft keeps it: the children form a tree
below `ROOT_ID`, apart from the header and a grid that is kept aside while the
dashboard has top-level tabs.
-/

set_option autoImplicit false

namespace Liteset.Dashboard

open Lib
open Lib.Forest (Under SingleParent Acyclic)

structure WellFormed (layout : Layout) : Prop where
  keyed : Keyed layout
  rooted : layout.entry dashboardRootId ≠ none
  listed : ∀ a b, Child layout a b → layout.entry b ≠ none
  distinct : ∀ k, (childrenOf layout k).Nodup
  single : SingleParent (Child layout)
  acyclic : Acyclic (Child layout)
  reachable : ∀ k, layout.entry k ≠ none → k ≠ dashboardRootId → k ≠ dashboardHeaderId →
    k ≠ dashboardGridId → Under (Child layout) dashboardRootId k
  gridEmpty : ¬Child layout dashboardRootId dashboardGridId → childrenOf layout dashboardGridId = []
  wrapped : ∀ a b, Child layout a b → Wrapped layout a b

/-- The root and the grid have their own types and are not put below anything else. -/
structure Anchored (layout : Layout) : Prop where
  rootOnTop : ∀ a, ¬Child layout a dashboardRootId
  gridUnderRoot : ∀ a, Child layout a dashboardGridId → a = dashboardRootId
  rootType : typeOf layout dashboardRootId = some .root
  gridType : typeOf layout dashboardGridId = some .grid

theorem acyclic_of_reachable {layout : Layout} (single : SingleParent (Child layout))
    (reachable : ∀ k, layout.entry k ≠ none → k ≠ dashboardRootId → k ≠ dashboardHeaderId →
      k ≠ dashboardGridId → Under (Child layout) dashboardRootId k)
    (rootOnTop : ∀ a, ¬Child layout a dashboardRootId)
    (gridUnderRoot : ∀ a, Child layout a dashboardGridId → a = dashboardRootId)
    (header : ¬Child layout dashboardHeaderId dashboardHeaderId) : Acyclic (Child layout) := by
  have away : ∀ k, Relation.TransGen (Child layout) k k → ¬Under (Child layout) dashboardRootId k :=
    fun k cycle reached => Forest.not_cyclic_of_under single rootOnTop reached cycle
  have isHeader : ∀ k, Relation.TransGen (Child layout) k k → k = dashboardHeaderId := by
    intro k cycle
    by_contra other
    obtain ⟨below, first, _⟩ := Relation.TransGen.head'_iff.mp cycle
    by_cases at_root : k = dashboardRootId
    · exact away k cycle (at_root ▸ Relation.ReflTransGen.refl)
    · by_cases at_grid : k = dashboardGridId
      · obtain ⟨above, _, last⟩ := Relation.TransGen.tail'_iff.mp cycle
        rw [at_grid] at last
        refine away k cycle ?_
        rw [at_grid]
        exact Relation.ReflTransGen.single (gridUnderRoot above last ▸ last)
      · exact away k cycle (reachable k (entry_of_child first) at_root other at_grid)
  intro k cycle
  obtain ⟨above, way, last⟩ := Relation.TransGen.tail'_iff.mp cycle
  have aboveCycle : Relation.TransGen (Child layout) above above := Relation.TransGen.head' last way
  rw [isHeader k cycle, isHeader above aboveCycle] at last
  exact header last

/-- `k` is found below the root within a number of steps up. -/
def reachedWithin (layout : Layout) : Nat → String → Bool
  | 0, k => k = dashboardRootId
  | n + 1, k => k = dashboardRootId
      || layout.keys.any fun p => decide (Child layout p k) && reachedWithin layout n p

def wrappedTypes (parentType childType : Option ComponentType) : Bool :=
  !(parentType ∈ [some ComponentType.grid, some .tab]
    && childType ∈ [some ComponentType.chart, some .markdown, some .column])

abbrev Checked (layout : Layout) : Prop :=
  (∀ k ∈ layout.keys, ((layout.entry k).all fun component => component.id = k) = true)
  ∧ (∀ a ∈ layout.keys, ∀ b ∈ childrenOf layout a, (layout.entry b).isSome = true
      ∧ wrappedTypes (typeOf layout a) (typeOf layout b) = true
      ∧ b ≠ dashboardRootId ∧ (b = dashboardGridId → a = dashboardRootId)
      ∧ ∀ p ∈ layout.keys, Child layout p b → p = a)
  ∧ (∀ a ∈ layout.keys, (childrenOf layout a).Nodup)
  ∧ (∀ k ∈ layout.keys, k = dashboardHeaderId ∨ k = dashboardGridId
      ∨ reachedWithin layout layout.keys.length k = true)
  ∧ (Child layout dashboardRootId dashboardGridId ∨ childrenOf layout dashboardGridId = [])
  ∧ ¬Child layout dashboardHeaderId dashboardHeaderId
  ∧ typeOf layout dashboardRootId = some .root ∧ typeOf layout dashboardGridId = some .grid

theorem under_of_reachedWithin {layout : Layout} {n : Nat} {k : String}
    (found : reachedWithin layout n k = true) : Under (Child layout) dashboardRootId k := by
  induction n generalizing k with
  | zero =>
    simp only [reachedWithin, decide_eq_true_eq] at found
    rw [found]
  | succ n ih =>
    simp only [reachedWithin, Bool.or_eq_true, decide_eq_true_eq, List.any_eq_true,
      Bool.and_eq_true] at found
    rcases found with same | ⟨p, _, edge, above⟩
    · rw [same]
    · exact (ih above).tail edge

theorem wellFormed_of_checked (layout : Layout) (checked : Checked layout) :
    WellFormed layout ∧ Anchored layout := by
  obtain ⟨ids, children, distinct, reached, gridEmpty, header, rootType, gridType⟩ := checked
  have key : ∀ {a b}, Child layout a b → a ∈ layout.keys := fun edge =>
    layout.listed _ (entry_of_child edge)
  have single : SingleParent (Child layout) := by
    intro p q c edge other
    exact (children q (key other) c other).2.2.2.2 p (key edge) edge
  have rootOnTop : ∀ a, ¬Child layout a dashboardRootId := fun a edge =>
    (children a (key edge) _ edge).2.2.1 rfl
  have gridUnderRoot : ∀ a, Child layout a dashboardGridId → a = dashboardRootId := fun a edge =>
    (children a (key edge) _ edge).2.2.2.1 rfl
  have reachable : ∀ k, layout.entry k ≠ none → k ≠ dashboardRootId → k ≠ dashboardHeaderId →
      k ≠ dashboardGridId → Under (Child layout) dashboardRootId k := by
    intro k here _ not_header not_grid
    rcases reached k (layout.listed k here) with same | same | found
    · exact (not_header same).elim
    · exact (not_grid same).elim
    · exact under_of_reachedWithin found
  refine ⟨⟨?_, ?_, ?_, ?_, single,
    acyclic_of_reachable single reachable rootOnTop gridUnderRoot header,
    reachable, fun unhung => gridEmpty.resolve_left unhung, ?_⟩,
    ⟨rootOnTop, gridUnderRoot, rootType, gridType⟩⟩
  · intro k component found
    have holds := ids k (layout.listed k (by simp [found]))
    simpa [found] using holds
  · rw [Ne, ← typeOf_eq_none, rootType]
    simp
  · intro a b edge
    exact Option.isSome_iff_ne_none.mp (children a (key edge) b edge).1
  · intro k
    by_cases here : layout.entry k = none
    · rw [childrenOf_of_none here]
      exact List.nodup_nil
    · exact distinct k (layout.listed k here)
  · intro a b edge parentType childType found foundChild
    have fits := (children a (key edge) b edge).2.1
    rw [found, foundChild] at fits
    simp only [wrappedTypes, Bool.not_eq_true', Bool.and_eq_false_iff, decide_eq_false_iff_not,
      List.mem_cons, Option.some_inj, List.not_mem_nil, or_false] at fits ⊢
    tauto

theorem not_under_of_closed {layout : Layout} {a b : String} (closed : List String)
    (start : a ∈ closed)
    (inside : ∀ k ∈ closed, ∀ c ∈ childrenOf layout k, c ∈ closed) (out : b ∉ closed) :
    ¬Under (Child layout) a b := by
  have kept : ∀ k, Under (Child layout) a k → k ∈ closed := by
    intro k reached
    induction reached with
    | refl => exact start
    | tail up last ih => exact inside _ ih _ last
  exact fun reached => out (kept b reached)

section Graft
variable {before after : Layout} {destination top : String} {inner : Option String}

theorem WellFormed.grafted (wellFormed : WellFormed before) (anchored : Anchored before)
    (grafted : Grafted before after destination top inner)
    (reached : Under (Child before) dashboardRootId destination)
    (outside : ∀ k, newParent destination top inner k ≠ none → ¬Under (Child before) k destination)
    (notGrid : newParent destination top inner dashboardGridId = none)
    (wrapped : ∀ k p, newParent destination top inner k = some p → Wrapped after p k) :
    WellFormed after ∧ Anchored after := by
  have notRoot : newParent destination top inner dashboardRootId = none := by
    by_contra new
    exact outside _ new reached
  have keptEdges : ∀ j k, Child before j k → newParent destination top inner k = none →
      Child after j k := fun j k edge old => (grafted.edges j k old).mpr edge
  have clear : ∀ k, Under (Child before) k destination →
      newParent destination top inner k = none := by
    intro k under
    by_contra new
    exact outside k new under
  have target : Under (Child after) dashboardRootId destination :=
    Forest.under_kept keptEdges clear reached
  have topEdge : Child after destination top := (grafted.moved _ _ _ newParent_top).mpr rfl
  have moved : ∀ k, newParent destination top inner k ≠ none →
      Under (Child after) dashboardRootId k := by
    intro k new
    obtain ⟨p, found⟩ := Option.ne_none_iff_exists'.mp new
    have edge := (grafted.moved p k p found).mpr rfl
    rcases newParent_cases found with ⟨_, rfl⟩ | ⟨_, rfl⟩
    · exact target.tail edge
    · exact (target.tail topEdge).tail edge
  have entries : ∀ k, before.entry k ≠ none → after.entry k ≠ none := by
    intro k present
    rw [Ne, ← typeOf_eq_none, grafted.kept k present, typeOf_eq_none]
    exact present
  have gridPresent : before.entry dashboardGridId ≠ none := by
    rw [Ne, ← typeOf_eq_none, anchored.gridType]
    simp
  have single : SingleParent (Child after) := by
    intro p q c edge other
    cases new : newParent destination top inner c with
    | none =>
      exact wellFormed.single p q c ((grafted.edges p c new).mp edge)
        ((grafted.edges q c new).mp other)
    | some parent =>
      rw [(grafted.moved p c parent new).mp edge, (grafted.moved q c parent new).mp other]
  have rootOnTop : ∀ a, ¬Child after a dashboardRootId := fun a edge =>
    anchored.rootOnTop a ((grafted.edges a _ notRoot).mp edge)
  have gridUnderRoot : ∀ a, Child after a dashboardGridId → a = dashboardRootId := fun a edge =>
    anchored.gridUnderRoot a ((grafted.edges a _ notGrid).mp edge)
  have reachable : ∀ k, after.entry k ≠ none → k ≠ dashboardRootId → k ≠ dashboardHeaderId →
      k ≠ dashboardGridId → Under (Child after) dashboardRootId k := by
    intro k here not_root not_header not_grid
    by_cases old : before.entry k = none
    · exact moved k (grafted.added k here old)
    · exact Forest.under_reparented keptEdges moved
        (wellFormed.reachable k old not_root not_header not_grid)
  have header : ¬Child after dashboardHeaderId dashboardHeaderId := by
    intro loop
    cases new : newParent destination top inner dashboardHeaderId with
    | none =>
      exact wellFormed.acyclic _ (Relation.TransGen.single ((grafted.edges _ _ new).mp loop))
    | some p =>
      have under := moved dashboardHeaderId (by simp [new])
      exact Forest.not_cyclic_of_under single rootOnTop under (Relation.TransGen.single loop)
  refine ⟨⟨grafted.keyed, entries _ wellFormed.rooted, ?_, grafted.distinct, single,
    acyclic_of_reachable single reachable rootOnTop gridUnderRoot header, reachable, ?_, ?_⟩,
    ⟨rootOnTop, gridUnderRoot, ?_, ?_⟩⟩
  · intro a b edge
    by_cases old : newParent destination top inner b = none
    · exact entries b (wellFormed.listed a b ((grafted.edges a b old).mp edge))
    · exact grafted.present b old
  · intro unhung
    have unhungBefore : ¬Child before dashboardRootId dashboardGridId := fun edge =>
      unhung ((grafted.edges _ _ notGrid).mpr edge)
    have empty := wellFormed.gridEmpty unhungBefore
    apply List.eq_nil_iff_forall_not_mem.mpr
    intro b edge
    cases new : newParent destination top inner b with
    | none =>
      have old : Child before dashboardGridId b := (grafted.edges _ b new).mp edge
      unfold Child at old
      rw [empty] at old
      cases old
    | some p =>
      have under := (moved b (by simp [new]))
      have same : dashboardGridId = p := (grafted.moved _ b p new).mp edge
      rcases newParent_cases new with ⟨_, at_destination⟩ | ⟨_, at_top⟩
      · rw [← same] at at_destination
        rcases Forest.under_cases (at_destination ▸ reached) with top | ⟨above, _, last⟩
        · exact absurd top (by decide)
        · rw [anchored.gridUnderRoot above last] at last
          exact unhungBefore last
      · rw [← same] at at_top
        rw [at_top, newParent_top] at notGrid
        cases notGrid
  · intro a b edge
    cases new : newParent destination top inner b with
    | none =>
      have old : Child before a b := (grafted.edges a b new).mp edge
      intro parentType childType found foundChild
      rw [grafted.kept a (entry_of_child old)] at found
      rw [grafted.kept b (wellFormed.listed a b old)] at foundChild
      exact wellFormed.wrapped a b old parentType childType found foundChild
    | some p =>
      rw [(grafted.moved a b p new).mp edge]
      exact wrapped b p new
  · rw [grafted.kept _ wellFormed.rooted]
    exact anchored.rootType
  · rw [grafted.kept _ gridPresent]
    exact anchored.gridType

end Graft

end Liteset.Dashboard
