import Liteset.Dashboard.HydrateFilling

/-!
# The tree grows by the charts that are added

The loop over the charts never throws.  As long as no holder takes the place of a
component, each row and each holder is one leaf more.
-/

set_option autoImplicit false

namespace Liteset.Dashboard.Hydrate

open Lib.Forest (Under)

def Adds (layout : StoredLayout) (charts : List Slice) (n : Int) : Prop :=
  (∃ slice ∈ charts, slice.sliceId = n) ∧ Missing layout n

section Container
variable {layout : StoredLayout} (tree : Tree layout)
include tree

theorem firstChild_spec {k : String} {item top : StoredComponent}
    (found : componentAt layout k = some item) (foundTop : firstChild layout item = some top) :
    componentAt layout top.id = some top ∧
      (Child layout k top.id ∨ item.children.length = 0 ∧ top.id = "undefined") := by
  have named := tree.keyed _ top foundTop
  refine ⟨named ▸ foundTop, ?_⟩
  cases children : item.children with
  | nil => exact Or.inr ⟨rfl, by rw [named, children]; rfl⟩
  | cons child rest =>
    refine Or.inl ?_
    show top.id ∈ childrenOf layout k
    rw [childrenOf_of_componentAt found, named, children]
    exact List.mem_cons_self

/-- The container is in the tree, or a component called `undefined` stands in for a child
that is missing. -/
theorem findFirstParentContainerId_spec {parentId : String}
    (container : findFirstParentContainerId layout = some parentId) :
    (∃ parent, componentAt layout parentId = some parent) ∧
      (Under (Child layout) dashboardRootId parentId ∨ parentId = "undefined") := by
  unfold findFirstParentContainerId at container
  cases foundRoot : componentAt layout dashboardRootId with
  | none =>
    rw [foundRoot] at container
    cases container
  | some root =>
    rw [foundRoot] at container
    dsimp only at container
    cases foundTop : firstChild layout root with
    | none =>
      rw [foundTop] at container
      cases container
    | some top =>
      rw [foundTop] at container
      dsimp only at container
      obtain ⟨atTop, toTop⟩ := firstChild_spec tree foundRoot foundTop
      split at container
      · rename_i tabs
        obtain ⟨tab, foundTab, rfl⟩ := Option.map_eq_some_iff.mp container
        obtain ⟨atTab, toTab⟩ := firstChild_spec tree atTop foundTab
        have edge := toTop.resolve_right fun none => tabs.1 none.1
        exact ⟨⟨tab, atTab⟩, toTab.imp (Relation.ReflTransGen.single edge).tail And.right⟩
      · cases container
        exact ⟨⟨top, atTop⟩, toTop.imp .single And.right⟩

end Container

section Loop
variable {nanoid : Nat → String} {start : StoredLayout} {parentId : String}
    {parent : StoredComponent}
  (parentParents : List String) (names : Function.Injective nanoid)
  (fresh : ∀ i, start.entry (rowId nanoid i) = none)
  (foundParent : componentAt start parentId = some parent)
include names fresh foundParent

section Step
variable {added : Int → Prop} {filling : Filling}

theorem Filled.addIfMissing (filled : Filled nanoid start parentId added filling) (slice : Slice) :
    Filled nanoid start parentId (fun n => added n ∨ n = slice.sliceId ∧ Missing start n)
      (addIfMissing nanoid parentId parentParents filling slice) := by
  obtain ⟨top, foundTop⟩ := filled.component fresh foundParent
  have present : (filling.layout.entry parentId).isSome = true := by
    rw [entry_of_componentAt foundTop]
    rfl
  unfold Hydrate.addIfMissing
  by_cases lost : Missing start slice.sliceId ∧ ¬added slice.sliceId
  · rw [if_pos ⟨filled.given_iff.mpr lost, present⟩]
    obtain ⟨rowed, hasRow⟩ := filled.withRow fresh names foundParent parentParents
    refine (rowed.addHolder hasRow lost.2 lost.1).congr fun n => or_congr_right ?_
    exact ⟨fun same => ⟨same, same ▸ lost.1⟩, And.left⟩
  · rw [if_neg fun both => lost (filled.given_iff.mp both.1)]
    refine filled.congr fun n => ⟨Or.inl, fun now => now.elim id fun same => ?_⟩
    by_contra old
    exact lost ⟨same.1 ▸ same.2, same.1 ▸ old⟩

variable (tree : Tree start)
include tree

theorem Filled.placeSlice (filled : Filled nanoid start parentId added filling) (slice : Slice) :
    ∃ after, placeSlice nanoid parentId parentParents filling slice = some after
      ∧ Filled nanoid start parentId (fun n => added n ∨ n = slice.sliceId ∧ Missing start n)
        after := by
  have grown := filled.addIfMissing parentParents names fresh foundParent slice
  rcases grown.syncName tree.keyed fresh slice with same | ⟨key, component, found, named⟩
  · exact ⟨_, same, grown⟩
  · exact ⟨_, named, grown.of_extends (extends_named found _)⟩

end Step

variable (tree : Tree start)
include tree

/-- The loop never throws, and it gives a holder to each chart that has none; what each
step keeps holds at its end. -/
theorem placeSlices_run (P : (Int → Prop) → Filling → Prop) :
    ∀ (charts : List Slice) (added : Int → Prop)
    (filling : Filling),
    (∀ slice ∈ charts, ∀ added filling after, Filled nanoid start parentId added filling →
      P added filling →
      placeSlice nanoid parentId parentParents filling slice = some after →
      P (fun n => added n ∨ n = slice.sliceId ∧ Missing start n) after) →
    Filled nanoid start parentId added filling → P added filling →
    ∃ after, placeSlices nanoid parentId parentParents filling charts = some after
      ∧ Filled nanoid start parentId (fun n => added n ∨ Adds start charts n) after
      ∧ P (fun n => added n ∨ Adds start charts n) after := by
  intro charts
  induction charts with
  | nil =>
    intro added filling _ filled holds
    have none : added = fun n => added n ∨ Adds start [] n := by
      funext n
      exact propext ⟨Or.inl, fun now => now.elim id fun new => by
        obtain ⟨⟨slice, listed, _⟩, _⟩ := new
        exact (List.not_mem_nil listed).elim⟩
    rw [← none]
    exact ⟨filling, rfl, filled, holds⟩
  | cons slice rest ih =>
    intro added filling keeps filled holds
    obtain ⟨next, first, filledNext⟩ :=
      filled.placeSlice parentParents names fresh foundParent tree slice
    have holdsNext := keeps slice List.mem_cons_self added filling next filled holds first
    obtain ⟨after, others, filledAfter, holdsAfter⟩ :=
      ih _ next (fun other listed => keeps other (List.mem_cons_of_mem _ listed)) filledNext
        holdsNext
    have all : (fun n => (added n ∨ n = slice.sliceId ∧ Missing start n) ∨ Adds start rest n)
        = fun n => added n ∨ Adds start (slice :: rest) n := by
      funext n
      unfold Adds
      simp only [List.exists_mem_cons_iff, or_and_right, or_assoc, eq_comm]
    rw [all] at filledAfter holdsAfter
    refine ⟨after, ?_, filledAfter, holdsAfter⟩
    rw [placeSlices, first]
    exact others

end Loop

structure Grown (start : StoredLayout) (parentId : String) (wanted added : Int → Prop)
    (filling : Filling) : Prop where
  tree : Tree filling.layout
  parent : Under (Child filling.layout) dashboardRootId parentId
  header : ¬Under (Child filling.layout) dashboardRootId dashboardHeaderId
  ahead : ∀ n, wanted n → Missing start n → ¬added n →
    ¬Under (Child filling.layout) dashboardRootId (holderId n)
  only : ∀ n, added n → wanted n

section Grown
variable {nanoid : Nat → String} {start : StoredLayout} {parentId : String}
    {parentParents : List String}
  {wanted added : Int → Prop} {filling after : Filling}

theorem Grown.of_hang {others : Int → Prop} {p : String} {component : StoredComponent}
    (grown : Grown start parentId wanted added filling)
    (layout : after.layout = hang filling.layout p component)
    (reached : Under (Child filling.layout) dashboardRootId p)
    (outside : ¬Under (Child filling.layout) dashboardRootId component.id)
    (leaf : component.children = [])
    (header : component.id ≠ dashboardHeaderId)
    (later : ∀ n, ¬others n → ¬added n ∧ holderId n ≠ component.id)
    (only : ∀ n, others n → wanted n) :
    Grown start parentId wanted others after := by
  have under := fun k => grown.tree.under_hang_iff (k := k) reached outside leaf
  rw [← layout] at under
  refine ⟨layout ▸ grown.tree.hang reached outside leaf, (under _).mpr (Or.inl grown.parent), ?_,
    ?_, only⟩
  · intro way
    rcases (under _).mp way with old | same
    · exact grown.header old
    · exact header same.symm
  · intro n want missing new way
    rcases (under _).mp way with old | same
    · exact grown.ahead n want missing (later n new).1 old
    · exact (later n new).2 same

theorem Grown.of_sameShape (grown : Grown start parentId wanted added filling)
    (same : SameShape filling.layout after.layout) : Grown start parentId wanted added after := by
  have edges := same.child_eq
  refine ⟨grown.tree.of_sameShape same, ?_, ?_, ?_, grown.only⟩
  · rw [edges]
    exact grown.parent
  · rw [edges]
    exact grown.header
  · rw [edges]
    exact grown.ahead

variable (names : Function.Injective nanoid) (fresh : ∀ i, start.entry (rowId nanoid i) = none)
  {parent : StoredComponent} (foundParent : componentAt start parentId = some parent)
  (reached : Under (Child start) dashboardRootId parentId)
  (clear : ∀ n, wanted n → Missing start n → ¬Under (Child start) dashboardRootId (holderId n))
include reached clear

theorem Grown.held (grown : Grown start parentId wanted added filling)
    (filled : Filled nanoid start parentId added filling) : filling.parentHeld = true :=
  filled.held fun n new same => clear n (grown.only n new) (filled.missing n new) (same ▸ reached)

theorem Grown.withRow (parentParents : List String)
    (grown : Grown start parentId wanted added filling)
    (filled : Filled nanoid start parentId added filling) :
    Grown start parentId wanted added (withRow nanoid parentId parentParents filling) := by
  unfold Hydrate.withRow
  split
  · have layout : (addRow nanoid parentId parentParents filling).layout = _ :=
      addRow_layout parentParents
    rw [if_pos (grown.held reached clear filled)] at layout
    refine grown.of_hang layout grown.parent (fun way => ?_) rfl (rowId_ne_header nanoid _)
      (fun n new => ?_) grown.only
    · obtain ⟨component, found⟩ := grown.tree.component_of_under way
      exact Option.some_ne_none _ (found.symm.trans (filled.unnamed filling.drawn (Nat.le_refl _)))
    · exact ⟨new, (rowId_ne_holderId nanoid filling.drawn n).symm⟩
  · exact grown

theorem Grown.addHolder (grown : Grown start parentId wanted added filling)
    (filled : Filled nanoid start parentId added filling) (hasRow : HasRow nanoid parentId filling)
    {slice : Slice}
    (want : wanted slice.sliceId) (new : ¬added slice.sliceId)
    (missing : Missing start slice.sliceId) :
    Grown start parentId wanted (fun n => added n ∨ n = slice.sliceId)
      (addHolder nanoid parentId filling slice) := by
  obtain ⟨i, row, named, _, _, listed⟩ := hasRow
  have edge := listed (grown.held reached clear filled)
  refine grown.of_hang (addHolder_layout (filled.counts _ new)) ?_
    (grown.ahead _ want missing new) rfl
    (holderId_ne_header _) (fun n other => ?_) (fun n now => ?_)
  · rw [named]
    exact grown.parent.tail edge
  · rw [not_or] at other
    exact ⟨other.1, fun same => other.2 (holderId_injective same)⟩
  · exact now.elim (grown.only n) fun same => same ▸ want

include names fresh foundParent

theorem Grown.placeSlice (grown : Grown start parentId wanted added filling)
    (filled : Filled nanoid start parentId added filling) (tree : Tree start) {slice : Slice}
    (want : wanted slice.sliceId)
    (run : placeSlice nanoid parentId parentParents filling slice = some after) :
    Grown start parentId wanted (fun n => added n ∨ n = slice.sliceId ∧ Missing start n) after := by
  have held : Grown start parentId wanted (fun n => added n ∨ n = slice.sliceId ∧ Missing start n)
      (addIfMissing nanoid parentId parentParents filling slice) := by
    unfold addIfMissing
    split
    · rename_i test
      obtain ⟨missing, new⟩ := filled.given_iff.mp test.1
      obtain ⟨rowed, hasRow⟩ := filled.withRow fresh names foundParent parentParents
      have grown := (grown.withRow reached clear parentParents filled).addHolder reached clear rowed
        hasRow want new missing
      have same : (fun n => added n ∨ n = slice.sliceId)
          = fun n => added n ∨ n = slice.sliceId ∧ Missing start n := by
        funext n
        exact propext (or_congr_right ⟨fun same => ⟨same, same ▸ missing⟩, And.left⟩)
      exact same ▸ grown
    · rename_i test
      obtain ⟨top, foundTop⟩ := filled.component fresh foundParent
      have present : (filling.layout.entry parentId).isSome = true := by
        rw [entry_of_componentAt foundTop]
        rfl
      have same : added = fun n => added n ∨ n = slice.sliceId ∧ Missing start n := by
        funext n
        refine propext ⟨Or.inl, fun now => now.elim id fun same => ?_⟩
        by_contra old
        exact test ⟨filled.given_iff.mpr ⟨same.1 ▸ same.2, same.1 ▸ old⟩, present⟩
      exact same ▸ grown
  have filled := filled.addIfMissing parentParents names fresh foundParent slice
  unfold Hydrate.placeSlice at run
  rcases filled.syncName tree.keyed fresh slice with same | ⟨key, component, found, named⟩
  · rw [same] at run
    exact Option.some.inj run ▸ held
  · rw [named] at run
    cases run
    exact held.of_sameShape (sameShape_set found rfl)

end Grown

/-- Below a container that is outside the tree nothing enters it. -/
def NothingEnters (start : StoredLayout) (filling : Filling) : Prop :=
  ∀ k, Under (Child filling.layout) dashboardRootId k → Under (Child start) dashboardRootId k

section Outside
variable {nanoid : Nat → String} {start : StoredLayout} {parentId : String}
    {parentParents : List String} {added : Int → Prop} {filling after : Filling}

theorem NothingEnters.of_sameShape (nothing : NothingEnters start filling)
    (same : SameShape filling.layout after.layout) : NothingEnters start after := by
  intro k way
  rw [same.child_eq] at way
  exact nothing k way

theorem NothingEnters.hung (nothing : NothingEnters start filling) {p : String}
    (outside : ¬Under (Child start) dashboardRootId p)
    (edges : ∀ a b, Child after.layout a b → Child filling.layout a b ∨ a = p) :
    NothingEnters start after := by
  intro k way
  refine nothing k (Lib.Forest.under_of_outside (fun a b edge => ?_) way)
  rcases edges a b edge with old | rfl
  · exact Or.inl old
  · exact Or.inr fun inside => outside (nothing a inside)

variable (names : Function.Injective nanoid) (fresh : ∀ i, start.entry (rowId nanoid i) = none)
  {parent : StoredComponent} (foundParent : componentAt start parentId = some parent)
  (outside : ¬Under (Child start) dashboardRootId parentId)
include names fresh foundParent outside

theorem NothingEnters.placeSlice (nothing : NothingEnters start filling)
    (filled : Filled nanoid start parentId added filling) (tree : Tree start) {slice : Slice}
    (run : placeSlice nanoid parentId parentParents filling slice = some after) :
    NothingEnters start after := by
  have rows : ∀ i, ¬Under (Child start) dashboardRootId (rowId nanoid i) := by
    intro i way
    obtain ⟨component, found⟩ := tree.component_of_under way
    exact ne_rowId fresh found i rfl
  have held : NothingEnters start (addIfMissing nanoid parentId parentParents filling slice) := by
    unfold addIfMissing
    split
    · rename_i test
      obtain ⟨_, new⟩ := filled.given_iff.mp test.1
      obtain ⟨rowed, i, _, named, _⟩ := filled.withRow fresh names foundParent parentParents
      have rowAdded : NothingEnters start (withRow nanoid parentId parentParents filling) := by
        unfold withRow
        split
        · refine nothing.hung outside fun a b edge => ?_
          rw [addRow_layout] at edge
          split at edge
          · exact child_of_hang rfl edge
          · exact Or.inl (child_of_set rfl edge)
        · exact nothing
      refine rowAdded.hung (rows i) fun a b edge => ?_
      rw [addHolder_layout (rowed.counts _ new), named] at edge
      exact child_of_hang rfl edge
    · exact nothing
  have filled := filled.addIfMissing parentParents names fresh foundParent slice
  unfold Hydrate.placeSlice at run
  rcases filled.syncName tree.keyed fresh slice with same | ⟨key, component, found, named⟩
  · rw [same] at run
    exact Option.some.inj run ▸ held
  · rw [named] at run
    cases run
    exact held.of_sameShape (sameShape_set found rfl)

end Outside

end Liteset.Dashboard.Hydrate
