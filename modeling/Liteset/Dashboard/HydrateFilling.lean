import Std.Data.String.ToInt
import Liteset.Dashboard.HydrateTree

/-!
# The charts that are added to a stored layout

What the loop over the charts keeps of the stored layout, and where the rows and
holders it adds are found, for any stored layout.
-/

set_option autoImplicit false

namespace Liteset.Dashboard.Hydrate

open Lib
open Lib.Forest (Under)
open Lib.JsObject (Record)

/-- The id of the row for the draw `i`. -/
abbrev rowId (nanoid : Nat → String) (i : Nat) : String := uuid .row (nanoid i)

abbrev holderId (chartId : Int) : String := chartHolderId chartId 1

section Ids
variable (nanoid : Nat → String) (i : Nat) (n : Int)

theorem rowId_ne {other : String} (begins : other.toList.take 3 ≠ ['R', 'O', 'W']) :
    rowId nanoid i ≠ other := by
  rintro rfl
  exact begins (by simp [uuid, ComponentType.name, String.toList_append])

theorem rowId_ne_holderId : rowId nanoid i ≠ holderId n :=
  rowId_ne nanoid i (by simp [chartHolderId, String.toList_append])

theorem rowId_ne_root : rowId nanoid i ≠ dashboardRootId := rowId_ne nanoid i (by decide)

theorem rowId_ne_header : rowId nanoid i ≠ dashboardHeaderId := rowId_ne nanoid i (by decide)

theorem holderId_ne {other : String} (begins : other.toList.head? ≠ some 'C') :
    holderId n ≠ other := by
  rintro rfl
  exact begins (by simp [chartHolderId, String.toList_append])

theorem holderId_ne_root : holderId n ≠ dashboardRootId := holderId_ne n (by decide)

theorem holderId_ne_header : holderId n ≠ dashboardHeaderId := holderId_ne n (by decide)

theorem header_ne_root : dashboardHeaderId ≠ dashboardRootId := by decide

theorem holderId_ne_empty : holderId n ≠ "" := holderId_ne n (by decide)

variable {nanoid}

theorem rowId_injective (names : Function.Injective nanoid) :
    Function.Injective (rowId nanoid) := by
  intro i j same
  have chars := congrArg String.toList same
  simp only [uuid, String.toList_append, List.append_cancel_left_eq] at chars
  exact names (String.toList_inj.mp chars)

theorem holderId_injective : Function.Injective holderId := by
  intro m n same
  have chars := congrArg String.toList same
  simp only [chartHolderId, String.toList_append, List.append_cancel_right_eq,
    List.append_cancel_left_eq] at chars
  exact Int.repr_injective (String.toList_inj.mp chars)

end Ids

structure Extends (old : String → Prop) (before after : StoredLayout) : Prop where
  kept : ∀ k component, old k → componentAt before k = some component →
    ∃ now, componentAt after k = some now ∧ now.type = component.type ∧
    now.chartId = component.chartId
      ∧ now.parents = component.parents ∧ component.children ⊆ now.children
  absent : ∀ k, old k → componentAt before k = none → componentAt after k = none
  lacking : ∀ k, old k → lackingAt after k = lackingAt before k

section Extends
variable {old : String → Prop} {first second third : StoredLayout}

theorem Extends.trans (one : Extends old first second) (two : Extends old second third) :
    Extends old first third := by
  refine ⟨?_, fun k held none => two.absent k held (one.absent k held none),
    fun k held => (two.lacking k held).trans (one.lacking k held)⟩
  intro k component held found
  obtain ⟨middle, found', type, chart, parents, children⟩ := one.kept k component held found
  obtain ⟨last, found'', type', chart', parents', children'⟩ := two.kept k middle held found'
  exact ⟨last, found'', type'.trans type, chart'.trans chart, parents'.trans parents,
    fun x member =>
    children' (children member)⟩

theorem Extends.narrow {fewer : String → Prop} (ext : Extends old first second)
    (narrower : ∀ k, fewer k → old k) :
    Extends fewer first second :=
  ⟨fun k component held => ext.kept k component (narrower k held),
    fun k held => ext.absent k (narrower k held),
    fun k held => ext.lacking k (narrower k held)⟩

variable (layout : StoredLayout)

theorem extends_set (key : String) (component : StoredComponent) :
    Extends (fun k => k ≠ key) layout (layout.set key (.component component)) := by
  refine ⟨?_, ?_, ?_⟩
  · intro k item other found
    refine ⟨item, ?_, rfl, rfl, rfl, fun _ member => member⟩
    rw [componentAt_set, if_neg other]
    exact found
  · intro k other none
    rw [componentAt_set, if_neg other]
    exact none
  · intro k other
    rw [lackingAt_set, if_neg other]

theorem extends_pushChild (key child : String) :
    Extends old layout (pushChild layout key child) := by
  refine ⟨?_, ?_, fun k _ => lackingAt_pushChild⟩
  · intro k item _ found
    rw [componentAt_pushChild]
    by_cases same : k = key
    · subst same
      rw [if_pos rfl, found]
      exact ⟨_, rfl, rfl, rfl, rfl, List.subset_append_left _ _⟩
    · rw [if_neg same]
      exact ⟨item, found, rfl, rfl, rfl, fun _ member => member⟩
  · intro k _ none
    rw [componentAt_pushChild]
    by_cases same : k = key
    · subst same
      rw [if_pos rfl, none]
      rfl
    · rw [if_neg same]
      exact none

theorem extends_hang (p : String) (component : StoredComponent) :
    Extends (fun k => k ≠ component.id) layout (hang layout p component) :=
  (extends_set layout component.id component).trans (extends_pushChild _ p component.id)

/-- Only the rest of `meta` is changed. -/
theorem extends_named {layout : StoredLayout} {key : String} {component : StoredComponent}
    (found : componentAt layout key = some component) (metadata : JsObject.Object) :
    Extends old layout (layout.set key (.component { component with metadata })) := by
  refine ⟨?_, ?_, ?_⟩
  · intro k item _ found'
    rw [componentAt_set]
    by_cases same : k = key
    · subst same
      rw [found] at found'
      cases found'
      rw [if_pos rfl]
      exact ⟨_, rfl, rfl, rfl, rfl, fun _ member => member⟩
    · rw [if_neg same]
      exact ⟨item, found', rfl, rfl, rfl, fun _ member => member⟩
  · intro k _ none
    rw [componentAt_set]
    by_cases same : k = key
    · subst same
      rw [found] at none
      cases none
    · rw [if_neg same]
      exact none
  · intro k _
    rw [lackingAt_set]
    by_cases same : k = key
    · subst same
      rw [if_pos rfl]
      unfold lackingAt
      rw [entry_of_componentAt found]
      rfl
    · rw [if_neg same]

theorem Extends.child (ext : Extends old first second) {p x : String} (held : old p)
    (edge : Child first p x) : Child second p x := by
  obtain ⟨component, found, member⟩ := exists_component_of_child edge
  obtain ⟨now, found', _, _, _, children⟩ := ext.kept p component held found
  show x ∈ childrenOf second p
  rw [childrenOf_of_componentAt found']
  exact children member

end Extends

theorem child_pushChild_self {layout : StoredLayout} {key child : String}
    {component : StoredComponent}
    (found : componentAt layout key = some component) :
    Child (pushChild layout key child) key child := by
  have now : componentAt (pushChild layout key child) key
      = some { component with children := component.children ++ [child] } := by
    rw [componentAt_pushChild, if_pos rfl, found]
    rfl
  show child ∈ childrenOf (pushChild layout key child) key
  rw [childrenOf_of_componentAt now]
  exact List.mem_append_right _ List.mem_cons_self

def Missing (layout : StoredLayout) (chartId : Int) : Prop :=
  given (chartIdToLayoutId layout chartId) = false

instance (layout : StoredLayout) (chartId : Int) : Decidable (Missing layout chartId) :=
  inferInstanceAs (Decidable (given (chartIdToLayoutId layout chartId) = false))

theorem given_eq_true_iff {layoutId : Option String} : given layoutId = true ↔
    ∃ id, layoutId = some id ∧ id ≠ "" := by
  unfold given
  cases layoutId with
  | none => simp
  | some id => simp

theorem chartIdToLayoutId_spec {layout : StoredLayout}
    (keyed : ∀ k component, componentAt layout k = some component → component.id = k) {n : Int}
    {id : String}
    (found : chartIdToLayoutId layout n = some id) :
    ∃ component, componentAt layout id = some component ∧ component.type = .chart
      ∧ component.chartId = some n := by
  let Held := fun layoutIds : Int → Option String => ∀ n id, layoutIds n = some id →
    ∃ component, componentAt layout id = some component ∧ component.type = .chart
      ∧ component.chartId = some n
  have entries : ∀ entry ∈ layout.values, ∃ key, layout.entry key = some entry :=
    fun entry member =>
    Record.mem_values.mp member
  refine (?_ : Held (chartIdToLayoutId layout)) n id found
  unfold chartIdToLayoutId
  refine List.foldlRecOn layout.values _ (fun _ _ none => by cases none)
    fun layoutIds held entry member => ?_
  cases entry with
  | text value => exact held
  | component component =>
    by_cases chart : component.type = .chart
    · intro n id
      dsimp only
      rw [if_pos chart]
      by_cases same : component.chartId = some n
      · rw [if_pos same]
        rintro ⟨⟩
        obtain ⟨key, at_key⟩ := entries _ member
        have at_key := componentAt_of_entry at_key
        rw [keyed key component at_key]
        exact ⟨component, at_key, chart, same⟩
      · rw [if_neg same]
        exact held n id
    · dsimp only
      rw [if_neg chart]
      exact held

section Loop
variable (nanoid : Nat → String) (start : StoredLayout) (parentId : String)

def Old (added : Int → Prop) (k : String) : Prop :=
  (∀ i, k ≠ rowId nanoid i) ∧ ∀ n, added n → k ≠ holderId n

def HasRow (filling : Filling) : Prop :=
  ∃ i row, filling.container = rowId nanoid i ∧
    componentAt filling.layout (rowId nanoid i) = some row
    ∧ row.parents = some []
    ∧ (filling.parentHeld = true → Child filling.layout parentId (rowId nanoid i))

/-- The state of the loop when the charts of `added` have got their holders. -/
structure Filled (added : Int → Prop) (filling : Filling) : Prop where
  ids : ∀ n, added n → filling.layoutIds n = some (holderId n)
  older : ∀ n, ¬added n → filling.layoutIds n = chartIdToLayoutId start n
  counts : ∀ n, ¬added n → filling.slicesFromExploreCount n = 0
  missing : ∀ n, added n → Missing start n
  ext : Extends (Old nanoid added) start filling.layout
  unnamed : ∀ i, filling.drawn ≤ i → componentAt filling.layout (rowId nanoid i) = none
  rows : ∀ i, lackingAt filling.layout (rowId nanoid i) = false
  holders : ∀ n, added n → ∃ holder, componentAt filling.layout (holderId n) = some holder
    ∧ holder.type = .chart ∧ holder.chartId = some n
    ∧ lackingAt filling.layout (holderId n) = false ∧ ∃ i,
      Child filling.layout (rowId nanoid i) (holderId n)
  row : (∃ n, added n) ∨ filling.newSlicesContainerWidth ≠ 0 → HasRow nanoid parentId filling
  held : (∀ n, added n → parentId ≠ holderId n) → filling.parentHeld = true

variable {nanoid start parentId} {added : Int → Prop} {filling : Filling}

abbrev nextRow (nanoid : Nat → String) (parentParents : List String) (filling : Filling) :
    StoredComponent :=
  newComponentFactory .row none (spreadList parentParents) [] (nanoid filling.drawn)

theorem addRow_layout (parentParents : List String) :
    (addRow nanoid parentId parentParents filling).layout
      = if filling.parentHeld
      then hang filling.layout parentId (nextRow nanoid parentParents filling)
        else filling.layout.set (rowId nanoid filling.drawn)
          (.component (nextRow nanoid parentParents filling)) := rfl

abbrev nextHolder (nanoid : Nat → String) (filling : Filling) (slice : Slice) : StoredComponent :=
  { newComponentFactory .chart (some slice.sliceId) JsObject.empty
      (((componentAt filling.layout filling.container).bind StoredComponent.parents).getD [])
      (nanoid filling.drawn) with
    id := holderId slice.sliceId }

theorem addHolder_layout {slice : Slice} (none : filling.slicesFromExploreCount slice.sliceId = 0) :
    (addHolder nanoid parentId filling slice).layout
      = hang filling.layout filling.container (nextHolder nanoid filling slice) := by
  unfold addHolder hang
  rw [none]

theorem HasRow.of_extends {after : Filling} (row : HasRow nanoid parentId filling)
    (container : after.container = filling.container)
    (held : after.parentHeld = true → filling.parentHeld = true)
    {old : String → Prop} (ext : Extends old filling.layout after.layout)
    (rows : ∀ i, old (rowId nanoid i))
    (parent : after.parentHeld = true → old parentId) : HasRow nanoid parentId after := by
  obtain ⟨i, component, named, found, parents, listed⟩ := row
  obtain ⟨now, found', _, _, parents', _⟩ := ext.kept _ component (rows i) found
  exact ⟨i, now, container.trans named, found', parents'.trans parents, fun still =>
    ext.child (parent still) (listed (held still))⟩

theorem Filled.given_iff (filled : Filled nanoid start parentId added filling) {n : Int} :
    given (filling.layoutIds n) = false ↔ Missing start n ∧ ¬added n := by
  by_cases new : added n
  · rw [filled.ids n new]
    refine ⟨fun lost => ?_, fun other => (other.2 new).elim⟩
    rw [given_eq_true_iff.mpr ⟨_, rfl, holderId_ne_empty n⟩] at lost
    cases lost
  · rw [filled.older n new]
    exact ⟨fun lost => ⟨lost, new⟩, And.left⟩

theorem Filled.lacking_iff (filled : Filled nanoid start parentId added filling)
    (fresh : ∀ i, start.entry (rowId nanoid i) = none) {k : String} :
    lackingAt filling.layout k = true ↔ lackingAt start k = true ∧ ∀ n, added n →
    k ≠ holderId n := by
  by_cases row : ∃ i, k = rowId nanoid i
  · obtain ⟨i, rfl⟩ := row
    rw [filled.rows i]
    refine ⟨fun lost => (Bool.noConfusion lost), fun lacks => ?_⟩
    unfold lackingAt at lacks
    rw [fresh i] at lacks
    exact Bool.noConfusion lacks.1
  · rw [not_exists] at row
    by_cases new : ∃ n, added n ∧ k = holderId n
    · obtain ⟨n, added, rfl⟩ := new
      obtain ⟨_, _, _, _, lacks, _⟩ := filled.holders n added
      rw [lacks]
      exact ⟨fun lost => Bool.noConfusion lost, fun other => (other.2 n added rfl).elim⟩
    · have others : ∀ n, added n → k ≠ holderId n := fun n added same => new ⟨n, added, same⟩
      rw [filled.ext.lacking k ⟨row, others⟩]
      exact (and_iff_left others).symm

theorem Filled.of_extends (filled : Filled nanoid start parentId added filling)
    {layout : StoredLayout}
    (ext : Extends (fun _ => True) filling.layout layout) :
    Filled nanoid start parentId added { filling with layout := layout } where
  __ := filled
  ext := filled.ext.trans (ext.narrow fun _ _ => trivial)
  unnamed := fun i drawn => ext.absent _ trivial (filled.unnamed i drawn)
  rows := fun i => (ext.lacking _ trivial).trans (filled.rows i)
  holders := by
    intro n new
    obtain ⟨holder, found, type, chart, lacks, i, edge⟩ := filled.holders n new
    obtain ⟨now, found', type', chart', _, _⟩ := ext.kept _ holder trivial found
    exact ⟨now, found', type'.trans type, chart'.trans chart,
      (ext.lacking _ trivial).trans lacks, i,
      ext.child trivial edge⟩
  row := fun some => (filled.row some).of_extends rfl id ext (fun _ => trivial) fun _ => trivial

section Steps
variable (fresh : ∀ i, start.entry (rowId nanoid i) = none)
include fresh

theorem ne_rowId {k : String} {component : StoredComponent}
    (found : componentAt start k = some component) (i : Nat) :
    k ≠ rowId nanoid i := by
  rintro rfl
  have entry := entry_of_componentAt found
  rw [fresh i] at entry
  cases entry

theorem Filled.component (filled : Filled nanoid start parentId added filling) {k : String}
    {component : StoredComponent} (found : componentAt start k = some component) :
    ∃ now, componentAt filling.layout k = some now := by
  by_cases new : ∃ n, added n ∧ k = holderId n
  · obtain ⟨n, added, rfl⟩ := new
    obtain ⟨holder, found', _⟩ := filled.holders n added
    exact ⟨holder, found'⟩
  · obtain ⟨now, found', _⟩ := filled.ext.kept k component
      ⟨ne_rowId fresh found, fun n added same => new ⟨n, added, same⟩⟩ found
    exact ⟨now, found'⟩

variable (names : Function.Injective nanoid) {parent : StoredComponent}
  (foundParent : componentAt start parentId = some parent) (parentParents : List String)
include names foundParent

theorem Filled.addRow (filled : Filled nanoid start parentId added filling) :
    Filled nanoid start parentId added (addRow nanoid parentId parentParents filling)
      ∧ HasRow nanoid parentId (Hydrate.addRow nanoid parentId parentParents filling) := by
  let row := nextRow nanoid parentParents filling
  let after := Hydrate.addRow nanoid parentId parentParents filling
  have other : parentId ≠ row.id := ne_rowId fresh foundParent filling.drawn
  obtain ⟨top, foundTop⟩ := filled.component fresh foundParent
  have layoutEq : after.layout = if filling.parentHeld then hang filling.layout parentId row
      else filling.layout.set row.id (.component row) := addRow_layout parentParents
  have ext : Extends (fun k => k ≠ row.id) filling.layout after.layout := by
    rw [layoutEq]
    split
    · exact extends_hang filling.layout parentId row
    · exact extends_set filling.layout row.id row
  have found : componentAt after.layout row.id = some row := by
    rw [layoutEq]
    split
    · rw [componentAt_hang foundTop other, if_neg other.symm, if_pos rfl]
    · rw [componentAt_set, if_pos rfl]
  have hung : filling.parentHeld = true → Child after.layout parentId row.id := by
    intro held
    rw [layoutEq, if_pos held]
    have stored : componentAt (filling.layout.set row.id (.component row)) parentId = some top := by
      rw [componentAt_set, if_neg other]
      exact foundTop
    exact child_pushChild_self stored
  have hasRow : HasRow nanoid parentId after := ⟨filling.drawn, row, rfl, found, rfl, hung⟩
  have holderOld : ∀ n, holderId n ≠ row.id :=
    fun n => (rowId_ne_holderId nanoid filling.drawn n).symm
  refine ⟨⟨filled.ids, filled.older, filled.counts, filled.missing, ?_, ?_, ?_, ?_,
    fun _ => hasRow, filled.held⟩, hasRow⟩
  · exact filled.ext.trans (ext.narrow fun k old => old.1 filling.drawn)
  · intro i drawn
    have drawn : filling.drawn + 1 ≤ i := drawn
    refine ext.absent _ (fun same => ?_) (filled.unnamed i (by omega))
    have same := rowId_injective names same
    omega
  · intro i
    by_cases same : rowId nanoid i = row.id
    · rw [same]
      exact not_lackingAt found rfl
    · exact (ext.lacking _ same).trans (filled.rows i)
  · intro n new
    obtain ⟨holder, found', type, chart, lacks, i, edge⟩ := filled.holders n new
    obtain ⟨now, found'', type', chart', _, _⟩ := ext.kept _ holder (holderOld n) found'
    refine ⟨now, found'', type'.trans type, chart'.trans chart,
      (ext.lacking _ (holderOld n)).trans lacks, i, ?_⟩
    refine ext.child (fun same => ?_) edge
    obtain ⟨component, stored, _⟩ := exists_component_of_child edge
    rw [rowId_injective names same, filled.unnamed filling.drawn (Nat.le_refl _)] at stored
    cases stored

theorem Filled.withRow (filled : Filled nanoid start parentId added filling) :
    Filled nanoid start parentId added (withRow nanoid parentId parentParents filling)
      ∧ HasRow nanoid parentId (Hydrate.withRow nanoid parentId parentParents filling) := by
  unfold Hydrate.withRow
  split
  · exact filled.addRow fresh names foundParent parentParents
  · rename_i room
    exact ⟨filled, filled.row (.inr fun empty => room (.inl empty))⟩

omit fresh names foundParent

theorem Filled.addHolder (filled : Filled nanoid start parentId added filling)
    (hasRow : HasRow nanoid parentId filling) {slice : Slice} (new : ¬added slice.sliceId)
    (missing : Missing start slice.sliceId) :
    Filled nanoid start parentId (fun n => added n ∨ n = slice.sliceId)
      (addHolder nanoid parentId filling slice) := by
  obtain ⟨i, row, named, foundRow, _, _⟩ := hasRow
  let after := Hydrate.addHolder nanoid parentId filling slice
  let holder := nextHolder nanoid filling slice
  have count : filling.slicesFromExploreCount slice.sliceId + 1 = 1 := by
    rw [filled.counts _ new]
  have layoutEq : after.layout = hang filling.layout (rowId nanoid i) holder :=
    (addHolder_layout (filled.counts _ new)).trans (by rw [named])
  have other : rowId nanoid i ≠ holder.id := rowId_ne_holderId nanoid i slice.sliceId
  have ext : Extends (fun k => k ≠ holder.id) filling.layout after.layout := by
    rw [layoutEq]
    exact extends_hang filling.layout (rowId nanoid i) holder
  have found : componentAt after.layout holder.id = some holder := by
    rw [layoutEq, componentAt_hang foundRow other, if_neg other.symm, if_pos rfl]
  have hung : Child after.layout (rowId nanoid i) holder.id := by
    rw [layoutEq]
    have stored : componentAt (filling.layout.set holder.id (.component holder)) (rowId nanoid i) =
        some row := by
      rw [componentAt_set, if_neg other]
      exact foundRow
    exact child_pushChild_self stored
  have heldEq : after.parentHeld =
      (filling.parentHeld && decide (holderId slice.sliceId ≠ parentId)) := by
    show (filling.parentHeld &&
      decide (chartHolderId slice.sliceId (filling.slicesFromExploreCount slice.sliceId + 1)
      ≠ parentId)) = _
    rw [count]
  have rowOld : ∀ j, rowId nanoid j ≠ holder.id := fun j => rowId_ne_holderId nanoid j slice.sliceId
  have row' : HasRow nanoid parentId after := by
    refine HasRow.of_extends ⟨i, row, named, foundRow, ‹_›, ‹_›⟩ rfl ?_ ext rowOld ?_
    · intro held
      rw [heldEq, Bool.and_eq_true] at held
      exact held.1
    · intro held
      rw [heldEq, Bool.and_eq_true, decide_eq_true_eq] at held
      exact held.2.symm
  refine ⟨?_, ?_, ?_, ?_, ?_, ?_, ?_, ?_, fun _ => row', ?_⟩
  · intro n now
    show (if n = slice.sliceId then some (chartHolderId slice.sliceId _) else
      filling.layoutIds n) = _
    by_cases same : n = slice.sliceId
    · rw [if_pos same, count, same]
    · rw [if_neg same]
      exact filled.ids n (now.resolve_right same)
  · intro n old
    rw [not_or] at old
    show (if n = slice.sliceId then some (chartHolderId slice.sliceId _) else
      filling.layoutIds n) = _
    rw [if_neg old.2]
    exact filled.older n old.1
  · intro n old
    rw [not_or] at old
    show (if n = slice.sliceId then _ else filling.slicesFromExploreCount n) = 0
    rw [if_neg old.2]
    exact filled.counts n old.1
  · rintro n (before | rfl)
    · exact filled.missing n before
    · exact missing
  · refine (filled.ext.narrow fun k old => ?_).trans (ext.narrow fun k old => ?_)
    · exact ⟨old.1, fun n new => old.2 n (.inl new)⟩
    · exact old.2 _ (.inr rfl)
  · intro j drawn
    have drawn : filling.drawn + 1 ≤ j := drawn
    exact ext.absent _ (rowOld j) (filled.unnamed j (by omega))
  · exact fun j => (ext.lacking _ (rowOld j)).trans (filled.rows j)
  · intro n now
    by_cases same : n = slice.sliceId
    · subst same
      exact ⟨holder, found, rfl, rfl, not_lackingAt found rfl, i, hung⟩
    · obtain ⟨before, found', type, chart, lacks, j, edge⟩ :=
        filled.holders n (now.resolve_right same)
      have old : holderId n ≠ holder.id := fun equal => same (holderId_injective equal)
      obtain ⟨now, found'', type', chart', _, _⟩ := ext.kept _ before old found'
      exact ⟨now, found'', type'.trans type, chart'.trans chart, (ext.lacking _ old).trans lacks, j,
        ext.child (rowOld j) edge⟩
  · intro away
    show after.parentHeld = true
    rw [heldEq, filled.held fun n new => away n (.inl new), Bool.true_and, decide_eq_true_eq]
    exact (away _ (.inr rfl)).symm

theorem Filled.syncName (filled : Filled nanoid start parentId added filling)
    (keyed : ∀ k component, componentAt start k = some component → component.id = k)
    (fresh : ∀ i, start.entry (rowId nanoid i) = none) (slice : Slice) :
    syncName filling slice = some filling
      ∨ ∃ key component, componentAt filling.layout key = some component
        ∧ syncName filling slice = some { filling with
            layout := filling.layout.set key (.component { component with
              metadata := JsObject.spread component.metadata
                (JsObject.single "sliceName" (JsObject.text slice.sliceName)) }) } := by
  unfold Hydrate.syncName
  cases named : filling.layoutIds slice.sliceId with
  | none => exact .inl rfl
  | some id =>
    have held : ∃ component, componentAt filling.layout id = some component := by
      by_cases new : added slice.sliceId
      · rw [filled.ids _ new] at named
        cases named
        obtain ⟨holder, found, _⟩ := filled.holders _ new
        exact ⟨holder, found⟩
      · rw [filled.older _ new] at named
        obtain ⟨component, found, _⟩ := chartIdToLayoutId_spec keyed named
        exact filled.component fresh found
    obtain ⟨component, found⟩ := held
    dsimp only
    by_cases blank : id = ""
    · rw [if_pos blank]
      exact .inl rfl
    · rw [if_neg blank, entry_of_componentAt found]
      exact .inr ⟨id, component, found, rfl⟩

theorem Filled.congr {others : Int → Prop} (filled : Filled nanoid start parentId added filling)
    (same : ∀ n, added n ↔ others n) : Filled nanoid start parentId others filling := by
  have equal : added = others := funext fun n => propext (same n)
  exact equal ▸ filled

end Steps

end Loop

end Liteset.Dashboard.Hydrate
