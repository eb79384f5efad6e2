import Liteset.Dashboard.LayoutEdits

/-!
# Moving a component

`MOVE_COMPONENT` takes the dragged component out of one list and puts it into
another, or reorders its own list; then it may wrap it in a fresh row.
-/

set_option autoImplicit false

namespace Liteset.Dashboard

open Lib
open Lib.JsObject (Record)
open Lib.JsArray (item setItem splice spliceStart)

section Move
variable {state next : Layout} {source destination : DropPlace} {x : String}

theorem present_of_types (types : ∀ k, typeOf next k = typeOf state k) {k : String}
    (present : state.entry k ≠ none) : next.entry k ≠ none := by
  rw [Ne, ← typeOf_eq_none, types, typeOf_eq_none]
  exact present

/-- Reordering the list that holds `x` leaves `x` where it hangs. -/
theorem grafted_of_reordered (keyed : Keyed next) (types : ∀ k, typeOf next k = typeOf state k)
    (distinct : ∀ k, (childrenOf state k).Nodup)
    (single : Forest.SingleParent (Child state)) {d : String} (holds : Child state d x)
    (present : state.entry x ≠ none)
    (lists : ∀ k, (childrenOf next k).Perm (childrenOf state k)) : Grafted state next d x none where
  keyed := keyed
  kept k _ := types k
  added k here absent := by
    rw [Ne, ← typeOf_eq_none, types, typeOf_eq_none] at here
    exact (here absent).elim
  present k new := by
    have same : k = x := by
      by_contra different
      exact new (newParent_eq_none.mpr ⟨different, by simp⟩)
    rw [same]
    exact present_of_types types present
  edges a b _ := (lists a).mem_iff
  moved a b p new := by
    have same : b = x := by
      by_contra different
      rw [newParent_eq_none.mpr ⟨different, by simp⟩] at new
      cases new
    subst same
    rw [newParent_top] at new
    cases new
    unfold Child
    rw [(lists a).mem_iff]
    constructor
    · intro edge
      exact single a d b edge holds
    · rintro rfl
      exact holds
  distinct k := (lists k).nodup_iff.mpr (distinct k)

/-- Taking `x` out of one list and putting it into another. -/
theorem grafted_of_transferred (keyed : Keyed next) (types : ∀ k, typeOf next k = typeOf state k)
    (distinct : ∀ k, (childrenOf state k).Nodup)
    (single : Forest.SingleParent (Child state)) {s d : String} (different : s ≠ d)
    (holds : Child state s x) (present : state.entry x ≠ none)
    (taken : (x :: childrenOf next s).Perm (childrenOf state s))
    (put : (childrenOf next d).Perm (x :: childrenOf state d))
    (others : ∀ k, k ≠ s → k ≠ d → childrenOf next k = childrenOf state k) :
    Grafted state next d x none where
  keyed := keyed
  kept k _ := types k
  added k here absent := by
    rw [Ne, ← typeOf_eq_none, types, typeOf_eq_none] at here
    exact (here absent).elim
  present k new := by
    have same : k = x := by
      by_contra other
      exact new (newParent_eq_none.mpr ⟨other, by simp⟩)
    rw [same]
    exact present_of_types types present
  edges a b old := by
    have other : b ≠ x := (newParent_eq_none.mp old).1
    unfold Child
    by_cases at_s : a = s
    · rw [at_s, JsArray.mem_removed_iff taken (distinct s)]
      exact and_iff_left other
    · by_cases at_d : a = d
      · rw [at_d, put.mem_iff, List.mem_cons]
        exact or_iff_right other
      · rw [others a at_s at_d]
  moved a b p new := by
    have same : b = x := by
      by_contra other
      rw [newParent_eq_none.mpr ⟨other, by simp⟩] at new
      cases new
    subst same
    rw [newParent_top] at new
    cases new
    unfold Child
    by_cases at_s : a = s
    · rw [at_s, JsArray.mem_removed_iff taken (distinct s)]
      simp [different]
    · by_cases at_d : a = d
      · rw [at_d, put.mem_iff]
        simp
      · rw [others a at_s at_d]
        constructor
        · intro edge
          exact (at_s (single a s b edge holds)).elim
        · intro same
          exact (at_d same).elim
  distinct k := by
    by_cases at_s : k = s
    · rw [at_s]
      exact JsArray.nodup_removed taken (distinct s)
    · by_cases at_d : k = d
      · rw [at_d, put.nodup_iff, List.nodup_cons]
        refine ⟨fun inside => ?_, distinct d⟩
        exact different (single s d x holds inside)
      · rw [others k at_s at_d]
        exact distinct k

theorem reorder_perm {list : List String} {startIndex : Int} (endIndex : Int)
    (found : item list startIndex = some x) :
    ∃ reordered, reorder list startIndex endIndex = some reordered ∧ reordered.Perm list := by
  have nonnegative := (JsArray.item_bounds found).1
  have removed : list[spliceStart list startIndex]? = some x := by
    rw [JsArray.spliceStart_of_nonnegative nonnegative, ← JsArray.item_eq_getElem? nonnegative]
    exact found
  unfold reorder
  rw [removed]
  refine ⟨_, rfl, ?_⟩
  exact (JsArray.splice_insert_perm _ _ _).trans (JsArray.splice_remove_perm found)

theorem reorderItem_grafted (position : Option DropPosition) (keyed : Keyed state)
    (distinct : ∀ k, (childrenOf state k).Nodup)
    (single : Forest.SingleParent (Child state)) (present : state.entry x ≠ none)
    (at_source : item (childrenOf state source.id) source.index = some x)
    (destinationPresent : state.entry destination.id ≠ none) :
    ∃ next, reorderItem state source destination position = some next
      ∧ (∀ k, typeOf next k = typeOf state k) ∧ Grafted state next destination.id x none
      ∧ (source.id ≠ destination.id → isTabsType source destination = false →
        0 ≤ destination.index → destination.index ≤ (childrenOf state destination.id).length →
          item (childrenOf next destination.id) destination.index = some x) := by
  have holds : Child state source.id x := JsArray.mem_of_item at_source
  obtain ⟨current, at_current⟩ := exists_entry (entry_of_child holds)
  obtain ⟨receiving, at_next⟩ := exists_entry destinationPresent
  rw [childrenOf_of_entry at_current] at at_source
  unfold reorderItem
  rw [at_current, at_next]
  dsimp only
  by_cases sameList : source.id = destination.id
  · rw [if_pos sameList]
    unfold reorderSameList
    split
    · refine ⟨state, rfl, fun _ => rfl, ?_, fun otherList => (otherList sameList).elim⟩
      exact grafted_of_reordered keyed (fun _ => rfl) distinct single (sameList ▸ holds) present
        fun _ => List.Perm.refl _
    · obtain ⟨reordered, ran, perm⟩ := reorder_perm (if isTabsType source destination then
        dropIndexInSameTabs source destination position else destination.index) at_source
      rw [ran]
      refine ⟨_, rfl, typeOf_set_entry at_current, ?_, fun otherList => (otherList sameList).elim⟩
      refine grafted_of_reordered (keyed.setChildren at_current _) (typeOf_set_entry at_current)
        distinct single (sameList ▸ holds) present fun k => ?_
      rw [childrenOf_set]
      split
      · rename_i at_k
        rw [at_k, childrenOf_of_entry at_current]
        exact perm
      · exact List.Perm.refl _
  · rw [if_neg sameList, at_source]
    have laterEntry : (state.set source.id
        { current with children := splice current.children source.index 1 [] }).entry destination.id
          = some receiving := by
      rw [Record.entry_set, if_neg (Ne.symm sameList)]
      exact at_next
    have types : ∀ k, typeOf ((state.set source.id
        { current with children := splice current.children source.index 1 [] }).set destination.id
        { receiving with
          children := splice receiving.children
            (if isTabsType source destination then
              dropIndexInOtherTabs current.children.length destination position
            else destination.index) 0 [x] }) k = typeOf state k := by
      intro k
      rw [typeOf_set_entry laterEntry, typeOf_set_entry at_current]
    refine ⟨_, rfl, types, ?_, ?_⟩
    swap
    · intro _ notTabs nonnegative inside
      rw [childrenOf_of_entry at_next] at inside
      rw [childrenOf_set, if_pos rfl, notTabs]
      exact JsArray.item_splice_insert nonnegative inside
    refine grafted_of_transferred ?_ types distinct single sameList holds present ?_ ?_ ?_
    · exact (keyed.setChildren at_current _).setChildren laterEntry _
    · rw [childrenOf_set, if_neg sameList, childrenOf_set, if_pos rfl,
        childrenOf_of_entry at_current]
      exact JsArray.splice_remove_perm at_source
    · rw [childrenOf_set, if_pos rfl, childrenOf_of_entry at_next]
      exact JsArray.splice_insert_perm _ _ _
    · intro k at_s at_d
      rw [childrenOf_set, if_neg at_d, childrenOf_set, if_neg at_s]

theorem sameTree_of_metadata {layout : Layout} {key : String} {component : LayoutItem}
    (found : layout.entry key = some component) (metadata : JsObject.Object) :
    SameTree layout (layout.set key { component with metadata := metadata }) where
  keyed keyed := keyed.set (keyed key component found)
  types k := by
    rw [typeOf_set]
    split
    · rename_i at_key
      rw [at_key, typeOf_of_entry found]
    · rfl
  lists k := by
    rw [childrenOf_set]
    split
    · rename_i at_key
      rw [at_key, childrenOf_of_entry found]
    · rfl

theorem resizeDragged_sameTree {cache cacheAfter : ParentCache} {ids : NanoIds}
    {dragging : Dragging}
    {nextEntities : Layout}
    (ran : resizeDragged cache ids source destination dragging state nextEntities
      = some (next, cacheAfter)) : SameTree nextEntities next := by
  unfold resizeDragged at ran
  cases found : nextEntities.entry dragging.id with
  | none => simp [found] at ran
  | some dragged =>
    rw [found] at ran
    dsimp only at ran
    split at ran
    · split at ran
      · cases ran
      · split at ran
        · cases ran
          exact sameTree_of_metadata found _
        · cases ran
          exact SameTree.refl _
    · cases ran
      exact SameTree.refl _

/-- A fresh row `r` takes the place of the component that was just put below `d`. -/
theorem Grafted.wrap {middle : Layout} {d r : String} (grafted : Grafted state middle d x none)
    (listed : ∀ a b, Child state a b → state.entry b ≠ none) (present : state.entry x ≠ none)
    (fresh : state.entry r = none) (keyed : Keyed next)
    (types : ∀ k, k ≠ r → typeOf next k = typeOf middle k) (rowPresent : next.entry r ≠ none)
    (row : childrenOf next r = [x])
    (swapped : (x :: childrenOf next d).Perm (r :: childrenOf middle d))
    (others : ∀ k, k ≠ r → k ≠ d → childrenOf next k = childrenOf middle k) :
    Grafted state next d r (some x) := by
  have x_ne_r : x ≠ r := fun same => present (same ▸ fresh)
  have unlisted : ∀ a, ¬Child middle a r := by
    intro a edge
    rw [grafted.edges a r (newParent_eq_none.mpr ⟨Ne.symm x_ne_r, by simp⟩)] at edge
    exact listed a r edge fresh
  have freshMiddle : middle.entry r = none := by
    by_contra here
    refine grafted.added r here fresh (newParent_eq_none.mpr ⟨Ne.symm x_ne_r, by simp⟩)
  have d_ne_r : d ≠ r := by
    rintro rfl
    have edge : Child middle d x := (grafted.moved d x d newParent_top).mpr rfl
    exact entry_of_child edge freshMiddle
  have distinctNew : (x :: childrenOf next d).Nodup :=
    swapped.nodup_iff.mpr (List.nodup_cons.mpr ⟨unlisted d, grafted.distinct d⟩)
  have inner : ∀ k p, newParent d r (some x) k = some p → (k = r ∧ p = d) ∨ (k = x ∧ p = r) := by
    intro k p new
    unfold newParent at new
    split at new
    · rename_i at_r
      exact Or.inl ⟨at_r, (Option.some.inj new).symm⟩
    · split at new
      · rename_i at_x
        exact Or.inr ⟨(Option.some.inj at_x).symm, (Option.some.inj new).symm⟩
      · cases new
  refine ⟨keyed, ?_, ?_, ?_, ?_, ?_, ?_⟩
  · intro k here
    have other : k ≠ r := fun same => here (same ▸ fresh)
    rw [types k other]
    exact grafted.kept k here
  · intro k here absent old
    obtain ⟨other, notInner⟩ := newParent_eq_none.mp old
    rw [Ne, ← typeOf_eq_none, types k other, typeOf_eq_none] at here
    refine grafted.added k here absent (newParent_eq_none.mpr ⟨?_, by simp⟩)
    rintro rfl
    exact notInner rfl
  · intro k new
    by_cases at_r : k = r
    · rw [at_r]
      exact rowPresent
    · obtain ⟨p, found⟩ := Option.ne_none_iff_exists'.mp new
      rcases inner k p found with ⟨same, _⟩ | ⟨same, _⟩
      · exact (at_r same).elim
      · rw [Ne, ← typeOf_eq_none, types k at_r, same, typeOf_eq_none]
        exact grafted.present x (by rw [newParent_top]; simp)
  · intro a b old
    obtain ⟨not_r, notInner⟩ := newParent_eq_none.mp old
    have not_x : b ≠ x := fun same => notInner (by rw [same])
    rw [← grafted.edges a b (newParent_eq_none.mpr ⟨not_x, by simp⟩)]
    unfold Child
    by_cases at_r : a = r
    · rw [at_r, row, childrenOf_of_none freshMiddle]
      simp [not_x]
    · by_cases at_d : a = d
      · have both := swapped.mem_iff (a := b)
        rw [List.mem_cons, List.mem_cons] at both
        rw [at_d]
        tauto
      · rw [others a at_r at_d]
  · intro a b p new
    rcases inner b p new with ⟨rfl, rfl⟩ | ⟨rfl, rfl⟩
    · unfold Child
      by_cases at_r : a = b
      · rw [at_r, row]
        simp [Ne.symm x_ne_r, Ne.symm d_ne_r]
      · by_cases at_d : a = p
        · have both := swapped.mem_iff (a := b)
          rw [List.mem_cons, List.mem_cons] at both
          rw [at_d]
          tauto
        · rw [others a at_r at_d]
          exact ⟨fun edge => (unlisted a edge).elim, fun same => (at_d same).elim⟩
    · by_cases at_r : a = p
      · unfold Child
        rw [at_r, row]
        simp
      · have away : ¬Child next a b := by
          unfold Child
          by_cases at_d : a = d
          · rw [at_d]
            exact (List.nodup_cons.mp distinctNew).1
          · rw [others a at_r at_d]
            intro edge
            exact at_d ((grafted.moved a b d newParent_top).mp edge)
        exact ⟨fun edge => (away edge).elim, fun same => (at_r same).elim⟩
  · intro k
    by_cases at_r : k = r
    · rw [at_r, row]
      exact List.nodup_singleton x
    · by_cases at_d : k = d
      · rw [at_d]
        exact (List.nodup_cons.mp distinctNew).2
      · rw [others k at_r at_d]
        exact grafted.distinct k

theorem wrapInRow_grafted {middle : Layout} {ids : NanoIds}
    (listed : ∀ a b, Child state a b → state.entry b ≠ none)
    (grafted : Grafted state middle destination.id x none) (present : state.entry x ≠ none)
    (at_destination : item (childrenOf middle destination.id) destination.index = some x)
    (fresh : state.entry (uuid .row ids.row) = none) :
    ∃ next, wrapInRow ids destination middle = some next
      ∧ typeOf next (uuid .row ids.row) = some .row
      ∧ Grafted state next destination.id (uuid .row ids.row) (some x) := by
  obtain ⟨entity, at_entity⟩ := exists_entry (entry_of_child (JsArray.mem_of_item at_destination))
  have list : childrenOf middle destination.id = entity.children := childrenOf_of_entry at_entity
  rw [list] at at_destination
  have d_ne_r : destination.id ≠ uuid .row ids.row := by
    intro same
    have absent : newParent destination.id x none (uuid .row ids.row) = none :=
      newParent_eq_none.mpr ⟨fun at_x => present (at_x ▸ fresh), by simp⟩
    rw [same] at at_entity
    have here : middle.entry (uuid .row ids.row) ≠ none := by simp [at_entity]
    exact grafted.added _ here fresh absent
  have ran : wrapInRow ids destination middle = some ((middle.set destination.id
      { entity with children := setItem entity.children destination.index (uuid .row ids.row) }).set
      (uuid .row ids.row) (newRow ids entity destination.id x)) := by
    unfold wrapInRow
    rw [at_entity]
    dsimp only
    rw [at_destination]
    rfl
  refine ⟨_, ran, by rw [typeOf_set, if_pos rfl]; rfl, ?_⟩
  refine grafted.wrap listed present fresh ?_ ?_ ?_ ?_ ?_ ?_
  · exact (grafted.keyed.setChildren at_entity _).set rfl
  · intro k other
    rw [typeOf_set, if_neg other, typeOf_set_entry at_entity]
  · rw [Record.entry_set, if_pos rfl]
    simp
  · rw [childrenOf_set, if_pos rfl]
    rfl
  · rw [childrenOf_set, if_neg d_ne_r, childrenOf_set, if_pos rfl, list]
    exact JsArray.setItem_perm at_destination
  · intro k not_r not_d
    rw [childrenOf_set, if_neg not_r, childrenOf_set, if_neg not_d]

theorem moveComponent_grafted (cache : ParentCache) (position : Option DropPosition) {ids : NanoIds}
    {dragging : Dragging}
    (keyed : Keyed state) (distinct : ∀ k, (childrenOf state k).Nodup)
    (single : Forest.SingleParent (Child state))
    (listed : ∀ a b, Child state a b → state.entry b ≠ none)
    (settled : ∀ a b, Child state a b → Wrapped state a b)
    (at_source : item (childrenOf state source.id) source.index = some dragging.id)
    (dragType : typeOf state dragging.id = some dragging.type)
    (destinationType : destination.type = typeOf state destination.id)
    (destinationPresent : state.entry destination.id ≠ none)
    (nonnegative : 0 ≤ destination.index)
    (inside : destination.index ≤ (childrenOf state destination.id).length)
    (fresh : state.entry (uuid .row ids.row) = none)
    (sized : componentIsResizable dragging.type = true →
      ∃ width, getComponentWidthFromDrop cache source destination
        (draggedComponent ids source dragging state) state = some width) :
    ∃ next cacheAfter top inner,
      moveComponent cache ids ⟨some source, some destination, some dragging, position⟩ state
        = some (next, cacheAfter)
      ∧ Grafted state next destination.id top inner
      ∧ ((top = dragging.id ∧ inner = none) ∨ (state.entry top = none ∧ inner = some dragging.id))
      ∧ (∀ k p, newParent destination.id top inner k = some p → Wrapped next p k) := by
  have present : state.entry dragging.id ≠ none := by
    intro absent
    rw [typeOf_eq_none.mpr absent] at dragType
    cases dragType
  obtain ⟨reordered, ran, types, grafted, placed⟩ := reorderItem_grafted position keyed
    distinct single present at_source destinationPresent
  have resized : ∃ resized cacheAfter, resizeDragged cache ids source destination dragging state
      reordered = some (resized, cacheAfter) := by
    obtain ⟨dragged, at_dragged⟩ := exists_entry (present_of_types types present)
    have same : dragged.type = dragging.type := by
      have found := types dragging.id
      rw [typeOf_of_entry at_dragged, dragType] at found
      exact Option.some.inj found
    unfold resizeDragged
    rw [at_dragged]
    dsimp only
    rw [same]
    split
    · rename_i resizable
      obtain ⟨⟨width, later⟩, found⟩ := sized resizable
      rw [found]
      dsimp only
      split
      · exact ⟨_, _, rfl⟩
      · exact ⟨_, _, rfl⟩
    · exact ⟨_, _, rfl⟩
  obtain ⟨resized, cacheAfter, ranResized⟩ := resized
  have same := resizeDragged_sameTree ranResized
  have graftedResized := grafted.congr same
  obtain ⟨target, at_target⟩ := exists_entry destinationPresent
  have targetType := typeOf_of_entry at_target
  rw [targetType] at destinationType
  unfold moveComponent
  dsimp only
  rw [ran]
  dsimp only
  rw [ranResized]
  dsimp only
  by_cases wraps : wrapsDropped destination dragging = true
  · have should : shouldWrapChildInRow target.type dragging.type = true := by
      unfold wrapsDropped at wraps
      rw [destinationType] at wraps
      exact wraps
    have otherList : source.id ≠ destination.id := by
      intro sameList
      have edge : Child state destination.id dragging.id :=
        sameList ▸ JsArray.mem_of_item at_source
      have bare := settled _ _ edge target.type dragging.type targetType dragType
      simp only [shouldWrapChildInRow, Bool.and_eq_true, decide_eq_true_eq] at should
      refine bare ⟨should.1, ?_⟩
      have kind := should.2
      simp only [List.mem_cons, List.not_mem_nil, or_false] at kind ⊢
      tauto
    have notTabs : isTabsType source destination = false := by
      unfold isTabsType
      rw [destinationType, Bool.and_eq_false_iff]
      refine Or.inr ?_
      simp only [decide_eq_false_iff_not]
      intro tabs
      rw [Option.some.inj tabs] at should
      simp [shouldWrapChildInRow] at should
    have at_destination := placed otherList notTabs nonnegative inside
    rw [← same.lists] at at_destination
    obtain ⟨next, ranWrap, rowType, wrapped⟩ := wrapInRow_grafted listed graftedResized present
      at_destination fresh
    rw [if_pos wraps, ranWrap]
    refine ⟨next, cacheAfter, _, _, rfl, wrapped, Or.inr ⟨fresh, rfl⟩, ?_⟩
    intro k p new
    rcases newParent_cases new with ⟨rfl, rfl⟩ | ⟨_, rfl⟩
    · exact wrapped_row_child rowType
    · exact wrapped_row_parent rowType
  · rw [if_neg wraps]
    refine ⟨resized, cacheAfter, dragging.id, none, rfl, graftedResized, Or.inl ⟨rfl, rfl⟩, ?_⟩
    intro k p new
    rcases newParent_cases new with ⟨rfl, rfl⟩ | ⟨found, _⟩
    · have at_target : typeOf resized destination.id = some target.type := by
        rw [same.types, types, targetType]
      have at_dragged : typeOf resized dragging.id = some dragging.type := by
        rw [same.types, types, dragType]
      refine wrapped_of_not_should at_target at_dragged ?_
      unfold wrapsDropped at wraps
      rw [destinationType] at wraps
      simpa using wraps
    · cases found

end Move

end Liteset.Dashboard
