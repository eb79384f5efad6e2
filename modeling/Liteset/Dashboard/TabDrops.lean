import Liteset.Dashboard.LayoutReducer

/-!
# Dropping a tab beside another

Where `reorderItem` puts a tab that is dropped on the left or right side of a tab of the
same or of another tabs component.
-/

set_option autoImplicit false

namespace Liteset.Dashboard

open Lib List
open Lib.JsObject (Record)
open Lib.JsArray (item splice spliceStart)

section Lists
variable {α : Type} {list front back : List α} {value : α} {index : Int}

theorem splice_remove (nonnegative : 0 ≤ index) :
    splice list index 1 [] = list.eraseIdx index.toNat := by
  rw [splice, JsArray.spliceStart_of_nonnegative nonnegative, append_nil,
    eraseIdx_eq_take_drop_succ]

theorem splice_insert (isIndex : index = front.length) :
    splice (front ++ back) index 0 [value] = front ++ value :: back := by
  rw [splice, JsArray.spliceStart_of_nonnegative (by omega), isIndex, Int.toNat_natCast, take_left,
    Nat.add_zero, drop_left, append_assoc, singleton_append]

theorem item_split (found : item list index = some value) :
    ∃ front back, list = front ++ value :: back ∧ index = front.length := by
  obtain ⟨nonnegative, inside⟩ := JsArray.item_bounds found
  rw [JsArray.item_eq_getElem? nonnegative, getElem?_eq_getElem inside, Option.some.injEq] at found
  refine ⟨list.take index.toNat, list.drop (index.toNat + 1), ?_, by simp; omega⟩
  rw [← found, getElem_cons_drop, take_append_drop]

theorem item_mid (isIndex : index = front.length) :
    item (front ++ value :: back) index = some value := by
  rw [JsArray.item_eq_getElem? (by omega), isIndex]
  simp

theorem eraseIdx_mid (isIndex : index = front.length) :
    (front ++ value :: back).eraseIdx index.toNat = front ++ back := by
  rw [isIndex, Int.toNat_natCast, eraseIdx_append_of_length_le le_rfl, Nat.sub_self,
    eraseIdx_cons_zero]

theorem item_after {other : α} (found : item (front ++ value :: back) index = some other)
    (after : (front.length : Int) < index) :
    item back (index - front.length - 1) = some other := by
  obtain ⟨place, isPlace⟩ : ∃ place : Nat, index = front.length + 1 + place :=
    ⟨(index - front.length - 1).toNat, by omega⟩
  subst isPlace
  rw [JsArray.item_eq_getElem? (by omega),
    show ((front.length : Int) + 1 + place).toNat = front.length + (1 + place) by omega,
    getElem?_append_right (by omega), Nat.add_sub_cancel_left, Nat.add_comm 1,
    getElem?_cons_succ] at found
  rw [JsArray.item_eq_getElem? (by omega),
    show ((front.length : Int) + 1 + place - front.length - 1).toNat = place by omega, found]

end Lists

structure TabDrop (layout : Layout) (source destination : DropPlace) (current next : LayoutItem)
    (dragged target : String) :
    Prop where
  sourceEntry : layout.entry source.id = some current
  destinationEntry : layout.entry destination.id = some next
  typed : isTabsType source destination = true
  draggedAt : item current.children source.index = some dragged
  targetAt : item next.children destination.index = some target
  different : dragged ≠ target

def withoutDragged (source destination : DropPlace) (tabs : List String) : List String :=
  if source.id = destination.id then tabs.eraseIdx source.index.toNat else tabs

def putBeside (position : DropPosition) (dragged target : String) (front back : List String) :
    List String :=
  if position = .left then front ++ dragged :: target :: back
    else front ++ target :: dragged :: back

/-- The dragged tab is next to the target, and the other tabs are as before. -/
structure LandsBeside (layout after : Layout) (source destination : DropPlace)
    (position : DropPosition)
    (current next : LayoutItem) (dragged target : String) : Prop where
  beside : ∃ back, withoutDragged source destination next.children =
      withoutDragged source destination (next.children.take destination.index.toNat) ++
        target :: back ∧
    after.entry destination.id = some { next with
      children := putBeside position dragged target
        (withoutDragged source destination (next.children.take destination.index.toNat)) back }
  taken : source.id ≠ destination.id →
    after.entry source.id =
      some { current with children := current.children.eraseIdx source.index.toNat }
  framed : ∀ key, key ≠ source.id → key ≠ destination.id → after.entry key = layout.entry key

section SameList
variable {source destination : DropPlace} {position : DropPosition} {dragged target : String}
    {a b c : List String}

theorem reorder_dragged {list : List String} {start finish : Int}
    (found : item list start = some dragged)
    (front others : List String) (isOthers : list.eraseIdx start.toNat = front ++ others)
    (isFinish : finish = front.length) :
    reorder list start finish = some (front ++ dragged :: others) := by
  obtain ⟨nonnegative, _⟩ := JsArray.item_bounds found
  rw [JsArray.item_eq_getElem? nonnegative] at found
  rw [reorder, JsArray.spliceStart_of_nonnegative nonnegative, found, splice_remove nonnegative,
    isOthers]
  exact congrArg some (splice_insert isFinish)

theorem reorder_from_left (isSource : source.index = a.length)
    (isDestination : destination.index = a.length + 1 + b.length)
    (sideways : position = .left ∨ position = .right) :
    (sameTabSourceIndex source destination (some position) = true →
      a ++ dragged :: (b ++ target :: c) = putBeside position dragged target (a ++ b) c) ∧
    reorder (a ++ dragged :: (b ++ target :: c)) source.index
      (dropIndexInSameTabs source destination (some position)) =
      some (putBeside position dragged target (a ++ b) c) := by
  have found : item (a ++ dragged :: (b ++ target :: c)) source.index = some dragged :=
    item_mid isSource
  have removed : (a ++ dragged :: (b ++ target :: c)).eraseIdx source.index.toNat =
    a ++ (b ++ target :: c) :=
    eraseIdx_mid isSource
  obtain rfl | rfl := sideways
  · constructor
    · intro same
      have none : b = [] := length_eq_zero_iff.mp (by simp [sameTabSourceIndex] at same; omega)
      simp [none, putBeside]
    · rw [reorder_dragged found (a ++ b) (target :: c) (by rw [removed, append_assoc])]
      · simp [putBeside]
      · simp [dropIndexInSameTabs]
        omega
  · constructor
    · intro same
      simp [sameTabSourceIndex] at same
      omega
    · rw [reorder_dragged found (a ++ b ++ [target]) c (by rw [removed]; simp)]
      · simp [putBeside]
      · simp [dropIndexInSameTabs]
        omega

theorem reorder_from_right (isDestination : destination.index = a.length)
    (isSource : source.index = a.length + 1 + b.length)
    (sideways : position = .left ∨ position = .right) :
    (sameTabSourceIndex source destination (some position) = true →
      a ++ target :: (b ++ dragged :: c) = putBeside position dragged target a (b ++ c)) ∧
    reorder (a ++ target :: (b ++ dragged :: c)) source.index
      (dropIndexInSameTabs source destination (some position)) =
      some (putBeside position dragged target a (b ++ c)) := by
  have shape : a ++ target :: (b ++ dragged :: c) = (a ++ target :: b) ++ dragged :: c := by simp
  have isLength : source.index = (a ++ target :: b).length := by simp; omega
  have found : item (a ++ target :: (b ++ dragged :: c)) source.index = some dragged := by
    rw [shape]
    exact item_mid isLength
  have removed : (a ++ target :: (b ++ dragged :: c)).eraseIdx source.index.toNat =
      a ++ target :: (b ++ c) := by
    rw [shape, eraseIdx_mid isLength, append_assoc, cons_append]
  obtain rfl | rfl := sideways
  · constructor
    · intro same
      simp [sameTabSourceIndex] at same
      omega
    · rw [reorder_dragged found a (target :: (b ++ c)) removed]
      · simp [putBeside]
      · simp [dropIndexInSameTabs]
        omega
  · constructor
    · intro same
      have none : b = [] := length_eq_zero_iff.mp (by simp [sameTabSourceIndex] at same; omega)
      simp [none, putBeside]
    · rw [reorder_dragged found (a ++ [target]) (b ++ c) (by rw [removed]; simp)]
      · simp [putBeside]
      · simp [dropIndexInSameTabs]
        omega

end SameList

section Drops
variable {layout : Layout} {source destination : DropPlace} {current next : LayoutItem}
    {dragged target : String}

theorem lands_in_same (drop : TabDrop layout source destination current next dragged target)
    (same : source.id = destination.id) {position : DropPosition}
    (sideways : position = .left ∨ position = .right) :
    ∃ after, reorderItem layout source destination (some position) = some after ∧
      LandsBeside layout after source destination position current next dragged target := by
  have isNext : current = next :=
    Option.some.inj (drop.sourceEntry.symm.trans (same ▸ drop.destinationEntry))
  subst isNext
  -- what is left to show is about the list
  suffices lists : ∃ back, current.children.eraseIdx source.index.toNat =
        (current.children.take destination.index.toNat).eraseIdx source.index.toNat ++
          target :: back ∧
      (sameTabSourceIndex source destination (some position) = true →
        current.children = putBeside position dragged target
        ((current.children.take destination.index.toNat).eraseIdx source.index.toNat) back) ∧
      reorder current.children source.index
        (dropIndexInSameTabs source destination (some position)) =
        some (putBeside position dragged target
          ((current.children.take destination.index.toNat).eraseIdx source.index.toNat) back) by
    obtain ⟨back, others, early, reordered⟩ := lists
    rw [reorderItem, drop.sourceEntry, drop.destinationEntry]
    simp only [if_pos same, reorderSameList, drop.typed, Bool.true_and, if_true, reordered]
    split
    · next isEarly =>
      refine ⟨layout, rfl, ⟨back, ?_, ?_⟩, fun apart => absurd same apart, fun _ _ _ => rfl⟩
      · simpa [withoutDragged, same] using others
      · rw [drop.destinationEntry]
        simp only [withoutDragged, if_pos same, ← early isEarly]
    · refine ⟨_, rfl, ⟨back, ?_, ?_⟩, fun apart => absurd same apart, fun key otherKey _ => ?_⟩
      · simpa [withoutDragged, same] using others
      · simp [withoutDragged, same]
      · rw [JsObject.Record.entry_set, if_neg otherKey]
  have draggedAt := drop.draggedAt
  have targetAt := drop.targetAt
  generalize current.children = tabs at draggedAt targetAt
  obtain before | equal | behind := lt_trichotomy source.index destination.index
  · obtain ⟨a, rest, rfl, isSource⟩ := item_split draggedAt
    obtain ⟨b, c, rfl, isPlace⟩ := item_split (item_after targetAt (by omega))
    have taken : (a ++ dragged :: (b ++ target :: c)).take destination.index.toNat =
        a ++ dragged :: b := by
      rw [show destination.index.toNat = (a ++ dragged :: b).length by simp; omega,
        show a ++ dragged :: (b ++ target :: c) = (a ++ dragged :: b) ++ target :: c by
          simp, take_left]
    rw [taken, eraseIdx_mid isSource, eraseIdx_mid isSource]
    exact ⟨c, by simp, reorder_from_left isSource (by omega) sideways⟩
  · rw [equal] at draggedAt
    exact absurd (Option.some.inj (draggedAt.symm.trans targetAt)) drop.different
  · obtain ⟨a, rest, rfl, isDestination⟩ := item_split targetAt
    obtain ⟨b, c, rfl, isPlace⟩ := item_split (item_after draggedAt (by omega))
    have isSource : source.index = (a ++ target :: b).length := by simp; omega
    have taken : (a ++ target :: (b ++ dragged :: c)).take destination.index.toNat = a := by
      rw [isDestination, Int.toNat_natCast, take_left]
    have removed : (a ++ target :: (b ++ dragged :: c)).eraseIdx source.index.toNat =
        a ++ target :: (b ++ c) := by
      rw [show a ++ target :: (b ++ dragged :: c) = (a ++ target :: b) ++ dragged :: c by simp,
        eraseIdx_mid isSource]
      simp
    rw [taken, removed, eraseIdx_of_length_le (by omega)]
    exact ⟨b ++ c, rfl, reorder_from_right isDestination (by simp at isSource; omega) sideways⟩

theorem reorderItem_other (drop : TabDrop layout source destination current next dragged target)
    (apart : source.id ≠ destination.id) (position : DropPosition) :
    reorderItem layout source destination (some position) =
      some ((layout.set source.id
        { current with children := current.children.eraseIdx source.index.toNat }).set
          destination.id
        { next with
          children := splice next.children
            (dropIndexInOtherTabs current.children.length destination (some position)) 0
              [dragged] }) := by
  have found := drop.draggedAt
  rw [reorderItem, drop.sourceEntry, drop.destinationEntry]
  simp only [if_neg apart, found, drop.typed, if_true, splice_remove (JsArray.item_bounds found).1]

theorem insert_right_iff (front back : List String) {index : Int} (nonnegative : 0 ≤ index)
    (inside : index ≤ front.length + 1)
    (different : dragged ≠ target) :
    splice (front ++ target :: back) index 0 [dragged] = front ++ target :: dragged :: back ↔
    index = front.length + 1 := by
  constructor
  · intro same
    by_contra further
    obtain ⟨place, rfl⟩ : ∃ place : Nat, index = place := ⟨index.toNat, by omega⟩
    have short : place ≤ front.length := by omega
    -- behind what is put in further left stands the target
    have read := congrArg (fun tabs : List String => tabs[front.length + 1]?) same
    rw [splice, JsArray.spliceStart_of_nonnegative (by omega)] at read
    simp only [Int.toNat_natCast, Nat.add_zero] at read
    rw [getElem?_append_right (by simp; omega), getElem?_drop,
      show place + (front.length + 1 - ((front ++ target :: back).take place ++ [dragged]).length) =
        front.length by
        simp; omega,
      show front ++ target :: dragged :: back = (front ++ [target]) ++ dragged :: back by simp,
      getElem?_append_right (by simp), getElem?_append_right (by simp)] at read
    simp at read
    exact different read.symm
  · intro isIndex
    rw [show front ++ target :: back = (front ++ [target]) ++ back by simp,
      splice_insert (by simpa using isIndex)]
    simp

/-- A dropped tab lands beside its target exactly when it is dropped on the left side,
in its own list, or in the other list not beyond the places of its own. -/
theorem drop_lands_iff (drop : TabDrop layout source destination current next dragged target)
    {position : DropPosition}
    (sideways : position = .left ∨ position = .right) :
    (∃ after, reorderItem layout source destination (some position) = some after ∧
      LandsBeside layout after source destination position current next dragged target) ↔
    position = .left ∨ source.id = destination.id ∨
    destination.index + 1 < current.children.length := by
  by_cases same : source.id = destination.id
  · exact ⟨fun _ => .inr (.inl same), fun _ => lands_in_same drop same sideways⟩
  obtain ⟨front, back, isNext, isDestination⟩ := item_split drop.targetAt
  have taken : next.children.take destination.index.toNat = front := by
    rw [isNext, isDestination, Int.toNat_natCast, take_left]
  have other := reorderItem_other drop same position
  -- the tabs of the source are some, so that the index is not negative
  have someTab : 0 < current.children.length :=
    length_pos_of_mem (JsArray.mem_of_item drop.draggedAt)
  have onRight : dropIndexInOtherTabs current.children.length destination (some .right) =
      min (front.length + 1 : Int) (current.children.length - 1) := by
    rw [dropIndexInOtherTabs, isDestination]
  have onLeft : dropIndexInOtherTabs current.children.length destination (some .left) =
      front.length := by
    rw [dropIndexInOtherTabs, isDestination]
    omega
  have nonnegative : 0 ≤ min (front.length + 1 : Int) (current.children.length - 1) := by omega
  have insertRight := insert_right_iff front back nonnegative (by omega) drop.different
  constructor
  · rintro ⟨after, reordered, lands⟩
    obtain rfl | rfl := sideways
    · exact .inl rfl
    · refine .inr (.inr ?_)
      obtain ⟨back', others, placed⟩ := lands.beside
      simp only [withoutDragged, if_neg same, taken] at others placed
      rw [isNext] at others
      obtain rfl : back = back' := (List.cons.inj (append_cancel_left others)).2
      rw [other] at reordered
      obtain rfl := Option.some.inj reordered
      rw [JsObject.Record.entry_set, if_pos rfl, onRight, isNext] at placed
      have landed := congrArg LayoutItem.children (Option.some.inj placed)
      have index := insertRight.mp landed
      omega
  · intro condition
    refine ⟨_, other, ⟨back, ?_, ?_⟩, fun _ => ?_, fun key otherKey andOther => ?_⟩
    · simp only [withoutDragged, if_neg same, taken]
      exact isNext
    · rw [JsObject.Record.entry_set, if_pos rfl]
      simp only [withoutDragged, if_neg same, taken]
      obtain rfl | rfl := sideways
      · rw [isNext, splice_insert onLeft]
        rfl
      · have inside : destination.index + 1 < current.children.length := by
          simpa [same] using condition
        rw [onRight, isNext, insertRight.mpr (by omega)]
        rfl
    · rw [JsObject.Record.entry_set, if_neg same, JsObject.Record.entry_set, if_pos rfl]
    · rw [JsObject.Record.entry_set, if_neg andOther, JsObject.Record.entry_set, if_neg otherKey]

def tabsOf (id : String) (children : List String) : LayoutItem :=
  { newComponentFactory .tabs JsObject.empty id with children := children }

def twoTabLists (first second : List String) : Layout :=
  (JsObject.Record.empty.set "A" (tabsOf "A" first)).set "B" (tabsOf "B" second)

theorem tab_lands :
    ∃ after, reorderItem (twoTabLists ["x", "y"] ["p", "q"]) ⟨"A", some .tabs, 0⟩
      ⟨"B", some .tabs, 0⟩
      (some .right) = some after ∧
    LandsBeside (twoTabLists ["x", "y"] ["p", "q"]) after ⟨"A", some .tabs, 0⟩
      ⟨"B", some .tabs, 0⟩ .right
      (tabsOf "A" ["x", "y"]) (tabsOf "B" ["p", "q"]) "x" "p" :=
  (drop_lands_iff ⟨rfl, rfl, by decide, by decide, by decide, by decide⟩ (.inr rfl)).mpr (by decide)

/-- The only tab of a list, dropped on the right of the last tab of another, lands in
front of the others. -/
theorem lonely_tab_in_front :
    (reorderItem (twoTabLists ["x"] ["p", "q"]) ⟨"A", some .tabs, 0⟩ ⟨"B", some .tabs, 1⟩
      (some .right)).map
      (childrenOf · "B") = some ["x", "p", "q"] ∧
    ¬ ∃ after, reorderItem (twoTabLists ["x"] ["p", "q"]) ⟨"A", some .tabs, 0⟩ ⟨"B", some .tabs, 1⟩
      (some .right) = some after ∧
      LandsBeside (twoTabLists ["x"] ["p", "q"]) after ⟨"A", some .tabs, 0⟩
        ⟨"B", some .tabs, 1⟩ .right
        (tabsOf "A" ["x"]) (tabsOf "B" ["p", "q"]) "x" "q" := by
  have places : (reorderItem (twoTabLists ["x"] ["p", "q"]) ⟨"A", some .tabs, 0⟩
    ⟨"B", some .tabs, 1⟩ (some .right)).map
      (childrenOf · "B") = some ["x", "p", "q"] := by decide
  refine ⟨places, ?_⟩
  rintro ⟨after, reordered, lands⟩
  obtain ⟨back, others, placed⟩ := lands.beside
  rw [reordered, Option.map_some, childrenOf, placed] at places
  have tabs : ["p"] ++ "q" :: "x" :: back = ["x", "p", "q"] := Option.some.inj places
  exact absurd (List.cons.inj tabs).1 (by decide)

end Drops

end Liteset.Dashboard
