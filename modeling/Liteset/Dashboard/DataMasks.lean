import Liteset.Lib.JsObject
import Mathlib.Data.List.Induction
import Mathlib.Data.List.Nodup
import Mathlib.Logic.Function.Basic

/-!
# Data masks after filters are saved

`updateDataMaskForFilterChanges` of `dataMask/reducer.ts` builds the data masks anew:
from the stored filters, from the saved ones and, for what is no native filter, from
the masks before.  An object has sorted members, so that `isEqual` is equality.
-/

set_option autoImplicit false

namespace Liteset.Dashboard.DataMasks

open Liteset.Lib Liteset.Lib.JsObject

/-- `DataMaskStateWithId`: each mask is filed under its own id. -/
structure State where
  masks : Record Object
  ids : ∀ k mask, masks.entry k = some mask → propertyKey (get mask "id") = k

abbrev Masks := String → Option Object

def isNativeFilter (id : String) : Bool := "NATIVE_FILTER-".toList.isPrefixOf id.toList

def isDivider (id : String) : Bool := "NATIVE_FILTER_DIVIDER-".toList.isPrefixOf id.toList

def filterId (filter : Object) : String := propertyKey (get filter "id")

structure FilterChanges where
  deleted : List String
  modified : List Object
  ofFilters : ∀ k, k ∈ deleted ++ modified.map filterId → isNativeFilter k ∨ isDivider k
  distinct : (modified.map filterId).Nodup
  disjoint : ∀ k ∈ modified.map filterId, k ∉ deleted

/-- `...value` of a value that is an object or nothing. -/
def members : Value → Object
  | some (.object members) => fun key => (members.lookup key).map some
  | _ => empty

def defaultDataMask (filter : Object) : Object := members (get filter "defaultDataMask")

/-- `getInitialDataMask(id)` -/
def getInitialDataMask (id : Value) : Object :=
  ofList [("id", id), ("extraFormData", some (.object [])), ("filterState", some (.object [])),
    ("ownState", some (.object []))]

/-- `controlValues?.enableEmptyFilter || controlValues?.defaultToFirstItem` -/
def flagged (filter : Object) : Bool :=
  let controlValues := members (get filter "controlValues")
  truthy (get controlValues "enableEmptyFilter") || truthy (get controlValues "defaultToFirstItem")

def preserved (existing : Option Object) (filter : Object) : Object :=
  match existing with
  | none => empty
  | some mask =>
    spreadIf (get mask "targets" = get filter "targets" ∧ flagged filter = true)
      (ofList [("extraFormData", get mask "extraFormData"),
        ("filterState", get mask "filterState")])

def freshMask (filter : Object) : Object :=
  spread (spread (getInitialDataMask (get filter "id")) (defaultDataMask filter)) filter

def storedMask (value : Object) : Object := spread value (defaultDataMask value)

/-- `merged[key(item)] = value(item)` for each item. -/
def assignAll {α : Type} (key : α → String) (value : α → Object) (masks : Masks)
    (items : List α) : Masks :=
  items.foldl (fun masks item => Function.update masks (key item) (some (value item))) masks

/-- `updateDataMaskForFilterChanges`, with the stored filters. -/
def updateDataMaskForFilterChanges (changes : FilterChanges) (draft : State)
    (filters : Record Object) : Masks :=
  let stored : Masks := fun k => (filters.entry k).map storedMask
  let remaining : Masks := fun k => if k ∈ changes.deleted then none else stored k
  let modified := assignAll filterId
    (fun filter =>
      spread (freshMask filter) (preserved (draft.masks.entry (filterId filter)) filter))
    remaining changes.modified
  assignAll filterId id modified
    (draft.masks.values.filter fun mask => !isNativeFilter (filterId mask))

/-- `extraFormData` and `filterState` are the same. -/
def SameApplied (mask other : Object) : Prop :=
  get mask "extraFormData" = get other "extraFormData"
    ∧ get mask "filterState" = get other "filterState"

instance (mask other : Object) : Decidable (SameApplied mask other) :=
  inferInstanceAs (Decidable (_ ∧ _))

def Keeps (after : Masks) (k : String) (mask : Object) : Prop :=
  ∃ kept, after k = some kept ∧ SameApplied kept mask

def Unchanged (filters : Record Object) (filter : Object) : Prop :=
  flagged filter = true
    ∧ ∃ value, filters.entry (filterId filter) = some value ∧
    get value "targets" = get filter "targets"

/-- What is asked of a save. -/
structure KeepsOthers (changes : FilterChanges) (draft : State) (filters : Record Object)
    (after : Masks) : Prop where
  untouched : ∀ k value mask, filters.entry k = some value → draft.masks.entry k = some mask →
    k ∉ changes.deleted → k ∉ changes.modified.map filterId → Keeps after k mask
  unchanged : ∀ filter ∈ changes.modified, Unchanged filters filter →
    ∀ mask, draft.masks.entry (filterId filter) = some mask → Keeps after (filterId filter) mask
  deleted : ∀ k ∈ changes.deleted, after k = none
  modified : ∀ filter ∈ changes.modified, after (filterId filter) ≠ none
  charts : ∀ k mask, ¬isNativeFilter k → ¬isDivider k → draft.masks.entry k = some mask →
    after k = some mask

structure NothingApplied (changes : FilterChanges) (draft : State) (filters : Record Object) :
    Prop where
  untouched : ∀ k value mask, isNativeFilter k → filters.entry k = some value →
    draft.masks.entry k = some mask → k ∉ changes.deleted → k ∉ changes.modified.map filterId →
    SameApplied (storedMask value) mask
  unchanged : ∀ filter ∈ changes.modified, isNativeFilter (filterId filter) →
    Unchanged filters filter → ∀ mask, draft.masks.entry (filterId filter) = some mask →
    get mask "targets" ≠ get filter "targets" → SameApplied (freshMask filter) mask
  deleted : ∀ k ∈ changes.deleted, ¬isNativeFilter k → draft.masks.entry k = none

section Assign
variable {α : Type} {key : α → String} {value : α → Object} {masks : Masks} {items : List α}
  {k : String} {mask : Object}

theorem assignAll_other (others : ∀ item ∈ items, key item ≠ k) :
    assignAll key value masks items k = masks k := by
  induction items generalizing masks with
  | nil => rfl
  | cons item rest ih =>
    obtain ⟨other, others⟩ := List.forall_mem_cons.mp others
    refine (ih others).trans ?_
    exact Function.update_of_ne (Ne.symm other) _ _

theorem assignAll_member {item : α} (member : item ∈ items) (filed : key item = k)
    (one : ∀ other ∈ items, key other = k → value other = mask) :
    assignAll key value masks items k = some mask := by
  induction items using List.reverseRecOn with
  | nil => cases member
  | append_singleton front last ih =>
    unfold assignAll at ih ⊢
    rw [List.foldl_append, List.foldl_cons, List.foldl_nil]
    by_cases same : key last = k
    · rw [same, Function.update_self, one last (by simp) same]
    · rw [Function.update_of_ne (Ne.symm same)]
      refine ih ?_ fun other inFront => one other (List.mem_append_left _ inFront)
      refine (List.mem_append.mp member).resolve_right fun isLast => same ?_
      rw [← List.mem_singleton.mp isLast, filed]

end Assign

section Saved
variable {changes : FilterChanges} {draft : State} {filters : Record Object} {k : String}
  {filter mask value : Object}

theorem after_of_other (other : ¬isNativeFilter k) (filed : draft.masks.entry k = some mask) :
    updateDataMaskForFilterChanges changes draft filters k = some mask := by
  have own := draft.ids k mask filed
  have isOther : isNativeFilter (filterId mask) = false := by
    rw [show filterId mask = k from own]
    simpa using other
  refine assignAll_member
    (List.mem_filter.mpr ⟨Record.mem_values.mpr ⟨k, filed⟩, by simp [isOther]⟩)
    own fun second member same => ?_
  obtain ⟨key, found⟩ := Record.mem_values.mp (List.mem_filter.mp member).1
  have sameKey : key = k := (draft.ids key second found).symm.trans same
  rw [sameKey, filed] at found
  exact (Option.some.inj found).symm

theorem after_of_assigned (native : isNativeFilter k ∨ draft.masks.entry k = none) :
    updateDataMaskForFilterChanges changes draft filters k =
      assignAll filterId (fun filter => spread (freshMask filter)
          (preserved (draft.masks.entry (filterId filter)) filter))
        (fun k => if k ∈ changes.deleted then none else (filters.entry k).map storedMask)
        changes.modified k := by
  refine assignAll_other fun second member same => ?_
  obtain ⟨inValues, other⟩ := List.mem_filter.mp member
  obtain ⟨key, found⟩ := Record.mem_values.mp inValues
  have sameKey : key = k := (draft.ids key second found).symm.trans same
  obtain isNative | absent := native
  · rw [same, isNative] at other
    cases other
  · rw [sameKey, absent] at found
    cases found

theorem after_of_modified (native : isNativeFilter (filterId filter) ∨
    draft.masks.entry (filterId filter) = none) (member : filter ∈ changes.modified) :
    updateDataMaskForFilterChanges changes draft filters (filterId filter) =
      some (spread (freshMask filter)
        (preserved (draft.masks.entry (filterId filter)) filter)) := by
  rw [after_of_assigned native]
  refine assignAll_member member rfl fun other inModified same => ?_
  rw [List.inj_on_of_nodup_map changes.distinct inModified member same]

theorem after_of_untouched (native : isNativeFilter k ∨ draft.masks.entry k = none)
    (notModified : k ∉ changes.modified.map filterId) :
    updateDataMaskForFilterChanges changes draft filters k =
      if k ∈ changes.deleted then none else (filters.entry k).map storedMask := by
  rw [after_of_assigned native]
  exact assignAll_other fun filter member same =>
    notModified (List.mem_map.mpr ⟨filter, member, same⟩)

/-- A saved filter with one of the flags keeps what is applied exactly when its mask has
its targets, or nothing but its defaults is applied. -/
theorem sameApplied_modified_iff (flag : flagged filter = true) :
    SameApplied (spread (freshMask filter) (preserved (some mask) filter)) mask ↔
      (get mask "targets" ≠ get filter "targets" → SameApplied (freshMask filter) mask) := by
  dsimp only [preserved, spreadIf]
  by_cases targets : get mask "targets" = get filter "targets"
  · refine iff_of_true ?_ fun differ => absurd targets differ
    rw [if_pos ⟨targets, flag⟩]
    exact ⟨rfl, rfl⟩
  · rw [if_neg fun both => targets both.1, spread_empty]
    exact ⟨fun same _ => same, fun same => same targets⟩

theorem keeps_iff {after : Masks} {kept : Object} (filed : after k = some kept) :
    Keeps after k mask ↔ SameApplied kept mask := by
  unfold Keeps
  rw [filed]
  simp

end Saved

/-- A save keeps the applied values of the other filters exactly when those are the
values the filters have by default. -/
theorem keepsOthers_iff (changes : FilterChanges) (draft : State) (filters : Record Object) :
    KeepsOthers changes draft filters (updateDataMaskForFilterChanges changes draft filters)
      ↔ NothingApplied changes draft filters := by
  constructor
  · intro keeps
    refine ⟨?_, ?_, ?_⟩
    · intro k value mask native isStored filed notDeleted notModified
      have after := @after_of_untouched changes draft filters k (Or.inl native) notModified
      rw [if_neg notDeleted, isStored] at after
      exact (keeps_iff after).mp
        (keeps.untouched k value mask isStored filed notDeleted notModified)
    · intro filter member native unchanged mask filed
      have after := @after_of_modified changes draft filters filter (Or.inl native) member
      rw [filed] at after
      exact (sameApplied_modified_iff unchanged.1).mp
        ((keeps_iff after).mp (keeps.unchanged filter member unchanged mask filed))
    · intro k isDeleted other
      by_contra filed
      obtain ⟨mask, filed⟩ := Option.ne_none_iff_exists'.mp filed
      have gone := keeps.deleted k isDeleted
      rw [after_of_other other filed] at gone
      cases gone
  · intro nothing
    refine ⟨?_, ?_, ?_, ?_, ?_⟩
    · intro k value mask isStored filed notDeleted notModified
      by_cases native : isNativeFilter k = true
      · have after := @after_of_untouched changes draft filters k (Or.inl native) notModified
        rw [if_neg notDeleted, isStored] at after
        exact (keeps_iff after).mpr
          (nothing.untouched k value mask native isStored filed notDeleted notModified)
      · exact ⟨mask, after_of_other native filed, rfl, rfl⟩
    · intro filter member unchanged mask filed
      by_cases native : isNativeFilter (filterId filter) = true
      · have after := @after_of_modified changes draft filters filter (Or.inl native) member
        rw [filed] at after
        exact (keeps_iff after).mpr ((sameApplied_modified_iff unchanged.1).mpr
          (nothing.unchanged filter member native unchanged mask filed))
      · exact ⟨mask, after_of_other native filed, rfl, rfl⟩
    · intro k isDeleted
      have native : isNativeFilter k = true ∨ draft.masks.entry k = none :=
        or_iff_not_imp_left.mpr (nothing.deleted k isDeleted)
      rw [after_of_untouched native fun isModified => changes.disjoint k isModified isDeleted,
        if_pos isDeleted]
    · intro filter member
      by_cases native : isNativeFilter (filterId filter) = true ∨
          draft.masks.entry (filterId filter) = none
      · rw [after_of_modified native member]
        exact Option.some_ne_none _
      · obtain ⟨other, filed⟩ := not_or.mp native
        obtain ⟨mask, filed⟩ := Option.ne_none_iff_exists'.mp filed
        rw [after_of_other other filed]
        exact Option.some_ne_none _
    · exact fun k mask other _ filed => after_of_other other filed

/-- Deleting one filter resets what was selected in another. -/
theorem selection_lost :
    ¬∀ changes draft filters, KeepsOthers changes draft filters
      (updateDataMaskForFilterChanges changes draft filters) := by
  intro keeps
  let mask : Object := ofList [("id", text "NATIVE_FILTER-1"), ("filterState", text "selected")]
  let draft : State := ⟨Record.empty.set "NATIVE_FILTER-1" mask, fun k other found => by
    rw [Record.entry_set, Record.entry_empty] at found
    obtain ⟨rfl, same⟩ := Option.ite_none_right_eq_some.mp found
    cases same
    rfl⟩
  let changes : FilterChanges :=
    ⟨["NATIVE_FILTER-2"], [], by decide, by decide, fun _ member => by cases member⟩
  let filters : Record Object :=
    Record.empty.set "NATIVE_FILTER-1" (single "id" (text "NATIVE_FILTER-1"))
  have kept := (keeps changes draft filters).untouched "NATIVE_FILTER-1" _ mask rfl rfl (by decide)
    (by decide)
  have after := @after_of_untouched changes draft filters "NATIVE_FILTER-1" (Or.inl (by decide))
    (by decide)
  exact absurd ((keeps_iff after).mp kept).2 (by decide)

end Liteset.Dashboard.DataMasks
