import Mathlib.Data.List.Nodup

/-!
# Maps of a JavaScript program

A `Map` lists its keys in the order of their first insertion.  Setting a key that is
there replaces its value and keeps its place.  `get` tells a key without a value from a
key whose value happens to be `undefined` only through its outer option.
-/

set_option autoImplicit false

namespace Liteset.Lib

open List

structure JsMap (κ β : Type) where
  entries : List (κ × β)
  distinct : (entries.map Prod.fst).Nodup
deriving DecidableEq

namespace JsMap

variable {κ β : Type} [DecidableEq κ]

def empty : JsMap κ β := ⟨[], List.nodup_nil⟩

def keys (map : JsMap κ β) : List κ := map.entries.map Prod.fst

def values (map : JsMap κ β) : List β := map.entries.map Prod.snd

def lookupEntry (key : κ) : List (κ × β) → Option β
  | [] => none
  | (k, value) :: rest => if k = key then some value else lookupEntry key rest

def get (map : JsMap κ β) (key : κ) : Option β := lookupEntry key map.entries

def has (map : JsMap κ β) (key : κ) : Bool := (map.get key).isSome

def setEntry (key : κ) (value : β) : List (κ × β) → List (κ × β)
  | [] => [(key, value)]
  | (k, old) :: rest => if k = key then (k, value) :: rest else (k, old) :: setEntry key value rest

theorem keys_setEntry (key : κ) (value : β) (entries : List (κ × β)) :
    (setEntry key value entries).map Prod.fst =
      if key ∈ entries.map Prod.fst then entries.map Prod.fst
        else entries.map Prod.fst ++ [key] := by
  induction entries with
  | nil => simp [setEntry]
  | cons entry rest ih =>
    obtain ⟨k, old⟩ := entry
    by_cases same : k = key
    · simp [setEntry, same]
    · rw [setEntry, if_neg same, map_cons, ih]
      simp only [map_cons, mem_cons, Ne.symm same, false_or]
      split <;> simp

theorem nodup_setEntry (key : κ) (value : β) (entries : List (κ × β))
    (distinct : (entries.map Prod.fst).Nodup) :
    ((setEntry key value entries).map Prod.fst).Nodup := by
  rw [keys_setEntry]
  split
  · exact distinct
  · rename_i fresh
    exact nodup_append.mpr ⟨distinct, nodup_singleton key,
      fun k member other same =>
        fun equal => fresh (by rwa [equal, mem_singleton.mp same] at member)⟩

def set (map : JsMap κ β) (key : κ) (value : β) : JsMap κ β :=
  ⟨setEntry key value map.entries, nodup_setEntry key value map.entries map.distinct⟩

def delete (map : JsMap κ β) (key : κ) : JsMap κ β :=
  ⟨map.entries.filter fun entry => entry.1 ≠ key,
    (List.filter_sublist.map Prod.fst).nodup map.distinct⟩

variable (map : JsMap κ β) (key other : κ) (value : β)

@[simp] theorem get_empty : (empty : JsMap κ β).get key = none := rfl

theorem get_set : (map.set key value).get other = if other = key then some value
    else map.get other := by
  obtain ⟨entries, distinct⟩ := map
  simp only [set, get]
  clear distinct
  induction entries with
  | nil =>
    by_cases same : other = key
    · simp [setEntry, lookupEntry, same]
    · simp [setEntry, lookupEntry, same, Ne.symm same]
  | cons entry rest ih =>
    obtain ⟨k, old⟩ := entry
    by_cases here : k = key
    · by_cases same : other = key
      · simp [setEntry, lookupEntry, here, same]
      · simp [setEntry, lookupEntry, here, same, Ne.symm same]
    · rw [setEntry, if_neg here, lookupEntry, ih, lookupEntry]
      by_cases same : other = key
      · simp [same, here]
      · simp [same]

@[simp] theorem get_set_self : (map.set key value).get key = some value := by
  rw [get_set, if_pos rfl]

theorem has_iff : map.has key = true ↔ ∃ value, map.get key = some value := Option.isSome_iff_exists

theorem has_set : (map.set key value).has other = true ↔ other = key ∨ map.has other = true := by
  rw [has, get_set, has]
  by_cases same : other = key
  · simp [same]
  · simp [same]

section Build
variable {γ : Type}

def ofEntries (entries : List (κ × β)) : JsMap κ β :=
  entries.foldl (fun map entry => map.set entry.1 entry.2) empty

omit [DecidableEq κ] in
def mapValues (f : β → γ) (map : JsMap κ β) : JsMap κ γ where
  entries := map.entries.map fun entry => (entry.1, f entry.2)
  distinct := by
    rw [List.map_map]
    exact map.distinct

omit [DecidableEq κ] in
@[simp] theorem entries_mapValues (f : β → γ) (map : JsMap κ β) :
    (map.mapValues f).entries = map.entries.map fun entry => (entry.1, f entry.2) := rfl

omit [DecidableEq κ] in
theorem mapValues_mapValues {δ : Type} (f : β → γ) (g : γ → δ) (map : JsMap κ β) :
    (map.mapValues f).mapValues g = map.mapValues (g ∘ f) := by
  simp only [mapValues, map_map]
  rfl

variable {entries : List (κ × β)} {value : β}

theorem mem_setEntry {key : κ} {entry : κ × β}
    (member : entry ∈ setEntry key value entries) : entry = (key, value) ∨ entry ∈ entries := by
  induction entries with
  | nil => exact .inl (mem_singleton.mp member)
  | cons first rest ih =>
    obtain ⟨k, old⟩ := first
    rw [setEntry] at member
    split at member
    · next here =>
      subst here
      exact (mem_cons.mp member).imp id (mem_cons_of_mem _)
    · rcases mem_cons.mp member with rfl | later
      · exact .inr mem_cons_self
      · exact (ih later).imp id (mem_cons_of_mem _)

theorem setEntry_map (f : β → γ) (key : κ) (value : β) (entries : List (κ × β)) :
    setEntry key (f value) (entries.map fun entry => (entry.1, f entry.2)) =
      (setEntry key value entries).map fun entry => (entry.1, f entry.2) := by
  induction entries with
  | nil => rfl
  | cons first rest ih =>
    obtain ⟨k, old⟩ := first
    by_cases here : k = key
    · simp [setEntry, here]
    · simp [setEntry, here, ih]

theorem mapValues_ofEntries (f : β → γ) (entries : List (κ × β)) :
    (ofEntries entries).mapValues f =
      ofEntries (entries.map fun entry => (entry.1, f entry.2)) := by
  have each : ∀ map : JsMap κ β,
      (entries.foldl (fun map entry => map.set entry.1 entry.2) map).mapValues f =
        (entries.map fun entry => (entry.1, f entry.2)).foldl
          (fun map entry => map.set entry.1 entry.2) (map.mapValues f) := by
    induction entries with
    | nil => exact fun _ => rfl
    | cons entry rest ih =>
      intro map
      have first : (map.set entry.1 entry.2).mapValues f = (map.mapValues f).set entry.1
          (f entry.2) := by
        simp only [mapValues, set, setEntry_map]
      rw [foldl_cons, ih, first]
      rfl
  exact each empty

variable {map : JsMap κ β}

omit [DecidableEq κ] in
theorem mapValues_eq_iff {f g : β → γ} :
    map.mapValues f = map.mapValues g ↔ ∀ entry ∈ map.entries, f entry.2 = g entry.2 := by
  constructor
  · intro same entry member
    have entries := congrArg JsMap.entries same
    exact (Prod.mk.inj (map_inj_left.mp entries entry member)).2
  · intro each
    simp only [mapValues, JsMap.mk.injEq]
    exact map_congr_left fun entry member => by rw [each entry member]

theorem mem_foldl_set {entry : κ × β}
    (member : entry ∈ (entries.foldl (fun map entry => map.set entry.1 entry.2) map).entries) :
    entry ∈ map.entries ∨ entry ∈ entries := by
  induction entries generalizing map with
  | nil => exact .inl member
  | cons first rest ih =>
    rcases ih member with inMap | inRest
    · exact (mem_setEntry inMap).symm.imp id fun isFirst => mem_cons.mpr (.inl isFirst)
    · exact .inr (mem_cons_of_mem _ inRest)

theorem mem_of_mem_ofEntries {entry : κ × β} (member : entry ∈ (ofEntries entries).entries) :
    entry ∈ entries := (mem_foldl_set member).resolve_left not_mem_nil

theorem key_mem_foldl_set {key : κ}
    (member : key ∈ map.entries.map Prod.fst ∨ key ∈ entries.map Prod.fst) :
    key ∈ (entries.foldl (fun map entry => map.set entry.1 entry.2) map).entries.map Prod.fst := by
  induction entries generalizing map with
  | nil => exact member.resolve_right not_mem_nil
  | cons first rest ih =>
    apply ih
    show key ∈ (setEntry first.1 first.2 map.entries).map Prod.fst ∨ _
    rw [keys_setEntry]
    rcases member with inMap | inEntries
    · left
      split
      · exact inMap
      · exact mem_append_left _ inMap
    · rcases mem_cons.mp inEntries with rfl | inRest
      · left
        split
        · assumption
        · exact mem_append_right _ mem_cons_self
      · exact .inr inRest

theorem key_mem_ofEntries {key : κ} (member : (key, value) ∈ entries) :
    ∃ last, (key, last) ∈ (ofEntries entries).entries := by
  have inKeys : key ∈ entries.map Prod.fst := mem_map_of_mem member
  obtain ⟨⟨k, last⟩, inMap, rfl⟩ := mem_map.mp (key_mem_foldl_set (.inr inKeys))
  exact ⟨last, inMap⟩

theorem get_eq_some_iff {key : κ} : map.get key = some value ↔ (key, value) ∈ map.entries := by
  obtain ⟨entries, distinct⟩ := map
  show lookupEntry key entries = some value ↔ (key, value) ∈ entries
  induction entries with
  | nil => simp [lookupEntry]
  | cons first rest ih =>
    obtain ⟨k, v⟩ := first
    rw [map_cons, nodup_cons] at distinct
    by_cases here : k = key
    · subst here
      have once : (k, value) ∉ rest := fun later => distinct.1 (mem_map.mpr ⟨_, later, rfl⟩)
      simp [lookupEntry, once, eq_comm]
    · simp [lookupEntry, here, Ne.symm here, ih distinct.2]

theorem setEntry_fresh {key : κ} (fresh : key ∉ entries.map Prod.fst) :
    setEntry key value entries = entries ++ [(key, value)] := by
  induction entries with
  | nil => rfl
  | cons first rest ih =>
    obtain ⟨k, old⟩ := first
    rw [map_cons, mem_cons, not_or] at fresh
    rw [setEntry, if_neg (Ne.symm fresh.1), ih fresh.2]
    rfl

theorem entries_foldl_set (distinct : ((map.entries ++ entries).map Prod.fst).Nodup) :
    (entries.foldl (fun map entry => map.set entry.1 entry.2) map).entries = map.entries ++
      entries := by
  induction entries generalizing map with
  | nil => exact (append_nil _).symm
  | cons first rest ih =>
    have fresh : first.1 ∉ map.entries.map Prod.fst := by
      rw [map_append, map_cons] at distinct
      exact fun member => (nodup_append.mp distinct).2.2 _ member _ mem_cons_self rfl
    have added : (map.set first.1 first.2).entries = map.entries ++ [first] := setEntry_fresh fresh
    rw [foldl_cons, ih, added, append_assoc]
    · rfl
    · rw [added, append_assoc]
      exact distinct

def last (key : κ) : List (κ × β) → Option β
  | [] => none
  | (k, value) :: rest => (last key rest).or (if k = key then some value else none)

theorem get_foldl_set (entries : List (κ × β)) (map : JsMap κ β) (key : κ) :
    (entries.foldl (fun map entry => map.set entry.1 entry.2) map).get key =
      (last key entries).or (map.get key) := by
  induction entries generalizing map with
  | nil => rfl
  | cons first rest ih =>
    obtain ⟨k, value⟩ := first
    rw [foldl_cons, ih, last, get_set]
    by_cases same : k = key
    · rw [if_pos same, if_pos same.symm, Option.or_assoc]
      rfl
    · rw [if_neg same, if_neg (Ne.symm same), Option.or_none]

theorem mem_of_last {key : κ} (isLast : last key entries = some value) :
    (key, value) ∈ entries := by
  induction entries with
  | nil => cases isLast
  | cons first rest ih =>
    obtain ⟨k, v⟩ := first
    rw [last, Option.or_eq_some_iff] at isLast
    rcases isLast with later | ⟨_, here⟩
    · exact mem_cons_of_mem _ (ih later)
    · split at here
      · next same =>
        cases here
        exact same ▸ mem_cons_self
      · cases here

theorem last_eq_none_iff {key : κ} : last key entries = none ↔ key ∉ entries.map Prod.fst := by
  induction entries with
  | nil => simp [last]
  | cons first rest ih =>
    obtain ⟨k, value⟩ := first
    rw [last, Option.or_eq_none_iff, ih, map_cons, mem_cons, not_or, and_comm]
    by_cases same : k = key
    · simp [same]
    · simp [same, Ne.symm same]

theorem last_eq_some {key : κ} (distinct : (entries.map Prod.fst).Nodup)
    (member : (key, value) ∈ entries) : last key entries = some value := by
  induction entries with
  | nil => cases member
  | cons first rest ih =>
    obtain ⟨k, v⟩ := first
    obtain ⟨fresh, distinctRest⟩ := nodup_cons.mp distinct
    rw [last]
    rcases mem_cons.mp member with same | later
    · cases same
      rw [last_eq_none_iff.mpr fresh, if_pos rfl]
      rfl
    · rw [ih distinctRest later]
      rfl

end Build

end JsMap

end Liteset.Lib
