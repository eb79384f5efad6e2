import Mathlib.Data.List.Induction
import Mathlib.Data.List.Nodup

/-!
# Groups in a dictionary of lists

Appending each value to the list of its key, with keys in the order of their first value,
leaves one list for each key: that of its values, in their order.
-/

set_option autoImplicit false

namespace Liteset.Lib.Groups

open List

variable {κ β : Type} [DecidableEq κ]

/-- `groups[key].append(value)` of a dictionary whose default is the empty list. -/
def add (key : κ) (value : β) : List (κ × List β) → List (κ × List β)
  | [] => [(key, [value])]
  | (k, values) :: rest =>
    if k = key then (k, values ++ [value]) :: rest else (k, values) :: add key value rest

def collect (items : List (κ × β)) : List (κ × List β) :=
  items.foldl (fun groups item => add item.1 item.2 groups) []

def valuesOf (items : List (κ × β)) (key : κ) : List β :=
  (items.filter fun item => item.1 = key).map Prod.snd

theorem keys_add (key : κ) (value : β) (groups : List (κ × List β)) :
    (add key value groups).map Prod.fst =
      if key ∈ groups.map Prod.fst then groups.map Prod.fst else groups.map Prod.fst ++ [key] := by
  induction groups with
  | nil => simp [add]
  | cons group rest ih =>
    obtain ⟨k, values⟩ := group
    by_cases same : k = key
    · simp [add, same]
    · rw [add, if_neg same, map_cons, ih]
      simp only [map_cons, mem_cons, Ne.symm same, false_or]
      split <;> simp

theorem mem_add (key : κ) (value : β) (groups : List (κ × List β))
    (distinct : (groups.map Prod.fst).Nodup)
    (k : κ) (values : List β) :
    (k, values) ∈ add key value groups ↔
      (k ≠ key ∧ (k, values) ∈ groups) ∨
        (k = key ∧ ((∃ old, (key, old) ∈ groups ∧ values = old ++ [value]) ∨
          (key ∉ groups.map Prod.fst ∧ values = [value]))) := by
  induction groups with
  | nil => simp [add]
  | cons group rest ih =>
    obtain ⟨first, old⟩ := group
    obtain ⟨fresh, distinct⟩ := nodup_cons.mp distinct
    by_cases same : first = key
    · subst same
      have absent : ∀ other, (first, other) ∉ rest := fun other member =>
        fresh (mem_map.mpr ⟨_, member, rfl⟩)
      rw [add, if_pos rfl]
      by_cases here : k = first
      · subst here
        simp [absent]
      · simp [here]
    · rw [add, if_neg same, mem_cons, ih distinct]
      by_cases here : k = key
      · subst here
        simp [Ne.symm same]
      · simp [here]

theorem distinct_add (key : κ) (value : β) (groups : List (κ × List β))
    (distinct : (groups.map Prod.fst).Nodup) :
    ((add key value groups).map Prod.fst).Nodup := by
  rw [keys_add]
  split
  next => exact distinct
  next fresh =>
      rw [← concat_eq_append]
      exact distinct.concat fresh

theorem valuesOf_concat (items : List (κ × β)) (item : κ × β) (key : κ) :
    valuesOf (items ++ [item]) key = valuesOf items key ++ if item.1 = key then [item.2]
    else [] := by
  by_cases same : item.1 = key <;> simp [valuesOf, filter_append, same]

theorem collect_spec (items : List (κ × β)) :
    ((collect items).map Prod.fst).Nodup ∧
      ∀ key values, (key, values) ∈ collect items ↔ key ∈ items.map Prod.fst ∧
      values = valuesOf items key := by
  induction items using reverseRecOn with
  | nil => simp [collect]
  | append_singleton items item ih =>
    obtain ⟨distinct, each⟩ := ih
    have step : collect (items ++ [item]) = add item.1 item.2 (collect items) := by
      rw [collect, foldl_append]
      rfl
    have known : item.1 ∈ (collect items).map Prod.fst ↔ item.1 ∈ items.map Prod.fst := by
      simp only [mem_map, Prod.exists, exists_and_right, exists_eq_right, each]
    have missing : item.1 ∉ items.map Prod.fst → valuesOf items item.1 = [] := by
      intro fresh
      simp only [valuesOf, map_eq_nil_iff, filter_eq_nil_iff, decide_eq_true_eq]
      exact fun other member same => fresh (same ▸ mem_map_of_mem member)
    refine ⟨step ▸ distinct_add _ _ _ distinct, fun key values => ?_⟩
    rw [step, mem_add _ _ _ distinct, valuesOf_concat, known]
    simp only [each, map_append, map_cons, map_nil, mem_append, mem_singleton]
    by_cases same : key = item.1
    · subst same
      by_cases member : item.1 ∈ items.map Prod.fst
      · simp [member]
      · simp [member, missing member]
    · simp [same, Ne.symm same]

theorem mem_collect (items : List (κ × β)) (key : κ) (values : List β) :
    (key, values) ∈ collect items ↔ key ∈ items.map Prod.fst ∧ values = valuesOf items key :=
  (collect_spec items).2 key values

theorem mem_collect_rows (key : β → κ) (rows : List β) (k : κ) (values : List β) :
    (k, values) ∈ collect (rows.map fun row => (key row, row)) ↔
      (∃ row ∈ rows, key row = k) ∧ values = rows.filter fun row => key row = k := by
  rw [mem_collect, valuesOf, filter_map, map_map]
  simp [Function.comp_def]

theorem collect_concat (items : List (κ × β)) (item : κ × β) :
    collect (items ++ [item]) = add item.1 item.2 (collect items) := by
  rw [collect, foldl_append]
  rfl

theorem filter_add (keep : κ → Bool) (key : κ) (value : β) (groups : List (κ × List β)) :
    (add key value groups).filter (fun group => keep group.1) =
      if keep key then add key value (groups.filter fun group => keep group.1)
      else groups.filter fun group => keep group.1 := by
  induction groups with
  | nil => cases kept : keep key <;> simp [add, kept]
  | cons group rest ih =>
    obtain ⟨k, values⟩ := group
    by_cases same : k = key
    · subst same
      cases kept : keep k <;> simp [add, kept]
    · rw [add, if_neg same, filter_cons, ih, filter_cons]
      cases kept : keep key <;> cases here : keep k <;> simp [add, same]

theorem collect_filter (keep : κ → Bool) (items : List (κ × β)) :
    collect (items.filter fun item => keep item.1) = (collect items).filter fun group =>
      keep group.1 := by
  induction items using reverseRecOn with
  | nil => rfl
  | append_singleton items item ih =>
    rw [collect_concat, filter_add, filter_append, ← ih]
    cases kept : keep item.1 with
    | false => simp [kept]
    | true => simp [kept, collect_concat]

section Renaming
variable {κ' : Type} [DecidableEq κ'] (name : κ → κ')

theorem map_add (key : κ) (value : β) (groups : List (κ × List β))
    (distinct : ∀ group ∈ groups, name group.1 = name key → group.1 = key) :
    (add key value groups).map (Prod.map name id) =
      add (name key) value (groups.map (Prod.map name id)) := by
  induction groups with
  | nil => rfl
  | cons group rest ih =>
    obtain ⟨k, values⟩ := group
    by_cases same : k = key
    · simp [add, same]
    · have apart : name k ≠ name key := fun equal => same (distinct _ mem_cons_self equal)
      rw [add, if_neg same, map_cons,
        ih fun group member => distinct group (mem_cons_of_mem _ member)]
      simp [add, apart]

theorem collect_map (items : List (κ × β))
    (distinct : ∀ item ∈ items, ∀ other ∈ items, name item.1 = name other.1 → item.1 = other.1) :
    collect (items.map (Prod.map name id)) = (collect items).map (Prod.map name id) := by
  induction items using reverseRecOn with
  | nil => rfl
  | append_singleton items item ih =>
    have last : item ∈ items ++ [item] := by simp
    rw [map_append, map_singleton, collect_concat, collect_concat,
      ih fun item member other member' => distinct item (mem_append_left _ member) other
        (mem_append_left _ member')]
    refine (map_add name item.1 item.2 (collect items) fun group member equal => ?_).symm
    obtain ⟨other, member, same⟩ := mem_map.mp ((mem_collect items group.1 group.2).mp member).1
    rw [← same] at equal ⊢
    exact distinct other (mem_append_left _ member) item last equal

end Renaming

end Liteset.Lib.Groups
