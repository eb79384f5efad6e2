import Mathlib.Data.List.Induction
import Mathlib.Data.List.Nodup
import Mathlib.Data.List.Pairwise
import Mathlib.Data.Option.Basic

/-!
# Names of columns and metrics

`UpdateDatasetCommand.validate` checks the names of a payload, `update_columns` and
`update_metrics` merge its entries into the stored ones by id and delete those that
are not addressed.  Columns and metrics are treated alike, but only columns can be
overridden as a whole.
-/

set_option autoImplicit false

namespace Liteset.Assets.DatasetNames

open List

inductive Kind where
  | columns
  | metrics
  deriving DecidableEq

structure Item where
  id : Nat
  name : Option String
  deriving DecidableEq

structure Stored where
  items : List Item
  ids : (items.map Item.id).Nodup
  names : (items.map Item.name).Nodup

/-- An entry of the payload: `"id"` is absent, null or a number. -/
structure Entry where
  id : Option (Option Nat)
  name : Option String
  deriving DecidableEq

inductive Error where
  | duplicate
  | notFound
  | present
  deriving DecidableEq

/-- `c.get("column_name") or c.get("name", "")`; no request has the second key. -/
def checkedName (e : Entry) : String := e.name.getD ""

/-- `validate_columns_exist` -/
def IdsExist (stored : Stored) (entries : List Entry) : Prop :=
  ∀ e ∈ entries, ∀ id, e.id = some id → ∃ item ∈ stored.items, id = some item.id

instance (stored : Stored) (entries : List Entry) : Decidable (IdsExist stored entries) :=
  decidable_of_iff (∀ e ∈ entries, ∀ id ∈ e.id, ∃ item ∈ stored.items, id = some item.id) Iff.rfl

/-- `new_col_names` -/
def newNames (entries : List Entry) : List (Option String) :=
  (entries.filter fun e => e.id = none ∧ checkedName e ≠ "").map Entry.name

/-- `not validate_columns_uniqueness` -/
def TakesStored (stored : Stored) (entries : List Entry) : Prop :=
  ∃ name ∈ newNames entries, name ∈ stored.items.map Item.name

instance (stored : Stored) (entries : List Entry) : Decidable (TakesStored stored entries) :=
  inferInstanceAs (Decidable (∃ name ∈ newNames entries, name ∈ stored.items.map Item.name))

/-- The errors of `validate` for one kind; a payload without entries is not checked. -/
def validate (override : Bool) (stored : Stored) (payload : Option (List Entry)) : List Error :=
  let entries := payload.getD []
  if entries = [] then []
  else if ¬(entries.map checkedName).Nodup then [.duplicate]
  else
    (if IdsExist stored entries then [] else [.notFound])
      ++ if override = false ∧ TakesStored stored entries then [.present] else []

/-- The stored id of an entry: `col_id and col_id in existing_columns`. -/
def existingId (stored : Stored) (e : Entry) : Option Nat :=
  match e.id with
  | some (some id) => if id ≠ 0 ∧ id ∈ stored.items.map Item.id then some id else none
  | _ => none

/-- `setattr` for the fields an entry has. -/
def setName (stored : Stored) (item : Item) (e : Entry) : Item :=
  if existingId stored e = some item.id then { item with name := e.name.or item.name } else item

def applyEntry (stored : Stored) (model : List Item × List (Option String)) (e : Entry) :
    List Item × List (Option String) :=
  match existingId stored e with
  | some _ => (model.1.map fun item => setName stored item e, model.2)
  | none => (model.1, model.2 ++ [e.name])

/-- The names after `update_columns` or `update_metrics`. -/
def namesAfter (override : Bool) (stored : Stored) (payload : Option (List Entry)) :
    List (Option String) :=
  match payload with
  | none => stored.items.map Item.name
  | some entries =>
    if override then entries.map Entry.name
    else
      let model := entries.foldl (applyEntry stored) (stored.items, [])
      let incomingIds := entries.filterMap (existingId stored)
      (model.1.filter fun item => item.id ∈ incomingIds).map Item.name ++ model.2

/-- `override_columns` -/
def overrides (overrideColumns : Bool) (kind : Kind) : Bool :=
  overrideColumns && kind = .columns

section Names
variable {stored : Stored} {entries : List Entry} {item : Item} {e : Entry}

def renamed (stored : Stored) (entries : List Entry) (item : Item) : Item :=
  entries.foldl (setName stored) item

theorem foldl_applyEntry (items : List Item) (added : List (Option String)) :
    entries.foldl (applyEntry stored) (items, added) =
      (items.map (renamed stored entries),
        added ++ (entries.filter fun e => existingId stored e = none).map Entry.name) := by
  induction entries generalizing items added with
  | nil => exact Prod.ext (map_id _).symm (append_nil _).symm
  | cons e rest ih =>
    rw [foldl_cons]
    cases addressed : existingId stored e with
    | some id =>
      simp only [applyEntry, addressed]
      rw [ih, filter_cons_of_neg (by simp [addressed]), map_map]
      rfl
    | none =>
      have same : ∀ item, setName stored item e = item := fun item => by
        simp [setName, addressed]
      simp only [applyEntry, addressed]
      rw [ih, filter_cons_of_pos (by simp [addressed]), map_cons, append_assoc]
      simp [renamed, same]

@[simp] theorem renamed_id : (renamed stored entries item).id = item.id := by
  induction entries generalizing item with
  | nil => rfl
  | cons e rest ih =>
    refine (@ih (setName stored item e)).trans ?_
    unfold setName
    split <;> rfl

theorem renamed_name (named : ∀ e ∈ entries, e.name ≠ none)
    (incoming : item.id ∈ entries.filterMap (existingId stored)) :
    ∃ e ∈ entries, existingId stored e = some item.id ∧ (renamed stored entries item).name =
      e.name := by
  induction entries using reverseRecOn with
  | nil => cases incoming
  | append_singleton front e ih =>
    have step : renamed stored (front ++ [e]) item =
        setName stored (renamed stored front item) e := by
      simp [renamed]
    by_cases addresses : existingId stored e = some item.id
    · refine ⟨e, by simp, addresses, ?_⟩
      obtain ⟨name, has⟩ := Option.ne_none_iff_exists'.mp (named e (by simp))
      rw [step, setName, renamed_id, if_pos addresses, has, Option.some_or]
    · have earlier : item.id ∈ front.filterMap (existingId stored) := by
        rw [filterMap_append, mem_append] at incoming
        refine incoming.resolve_right fun last => addresses ?_
        simpa using last
      obtain ⟨owner, member, owns, name⟩ :=
        ih (fun e member => named e (mem_append_left _ member)) earlier
      refine ⟨owner, mem_append_left _ member, owns, ?_⟩
      rw [step, setName, renamed_id, if_neg addresses, name]

def kept (stored : Stored) (entries : List Entry) : List Item :=
  stored.items.filter fun item => item.id ∈ entries.filterMap (existingId stored)

theorem namesAfter_some : namesAfter false stored (some entries) =
    (kept stored entries).map (fun item => (renamed stored entries item).name)
      ++ (entries.filter fun e => existingId stored e = none).map Entry.name := by
  simp [namesAfter, foldl_applyEntry, kept, filter_map, Function.comp_def]

theorem mem_kept : item ∈ kept stored entries ↔
    item ∈ stored.items ∧ item.id ∈ entries.filterMap (existingId stored) := by
  simp [kept]

theorem item_eq {other : Item} (member : item ∈ stored.items) (second : other ∈ stored.items)
    (same : item.id = other.id) : item = other :=
  inj_on_of_nodup_map stored.ids member second same

/-- Every entry has a name, as the schemas of the request demand. -/
def Named (entries : List Entry) : Prop := ∀ e ∈ entries, ∃ name, e.name = some name ∧ name ≠ ""

def Apart (a b : Entry) : Prop := a.id = b.id → a.id = none

instance : DecidableRel Apart := fun a b => inferInstanceAs (Decidable (a.id = b.id → a.id = none))

instance : Std.Symm Apart := ⟨fun _ _ apart same => same.trans (apart same.symm)⟩

/-- No id is given twice. -/
def DistinctIds (entries : List Entry) : Prop := entries.Pairwise Apart

theorem Named.ne_none (named : Named entries) (member : e ∈ entries) : e.name ≠ none := by
  obtain ⟨name, has, _⟩ := named e member
  simp [has]

theorem Named.nodup_iff (named : Named entries) :
    (entries.map checkedName).Nodup ↔ (entries.map Entry.name).Nodup := by
  have texts : entries.map Entry.name = (entries.map checkedName).map some := by
    rw [map_map]
    refine map_congr_left fun e member => ?_
    obtain ⟨name, has, _⟩ := named e member
    simp [checkedName, has]
  rw [texts, nodup_map_iff (Option.some_injective _)]

theorem nodup_namesAfter (named : Named entries) (distinct : (entries.map Entry.name).Nodup) :
    (namesAfter false stored (some entries)).Nodup := by
  have owner : ∀ item ∈ kept stored entries, ∃ e ∈ entries, existingId stored e = some item.id
      ∧ (renamed stored entries item).name = e.name := fun item member =>
    renamed_name (fun _ => named.ne_none) (mem_kept.mp member).2
  have sameEntry : ∀ {a b}, a ∈ entries → b ∈ entries → a.name = b.name → a = b :=
    fun inA inB => inj_on_of_nodup_map distinct inA inB
  rw [namesAfter_some, nodup_append]
  refine ⟨List.Nodup.map_on ?_ ((stored.ids.of_map _).filter _),
    distinct.sublist (filter_sublist.map _), ?_⟩
  · intro item inKept other otherKept same
    obtain ⟨a, inA, ofItem, nameA⟩ := owner item inKept
    obtain ⟨b, inB, ofOther, nameB⟩ := owner other otherKept
    have one := sameEntry inA inB (nameA.symm.trans (same.trans nameB))
    rw [one, ofOther] at ofItem
    exact item_eq (mem_kept.mp inKept).1 (mem_kept.mp otherKept).1 (Option.some.inj ofItem).symm
  · intro name fromKept other fromNew same
    obtain ⟨item, inKept, rfl⟩ := mem_map.mp fromKept
    obtain ⟨b, inNew, rfl⟩ := mem_map.mp fromNew
    obtain ⟨a, inA, ofItem, nameA⟩ := owner item inKept
    obtain ⟨inB, isNew⟩ := mem_filter.mp inNew
    rw [sameEntry inA inB (nameA.symm.trans same)] at ofItem
    simp [ofItem] at isNew

theorem existingId_eq_some {id : Nat} : existingId stored e = some id ↔
    e.id = some (some id) ∧ id ≠ 0 ∧ ∃ item ∈ stored.items, item.id = id := by
  unfold existingId
  split
  next given has =>
    rw [has, Option.some.injEq, Option.some.injEq]
    constructor
    · intro found
      obtain ⟨known, same⟩ := Option.ite_none_right_eq_some.mp found
      cases same
      exact ⟨rfl, known.1, mem_map.mp known.2⟩
    · rintro ⟨rfl, positive, item⟩
      exact if_pos ⟨positive, mem_map.mpr item⟩
  next other =>
    refine iff_of_false (by simp) fun both => ?_
    exact other _ both.1

theorem renamed_of_distinctIds (named : Named entries) (ids : DistinctIds entries)
    (member : e ∈ entries) (addresses : existingId stored e = some item.id) :
    (renamed stored entries item).name = e.name := by
  obtain ⟨owner, inEntries, owns, name⟩ := renamed_name (fun _ => named.ne_none)
    (mem_filterMap.mpr ⟨e, member, addresses⟩)
  have sameId : owner.id = e.id :=
    (existingId_eq_some.mp owns).1.trans (existingId_eq_some.mp addresses).1.symm
  have given : owner.id ≠ none := by simp [(existingId_eq_some.mp owns).1]
  by_cases same : owner = e
  · rw [name, same]
  · exact absurd (ids.forall inEntries member same sameId) given

theorem nodup_of_namesAfter (named : Named entries) (ids : DistinctIds entries)
    (distinct : (namesAfter false stored (some entries)).Nodup) :
    (entries.map Entry.name).Nodup := by
  rw [namesAfter_some, nodup_append] at distinct
  obtain ⟨distinctKept, distinctNew, disjoint⟩ := distinct
  have itemOf : ∀ e ∈ entries, existingId stored e ≠ none →
      ∃ item ∈ kept stored entries, existingId stored e = some item.id := by
    intro e member addresses
    obtain ⟨id, found⟩ := Option.ne_none_iff_exists'.mp addresses
    obtain ⟨item, inStored, rfl⟩ := (existingId_eq_some.mp found).2.2
    exact ⟨item, mem_kept.mpr ⟨inStored, mem_filterMap.mpr ⟨e, member, found⟩⟩, found⟩
  have mixed : ∀ a ∈ entries, ∀ b ∈ entries, existingId stored a ≠ none →
      existingId stored b = none → a.name ≠ b.name := by
    intro a inA b inB addresses isNew
    obtain ⟨item, inKept, found⟩ := itemOf a inA addresses
    rw [← renamed_of_distinctIds named ids inA found]
    exact disjoint _ (mem_map_of_mem inKept) _
      (mem_map_of_mem (mem_filter.mpr ⟨inB, by simp [isNew]⟩))
  have newApart : entries.Pairwise fun a b => existingId stored a = none →
      existingId stored b = none → a.name ≠ b.name := by
    unfold List.Nodup at distinctNew
    simpa only [pairwise_map, pairwise_filter, decide_eq_true_eq] using distinctNew
  unfold List.Nodup
  rw [pairwise_map]
  refine (newApart.and ids).imp_of_mem ?_
  rintro a b inA inB ⟨bothNew, apart⟩
  by_cases newA : existingId stored a = none
  · by_cases newB : existingId stored b = none
    · exact bothNew newA newB
    · exact (mixed b inB a inA newB newA).symm
  · by_cases newB : existingId stored b = none
    · exact mixed a inA b inB newA newB
    · intro same
      obtain ⟨item, inKept, foundA⟩ := itemOf a inA newA
      obtain ⟨other, otherKept, foundB⟩ := itemOf b inB newB
      rw [← renamed_of_distinctIds named ids inA foundA,
        ← renamed_of_distinctIds named ids inB foundB] at same
      have one := inj_on_of_nodup_map distinctKept inKept otherKept same
      have idA := (existingId_eq_some.mp foundA).1
      have idB := (existingId_eq_some.mp foundB).1
      have none := apart (idA.trans (one ▸ idB.symm))
      rw [idA] at none
      cases none

theorem validate_eq_nil {override : Bool} {payload : Option (List Entry)}
    (accepted : validate override stored payload = []) :
    ((payload.getD []).map checkedName).Nodup := by
  dsimp only [validate] at accepted
  split at accepted
  next empty => simp [empty]
  next =>
    split at accepted
    · cases accepted
    next distinct => exact not_not.mp distinct

end Names

/-- A payload whose entries are all named leaves distinct names when it is accepted;
one whose ids exist and that leaves distinct names is not rejected when its columns are
overridden, or it gives no id twice and no new entry has a stored name. -/
theorem names_stay_distinct (overrideColumns : Bool) (dataset : Kind → Stored)
    (payload : Kind → Option (List Entry))
    (named : ∀ kind, ∀ entries ∈ payload kind, Named entries) :
    ((∀ kind, validate (overrides overrideColumns kind) (dataset kind) (payload kind) = []) →
        ∀ kind, (namesAfter (overrides overrideColumns kind) (dataset kind) (payload kind)).Nodup)
      ∧ ∀ kind, (∀ entries ∈ payload kind, IdsExist (dataset kind) entries
          ∧ (overrides overrideColumns kind = false →
            DistinctIds entries ∧ ¬TakesStored (dataset kind) entries)) →
        (namesAfter (overrides overrideColumns kind) (dataset kind) (payload kind)).Nodup →
        validate (overrides overrideColumns kind) (dataset kind) (payload kind) = [] := by
  constructor
  · intro accepted kind
    have distinct := validate_eq_nil (accepted kind)
    cases sent : payload kind with
    | none => exact (dataset kind).names
    | some entries =>
      rw [sent, Option.getD_some, (named kind entries sent).nodup_iff] at distinct
      cases override : overrides overrideColumns kind with
      | true => exact distinct
      | false => exact nodup_namesAfter (named kind entries sent) distinct
  · intro kind allowed distinct
    dsimp only [validate]
    cases sent : payload kind with
    | none => rfl
    | some entries =>
      obtain ⟨exist, merged⟩ := allowed entries sent
      have payloadDistinct : (entries.map Entry.name).Nodup := by
        rw [sent] at distinct
        cases override : overrides overrideColumns kind with
        | true => simpa [namesAfter, override] using distinct
        | false =>
          rw [override] at distinct
          exact nodup_of_namesAfter (named kind entries sent) (merged override).1 distinct
      rw [Option.getD_some]
      refine ite_eq_left_iff.mpr fun _ => ?_
      rw [if_neg (not_not.mpr ((named kind entries sent).nodup_iff.mpr payloadDistinct)),
        if_pos exist, if_neg fun both => (merged both.1).2 both.2]
      rfl

def pair : Stored := ⟨[⟨1, some "a"⟩, ⟨2, some "b"⟩], by decide, by decide⟩

def swap : List Entry := [⟨some (some 1), some "b"⟩, ⟨some (some 2), some "a"⟩, ⟨none, some "c"⟩]

theorem names_stay_distinct_swap :
    ((∀ kind, validate (overrides false kind) pair (some swap) = []) →
        ∀ kind, (namesAfter (overrides false kind) pair (some swap)).Nodup)
      ∧ ∀ kind, (∀ entries ∈ some swap, IdsExist pair entries
          ∧ (overrides false kind = false → DistinctIds entries ∧ ¬TakesStored pair entries)) →
        (namesAfter (overrides false kind) pair (some swap)).Nodup →
        validate (overrides false kind) pair (some swap) = [] :=
  names_stay_distinct false (fun _ => pair) (fun _ => some swap) (by
    rintro _ entries ⟨⟩ e member
    simp only [swap, mem_cons, not_mem_nil, or_false] at member
    obtain rfl | rfl | rfl := member
    · exact ⟨"b", rfl, by decide⟩
    · exact ⟨"a", rfl, by decide⟩
    · exact ⟨"c", rfl, by decide⟩)

/-- An entry without a name keeps one that is given to another column; a column that is
deleted and added again is rejected. -/
theorem checked_names_differ :
    (¬∀ stored payload, validate false stored payload = [] →
      (namesAfter false stored payload).Nodup)
      ∧ ¬∀ stored entries, IdsExist stored entries →
        (namesAfter false stored (some entries)).Nodup →
        Error.present ∉ validate false stored (some entries) := by
  constructor
  · intro distinct
    exact absurd (distinct pair (some [⟨some (some 1), none⟩, ⟨some (some 2), some "a"⟩])
      (by decide))
      (by decide)
  · intro accepts
    exact absurd (accepts pair [⟨none, some "a"⟩] (by decide) (by decide)) (by decide)

end Liteset.Assets.DatasetNames
