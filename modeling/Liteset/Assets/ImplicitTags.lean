import Std.Data.String.ToNat
import Mathlib.Data.List.Nodup
import Mathlib.Data.List.Dedup
import Liteset.Lib.Runs

/-!
# Implicit tags

The tag listeners of `models/_listeners.py` keep rows of `tagged_object` for the owners, the
type and the favourites of an object.  A tag is unique by its name and type, which stand for its id;
`strip` changes none of the names.
-/

set_option autoImplicit false

namespace Liteset.Assets.ImplicitTags

open Lib List

inductive ObjectType where
  | query
  | chart
  | dashboard
  | dataset
  deriving DecidableEq

def ObjectType.name : ObjectType → String
  | .query => "query"
  | .chart => "chart"
  | .dashboard => "dashboard"
  | .dataset => "dataset"

inductive TagType where
  | custom
  | type
  | owner
  | favoritedBy
  deriving DecidableEq

structure Tag where
  name : String
  type : TagType
  deriving DecidableEq

structure TaggedObject where
  tag : Tag
  objectId : Nat
  objectType : ObjectType
  deriving DecidableEq

/-- An object with the ids of its owners; a saved query has its user for an owner. -/
structure Target where
  objectType : ObjectType
  id : Nat
  owners : List Nat

structure FavStar where
  userId : Option Nat
  className : String
  objId : Option Nat
  deriving DecidableEq

def ownerTag (ownerId : Nat) : Tag := ⟨"owner:" ++ ownerId.repr, .owner⟩

def typeTag (objectType : ObjectType) : Tag := ⟨"type:" ++ objectType.name, .type⟩

def favouriteTag (userId : Option Nat) : Tag :=
  ⟨"favorited_by:" ++ userId.elim "None" Nat.repr, .favoritedBy⟩

def Target.row (target : Target) (tag : Tag) : TaggedObject := ⟨tag, target.id, target.objectType⟩

/-- `_add_tagged_object_if_missing` -/
def addIfMissing (rows : List TaggedObject) (row : TaggedObject) : List TaggedObject :=
  if row ∈ rows then rows else rows ++ [row]

def objectAfterInsert (target : Target) (rows : List TaggedObject) : List TaggedObject :=
  addIfMissing ((target.owners.map fun owner => target.row (ownerTag owner)).foldl
    addIfMissing rows)
    (target.row (typeTag target.objectType))

def Target.owns (target : Target) (row : TaggedObject) : Bool :=
  row.objectType = target.objectType && row.objectId = target.id && row.tag.type = .owner

def objectAfterUpdate (target : Target) (rows : List TaggedObject) : List TaggedObject :=
  let existing := (rows.filter target.owns).map TaggedObject.tag
  let newTags := (target.owners.map ownerTag).dedup
  (rows ++ (newTags.filter fun tag => tag ∉ existing).map target.row).filter fun row =>
    !target.owns row || row.tag ∈ newTags

def objectAfterDelete (objectType : ObjectType) (id : Nat) (rows : List TaggedObject) :
    List TaggedObject :=
  rows.filter fun row => !(row.objectType = objectType && row.objectId = id)

def objectTypeMap : String → Option ObjectType
  | "slice" => some .chart
  | "Dashboard" => some .dashboard
  | "SqlaTable" => some .dataset
  | _ => none

/-- The row of a favourite, if it is one of a chart, a dashboard or a dataset. -/
def FavStar.row (star : FavStar) : Option TaggedObject :=
  match objectTypeMap star.className, star.objId with
  | some objectType, some id => some ⟨favouriteTag star.userId, id, objectType⟩
  | _, _ => none

def favstarAfterInsert (star : FavStar) (rows : List TaggedObject) : List TaggedObject :=
  match star.row with
  | some row => addIfMissing rows row
  | none => rows

/-- The rows of the user are found by the id of the object, of whatever type it is. -/
def favstarAfterDelete (star : FavStar) (rows : List TaggedObject) : List TaggedObject :=
  rows.filter fun row => !(some row.objectId = star.objId && row.tag = favouriteTag star.userId)

structure World where
  objects : List Target := []
  favStars : List FavStar := []
  rows : List TaggedObject := []

inductive Operation where
  | insert (target : Target)
  | update (target : Target)
  | delete (objectType : ObjectType) (id : Nat)
  | insertFavStar (star : FavStar)
  | deleteFavStar (star : FavStar)

def Target.Is (target : Target) (objectType : ObjectType) (id : Nat) : Prop :=
  target.objectType = objectType ∧ target.id = id

instance (target : Target) (objectType : ObjectType) (id : Nat) :
    Decidable (target.Is objectType id) :=
  inferInstanceAs (Decidable (_ ∧ _))

def World.Live (world : World) (objectType : ObjectType) (id : Nat) : Prop :=
  ∃ target ∈ world.objects, target.Is objectType id

instance (world : World) (objectType : ObjectType) (id : Nat) :
    Decidable (world.Live objectType id) :=
  inferInstanceAs (Decidable (∃ target ∈ world.objects, _))

def step (world : World) : Operation → Option World
  | .insert target =>
    if world.Live target.objectType target.id then none
    else some { world with
      objects := world.objects ++ [target], rows := objectAfterInsert target world.rows }
  | .update target =>
    if world.Live target.objectType target.id then
      some { world with
        objects := world.objects.map fun old => if old.Is target.objectType target.id
          then target else old
        rows := objectAfterUpdate target world.rows }
    else none
  | .delete objectType id =>
    if world.Live objectType id then
      some { world with
        objects := world.objects.filter fun old => ¬old.Is objectType id
        rows := objectAfterDelete objectType id world.rows }
    else none
  | .insertFavStar star =>
    some { world with
      favStars := world.favStars ++ [star], rows := favstarAfterInsert star world.rows }
  | .deleteFavStar star =>
    if star ∈ world.favStars then
      some { world with
        favStars := world.favStars.erase star, rows := favstarAfterDelete star world.rows }
    else none

def Operation.object : Operation → Option (ObjectType × Nat)
  | .insert target => some (target.objectType, target.id)
  | .update target => some (target.objectType, target.id)
  | .delete objectType id => some (objectType, id)
  | .insertFavStar star => star.row.map fun row => (row.objectType, row.objectId)
  | .deleteFavStar star => star.row.map fun row => (row.objectType, row.objectId)

/-- A row that the owners, the type or a favourite of a live object ask for. -/
def Due (world : World) (row : TaggedObject) : Prop :=
  ∃ target ∈ world.objects, target.Is row.objectType row.objectId ∧
    ((∃ owner ∈ target.owners, row.tag = ownerTag owner) ∨ row.tag = typeTag row.objectType ∨
      ∃ star ∈ world.favStars, star.row = some row)

structure Mirrors (world : World) : Prop where
  listed : ∀ row, row ∈ world.rows ↔ Due world row
  once : world.rows.Nodup
  favourites : (world.favStars.filterMap FavStar.row).Nodup

def KeepsOthers (world next : World) (operation : Operation) : Prop :=
  ∀ row, operation.object ≠ some (row.objectType, row.objectId) →
    (row ∈ next.rows ↔ row ∈ world.rows)

/-- A favourite is new and of a live object, an object is inserted without favourites,
and the user of a favourite that is deleted has no other favourite among the live
objects with this id. -/
def Orderly (world : World) : Operation → Prop
  | .insert target =>
    ∀ star ∈ world.favStars, ∀ row ∈ star.row, ¬target.Is row.objectType row.objectId
  | .update _ => True
  | .delete _ _ => True
  | .insertFavStar star =>
    ∀ row ∈ star.row, world.Live row.objectType row.objectId ∧ ∀ other ∈ world.favStars,
      other.row ≠ some row
  | .deleteFavStar star =>
    ∀ other ∈ world.favStars.erase star, other.userId = star.userId → other.objId = star.objId →
      ∀ row ∈ other.row, ¬world.Live row.objectType row.objectId

section Steps
variable {world next : World} {rows : List TaggedObject} {row new : TaggedObject} {target : Target}
    {star : FavStar}

theorem mem_addIfMissing : row ∈ addIfMissing rows new ↔ row ∈ rows ∨ row = new := by
  unfold addIfMissing
  split
  · next there => exact ⟨.inl, fun either => either.elim id fun same => same ▸ there⟩
  · simp

theorem nodup_addIfMissing (once : rows.Nodup) : (addIfMissing rows new).Nodup := by
  unfold addIfMissing
  split
  · exact once
  · next absent => exact once.append (nodup_singleton new) (disjoint_singleton.mpr absent)

theorem foldl_addIfMissing (more : List TaggedObject) :
    (rows.Nodup → (more.foldl addIfMissing rows).Nodup) ∧
    ∀ row, row ∈ more.foldl addIfMissing rows ↔ row ∈ rows ∨ row ∈ more := by
  induction more generalizing rows with
  | nil => simp
  | cons new more ih =>
    refine ⟨fun once => ih.1 (nodup_addIfMissing once), fun row => ?_⟩
    rw [foldl_cons, ih.2, mem_addIfMissing, mem_cons, or_assoc]

theorem row_facts (isRow : row ∈ star.row) : row.tag = favouriteTag star.userId ∧
    star.objId = some row.objectId := by
  unfold FavStar.row at isRow
  split at isRow
  · next named isId =>
    cases isRow
    exact ⟨rfl, isId⟩
  · cases isRow

theorem tag_types (row : TaggedObject) :
    (∀ owner, row.tag = ownerTag owner → row.tag.type = .owner) ∧
    (row.tag = typeTag row.objectType → row.tag.type = .type) ∧ ∀ user,
      row.tag = favouriteTag user → row.tag.type = .favoritedBy :=
  ⟨fun _ same => same ▸ rfl, fun same => same ▸ rfl, fun _ same => same ▸ rfl⟩

theorem favouriteTag_injective : Function.Injective favouriteTag := by
  intro first second same
  have text := (String.append_right_inj _).mp (Tag.mk.inj same).1
  have none_ (id : Nat) : "None" ≠ id.repr := fun isText => by
    have chars : "None".toList = Nat.toDigits 10 id :=
      (congrArg String.toList isText).trans (by simp [Nat.repr])
    have digit := Nat.isDigit_of_mem_toDigits (by decide) (by decide)
      (chars ▸ (by decide : 'N' ∈ "None".toList))
    exact absurd digit (by decide)
  cases first with
  | none =>
    cases second with
    | none => rfl
    | some id => exact absurd text (none_ id)
  | some other =>
    cases second with
    | none => exact absurd text.symm (none_ other)
    | some id => rw [Nat.repr_injective text]

theorem owns_iff : target.owns row = true ↔ target.Is row.objectType row.objectId ∧
    row.tag.type = .owner := by
  simp [Target.owns, Target.Is, eq_comm (a := row.objectType), eq_comm (a := row.objectId)]

theorem row_of_tag {other : TaggedObject} (first : target.Is other.objectType other.objectId)
    (second : target.Is row.objectType row.objectId) (same : other.tag = row.tag) :
    other = row := by
  obtain ⟨tag, _, _⟩ := other
  obtain ⟨_, _, _⟩ := row
  obtain ⟨rfl, rfl⟩ := first
  obtain ⟨rfl, rfl⟩ := second
  exact congrArg target.row same

/-- The owner rows of the object are made anew, all others stay. -/
theorem mem_afterUpdate : row ∈ objectAfterUpdate target rows ↔
    target.Is row.objectType row.objectId ∧ (∃ owner ∈ target.owners, row.tag = ownerTag owner) ∨
      ¬(target.Is row.objectType row.objectId ∧ row.tag.type = .owner) ∧ row ∈ rows := by
  rw [objectAfterUpdate, mem_filter, mem_append, ← owns_iff]
  constructor
  · rintro ⟨held, kept⟩
    cases own : target.owns row with
    | true =>
      obtain ⟨owner, member, same⟩ :
        ∃ owner ∈ target.owners, ownerTag owner = row.tag := by simpa [own] using kept
      exact .inl ⟨(owns_iff.mp own).1, owner, member, same.symm⟩
    | false =>
      refine .inr ⟨by simp, held.resolve_right fun added => ?_⟩
      obtain ⟨tag, isTag, rfl⟩ := mem_map.mp added
      obtain ⟨owner, _, rfl⟩ := mem_map.mp (mem_dedup.mp (mem_of_mem_filter isTag))
      simp [Target.owns, Target.row, ownerTag] at own
  · rintro (⟨is, owner, member, same⟩ | ⟨other, there⟩)
    · have isNew : row.tag ∈ (target.owners.map ownerTag).dedup :=
        mem_dedup.mpr (mem_map.mpr ⟨owner, member, same.symm⟩)
      refine ⟨?_, by simp [isNew]⟩
      by_cases there : row.tag ∈ (rows.filter target.owns).map TaggedObject.tag
      · obtain ⟨old, held, sameTag⟩ := mem_map.mp there
        obtain ⟨inRows, owns⟩ := mem_filter.mp held
        exact .inl (row_of_tag (owns_iff.mp owns).1 is sameTag ▸ inRows)
      · exact .inr (mem_map.mpr ⟨row.tag, mem_filter.mpr ⟨isNew, decide_eq_true there⟩,
          row_of_tag ⟨rfl, rfl⟩ is rfl⟩)
    · exact ⟨.inl there, by simp [other]⟩

theorem nodup_afterUpdate (once : rows.Nodup) : (objectAfterUpdate target rows).Nodup := by
  have apart : ((((target.owners.map ownerTag).dedup).filter fun tag =>
      tag ∉ (rows.filter target.owns).map TaggedObject.tag).map target.row).Nodup :=
    ((nodup_dedup _).filter _).map fun first second same => (TaggedObject.mk.inj same).1
  refine (once.append apart fun row held added => ?_).filter _
  obtain ⟨tag, isTag, rfl⟩ := mem_map.mp added
  obtain ⟨isNew, fresh⟩ := mem_filter.mp isTag
  obtain ⟨owner, _, rfl⟩ := mem_map.mp (mem_dedup.mp isNew)
  exact of_decide_eq_true fresh
    (mem_map.mpr ⟨_, mem_filter.mpr ⟨held, owns_iff.mpr ⟨⟨rfl, rfl⟩, rfl⟩⟩, rfl⟩)

theorem mem_afterInsert : row ∈ objectAfterInsert target rows ↔
    row ∈ rows ∨ target.Is row.objectType row.objectId ∧
    ((∃ owner ∈ target.owners, row.tag = ownerTag owner) ∨ row.tag = typeTag row.objectType) := by
  rw [objectAfterInsert, mem_addIfMissing, (foldl_addIfMissing _).2, or_assoc]
  refine or_congr_right ?_
  obtain ⟨tag, objectId, objectType⟩ := row
  simp only [mem_map, Target.row, TaggedObject.mk.injEq, Target.Is]
  grind

theorem mem_favstarAfterInsert : row ∈ favstarAfterInsert star rows ↔
    row ∈ rows ∨ star.row = some row := by
  unfold favstarAfterInsert
  cases star.row with
  | none => simp
  | some new => simp [mem_addIfMissing, eq_comm]

theorem mirrors_insert (mirrors : Mirrors world) (ok : Orderly world (.insert target))
    (taken : step world (.insert target) = some next) : Mirrors next := by
  simp only [step] at taken
  split at taken
  · cases taken
  · cases taken
    refine ⟨fun row => ?_, nodup_addIfMissing ((foldl_addIfMissing _).1 mirrors.once),
      mirrors.favourites⟩
    rw [mem_afterInsert, mirrors.listed, Due, Due]
    simp only [mem_append, mem_singleton, or_and_right, exists_or, exists_eq_left]
    refine or_congr_right (and_congr_right fun is => ?_)
    have unasked : ¬∃ star ∈ world.favStars, star.row = some row :=
      fun ⟨star, member, isRow⟩ => ok star member row isRow is
    simp [unasked]

theorem mirrors_update (mirrors : Mirrors world) (taken : step world (.update target) = some next) :
    Mirrors next := by
  simp only [step] at taken
  split at taken
  · next live =>
    cases taken
    refine ⟨fun row => ?_, nodup_afterUpdate mirrors.once, mirrors.favourites⟩
    rw [mem_afterUpdate, mirrors.listed, Due, Due]
    obtain ⟨owners, types, _⟩ := tag_types row
    have stars (star : FavStar) : star.row = some row → row.tag.type = .favoritedBy :=
      fun isRow => (row_facts isRow).1 ▸ rfl
    simp only [mem_map, exists_exists_and_eq_and]
    obtain ⟨held, inObjects, isHeld⟩ := live
    simp only [Target.Is] at *
    grind
  · cases taken

theorem mirrors_delete {objectType : ObjectType} {id : Nat} (mirrors : Mirrors world)
    (taken : step world (.delete objectType id) = some next) : Mirrors next := by
  simp only [step] at taken
  split at taken
  · cases taken
    refine ⟨fun row => ?_, mirrors.once.filter _, mirrors.favourites⟩
    rw [objectAfterDelete, mem_filter, mirrors.listed, Due, Due]
    simp only [mem_filter, Target.Is]
    grind
  · cases taken

theorem mirrors_insertFavStar (mirrors : Mirrors world) (ok : Orderly world (.insertFavStar star))
    (taken : step world (.insertFavStar star) = some next) : Mirrors next := by
  cases taken
  refine ⟨fun row => ?_, ?_, ?_⟩
  · rw [mem_favstarAfterInsert, mirrors.listed, Due, Due]
    simp only [mem_append, mem_singleton, or_and_right, exists_or, exists_eq_left]
    have live : star.row = some row → ∃ target ∈ world.objects,
      target.Is row.objectType row.objectId := fun isRow => (ok row isRow).1
    grind
  · unfold favstarAfterInsert
    split
    · exact nodup_addIfMissing mirrors.once
    · exact mirrors.once
  · rw [filterMap_append]
    cases isRow : star.row with
    | none => simpa [isRow] using mirrors.favourites
    | some row =>
      rw [filterMap_cons_some isRow, filterMap_nil]
      refine mirrors.favourites.append (nodup_singleton row)
        (disjoint_singleton.mpr fun member => ?_)
      obtain ⟨other, held, same⟩ := mem_filterMap.mp member
      exact (ok row isRow).2 other held same

theorem mirrors_deleteFavStar (mirrors : Mirrors world) (ok : Orderly world (.deleteFavStar star))
    (taken : step world (.deleteFavStar star) = some next) : Mirrors next := by
  simp only [step] at taken
  split at taken
  · next there =>
    cases taken
    refine ⟨fun row => ?_, mirrors.once.filter _,
      mirrors.favourites.sublist (erase_sublist.filterMap _)⟩
    rw [favstarAfterDelete, mem_filter, mirrors.listed, Due, Due]
    have isOwn : star.row = some row → some row.objectId = star.objId ∧
      row.tag = favouriteTag star.userId :=
      fun isRow => (row_facts isRow).symm.imp_left Eq.symm
    have other (later : FavStar) (member : later ∈ world.favStars.erase star)
      (isRow : later.row = some row)
        (live : world.Live row.objectType row.objectId) :
        ¬(some row.objectId = star.objId ∧ row.tag = favouriteTag star.userId) :=
      fun ⟨sameId, sameTag⟩ =>
        ok later member (favouriteTag_injective ((row_facts isRow).1.symm.trans sameTag))
        ((row_facts isRow).2.trans sameId) row isRow live
    obtain ⟨owners, types, stars⟩ := tag_types row
    have erased (later : FavStar) : later ∈ world.favStars.erase star → later ∈ world.favStars :=
      mem_of_mem_erase
    have kept (later : FavStar) (member : later ∈ world.favStars) :
      later = star ∨ later ∈ world.favStars.erase star :=
      or_iff_not_imp_left.mpr fun ne => (mem_erase_of_ne ne).mpr member
    unfold World.Live at other
    simp only [Bool.not_eq_true', Bool.and_eq_false_iff, decide_eq_false_iff_not]
    grind
  · cases taken

theorem mirrors_step {operation : Operation} (mirrors : Mirrors world)
    (ok : Orderly world operation)
    (taken : step world operation = some next) : Mirrors next := by
  cases operation with
  | insert target => exact mirrors_insert mirrors ok taken
  | update target => exact mirrors_update mirrors taken
  | delete objectType id => exact mirrors_delete mirrors taken
  | insertFavStar star => exact mirrors_insertFavStar mirrors ok taken
  | deleteFavStar star => exact mirrors_deleteFavStar mirrors ok taken

theorem keepsOthers_step {operation : Operation} (mirrors : Mirrors world)
    (ok : Orderly world operation)
    (taken : step world operation = some next) : KeepsOthers world next operation := by
  intro row other
  cases operation with
  | insert target =>
    have outside : ¬target.Is row.objectType row.objectId :=
      fun is => other (by rw [← is.1, ← is.2]; rfl)
    simp only [step] at taken
    split at taken <;> cases taken
    rw [mem_afterInsert, or_iff_left fun more => outside more.1]
  | update target =>
    have outside : ¬target.Is row.objectType row.objectId :=
      fun is => other (by rw [← is.1, ← is.2]; rfl)
    simp only [step] at taken
    split at taken <;> cases taken
    rw [mem_afterUpdate, or_iff_right fun more => outside more.1,
      and_iff_right fun own => outside own.1]
  | delete objectType id =>
    simp only [step] at taken
    split at taken <;> cases taken
    rw [objectAfterDelete, mem_filter, and_iff_left]
    simp only [Operation.object] at other
    grind
  | insertFavStar star =>
    cases taken
    rw [mem_favstarAfterInsert, or_iff_left]
    exact fun isRow => other (by rw [Operation.object, isRow]; rfl)
  | deleteFavStar star =>
    simp only [step] at taken
    split at taken <;> cases taken
    rw [favstarAfterDelete, mem_filter, and_iff_left_of_imp]
    intro held
    by_contra removed
    obtain ⟨sameId, isStar⟩ :
      some row.objectId = star.objId ∧ row.tag = favouriteTag star.userId := by simpa using removed
    obtain ⟨target, live, is, asked⟩ := (mirrors.listed row).mp held
    obtain ⟨owners, types, stars⟩ := tag_types row
    obtain ⟨later, member, isRow⟩ : ∃ later ∈ world.favStars, later.row = some row := by grind
    obtain ⟨sameTag, id⟩ := row_facts isRow
    refine ok later ((mem_erase_of_ne fun same => ?_).mpr member)
      (favouriteTag_injective (sameTag.symm.trans isStar)) (id.trans sameId)
      row isRow ⟨target, live, is⟩
    exact other (by rw [Operation.object, ← same, isRow]; rfl)

/-- A row that the owners or the type of a live object ask for. -/
def Owned (world : World) (row : TaggedObject) : Prop :=
  ∃ target ∈ world.objects, target.Is row.objectType row.objectId ∧
    ((∃ owner ∈ target.owners, row.tag = ownerTag owner) ∨ row.tag = typeTag row.objectType)

structure Accurate (world : World) : Prop where
  kept : ∀ row, Owned world row → row ∈ world.rows
  asked : ∀ row ∈ world.rows, Owned world row ∨ ∃ star ∈ world.favStars, star.row = some row
  once : world.rows.Nodup

theorem accurate_insert (accurate : Accurate world)
    (taken : step world (.insert target) = some next) : Accurate next := by
  simp only [step] at taken
  split at taken <;> cases taken
  refine ⟨fun row isOwned => ?_,
    fun row held => ?_, nodup_addIfMissing ((foldl_addIfMissing _).1 accurate.once)⟩
  · simp only [Owned, mem_append, mem_singleton, or_and_right, exists_or, exists_eq_left] at isOwned
    exact mem_afterInsert.mpr (isOwned.imp_left (accurate.kept row))
  · simp only [Owned, mem_append, mem_singleton, or_and_right, exists_or, exists_eq_left]
    rw [or_right_comm]
    exact (mem_afterInsert.mp held).imp_left (accurate.asked row)

theorem accurate_update (accurate : Accurate world)
    (taken : step world (.update target) = some next) : Accurate next := by
  obtain ⟨kept, asked, once⟩ := accurate
  simp only [step] at taken
  split at taken <;> cases taken
  next live =>
  obtain ⟨held, inObjects, isHeld⟩ := live
  have stars (row : TaggedObject) (star : FavStar) (isRow : star.row = some row) :
    row.tag.type = .favoritedBy :=
    (row_facts isRow).1 ▸ rfl
  refine ⟨fun row => ?_, fun row => ?_, nodup_afterUpdate once⟩ <;>
  · obtain ⟨owners, types, _⟩ := tag_types row
    rw [mem_afterUpdate]
    simp only [Owned, mem_map, exists_exists_and_eq_and, Target.Is] at *
    grind

theorem accurate_step {operation : Operation} (accurate : Accurate world)
    (taken : step world operation = some next) : Accurate next := by
  obtain ⟨kept, asked, once⟩ := accurate
  cases operation with
  | insert target => exact accurate_insert ⟨kept, asked, once⟩ taken
  | update target => exact accurate_update ⟨kept, asked, once⟩ taken
  | delete objectType id =>
    simp only [step] at taken
    split at taken <;> cases taken
    refine ⟨fun row => ?_, fun row => ?_, once.filter _⟩ <;>
    · rw [objectAfterDelete, mem_filter]
      simp only [Owned, mem_filter, Target.Is] at *
      grind
  | insertFavStar star =>
    cases taken
    refine ⟨fun row owned => mem_favstarAfterInsert.mpr (.inl (kept row owned)),
      fun row held => ?_, ?_⟩
    · rcases mem_favstarAfterInsert.mp held with before | isRow
      · exact (asked row before).imp_right fun ⟨star, member, isRow⟩ =>
          ⟨star, mem_append_left _ member, isRow⟩
      · exact .inr ⟨star, mem_append_right _ (mem_singleton_self star), isRow⟩
    · unfold favstarAfterInsert
      split
      · exact nodup_addIfMissing once
      · exact once
  | deleteFavStar star =>
    simp only [step] at taken
    split at taken <;> cases taken
    refine ⟨fun row owned => mem_filter.mpr ⟨kept row owned, ?_⟩, fun row held => ?_, once.filter _⟩
    · obtain ⟨_, _, _, ⟨_, _, same⟩ | same⟩ :=
        owned <;> simp [same, ownerTag, typeTag, favouriteTag]
    · obtain ⟨before, left⟩ := mem_filter.mp held
      refine (asked row before).imp_right fun ⟨other, member, isRow⟩ =>
        ⟨other, (mem_erase_of_ne fun same => ?_).mpr member, isRow⟩
      obtain ⟨sameTag, sameId⟩ := row_facts isRow
      simp [← same, sameTag, sameId] at left

end Steps

/-- After every run of orderly steps the rows are those of the owners, the types and the
favourites of the live objects, and a step on one object changes no row of another. -/
theorem tags_mirror {world : World} (reached : Runs.Reaches step Orderly {} world) :
    Mirrors world ∧ ∀ operation next, Orderly world operation → step world operation = some next →
    KeepsOthers world next operation := by
  have start : Mirrors {} :=
    ⟨fun row => iff_of_false not_mem_nil fun ⟨_, member, _⟩ => not_mem_nil member, nodup_nil,
      nodup_nil⟩
  have mirrors :=
    reached.invariant Mirrors start fun _ _ _ mirrors ok taken => mirrors_step mirrors ok taken
  exact ⟨mirrors, fun operation next ok taken => keepsOthers_step mirrors ok taken⟩

def favouredChart : List Operation :=
  [.insert ⟨.chart, 1, [3]⟩, .insertFavStar ⟨some 5, "slice", some 1⟩]

theorem tags_mirror_favouredChart : ∃ world, Mirrors world ∧
    (⟨favouriteTag (some 5), 1, .chart⟩ : TaggedObject) ∈ world.rows := by
  have first : Runs.Reaches step Orderly {} _ :=
    .next (.insert ⟨.chart, 1, [3]⟩) .start (fun _ => nofun) rfl
  have second : Runs.Reaches step Orderly {} _ :=
    first.next (.insertFavStar ⟨some 5, "slice", some 1⟩)
    (by rintro _ ⟨⟩; exact ⟨by decide, fun _ => nofun⟩) rfl
  exact ⟨_, (tags_mirror second).1, by decide⟩

/-- A user takes a chart out of the favourites and loses the row of a dashboard with the same id. -/
theorem other_favourite_lost : ¬∀ world, Runs.Reaches step Runs.anyStep {} world →
    Mirrors world := by
  intro always
  obtain ⟨world, reached, star, absent, live⟩ :=
    Runs.exists_reaches_of_runWithin step Runs.anyStep {}
    [.insert ⟨.chart, 1, []⟩, .insert ⟨.dashboard, 1, []⟩, .insertFavStar ⟨some 5, "slice", some 1⟩,
      .insertFavStar ⟨some 5, "Dashboard", some 1⟩, .deleteFavStar ⟨some 5, "slice", some 1⟩]
    (fun world => ⟨some 5, "Dashboard", some 1⟩ ∈ world.favStars ∧
      ⟨favouriteTag (some 5), 1, .dashboard⟩ ∉ world.rows ∧
      world.Live .dashboard 1) (by decide)
  obtain ⟨target, member, is⟩ := live
  exact absent (((always world reached).listed _).mpr ⟨target, member, is,
    .inr (.inr ⟨_, star, rfl⟩)⟩)

/-- In every run the rows of the owners and the types of the live objects are there, and
every row is one of these or that of a favourite that still stands. -/
theorem tags_accurate {world : World} (reached : Runs.Reaches step Runs.anyStep {} world) :
    Accurate world :=
  reached.invariant Accurate ⟨fun _ ⟨_, member, _⟩ => (not_mem_nil member).elim,
    fun _ held => (not_mem_nil held).elim, nodup_nil⟩
    fun _ _ _ accurate _ taken => accurate_step accurate taken

theorem tags_accurate_favouredChart :
    ∃ world, Accurate world ∧ (⟨ownerTag 4, 1, .chart⟩ : TaggedObject) ∈ world.rows := by
  obtain ⟨world, reached, held⟩ := Runs.exists_reaches_of_runWithin step Runs.anyStep {}
    (favouredChart ++ [.update ⟨.chart, 1, [4]⟩, .deleteFavStar ⟨some 5, "slice", some 1⟩])
    (fun world => (⟨ownerTag 4, 1, .chart⟩ : TaggedObject) ∈ world.rows) (by decide)
  exact ⟨world, tags_accurate reached, held⟩

end Liteset.Assets.ImplicitTags
