import Mathlib.Data.List.Basic

/-!
# Computations that may fail

What a successful sequence of fallible steps says about each of them, and what a fallible
function makes of a list.
-/

set_option autoImplicit false

namespace Liteset.Lib.Fallible

variable {ε α β : Type} {result : Except ε α}

theorem ok_of_bind {next : α → Except ε β} {value : β}
    (succeeds : result >>= next = .ok value) : ∃ a, result = .ok a ∧ next a = .ok value := by
  cases result with
  | error e => cases succeeds
  | ok a => exact ⟨a, rfl, succeeds⟩

theorem ok_of_map {f : α → β} {value : β}
    (succeeds : f <$> result = .ok value) : ∃ a, result = .ok a ∧ f a = value := by
  cases result with
  | error e => cases succeeds
  | ok a => exact ⟨a, rfl, Except.ok.inj succeeds⟩

variable {f : α → Except ε β}

theorem mapM_ok {g : α → β} (items : List α) (each : ∀ a ∈ items, f a = .ok (g a)) :
    items.mapM f = .ok (items.map g) := by
  induction items with
  | nil => rfl
  | cons a items ih =>
    obtain ⟨first, rest⟩ := List.forall_mem_cons.mp each
    rw [List.mapM_cons, first, ih rest]
    rfl

theorem bind_eq_ok_iff {next : α → Except ε β} {value : β} :
    result >>= next = .ok value ↔ ∃ a, result = .ok a ∧ next a = .ok value := by
  constructor
  · exact ok_of_bind
  · rintro ⟨a, first, second⟩
    rw [first]
    exact second

theorem map_eq_ok_iff {f : α → β} {value : β} :
    f <$> result = .ok value ↔ ∃ a, result = .ok a ∧ f a = value := by
  constructor
  · exact ok_of_map
  · rintro ⟨a, first, rfl⟩
    rw [first]
    rfl

theorem mapM_ok_iff {Fine : α → Prop} {g : α → β}
    (each : ∀ a b, f a = .ok b ↔ Fine a ∧ b = g a) (items : List α) (out : List β) :
    items.mapM f = .ok out ↔ (∀ a ∈ items, Fine a) ∧ out = items.map g := by
  induction items generalizing out with
  | nil =>
    rw [List.mapM_nil, List.map_nil]
    exact ⟨fun done => ⟨fun _ none => absurd none List.not_mem_nil, (Except.ok.inj done).symm⟩,
      fun done => congrArg Except.ok done.2.symm⟩
  | cons a items ih =>
    rw [List.mapM_cons, bind_eq_ok_iff, List.forall_mem_cons, List.map_cons]
    constructor
    · rintro ⟨b, first, rest⟩
      obtain ⟨bs, later, result⟩ := ok_of_bind rest
      obtain ⟨fine, rfl⟩ := (each a b).mp first
      obtain ⟨allFine, rfl⟩ := (ih bs).mp later
      exact ⟨⟨fine, allFine⟩, (Except.ok.inj result).symm⟩
    · rintro ⟨⟨fine, allFine⟩, rfl⟩
      refine ⟨g a, (each a (g a)).mpr ⟨fine, rfl⟩, ?_⟩
      rw [(ih (items.map g)).mpr ⟨allFine, rfl⟩]
      rfl

def onField (f : α → Except ε β) : Option α → Except ε (Option β)
  | none => .ok none
  | some a => some <$> f a

theorem onField_ok_iff {Fine : α → Prop} {g : α → β}
    (each : ∀ a b, f a = .ok b ↔ Fine a ∧ b = g a) (field : Option α) (out : Option β) :
    onField f field = .ok out ↔ (∀ a ∈ field, Fine a) ∧ out = field.map g := by
  cases field with
  | none => simp [onField, eq_comm]
  | some a =>
    show some <$> f a = .ok out ↔ _
    rw [map_eq_ok_iff]
    constructor
    · rintro ⟨b, first, rfl⟩
      obtain ⟨fine, rfl⟩ := (each a b).mp first
      exact ⟨fun _ same => Option.some.inj same ▸ fine, rfl⟩
    · rintro ⟨fine, rfl⟩
      exact ⟨g a, (each a _).mpr ⟨fine a rfl, rfl⟩, rfl⟩

theorem mapM_error {Bad : ε → Prop} (items : List α)
    (fails : ¬ ∀ a ∈ items, ∃ b, f a = .ok b) (bad : ∀ a ∈ items, ∀ e, f a = .error e → Bad e) :
    ∃ e, items.mapM f = .error e ∧ Bad e := by
  induction items with
  | nil => exact absurd (List.forall_mem_nil _) fails
  | cons a items ih =>
    rw [List.mapM_cons]
    cases first : f a with
    | error e => exact ⟨e, rfl, bad a List.mem_cons_self e first⟩
    | ok b =>
      have rest : ¬ ∀ a ∈ items, ∃ b, f a = .ok b :=
        fun rest => fails (List.forall_mem_cons.mpr ⟨⟨b, first⟩, rest⟩)
      obtain ⟨e, raised, isBad⟩ := ih rest fun a member => bad a (List.mem_cons_of_mem _ member)
      exact ⟨e, by rw [raised]; rfl, isBad⟩

end Liteset.Lib.Fallible
