import Mathlib.Data.List.Basic

/-!
# Joins of two lists of rows

The four joins of SQL over arbitrary rows.  A filter on the left rows commutes with
the joins that let no right row through alone, and for the same joins a filter on the
right rows may be put into the join condition.
-/

set_option autoImplicit false

namespace Liteset.Lib.Joins

open List

variable {α β γ : Type}

inductive Kind where
  | inner
  | left
  | right
  | full
deriving DecidableEq

def Kind.LeftFirst (kind : Kind) : Prop := kind = .inner ∨ kind = .left

instance (kind : Kind) : Decidable kind.LeftFirst := inferInstanceAs (Decidable (_ ∨ _))

section Rows
variable (on : α → β → Bool) (pair : α → β → γ)

def innerRow (rights : List β) (a : α) : List γ := (rights.filter (on a)).map (pair a)

def leftRow (nullRight : β) (rights : List β) (a : α) : List γ :=
  if rights.any (on a) then innerRow on pair rights a else [pair a nullRight]

def rightRow (nullLeft : α) (lefts : List α) (b : β) : List γ :=
  if lefts.any fun a => on a b then (lefts.filter fun a => on a b).map fun a => pair a b
    else [pair nullLeft b]

def unmatched (nullLeft : α) (lefts : List α) (rights : List β) : List γ :=
  (rights.filter fun b => !lefts.any fun a => on a b).map (pair nullLeft)

def join (kind : Kind) (nullLeft : α) (nullRight : β) (lefts : List α) (rights : List β) : List γ :=
  match kind with
  | .inner => lefts.flatMap (innerRow on pair rights)
  | .left => lefts.flatMap (leftRow on pair nullRight rights)
  | .right => rights.flatMap (rightRow on pair nullLeft lefts)
  | .full =>
    lefts.flatMap (leftRow on pair nullRight rights) ++ unmatched on pair nullLeft lefts rights

end Rows

section Laws
variable {on : α → β → Bool} {pair : α → β → γ} {kind : Kind} {nullLeft : α} {nullRight : β}

theorem any_congr_of_mem {p q : α → Bool} {rows : List α} (same : ∀ a ∈ rows, p a = q a) :
    rows.any p = rows.any q := by
  induction rows with
  | nil => rfl
  | cons a rest ih =>
    rw [any_cons, any_cons, same a mem_cons_self,
      ih fun b member => same b (mem_cons_of_mem _ member)]

variable {lefts : List α}

theorem filter_flatMap_of_rows {p : α → Bool} {q : γ → Bool} {row : α → List γ}
    (kept : ∀ a ∈ lefts, ∀ c ∈ row a, q c = p a) :
    (lefts.flatMap row).filter q = (lefts.filter p).flatMap row := by
  induction lefts with
  | nil => rfl
  | cons a rest ih =>
    rw [flatMap_cons, filter_append, ih fun b member => kept b (mem_cons_of_mem _ member)]
    have first := kept a mem_cons_self
    cases test : p a with
    | true =>
      rw [filter_cons_of_pos test, flatMap_cons,
        filter_eq_self.mpr fun c member => (first c member).trans test]
    | false =>
      rw [filter_cons_of_neg (by rw [test]; exact Bool.false_ne_true)]
      rw [filter_eq_nil_iff.mpr fun c member =>
        by rw [first c member, test]; exact Bool.false_ne_true,
        nil_append]

variable {rights : List β}

theorem mem_innerRow {a : α} {c : γ} (member : c ∈ innerRow on pair rights a) :
    ∃ b ∈ rights, c = pair a b := by
  obtain ⟨b, kept, same⟩ := mem_map.mp member
  exact ⟨b, mem_of_mem_filter kept, same.symm⟩

theorem mem_leftRow {a : α} {c : γ} (member : c ∈ leftRow on pair nullRight rights a) :
    (∃ b ∈ rights, c = pair a b) ∨ c = pair a nullRight := by
  unfold leftRow at member
  split at member
  · exact .inl (mem_innerRow member)
  · exact .inr (mem_singleton.mp member)

theorem join_filter_left (leftFirst : kind.LeftFirst) {p : α → Bool} {q : γ → Bool}
    (split : ∀ a ∈ lefts, ∀ b, b ∈ rights ∨ b = nullRight → q (pair a b) = p a) :
    join on pair kind nullLeft nullRight (lefts.filter p) rights
      = (join on pair kind nullLeft nullRight lefts rights).filter q := by
  rcases leftFirst with rfl | rfl
  · refine (filter_flatMap_of_rows fun a left c member => ?_).symm
    obtain ⟨b, right, rfl⟩ := mem_innerRow member
    exact split a left b (.inl right)
  · refine (filter_flatMap_of_rows fun a left c member => ?_).symm
    rcases mem_leftRow member with ⟨b, right, rfl⟩ | rfl
    · exact split a left b (.inl right)
    · exact split a left nullRight (.inr rfl)

theorem join_filter_right (leftFirst : kind.LeftFirst) {on' : α → β → Bool} {p : β → Bool}
    (both : ∀ a ∈ lefts, ∀ b ∈ rights, on' a b = (p b && on a b)) :
    join on pair kind nullLeft nullRight lefts (rights.filter p)
      = join on' pair kind nullLeft nullRight lefts rights := by
  have filters : ∀ a ∈ lefts, (rights.filter p).filter (on a) = rights.filter (on' a) := by
    intro a left
    rw [filter_filter]
    exact filter_congr fun b right => ((both a left b right).trans (Bool.and_comm _ _)).symm
  have rows : ∀ a ∈ lefts, innerRow on pair (rights.filter p) a = innerRow on' pair rights a := by
    intro a left
    unfold innerRow
    rw [filters a left]
  have any : ∀ a ∈ lefts, (rights.filter p).any (on a) = rights.any (on' a) := by
    intro a left
    rw [Bool.eq_iff_iff, any_eq_true, any_eq_true]
    constructor
    · rintro ⟨b, member, held⟩
      have member' : b ∈ rights.filter (on' a) := filters a left ▸ mem_filter.mpr ⟨member, held⟩
      exact ⟨b, mem_filter.mp member'⟩
    · rintro ⟨b, member, held⟩
      have member' : b ∈ (rights.filter p).filter (on a) :=
        (filters a left).symm ▸ mem_filter.mpr ⟨member, held⟩
      exact ⟨b, mem_filter.mp member'⟩
  rcases leftFirst with rfl | rfl
  · exact flatMap_congr rows
  · refine flatMap_congr fun a left => ?_
    unfold leftRow
    rw [any a left, rows a left]

theorem forall_mem_join {P : γ → Prop}
    (pairs : ∀ a, a ∈ lefts ∨ a = nullLeft → ∀ b, b ∈ rights ∨ b = nullRight → P (pair a b)) {c : γ}
    (member : c ∈ join on pair kind nullLeft nullRight lefts rights) : P c := by
  have fromLeft : c ∈ lefts.flatMap (leftRow on pair nullRight rights) → P c := by
    intro member
    obtain ⟨a, left, row⟩ := mem_flatMap.mp member
    rcases mem_leftRow row with ⟨b, right, rfl⟩ | rfl
    · exact pairs a (.inl left) b (.inl right)
    · exact pairs a (.inl left) nullRight (.inr rfl)
  cases kind with
  | inner =>
    obtain ⟨a, left, row⟩ := mem_flatMap.mp member
    obtain ⟨b, right, rfl⟩ := mem_innerRow row
    exact pairs a (.inl left) b (.inl right)
  | left => exact fromLeft member
  | right =>
    obtain ⟨b, right, row⟩ := mem_flatMap.mp member
    unfold rightRow at row
    split at row
    · obtain ⟨a, kept, rfl⟩ := mem_map.mp row
      exact pairs a (.inl (mem_of_mem_filter kept)) b (.inl right)
    · rw [mem_singleton.mp row]
      exact pairs nullLeft (.inr rfl) b (.inl right)
  | full =>
    rcases mem_append.mp member with left | alone
    · exact fromLeft left
    · obtain ⟨b, kept, rfl⟩ := mem_map.mp alone
      exact pairs nullLeft (.inr rfl) b (.inl (mem_of_mem_filter kept))

theorem map_join {α' β' γ' : Type} {on' : α' → β' → Bool} {pair' : α' → β' → γ'} (f : α → α')
    (g : β → β')
    (h : γ → γ') (pairs : ∀ a b, pair' (f a) (g b) = h (pair a b))
    (same : ∀ a ∈ lefts, ∀ b ∈ rights, on' (f a) (g b) = on a b) :
    join on' pair' kind (f nullLeft) (g nullRight) (lefts.map f) (rights.map g)
      = (join on pair kind nullLeft nullRight lefts rights).map h := by
  have rowsOf : ∀ a ∈ lefts,
      innerRow on' pair' (rights.map g) (f a) = (innerRow on pair rights a).map h := by
    intro a left
    unfold innerRow
    rw [filter_map, map_map, map_map]
    have filters : rights.filter (on' (f a) ∘ g) = rights.filter (on a) :=
      filter_congr fun b right => same a left b right
    rw [filters]
    exact map_congr_left fun b _ => pairs a b
  have anyRight : ∀ a ∈ lefts, (rights.map g).any (on' (f a)) = rights.any (on a) := by
    intro a left
    rw [any_map]
    exact any_congr_of_mem fun b right => same a left b right
  have anyLeft : ∀ b ∈ rights, ((lefts.map f).any fun a => on' a (g b)) = lefts.any fun a =>
      on a b := by
    intro b right
    rw [any_map]
    exact any_congr_of_mem fun a left => same a left b right
  have leftRows : ∀ a ∈ lefts, leftRow on' pair' (g nullRight) (rights.map g) (f a)
      = (leftRow on pair nullRight rights a).map h := by
    intro a left
    unfold leftRow
    rw [anyRight a left]
    split
    · exact rowsOf a left
    · rw [pairs]
      rfl
  have lefts' : ∀ {row : α → List γ} {row' : α' → List γ'},
    (∀ a ∈ lefts, row' (f a) = (row a).map h) →
      (lefts.map f).flatMap row' = (lefts.flatMap row).map h := by
    intro row row' rows
    rw [flatMap_map, map_flatMap]
    exact flatMap_congr rows
  cases kind with
  | inner => exact lefts' rowsOf
  | left => exact lefts' leftRows
  | right =>
    show (rights.map g).flatMap _ = (rights.flatMap _).map h
    rw [flatMap_map, map_flatMap]
    refine flatMap_congr fun b right => ?_
    unfold rightRow
    rw [anyLeft b right]
    split
    · rw [filter_map, map_map, map_map]
      have filters : lefts.filter ((fun a => on' a (g b)) ∘ f) = lefts.filter fun a => on a b :=
        filter_congr fun a left => same a left b right
      rw [filters]
      exact map_congr_left fun a _ => pairs a b
    · rw [pairs]
      rfl
  | full =>
    show _ ++ _ = List.map h (_ ++ _)
    rw [map_append, lefts' leftRows]
    congr 1
    unfold unmatched
    rw [filter_map, map_map, map_map]
    have filters : rights.filter ((fun b => !(lefts.map f).any fun a => on' a b) ∘ g)
        = rights.filter fun b => !lefts.any fun a => on a b :=
      filter_congr fun b right => congrArg (!·) (anyLeft b right)
    rw [filters]
    exact map_congr_left fun b _ => pairs nullLeft b

end Laws

end Liteset.Lib.Joins
