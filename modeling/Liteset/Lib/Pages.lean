import Mathlib.Data.List.Sort
import Mathlib.Order.Defs.LinearOrder

/-!
# Ordered pages of a list

`ORDER BY`, `LIMIT` and `OFFSET` of SQL over arbitrary rows.  The order is lexicographic
over a list of keys, each ascending or descending, and the sort is stable.
-/

set_option autoImplicit false

namespace Liteset.Lib.Pages

open List

variable {α κ : Type} [LinearOrder κ]

/-- The keys of an `ORDER BY`, each with whether it ascends. -/
abbrev OrderBy (α κ : Type) := List ((α → κ) × Bool)

def before : OrderBy α κ → α → α → Bool
  | [], _, _ => true
  | (key, ascending) :: rest, a, b =>
    if key a = key b then before rest a b
    else if ascending then key a < key b else key b < key a

structure Page (α κ : Type) where
  orderBy : OrderBy α κ := []
  limit : Nat := 0
  offset : Nat := 0

def sorted (orderBy : OrderBy α κ) (rows : List α) : List α :=
  rows.insertionSort fun a b => before orderBy a b = true

def cut (limit offset : Nat) (rows : List α) : List α :=
  if limit = 0 then rows.drop offset else (rows.drop offset).take limit

def Page.of (page : Page α κ) (rows : List α) : List α :=
  cut page.limit page.offset (sorted page.orderBy rows)

theorem before_total (orderBy : OrderBy α κ) (a b : α) : before orderBy a b = true ∨
    before orderBy b a = true := by
  induction orderBy with
  | nil => exact Or.inl rfl
  | cons key rest ih =>
    obtain ⟨key, ascending⟩ := key
    by_cases same : key a = key b
    · simpa [before, same] using ih
    · simp only [before, if_neg same, if_neg (Ne.symm same)]
      cases ascending with
      | true => simpa using lt_or_gt_of_ne same
      | false => simpa using (lt_or_gt_of_ne same).symm

theorem before_trans (orderBy : OrderBy α κ) (a b c : α) (first : before orderBy a b = true)
    (second : before orderBy b c = true) : before orderBy a c = true := by
  induction orderBy with
  | nil => rfl
  | cons key rest ih =>
    obtain ⟨key, ascending⟩ := key
    by_cases ab : key a = key b
    · by_cases bc : key b = key c
      · simp only [before, ab, bc, if_true] at first second ⊢
        exact ih first second
      · simp only [before, ab, bc, if_false] at second ⊢
        exact second
    · by_cases bc : key b = key c
      · simp only [before, ab, ← bc, if_false] at first ⊢
        exact first
      · cases ascending with
        | true =>
          simp only [before, ab, bc, if_false, if_true, decide_eq_true_eq] at first second
          have less := first.trans second
          simp [before, less.ne, less]
        | false =>
          simp only [before, ab, bc, if_false, Bool.false_eq_true,
            decide_eq_true_eq] at first second
          have less := second.trans first
          simp [before, less.ne', less]

instance (orderBy : OrderBy α κ) : Std.Total fun a b : α => before orderBy a b = true :=
  ⟨before_total orderBy⟩

instance (orderBy : OrderBy α κ) : IsTrans α fun a b : α => before orderBy a b = true :=
  ⟨before_trans orderBy⟩

theorem sorted_perm (orderBy : OrderBy α κ) (rows : List α) : (sorted orderBy rows).Perm rows :=
  perm_insertionSort _ rows

theorem sorted_eq_self_iff (orderBy : OrderBy α κ) (rows : List α) :
    sorted orderBy rows = rows ↔ rows.Pairwise fun a b => before orderBy a b = true := by
  constructor
  · intro same
    rw [← same]
    exact pairwise_insertionSort _ rows
  · exact List.Pairwise.insertionSort_eq

theorem cut_length (limit offset : Nat) (rows : List α) :
    (cut limit offset rows).length =
      if limit = 0 then rows.length - offset else min limit (rows.length - offset) := by
  unfold cut
  split <;> simp

theorem of_eq_nil_iff (page : Page α κ) (rows : List α) : page.of rows = [] ↔
    rows.length ≤ page.offset := by
  rw [← length_eq_zero_iff, Page.of, cut_length, (sorted_perm page.orderBy rows).length_eq]
  split <;> omega

theorem mem_of_page (page : Page α κ) (rows : List α) (row : α) (member : row ∈ page.of rows) :
    row ∈ rows := by
  refine (sorted_perm page.orderBy rows).mem_iff.mp ?_
  unfold Page.of cut at member
  split at member
  · exact mem_of_mem_drop member
  · exact mem_of_mem_drop (mem_of_mem_take member)

theorem of_eq_self (page : Page α κ) (rows : List α)
    (ordered : rows.Pairwise fun a b => before page.orderBy a b = true)
    (start : page.offset = 0) (fits : page.limit = 0 ∨ rows.length ≤ page.limit) :
    page.of rows = rows := by
  rw [Page.of, (sorted_eq_self_iff page.orderBy rows).mpr ordered, cut, start, drop_zero]
  rcases fits with none_ | fits
  · rw [if_pos none_]
  · split
    · rfl
    · exact take_of_length_le fits

theorem of_of_length_eq (page : Page α κ) (rows : List α) (some_ : rows ≠ [])
    (whole : (page.of rows).length = rows.length) :
    page.offset = 0 ∧ (page.limit = 0 ∨ rows.length ≤ page.limit) ∧
    page.of rows = sorted page.orderBy rows := by
  have positive := length_pos_of_ne_nil some_
  have size := (sorted_perm page.orderBy rows).length_eq
  have bounds : page.offset = 0 ∧ (page.limit = 0 ∨ rows.length ≤ page.limit) := by
    rw [Page.of, cut_length, size] at whole
    split at whole <;> omega
  refine ⟨bounds.1, bounds.2, ?_⟩
  rw [Page.of, cut, bounds.1, drop_zero]
  rcases bounds.2 with none_ | fits
  · rw [if_pos none_]
  · split
    · rfl
    · exact take_of_length_le (size ▸ fits)

def ranksBefore (key : α → κ) (ascending : Bool) (a b : α) : Bool :=
  if ascending then key a < key b else key b < key a

theorem not_ranksBefore_self (key : α → κ) (ascending : Bool) (a : α) :
    ranksBefore key ascending a a = false := by
  cases ascending <;> simp [ranksBefore]

theorem not_ranksBefore_of_ranksBefore (key : α → κ) (ascending : Bool) (a b : α)
    (less : ranksBefore key ascending a b = true) : ranksBefore key ascending b a = false := by
  cases ascending with
  | true =>
    simp only [ranksBefore, if_true, decide_eq_true_eq, decide_eq_false_iff_not, not_lt] at less ⊢
    exact less.le
  | false =>
    simp only [ranksBefore, Bool.false_eq_true, if_false, decide_eq_true_eq,
      decide_eq_false_iff_not, not_lt] at less ⊢
    exact less.le

theorem mem_take_of_strict (key : α → κ) (ascending : Bool) (list : List α) (n : Nat)
    (strict : list.Pairwise fun a b => ranksBefore key ascending a b = true) (row : α) :
    row ∈ list.take n ↔
    row ∈ list ∧ (list.filter fun other => ranksBefore key ascending other row).length < n := by
  induction list generalizing n with
  | nil => simp
  | cons first rest ih =>
    obtain ⟨least, strict⟩ := pairwise_cons.mp strict
    cases n with
    | zero => simp
    | succ n =>
      have tail := ih n strict
      by_cases here : row = first
      · subst here
        have none_ : rest.filter (fun other => ranksBefore key ascending other row) = [] :=
          filter_eq_nil_iff.mpr fun other member => by
            rw [not_ranksBefore_of_ranksBefore key ascending row other (least other member)]
            exact Bool.false_ne_true
        rw [filter_cons_of_neg (by rw [not_ranksBefore_self]; exact Bool.false_ne_true), none_]
        simp
      · rw [take_succ_cons, mem_cons, mem_cons, or_iff_right here, or_iff_right here, tail]
        refine and_congr_right fun member => ?_
        rw [filter_cons, if_pos (least row member), length_cons]
        omega

/-- With one key that tells the rows apart, a row is among the first `n` when fewer than `n`
come before it. -/
theorem mem_take_sorted (key : α → κ) (ascending : Bool) (rows : List α) (n : Nat)
    (apart : rows.Pairwise fun a b => key a ≠ key b) (row : α) :
    row ∈ (sorted [(key, ascending)] rows).take n ↔
      row ∈ rows ∧ (rows.filter fun other => ranksBefore key ascending other row).length < n := by
  have perm := sorted_perm [(key, ascending)] rows
  have strict : (sorted [(key, ascending)] rows).Pairwise fun a b =>
      ranksBefore key ascending a b = true := by
    have distinct : (sorted [(key, ascending)] rows).Pairwise fun a b => key a ≠ key b :=
      (perm.pairwise_iff fun differ => Ne.symm differ).mpr apart
    refine (List.Pairwise.and (pairwise_insertionSort _ rows) distinct).imp fun pair => ?_
    obtain ⟨ordered, differ⟩ := pair
    rw [before, if_neg differ] at ordered
    rw [ranksBefore]
    cases ascending with
    | true => simpa using ordered
    | false => simpa using ordered
  rw [← perm.mem_iff, ← (perm.filter _).length_eq]
  exact mem_take_of_strict key ascending _ n strict row

end Liteset.Lib.Pages
