import Mathlib.Data.List.Nodup
import Liteset.Lib.Forest

/-!
# Paths from a root

The path of a node lists what lies above it, from the root down.  Below a root that
has no parent, and with one parent each, the path of a node is the list of its
ancestors.
-/

set_option autoImplicit false

namespace Liteset.Lib.Paths

open Forest (Under SingleParent)

variable {α : Type} {edge : α → α → Prop} {root p q k r : α} {above below : List α}

inductive Path (edge : α → α → Prop) (root : α) : List α → α → Prop
  | root : Path edge root [] root
  | step {above : List α} {p k : α} : Path edge root above p → edge p k →
      Path edge root (above ++ [p]) k

theorem Path.under (path : Path edge root above k) : Under edge root k := by
  induction path with
  | root => exact .refl
  | step _ last ih => exact ih.tail last

theorem Path.eq_root (path : Path edge root [] k) : k = root := by
  generalize same : ([] : List α) = above at path
  cases path with
  | root => rfl
  | step _ _ => exact (List.append_ne_nil_of_right_ne_nil _ (List.cons_ne_nil _ _) same.symm).elim

theorem Path.last_edge (path : Path edge root (above ++ [p]) k) : edge p k := by
  generalize same : above ++ [p] = list at path
  cases path with
  | root => exact absurd same (List.append_ne_nil_of_right_ne_nil _ (List.cons_ne_nil _ _))
  | step _ last =>
    obtain ⟨_, isLast⟩ := List.append_inj' same rfl
    cases isLast
    exact last

theorem exists_path (reached : Under edge root k) : ∃ above, Path edge root above k := by
  induction reached with
  | refl => exact ⟨[], .root⟩
  | tail _ last ih =>
    obtain ⟨above, path⟩ := ih
    exact ⟨_, path.step last⟩

theorem Path.mono {after : α → α → Prop} (kept : ∀ i j, edge i j → after i j)
    (path : Path edge root above k) : Path after root above k := by
  induction path with
  | root => exact .root
  | step _ last ih => exact ih.step (kept _ _ last)

section Tree
variable (single : SingleParent edge) (top : ∀ p, ¬edge p root)
include single top

theorem Path.unique (first : Path edge root above k) : ∀ {below : List α}, Path edge root below k →
    above = below := by
  induction first with
  | root =>
    intro below second
    cases second with
    | root => rfl
    | step _ last => exact (top _ last).elim
  | step _ last ih =>
    intro below second
    cases second with
    | root => exact (top _ last).elim
    | step path other =>
      have same := single _ _ _ other last
      subst same
      rw [ih path]

theorem Path.of_edge (path : Path edge root above p) (last : edge p k) {below : List α}
    (other : Path edge root below k) : below = above ++ [p] :=
  Path.unique single top other (path.step last)

theorem Path.mem_iff (path : Path edge root above k) :
    r ∈ above ↔ Under edge root r ∧ Relation.TransGen edge r k := by
  induction path with
  | root =>
    refine ⟨fun member => (List.not_mem_nil member).elim, fun way => ?_⟩
    obtain ⟨p, _, last⟩ := Relation.TransGen.tail'_iff.mp way.2
    exact (top p last).elim
  | @step above p k path last ih =>
    rw [List.mem_append, List.mem_singleton]
    constructor
    · rintro (higher | rfl)
      · exact ⟨(ih.mp higher).1, (ih.mp higher).2.tail last⟩
      · exact ⟨path.under, .single last⟩
    · rintro ⟨reached, way⟩
      obtain ⟨q, up, other⟩ := Relation.TransGen.tail'_iff.mp way
      have same := single _ _ _ other last
      subst same
      rcases Relation.reflTransGen_iff_eq_or_transGen.mp up with rfl | higher
      · exact Or.inr rfl
      · exact Or.inl (ih.mpr ⟨reached, higher⟩)

theorem Path.head_mem (path : Path edge root above k) (below : k ≠ root) : root ∈ above := by
  refine (Path.mem_iff single top path).mpr ⟨.refl, ?_⟩
  rcases Relation.reflTransGen_iff_eq_or_transGen.mp path.under with same | way
  · exact (below same).elim
  · exact way

theorem Path.nodup (path : Path edge root above k) : above.Nodup := by
  induction path with
  | root => exact List.nodup_nil
  | @step above p k path last ih =>
    rw [List.nodup_append]
    refine ⟨ih, List.nodup_singleton p, ?_⟩
    rintro a higher b lower rfl
    rw [List.mem_singleton] at lower
    subst lower
    have cycle := ((Path.mem_iff single top path).mp higher).2
    exact Forest.not_cyclic_of_under single top path.under cycle

end Tree

section EdgeList
variable {edges : List (α × α)} {aboveOf : α → List α}

/-- The edges of a tree as a list: no node is entered twice and the root never, and
`aboveOf` grows by the parent along each edge. -/
structure EdgeList (edge : α → α → Prop) (root : α) (edges : List (α × α)) (aboveOf : α → List α) :
    Prop where
  mem_iff : ∀ p k, (p, k) ∈ edges ↔ edge p k
  distinct : (edges.map Prod.snd).Nodup
  top : root ∉ edges.map Prod.snd
  held : ∀ e ∈ edges, e.1 = root ∨ e.1 ∈ edges.map Prod.snd
  start : aboveOf root = []
  grows : ∀ e ∈ edges, aboveOf e.2 = aboveOf e.1 ++ [e.1]

namespace EdgeList
variable (list : EdgeList edge root edges aboveOf)
include list

theorem entered_iff : k ∈ edges.map Prod.snd ↔ ∃ p, edge p k := by
  simp [← list.mem_iff]

theorem single : SingleParent edge := by
  intro p q k first second
  have same := List.inj_on_of_nodup_map list.distinct ((list.mem_iff p k).mpr first)
    ((list.mem_iff q k).mpr second) rfl
  exact congrArg Prod.fst same

theorem not_edge_root (p : α) : ¬edge p root :=
  fun last => list.top (list.entered_iff.mpr ⟨p, last⟩)

theorem aboveOf_of_edge (last : edge p k) : aboveOf k = aboveOf p ++ [p] :=
  list.grows (p, k) ((list.mem_iff p k).mpr last)

/-- What lies above gets shorter from a node to its parent, so the root is met. -/
theorem under_of_length (n : Nat) (long : (aboveOf k).length = n)
    (held : k = root ∨ k ∈ edges.map Prod.snd) :
    Under edge root k := by
  induction n generalizing k with
  | zero =>
    rcases held with rfl | entered
    · exact .refl
    · obtain ⟨p, last⟩ := list.entered_iff.mp entered
      rw [list.aboveOf_of_edge last, List.length_append, List.length_singleton] at long
      cases long
  | succ n ih =>
    rcases held with rfl | entered
    · exact .refl
    · obtain ⟨p, last⟩ := list.entered_iff.mp entered
      rw [list.aboveOf_of_edge last, List.length_append, List.length_singleton] at long
      exact (ih (Nat.succ.inj long) (list.held _ ((list.mem_iff p k).mpr last))).tail last

theorem under_iff : Under edge root k ↔ k = root ∨ k ∈ edges.map Prod.snd := by
  refine ⟨fun reached => ?_, list.under_of_length _ rfl⟩
  rcases Forest.under_cases reached with same | ⟨p, _, last⟩
  · exact .inl same.symm
  · exact .inr (list.entered_iff.mpr ⟨p, last⟩)

theorem above_eq (path : Path edge root above k) : above = aboveOf k := by
  induction path with
  | root => exact list.start.symm
  | step _ last ih => rw [list.aboveOf_of_edge last, ih]

theorem path (reached : Under edge root k) : Path edge root (aboveOf k) k := by
  obtain ⟨above, path⟩ := exists_path reached
  rwa [list.above_eq path] at path

end EdgeList

end EdgeList

end Liteset.Lib.Paths
