import Mathlib.Data.List.Basic

/-!
# Labelled trees with any number of children

The nodes of a tree, those below its root, and the fact that a tree never
occurs below itself.  Equality of trees is decided by structural recursion, so
that searches over nodes can be evaluated.
-/

set_option autoImplicit false

namespace Liteset.Lib

inductive Tree (κ : Type) where
  | node (label : κ) (args : List (Tree κ))

namespace Tree

variable {κ : Type}

def label : Tree κ → κ
  | node label _ => label

mutual
def nodes : Tree κ → List (Tree κ)
  | node label args => node label args :: nodesOf args

def nodesOf : List (Tree κ) → List (Tree κ)
  | [] => []
  | t :: rest => nodes t ++ nodesOf rest
end

def inner : Tree κ → List (Tree κ)
  | node _ args => nodesOf args

theorem nodes_eq (t : Tree κ) : t.nodes = t :: t.inner := by
  cases t with
  | node label args => rw [nodes, inner]

theorem mem_nodes_of_mem_inner {t u : Tree κ} (member : u ∈ t.inner) : u ∈ t.nodes := by
  rw [nodes_eq]
  exact List.mem_cons_of_mem _ member

section Equality
variable [DecidableEq κ]

mutual
def decEq : (a b : Tree κ) → Decidable (a = b)
  | node l as, node m bs =>
    if sameLabel : l = m then
      match decEqList as bs with
      | isTrue same => isTrue (by rw [sameLabel, same])
      | isFalse different => isFalse fun same => different (node.inj same).2
    else isFalse fun same => sameLabel (node.inj same).1

def decEqList : (as bs : List (Tree κ)) → Decidable (as = bs)
  | [], [] => isTrue rfl
  | [], _ :: _ => isFalse fun same => by cases same
  | _ :: _, [] => isFalse fun same => by cases same
  | a :: as, b :: bs =>
    match decEq a b with
    | isFalse different => isFalse fun same => different (List.cons.inj same).1
    | isTrue sameHead =>
      match decEqList as bs with
      | isTrue sameTail => isTrue (by rw [sameHead, sameTail])
      | isFalse different => isFalse fun same => different (List.cons.inj same).2
end

instance : DecidableEq (Tree κ) := decEq

end Equality

mutual
theorem sizeOf_le_of_mem_nodes (t u : Tree κ) (member : u ∈ t.nodes) : sizeOf u ≤ sizeOf t := by
  cases t with
  | node label args =>
    rw [nodes] at member
    rcases List.mem_cons.mp member with rfl | inArgs
    · exact Nat.le_refl _
    · have smaller := sizeOf_le_of_mem_nodesOf args u inArgs
      simp only [node.sizeOf_spec]
      omega

theorem sizeOf_le_of_mem_nodesOf (args : List (Tree κ)) (u : Tree κ)
    (member : u ∈ nodesOf args) : sizeOf u ≤ sizeOf args := by
  cases args with
  | nil =>
    rw [nodesOf] at member
    cases member
  | cons t rest =>
    rw [nodesOf] at member
    rcases List.mem_append.mp member with inHead | inRest
    · have smaller := sizeOf_le_of_mem_nodes t u inHead
      simp only [List.cons.sizeOf_spec]
      omega
    · have smaller := sizeOf_le_of_mem_nodesOf rest u inRest
      simp only [List.cons.sizeOf_spec]
      omega
end

theorem ne_of_mem_inner {t u : Tree κ} (member : u ∈ t.inner) : u ≠ t := by
  cases t with
  | node label args =>
    have smaller := sizeOf_le_of_mem_nodesOf args u member
    intro same
    rw [same] at smaller
    simp only [node.sizeOf_spec] at smaller
    omega

mutual
theorem mem_nodes_trans (t u v : Tree κ) (inT : u ∈ t.nodes) (inU : v ∈ u.nodes) : v ∈ t.nodes := by
  cases t with
  | node label args =>
    rw [nodes] at inT
    rcases List.mem_cons.mp inT with rfl | inArgs
    · exact inU
    · rw [nodes]
      exact List.mem_cons_of_mem _ (mem_nodesOf_trans args u v inArgs inU)

theorem mem_nodesOf_trans (args : List (Tree κ)) (u v : Tree κ) (inArgs : u ∈ nodesOf args)
    (inU : v ∈ u.nodes) : v ∈ nodesOf args := by
  cases args with
  | nil =>
    rw [nodesOf] at inArgs
    cases inArgs
  | cons t rest =>
    rw [nodesOf] at inArgs ⊢
    rcases List.mem_append.mp inArgs with inHead | inRest
    · exact List.mem_append_left _ (mem_nodes_trans t u v inHead inU)
    · exact List.mem_append_right _ (mem_nodesOf_trans rest u v inRest inU)
end

theorem mem_inner_trans {t u v : Tree κ} (inT : u ∈ t.inner) (inU : v ∈ u.nodes) : v ∈ t.inner := by
  cases t with
  | node label args => exact mem_nodesOf_trans args u v inT inU

end Tree

end Liteset.Lib
