import Liteset.Security.RowRules
import Mathlib.Data.Finset.Sort
import Mathlib.Data.List.Forall2
import Mathlib.Data.String.Basic

/-!
# Row-level security in cache keys

`get_rls_cache_key` of the security manager lists the rules of a user as texts, and
`collect_rls_predicates_for_sql` the predicates of the tables of a statement.  This
module says for which users two of these lists are the same.
-/

set_option autoImplicit false

namespace Liteset.Security.RowRules

open Lib
open Access

/-- `get_rls_sorted`; the ids are different. -/
def getRlsSorted (settings : Settings) (directory : Directory) (rules : Rules) (tableId : Nat)
    (user : Option RowUser) : List RowLevelSecurityFilter :=
  (getRlsFilters settings directory rules tableId user).insertionSort fun a b => a.id ≤ b.id

def getGuestRlsFiltersStr (settings : Settings) (tableId : Nat) (user : Option RowUser) :
    List String :=
  (getGuestRlsFilters settings tableId user).map GuestRule.clause

/-- `get_rls_cache_key`, for a datasource with or without `is_rls_supported`. -/
def getRlsCacheKey (settings : Settings) (directory : Directory) (rules : Rules) (tableId : Nat)
    (isRlsSupported : Bool) (user : Option RowUser) : List String :=
  getGuestRlsFiltersStr settings tableId user
    ++ if isRlsSupported then
      (getRlsSorted settings directory rules tableId user).map fun f =>
        f.clause ++ "-" ++ f.groupKey.getD ""
    else []

/-- What applies to a user: the clause of a guest rule, or clause and group key (an empty
one groups as little as none) of a
rule. -/
inductive Applied where
  | guest (clause : String)
  | rule (clause groupKey : String)
  deriving DecidableEq

def applied (settings : Settings) (directory : Directory) (rules : Rules) (tableId : Nat)
    (isRlsSupported : Bool) (user : Option RowUser) : List Applied :=
  (getGuestRlsFilters settings tableId user).map (fun rule => .guest rule.clause)
    ++ if isRlsSupported then
      (getRlsSorted settings directory rules tableId user).map fun f =>
        .rule f.clause (f.groupKey.getD "")
    else []

def Shifted (clause groupKey longer shorter : String) : Prop :=
  ∃ moved, longer = clause ++ "-" ++ moved ∧ groupKey = moved ++ "-" ++ shorter

def Alike : Applied → Applied → Prop
  | .guest clause, .guest other => clause = other
  | .guest clause, .rule other groupKey => clause = other ++ "-" ++ groupKey
  | .rule clause groupKey, .guest other => clause ++ "-" ++ groupKey = other
  | .rule clause groupKey, .rule other otherKey =>
    clause = other ∧ groupKey = otherKey ∨ Shifted clause groupKey other otherKey
      ∨ Shifted other otherKey clause groupKey

def render : Applied → String
  | .guest clause => clause
  | .rule clause groupKey => clause ++ "-" ++ groupKey

theorem append_dash_iff (clause groupKey other otherKey : List Char) :
    clause ++ '-' :: groupKey = other ++ '-' :: otherKey ↔
      clause = other ∧ groupKey = otherKey
        ∨ (∃ moved, other = clause ++ '-' :: moved ∧ groupKey = moved ++ '-' :: otherKey)
        ∨ ∃ moved, clause = other ++ '-' :: moved ∧ otherKey = moved ++ '-' :: groupKey := by
  rw [List.append_eq_append_iff]
  constructor
  · rintro (⟨between, longer, tail⟩ | ⟨between, longer, tail⟩)
    · cases between with
      | nil =>
        obtain ⟨_, same⟩ := List.cons.inj tail
        exact .inl ⟨by simpa using longer.symm, same⟩
      | cons dash moved =>
        obtain ⟨rfl, rest⟩ := List.cons.inj tail
        exact .inr (.inl ⟨moved, longer, rest⟩)
    · cases between with
      | nil =>
        obtain ⟨_, same⟩ := List.cons.inj tail
        exact .inl ⟨by simpa using longer, same.symm⟩
      | cons dash moved =>
        obtain ⟨rfl, rest⟩ := List.cons.inj tail
        exact .inr (.inr ⟨moved, longer, rest⟩)
  · rintro (⟨rfl, rfl⟩ | ⟨moved, rfl, rfl⟩ | ⟨moved, rfl, rfl⟩)
    · exact .inl ⟨[], by simp, rfl⟩
    · exact .inl ⟨'-' :: moved, rfl, rfl⟩
    · exact .inr ⟨'-' :: moved, rfl, rfl⟩

theorem toList_dash (clause groupKey : String) :
    (clause ++ "-" ++ groupKey).toList = clause.toList ++ '-' :: groupKey.toList := by
  simp

theorem shifted_iff (clause groupKey longer shorter : String) :
    Shifted clause groupKey longer shorter ↔ ∃ moved : List Char,
      longer.toList = clause.toList ++ '-' :: moved ∧
      groupKey.toList = moved ++ '-' :: shorter.toList := by
  constructor
  · rintro ⟨moved, rfl, rfl⟩
    exact ⟨moved.toList, toList_dash _ _, toList_dash _ _⟩
  · rintro ⟨moved, longer, tail⟩
    refine ⟨String.ofList moved, ?_, ?_⟩
    · rw [← String.toList_inj, toList_dash, longer, String.toList_ofList]
    · rw [← String.toList_inj, toList_dash, tail, String.toList_ofList]

theorem render_eq_iff (a b : Applied) : render a = render b ↔ Alike a b := by
  cases a with
  | guest clause => cases b <;> exact Iff.rfl
  | rule clause groupKey =>
    cases b with
    | guest other => exact Iff.rfl
    | rule other otherKey =>
      simp only [render, Alike, shifted_iff]
      rw [← String.toList_inj, toList_dash, toList_dash, append_dash_iff, String.toList_inj,
        String.toList_inj]

theorem getRlsCacheKey_eq (settings : Settings) (directory : Directory) (rules : Rules)
    (tableId : Nat) (isRlsSupported : Bool) (user : Option RowUser) :
    getRlsCacheKey settings directory rules tableId isRlsSupported user =
      (applied settings directory rules tableId isRlsSupported user).map render := by
  cases isRlsSupported <;>
    simp [getRlsCacheKey, applied, getGuestRlsFiltersStr, render, Function.comp_def]

theorem map_render_eq_iff (first second : List Applied) :
    first.map render = second.map render ↔ List.Forall₂ Alike first second := by
  rw [← List.forall₂_eq_eq_eq, List.forall₂_map_left_iff, List.forall₂_map_right_iff]
  simp only [render_eq_iff]

section Statement
variable {Table : Type} (readable : Bool) (tables : List Table)

/-- `collect_rls_predicates_for_sql`: whether the SQL and the default catalog can be
read, the tables of the statements, and `get_predicates_for_table` for one user, `none`
where it raises. -/
def collectRlsPredicatesForSql (getPredicatesForTable : Table → Option (List String)) :
    List String :=
  if readable then
    if tables.any fun t => getPredicatesForTable t = none then []
    else (tables.flatMap fun t => (getPredicatesForTable t).getD []).toFinset.sort (· ≤ ·)
  else []

/-- The predicate counts for the user. -/
def Counts (getPredicatesForTable : Table → Option (List String)) (predicate : String) : Prop :=
  readable = true ∧ (∀ t ∈ tables, getPredicatesForTable t ≠ none)
    ∧ ∃ t ∈ tables, ∃ predicates, getPredicatesForTable t = some predicates ∧ predicate ∈ predicates

variable {readable tables}

theorem mem_collectRlsPredicatesForSql {lookup : Table → Option (List String)}
    {predicate : String} :
    predicate ∈ collectRlsPredicatesForSql readable tables lookup ↔
      Counts readable tables lookup predicate := by
  unfold collectRlsPredicatesForSql Counts
  cases readable with
  | false => simp
  | true =>
    by_cases raises : ∃ t ∈ tables, lookup t = none
    · have some : (tables.any fun t => lookup t = none) = true := by simpa using raises
      obtain ⟨t, member, absent⟩ := raises
      rw [if_pos rfl, if_pos some]
      exact iff_of_false List.not_mem_nil fun counts => counts.2.1 t member absent
    · have found : ∀ t ∈ tables, lookup t ≠ none :=
        fun t member absent => raises ⟨t, member, absent⟩
      have none : ¬(tables.any fun t => lookup t = none) = true := by simpa using found
      rw [if_pos rfl, if_neg none, Finset.mem_sort, List.mem_toFinset, List.mem_flatMap]
      refine Iff.trans ?_ (and_iff_right rfl).symm
      refine Iff.trans ?_ (and_iff_right found).symm
      refine exists_congr fun t => and_congr_right fun member => ?_
      obtain ⟨predicates, has⟩ := Option.ne_none_iff_exists'.mp (found t member)
      simp [has]

theorem collect_eq_iff {first second : Table → Option (List String)} :
    collectRlsPredicatesForSql readable tables first
        = collectRlsPredicatesForSql readable tables second ↔
      ∀ predicate, Counts readable tables first predicate ↔
      Counts readable tables second predicate := by
  constructor
  · intro same predicate
    rw [← mem_collectRlsPredicatesForSql, ← mem_collectRlsPredicatesForSql, same]
  · intro same
    have sorted : ∀ lookup : Table → Option (List String), ∃ texts : Finset String,
        collectRlsPredicatesForSql readable tables lookup = texts.sort (· ≤ ·) := by
      intro lookup
      unfold collectRlsPredicatesForSql
      split
      · split
        · exact ⟨∅, (Finset.sort_empty _).symm⟩
        · exact ⟨_, rfl⟩
      · exact ⟨∅, (Finset.sort_empty _).symm⟩
    obtain ⟨texts, isFirst⟩ := sorted first
    obtain ⟨others, isSecond⟩ := sorted second
    rw [isFirst, isSecond]
    refine congrArg (Finset.sort · (· ≤ ·)) (Finset.ext fun predicate => ?_)
    rw [← Finset.mem_sort (· ≤ ·), ← isFirst, mem_collectRlsPredicatesForSql, same,
      ← mem_collectRlsPredicatesForSql, isSecond, Finset.mem_sort]

end Statement

/-- The key of a dataset separates two users exactly when what applies to them is the
same, or differs by more than where a dash separates; the predicates of a statement do
exactly when they are the same table by table, or one counts for one user only. -/
theorem keys_separate_iff (settings : Settings) (directory : Directory) (rules : Rules)
    (tableId : Nat) (isRlsSupported : Bool) (first second : Option RowUser) {Table : Type}
    (readable : Bool) (tables : List Table) (lookup other : Table → Option (List String)) :
    ((applied settings directory rules tableId isRlsSupported first
          ≠ applied settings directory rules tableId isRlsSupported second →
        getRlsCacheKey settings directory rules tableId isRlsSupported first
          ≠ getRlsCacheKey settings directory rules tableId isRlsSupported second)
      ↔ applied settings directory rules tableId isRlsSupported first
          = applied settings directory rules tableId isRlsSupported second
        ∨ ¬List.Forall₂ Alike (applied settings directory rules tableId isRlsSupported first)
          (applied settings directory rules tableId isRlsSupported second))
    ∧ (((∃ t ∈ tables, lookup t ≠ other t) →
        collectRlsPredicatesForSql readable tables lookup
          ≠ collectRlsPredicatesForSql readable tables other)
      ↔ (∀ t ∈ tables, lookup t = other t)
        ∨ ∃ predicate, ¬(Counts readable tables lookup predicate
          ↔ Counts readable tables other predicate)) := by
  constructor
  · rw [getRlsCacheKey_eq, getRlsCacheKey_eq, Ne, Ne, map_render_eq_iff]
    rw [imp_iff_not_or, not_not]
  · rw [Ne, collect_eq_iff, not_forall, imp_iff_not_or]
    simp only [not_exists, not_and, not_not, ne_eq]

def dashedRules : Rules where
  filters := [⟨1, .regular, none, "a-b"⟩, ⟨2, .regular, some "b-", "a"⟩]
  filterRoles := [(1, 1), (2, 2)]
  filterTables := [(1, 3), (2, 3)]

def twoRoles : Directory where
  roles := [⟨1, "Alpha"⟩, ⟨2, "Gamma"⟩]
  userRoles := [(1, 1), (2, 2)]
  groupRoleRef := by decide
  userRoleRef := by decide

theorem keys_collide :
    (¬∀ settings directory rules tableId isRlsSupported first second,
      applied settings directory rules tableId isRlsSupported first
          ≠ applied settings directory rules tableId isRlsSupported second →
        getRlsCacheKey settings directory rules tableId isRlsSupported first
          ≠ getRlsCacheKey settings directory rules tableId isRlsSupported second)
    ∧ ¬∀ (tables : List Nat) (lookup other : Nat → Option (List String)),
      (∃ t ∈ tables, lookup t ≠ other t) →
        collectRlsPredicatesForSql true tables lookup ≠
          collectRlsPredicatesForSql true tables other := by
  constructor
  · intro separates
    exact separates {} twoRoles dashedRules 3 true
      (some { id := some 1, roles := [⟨1, "Alpha"⟩] })
      (some { id := some 2, roles := [⟨2, "Gamma"⟩] })
      (by decide) (by decide)
  · intro separates
    refine separates [1, 2] (fun t => some (if t = 1 then ["p"] else []))
      (fun t => some (if t = 2 then ["p"] else [])) ⟨1, by decide, by decide⟩ ?_
    rw [collect_eq_iff]
    intro predicate
    simp [Counts]

end Liteset.Security.RowRules
