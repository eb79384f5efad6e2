import Mathlib.Data.List.Infix
import Std.Data.String.ToNat

/-!
# Permission strings

The view-menu names that `permission_manager.py` derives from a database, a
dataset, a schema or a catalog, and which of these strings can coincide.  Names
are free text, so `].[` may occur inside one: a schema of the database `a].[b`
and a schema of the catalog `b` of the database `a` share their string.
-/

set_option autoImplicit false

namespace Liteset.Security

/-- Python truth of an optional string: neither `None` nor empty. -/
def truthy : Option String → Bool
  | none => false
  | some text => text ≠ ""

/-- `[db_name].(id:N)` -/
def getDatabasePerm (databaseId : Nat) (databaseName : String) : String :=
  "[" ++ databaseName ++ "].(id:" ++ toString databaseId ++ ")"

/-- `[db_name].[table_name](id:N)` -/
def getDatasetPerm (datasetId : Nat) (datasetName databaseName : String) : String :=
  "[" ++ databaseName ++ "].[" ++ datasetName ++ "](id:" ++ toString datasetId ++ ")"

/-- `[db].[schema]`, or `[db].[catalog].[schema]` when the catalog is truthy;
`None` only when the schema is `None`. -/
def getSchemaPerm (databaseName : String) (catalog schema : Option String) : Option String :=
  match schema with
  | none => none
  | some schema =>
    if truthy catalog then
      some ("[" ++ databaseName ++ "].[" ++ catalog.getD "" ++ "].[" ++ schema ++ "]")
    else some ("[" ++ databaseName ++ "].[" ++ schema ++ "]")

/-- `[db_name].[catalog]`, `None` only when the catalog is `None`. -/
def getCatalogPerm (databaseName : String) (catalog : Option String) : Option String :=
  match catalog with
  | none => none
  | some catalog => some ("[" ++ databaseName ++ "].[" ++ catalog ++ "]")

/-- `[name].[inner]`: every schema and catalog name of the database `name`. -/
def bracketed (name inner : String) : String := "[" ++ name ++ "].[" ++ inner ++ "]"

theorem getSchemaPerm_eq_some (name : String) (view : String) :
    (∃ catalog schema, getSchemaPerm name catalog schema = some view) ↔
      ∃ inner, view = bracketed name inner := by
  constructor
  · rintro ⟨catalog, schema, built⟩
    cases schema with
    | none => simp [getSchemaPerm] at built
    | some schema =>
      simp only [getSchemaPerm] at built
      split at built
      · exact ⟨catalog.getD "" ++ "].[" ++ schema, by
          rw [← Option.some.inj built]; simp [bracketed, String.append_assoc]⟩
      · exact ⟨schema, (Option.some.inj built).symm⟩
  · rintro ⟨inner, rfl⟩
    exact ⟨none, some inner, by simp [getSchemaPerm, truthy, bracketed]⟩

theorem getCatalogPerm_eq_some (name : String) (view : String) :
    (∃ catalog, getCatalogPerm name catalog = some view) ↔
    ∃ inner, view = bracketed name inner := by
  constructor
  · rintro ⟨catalog, built⟩
    cases catalog with
    | none => simp [getCatalogPerm] at built
    | some catalog => exact ⟨catalog, (Option.some.inj built).symm⟩
  · rintro ⟨inner, rfl⟩
    exact ⟨some inner, rfl⟩

def Continues (name longer : String) : Prop := name.toList ++ "].[".toList <+: longer.toList

instance (name longer : String) : Decidable (Continues name longer) :=
  inferInstanceAs (Decidable (_ <+: _))

theorem eq_append_of_continues (name longer : String) (continues : Continues name longer) :
    ∃ rest, longer = name ++ "].[" ++ rest := by
  obtain ⟨rest, split⟩ := continues
  refine ⟨String.ofList rest, ?_⟩
  rw [← String.toList_inj]
  simp [← split]

/-- Two strings of the form `[name].[…` are equal only for one name or when one
name continues the other. -/
theorem bracket_overlap (name other : String) (rest tail : List Char)
    (same : name.toList ++ "].[".toList ++ rest = other.toList ++ "].[".toList ++ tail) :
    name = other ∨ Continues name other ∨ Continues other name := by
  -- the longer name starts with the shorter one; its next characters face `].[`
  have longer : ∀ (short long : String) (x y z : List Char),
      long.toList = short.toList ++ x → "].[".toList ++ y = x ++ ("].[".toList ++ z) →
        short = long ∨ Continues short long := by
    intro short long x y z split facing
    match x with
    | [] =>
      left
      rw [← String.toList_inj, split, List.append_nil]
    | [c] =>
      have second := congrArg (fun l => l[1]?) facing
      simp at second
    | [c, d] =>
      have third := congrArg (fun l => l[2]?) facing
      simp at third
    | c :: d :: e :: x =>
      right
      have head : c = ']' ∧ d = '.' ∧ e = '[' := by
        simp at facing
        exact ⟨facing.1.symm, facing.2.1.symm, facing.2.2.1.symm⟩
      obtain ⟨rfl, rfl, rfl⟩ := head
      rw [Continues, split]
      exact ⟨x, by simp⟩
  rw [List.append_assoc, List.append_assoc] at same
  rcases List.append_eq_append_iff.mp same with ⟨x, split, facing⟩ | ⟨x, split, facing⟩
  · rcases longer name other x rest tail split facing with e | c
    · exact Or.inl e
    · exact Or.inr (Or.inl c)
  · rcases longer other name x tail rest split facing with e | c
    · exact Or.inl e.symm
    · exact Or.inr (Or.inr c)

theorem bracketed_eq (name other inner outer : String)
    (same : bracketed name inner = bracketed other outer) :
    name = other ∨ Continues name other ∨ Continues other name := by
  apply bracket_overlap name other (inner.toList ++ [']']) (outer.toList ++ [']'])
  have chars := congrArg String.toList same
  simpa [bracketed] using chars

theorem getDatasetPerm_eq (m n : Nat) (table tableName name other : String)
    (same : getDatasetPerm m table name = getDatasetPerm n tableName other) :
    name = other ∨ Continues name other ∨ Continues other name := by
  apply bracket_overlap name other
    (table.toList ++ ("](id:".toList ++ (toString m).toList ++ [')']))
    (tableName.toList ++ ("](id:".toList ++ (toString n).toList ++ [')']))
  have chars := congrArg String.toList same
  simpa [getDatasetPerm] using chars

theorem colon_notMem_repr (n : Nat) : ':' ∉ n.repr.toList := by
  rw [Nat.toList_repr]
  intro member
  have digit := Nat.isDigit_of_mem_toDigits (by omega) (by omega) member
  revert digit
  decide

/-- A string that ends in `:N)` determines `N` and what precedes the colon. -/
theorem colon_split (front back : List Char) (m n : Nat)
    (same : front ++ ':' :: ((toString m).toList ++ [')']) =
      back ++ ':' :: ((toString n).toList ++ [')'])) : front = back ∧ m = n := by
  have plain : ∀ k : Nat, ':' ∉ (toString k).toList ++ [')'] := by
    intro k member
    rcases List.mem_append.mp member with inDigits | inClose
    · exact colon_notMem_repr k (by simpa using inDigits)
    · simp at inClose
  -- the longer front would put a colon among the digits of the other side
  have aligned : ∀ (x : List Char) (j k : Nat),
      ':' :: ((toString j).toList ++ [')']) = x ++ ':' :: ((toString k).toList ++ [')']) →
      x = [] := by
    intro x j k facing
    cases x with
    | nil => rfl
    | cons c x =>
      have tail := (List.cons.inj facing).2
      exact absurd (by rw [tail]; simp) (plain j)
  have digits : ∀ j k : Nat, (toString j).toList ++ [')'] = (toString k).toList ++ [')'] →
      j = k := by
    intro j k chars
    exact Nat.repr_injective (String.toList_inj.mp (List.append_cancel_right chars))
  rcases List.append_eq_append_iff.mp same with ⟨x, split, facing⟩ | ⟨x, split, facing⟩
  · obtain rfl := aligned x m n facing
    exact ⟨by simpa using split.symm, digits m n (List.cons.inj facing).2⟩
  · obtain rfl := aligned x n m facing
    exact ⟨by simpa using split, (digits n m (List.cons.inj facing).2).symm⟩

theorem getDatabasePerm_id (m n : Nat) (name other : String)
    (same : getDatabasePerm m name = getDatabasePerm n other) : m = n := by
  have chars := congrArg String.toList same
  refine (colon_split ("[".toList ++ name.toList ++ "].(id".toList)
    ("[".toList ++ other.toList ++ "].(id".toList) m n ?_).2
  simpa [getDatabasePerm] using chars

theorem getDatasetPerm_id (m n : Nat) (table tableName name other : String)
    (same : getDatasetPerm m table name = getDatasetPerm n tableName other) : m = n := by
  have chars := congrArg String.toList same
  refine (colon_split ("[".toList ++ name.toList ++ "].[".toList ++ table.toList ++ "](id".toList)
    ("[".toList ++ other.toList ++ "].[".toList ++ tableName.toList ++ "](id".toList) m n ?_).2
  simpa [getDatasetPerm] using chars

theorem getDatabasePerm_ne_bracketed (n : Nat) (name other inner : String) :
    getDatabasePerm n name ≠ bracketed other inner := by
  intro same
  have last := congrArg (fun s => s.toList.reverse.head?) same
  simp [getDatabasePerm, bracketed] at last

theorem getDatasetPerm_ne_bracketed (n : Nat) (table name other inner : String) :
    getDatasetPerm n table name ≠ bracketed other inner := by
  intro same
  have last := congrArg (fun s => s.toList.reverse.head?) same
  simp [getDatasetPerm, bracketed] at last

theorem getDatabasePerm_ne_getDatasetPerm (m n : Nat) (name table other : String) :
    getDatabasePerm m name ≠ getDatasetPerm n table other := by
  intro same
  have chars := congrArg String.toList same
  have fronts := (colon_split ("[".toList ++ name.toList ++ "].(id".toList)
    ("[".toList ++ other.toList ++ "].[".toList ++ table.toList ++ "](id".toList) m n
    (by simpa [getDatabasePerm, getDatasetPerm] using chars)).1
  -- the character before `(id` is `.` on one side and `]` on the other
  have facing := congrArg (fun l => l.reverse[3]?) fronts
  simp at facing

end Liteset.Security
