import Liteset.Sql.AdhocExpression

/-!
# What accepted ad-hoc SQL can read

`has_subquery()` finds parenthesised queries anywhere and nested `SELECT`s below
a `SELECT`.  It does not look at a statement whose root is a set operation, at
set operations as such, or at tables.  `accepted_confined_iff` says that a text
that is accepted is confined to the outermost `SELECT` exactly when these are
absent.
-/

set_option autoImplicit false

namespace Liteset.Sql

open Liteset.Lib

def Kind.SetOperation (kind : Kind) : Prop := kind = .union ∨ kind = .except ∨ kind = .intersect

def Kind.QueryBlock (kind : Kind) : Prop :=
  kind = .select ∨ kind = .subquery ∨ kind.SetOperation

instance (kind : Kind) : Decidable kind.SetOperation :=
  inferInstanceAs (Decidable (_ ∨ _ ∨ _))

instance (kind : Kind) : Decidable kind.QueryBlock :=
  inferInstanceAs (Decidable (_ ∨ _ ∨ _))

/-- A query block besides the root, in any position. -/
def SecondBlock (ast : Ast) : Prop := ∃ u ∈ ast.inner, u.label.QueryBlock

instance (ast : Ast) : Decidable (SecondBlock ast) :=
  inferInstanceAs (Decidable (∃ u ∈ ast.inner, _))

/-- One `SELECT`, no set operation and no table. -/
structure Confined (ast : Ast) : Prop where
  root : ast.label = .select
  single : ¬ SecondBlock ast
  noSetOperation : ∀ u ∈ ast.nodes, ¬ u.label.SetOperation
  noTable : ∀ u ∈ ast.nodes, u.label ≠ .table

/-- The root is a `SELECT`, and there is a `SELECT` or a parenthesised query under
every set operation. -/
structure Rooted (ast : Ast) : Prop where
  root : ast.label = .select
  arms : ∀ u ∈ ast.nodes, u.label.SetOperation →
    ∃ v ∈ u.nodes, v.label = .select ∨ v.label = .subquery

/-- Rooted, and no table is named. -/
structure Plain (ast : Ast) : Prop extends Rooted ast where
  noTable : ∀ u ∈ ast.nodes, u.label ≠ .table

theorem hasSubquery_iff (ast : Ast) :
    hasSubquery ast = true ↔ (∃ u ∈ ast.nodes, u.label = .subquery) ∨
      (ast.label = .select ∧ ∃ u ∈ ast.inner, u.label = .select) := by
  simp only [hasSubquery, Bool.or_eq_true, List.any_eq_true, decide_eq_true_eq, Bool.and_eq_true,
    List.mem_filter]
  apply or_congr_right
  apply and_congr_right
  intro isSelect
  constructor
  · intro h
    obtain ⟨u, ⟨member, different⟩, kind⟩ := h
    rw [Tree.nodes_eq] at member
    exact ⟨u, (List.mem_cons.mp member).resolve_left different, kind⟩
  · intro h
    obtain ⟨u, member, kind⟩ := h
    exact ⟨u, ⟨Tree.mem_nodes_of_mem_inner member, Tree.ne_of_mem_inner member⟩, kind⟩

/-- Below a `SELECT`, every second query block is detected unless it is a set
operation without `SELECT`s. -/
theorem hasSubquery_of_secondBlock (ast : Ast) (rooted : Rooted ast) (second : SecondBlock ast) :
    hasSubquery ast = true := by
  rw [hasSubquery_iff]
  obtain ⟨u, member, kind⟩ := second
  have inNodes := Tree.mem_nodes_of_mem_inner member
  rcases kind with isSelect | isSubquery | isSet
  · exact Or.inr ⟨rooted.root, u, member, isSelect⟩
  · exact Or.inl ⟨u, inNodes, isSubquery⟩
  · obtain ⟨v, below, isSelect | isSubquery⟩ := rooted.arms u inNodes isSet
    · exact Or.inr ⟨rooted.root, v, Tree.mem_inner_trans member below, isSelect⟩
    · exact Or.inl ⟨v, Tree.mem_nodes_trans _ _ _ inNodes below, isSubquery⟩

theorem confined_iff_plain (ast : Ast) (accepted : hasSubquery ast = false) : Confined ast ↔
    Plain ast := by
  constructor
  · intro confined
    refine ⟨⟨confined.root, ?_⟩, confined.noTable⟩
    intro u member isSet
    exact absurd isSet (confined.noSetOperation u member)
  · intro plain
    have single : ¬ SecondBlock ast := by
      intro second
      rw [hasSubquery_of_secondBlock ast plain.toRooted second] at accepted
      cases accepted
    refine ⟨plain.root, single, ?_, plain.noTable⟩
    intro u member isSet
    rw [Tree.nodes_eq] at member
    rcases List.mem_cons.mp member with rfl | inner
    · rw [plain.root] at isSet
      exact absurd isSet (by decide)
    · exact single ⟨u, inner, Or.inr (Or.inr isSet)⟩

/-- No match of the pattern starts inside `head` when `rest` follows. -/
def Unmatched (wrapper : Wrapper) (head rest : List Char) : Prop :=
  ∀ front back, head = front ++ back → back ≠ [] → wrapper.matchHead (back ++ rest) = none

def Wrapper.keyword : Wrapper → String
  | .select => "SELECT "
  | .orderBy => "ORDER BY "

/-- `generated` is the dummy prefix, up to its keyword, and then `body`. -/
structure AfterPrefix (wrapper : Wrapper) (generated body : String) : Prop where
  split : ∃ head : String, generated = head ++ wrapper.keyword ++ body ∧
    Unmatched wrapper head.toList (wrapper.keyword.toList ++ body.toList) ∧
    (wrapper = .select → head = "")

theorem splitOnce_eq (matchHead : List Char → Option (List Char)) (head rest tail : List Char)
    (found : matchHead rest = some tail)
    (earlier : ∀ front back, head = front ++ back → back ≠ [] → matchHead (back ++ rest) = none) :
    splitOnce matchHead (head ++ rest) = some (head, tail) := by
  induction head with
  | nil =>
    cases rest with
    | nil => simp [splitOnce, found]
    | cons c rest => simp [splitOnce, found]
  | cons c head ih =>
    have here := earlier [] (c :: head) rfl (by simp)
    have later := ih (fun front back split nonempty =>
      earlier (c :: front) back (by rw [split]; rfl) nonempty)
    rw [List.cons_append] at here ⊢
    simp only [splitOnce, here, later, Option.map_some]

theorem matchSelect_keyword (body : List Char) :
    matchSelect ("SELECT ".toList ++ body) = some (body.dropWhile isSpace) := rfl

theorem matchOrderBy_keyword (body : List Char) :
    matchOrderBy ("ORDER BY ".toList ++ body) = some (' ' :: body) := rfl

theorem strip_dropWhile (text : List Char) : strip (text.dropWhile isSpace) = strip text := by
  have twice : (text.dropWhile isSpace).dropWhile isSpace = text.dropWhile isSpace := by
    induction text with
    | nil => rfl
    | cons c text ih =>
      by_cases space : isSpace c = true
      · simp only [List.dropWhile_cons, space, if_true]
        exact ih
      · simp only [List.dropWhile_cons, space, Bool.false_eq_true, if_false]
  rw [strip, strip, twice]

theorem strip_space (text : List Char) : strip (' ' :: text) = strip text := rfl

theorem splitOnce_afterPrefix (wrapper : Wrapper) (generated body : String)
    (after : AfterPrefix wrapper generated body) :
    ∃ parts, splitOnce wrapper.matchHead generated.toList = some parts ∧
      strip parts.2 = strip body.toList := by
  obtain ⟨head, rfl, unmatched, -⟩ := after.split
  cases wrapper with
  | select =>
    refine ⟨(head.toList, body.toList.dropWhile isSpace), ?_, strip_dropWhile _⟩
    rw [String.toList_append, String.toList_append, List.append_assoc]
    exact splitOnce_eq matchSelect _ _ _ (matchSelect_keyword body.toList) unmatched
  | orderBy =>
    refine ⟨(head.toList, ' ' :: body.toList), ?_, strip_space _⟩
    rw [String.toList_append, String.toList_append, List.append_assoc]
    exact splitOnce_eq matchOrderBy _ _ _ (matchOrderBy_keyword body.toList) unmatched

def Wrapper.opening : Wrapper → String
  | .select => "SELECT"
  | .orderBy => "SELECT 1 ORDER BY"

/-- What the code relies on: the formatted statement parses back to the same
tree, and a `SELECT` that was parsed from a dummy statement is generated with the
dummy's keyword in front of the rest. -/
structure Sqlglot.Lawful (glot : Sqlglot) : Prop where
  parse_format : ∀ text ast, glot.parse text = some ast → glot.parse (glot.format ast) = some ast
  generate_dummy : ∀ (wrapper : Wrapper) (text : String) (ast : Ast), glot.parse text = some ast →
    wrapper.opening.toList <+: text.toList → ast.label = .select →
    ∃ body, AfterPrefix wrapper (glot.generate ast) body

/-- Rendering a template copies the text before its first tag, up to white space. -/
def Copies (render : Option (String → String)) (wrapper : Wrapper) : Prop :=
  ∀ e, wrapper.opening.toList <+: ((render.getD id) (wrapper.dummy ++ e)).toList

section Accepted
variable (glot : Sqlglot) (applyRls : Ast → Ast) (wrapper : Wrapper)
  (render : Option (String → String))

def wrapped (e : String) : String := (render.getD id) (wrapper.dummy ++ e)

/-- An accepted text has been parsed, has no detected sub-query, and is what
follows the keyword in the sanitised statement. -/
theorem accepted_cases (e text : String)
    (accepted : processWrapped glot false applyRls wrapper render (some e) = .ok (some text)) :
    ∃ ast clause parts, glot.parse (wrapped wrapper render e) = some ast ∧
      hasSubquery ast = false ∧ glot.parse (glot.format ast) = some clause ∧
      splitOnce wrapper.matchHead (glot.generate clause).toList = some parts ∧
      text = String.ofList (strip parts.2) := by
  have dummy_ne : ∀ e, wrapper.dummy ++ e ≠ "" := by
    intro e empty
    have chars := congrArg String.toList empty
    cases wrapper <;> simp [Wrapper.dummy] at chars
  simp only [processWrapped, Option.getD_some] at accepted
  by_cases none_given : e = ""
  · simp [none_given, processSqlExpression] at accepted
  · simp only [none_given, if_false, processSqlExpression, dummy_ne] at accepted
    by_cases blank : (render.getD id) (wrapper.dummy ++ e) = ""
    · simp [blank] at accepted
    · simp only [blank, if_false, validateAdhocSubquery] at accepted
      cases parsed : glot.parse ((render.getD id) (wrapper.dummy ++ e)) with
      | none => simp [parsed] at accepted
      | some ast =>
        simp only [parsed] at accepted
        cases nested : hasSubquery ast with
        | true => simp [nested] at accepted
        | false =>
          simp only [nested, Bool.false_eq_true, if_false, sanitizeClause] at accepted
          cases reparsed : glot.parse (glot.format ast) with
          | none => simp [reparsed] at accepted
          | some clause =>
            simp only [reparsed] at accepted
            split at accepted
            · cases accepted
            · cases parts : splitOnce wrapper.matchHead (glot.generate clause).toList with
              | none => simp [parts] at accepted
              | some found =>
                simp only [parts, Except.ok.injEq, Option.some.injEq] at accepted
                exact ⟨ast, clause, found, parsed, nested, reparsed, parts, accepted.symm⟩

/-- An accepted text reads nothing beyond the outermost `SELECT`, and is returned
without the dummy prefix, exactly when its statement is plain; and a second query
block below any rooted statement is detected. -/
theorem accepted_confined_iff (lawful : glot.Lawful) (copies : Copies render wrapper)
    (e text : String)
    (accepted : processWrapped glot false applyRls wrapper render (some e) = .ok (some text)) :
    ((∃ ast, glot.parse (wrapped wrapper render e) = some ast ∧ Confined ast ∧
        (SecondBlock ast → hasSubquery ast = true) ∧
        ∃ body, AfterPrefix wrapper (glot.generate ast) body ∧
          text = String.ofList (strip body.toList)) ↔
      ∃ ast, glot.parse (wrapped wrapper render e) = some ast ∧ Plain ast) ∧
      ∀ ast, Rooted ast → SecondBlock ast → hasSubquery ast = true := by
  obtain ⟨ast, clause, parts, parsed, nested, reparsed, split, returned⟩ :=
    accepted_cases glot applyRls wrapper render e text accepted
  obtain rfl : ast = clause :=
    Option.some.inj ((lawful.parse_format _ ast parsed).symm.trans reparsed)
  refine ⟨?_, hasSubquery_of_secondBlock⟩
  constructor
  · intro h
    obtain ⟨other, isAst, confined, -⟩ := h
    obtain rfl : ast = other := Option.some.inj (parsed.symm.trans isAst)
    exact ⟨ast, parsed, (confined_iff_plain ast nested).mp confined⟩
  · intro h
    obtain ⟨other, isAst, plain⟩ := h
    obtain rfl : ast = other := Option.some.inj (parsed.symm.trans isAst)
    obtain ⟨body, after⟩ := lawful.generate_dummy wrapper _ ast parsed (copies e) plain.root
    obtain ⟨found, split', same⟩ := splitOnce_afterPrefix wrapper _ body after
    obtain rfl : parts = found := Option.some.inj (split.symm.trans split')
    refine ⟨ast, parsed, (confined_iff_plain ast nested).mpr plain,
      hasSubquery_of_secondBlock ast plain.toRooted, body, after, ?_⟩
    rw [returned, same]

end Accepted

def oneStatement (plain pretty : String) (ast : Ast) : Sqlglot where
  parse := fun text => if text = plain ∨ text = pretty then some ast else none
  format := fun _ => pretty
  generate := fun _ => plain

theorem oneStatement_lawful (body pretty : String) (ast : Ast)
    (notOrderBy : ¬ Wrapper.orderBy.opening.toList <+: ("SELECT " ++ body).toList ∧
      ¬ Wrapper.orderBy.opening.toList <+: pretty.toList) :
    (oneStatement ("SELECT " ++ body) pretty ast).Lawful where
  parse_format := by
    intro text other parsed
    simp only [oneStatement] at parsed ⊢
    split at parsed
    · simpa using parsed
    · cases parsed
  generate_dummy := by
    intro wrapper text other parsed opening isSelect
    simp only [oneStatement] at parsed ⊢
    split at parsed
    · rename_i isText
      cases wrapper with
      | select =>
        refine ⟨body, ⟨"", rfl, ?_, fun _ => rfl⟩⟩
        intro front back split nonempty
        simp only [String.toList_empty, List.nil_eq, List.append_eq_nil_iff] at split
        exact absurd split.2 nonempty
      | orderBy =>
        rcases isText with rfl | rfl
        · exact absurd opening notOrderBy.1
        · exact absurd opening notOrderBy.2
    · cases parsed

theorem copies_none (wrapper : Wrapper) : Copies none wrapper := by
  intro e
  have cut : wrapper.dummy = wrapper.opening ++ " " := by cases wrapper <;> rfl
  rw [cut]
  simp

/-- `SELECT amount` -/
def amountAst : Ast := .node .select [.node (.other "Column") []]

/-- `SELECT 1 UNION SELECT password FROM ab_user` -/
def unionAst : Ast :=
  .node .union [.node .select [.node (.other "Literal") []],
    .node .select [.node (.other "Column") [], .node (.other "From") [.node .table []]]]

/-- `SELECT password FROM ab_user` -/
def fromAst : Ast :=
  .node .select [.node (.other "Column") [], .node (.other "From") [.node .table []]]

theorem plain_amountAst : Plain amountAst := by
  refine ⟨⟨rfl, ?_⟩, ?_⟩ <;> decide

theorem accepted_amount :
    processSelectExpression (oneStatement "SELECT amount" "SELECT\n  amount" amountAst)
      false id none
        (some "amount") = .ok (some "amount") ∧
      ∃ ast, (oneStatement "SELECT amount" "SELECT\n  amount" amountAst).parse
          (wrapped .select none "amount") = some ast ∧ Confined ast := by
  refine ⟨rfl, ?_⟩
  have both := accepted_confined_iff (oneStatement "SELECT amount" "SELECT\n  amount" amountAst) id
    .select none (oneStatement_lawful "amount" "SELECT\n  amount" amountAst (by decide))
    (copies_none .select) "amount" "amount" rfl
  obtain ⟨ast, parsed, confined, -⟩ := both.1.mpr ⟨amountAst, rfl, plain_amountAst⟩
  exact ⟨ast, parsed, confined⟩

/-- The set operation is accepted, and so is a text with a `FROM` clause of its own. -/
theorem accepted_not_confined :
    (processSelectExpression
        (oneStatement "SELECT 1 UNION SELECT password FROM ab_user"
          "SELECT\n  1\nUNION\nSELECT\n  password\nFROM ab_user" unionAst) false id none
        (some "1 UNION SELECT password FROM ab_user") =
        .ok (some "1 UNION SELECT password FROM ab_user") ∧
      ¬ Confined unionAst ∧ SecondBlock unionAst ∧ hasSubquery unionAst = false) ∧
    (processSelectExpression
        (oneStatement "SELECT password FROM ab_user" "SELECT\n  password\nFROM ab_user" fromAst)
        false id none (some "password FROM ab_user") = .ok (some "password FROM ab_user") ∧
      ¬ Confined fromAst) := by
  refine ⟨⟨rfl, ?_, by decide, by decide⟩, rfl, ?_⟩
  · intro confined
    exact absurd confined.root (by decide)
  · intro confined
    exact absurd confined.noTable (by decide)

end Liteset.Sql
