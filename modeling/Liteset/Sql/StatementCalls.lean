import Liteset.Lib.PyText
import Liteset.Lib.Tree

/-!
# Helpers that rewrite a statement

Which of the helpers of `SQLStatement` work on a copy of the tree, and which leave their mark on the
statement they are asked of.
-/

set_option autoImplicit false

namespace Liteset.Sql.StatementCalls

open Lib List

abbrev Label := String

abbrev Expression := Lib.Tree Label

structure Literal where
  name : String
  isNumber : Bool

/-- The arguments of `exp.Limit`; `none` where there is none, or no literal. -/
structure LimitNode where
  expression : Option Literal
  this : Option Literal

/-- The expressions of an `exp.With`. -/
structure With where
  first : Expression
  others : List (Expression)

def With.expressions (ctes : With) : List (Expression) := ctes.first :: ctes.others

structure Parsed where
  kind : Label
  /-- `none` where `args` has no such key, `some none` where it has the key and no value. -/
  withArg : Option (Option With)
  limit : Option LimitNode
  args : List (Expression)

structure SQLStatement where
  parsed : Parsed
  /-- `none` without a dialect, and for the one that is falsy. -/
  dialect : Option String

def leaf (label : Label) : Expression := .node label []

def literalTree (literal : Literal) : Expression :=
  .node "Literal" [leaf literal.name, leaf (toString literal.isNumber)]

def Parsed.toTree (parsed : Parsed) : Expression :=
  .node parsed.kind
    ((match parsed.withArg with
      | some (some ctes) => [.node "With" ctes.expressions]
      | _ => []) ++
    (match parsed.limit with
      | some limit =>
        [.node "Limit" ((limit.expression.toList ++ limit.this.toList).map literalTree)]
      | none => []) ++ parsed.args)

def plainRoot (kind : Label) (args : List (Expression)) : Parsed :=
  { kind, withArg := none, limit := none, args }

structure Table where
  table : String
  schema : Option String
  catalog : Option String
deriving DecidableEq

inductive Call where
  | asCte (name : String)
  | asCreateTable (table : Table) (method : String)
  | optimize
  | hasCte
  | hasSubquery
  | getLimitValue
  | format (comments : Bool)
deriving DecidableEq

inductive Answer where
  | statement (statement : SQLStatement)
  | truth (value : Bool)
  | number (value : Option Int)
  | text (value : String)

def hasCte (statement : SQLStatement) : Bool := statement.parsed.withArg.isSome

def hasSubquery (statement : SQLStatement) : Bool :=
  let parsed := statement.parsed.toTree
  parsed.nodes.any (fun node => node.label = "Subquery") ||
    (statement.parsed.kind = "Select" && parsed.nodes.any fun node => node.label = "Select" &&
      decide (node ≠ parsed))

def getLimitValue (statement : SQLStatement) : Option Int :=
  match statement.parsed.limit with
  | none => none
  | some limit =>
    match limit.expression.or limit.this with
    | none => none
    -- a number that `int` cannot read is none of `is_int`
    | some literal => if literal.isNumber then PyText.parseInt literal.name else none

/-- The answer and the statement after the call; the error is that of reading the
expressions of `None`. -/
def asCte (statement : SQLStatement) (name : String) : Option (SQLStatement × SQLStatement) :=
  match (match statement.parsed.withArg with
    | none => some []
    | some none => none
    | some (some ctes) => some ctes.expressions) with
  | none => none
  | some existingCtes =>
    let parsed := { statement.parsed with withArg := some none }
    some ({ statement with
        parsed := plainRoot "With"
          (existingCtes ++ [.node "CTE" [parsed.toTree, .node "TableAlias" [leaf name]]]) },
      { statement with parsed })

def asCreateTable (statement : SQLStatement) (table : Table) (method : String) : SQLStatement :=
  { statement with
    parsed := plainRoot "Create"
      [.node "Table" (leaf table.table :: (table.schema.toList ++ table.catalog.toList).map leaf),
        .node "kind" [leaf method], .node "expression" [statement.parsed.toTree]] }

section Calls
variable (pushdownPredicates : String → Parsed → Parsed)
    (generate : Option String → Bool → Parsed → String)

def optimize (statement : SQLStatement) : SQLStatement × SQLStatement :=
  match statement.dialect with
  | none => (statement, statement)
  | some dialect =>
    let optimized := { statement with parsed := pushdownPredicates dialect statement.parsed }
    (optimized, optimized)

def format (statement : SQLStatement) (comments : Bool) : String :=
  generate statement.dialect comments statement.parsed

def call (statement : SQLStatement) : Call → Option (Answer × SQLStatement)
  | .asCte name => (asCte statement name).map fun result => (.statement result.1, result.2)
  | .asCreateTable table method =>
    some (.statement (asCreateTable statement table method), statement)
  | .optimize =>
    some (.statement (optimize pushdownPredicates statement).1,
      (optimize pushdownPredicates statement).2)
  | .hasCte => some (.truth (hasCte statement), statement)
  | .hasSubquery => some (.truth (hasSubquery statement), statement)
  | .getLimitValue => some (.number (getLimitValue statement), statement)
  | .format comments => some (.text (format generate statement comments), statement)

def run : SQLStatement → List Call → Option (List Answer × SQLStatement)
  | statement, [] => some ([], statement)
  | statement, first :: calls =>
    match call pushdownPredicates generate statement first with
    | none => none
    | some (answer, statement) => (run statement calls).map fun rest => (answer :: rest.1, rest.2)

def observed : Answer → Answer
  | .statement statement => .text (format generate statement true)
  | answer => answer

/-- However many of the calls are made: none raises an error, the statement reads as
before, and a call that is made again has the same answer. -/
def Unharmed (statement : SQLStatement) (calls : List Call) : Prop :=
  ∀ made, made <+: calls →
    ∃ answers after, run pushdownPredicates generate statement made = some (answers, after) ∧
    format generate after true = format generate statement true ∧ hasCte after = hasCte statement ∧
    ∀ one ∈ made.zip answers, ∀ other ∈ made.zip answers, one.1 = other.1 →
    observed generate one.2 = observed generate other.2

/-- No call is `as_cte`, and `optimize` has no dialect or nothing to push down. -/
def Leaves (statement : SQLStatement) (calls : List Call) : Prop :=
  (∀ name, Call.asCte name ∉ calls) ∧
  (Call.optimize ∈ calls → ∀ dialect, statement.dialect = some dialect →
    pushdownPredicates dialect statement.parsed = statement.parsed)

variable {pushdownPredicates}
variable {statement after : SQLStatement} {calls : List Call}

theorem call_leaves {one : Call} (leaves : Leaves pushdownPredicates statement [one]) :
    ∃ answer, call pushdownPredicates generate statement one = some (answer, statement) := by
  cases one with
  | asCte name => exact absurd mem_cons_self (leaves.1 name)
  | optimize =>
    refine ⟨_, congrArg some (Prod.ext rfl ?_)⟩
    show (optimize pushdownPredicates statement).2 = statement
    unfold optimize
    split
    · rfl
    · next dialect isDialect => rw [leaves.2 mem_cons_self dialect isDialect]
  | asCreateTable table method => exact ⟨_, rfl⟩
  | hasCte => exact ⟨_, rfl⟩
  | hasSubquery => exact ⟨_, rfl⟩
  | getLimitValue => exact ⟨_, rfl⟩
  | format comments => exact ⟨_, rfl⟩

theorem Leaves.part {fewer : List Call} (leaves : Leaves pushdownPredicates statement calls)
    (within : fewer ⊆ calls) :
    Leaves pushdownPredicates statement fewer :=
  ⟨fun name member => leaves.1 name (within member), fun member => leaves.2 (within member)⟩

theorem run_leaves (calls : List Call) (leaves : Leaves pushdownPredicates statement calls) :
    ∃ answers, run pushdownPredicates generate statement calls = some (answers, statement) ∧
      ∀ one ∈ calls.zip answers,
        call pushdownPredicates generate statement one.1 = some (one.2, statement) := by
  induction calls with
  | nil => exact ⟨[], rfl, fun _ none => absurd none not_mem_nil⟩
  | cons first calls ih =>
    obtain ⟨answer, called⟩ := call_leaves generate
      (leaves.part fun one member => mem_singleton.mp member ▸ mem_cons_self)
    obtain ⟨answers, ran, each⟩ := ih (leaves.part (subset_cons_self first calls))
    refine ⟨answer :: answers, by rw [run, called]; simp [ran], ?_⟩
    rw [zip_cons_cons]
    exact forall_mem_cons.mpr ⟨called, each⟩

theorem unharmed_of_leaves (leaves : Leaves pushdownPredicates statement calls) :
    Unharmed pushdownPredicates generate statement calls := by
  intro made isPrefix
  obtain ⟨answers, ran, each⟩ := run_leaves generate made (leaves.part isPrefix.subset)
  refine ⟨answers, statement, ran, rfl, rfl, fun one member other andOther same => ?_⟩
  have first := each one member
  rw [same, each other andOther] at first
  exact congrArg (observed generate) (congrArg Prod.fst (Option.some.inj first)).symm

/-- The generator writes the common tables. -/
def ShowsCtes (generate : Option String → Bool → Parsed → String) : Prop :=
  ∀ (dialect : Option String) (parsed : Parsed) (ctes : With),
    generate dialect true { parsed with withArg := some (some ctes) } ≠
      generate dialect true { parsed with withArg := some none }

theorem run_concat (calls : List Call) (one : Call) : ∀ {statement : SQLStatement},
    run pushdownPredicates generate statement (calls ++ [one]) =
      (run pushdownPredicates generate statement calls).bind fun before =>
        (call pushdownPredicates generate before.2 one).map fun result =>
          (before.1 ++ [result.1], result.2) := by
  induction calls with
  | nil =>
    intro statement
    rw [nil_append, run]
    cases called : call pushdownPredicates generate statement one with
    | none => simp [run, called]
    | some result => simp [run, called]
  | cons first calls ih =>
    intro statement
    rw [cons_append, run, run]
    cases call pushdownPredicates generate statement first with
    | none => rfl
    | some result =>
      simp only [ih]
      cases run pushdownPredicates generate result.2 calls with
      | none => rfl
      | some before =>
        cases called : call pushdownPredicates generate before.2 one <;> simp [called]

theorem unharmed_step {front back : List Call} {one : Call}
    (unharmed : Unharmed pushdownPredicates generate statement (front ++ one :: back)) :
    ∃ answers before answer after,
      run pushdownPredicates generate statement front = some (answers, before) ∧
      call pushdownPredicates generate before one = some (answer, after) ∧
      format generate after true = format generate before true ∧ hasCte after = hasCte before := by
  obtain ⟨answers, before, ran, sameText, sameCte, _⟩ := unharmed front (prefix_append _ _)
  obtain ⟨_, after, ranMore, text, cte, _⟩ := unharmed (front ++ [one]) ⟨back, by simp⟩
  rw [run_concat, ran, Option.bind_some] at ranMore
  obtain ⟨result, called, isResult⟩ := Option.map_eq_some_iff.mp ranMore
  cases isResult
  exact ⟨answers, before, result.1, result.2, ran, called, text.trans sameText.symm,
    cte.trans sameCte.symm⟩

theorem asCte_harms (shown : ShowsCtes generate)
    (unharmed : Unharmed pushdownPredicates generate statement calls) (name : String) :
    Call.asCte name ∉ calls := by
  intro member
  obtain ⟨front, back, rfl⟩ := append_of_mem member
  obtain ⟨_, before, _, after, _, called, text, cte⟩ := unharmed_step generate unharmed
  obtain ⟨result, rewritten, isResult⟩ := Option.map_eq_some_iff.mp called
  cases isResult
  unfold asCte at rewritten
  obtain ⟨⟨kind, withArg, limit, args⟩, dialect⟩ := before
  cases withArg with
  | none =>
    cases rewritten
    cases cte
  | some held =>
    cases held with
    | none => cases rewritten
    | some ctes =>
      cases rewritten
      exact shown dialect ⟨kind, none, limit, args⟩ ctes text.symm

theorem optimize_keeps_text (noCte : ∀ name, Call.asCte name ∉ calls)
    (unharmed : Unharmed pushdownPredicates generate statement calls)
    (member : Call.optimize ∈ calls) (dialect : String)
    (isDialect : statement.dialect = some dialect) :
    generate (some dialect) true (pushdownPredicates dialect statement.parsed) =
      generate (some dialect) true statement.parsed := by
  obtain ⟨front, back, rfl, first⟩ := eq_append_cons_of_mem member
  obtain ⟨_, before, _, after, ran, called, text, _⟩ := unharmed_step generate unharmed
  -- nothing before the first of them changes the statement
  obtain ⟨_, ranFront, _⟩ :=
    run_leaves generate front (show Leaves pushdownPredicates statement front from
    ⟨fun name inFront => noCte name (mem_append_left _ inFront),
      fun inFront => absurd inFront first⟩)
  rw [ranFront] at ran
  cases ran
  cases called
  simpa only [format, optimize, isDialect] using text

/-- Calls leave the statement alone where none of them is `as_cte` and `optimize` has
nothing to push down; and only where none is `as_cte` and what `optimize` pushes down
does not show. -/
theorem calls_unharmed (shown : ShowsCtes generate) (statement : SQLStatement) (calls : List Call) :
    (Leaves pushdownPredicates statement calls →
      Unharmed pushdownPredicates generate statement calls) ∧
    (Unharmed pushdownPredicates generate statement calls → (∀ name, Call.asCte name ∉ calls) ∧
      (Call.optimize ∈ calls → ∀ dialect, statement.dialect = some dialect →
        generate (some dialect) true (pushdownPredicates dialect statement.parsed) =
          generate (some dialect) true statement.parsed)) :=
  ⟨unharmed_of_leaves generate,
    fun unharmed => ⟨asCte_harms generate shown unharmed, fun member dialect isDialect =>
    optimize_keeps_text generate (asCte_harms generate shown unharmed) unharmed member dialect
      isDialect⟩⟩

end Calls

/-- The text of `SELECT column FROM table`. -/
def selectText : Expression → String
  | .node "Select" [.node "Column" [.node column []],
      .node "From" [.node "Table" [.node table []]]] =>
    "SELECT " ++ column ++ " FROM " ++ table
  | .node label _ => label

def cteText : Expression → String
  | .node "CTE" [select, .node "TableAlias" [.node name []]] =>
    name ++ " AS (" ++ selectText select ++ ")"
  | .node label _ => label

def generateSelect (_ : Option String) (_ : Bool) (parsed : Parsed) : String :=
  (match parsed.withArg with
    | some (some ctes) => "WITH " ++ ", ".intercalate (ctes.expressions.map cteText) ++ " "
    | _ => "") ++
  selectText (.node parsed.kind parsed.args) ++
  (match parsed.limit.bind fun limit => limit.expression with
    | some literal => " LIMIT " ++ literal.name
    | none => "")

theorem generateSelect_shown : ShowsCtes generateSelect := by
  intro dialect parsed ctes same
  have lengths := congrArg String.length same
  simp only [generateSelect, String.length_append] at lengths
  have five : "WITH ".length = 5 := rfl
  have none_ : "".length = 0 := rfl
  omega

def selectFrom (table : String) : List Expression :=
  [.node "Column" [leaf "region"], .node "From" [.node "Table" [leaf table]]]

/-- `WITH recent AS (SELECT region FROM orders) SELECT region FROM recent LIMIT 10` -/
def recentOrders : SQLStatement where
  parsed :=
    { kind := "Select"
      withArg := some (some
        { first := .node "CTE" [.node "Select" (selectFrom "orders"),
          .node "TableAlias" [leaf "recent"]]
          others := [] })
      limit := some { expression := some { name := "10", isNumber := true }, this := none }
      args := selectFrom "recent" }
  dialect := some "postgresql"

def everyHelper : List Call :=
  [.optimize, .hasCte, .hasSubquery, .getLimitValue, .format true,
    .asCreateTable ⟨"copy", some "public", none⟩ "TABLE",
    .optimize, .hasCte]

/-- The statement has no conditions that could be pushed down. -/
theorem recentOrders_unharmed :
    generateSelect recentOrders.dialect true recentOrders.parsed =
      "WITH recent AS (SELECT region FROM orders) SELECT region FROM recent LIMIT 10" ∧
    hasCte recentOrders = true ∧ getLimitValue recentOrders = some 10 ∧
    Unharmed (fun _ parsed => parsed) generateSelect recentOrders everyHelper := by
  have leaves : Leaves (fun _ parsed => parsed) recentOrders everyHelper :=
    ⟨fun name => by simp [everyHelper], fun _ _ _ => rfl⟩
  exact ⟨by decide, rfl, by decide,
    (calls_unharmed generateSelect generateSelect_shown _ _).1 leaves⟩

/-- `SELECT region FROM orders` -/
def orders : SQLStatement := ⟨plainRoot "Select" (selectFrom "orders"), none⟩

/-- A statement without common tables seems to have some after `as_cte`, and a second
`as_cte` raises an error. -/
theorem second_asCte_raises :
    (run (fun _ parsed => parsed) generateSelect orders [.asCte "__cte"]).map
      (fun made => hasCte made.2) = some true ∧
    run (fun _ parsed => parsed) generateSelect orders [.asCte "__cte", .asCte "__cte"] = none ∧
    ¬Unharmed (fun _ parsed => parsed) generateSelect orders [.asCte "__cte", .asCte "__cte"] := by
  refine ⟨rfl, rfl, fun unharmed => ?_⟩
  obtain ⟨_, _, ran, _⟩ := unharmed _ (prefix_refl _)
  cases ran

end Liteset.Sql.StatementCalls
