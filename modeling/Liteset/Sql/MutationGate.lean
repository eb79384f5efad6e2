import Liteset.Lib.Tree

/-!
# The read-only and the mutation gate

`is_read_only_select` looks at the root of a statement, `is_mutating` searches the whole
tree for node types and reads the text behind `EXPLAIN ANALYZE` as a statement again.
-/

set_option autoImplicit false

namespace Liteset.Sql.MutationGate

open Lib

local instance instLawfulBEqText : LawfulBEq (List Char) := inferInstance

inductive NodeType where
  | select
  | union
  | except
  | intersect
  | subquery
  | paren
  | insert
  | update
  | delete
  | merge
  | create
  | drop
  | truncateTable
  | alter
  | grant
  | revoke
  | copy
  | command
  | literal
  | other (name : String)
deriving DecidableEq

/-- A node has the key under which its parent holds it, and the text of its `this` if
that is a string. -/
structure Label where
  argKey : String
  type : NodeType
  this : String
deriving DecidableEq

abbrev Expression := Lib.Tree Label

def arg (key : String) : Expression → Option Expression
  | .node _ args => args.find? fun child => child.label.argKey = key

def find (types : List NodeType) (root : Expression) : Bool :=
  root.nodes.any fun node => node.label.type ∈ types

mutual
/-- The first expression below those of a type; one without `this` is left. -/
def unnestType (type : NodeType) : Expression → Expression
  | .node label args =>
    if label.type = type then (unnestThis type args).getD (.node label args) else .node label args

def unnestThis (type : NodeType) : List Expression → Option Expression
  | [] => none
  | child :: rest =>
    if child.label.argKey = "this" then some (unnestType type child) else unnestThis type rest
end

/-- `Subquery` has its own `unnest`. -/
def unnest (root : Expression) : Expression :=
  if root.label.type = .subquery then unnestType .subquery root else unnestType .paren root

def readOnlyCommandNames : List String :=
  ["EXPLAIN", "SHOW", "SET", "USE", "DESCRIBE", "DESC", "PRAGMA"]

def mutatingNodes : List NodeType :=
  [.insert, .update, .delete, .merge, .create, .drop, .truncateTable, .alter, .grant,
    .revoke, .copy]

def isReadOnlySelect (root : Expression) : Bool :=
  let target := unnest root
  if target.label.type ∈ [NodeType.select, .union, .except, .intersect] then
    !(target.label.type = .select && (arg "into" target).isSome)
  else false

def isCommand (root : Expression) : Bool := root.label.type = .command

/-- `self._parsed.expression.name` -/
def expressionName (root : Expression) : Option String :=
  (arg "expression" root).map fun literal => literal.label.this

def upper (text : String) : List Char := text.toList.map Char.toUpper

def isWhite (c : Char) : Bool := c ∈ [' ', '\t', '\n', '\r', '\x0b', '\x0c']

/-- `SQLStatement(statement=text)`, where `none` is an error. -/
structure Parser where
  parse : String → Option Expression
  /-- What stands in a statement is no longer than its text. -/
  shorter : ∀ text root, parse text = some root → ((expressionName root).getD "").length ≤
    text.length
  skips : ∀ white text, white.all isWhite = true →
    parse (String.ofList (white ++ text)) = parse (String.ofList text)

section Mutating
variable (parser : Parser) (postgres : Bool)

def isOpaque (root : Expression) : Bool :=
  isCommand root && String.ofList (upper root.label.this) ∉ readOnlyCommandNames

/-- The body of `is_mutating`, where `none` is an error; `analyzed` stands for the same
question about the statement behind `EXPLAIN ANALYZE`. -/
def isMutatingBy (analyzed : Expression → Option Bool) (root : Expression) : Option Bool :=
  if find mutatingNodes root then some true
  else if isCommand root && root.label.this = "ALTER" then some true
  else if postgres && isCommand root && root.label.this = "DO" then some true
  else if postgres && isCommand root && root.label.this = "EXPLAIN" then
    match expressionName root with
    | none => none
    | some literal =>
      if "ANALYZE ".toList <+: upper literal then
        (parser.parse (String.ofList (literal.toList.drop "ANALYZE ".length))).bind analyzed
      else some (isOpaque root)
  else some (isOpaque root)

def isMutatingWithin : Nat → Expression → Option Bool
  | 0, _ => none
  | fuel + 1, root => isMutatingBy parser postgres (isMutatingWithin fuel) root

def isMutating (root : Expression) : Option Bool :=
  isMutatingWithin parser postgres (((expressionName root).getD "").length + 1) root

end Mutating

structure Gap where
  first : Char
  rest : List Char
  white : isWhite first = true ∧ rest.all isWhite = true

def Gap.text (gap : Gap) : List Char := gap.first :: gap.rest

structure Spelling (word : String) where
  text : String
  spells : upper text = word.toList

/-- `name [value]` with white space around it. -/
structure ExplainOption where
  before : List Char
  name : String
  value : Option (Gap × String)
  after : List Char
  white : before.all isWhite = true ∧ after.all isWhite = true

def ExplainOption.text (option : ExplainOption) : List Char :=
  option.before ++ option.name.toList
    ++ (match option.value with
      | none => []
      | some (gap, value) => gap.text ++ value.toList)
    ++ option.after

def ExplainOption.isAnalyze (option : ExplainOption) : Bool := upper option.name = "ANALYZE".toList

def ExplainOption.isOn (option : ExplainOption) : Bool :=
  match option.value with
  | none => true
  | some (_, value) => upper value ∈ ["TRUE".toList, "ON".toList, "1".toList]

/-- The last `ANALYZE` option counts. -/
def requestsAnalyze (options : List ExplainOption) : Bool :=
  match options.reverse.find? ExplainOption.isAnalyze with
  | none => false
  | some option => option.isOn

/-- The options of an `EXPLAIN` that requests `ANALYZE`. -/
inductive AnalyzeOptions where
  | bare (analyze : Spelling "ANALYZE") (gap : List Char) (white : gap.all isWhite = true)
  | verbose (analyze : Spelling "ANALYZE") (gap : Gap) (word : Spelling "VERBOSE")
      (after : List Char)
      (white : after.all isWhite = true)
  | parenthesised (options : List ExplainOption) (requests : requestsAnalyze options = true)
      (after : List Char)
      (white : after.all isWhite = true)

/-- An `EXPLAIN` with the statement behind its options. -/
structure Explain where
  options : AnalyzeOptions
  body : String

def AnalyzeOptions.text : AnalyzeOptions → List Char
  | .bare analyze gap _ => analyze.text.toList ++ gap
  | .verbose analyze gap word after _ =>
    analyze.text.toList ++ gap.text ++ word.text.toList ++ after
  | .parenthesised options _ after _ =>
    '(' :: [','].intercalate (options.map ExplainOption.text) ++ ')' :: after

/-- `Command EXPLAIN` with the remaining text as its literal. -/
def Explain.command (explain : Explain) : Expression :=
  .node { argKey := "", type := .command, this := "EXPLAIN" }
    [.node
      { argKey := "expression", type := .literal
        this := String.ofList (explain.options.text ++ explain.body.toList) } []]

def mutatesText (parser : Parser) (text : List Char) : Bool :=
  (parser.parse (String.ofList text)).bind (isMutating parser true) = some true

/-- No node is a mutation or a `SELECT` with an `into`. -/
def Plain (node : Expression) : Prop :=
  node.label.type ∉ mutatingNodes ∧ ¬ (node.label.type = .select ∧ (arg "into" node).isSome)

instance (node : Expression) : Decidable (Plain node) := inferInstanceAs (Decidable (_ ∧ _))

/-- The statement does not mutate, and no
node of it at any depth is a mutation or a `SELECT` with an `into`. -/
def OnlyReads (parser : Parser) (postgres : Bool) (root : Expression) : Prop :=
  isMutating parser postgres root = some false ∧ ∀ node ∈ root.nodes, Plain node

def AnalyzeOptions.isVerbose : AnalyzeOptions → Bool
  | .verbose _ _ _ _ _ => true
  | _ => false

/-- `ANALYZE` is the only option, without parentheses, and a space is right behind it. -/
def SpaceBehindAnalyze (explain : Explain) : Prop :=
  match explain.options with
  | .bare _ gap _ => (gap ++ explain.body.toList).head? = some ' '
  | .verbose _ _ _ _ _ => False
  | .parenthesised _ _ _ _ => False

end Liteset.Sql.MutationGate
