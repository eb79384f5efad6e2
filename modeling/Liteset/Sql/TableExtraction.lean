/-!
# Tables of a statement

`extract_tables_from_statement` collects the tables a statement reads from the scopes
of its query blocks.  A reference that looks like a table is left out when the block
around it has a CTE of that name.
-/

set_option autoImplicit false

namespace Liteset.Sql.TableExtraction

structure Table where
  table : String
  schema : Option String
  catalog : Option String
deriving DecidableEq

/-- `exp.Table`; a part that is not given is empty. -/
structure TableNode where
  name : String
  db : String
  catalog : String
  aliasName : String
deriving DecidableEq

def TableNode.aliasOrName (node : TableNode) : String :=
  if node.aliasName ≠ "" then node.aliasName else node.name

mutual
/-- What the tables of a query depend on: its `WITH` clause, what stands in `FROM` and
the joins, and the sub-queries of its expressions. -/
inductive Query where
  | select (recursive : Bool) (ctes : List Cte) (relations : List Relation)
      (subqueries : List Query)
  | setOperation (recursive : Bool) (ctes : List Cte) (left right : Query)

inductive Cte where
  | mk (name : String) (body : Query)

inductive Relation where
  | table (node : TableNode)
  | derived (aliasName : String) (query : Query)
end

def Cte.name : Cte → String
  | .mk name _ => name

def Relation.aliasOrName : Relation → String
  | .table node => node.aliasOrName
  | .derived aliasName _ => aliasName

inductive Statement where
  | query (query : Query)
  /-- A `DESCRIBE` with its tables. -/
  | describe (tables : List TableNode)
  /-- A command with its first literal. -/
  | command (literal : Option String)

inductive ScopeType where
  | root
  | cte
  | derivedTable
  | union
  | subquery
deriving DecidableEq

/-- A value of `scope.sources`: a table, or the scope of a CTE or of a derived table. -/
inductive Source where
  | table (node : TableNode)
  | scope (type : ScopeType)

structure Scope where
  sources : List (String × Source)
  parent : Option Scope

def cteName : String × Source → Option String
  | (name, .scope .cte) => some name
  | _ => none

def ctesInScope (parent : Option Scope) : List String :=
  match parent with
  | some parent => parent.sources.filterMap cteName
  | none => []

def isCte (source : TableNode) (scope : Scope) : Bool := source.name ∈ ctesInScope scope.parent

def toTable (source : TableNode) : Table where
  table := source.name
  schema := if source.db ≠ "" then some source.db else none
  catalog := if source.catalog ≠ "" then some source.catalog else none

def tableNode : String × Source → Option TableNode
  | (_, .table node) => some node
  | (_, .scope _) => none

def scopeTables (scope : Scope) : List TableNode := scope.sources.filterMap tableNode

/-- `parseOne` gives the table nodes of `SELECT literal`, or `none` for a text that is
not parsed; `traverseScope` the scopes of a query. -/
def extractTablesFromStatement (parseOne : String → Option (List TableNode))
    (traverseScope : Query → List Scope) :
    Statement → List Table
  | .describe tables => tables.map toTable
  | .command none => []
  | .command (some literal) =>
    match parseOne literal with
    | none => []
    | some tables => tables.map toTable
  | .query query =>
    ((traverseScope query).flatMap fun scope =>
      (scopeTables scope).filter fun source => !isCte source scope).map toTable

def bound (visible : List String) (node : TableNode) : Bool :=
  node.db = "" ∧ node.catalog = "" ∧ node.name ∈ visible

/-- The CTEs that a block sees; those of its own `WITH` clause included. -/
def visibleIn (outer : List String) (ctes : List Cte) : List String := outer ++ ctes.map Cte.name

/-- The CTEs that the first body of a `WITH` clause sees. -/
def visibleFirst (recursive : Bool) (outer : List String) (ctes : List Cte) : List String :=
  if recursive then visibleIn outer ctes else outer

def source (visible : List String) : Relation → String × Source
  | .table node => (node.aliasOrName, if bound visible node then .scope .cte else .table node)
  | .derived aliasName _ => (aliasName, .scope .derivedTable)

def sources (visible : List String) (relations : List Relation) : List (String × Source) :=
  ((visible.filter fun name => name ∉ relations.map Relation.aliasOrName).map fun name =>
    (name, .scope .cte))
    ++ relations.map (source visible)

mutual
def queryBlocks : List String → Option Scope → Query → List Scope
  | outer, parent, .select recursive ctes relations subqueries =>
    let visible := visibleIn outer ctes
    let scope : Scope := { sources := sources visible relations, parent := parent }
    scope :: cteBlocks (visibleFirst recursive outer ctes) scope ctes
      ++ relationBlocks visible scope relations
      ++ subqueryBlocks visible scope subqueries
  | outer, parent, .setOperation recursive ctes left right =>
    let visible := visibleIn outer ctes
    let scope : Scope := { sources := sources visible [], parent := parent }
    scope :: cteBlocks (visibleFirst recursive outer ctes) scope ctes
      ++ queryBlocks visible (some scope) left
      ++ queryBlocks visible (some scope) right

def cteBlocks : List String → Scope → List Cte → List Scope
  | _, _, [] => []
  | visible, scope, .mk name body :: rest =>
    queryBlocks visible (some scope) body ++ cteBlocks (visible ++ [name]) scope rest

def relationBlocks : List String → Scope → List Relation → List Scope
  | _, _, [] => []
  | visible, scope, .table _ :: rest => relationBlocks visible scope rest
  | visible, scope, .derived _ query :: rest =>
    queryBlocks visible (some scope) query ++ relationBlocks visible scope rest

def subqueryBlocks : List String → Scope → List Query → List Scope
  | _, _, [] => []
  | visible, scope, query :: rest =>
    queryBlocks visible (some scope) query ++ subqueryBlocks visible scope rest
end

/-- `traverse_scope` yields the blocks of the query, in some order. -/
def YieldsBlocks (traverseScope : Query → List Scope) (query : Query) : Prop :=
  ∀ scope, scope ∈ traverseScope query ↔ scope ∈ queryBlocks [] none query

def unbound (visible : List String) (relations : List Relation) : List TableNode :=
  relations.filterMap fun relation =>
    match relation with
    | .table node => if bound visible node then none else some node
    | .derived _ _ => none

mutual
def tablesRead : List String → Query → List TableNode
  | outer, .select recursive ctes relations subqueries =>
    let visible := visibleIn outer ctes
    unbound visible relations ++ cteTablesRead (visibleFirst recursive outer ctes) ctes
      ++ relationTablesRead visible relations
      ++ subqueryTablesRead visible subqueries
  | outer, .setOperation recursive ctes left right =>
    let visible := visibleIn outer ctes
    cteTablesRead (visibleFirst recursive outer ctes) ctes ++ tablesRead visible left ++
      tablesRead visible right

def cteTablesRead : List String → List Cte → List TableNode
  | _, [] => []
  | visible, .mk name body :: rest =>
    tablesRead visible body ++ cteTablesRead (visible ++ [name]) rest

def relationTablesRead : List String → List Relation → List TableNode
  | _, [] => []
  | visible, .table _ :: rest => relationTablesRead visible rest
  | visible, .derived _ query :: rest => tablesRead visible query ++ relationTablesRead visible rest

def subqueryTablesRead : List String → List Query → List TableNode
  | _, [] => []
  | visible, query :: rest => tablesRead visible query ++ subqueryTablesRead visible rest
end

end Liteset.Sql.TableExtraction
