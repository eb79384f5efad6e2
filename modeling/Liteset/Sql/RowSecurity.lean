import Liteset.Lib.ConditionAtoms
import Liteset.Lib.Joins
import Liteset.Sql.TableExtraction

/-!
# Row level security on SQL text

`SQLStatement.apply_rls` puts the predicates of a table into the `WHERE` or the `ON`
beside it, or a filtered sub-query in its place.  What a statement returns is defined
beside it, for statements with joins, derived tables, set operations and CTEs.
-/

set_option autoImplicit false

namespace Liteset.Sql.RowSecurity

open Lib
open Lib.Condition (Disjunction Valuation)
open TableExtraction (Table TableNode)

variable {V : Type}

structure Column where
  qualifier : Option String
  name : String
deriving DecidableEq

structure Atom (V : Type) where
  columns : List Column
  test : List (Option V) → Option Bool

abbrev Condition (V : Type) := Disjunction (Atom V) Empty

structure OwnAtom (V : Type) where
  columns : List String
  test : List (Option V) → Option Bool

abbrev Predicate (V : Type) := Disjunction (OwnAtom V) Empty

def OwnAtom.qualify (qualifier : Option String) (atom : OwnAtom V) : Atom V where
  columns := atom.columns.map fun name => { qualifier := qualifier, name := name }
  test := atom.test

/-- `column.set("table", ...)` for every column of the predicate. -/
def qualified (qualifier : Option String) (predicate : Predicate V) : Condition V :=
  predicate.map (OwnAtom.qualify qualifier)

structure Rows (V : Type) where
  columns : List String
  rows : List (List (Option V))
deriving DecidableEq

inductive JoinKind where
  | cross
  | inner
  | left
  | right
  | full
deriving DecidableEq

inductive SetOperator where
  | unionAll
  | union
  | intersect
  | except
deriving DecidableEq

structure Expression (V : Type) where
  columns : List Column
  name : String
  value : List (Option V) → Option V

inductive Projection (V : Type) where
  | star
  | expressions (items : List (Expression V))

mutual
inductive Query (V : Type) where
  | select (ctes : List (Cte V)) (projection : Projection V) (first : Relation V)
      (joins : List (Join V))
      (condition : Option (Condition V))
  /-- A `SELECT` without `FROM`. -/
  | values (rows : Rows V)
  | setOperation (operator : SetOperator) (ctes : List (Cte V)) (left right : Query V)

inductive Cte (V : Type) where
  | mk (name : String) (body : Query V)

inductive Relation (V : Type) where
  | table (node : TableNode)
  | derived (aliasName : String) (query : Query V)

inductive Join (V : Type) where
  | mk (kind : JoinKind) (relation : Relation V) (on : Option (Condition V))
end

def Relation.name : Relation V → String
  | .table node => node.aliasOrName
  | .derived aliasName _ => aliasName

def Join.kind : Join V → JoinKind
  | .mk kind _ _ => kind

def Join.relation : Join V → Relation V
  | .mk _ relation _ => relation

def Join.on : Join V → Option (Condition V)
  | .mk _ _ on => on

inductive RlsMethod where
  | asPredicate
  | asSubquery
deriving DecidableEq

structure Rules (V : Type) where
  catalog : Option String
  schema : Option String
  rules : List (Table × List (Predicate V))

def Rules.tableOf (rules : Rules V) (node : TableNode) : Table where
  table := node.name
  schema := if node.db ≠ "" then some node.db else rules.schema
  catalog := if node.catalog ≠ "" then some node.catalog else rules.catalog

def Rules.get (rules : Rules V) (table : Table) : List (Predicate V) :=
  match rules.rules.find? fun rule => rule.1 = table with
  | some (_, predicates) => predicates
  | none => []

/-- The node is `And` or `Or`. -/
def isConnector : Predicate V → Bool
  | .one (.one _) => false
  | _ => true

/-- `_wrap(expression, Connector)` -/
def wrap (predicate : Predicate V) : Predicate V :=
  if isConnector predicate then predicate.grouped else predicate

/-- `sqlglot.and_(*predicates)`: a single predicate is left as it is. -/
def sqlglotAnd : List (Predicate V) → Option (Predicate V)
  | [] => none
  | [predicate] => some predicate
  | first :: rest =>
    some (rest.foldl (fun this expression => this.andThen (wrap expression)) (wrap first))

def Rules.getPredicate (rules : Rules V) (node : TableNode) : Option (Predicate V) :=
  sqlglotAnd (rules.get (rules.tableOf node))

/-- `exp.And(this=predicate, expression=exp.Paren(this=condition))` as it is read from
its text, or the predicate alone. -/
def conjoin (predicate : Condition V) : Option (Condition V) → Condition V
  | none => predicate
  | some condition => predicate.andThen condition.grouped

/-- The predicate a transformer puts beside a relation of `FROM` or of a join. -/
def besidePredicate (rules : Rules V) (method : RlsMethod) : Relation V → Option (Predicate V)
  | .table node =>
    match method with
    | .asPredicate => rules.getPredicate node
    | .asSubquery => none
  | .derived _ _ => none

/-- The `WHERE` of the relation's block, or the `ON` of its join. -/
def guardCondition (rules : Rules V) (method : RlsMethod) (relation : Relation V)
    (condition : Option (Condition V)) :
    Option (Condition V) :=
  match besidePredicate rules method relation with
  | none => condition
  | some predicate => some (conjoin (qualified (some relation.name) predicate) condition)

def dottedName (node : TableNode) : String :=
  ".".intercalate ([node.catalog, node.db, node.name].filter fun part => part ≠ "")

def subqueryAlias (node : TableNode) : String :=
  if node.aliasName ≠ "" then node.aliasName else dottedName node

def replaceTable (rules : Rules V) (method : RlsMethod) (node : TableNode) : Relation V :=
  match method with
  | .asPredicate => .table node
  | .asSubquery =>
    match rules.getPredicate node with
    | none => .table node
    | some predicate =>
      .derived (subqueryAlias node)
        (.select [] .star (.table { node with aliasName := "" }) []
          (some (qualified none predicate)))

mutual
/-- `transform`, which does not descend into what replaces a table. -/
def transform (rules : Rules V) (method : RlsMethod) : Query V → Query V
  | .select ctes projection first joins condition =>
    .select (transformCtes rules method ctes) projection (transformRelation rules method first)
      (transformJoins rules method joins) (guardCondition rules method first condition)
  | .values rows => .values rows
  | .setOperation operator ctes left right =>
    .setOperation operator (transformCtes rules method ctes) (transform rules method left)
      (transform rules method right)

def transformCtes (rules : Rules V) (method : RlsMethod) : List (Cte V) → List (Cte V)
  | [] => []
  | .mk name body :: rest =>
    .mk name (transform rules method body) :: transformCtes rules method rest

def transformRelation (rules : Rules V) (method : RlsMethod) : Relation V → Relation V
  | .table node => replaceTable rules method node
  | .derived aliasName query => .derived aliasName (transform rules method query)

def transformJoins (rules : Rules V) (method : RlsMethod) : List (Join V) → List (Join V)
  | [] => []
  | .mk kind relation on :: rest =>
    .mk kind (transformRelation rules method relation) (guardCondition rules method relation on)
      :: transformJoins rules method rest
end

def applyRls (rules : Rules V) (method : RlsMethod) (query : Query V) : Query V :=
  if rules.rules.isEmpty then query else transform rules method query

structure Source (V : Type) where
  name : String
  rows : Rows V

structure Header where
  name : String
  columns : List String
deriving DecidableEq

structure Bound (V : Type) where
  header : Header
  cells : List (Option V)

def Source.header (source : Source V) : Header where
  name := source.name
  columns := source.rows.columns

def Source.bounds (source : Source V) : List (Bound V) :=
  source.rows.rows.map fun cells => { header := source.header, cells := cells }

def Header.null (header : Header) : Bound V where
  header := header
  cells := header.columns.map fun _ => none

def cellOf (columns : List String) (cells : List (Option V)) (name : String) : Option V :=
  match (columns.zip cells).find? fun entry => entry.1 = name with
  | some entry => entry.2
  | none => none

def cellIn (bound : Option (Bound V)) (name : String) : Option V :=
  match bound with
  | some bound => cellOf bound.header.columns bound.cells name
  | none => none

def resolve (env : List (Bound V)) (column : Column) : Option V :=
  match column.qualifier with
  | some qualifier => cellIn (env.find? fun bound => bound.header.name = qualifier) column.name
  | none => cellIn (env.find? fun bound => column.name ∈ bound.header.columns) column.name

def valuation (env : List (Bound V)) : Valuation (Atom V) Empty where
  atom := fun atom => atom.test (atom.columns.map (resolve env))
  compared := fun _ comparison => comparison.elim

def holds (condition : Option (Condition V)) (env : List (Bound V)) : Bool :=
  match condition with
  | none => true
  | some condition => condition.Holds (valuation env)

def resolves (headers : List Header) (column : Column) : Bool :=
  match column.qualifier with
  | some qualifier =>
    headers.any fun header => header.name = qualifier ∧ column.name ∈ header.columns
  | none => (headers.filter fun header => column.name ∈ header.columns).length = 1

def conditionResolves (headers : List Header) (condition : Option (Condition V)) : Bool :=
  match condition with
  | none => true
  | some condition => condition.atoms.all fun atom => atom.columns.all (resolves headers)

structure Joined (V : Type) where
  kind : JoinKind
  source : Source V
  on : Option (Condition V)

def JoinKind.join : JoinKind → Joins.Kind
  | .cross | .inner => .inner
  | .left => .left
  | .right => .right
  | .full => .full

def joinAll : List Header → List (List (Bound V)) → List (Joined V) → List (List (Bound V))
  | _, envs, [] => envs
  | headers, envs, joined :: rest =>
    joinAll (headers ++ [joined.source.header])
      (Joins.join (fun env bound => holds joined.on (env ++ [bound]))
        (fun env bound => env ++ [bound])
        joined.kind.join (headers.map Header.null) joined.source.header.null envs
          joined.source.bounds)
      rest

/-- Each `ON` sees the relations up to its own; a `CROSS JOIN` has none. -/
def joinsResolve : List Header → List (Joined V) → Bool
  | _, [] => true
  | headers, joined :: rest =>
    conditionResolves (headers ++ [joined.source.header]) joined.on
      && (joined.kind ≠ .cross || joined.on.isNone)
      && joinsResolve (headers ++ [joined.source.header]) rest

def projectionResolves (headers : List Header) : Projection V → Bool
  | .star => true
  | .expressions items => items.all fun item => item.columns.all (resolves headers)

def project (headers : List Header) (envs : List (List (Bound V))) : Projection V → Rows V
  | .star =>
    { columns := headers.flatMap Header.columns,
      rows := envs.map fun env => env.flatMap Bound.cells }
  | .expressions items =>
    { columns := items.map Expression.name
      rows := envs.map fun env =>
        items.map fun item => item.value (item.columns.map (resolve env)) }

structure Block (V : Type) where
  projection : Projection V
  first : Source V
  joined : List (Joined V)
  condition : Option (Condition V)

def Block.headers (block : Block V) : List Header :=
  block.first.header :: block.joined.map fun joined => joined.source.header

def Block.valid (block : Block V) : Bool :=
  (block.headers.map Header.name).Nodup
    && joinsResolve [block.first.header] block.joined
    && conditionResolves block.headers block.condition
    && projectionResolves block.headers block.projection

/-- `none` for a block that the database refuses. -/
def Block.rows (block : Block V) : Option (Rows V) :=
  if block.valid then
    let envs := joinAll [block.first.header] (block.first.bounds.map fun bound => [bound])
      block.joined
    some (project block.headers (envs.filter (holds block.condition)) block.projection)
  else none

abbrev Database (V : Type) := Table → Option (Rows V)

abbrev CteRows (V : Type) := List (String × Rows V)

def lookupCte (visible : CteRows V) (node : TableNode) : Option (Rows V) :=
  if node.db = "" ∧ node.catalog = "" then (visible.find? fun cte => cte.1 = node.name).map Prod.snd
    else none

def combine [DecidableEq V] (operator : SetOperator) (left right : Rows V) : Option (Rows V) :=
  if left.columns.length = right.columns.length then
    some
      { columns := left.columns
        rows :=
          match operator with
          | .unionAll => left.rows ++ right.rows
          | .union => (left.rows ++ right.rows).dedup
          | .intersect => (left.rows.filter fun row => row ∈ right.rows).dedup
          | .except => (left.rows.filter fun row => row ∉ right.rows).dedup }
  else none

section Eval
variable [DecidableEq V] (rules : Rules V) (db : Database V)

mutual
/-- The rows of a query; `none` for one that the database refuses. -/
def eval : CteRows V → Query V → Option (Rows V)
  | visible, .select ctes projection first joins condition =>
    match evalCtes visible ctes with
    | none => none
    | some inner =>
      match evalRelation inner first, evalJoins inner joins with
      | some first, some joined =>
        Block.rows
          { projection := projection, first := first, joined := joined, condition := condition }
      | _, _ => none
  | _, .values rows => some rows
  | visible, .setOperation operator ctes left right =>
    match evalCtes visible ctes with
    | none => none
    | some inner =>
      match eval inner left, eval inner right with
      | some left, some right => combine operator left right
      | _, _ => none

def evalCtes : CteRows V → List (Cte V) → Option (CteRows V)
  | visible, [] => some visible
  | visible, .mk name body :: rest =>
    match eval visible body with
    | none => none
    | some rows => evalCtes ((name, rows) :: visible) rest

def evalRelation : CteRows V → Relation V → Option (Source V)
  | visible, .table node =>
    match lookupCte visible node with
    | some rows => some { name := node.aliasOrName, rows := rows }
    | none => (db (rules.tableOf node)).map fun rows => { name := node.aliasOrName, rows := rows }
  | visible, .derived aliasName query =>
    (eval visible query).map fun rows => { name := aliasName, rows := rows }

def evalJoins : CteRows V → List (Join V) → Option (List (Joined V))
  | _, [] => some []
  | visible, .mk kind relation on :: rest =>
    match evalRelation visible relation, evalJoins visible rest with
    | some source, some others => some ({ kind := kind, source := source, on := on } :: others)
    | _, _ => none
end

end Eval

def ownValuation (columns : List String) (cells : List (Option V)) :
    Valuation (OwnAtom V) Empty where
  atom := fun atom => atom.test (atom.columns.map (cellOf columns cells))
  compared := fun _ comparison => comparison.elim

def satisfies (columns : List String) (cells : List (Option V)) (predicate : Predicate V) : Bool :=
  predicate.Holds (ownValuation columns cells)

def restrict (rules : Rules V) (db : Database V) : Database V := fun table =>
  (db table).map fun rows =>
    { rows with rows := rows.rows.filter fun cells => (rules.get table).all (satisfies
      rows.columns cells) }

end Liteset.Sql.RowSecurity
