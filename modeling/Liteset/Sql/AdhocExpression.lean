import Mathlib.Logic.Basic
import Liteset.Lib.Tree

/-!
# Ad-hoc SQL expressions

`_process_select_expression` and `_process_orderby_expression` of
`models/helpers.py` wrap the text of an ad-hoc column, metric, filter or
ordering into a dummy statement, refuse it when `has_subquery()` holds, and cut
the dummy prefix off again.  The statement is sqlglot's tree: a class at every
node and the arguments below it.  Parsing and generation are sqlglot's own and
are parameters here.
-/

set_option autoImplicit false

namespace Liteset.Sql

open Liteset.Lib

inductive Kind where
  | select
  | union
  | except
  | intersect
  | subquery
  | table
  | other (className : String)
  deriving DecidableEq, Repr

abbrev Ast := Lib.Tree Kind

def hasSubquery (parsed : Ast) : Bool :=
  (parsed.nodes.any fun e => e.label = .subquery) ||
    (parsed.label = .select &&
      (parsed.nodes.filter fun e => e ≠ parsed).any fun e => e.label = .select)

/-- `str.isspace`, which is also what `\s` matches. -/
def isSpace (c : Char) : Bool :=
  c ∈ [' ', '\t', '\n', '\r', '\x0b', '\x0c', '\x1c', '\x1d', '\x1e', '\x1f', '\x85', '\xa0',
    '\u1680', '\u2028', '\u2029', '\u202f', '\u205f', '\u3000'] ||
    ('\u2000' ≤ c && c ≤ '\u200a')

def strip (text : List Char) : List Char :=
  ((text.dropWhile isSpace).reverse.dropWhile isSpace).reverse

/-- The rest of the text after a keyword, read with `re.IGNORECASE`: the long s
folds to `S`. -/
def afterKeyword : List Char → List Char → Option (List Char)
  | [], text => some text
  | _ :: _, [] => none
  | k :: keyword, c :: text =>
    if c.toUpper = k || (k = 'S' && c = '\u017f') then afterKeyword keyword text else none

/-- The rest of the text after `\s+`. -/
def afterSpaces : List Char → Option (List Char)
  | [] => none
  | c :: text => if isSpace c then some (text.dropWhile isSpace) else none

/-- A match of `SELECT\s+` at the head of the text. -/
def matchSelect (text : List Char) : Option (List Char) :=
  (afterKeyword "SELECT".toList text).bind afterSpaces

/-- A match of `ORDER\s+BY` at the head of the text. -/
def matchOrderBy (text : List Char) : Option (List Char) :=
  ((afterKeyword "ORDER".toList text).bind afterSpaces).bind (afterKeyword "BY".toList)

/-- `re.split(pattern, text, maxsplit=1)` when the pattern occurs. -/
def splitOnce (matchHead : List Char → Option (List Char)) :
    List Char → Option (List Char × List Char)
  | [] => (matchHead []).map fun rest => ([], rest)
  | c :: text =>
    match matchHead (c :: text) with
    | some rest => some ([], rest)
    | none => (splitOnce matchHead text).map fun parts => (c :: parts.1, parts.2)

/-- sqlglot for one engine. `parse` is `SQLStatement(text)._parsed`, `none` when
it raises; `format` is the pretty form and `generate` the plain one without
comments. -/
structure Sqlglot where
  parse : String → Option Ast
  format : Ast → String
  generate : Ast → String

inductive AdhocError where
  | supersetParseError (statement : String)
  | adhocSubqueryNotAllowed (message : String)
  | queryObjectValidationError (message : String)
  | valueError
  deriving DecidableEq, Repr

section Process
variable (glot : Sqlglot) (allowAdhocSubquery : Bool) (applyRls : Ast → Ast)

def validateAdhocSubquery (sql : String) : Except AdhocError String :=
  match glot.parse sql with
  | none => .error (.supersetParseError sql)
  | some parsed =>
    if hasSubquery parsed then
      if allowAdhocSubquery then .ok (glot.format (applyRls parsed))
      else .error (.adhocSubqueryNotAllowed "Custom SQL fields cannot contain sub-queries.")
    else .ok (glot.format parsed)

/-- `sanitize_clause`, with the exception `_process_sql_expression` makes of its own. -/
def sanitizeClause (clause : String) : Except AdhocError String :=
  match glot.parse clause with
  | none => .error (.queryObjectValidationError ("Invalid SQL clause: " ++ clause))
  | some parsed => .ok (glot.generate parsed)

/-- `render` is the template processor's `process_template`, if there is one. -/
def processSqlExpression (render : Option (String → String)) (expression : String) :
    Except AdhocError String :=
  let expression := if expression = "" then expression else (render.getD id) expression
  if expression = "" then .ok expression
  else
    match validateAdhocSubquery glot allowAdhocSubquery applyRls expression with
    | .error e => .error e
    | .ok validated => sanitizeClause glot validated

inductive Wrapper where
  | select
  | orderBy
  deriving DecidableEq, Repr

def Wrapper.dummy : Wrapper → String
  | .select => "SELECT "
  | .orderBy => "SELECT 1 ORDER BY "

def Wrapper.matchHead : Wrapper → List Char → Option (List Char)
  | .select => matchSelect
  | .orderBy => matchOrderBy

def processWrapped (wrapper : Wrapper) (render : Option (String → String))
    (expression : Option String) : Except AdhocError (Option String) :=
  let expression := expression.getD ""
  let wrapped := if expression = "" then expression else wrapper.dummy ++ expression
  match processSqlExpression glot allowAdhocSubquery applyRls render wrapped with
  | .error e => .error e
  | .ok processed =>
    if processed = "" then .ok none
    else
      match splitOnce wrapper.matchHead processed.toList with
      | none => .error .valueError
      | some parts => .ok (some (String.ofList (strip parts.2)))

def processSelectExpression (render : Option (String → String)) (expression : Option String) :
    Except AdhocError (Option String) :=
  processWrapped glot allowAdhocSubquery applyRls .select render expression

def processOrderbyExpression (render : Option (String → String)) (expression : Option String) :
    Except AdhocError (Option String) :=
  processWrapped glot allowAdhocSubquery applyRls .orderBy render expression

end Process

end Liteset.Sql
