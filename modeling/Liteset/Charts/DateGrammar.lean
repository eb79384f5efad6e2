import Liteset.Lib.Peg
import Liteset.Lib.PyText

/-!
# Time-range phrases and the date grammar

The phrase patterns of `get_since_until`, the `handle_*` functions that rewrite a phrase, and the
grammar of `datetime_parser`, of `superset/utils/date.py`.  A text is a list of characters.  What
`pyparsing` reads for one token is a parameter.
-/

set_option autoImplicit false

namespace Liteset.Charts.Dates

open Lib Lib.Peg

local instance instLawfulBEqText : LawfulBEq (List Char) := inferInstance

abbrev Text := List Char

/-- The small letter of the patterns that a character matches under `re.IGNORECASE`. -/
def fold (c : Char) : Char :=
  if c = '\u0130' ∨ c = '\u0131' then 'i' else if c = '\u017f' then 's' else if c = '\u212a'
    then 'k' else c.toLower

/-- `str.lower` of the letters that the patterns match. -/
def lower (text : Text) : Text :=
  text.flatMap fun c => if c = '\u0130' then ['i', '\u0307'] else if c = '\u212a' then ['k']
    else [c.toLower]

def upperChar (c : Char) : Char := if c = '\u0131' then 'I' else if c = '\u017f' then 'S'
    else c.toUpper

/-- `str.upper`, as far as it yields letters of the keywords. -/
def upper (text : Text) : Text := text.map upperChar

inductive Keyword where
  | datetime
  | dateadd
  | datediff
  | datetrunc
  | lastday
  | holiday
  | year
  | quarter
  | month
  | week
  | day
  | hour
  | minute
  | second
  deriving DecidableEq

def Keyword.word : Keyword → Text
  | .datetime => ['d', 'a', 't', 'e', 't', 'i', 'm', 'e']
  | .dateadd => ['d', 'a', 't', 'e', 'a', 'd', 'd']
  | .datediff => ['d', 'a', 't', 'e', 'd', 'i', 'f', 'f']
  | .datetrunc => ['d', 'a', 't', 'e', 't', 'r', 'u', 'n', 'c']
  | .lastday => ['l', 'a', 's', 't', 'd', 'a', 'y']
  | .holiday => ['h', 'o', 'l', 'i', 'd', 'a', 'y']
  | .year => ['y', 'e', 'a', 'r']
  | .quarter => ['q', 'u', 'a', 'r', 't', 'e', 'r']
  | .month => ['m', 'o', 'n', 't', 'h']
  | .week => ['w', 'e', 'e', 'k']
  | .day => ['d', 'a', 'y']
  | .hour => ['h', 'o', 'u', 'r']
  | .minute => ['m', 'i', 'n', 'u', 't', 'e']
  | .second => ['s', 'e', 'c', 'o', 'n', 'd']

inductive Token where
  | keyword (name : Keyword)
  | mark (c : Char)
  | quotedString
  | signedInteger
  deriving DecidableEq

inductive Func where
  | datetime
  | dateadd
  | datetrunc
  | lastday
  | holiday
  | datediff
  deriving DecidableEq

def Func.keyword : Func → Keyword
  | .datetime => .datetime
  | .dateadd => .dateadd
  | .datetrunc => .datetrunc
  | .lastday => .lastday
  | .holiday => .holiday
  | .datediff => .datediff

abbrev Grammar := Expr Token Func

def lparen : Grammar := .token (.mark '(')

def rparen : Grammar := .token (.mark ')')

def comma : Grammar := .token (.mark ',')

def textOperand : Grammar := .token .quotedString

def dateExpr : Grammar :=
  .first [.rule .datetime, .rule .dateadd, .rule .datetrunc, .rule .lastday, .rule .holiday]

def intOperand : Grammar := .first [.token .signedInteger, .rule .datediff]

def keywords (names : List Keyword) : Grammar :=
  .first (names.map fun name => .token (.keyword name))

def units : List Keyword := [.year, .quarter, .month, .week, .day, .hour, .minute, .second]

def lastdayUnits : List Keyword := [.year, .month, .week]

def arguments : Func → List Grammar
  | .datetime => [textOperand]
  | .dateadd => [.seq [dateExpr, comma, intOperand, comma, keywords units, .optional comma]]
  | .datetrunc => [.seq [dateExpr, comma, keywords units, .optional comma]]
  | .lastday => [.seq [dateExpr, comma, keywords lastdayUnits, .optional comma]]
  | .holiday =>
    [.seq [textOperand, .optional comma, .optional dateExpr, .optional comma, .optional textOperand,
      .optional comma]]
  | .datediff =>
    [.seq [dateExpr, comma, dateExpr,
      .optional (.seq [comma, keywords [.year, .day], .optional comma])]]

def rules (func : Func) : Grammar :=
  .seq ([.token (.keyword func.keyword), lparen] ++ arguments func ++ [rparen])

/-- The parser that `datetime_parser` returns. -/
def datetimeParser : Grammar := .first [dateExpr, .rule .datediff]

def isWhite (c : Char) : Bool := c = ' ' || c = '\n' || c = '\t' || c = '\r'

/-- The letters of `Keyword.DEFAULT_KEYWORD_CHARS`, in either case. -/
def isWordChar (c : Char) : Bool :=
  let u := upperChar c; u.isUpper || u.isDigit || u = '_' || u = '$'

/-- `\d` of a pattern. -/
def isDecimal (c : Char) : Bool := (PyText.decimal c).isSome

def isPlain (c : Char) : Bool := c ≠ '\'' && c ≠ '\\' && c ≠ '\n' && c ≠ '\r'

/-- What is documented of `CaselessKeyword`, `Suppress`, `quotedString` and
`signed_integer`.  A keyword of the grammar always comes after a mark, a quote or white
space. -/
structure Pyparsing (read : Token → Text → Option Text) : Prop where
  white : ∀ token c text, isWhite c = true → read token (c :: text) = read token text
  keyword : ∀ name text, text.head?.any isWhite = false → read (.keyword name) text =
    if upper (text.take name.word.length) = upper name.word ∧
      (text.drop name.word.length).head?.any isWordChar = false
    then some (text.drop name.word.length) else none
  mark : ∀ c other text, isWhite other = false → read (.mark c) (other :: text) = if other = c
    then some text else none
  quotedString : ∀ inside text, (∀ c ∈ inside, isPlain c = true) → text.head? ≠ some '\'' →
    read .quotedString ('\'' :: (inside ++ '\'' :: text)) = some text
  signedInteger : ∀ digits text, digits ≠ [] → (∀ c ∈ digits, isDecimal c = true) →
    text.head?.any isDecimal = false →
    read .signedInteger (digits ++ text) = some text ∧
    read .signedInteger ('-' :: (digits ++ text)) = some text

/-- `parseString` raises no `ParseException`. -/
def Accepts (read : Token → Text → Option Text) (expression : Text) : Prop :=
  ∃ rest, Parses read rules datetimeParser expression (some rest)

def granularUnits : List Text := [Keyword.second, .minute, .hour].map Keyword.word

def broadUnits : List Text := [Keyword.day, .week, .month, .quarter, .year].map Keyword.word

def getRelativeBase (unit : Text) (relativeStart : Option Text) : Except Text Text :=
  match relativeStart with
  | some start => .ok start
  | none =>
    if lower unit ∈ granularUnits then .ok "now".toList
    else if lower unit ∈ broadUnits then .ok "today".toList
    else .error ("Unknown unit: ".toList ++ unit)

def validUnits : List Text := [Keyword.year, .quarter, .month, .week, .day].map Keyword.word

def handleStartOf (baseExpression unit : Text) : Except Text Text :=
  if unit ∈ validUnits
    then .ok ("DATETRUNC(".toList ++ baseExpression ++ ", ".toList ++ unit ++ ")".toList)
  else .error ("Invalid unit for 'start of': ".toList ++ unit)

def handleEndOf (baseExpression unit : Text) : Except Text Text :=
  if unit ∈ validUnits
    then .ok ("LASTDAY(".toList ++ baseExpression ++ ", ".toList ++ unit ++ ")".toList)
  else .error ("Invalid unit for 'end of': ".toList ++ unit)

/-- `int(delta) if delta else 1`; the number has at most 4300 digits. -/
def readDelta : Option Text → Except Text Nat
  | none => .ok 1
  | some digits =>
    match PyText.int (String.ofList digits) with
    | some n => .ok n
    | none => .error "Exceeds the limit (4300 digits) for integer string conversion".toList

def dateAdd (relativeBase sign : Text) (delta : Nat) (unit : Text) : Text :=
  "DATEADD(DATETIME('".toList ++ relativeBase ++ "'), ".toList ++ sign ++ Nat.toDigits 10 delta ++
    ", ".toList ++ unit ++ ")".toList

def handleScopeAndUnit (scope : Text) (delta : Option Text) (unit relativeBase : Text) :
    Except Text Text := do
  let n ← readDelta delta
  if lower scope = "this".toList then .ok ("DATETIME('".toList ++ relativeBase ++ "')".toList)
  else if lower scope ∈ ["last".toList, "prior".toList]
    then .ok (dateAdd relativeBase "-".toList n unit)
  else if lower scope = "next".toList then .ok (dateAdd relativeBase [] n unit)
  else .error ("Invalid scope: ".toList ++ scope)

def handleModifierAndUnit (modifier scope : Text) (delta : Option Text) (unit relativeBase : Text) :
    Except Text Text := do
  let baseExpression ← handleScopeAndUnit scope delta unit relativeBase
  if lower modifier ∈ ["start of".toList, "beginning of".toList]
    then handleStartOf baseExpression (lower unit)
  else if lower modifier = "end of".toList then handleEndOf baseExpression (lower unit)
  else .error ("Unknown modifier: ".toList ++ modifier)

/-- `(first|second|…)` -/
abbrev OneOf (words : List Text) (text : Text) : Prop := text.map fold ∈ words

def scopes : List Text := ["this".toList, "last".toList, "next".toList, "prior".toList]

/-- `(this|last|next|prior)\s+([0-9]+)?\s*(unit|…)s?$`, with its groups. -/
structure ScopePattern (names : List Keyword) (text scope : Text) (delta : Option Text)
    (unit : Text) : Prop where
  scope_matches : OneOf scopes scope
  unit_matches : OneOf (names.map Keyword.word) unit
  digits : ∀ number ∈ delta, number ≠ [] ∧ ∀ c ∈ number, c.isDigit = true
  parts : ∃ before after plural,
    text = scope ++ before ++ delta.getD [] ++ after ++ unit ++ plural ∧
    before ≠ [] ∧ before.all PyText.isspace = true ∧ after.all PyText.isspace = true ∧
    OneOf [[], ['s']] plural

def modifiers : List Text := ["start of".toList, "beginning of".toList, "end of".toList]

/-- The first pattern of `time_range_lookup`. -/
def StartOrEnd (text modifier scope : Text) (delta : Option Text) (unit : Text) : Prop :=
  OneOf modifiers modifier ∧
    ∃ before phrase, text = modifier ++ before ++ phrase ∧ before ≠ [] ∧
    before.all PyText.isspace = true ∧
      ScopePattern [.day, .week, .month, .quarter, .year] phrase scope delta unit

def Relative : Text → Text → Option Text → Text → Prop :=
  ScopePattern [.second, .minute, .day, .week, .month, .quarter, .year]

def startOrEnd (relativeStart : Option Text) (modifier scope : Text) (delta : Option Text)
    (unit : Text) : Except Text Text := do
  handleModifierAndUnit modifier scope delta unit (← getRelativeBase unit relativeStart)

def relative (relativeStart : Option Text) (scope : Text) (delta : Option Text) (unit : Text) :
    Except Text Text := do
  handleScopeAndUnit scope delta unit (← getRelativeBase unit relativeStart)

end Liteset.Charts.Dates
