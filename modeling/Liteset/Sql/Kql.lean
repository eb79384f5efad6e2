import Liteset.Lib.PyText

/-!
# Tokens and statements of a KQL script

`tokenize_kql` looks for the quotes and triple backticks of string literals, and classifies the
text between them.  `split_kql` cuts a script at the semicolons among the tokens.
-/

set_option autoImplicit false

namespace Liteset.Sql.Kql

open Lib

abbrev Text := List Char

inductive KQLSplitState where
  | outsideString
  | insideSingleQuotedString
  | insideDoubleQuotedString
  | insideMultilineString
deriving DecidableEq, Repr

inductive KQLTokenType where
  | string
  | word
  | number
  | semicolon
  | whitespace
  | other
deriving DecidableEq, Repr

structure Token where
  type : KQLTokenType
  text : Text
deriving DecidableEq, Repr

def concat (tokens : List Token) : Text := tokens.flatMap Token.text

def isWordStart (c : Char) : Bool := c.isAlpha || c = '_'

def isWordChar (c : Char) : Bool := c.isAlphanum || c = '_'

def isDecimal (c : Char) : Bool := (PyText.decimal c).isSome

/-- The type of the match of `[A-Za-z_][A-Za-z_0-9]*|\d+|\s+|.` that starts with a character. -/
def typeOf (first : Char) : KQLTokenType :=
  if isWordStart first then .word
  else if isDecimal first then .number
  else if PyText.isspace first then .whitespace
  else if first = ';' then .semicolon
  else if PyText.isDigitChar first then .number
  else .other

def continues (first c : Char) : Bool :=
  if isWordStart first then isWordChar c
  else if isDecimal first then isDecimal c
  else PyText.isspace first && PyText.isspace c

/-- `first :: run` is the match so far. -/
def classifyFrom (first : Char) (run : Text) : Text → List Token
  | [] => [⟨typeOf first, first :: run⟩]
  | c :: text =>
    if continues first c then classifyFrom first (run ++ [c]) text
    else ⟨typeOf first, first :: run⟩ :: classifyFrom c [] text

def classifyNonStringKql : Text → List Token
  | [] => []
  | c :: text => classifyFrom c [] text

/-- The state after a character; `p` and `q` are the two characters before it. -/
def nextState (state : KQLSplitState) (p q : Option Char) (ch : Char) : KQLSplitState :=
  match state with
  | .outsideString =>
    if ch = '\'' then .insideSingleQuotedString
    else if ch = '"' then .insideDoubleQuotedString
    else if ch = '`' ∧ p = some '`' ∧ q = some '`' then .insideMultilineString
    else .outsideString
  | .insideSingleQuotedString => if ch = '\'' ∧ q ≠ some '\\' then .outsideString else state
  | .insideDoubleQuotedString => if ch = '"' ∧ q ≠ some '\\' then .outsideString else state
  | .insideMultilineString =>
    if ch = '`' ∧ p = some '`' ∧ q = some '`' then .outsideString else state

def tokenizeFrom (state : KQLSplitState) (buffer : Text) (p q : Option Char) : Text → List Token
  | [] => classifyNonStringKql buffer
  | ch :: text =>
    match state, nextState state p q ch with
    | .outsideString, .outsideString =>
      tokenizeFrom .outsideString (buffer ++ [ch]) q (some ch) text
    -- the buffer is replaced, whatever it holds before the backticks
    | .outsideString, .insideMultilineString =>
      tokenizeFrom .insideMultilineString ['`', '`', '`'] q (some ch) text
    | .outsideString, next => classifyNonStringKql buffer ++ tokenizeFrom next [ch] q (some ch) text
    | _, .outsideString =>
      ⟨.string, buffer ++ [ch]⟩ :: tokenizeFrom .outsideString [] q (some ch) text
    | state, _ => tokenizeFrom state (buffer ++ [ch]) q (some ch) text

def tokenizeKql (kql : Text) : List Token := tokenizeFrom .outsideString [] none none kql

def splitTokens (current : List Token) : List Token → List (List Token)
  | [] => if current = [] then [] else [current]
  | token :: tokens =>
    if token.type = .semicolon then
      if current = [] then splitTokens [] tokens else current :: splitTokens [] tokens
    else splitTokens (current ++ [token]) tokens

def splitKql (kql : Text) : List Text := (splitTokens [] (tokenizeKql kql)).map concat

example : splitKql "a; print 'b;\\';';;c".toList = ["a".toList, " print 'b;\\';'".toList,
  "c".toList] := by decide

end Liteset.Sql.Kql
