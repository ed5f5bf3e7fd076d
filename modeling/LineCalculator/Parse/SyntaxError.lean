import LineCalculator.Token

/-!
# Syntax errors

A line is refused at the first token that cannot stand where it stands, or
at an integer that does not fit into 64 bits. The error tells the line, the
column of that token counted from one, and the cause.

**Reports** are errors in words: a line, a column and a text. A list of
reports is summed up by its first one and the number of the others.
-/

namespace LineCalculator

/-- What could have stood at a place instead. -/
inductive Expectation where
  /-- The start of an operand. -/
  | operand
  /-- The end of a parenthesis. -/
  | closing
  /-- The end of the line. -/
  | endOfLine
  deriving DecidableEq

/-- What messages call the expectation. -/
def Expectation.text : Expectation → Bytes
  | .operand => utf8 "number, identifier or '('"
  | .closing => utf8 "')'"
  | .endOfLine => utf8 "end of line"

/-- Why a line is refused. -/
inductive Cause where
  /-- Something else was expected here. -/
  | unexpected (expected : Expectation)
  /-- The integer is too large. -/
  | outOfRange
  deriving DecidableEq

/-- A line refused at a token. -/
structure SyntaxError where
  /-- The number of the line. -/
  line : Int
  /-- The token at which it is refused. -/
  token : Token
  /-- Why it is refused. -/
  cause : Cause
  deriving DecidableEq

/-- An error in words. -/
structure Report where
  /-- The number of the line. -/
  line : Int
  /-- The column in the line, counted from one. -/
  column : Int
  /-- What is wrong. -/
  text : Bytes
  deriving DecidableEq

namespace Report

/-- A report as one line. -/
def message (r : Report) : Bytes :=
  utf8 "line " ++ Decimal.ofInt r.line ++ utf8 ":" ++ Decimal.ofInt r.column ++ utf8 ": " ++ r.text

/-- Several reports as one line: the first one, and how many more there are. -/
def summary : List Report → Bytes
  | [] => utf8 "no errors"
  | [r] => r.message
  | r :: more =>
    r.message ++ utf8 " (and " ++ Decimal.ofNat more.length ++ utf8 " more errors)"

end Report

namespace SyntaxError

/-- The column of the refused token, counted from one. -/
def column (e : SyntaxError) : Nat := e.token.span.start + 1

/-- What is wrong, without the place. -/
def text (e : SyntaxError) : Bytes :=
  match e.cause with
  | .unexpected expected =>
    utf8 "unexpected " ++ e.token.description ++ utf8 ", expected " ++ expected.text
  | .outOfRange => utf8 "integer literal out of range: " ++ e.token.lexeme

/-- The error in words. -/
def report (e : SyntaxError) : Report := ⟨e.line, e.column, e.text⟩

/-- The error as one line. -/
def message (e : SyntaxError) : Bytes := e.report.message

end SyntaxError

end LineCalculator
