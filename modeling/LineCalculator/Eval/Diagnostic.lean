import LineCalculator.Program.Operator

/-!
# Diagnostics and events

A calculation recovers from its errors: the offending operation counts as
zero, a **diagnostic** is given, and the calculation goes on. What a program
gives to the outside is a list of **events**, printed results and
diagnostics in the order in which they happen.
-/

namespace LineCalculator

/-- An error that a calculation recovered from. -/
inductive Diagnostic where
  /-- A division by zero. -/
  | divisionByZero
  /-- A result that does not fit into 64 bits. -/
  | overflow (left : Int64) (op : Operator) (right : Int64)
  /-- A variable read before it was assigned, and the line, zero if unknown. -/
  | undefined (name : Bytes) (line : Int)
  deriving DecidableEq

/-- The wording of a diagnostic. -/
def Diagnostic.message : Diagnostic → Bytes
  | .divisionByZero => utf8 "division by zero"
  | .overflow l op r =>
    utf8 "integer overflow: " ++ Decimal.ofInt64 l ++ utf8 " " ++ op.symbol ++ utf8 " " ++
      Decimal.ofInt64 r
  | .undefined name line =>
    (if 0 < line then utf8 "line " ++ Decimal.ofInt line ++ utf8 ": " else []) ++
      utf8 "undefined variable '" ++ name ++ utf8 "'"

/-- Something that a program gives to the outside. -/
inductive Event where
  /-- A printed value. -/
  | result (value : Int64)
  /-- A recovered error. -/
  | diagnostic (d : Diagnostic)
  deriving DecidableEq

/-- Events in the order in which they happen. -/
abbrev Log := List Event

end LineCalculator
