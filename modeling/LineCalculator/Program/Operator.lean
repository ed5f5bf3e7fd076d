import LineCalculator.Text.Decimal

/-!
# Operators

The language has four arithmetic operators. In a tree they are stored as a
small code, so a tree that was not built by the parser may also carry a
code that means nothing; such an operator can be printed, but not applied.
-/

namespace LineCalculator

/-- An arithmetic operator. -/
inductive Operator where
  | add
  | sub
  | mul
  | div
  /-- A code without meaning. -/
  | unknown (code : Int8)
  deriving DecidableEq

namespace Operator

/-- The operator with a code. -/
def ofCode (code : Int8) : Operator :=
  if code = 1 then add
  else if code = 2 then sub
  else if code = 3 then mul
  else if code = 4 then div
  else unknown code

/-- Does the operator mean anything? -/
def isKnown : Operator → Bool
  | unknown _ => false
  | _ => true

/-- How the operator is written. -/
def symbol : Operator → Bytes
  | add => utf8 "+"
  | sub => utf8 "-"
  | mul => utf8 "*"
  | div => utf8 "/"
  | unknown code => utf8 "Op(" ++ Decimal.ofInt code.toInt ++ utf8 ")"

/-- How tightly the operator binds. -/
def precedence : Operator → Nat
  | mul | div => 2
  | add | sub => 1
  | unknown _ => 0

end Operator

end LineCalculator
