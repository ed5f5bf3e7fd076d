import LineCalculator.Token
import LineCalculator.Program.Operator

/-!
# Symbols of the grammar

The grammar does not distinguish all tokens: it knows integers, names, the
two levels of operators, the two parentheses and the equals sign. Every
other token is foreign to it.
-/

namespace LineCalculator

/-- What the grammar sees in a token. -/
inductive Symbol where
  /-- An integer. -/
  | integer
  /-- A name. -/
  | name
  /-- An operator between terms. -/
  | sum (op : Operator)
  /-- An operator between factors. -/
  | product (op : Operator)
  /-- An opening parenthesis. -/
  | opening
  /-- A closing parenthesis. -/
  | closing
  /-- The sign of an assignment. -/
  | equals
  /-- Anything else. -/
  | foreign
  deriving DecidableEq

/-- The symbol of a kind. -/
def Kind.symbol (k : Kind) : Symbol :=
  if k = .integer then .integer
  else if k = .identifier then .name
  else if k = .ofByte 43 then .sum .add
  else if k = .ofByte 45 then .sum .sub
  else if k = .ofByte 42 then .product .mul
  else if k = .ofByte 47 then .product .div
  else if k = .ofByte 40 then .opening
  else if k = .ofByte 41 then .closing
  else if k = .ofByte 61 then .equals
  else .foreign

/-- The symbol of a token. -/
def Token.symbol (t : Token) : Symbol := t.kind.symbol

/-- The integer that a token of digits stands for, if it fits into 64 bits. -/
def Token.integer? (t : Token) : Option Int64 :=
  let n := Decimal.value t.lexeme
  if (n : Int) ≤ Int64.maxValue.toInt then some (Int64.ofNat n) else none

end LineCalculator
