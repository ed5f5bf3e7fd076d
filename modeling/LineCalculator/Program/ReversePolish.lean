import LineCalculator.Program.Expr

/-!
# Reverse Polish notation

A tree of any shape, also one that the grammar cannot express, has a linear
form without parentheses: operands first, then what is done with them.

| word | meaning |
|---|---|
| `#N` | the integer N |
| `$name` | the variable with this name |
| `+` `-` `*` `/` | operator on the two expressions before it |
| `op:K` | operator with code K, cut to eight bits |
| `()` | parentheses around the expression before it |
| `nil` | a missing expression |
-/

namespace LineCalculator

namespace Expr

/-- The word for an operator. -/
def operatorWord : Operator → Bytes
  | .unknown code => utf8 "op:" ++ Decimal.ofInt code.toInt
  | op => op.symbol

/-- The words of an expression, in front of `rest`. -/
def wordsOnto : Expr → (rest : List Bytes) → List Bytes
  | lit n, rest => (35 :: Decimal.ofInt64 n) :: rest
  | var name, rest => (36 :: name) :: rest
  | bin op l r, rest => l.wordsOnto (r.wordsOnto (operatorWord op :: rest))
  | paren x, rest => x.wordsOnto (utf8 "()" :: rest)
  | missing, rest => utf8 "nil" :: rest

/-- The words of an expression. -/
def words (x : Expr) : List Bytes := x.wordsOnto []

/-- The operator that a word stands for. -/
def operator? (word : Bytes) : Option Operator :=
  if word = utf8 "+" then some .add
  else if word = utf8 "-" then some .sub
  else if word = utf8 "*" then some .mul
  else if word = utf8 "/" then some .div
  else if word.take 3 = utf8 "op:" then
    (Decimal.int64? (word.drop 3)).map fun n => .ofCode (Int8.ofInt n.toInt)
  else none

/-- The expressions read so far, the last one first, after one more word. -/
def readWord (stack : List Expr) (word : Bytes) : Option (List Expr) :=
  match word with
  | 35 :: digits => (Decimal.int64? digits).map fun n => lit n :: stack
  | 36 :: name => some (var name :: stack)
  | _ =>
    if word = utf8 "nil" then some (missing :: stack)
    else if word = utf8 "()" then
      match stack with
      | x :: below => some (paren x :: below)
      | [] => none
    else
      match operator? word, stack with
      | some op, r :: l :: below => some (bin op l r :: below)
      | _, _ => none

/-- The expression that the words stand for, if they stand for exactly one. -/
def ofWords? (ws : List Bytes) : Option Expr :=
  match ws.foldlM readWord [] with
  | some [x] => some x
  | _ => none

end Expr

end LineCalculator
