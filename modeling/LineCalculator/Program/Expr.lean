import LineCalculator.Program.Operator

/-!
# Expressions

An expression is a tree of literals, variables, binary operations and
parentheses. Parentheses are kept in the tree although they do not change
the value, so that a parsed expression is written back as it was read. A
tree built by other means than parsing may have a missing part.

Writing adds parentheses around an operand where precedence, or grouping
from the left, would otherwise change the meaning: around an operand that
binds less tightly than the operator, and around a right operand that binds
just as tightly.

## Main results

* `textOnto_eq` — writing in front of something does not change what is written.
* `text_bin`, `text_paren` — the text of a tree from the texts of its parts.
-/

namespace LineCalculator

/-- An integer-valued expression. -/
inductive Expr where
  /-- An integer. -/
  | lit (value : Int64)
  /-- A variable. -/
  | var (name : Bytes)
  /-- An operator between two operands. -/
  | bin (op : Operator) (left right : Expr)
  /-- An expression in parentheses. -/
  | paren (inner : Expr)
  /-- Nothing where an expression should be. -/
  | missing
  deriving DecidableEq

namespace Expr

/-- Is nothing missing in the tree? -/
def isComplete : Expr → Bool
  | lit _ => true
  | var _ => true
  | bin _ l r => l.isComplete && r.isComplete
  | paren x => x.isComplete
  | missing => false

/-- Is nothing missing, and does every operator mean something? -/
def isWellFormed : Expr → Bool
  | lit _ => true
  | var _ => true
  | bin op l r => op.isKnown && l.isWellFormed && r.isWellFormed
  | paren x => x.isWellFormed
  | missing => false

/-- A text in parentheses. -/
def parenthesized (t : Bytes) : Bytes := utf8 "(" ++ t ++ utf8 ")"

/-- Does this left operand of an operator need parentheses? -/
def bracedOnLeft (op : Operator) : Expr → Bool
  | bin inner _ _ => inner.precedence < op.precedence
  | _ => false

/-- Does this right operand of an operator need parentheses? -/
def bracedOnRight (op : Operator) : Expr → Bool
  | bin inner _ _ => inner.precedence ≤ op.precedence
  | _ => false

/-- An expression in writing, in front of `rest`. No part of the text is
copied on the way, so deep trees are written in linear time. -/
def textOnto : Expr → (rest : Bytes) → Bytes
  | lit n, rest => Decimal.ofInt64 n ++ rest
  | var name, rest => name ++ rest
  | bin op l r, rest =>
    let right := if r.bracedOnRight op then 40 :: r.textOnto (41 :: rest) else r.textOnto rest
    let both := 32 :: op.symbol ++ 32 :: right
    if l.bracedOnLeft op then 40 :: l.textOnto (41 :: both) else l.textOnto both
  | paren x, rest => 40 :: x.textOnto (41 :: rest)
  | missing, rest => rest

/-- How an expression is written. -/
def text (x : Expr) : Bytes := x.textOnto []

/-! ## How each kind of expression is written -/

theorem textOnto_append (x : Expr) (s t : Bytes) : x.textOnto (s ++ t) = x.textOnto s ++ t := by
  induction x generalizing s t with
  | lit n => simp [textOnto]
  | var name => simp [textOnto]
  | bin op l r ihl ihr =>
      simp only [textOnto]
      split <;> split <;> simp only [← List.cons_append, ← List.append_assoc, ihl, ihr]
  | paren x ih => simp only [textOnto, ← List.cons_append, ih]
  | missing => rfl

/-- Writing in front of something does not change what is written. -/
theorem textOnto_eq (x : Expr) (rest : Bytes) : x.textOnto rest = x.text ++ rest :=
  x.textOnto_append [] rest

theorem text_lit (n : Int64) : (lit n).text = Decimal.ofInt64 n := List.append_nil _

theorem text_var (name : Bytes) : (var name).text = name := List.append_nil _

theorem text_bin (op : Operator) (l r : Expr) : (bin op l r).text =
    (if l.bracedOnLeft op then parenthesized l.text else l.text) ++
      utf8 " " ++ op.symbol ++ utf8 " " ++
      (if r.bracedOnRight op then parenthesized r.text else r.text) := by
  have hopen : utf8 "(" = [40] := rfl
  have hclose : utf8 ")" = [41] := rfl
  have hblank : utf8 " " = [32] := rfl
  rw [text, textOnto]
  split <;> split <;> simp [parenthesized, textOnto_eq, hopen, hclose, hblank]

theorem text_paren (x : Expr) : (paren x).text = parenthesized x.text := by
  have hopen : utf8 "(" = [40] := rfl
  have hclose : utf8 ")" = [41] := rfl
  rw [text, textOnto, textOnto_eq]
  simp [parenthesized, hopen, hclose]

end Expr

end LineCalculator
