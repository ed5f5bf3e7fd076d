import LineCalculator.Program.Stmt
import LineCalculator.Text.Quoted

/-!
# Dumps of statements

At level Debug every statement is dumped before it is executed: the type of
each node, then its fields in braces. Fields that are zero, empty or missing
are left out.
-/

namespace LineCalculator.Dump

/-- The start of a node, before its fields. -/
def opening (type : String) : Bytes := utf8 "&ast." ++ utf8 type ++ utf8 "\x7b"

/-- The end of a node. -/
def closing : Bytes := utf8 "\x7d"

/-- A field, left out where it has nothing to say. -/
def field (name : String) (shown? : Option Bytes) : List Bytes :=
  match shown? with
  | some t => [utf8 name ++ utf8 ": " ++ t]
  | none => []

/-- A node with its fields. -/
def node (type : String) (fields : List Bytes) : Bytes :=
  opening type ++ Bytes.join (utf8 ", ") fields ++ closing

/-- A number, unless it is zero. -/
def number? (n : Int) : Option Bytes := if n = 0 then none else some (Decimal.ofInt n)

/-- A name, unless it is empty. -/
def name? (t : Bytes) : Option Bytes := if t.isEmpty then none else some (quoted t)

/-- Is there no expression? -/
def isMissing : Expr → Bool
  | .missing => true
  | _ => false

/-- The dump of an expression, in front of `rest`. -/
def exprOnto : Expr → (rest : Bytes) → Bytes
  | .lit n, rest => node "IntLit" (field "Value" (number? n.toInt)) ++ rest
  | .var name, rest => node "VarRef" (field "Name" (name? name)) ++ rest
  | .bin op l r, rest =>
    let right :=
      if isMissing r then closing ++ rest else utf8 ", Right: " ++ exprOnto r (closing ++ rest)
    let both := if isMissing l then right else utf8 ", Left: " ++ exprOnto l right
    opening "BinaryOp" ++ utf8 "Op: ast.Op(" ++ op.symbol ++ utf8 ")" ++ both
  | .paren x, rest =>
    let inner := if isMissing x then closing ++ rest else utf8 "X: " ++ exprOnto x (closing ++ rest)
    opening "Paren" ++ inner
  | .missing, rest => rest

/-- The dump of an expression, if there is one. -/
def expr? (x : Expr) : Option Bytes := if isMissing x then none else some (exprOnto x [])

/-- The dump of a statement. -/
def stmt : Stmt → Bytes
  | .assign name x line => node "Assign"
      (field "Name" (name? name) ++ field "Value" (expr? x) ++ field "Line" (number? line))
  | .print x line => node "PrintExpr" (field "X" (expr? x) ++ field "Line" (number? line))
  | .blank line => node "Blank" (field "Line" (number? line))
  | .missing => utf8 "nil"

end LineCalculator.Dump
