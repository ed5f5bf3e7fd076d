import LineCalculator.Lexer.Calculator
import LineCalculator.Parse.Symbol
import LineCalculator.Parse.SyntaxError
import LineCalculator.Program.Stmt

/-!
# Reading one line

A line is a statement of the grammar

    Stmt   ::= name '=' Expr | Expr | (nothing)
    Expr   ::= Expr ('+' | '-') Term | Term
    Term   ::= Term ('*' | '/') Factor | Factor
    Factor ::= integer | name | '(' Expr ')'

Two tokens decide whether it is an assignment. The expression is then read
by a pushdown automaton in a single pass over the tokens. The automaton
waits either for an **operand** or, behind one, for an **operator**. What it
has read but cannot finish yet is kept as pending operations: at most one
between terms and one between factors at each level of parentheses, since
both kinds of operators group from the left. The levels outside the present
one are the stack.

The first token without a transition is where the line is refused, and the
state tells what was expected there.
-/

namespace LineCalculator

/-- A left operand and its operator, waiting for the right operand, if any. -/
abbrev Pending := Option (Expr × Operator)

/-- The expression, once the right operand is there. -/
def Pending.close : Pending → Expr → Expr
  | none, x => x
  | some (l, op), x => .bin op l x

/-- The pending operations of a level that is left open by a parenthesis. -/
structure Level where
  /-- Waits for a term. -/
  sum : Pending
  /-- Waits for a factor. -/
  product : Pending
  deriving DecidableEq

/-- How far the automaton has come. -/
inductive ParseState where
  /-- An operand must follow. -/
  | operand (sum product : Pending) (outer : List Level)
  /-- A term has been read; an operator may follow, or the level ends. -/
  | operator (sum : Pending) (term : Expr) (outer : List Level)
  deriving DecidableEq

namespace ParseState

/-- Nothing has been read yet. -/
def start : ParseState := operand none none []

/-- What must follow a finished level: the closing parenthesis of the level
outside of it, or the end of the line. -/
def closer : List Level → Expectation
  | [] => .endOfLine
  | _ :: _ => .closing

/-- The state behind a factor. -/
def afterFactor (sum product : Pending) (outer : List Level) (x : Expr) : ParseState :=
  operator sum (product.close x) outer

/-- One token further. -/
def step (s : ParseState) (t : Token) : Except Cause ParseState :=
  match s with
  | operand sum product outer =>
    match t.symbol with
    | .integer =>
      match t.integer? with
      | some n => .ok (afterFactor sum product outer (.lit n))
      | none => .error .outOfRange
    | .name => .ok (afterFactor sum product outer (.var t.lexeme))
    | .opening => .ok (operand none none (⟨sum, product⟩ :: outer))
    | _ => .error (.unexpected .operand)
  | operator sum term outer =>
    match t.symbol, outer with
    | .product op, _ => .ok (operand sum (some (term, op)) outer)
    | .sum op, _ => .ok (operand (some (sum.close term, op)) none outer)
    | .closing, level :: outer =>
      .ok (afterFactor level.sum level.product outer (.paren (sum.close term)))
    | _, _ => .error (.unexpected (closer outer))

/-- The expression that has been read when the line ends here. -/
def finish : ParseState → Except Cause Expr
  | operand _ _ _ => .error (.unexpected .operand)
  | operator sum term [] => .ok (sum.close term)
  | operator _ _ (_ :: _) => .error (.unexpected .closing)

/-- The expression in the rest of a line, or the token at which the line is
refused and why; `last` stands behind all tokens. -/
def run (last : Token) (s : ParseState) : List Token → Except (Token × Cause) Expr
  | [] =>
    match s.finish with
    | .ok x => .ok x
    | .error cause => .error (last, cause)
  | t :: rest =>
    match s.step t with
    | .ok s => run last s rest
    | .error cause => .error (t, cause)

end ParseState

/-- Reads an expression and makes it a statement. -/
def parseExpr (line : Int) (last : Token) (tokens : List Token) (make : Expr → Stmt) :
    Except SyntaxError Stmt :=
  match ParseState.start.run last tokens with
  | .ok x => .ok (make x)
  | .error (token, cause) => .error ⟨line, token, cause⟩

/-- Reads a statement from tokens that are followed by `last`. -/
def parseTokens (line : Int) (last : Token) : List Token → Except SyntaxError Stmt
  | [] => .ok (.blank line)
  | name :: equals :: rest =>
    if name.symbol = .name ∧ equals.symbol = .equals then
      parseExpr line last rest fun x => .assign name.lexeme x line
    else
      parseExpr line last (name :: equals :: rest) fun x => .print x line
  | [token] => parseExpr line last [token] fun x => .print x line

/-- Reads one line. -/
def parseLine (text : Bytes) (line : Int) : Except SyntaxError Stmt :=
  parseTokens line (Token.atEnd text.length) (Calculator.tokens text)

end LineCalculator
