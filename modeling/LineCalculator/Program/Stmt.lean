import LineCalculator.Program.Expr

/-!
# Statements and programs

A statement is what one line of a program says: it assigns the value of an
expression to a variable, prints the value of an expression, or is blank.
It remembers its line; line zero stands for a statement of unknown origin.
A program is a list of statements, written one per line.
-/

namespace LineCalculator

/-- What one line says. -/
inductive Stmt where
  /-- Give a variable a value. -/
  | assign (name : Bytes) (value : Expr) (line : Int)
  /-- Print a value. -/
  | print (value : Expr) (line : Int)
  /-- Do nothing. -/
  | blank (line : Int)
  /-- Nothing where a statement should be. -/
  | missing
  deriving DecidableEq

/-- Statements in the order of their execution. -/
abbrev Program := List Stmt

namespace Stmt

/-- The line that the statement stems from, zero if unknown. -/
def line : Stmt → Int
  | assign _ _ n => n
  | print _ n => n
  | blank n => n
  | missing => 0

/-- The same statement on another line. -/
def onLine (n : Int) : Stmt → Stmt
  | assign name x _ => assign name x n
  | print x _ => print x n
  | blank _ => blank n
  | missing => missing

/-- The expression of the statement, if it has one. -/
def expr? : Stmt → Option Expr
  | assign _ x _ => some x
  | print x _ => some x
  | blank _ => none
  | missing => none

/-- Is nothing missing in the statement? -/
def isComplete : Stmt → Bool
  | assign _ x _ => x.isComplete
  | print x _ => x.isComplete
  | blank _ => true
  | missing => false

/-- Is nothing missing, and does every operator mean something? -/
def isWellFormed : Stmt → Bool
  | assign _ x _ => x.isWellFormed
  | print x _ => x.isWellFormed
  | blank _ => true
  | missing => false

/-- How a statement is written. -/
def text : Stmt → Bytes
  | assign name x _ => name ++ utf8 " = " ++ x.text
  | print x _ => x.text
  | blank _ => []
  | missing => []

end Stmt

namespace Program

/-- How a program is written: one statement per line. -/
def text (p : Program) : Bytes := p.flatMap fun s => s.text ++ [Byte.newline]

end Program

end LineCalculator
