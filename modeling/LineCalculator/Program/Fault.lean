import LineCalculator.Program.Stmt

/-!
# Faults

A fault is a defect of a tree, not of a calculation: something is missing
in it, or an operator means nothing. Parsed programs have none. A fault
stops the work on the tree that has it.
-/

namespace LineCalculator

/-- What is wrong with a tree. -/
inductive Fault where
  /-- There is no expression to evaluate. -/
  | missingExpression
  /-- There is no statement to execute. -/
  | missingStatement
  /-- The operator cannot be applied. -/
  | unknownOperator (op : Operator)
  /-- There is nothing to write or draw. -/
  | missingPart
  deriving DecidableEq

/-- The wording of a fault. -/
def Fault.message : Fault → Bytes
  | .missingExpression => utf8 "unknown expression type <nil>"
  | .missingStatement => utf8 "unknown statement type <nil>"
  | .unknownOperator op => utf8 "unknown operator " ++ op.symbol
  | .missingPart => utf8 "runtime error: invalid memory address or nil pointer dereference"

/-- A statement in writing, if it is complete. -/
def Stmt.written (s : Stmt) : Except Fault Bytes :=
  if s.isComplete then .ok s.text else .error .missingPart

end LineCalculator
