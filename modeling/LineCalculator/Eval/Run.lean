import LineCalculator.Eval.Arithmetic
import LineCalculator.Eval.Diagnostic
import LineCalculator.Eval.Store
import LineCalculator.Program.Fault

/-!
# Evaluation

An expression is evaluated against a store, the left operand before the
right one. Evaluation changes no variable. It collects diagnostics, and it
ends in a value, or in a fault if the tree is broken; diagnostics from
before the fault stay.

A statement is executed by evaluating its expression and then, all at once,
assigning a variable or printing a result. A program executes its
statements in order and stops at the first fault.

Two options make evaluation stricter. With `strict`, reading a variable that
was never assigned gives a diagnostic; the value is zero either way. With
`checked`, an operation whose result does not fit into 64 bits gives a
diagnostic and counts as zero, instead of wrapping around.
-/

namespace LineCalculator

/-- How strictly programs are evaluated. -/
structure Options where
  /-- Report variables that were never assigned. -/
  strict : Bool := false
  /-- Report results that do not fit into 64 bits. -/
  checked : Bool := false
  deriving DecidableEq

/-- A change of one option. -/
inductive Setting where
  | strict (on : Bool)
  | checked (on : Bool)
  deriving DecidableEq

namespace Options

/-- The options after one change. -/
def apply (o : Options) : Setting → Options
  | .strict on => { o with strict := on }
  | .checked on => { o with checked := on }

/-- The options after changes in order, starting with none set. -/
def ofSettings (settings : List Setting) : Options := settings.foldl apply {}

end Options

/-- How an evaluation ended, and the diagnostics it gave. -/
structure Evaluation where
  /-- The diagnostics, in order. -/
  log : List Diagnostic
  /-- The value, unless there was a fault. -/
  result : Except Fault Int64

namespace Evaluation

/-- A value, without diagnostics. -/
def ofValue (n : Int64) : Evaluation := ⟨[], .ok n⟩

/-- Goes on with the value, if there is one. -/
def andThen (e : Evaluation) (f : Int64 → Evaluation) : Evaluation :=
  match e.result with
  | .ok n => ⟨e.log ++ (f n).log, (f n).result⟩
  | .error fault => ⟨e.log, .error fault⟩

end Evaluation

/-- Applies an operator under the options. Division by zero comes first; what
overflows counts as zero only if it is checked. -/
def Operator.evaluate (o : Options) (op : Operator) (l r : Int64) : Evaluation :=
  if op = .div ∧ r = 0 then ⟨[.divisionByZero], .ok 0⟩
  else
    match op.compute l r with
    | none => ⟨[], .error (.unknownOperator op)⟩
    | some c =>
      if c.wrapped && o.checked then ⟨[.overflow l op r], .ok 0⟩ else .ofValue c.value

/-- Reads a variable under the options. -/
def Store.read (o : Options) (s : Store) (line : Int) (name : Bytes) : Evaluation :=
  if o.strict && s.isKnownUnbound name then ⟨[.undefined name line], .ok (s.value name)⟩
  else .ofValue (s.value name)

/-- Evaluates an expression in a line. -/
def Expr.evaluate (o : Options) (s : Store) (line : Int) : Expr → Evaluation
  | .lit n => .ofValue n
  | .var name => s.read o line name
  | .bin op l r =>
    (l.evaluate o s line).andThen fun a =>
      (r.evaluate o s line).andThen fun b => op.evaluate o a b
  | .paren x => x.evaluate o s line
  | .missing => ⟨[], .error .missingExpression⟩

/-- What executing has done. -/
structure Execution where
  /-- The events, in order. -/
  log : Log
  /-- The fault that stopped it, if any. -/
  fault? : Option Fault
  /-- The variables afterwards. -/
  store : Store

/-- Executes a statement. -/
def Stmt.execute (o : Options) (s : Store) : Stmt → Execution
  | .assign name x line =>
    let e := x.evaluate o s line
    match e.result with
    | .ok n => ⟨e.log.map .diagnostic, none, s.set name n⟩
    | .error fault => ⟨e.log.map .diagnostic, some fault, s⟩
  | .print x line =>
    let e := x.evaluate o s line
    match e.result with
    | .ok n => ⟨e.log.map .diagnostic ++ [.result n], none, s⟩
    | .error fault => ⟨e.log.map .diagnostic, some fault, s⟩
  | .blank _ => ⟨[], none, s⟩
  | .missing => ⟨[], some .missingStatement, s⟩

namespace Program

/-- Executes a program up to its end or its first fault. -/
def execute (o : Options) (s : Store) : Program → Execution
  | [] => ⟨[], none, s⟩
  | stmt :: rest =>
    let first := stmt.execute o s
    match first.fault? with
    | some fault => ⟨first.log, some fault, first.store⟩
    | none =>
      let others := execute o first.store rest
      ⟨first.log ++ others.log, others.fault?, others.store⟩

/-- Executes every statement of a program, also behind a fault, and keeps
what each of them has done. -/
def executeEach (o : Options) (s : Store) : Program → List Execution
  | [] => []
  | stmt :: rest =>
    let first := stmt.execute o s
    first :: executeEach o first.store rest

end Program

end LineCalculator
