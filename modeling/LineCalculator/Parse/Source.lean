import LineCalculator.Parse.Line
import LineCalculator.Text.Lines

/-!
# Reading a program

A program is read line by line. A line that is refused is left out of the
program and its error is kept; the lines behind it keep their numbers. A
source may also break off while it is read. What was read until then is
parsed all the same, but the reading as a whole has failed.

## Main results

* `Parsed.ofLines_append` — lines are read independently of each other.
-/

namespace LineCalculator

/-- The statements and the errors of some lines. -/
structure Parsed where
  /-- The statements, in line order. -/
  program : Program
  /-- The errors, in line order. -/
  errors : List SyntaxError
  deriving DecidableEq

namespace Parsed

/-- What one more line in front gives. -/
def cons (result : Except SyntaxError Stmt) (rest : Parsed) : Parsed :=
  match result with
  | .ok stmt => ⟨stmt :: rest.program, rest.errors⟩
  | .error e => ⟨rest.program, e :: rest.errors⟩

/-- Reads lines, the first of which has this number. -/
def ofLines (number : Nat) : List Bytes → Parsed
  | [] => ⟨[], []⟩
  | line :: rest => cons (parseLine line number) (ofLines (number + 1) rest)

/-- Reads a text, whose lines count from one. -/
def ofText (t : Bytes) : Parsed := ofLines 1 (lines t)

/-- Lines are read independently of each other. -/
theorem ofLines_append (number : Nat) (xs ys : List Bytes) :
    ofLines number (xs ++ ys) =
      ⟨(ofLines number xs).program ++ (ofLines (number + xs.length) ys).program,
        (ofLines number xs).errors ++ (ofLines (number + xs.length) ys).errors⟩ := by
  induction xs generalizing number with
  | nil => rfl
  | cons line xs ih =>
      rw [List.cons_append, ofLines, ofLines, ih]
      have hlen : number + 1 + xs.length = number + (xs.length + 1) := by omega
      rw [List.length_cons, hlen]
      cases parseLine line number <;> rfl

end Parsed

/-- Where a program comes from. -/
structure Source where
  /-- What can be read. -/
  text : Bytes
  /-- Why reading breaks off behind it, if it does. -/
  failure? : Option Bytes := none
  deriving DecidableEq

/-- Why a program was not read, or not in full. -/
inductive InputError where
  /-- Some lines were refused. -/
  | refused (first : SyntaxError) (more : List SyntaxError)
  /-- Reading broke off. -/
  | unreadable (reason : Bytes)
  deriving DecidableEq

/-- The error as one line. -/
def InputError.message : InputError → Bytes
  | .refused first more => Report.summary (first.report :: more.map SyntaxError.report)
  | .unreadable reason => utf8 "cannot read program input: " ++ reason

namespace Source

/-- The statements of the source. -/
def program (s : Source) : Program := (Parsed.ofText s.text).program

/-- What is wrong with the source. -/
def error? (s : Source) : Option InputError :=
  match s.failure?, (Parsed.ofText s.text).errors with
  | some reason, _ => some (.unreadable reason)
  | none, [] => none
  | none, e :: more => some (.refused e more)

end Source

end LineCalculator
