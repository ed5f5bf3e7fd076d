import LineCalculator.Eval.Run
import LineCalculator.Output.LineSink
import LineCalculator.Parse.Source

/-!
# Batch runs

A batch run reads a program, reports its syntax errors, and executes what
could be read in a store of its own. Each report is one write to the
diagnostics channel, and a report that is refused is forgotten; results and
diagnostics of the execution go through a line sink.

If the source breaks off, this is the only thing that is reported, and
nothing is executed.
-/

namespace LineCalculator

/-- How a run of the program ends. -/
inductive ExitStatus where
  /-- All went well. -/
  | success
  /-- Some lines were refused. -/
  | refusedLines
  /-- There was nothing to work on. -/
  | unusable
  /-- There is no help on a topic. -/
  | noTopic
  deriving DecidableEq

/-- The number that the surroundings see. -/
def ExitStatus.code : ExitStatus → Nat
  | .success => 0
  | .refusedLines => 1
  | .unusable => 2
  | .noTopic => 3

namespace SyntaxError

/-- The line that reports the error. -/
def reportLine (e : SyntaxError) : Bytes := utf8 "syntax error: " ++ e.message ++ utf8 "\n"

end SyntaxError

namespace InputError

/-- The line that reports an error which ends the run. -/
def fatalLine (e : InputError) : Bytes := utf8 "lcalc: " ++ e.message ++ utf8 "\n"

end InputError

namespace Batch

/-- The program's channels after a run, and how it ended. -/
structure Result where
  /-- How the run ended. -/
  status : ExitStatus
  /-- The ends of the channels. -/
  outlets : Outlets
  deriving DecidableEq

/-- Writes reports to the diagnostics channel, whether they are taken or not. -/
def report (outlets : Outlets) (errors : List SyntaxError) : Outlets :=
  errors.foldl (fun o e => (o.put .diagnostics e.reportLine).1) outlets

/-- Executes a program in a store of its own and sends its log. -/
def perform (options : Options) (program : Program) (outlets : Outlets) : Outlets :=
  (LineSink.sendLog ⟨outlets, none⟩ (program.execute options .empty).log).outlets

/-- Runs a source. -/
def run (options : Options) (source : Source) (outlets : Outlets) : Result :=
  match source.error? with
  | none => ⟨.success, perform options source.program outlets⟩
  | some (.refused first more) =>
    ⟨.refusedLines, perform options source.program (report outlets (first :: more))⟩
  | some (.unreadable reason) =>
    ⟨.unusable, (outlets.put .diagnostics (InputError.unreadable reason).fatalLine).1⟩

end Batch

end LineCalculator
