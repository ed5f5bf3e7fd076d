import LineCalculator.CommandLine.Dump
import LineCalculator.CommandLine.Trace
import LineCalculator.Eval.Run
import LineCalculator.Parse.Source

/-!
# What the program says while it works

Reading a line tells of each token and each complaint of the lexer, then of
the statement. Reading a source also tells which lines are skipped, and how
many statements there are. Executing a statement tells of the statement, of
every error it recovers from, and of the value a variable is set to.

All of this follows from what reading and executing return, so nothing in
them has to know about trace messages. The one thing to keep in mind is
whether the lexer has been made already: this is told once, when the first
line is read.
-/

namespace LineCalculator.Narration

/-- Tells that the lexer is made, if it is made only now. -/
def lexer (made : Bool) : List Emission :=
  if made then [] else [.info (utf8 "Creating lexer")]

/-- Tells of a token. -/
def token (t : Token) : Emission :=
  .debug (utf8 "tok is *lexmachine.Token | " ++ Decimal.ofInt t.kind.code ++ utf8 " " ++
    quoted t.lexeme ++ utf8 " " ++ Decimal.ofNat t.span.start ++
    utf8 " (1, " ++ Decimal.ofNat (t.span.start + 1) ++
    utf8 ")-(1, " ++ Decimal.ofNat t.span.stop ++ utf8 ")")

/-- Tells of a token, or of what is wrong with it. -/
def reading (r : Reading) : Emission :=
  match r.complaint? with
  | none => token r.token
  | some c => .note .error (unfilledTemplate (utf8 "scanner error: " ++ c.message))

/-- Tells how a line is read. -/
def line (t : Bytes) (number : Int) : List Emission :=
  (Calculator.lexer.readings t).map reading ++
    match parseLine t number with
    | .ok stmt => [.debug (utf8 "line " ++ Decimal.ofInt number ++ utf8 ": " ++ stmt.text)]
    | .error _ => []

/-- Tells that a line is skipped, if it is. -/
def skipped (t : Bytes) (number : Int) : List Emission :=
  match parseLine t number with
  | .ok _ => []
  | .error e => [.info (utf8 "skipping line " ++ Decimal.ofInt number ++ utf8 ": " ++ e.text)]

/-- Tells how lines are read, the first of which has this number. -/
def lines (number : Nat) : List Bytes → List Emission
  | [] => []
  | t :: rest => line t number ++ skipped t number ++ lines (number + 1) rest

/-- Does reading the source need the lexer? -/
def needsLexer (source : Source) : Bool := !(LineCalculator.lines source.text).isEmpty

/-- Tells how a source is read. -/
def source (made : Bool) (s : Source) : List Emission :=
  let ls := LineCalculator.lines s.text
  (if needsLexer s then lexer made else []) ++ lines 1 ls ++
    match s.failure? with
    | some _ => []
    | none => [.debug (utf8 "parsed " ++ Decimal.ofNat ls.length ++ utf8 " lines into " ++
        Decimal.ofNat s.program.length ++ utf8 " statements")]

/-- Tells of an event and then shows it. -/
def event (shown : Event → Emission) (e : Event) : List Emission :=
  match e with
  | .result _ => [shown e]
  | .diagnostic d => [.info (utf8 "recovered: " ++ d.message), shown e]

/-- Tells how a statement is executed. -/
def statement (shown : Event → Emission) (s : Stmt) (done : Execution) : List Emission :=
  .debug (utf8 "exec " ++ Dump.stmt s) :: done.log.flatMap (event shown) ++
    match s, done.fault? with
    | .assign name _ _, none =>
      [.debug (utf8 "set to " ++ Decimal.ofInt64 (done.store.value name))]
    | _, _ => []

/-- Tells how a program is executed. -/
def program (shown : Event → Emission) (o : Options) (s : Store) (p : Program) : List Emission :=
  .debug (utf8 "running program of " ++ Decimal.ofNat p.length ++ utf8 " statements") ::
    (p.zip (p.executeEach o s)).flatMap fun (stmt, done) => statement shown stmt done

/-- Tells that a store is made. -/
def newStore : Emission := .debug (utf8 "new runtime environment")

end LineCalculator.Narration
