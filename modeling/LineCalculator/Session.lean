import LineCalculator.Eval.Run
import LineCalculator.Parse.Source
import LineCalculator.Session.Display
import LineCalculator.Text.Blank

/-!
# Interactive sessions

A session takes one line at a time. A line whose first character, blanks
aside, is a colon is a **command** to the session; every other line is a
statement, which is counted, parsed and executed at once. All statements of
a session share one store.

| command | what it does |
|---|---|
| `:vars` | lists the variables |
| `:ast stmt` | shows the structure of a statement |
| `:quit`, `:q` | asks to end the session |

Commands change neither variables nor the count of lines. A program may be
loaded into the session; its lines have numbers of their own.
-/

namespace LineCalculator

/-- A line as the session understands it. -/
inductive SessionLine where
  /-- A statement to be executed. -/
  | statement (text : Bytes)
  /-- A command word, and what follows the blank behind it, if there is one. -/
  | command (word : Bytes) (argument? : Option Bytes)
  deriving DecidableEq

namespace SessionLine

/-- Splits a command at its first blank. -/
def splitCommand (t : Bytes) : SessionLine :=
  match t.dropWhile (· ≠ Byte.space) with
  | [] => command t none
  | _ :: argument => command (t.takeWhile (· ≠ Byte.space)) (some argument)

/-- Is the text, already trimmed, a command? -/
def startsWithColon : Bytes → Bool
  | 58 :: _ => true
  | _ => false

/-- Understands a line. -/
def ofText (line : Bytes) : SessionLine :=
  if startsWithColon line.trim then splitCommand line.trim else statement line

end SessionLine

/-- Why a line was not carried out. -/
inductive SessionError where
  /-- The statement was refused. -/
  | refused (e : SyntaxError)
  /-- The command for structures was given nothing to show. -/
  | missingStatement
  /-- There is no such command. -/
  | unknownCommand (word : Bytes)
  deriving DecidableEq

/-- The error as one line. -/
def SessionError.message : SessionError → Bytes
  | .refused e => e.message
  | .missingStatement => utf8 "usage: :ast <statement>"
  | .unknownCommand word => utf8 "unknown command " ++ word

/-- What a session answers to a line. -/
structure Reply where
  /-- Should the session end? -/
  quit : Bool := false
  /-- Why the line was not carried out, if so. -/
  error? : Option SessionError := none
  /-- What the statement gave to the outside. -/
  log : Log := []
  /-- What the command shows. -/
  shown : Bytes := []
  deriving DecidableEq

/-- A session between two lines. -/
structure Session where
  /-- How strictly statements are evaluated. -/
  options : Options
  /-- The variables. -/
  store : Store
  /-- How many statements have been counted. -/
  count : Nat

namespace Session

/-- A session that has just begun. -/
def start (options : Options) : Session := ⟨options, .empty, 0⟩

/-- The variables, one line each, sorted by name. -/
def listing (s : Session) : List Bytes :=
  s.store.table.entries.map fun b => b.1 ++ utf8 " = " ++ Decimal.ofInt64 b.2

/-- The answer to a command. -/
def command (s : Session) (word : Bytes) (argument? : Option Bytes) : Reply :=
  if word = utf8 ":quit" ∨ word = utf8 ":q" then { quit := true }
  else if word = utf8 ":vars" then { shown := s.listing.flatMap fun l => l ++ utf8 "\n" }
  else if word = utf8 ":ast" then
    match argument? with
    | none => { error? := some .missingStatement }
    | some argument =>
      match parseLine argument 0 with
      | .ok stmt => { shown := Display.structureOf stmt.outline }
      | .error e => { error? := some (.refused e) }
  else { error? := some (.unknownCommand word) }

/-- Counts, parses and executes a statement. -/
def statement (s : Session) (t : Bytes) : Reply × Session :=
  let counted : Session := { s with count := s.count + 1 }
  match parseLine t counted.count with
  | .ok stmt =>
    let done := stmt.execute s.options s.store
    ({ log := done.log }, { counted with store := done.store })
  | .error e => ({ error? := some (.refused e) }, counted)

/-- Takes a line. -/
def step (s : Session) (line : Bytes) : Reply × Session :=
  match SessionLine.ofText line with
  | .command word argument? => (s.command word argument?, s)
  | .statement t => s.statement t

/-- Takes lines in order, also behind one that asks to end the session, and
keeps each answer with the session behind it. -/
def stepEach (s : Session) : List Bytes → List (Reply × Session)
  | [] => []
  | line :: rest =>
    let (reply, s) := s.step line
    (reply, s) :: s.stepEach rest

/-- What loading a program has done. -/
structure Loaded where
  /-- Could it be read? -/
  ok : Bool
  /-- What went wrong, one message an error. -/
  complaints : List Bytes
  /-- What the program gave to the outside. -/
  log : Log
  /-- The session afterwards. -/
  session : Session

/-- Executes a source in the session. Refused lines are complained about and
left out; a source that breaks off is not executed at all. -/
def load (s : Session) (source : Source) : Loaded :=
  let done := source.program.execute s.options s.store
  let after : Session := { s with store := done.store }
  match source.error? with
  | none => ⟨true, [], done.log, after⟩
  | some (.refused first more) =>
    ⟨true, (first :: more).map SyntaxError.message, done.log, after⟩
  | some (.unreadable reason) =>
    ⟨false, [(InputError.unreadable reason).message], [], s⟩

/-- The complaints as they are shown. -/
def Loaded.shown (c : Colouring) (l : Loaded) : Bytes := l.complaints.flatMap (Display.error c)

end Session

end LineCalculator
