import LineCalculator.Batch
import LineCalculator.CommandLine.Conversation
import LineCalculator.CommandLine.FileTree
import LineCalculator.CommandLine.Help
import LineCalculator.CommandLine.Settings

/-!
# The program as a whole

An invocation is what a run of the program starts from: its arguments, its
environment, and the files it can open. Help and complaints about the
command line go first. Otherwise the program either runs a file, or standard
input, in one go, or starts an interactive session, into which the file is
loaded first. A file with an empty name is no file.

What can be settled before standard input is read makes up a **plan**: what
has been emitted by then, and what is left to do with the input. A run ends
with an exit status and with text on the two standard streams, all of it a
function of the invocation and the input.
-/

namespace LineCalculator

/-- What a run starts from. -/
structure Invocation where
  /-- The arguments. -/
  arguments : List Bytes
  /-- The environment. -/
  environment : Environment
  /-- The files in sight. -/
  files : FileSystem

/-- How a run ended, and what it has put on the standard streams. -/
structure Outcome where
  /-- How it ended. -/
  status : ExitStatus
  /-- Standard output. -/
  out : Bytes
  /-- Standard error. -/
  err : Bytes
  deriving DecidableEq

/-- A run before the level of messages is applied. -/
structure Performance where
  /-- How it ended. -/
  status : ExitStatus
  /-- What it emitted, in order. -/
  emitted : List Emission
  deriving DecidableEq

/-- What can be seen of a run at a level. -/
def Performance.outcome (level : TraceLevel) (p : Performance) : Outcome :=
  ⟨p.status, p.emitted.flatMap Emission.onOut, p.emitted.flatMap (Emission.onErr level)⟩

/-- What is left to do with standard input. -/
inductive Remaining where
  /-- Nothing; the run is over. -/
  | nothing (status : ExitStatus)
  /-- Run it as a program. -/
  | program (options : Options)
  /-- Take it line by line into a session. -/
  | session (c : Conversation)

/-- What is settled before standard input is read. -/
structure Plan where
  /-- Which messages are shown. -/
  level : TraceLevel := .error
  /-- What has been emitted, in order. -/
  emitted : List Emission
  /-- What is left to do. -/
  remaining : Remaining

namespace CommandLine

/-- Shows an event as a line of its channel. -/
def batchEvent (e : Event) : Emission :=
  match e.channel with
  | .results => .out (e.text ++ utf8 "\n")
  | .diagnostics => .err (e.text ++ utf8 "\n")

/-- Runs a source in one go. -/
def runSource (o : Options) (s : Source) : Performance :=
  let reading := Narration.source false s
  let running := Narration.newStore :: Narration.program batchEvent o .empty s.program
  match s.error? with
  | none => ⟨.success, reading ++ running⟩
  | some (.refused first more) =>
    ⟨.refusedLines, reading ++ (first :: more).map (fun e => .err e.reportLine) ++ running⟩
  | some (.unreadable reason) =>
    ⟨.unusable, reading ++ [.err (InputError.unreadable reason).fatalLine]⟩

/-- Settles a run in one go: a file is run at once, standard input later. -/
def batch (o : Options) (files : FileSystem) (name : Bytes) : List Emission × Remaining :=
  if name.isEmpty then ([], .program o)
  else
    match files name with
    | .error e => ([.note .error (e.message name)], .nothing .unusable)
    | .ok source =>
      let done := runSource o source
      (done.emitted, .nothing done.status)

/-- Settles an interactive session: a file is loaded at once. -/
def interactive (o : Options) (colouring : Colouring) (files : FileSystem) (name : Bytes) :
    List Emission × Remaining :=
  let welcome := [.out (Display.info colouring (utf8 "Welcome to lcalc")), Narration.newStore]
  let fresh := Conversation.start o colouring
  if name.isEmpty then (welcome ++ [Conversation.hint], .session fresh)
  else
    match files name with
    | .error e => (welcome ++ [.note .error (e.message name)], .nothing .unusable)
    | .ok source =>
      match fresh.load name source with
      | (loading, some c) => (welcome ++ loading ++ [Conversation.hint], .session c)
      | (loading, none) => (welcome ++ loading, .nothing .unusable)

/-- Settles the work that the command line asks for. -/
def work (inv : Invocation) (a : Arguments) : Plan :=
  let o := Options.configured inv.environment a
  let name := a.rest.headD []
  let (emitted, remaining) :=
    if a.interactive then interactive o inv.environment.colouring inv.files name
    else batch o inv.files name
  { level := .ofName a.traceName
    emitted := .info (utf8 "Trace level is " ++ a.traceName) :: .debug o.text :: emitted
    remaining := remaining }

/-- Complains about the command line and shows a help text. -/
def complaint (lead message gap help : Bytes) : Plan where
  emitted := [.out (lead ++ message ++ gap ++ help), .err (message ++ utf8 "\n")]
  remaining := .nothing .unusable

/-- Shows a help text. -/
def showHelp (text : Bytes) : Plan where
  emitted := [.out text]
  remaining := .nothing .success

/-- Says that there is no help on a topic. -/
def noHelp (topic : Bytes) : Plan where
  emitted := [.err (utf8 "No help topic for '" ++ topic ++ utf8 "'\n")]
  remaining := .nothing .noTopic

/-- Does what the help command asks for with these arguments. An error in a
flag comes before a flag in both of its forms. -/
def helpCommand (arguments : List Bytes) : Plan :=
  let a := Arguments.parseWith Flag.ofHelp? arguments
  match (a.error?.map FlagError.message).or a.doubled? with
  | some message => complaint (utf8 "Incorrect Usage: ") message (utf8 "\n\n") Help.command
  | none =>
    if a.help then showHelp Help.command
    else
      match a.rest with
      | [] => showHelp Help.program
      | topic :: _ =>
        match Help.onTopic? topic with
        | some text => showHelp text
        | none => noHelp topic

end CommandLine

namespace Invocation

/-- The plan of a run. A flag of the program in both of its forms comes
before any error in a flag. -/
def plan (inv : Invocation) : Plan :=
  let a := Arguments.parse inv.arguments
  match a.doubled?, a.error? with
  | some message, _ => CommandLine.complaint [] message (utf8 "\n") Help.program
  | none, some e =>
    CommandLine.complaint (utf8 "Incorrect Usage. ") e.message (utf8 "\n\n") Help.program
  | none, none =>
    if a.help then CommandLine.showHelp Help.program
    else
      match a.rest with
      | command :: rest =>
        if Help.isCommand command then CommandLine.helpCommand rest else CommandLine.work inv a
      | [] => CommandLine.work inv a

end Invocation

/-- Does what is left to do. -/
def Remaining.perform (input : Bytes) : Remaining → Performance
  | .nothing status => ⟨status, []⟩
  | .program o => CommandLine.runSource o ⟨input, none⟩
  | .session c => ⟨.success, c.takeAll (Typed.ofInput input).lines ++ [Conversation.farewell]⟩

/-- Runs the program with this standard input. -/
def Invocation.run (inv : Invocation) (input : Bytes) : Outcome :=
  let rest := inv.plan.remaining.perform input
  Performance.outcome inv.plan.level ⟨rest.status, inv.plan.emitted ++ rest.emitted⟩

end LineCalculator
