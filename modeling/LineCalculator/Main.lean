import LineCalculator.CommandLine.Invocation

/-!
# The command

The outermost layer: it collects what a run starts from, prints what the
plan has settled, and then feeds standard input to what is left to do, all at
once for a program and line by line for a session. Every decision is made
by `LineCalculator.Invocation.plan` and `LineCalculator.Remaining`.
-/

namespace LineCalculator.Terminal

/-- Prints emissions, each on its own stream. -/
def print (level : TraceLevel) (emitted : List Emission) : IO Unit := do
  let out ← IO.getStdout
  let err ← IO.getStderr
  for e in emitted do
    unless e.onOut.isEmpty do
      out.write ⟨e.onOut.toArray⟩
      out.flush
    unless (e.onErr level).isEmpty do
      err.write ⟨(e.onErr level).toArray⟩
      err.flush

/-- Reads standard input to its end. -/
partial def readAll (input : IO.FS.Stream) (seen : ByteArray) : IO ByteArray := do
  let chunk ← input.read 65536
  if chunk.isEmpty then return seen else readAll input (seen ++ chunk)

/-- Reads up to the next newline, which is included, or to the end of the input. -/
partial def readTyped (input : IO.FS.Stream) (seen : ByteArray) : IO ByteArray := do
  let chunk ← input.read 1
  if chunk.isEmpty then return seen
  else if chunk.data.toList = [Byte.newline] then return seen ++ chunk
  else readTyped input (seen ++ chunk)

/-- Takes lines from standard input until one asks to end the conversation. -/
partial def converse (level : TraceLevel) (input : IO.FS.Stream) (c : Conversation)
    (waiting : Typed) : IO Unit := do
  match waiting.lines with
  | t :: rest =>
    let (emitted, quit, next) := c.take t
    print level emitted
    unless quit do converse level input next { waiting with lines := rest }
  | [] =>
    unless waiting.ended do
      let typed ← readTyped input .empty
      unless typed.isEmpty do converse level input c (.ofInput typed.data.toList)

/-- How a path opens here. -/
def openPath (name : String) : IO (Except OpenError Source) := do
  try
    let content ← IO.FS.readBinFile name
    return .ok ⟨content.data.toList, none⟩
  catch
    | .inappropriateType _ code _ =>
      return if code = 21 then .ok (.ofFolder (utf8 name)) else .error .throughFile
    | .permissionDenied _ _ _ => return .error .denied
    | .invalidArgument _ _ _ => return .error .tooLong
    | _ => return .error .absent

/-- The environment variables that matter, where they are set. -/
def environment : IO Environment := do
  let mut env : Environment := []
  for name in ["LCALC_STRICT", "LCALC_CHECK_OVERFLOW"] ++ Environment.colourNames do
    if let some value := ← IO.getEnv name then
      env := (utf8 name, utf8 value) :: env
  return env

/-- How the file opens that the arguments name, if they name one. -/
def openNamed (args : List String) : IO FileSystem := do
  let name := (Arguments.parse (args.map utf8)).rest.headD []
  match args.find? fun arg => utf8 arg = name with
  | some arg =>
    let opened ← openPath arg
    return fun _ => opened
  | none => return fun _ => .error .absent

/-- Runs the calculator with these arguments. -/
def run (args : List String) : IO UInt32 := do
  let invocation : Invocation := ⟨args.map utf8, ← environment, ← openNamed args⟩
  let plan := invocation.plan
  let input ← IO.getStdin
  print plan.level plan.emitted
  match plan.remaining with
  | .nothing status => return status.code.toUInt32
  | .program o =>
    let text ← readAll input .empty
    let done := (Remaining.program o).perform text.data.toList
    print plan.level done.emitted
    return done.status.code.toUInt32
  | .session c =>
    converse plan.level input c ⟨[], false⟩
    print plan.level [Conversation.farewell]
    return ExitStatus.success.code.toUInt32

end LineCalculator.Terminal

/-- The entry point of the command. -/
def main (args : List String) : IO UInt32 := LineCalculator.Terminal.run args
