import LineCalculator.CommandLine.Narration
import LineCalculator.Session
import LineCalculator.Text.LowerCase

/-!
# Conversations

A conversation is an interactive session that tells what it is doing. It
shows results, errors and the answers to commands on the display, and keeps
in mind whether the lexer has been made.
-/

namespace LineCalculator

/-- A session that is shown to somebody. -/
structure Conversation where
  /-- The session. -/
  session : Session
  /-- Can colours be shown? -/
  colouring : Colouring
  /-- Has a line been read before? -/
  lexerMade : Bool

/-- What somebody has typed into a session. -/
structure Typed where
  /-- The lines, in order. -/
  lines : List Bytes
  /-- Is nothing more to be taken from the input? -/
  ended : Bool
  deriving DecidableEq

namespace Typed

/-- The bytes that are typed: a carriage return is a newline, and what is no
character becomes the replacement character. -/
def keys (input : Bytes) : Bytes :=
  (runes input).flatMap fun
    | .char c => if c.toNat = 13 then [Byte.newline] else String.utf8EncodeChar c
    | .stray _ => String.utf8EncodeChar replacementChar

/-- Does a zero byte end the input? It does where the line is still `fresh`. -/
def isEnded : (fresh : Bool) → Bytes → Bool
  | _, [] => false
  | fresh, b :: rest =>
    if b = 0 then fresh || isEnded true rest else isEnded (b == Byte.newline) rest

/-- The bytes up to the end of the input, with a newline for every zero byte
that ends a line with something on it. -/
def upToEnd : (fresh : Bool) → Bytes → Bytes
  | _, [] => []
  | fresh, b :: rest =>
    if b = 0 then
      if fresh then [] else Byte.newline :: upToEnd true rest
    else b :: upToEnd (b == Byte.newline) rest

/-- What the input says: every newline and every carriage return ends a
line. So does a zero byte, but on a line with nothing on it, it ends the
input. -/
def ofInput (input : Bytes) : Typed where
  lines := Lines.cut (upToEnd true (keys input))
  ended := isEnded true (keys input)

end Typed

namespace Conversation

/-- A conversation that has just begun. -/
def start (o : Options) (colouring : Colouring) : Conversation := ⟨.start o, colouring, false⟩

/-- How to end a conversation. -/
def hint : Emission := .info (utf8 "Quit with <ctrl>D")

/-- The last word. -/
def farewell : Emission := .err (utf8 "Good bye!\n")

/-- Shows an event on the display. -/
def shownEvent (c : Conversation) (e : Event) : Emission := .out (Display.event c.colouring e)

/-- The text that is parsed for a line, and the number it is parsed with:
statements, and statements whose structure is asked for. -/
def parsed? (c : Conversation) : SessionLine → Option (Bytes × Int)
  | .statement t => some (t, c.session.count + 1)
  | .command word (some argument) => if word = utf8 ":ast" then some (argument, 0) else none
  | .command _ none => none

/-- Tells how a line is read. -/
def reading (c : Conversation) (line : SessionLine) : List Emission :=
  match c.parsed? line with
  | some (t, number) => Narration.lexer c.lexerMade ++ Narration.line t number
  | none => []

/-- Tells how a line is executed, if it is a statement. -/
def executing (c : Conversation) : SessionLine → List Emission
  | .statement t =>
    match parseLine t (c.session.count + 1) with
    | .ok stmt =>
      Narration.statement c.shownEvent stmt (stmt.execute c.session.options c.session.store)
    | .error _ => []
  | .command _ _ => []

/-- Shows the answer to a line. -/
def answering (c : Conversation) (r : Reply) : List Emission :=
  .out r.shown ::
    match r.error? with
    | some e => [.out (Display.error c.colouring e.message)]
    | none => []

/-- Takes a line: what is emitted, whether the conversation should end, and
the conversation afterwards. -/
def take (c : Conversation) (t : Bytes) : List Emission × Bool × Conversation :=
  let line := SessionLine.ofText t
  let (reply, session) := c.session.step t
  (c.reading line ++ c.executing line ++ c.answering reply, reply.quit,
    { c with session := session, lexerMade := c.lexerMade || (c.parsed? line).isSome })

/-- Takes lines until one asks to end the conversation. -/
def takeAll (c : Conversation) : List Bytes → List Emission
  | [] => []
  | t :: rest =>
    match c.take t with
    | (emitted, true, _) => emitted
    | (emitted, false, next) => emitted ++ next.takeAll rest

/-- Loads a source that is known by a name; there is no conversation behind
it if it breaks off. -/
def load (c : Conversation) (name : Bytes) (source : Source) :
    List Emission × Option Conversation :=
  let loaded := c.session.load source
  let reading := Narration.source c.lexerMade source ++ [.out (loaded.shown c.colouring)]
  if loaded.ok then
    (reading ++
      Narration.program c.shownEvent c.session.options c.session.store source.program ++
      [.info (utf8 "loaded " ++ Decimal.ofNat source.program.length ++ utf8 " statements from " ++
        name)],
      some { c with
        session := loaded.session
        lexerMade := c.lexerMade || Narration.needsLexer source })
  else (reading, none)

end Conversation

end LineCalculator
