import LineCalculator.Text.Decimal
import LineCalculator.Text.Markup

/-!
# Trace messages

While it works, the program can say what it is doing. Every such message
has a level, and only messages up to the chosen level are shown: errors
always, information at level Info, everything at level Debug. All parts of
the program share one level. A level is chosen by name, whatever the case
of its letters; an unknown name means Info.

Trace messages stand on standard error among the program's own lines, in
the order in which things happen. Standard output is plain; colour codes
are left out of it. So all that the program emits is one
list, and what appears on the two standard streams is read off it once the
level is known.
-/

namespace LineCalculator

/-- How much is said. -/
inductive TraceLevel where
  | error
  | info
  | debug
  deriving DecidableEq

namespace TraceLevel

/-- The order of levels, from terse to chatty. -/
def rank : TraceLevel → Nat
  | error => 0
  | info => 1
  | debug => 2

/-- The name of a level. -/
def name : TraceLevel → Bytes
  | error => utf8 "Error"
  | info => utf8 "Info"
  | debug => utf8 "Debug"

/-- What stands in front of a message of this level. -/
def mark : TraceLevel → Bytes
  | error => utf8 "ERROR "
  | info => utf8 "INFO  "
  | debug => utf8 "DEBUG "

/-- The level with this name. -/
def ofName (t : Bytes) : TraceLevel :=
  if t.equalIgnoringCase debug.name then debug
  else if t.equalIgnoringCase error.name then error
  else info

end TraceLevel

/-- The parts of the program that have messages. -/
def tracedParts : List Bytes :=
  [utf8 "lcalc.cmd", utf8 "lcalc.eval", utf8 "lcalc.parser", utf8 "lcalc.runtime",
   utf8 "lcalc.scanner"]

/-- The level of every part, when a level is chosen by name. -/
def traceLevels (name : Bytes) : List (Bytes × TraceLevel) :=
  tracedParts.map fun part => (part, .ofName name)

/-- Something that the program emits. -/
inductive Emission where
  /-- Text on standard output. -/
  | out (text : Bytes)
  /-- Text on standard error. -/
  | err (text : Bytes)
  /-- A trace message. -/
  | note (level : TraceLevel) (text : Bytes)
  deriving DecidableEq

namespace Emission

/-- What an emission puts on standard output. -/
def onOut : Emission → Bytes
  | out t => Markup.dropCodes t
  | _ => []

/-- A message with a newline at its end, added where there is none. -/
def ended (t : Bytes) : Bytes :=
  if t.getLast? = some Byte.newline then t else t ++ utf8 "\n"

/-- What an emission puts on standard error at this level. -/
def onErr (level : TraceLevel) : Emission → Bytes
  | out _ => []
  | err t => t
  | note l t => if l.rank ≤ level.rank then l.mark ++ ended t else []

/-- An information. -/
def info (t : Bytes) : Emission := note .info t

/-- A message for those who want to know everything. -/
def debug (t : Bytes) : Emission := note .debug t

end Emission

/-- A message used as a template without anything to fill in: a percent sign
asks for a value, which is missing, unless a second one stands behind it. -/
def unfilledTemplate : Bytes → Bytes
  | [] => []
  | [b] => if b = 37 then utf8 "%!(NOVERB)" else [b]
  | b :: c :: rest =>
    if b = 37 then
      if c = 37 then 37 :: unfilledTemplate rest
      else utf8 "%!" ++ c :: utf8 "(MISSING)" ++ unfilledTemplate rest
    else b :: unfilledTemplate (c :: rest)

end LineCalculator
