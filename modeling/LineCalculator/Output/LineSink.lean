import LineCalculator.Output.Writer

/-!
# Line sinks

A line sink sends one line per event to the channel it belongs to. The
first write that is refused is remembered, and nothing is written any more
from then on, on either channel.

A **transcript** is the same output kept in memory, channel by channel; it
is never cut off.
-/

namespace LineCalculator

/-- Writers that are given whole lines. -/
structure LineSink where
  /-- Where the lines go. -/
  outlets : Outlets
  /-- What the first refused write was answered with. -/
  error? : Option Bytes := none
  deriving DecidableEq

namespace LineSink

/-- Sends a line, unless a write has been refused before. -/
def send (s : LineSink) (channel : Channel) (line : Bytes) : LineSink :=
  match s.error? with
  | some _ => s
  | none =>
    let (outlets, error?) := s.outlets.put channel (line ++ [Byte.newline])
    ⟨outlets, error?⟩

/-- Sends lines in order, and keeps the state behind each of them. -/
def sendEach (s : LineSink) : List (Channel × Bytes) → List LineSink
  | [] => []
  | (channel, line) :: rest =>
    let s := s.send channel line
    s :: s.sendEach rest

/-- Sends a log. -/
def sendLog (s : LineSink) (log : Log) : LineSink :=
  log.foldl (fun s e => s.send e.channel e.text) s

end LineSink

/-- Output lines kept in memory. -/
structure Transcript where
  /-- The lines of the results, in order. -/
  results : List Bytes
  /-- The lines of the diagnostics, in order. -/
  diagnostics : List Bytes
  deriving DecidableEq

namespace Transcript

/-- The lines of one channel. -/
def linesOf (channel : Channel) (sent : List (Channel × Bytes)) : List Bytes :=
  sent.filterMap fun (c, line) => if c = channel then some line else none

/-- The transcript of lines that were sent. -/
def ofLines (sent : List (Channel × Bytes)) : Transcript :=
  ⟨linesOf .results sent, linesOf .diagnostics sent⟩

/-- The transcript of a log. -/
def ofLog (log : Log) : Transcript := ofLines (log.map fun e => (e.channel, e.text))

end Transcript

end LineCalculator
