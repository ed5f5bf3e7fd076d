import LineCalculator.Eval.Diagnostic

/-!
# Writers and the two output channels

A program gives its results and its diagnostics through two channels. Each
channel ends in a **writer**, or both end in the same one. A writer may run
full: it accepts a number of writes, and from then on refuses every write
without taking a byte of it.
-/

namespace LineCalculator

/-- Where a line of output goes. -/
inductive Channel where
  /-- Printed values. -/
  | results
  /-- Errors, recovered or not. -/
  | diagnostics
  deriving DecidableEq

/-- The channel of an event. -/
def Event.channel : Event → Channel
  | .result _ => .results
  | .diagnostic _ => .diagnostics

/-- An event as one line, without its newline. -/
def Event.text : Event → Bytes
  | .result n => Decimal.ofInt64 n
  | .diagnostic d => d.message

/-- Something that takes output. -/
structure Writer where
  /-- How many writes it still accepts; without limit if nothing is said. -/
  budget? : Option Nat
  /-- What it says when it refuses a write. -/
  refusal : Bytes
  /-- The chunks it has taken, the last one first. -/
  taken : List Bytes
  deriving DecidableEq

namespace Writer

/-- A writer that has taken nothing yet. -/
def fresh (budget? : Option Nat) (refusal : Bytes) : Writer := ⟨budget?, refusal, []⟩

/-- What the writer holds. -/
def content (w : Writer) : Bytes := w.taken.reverse.flatten

/-- Writes a chunk; the answer is an error if the writer refuses it. -/
def write (w : Writer) (chunk : Bytes) : Writer × Option Bytes :=
  match w.budget? with
  | none => ({ w with taken := chunk :: w.taken }, none)
  | some 0 => (w, some w.refusal)
  | some (n + 1) => ({ w with budget? := some n, taken := chunk :: w.taken }, none)

end Writer

/-- The ends of the two channels. -/
structure Outlets where
  /-- The writer for results. -/
  out : Writer
  /-- The writer for diagnostics, unless it is shared. -/
  err : Writer
  /-- Do diagnostics go to the writer for results? -/
  shared : Bool := false
  deriving DecidableEq

namespace Outlets

/-- Two writers that never run full. -/
def unlimited : Outlets := ⟨.fresh none [], .fresh none [], false⟩

/-- Writes a chunk to a channel. -/
def put (o : Outlets) (channel : Channel) (chunk : Bytes) : Outlets × Option Bytes :=
  match channel, o.shared with
  | .diagnostics, false =>
    let (w, error?) := o.err.write chunk
    ({ o with err := w }, error?)
  | _, _ =>
    let (w, error?) := o.out.write chunk
    ({ o with out := w }, error?)

/-- What has come out of a channel. -/
def received (o : Outlets) : Channel → Bytes
  | .results => o.out.content
  | .diagnostics => if o.shared then o.out.content else o.err.content

end Outlets

end LineCalculator
