import LineCalculator.Eval.Diagnostic
import LineCalculator.Program.Outline
import LineCalculator.Text.Colouring

/-!
# The display of a session

An interactive session shows each result and each error on a line of its
own, with a mark in front that tells them apart. A message of several lines
goes on under its first one, indented by the width of the mark. The
structure of a statement is shown as a drawing.

What is shown may hold markup for colours. A message is gone through once
before it is laid out, then line by line, and then as a whole. A drawing is
gone through label by label and then as a whole, and never has colours of
its own. Markup that is still there after that is shown as it is.
-/

namespace LineCalculator.Display

/-- How often a message is gone through when it has been laid out. -/
def messagePasses : Nat := 5

/-- How often a drawing is gone through when it has been made. -/
def drawingPasses : Nat := 5

/-- A message behind a mark; its further lines are indented. -/
def marked (c : Colouring) (mark t : Bytes) : Bytes :=
  let further := Byte.newline :: List.replicate mark.length Byte.space
  let lines := ((c.pass t).split Byte.newline).map c.clean
  c.passes messagePasses (mark ++ Bytes.join further lines ++ utf8 "\n")

/-- A line of information. -/
def info (c : Colouring) (t : Bytes) : Bytes := marked c (utf8 "   >>  ") t

/-- A line that shows an error. -/
def error (c : Colouring) (t : Bytes) : Bytes := marked c (utf8 "   Error  ") t

/-- How an event is shown. -/
def event (c : Colouring) : Event → Bytes
  | .result n => info c (Decimal.ofInt64 n)
  | .diagnostic d => error c d.message

/-- How a log is shown. -/
def log (c : Colouring) (events : Log) : Bytes := events.flatMap (event c)

/-- An item of an outline without the markup in its label. -/
def plainItem (i : OutlineItem) : OutlineItem := { i with label := Colouring.off.clean i.label }

/-- How the structure behind an outline is shown. -/
def structureOf (items : List OutlineItem) : Bytes :=
  Markup.dropCodes (Colouring.off.passes drawingPasses (drawingOf (items.map plainItem)))

end LineCalculator.Display
