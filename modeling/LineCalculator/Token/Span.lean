import LineCalculator.Text.Decimal

/-!
# Spans

A span is a run of bytes of an input line: the offset of its first byte and
the offset just behind its last. Lengths are 64-bit words, so the length of
a span that ends before it starts wraps around.
-/

namespace LineCalculator

/-- A run of bytes, from `start` up to but not including `stop`. -/
structure Span where
  /-- Offset of the first byte. -/
  start : Nat
  /-- Offset just behind the last byte. -/
  stop : Nat
  deriving DecidableEq

namespace Span

/-- The number of bytes, as a 64-bit word. -/
def length (s : Span) : UInt64 := UInt64.ofNat s.stop - UInt64.ofNat s.start

/-- The span of a token without place in the input. -/
def isNull (s : Span) : Bool := s == ⟨0, 0⟩

/-- A span as shown in messages. -/
def text (s : Span) : Bytes :=
  utf8 "(" ++ Decimal.ofNat s.start ++ utf8 "…" ++ Decimal.ofNat s.stop ++ utf8 ")"

end Span

end LineCalculator
