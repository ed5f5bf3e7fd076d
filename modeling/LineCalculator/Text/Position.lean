import LineCalculator.Text.Decimal

/-!
# Positions in a text of several lines

Lines count from one. The column of a byte is the number of bytes since the
last newline, that byte included; a newline itself already belongs to the
line it opens, at column zero. An index at the end of the text, or beyond
it, has the position of the last byte.

## Main results

* `ofIndex_append_cons`, `ofIndex_length` — positions can be counted byte by
  byte while the text is read.
-/

namespace LineCalculator

/-- A line and a column. -/
structure Position where
  /-- The line, counted from one. -/
  line : Nat
  /-- The column, counted in bytes. -/
  column : Nat
  deriving DecidableEq

namespace Position

/-- The position before all bytes. -/
def start : Position := ⟨1, 0⟩

/-- The position of byte `b`, when the byte before it has position `p`. -/
def step (p : Position) (b : UInt8) : Position :=
  if b = Byte.newline then ⟨p.line + 1, 0⟩ else ⟨p.line, p.column + 1⟩

/-- The position of the byte at an index of the text. -/
def ofIndex (t : Bytes) (i : Nat) : Position := (t.take (i + 1)).foldl step start

/-- The position behind some bytes is one step further. -/
theorem ofIndex_append_cons (s : Bytes) (b : UInt8) (t : Bytes) :
    ofIndex (s ++ b :: t) s.length = (s.foldl step start).step b := by
  have htake : (s ++ b :: t).take (s.length + 1) = s ++ [b] := by
    rw [List.take_length_add_append]
    rfl
  rw [ofIndex, htake, List.foldl_append]
  rfl

/-- Behind the last byte the position is that of the last byte. -/
theorem ofIndex_length (s : Bytes) : ofIndex s s.length = s.foldl step start := by
  rw [ofIndex, List.take_of_length_le (Nat.le_succ _)]

/-- A position as shown in messages: line, colon, column. -/
def text (p : Position) : Bytes := Decimal.ofNat p.line ++ utf8 ":" ++ Decimal.ofNat p.column

end Position

end LineCalculator
