/-!
# Text as bytes

The calculator counts everything in bytes: columns, spans and the pieces a
lexer cuts. Input need not be well-formed UTF-8, so a text is a plain list
of bytes, and characters are only looked at where a rule speaks of them
(quoting, trimming, lower case; see `LineCalculator.Text.Utf8`).

This module holds the type, the way a string of the program's own becomes
bytes, the handful of bytes and byte classes that the grammar names, and the
ways to cut a text and to put it together again.
-/

namespace LineCalculator

/-- A text: any bytes at all, UTF-8 or not. -/
abbrev Bytes := List UInt8

/-- The bytes of a string in UTF-8. -/
def utf8 (s : String) : Bytes := s.toList.flatMap String.utf8EncodeChar

namespace Byte

/-- The byte that ends a line. -/
def newline : UInt8 := 10

/-- The byte that may stand before the end of a line. -/
def carriageReturn : UInt8 := 13

/-- A horizontal tab. -/
def tab : UInt8 := 9

/-- The blank between words. -/
def space : UInt8 := 32

/-- A decimal digit. -/
def isDigit (b : UInt8) : Bool := 48 ≤ b && b ≤ 57

/-- A letter of the basic Latin alphabet, or the underscore. -/
def isLetter (b : UInt8) : Bool :=
  (65 ≤ b && b ≤ 90) || (97 ≤ b && b ≤ 122) || b == 95

/-- A blank inside a line: space, tab or carriage return. -/
def isBlank (b : UInt8) : Bool := b == space || b == tab || b == carriageReturn

/-- A capital letter of the basic Latin alphabet turned small. -/
def lower (b : UInt8) : UInt8 := if 65 ≤ b && b ≤ 90 then b + 32 else b

end Byte

namespace Bytes

/-- Equality up to the case of basic Latin letters. -/
def equalIgnoringCase (s t : Bytes) : Bool := s.map Byte.lower == t.map Byte.lower

/-- The texts one after the other, with `sep` between neighbours. -/
def join (sep : Bytes) : List Bytes → Bytes
  | [] => []
  | [t] => t
  | t :: ts => t ++ sep ++ join sep ts

/-- The parts of a text between the bytes `sep`; there is always a part. -/
def split (sep : UInt8) : Bytes → List Bytes
  | [] => [[]]
  | b :: rest =>
    if b = sep then [] :: split sep rest
    else
      match split sep rest with
      | [] => [[b]]
      | part :: more => (b :: part) :: more

/-- The text before and behind the first occurrence of `mark`. -/
def around? (mark : Bytes) : Bytes → Option (Bytes × Bytes)
  | [] => if mark.isEmpty then some ([], []) else none
  | b :: rest =>
    if mark.isPrefixOf (b :: rest) then some ([], (b :: rest).drop mark.length)
    else (around? mark rest).map fun (before, behind) => (b :: before, behind)

/-- Does `mark` occur in the text? -/
def includes (t mark : Bytes) : Bool :=
  match t with
  | [] => mark.isEmpty
  | b :: rest => mark.isPrefixOf (b :: rest) || includes rest mark

/-- The text with the first occurrence of `old` replaced. -/
def replaceFirst (t old new : Bytes) : Bytes :=
  match around? old t with
  | some (before, behind) => before ++ new ++ behind
  | none => t

/-- There is always a part. -/
theorem split_ne_nil (sep : UInt8) (t : Bytes) : split sep t ≠ [] := by
  cases t with
  | nil => simp [split]
  | cons b t =>
      rw [split]
      split
      · simp
      · split <;> simp

/-- A text without separators is its only part. -/
theorem split_of_notMem {sep : UInt8} {t : Bytes} (h : sep ∉ t) : split sep t = [t] := by
  induction t with
  | nil => rfl
  | cons b t ih =>
      have hb : b ≠ sep := fun e => h (by simp [e])
      have ht : sep ∉ t := fun e => h (by simp [e])
      simp [split, hb, ih ht]

end Bytes

end LineCalculator
