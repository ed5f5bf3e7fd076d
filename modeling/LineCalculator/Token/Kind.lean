import LineCalculator.Text.LowerCase

/-!
# Kinds of tokens

A kind is a number. Four negative ones are reserved: the end of the text,
identifiers, integers, and illegal input. A token that is a single
character has that character's number as its kind. Lexers for other
languages may use any number they like.
-/

namespace LineCalculator

/-- What sort of token stands in the input. -/
structure Kind where
  /-- The number of the kind. -/
  code : Int
  deriving DecidableEq

namespace Kind

/-- The end of the text. -/
def endOfText : Kind := ⟨-1⟩

/-- A name. -/
def identifier : Kind := ⟨-2⟩

/-- A string of digits. -/
def integer : Kind := ⟨-3⟩

/-- Input that no rule matches, or that a rule refuses. -/
def illegal : Kind := ⟨-9⟩

/-- The kind of a token that is one byte of basic Latin. -/
def ofByte (b : UInt8) : Kind := ⟨b.toNat⟩

/-- The character that a kind's number stands for when cut to 32 bits; the
replacement character if there is none. -/
def glyph (k : Kind) : Char :=
  let n := (k.code % 4294967296).toNat
  if n.isValidChar then Char.ofNat n else replacementChar

/-- What messages call a kind. -/
def name (k : Kind) : Bytes :=
  if k = endOfText then utf8 "end of line"
  else if k = identifier then utf8 "identifier"
  else if k = integer then utf8 "integer"
  else if k = illegal then utf8 "illegal input"
  else utf8 "'" ++ String.utf8EncodeChar k.glyph ++ utf8 "'"

end Kind

end LineCalculator
