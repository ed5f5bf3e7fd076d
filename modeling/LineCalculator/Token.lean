import LineCalculator.Token.Span
import LineCalculator.Token.Kind
import LineCalculator.Text.Quoted

/-!
# Tokens

A token is a word of the language with its place in the input line.
-/

namespace LineCalculator

/-- A word of the input. -/
structure Token where
  /-- What sort of word it is. -/
  kind : Kind
  /-- The bytes of the word. -/
  lexeme : Bytes
  /-- Where it stands. -/
  span : Span
  deriving DecidableEq

namespace Token

/-- The token behind the last byte of a text of this length. -/
def atEnd (length : Nat) : Token := ⟨.endOfText, [], ⟨length, length⟩⟩

/-- What a message calls the token it did not expect: illegal input is
quoted, everything else goes by its kind. -/
def description (t : Token) : Bytes :=
  if t.kind = .illegal then utf8 "illegal input " ++ quoted t.lexeme else t.kind.name

end Token

end LineCalculator
