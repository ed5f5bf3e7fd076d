import LineCalculator.Lexer.Vocabulary

/-!
# The words of the calculator

The calculator's language has identifiers, integers, and seven literals of
one character each; blanks separate words and are skipped. There are no
keywords. The kind of a literal is its character.
-/

namespace LineCalculator

namespace Calculator

/-- The seven literals. -/
def symbols : Bytes := [40, 41, 43, 45, 42, 47, 61]

/-- The calculator's vocabulary. -/
def vocabulary : Vocabulary where
  basic := [.identifier, .integer, .blanks]
  literals := symbols.map fun b => [b]
  kinds := symbols.map fun b => ([b], Kind.ofByte b)

/-- The calculator's lexer, which its vocabulary gives. -/
def lexer : Lexer := vocabulary.lexer.toOption.get (by decide)

/-- The tokens of a line, without the end token. -/
def tokens (line : Bytes) : List Token := lexer.tokens line

/-- A name that the calculator has no kind for. -/
structure UnknownName where
  /-- The name asked for. -/
  name : Bytes
  deriving DecidableEq

/-- The wording of the error. -/
def UnknownName.message (e : UnknownName) : Bytes := utf8 "unknown token: " ++ e.name

/-- The kinds by name: the two named kinds and the literals. -/
def namedKinds : List (Bytes × Kind) :=
  (utf8 "ID", .identifier) :: (utf8 "NUM", .integer) :: vocabulary.kinds

/-- The kind with this name. -/
def kindNamed (name : Bytes) : Except UnknownName Kind :=
  match namedKinds.lookup name with
  | some kind => .ok kind
  | none => .error ⟨name⟩

end Calculator

end LineCalculator
