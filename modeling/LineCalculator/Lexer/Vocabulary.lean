import LineCalculator.Lexer.Reading
import LineCalculator.Lexer.WrittenRegex

/-!
# Vocabularies

A vocabulary says what the words of a language are: which of the basic
patterns it has, which texts it refuses, its literals and its keywords, and
the kinds of the latter two. Its rules stand in that order.

* A **literal** is written with a backslash in front of each character, and
  behind a backslash the letters `n`, `r` and `t` mean newline, carriage
  return and tab. All other characters stand for themselves. The empty
  literal is the lone backslash.
* A **keyword** is a pattern in lower case. It is handed over as it is
  written, without backslashes, to whoever reads patterns; reading it may
  fail. The vocabulary says who that is, regular expressions in their usual
  writing if it says nothing.

A vocabulary gives a lexer if there is a rule in it, if all keywords can be
read, and if no rule matches the empty text.

The kind of a literal or keyword is looked up under its name as given; a
name without entry has kind zero.
-/

namespace LineCalculator

/-- The patterns that need no name. -/
inductive BasicPattern where
  /-- A letter or underscore, then letters, underscores and digits. -/
  | identifier
  /-- Digits. -/
  | integer
  /-- Blanks, which are skipped. -/
  | blanks
  deriving DecidableEq

/-- The rule of a basic pattern. -/
def BasicPattern.rule : BasicPattern → Rule
  | .identifier => ⟨.word .letter .letterOrDigit, .emit .identifier⟩
  | .integer => ⟨.word .digit .digit, .emit .integer⟩
  | .blanks => ⟨.word .blank .blank, .skip⟩

/-- What is wrong with a vocabulary. -/
inductive VocabularyError where
  /-- There is nothing in it. -/
  | empty
  /-- A keyword is no pattern. -/
  | unreadable (keyword : Bytes)
  /-- A rule matches the empty text. -/
  | matchesEmpty
  deriving DecidableEq

/-- The wording of the error. Where a keyword could not be read it is named, without what
the reader of patterns has to say about it. -/
def VocabularyError.message : VocabularyError → Bytes
  | .empty => utf8 "No patterns added"
  | .unreadable keyword => utf8 "Regex parse error in " ++ quoted keyword
  | .matchesEmpty => utf8 "One or more of the supplied patterns match the empty string"

/-- The words of a language. -/
structure Vocabulary where
  /-- The basic patterns, in order. -/
  basic : List BasicPattern := []
  /-- Texts that are refused. -/
  refused : List Bytes := []
  /-- Literals such as operators. -/
  literals : List Bytes := []
  /-- Patterns that are matched in lower case. -/
  keywords : List Bytes := []
  /-- The kinds of literals and keywords, by name. -/
  kinds : List (Bytes × Kind) := []
  /-- What a written pattern stands for, if it is one. -/
  read? : Bytes → Option Regex := Regex.read?

namespace Vocabulary

/-- The text that a literal matches. -/
def literalText (name : Bytes) : Bytes :=
  if name.isEmpty then [92] else name.map Regex.escaped

/-- The kind that goes with a name. -/
def kindOf (v : Vocabulary) (name : Bytes) : Kind := (v.kinds.lookup name).getD ⟨0⟩

/-- The rules that need no reading, in order. -/
def fixedRules (v : Vocabulary) : List Rule :=
  v.basic.map BasicPattern.rule ++
  v.refused.map (fun t => ⟨.text t, .reject⟩) ++
  v.literals.map (fun name => ⟨.text (literalText name), .emit (v.kindOf name)⟩)

/-- The rule of a keyword, if it can be read. -/
def keywordRule (v : Vocabulary) (name : Bytes) : Except VocabularyError Rule :=
  match v.read? name.lowerCase with
  | some r => .ok ⟨.regex r, .emit (v.kindOf name)⟩
  | none => .error (.unreadable name.lowerCase)

/-- The rules of a vocabulary, in order. -/
def rules (v : Vocabulary) : Except VocabularyError (List Rule) := do
  return v.fixedRules ++ (← v.keywords.mapM v.keywordRule)

/-- The lexer of a vocabulary. -/
def lexer (v : Vocabulary) : Except VocabularyError Lexer := do
  let rules ← v.rules
  if hempty : rules = [] then .error .empty
  else if haccepts : ∀ r ∈ rules, r.pattern.accepts = false then .ok ⟨rules, hempty, haccepts⟩
  else .error .matchesEmpty

end Vocabulary

end LineCalculator
