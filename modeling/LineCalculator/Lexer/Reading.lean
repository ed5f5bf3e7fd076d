import LineCalculator.Lexer.Piece
import LineCalculator.Token

/-!
# Readings: tokens with complaints

Each piece of a text gives one reading, except for the skipped ones. A
reading is a token, and for illegal input also a complaint: bytes that no
rule matches become an illegal token with those bytes, and a refused match
becomes an illegal token without bytes at the end of the text. Behind the
last piece there is the end token, as often as one asks.

A **scanner** gives the readings of a text one at a time. Whether anyone
listens to the complaints makes no difference to the tokens.
-/

namespace LineCalculator

/-- What is wrong with a piece of the text. -/
inductive Complaint where
  /-- No rule matches at `start`; the search stopped at `stop`. -/
  | unmatched (start stop : Position) (text : Bytes)
  /-- A rule refuses these bytes. -/
  | rejected (text : Bytes)
  deriving DecidableEq

/-- The wording of a complaint. -/
def Complaint.message : Complaint → Bytes
  | .unmatched start stop text =>
    utf8 "Lexer error: could not match text starting at " ++ start.text ++
      utf8 " failing at " ++ stop.text ++ utf8 ".\n\tunmatched text: " ++ quoted text
  | .rejected text => utf8 "rejected " ++ quoted text

/-- A token, and what was wrong with it. -/
structure Reading where
  /-- The token. -/
  token : Token
  /-- What was wrong, if anything. -/
  complaint? : Option Complaint
  deriving DecidableEq

/-- The reading that a piece of a text of this length gives. -/
def Piece.reading? (length : Nat) (p : Piece) : Option Reading :=
  match p.action? with
  | some .skip => none
  | some (.emit kind) => some ⟨⟨kind, p.text, ⟨p.start, p.stop⟩⟩, none⟩
  | some .reject => some
      ⟨⟨.illegal, [], ⟨length, length⟩⟩, some (.rejected p.text)⟩
  | none => some
      ⟨⟨.illegal, p.text, ⟨p.start, p.stop⟩⟩,
        some (.unmatched p.first p.behind p.text)⟩

/-- An ordered list of rules, at least one, none of which matches the empty text. -/
structure Lexer where
  /-- The rules, the earlier the stronger. -/
  rules : List Rule
  /-- There is a rule. -/
  rules_ne_nil : rules ≠ []
  /-- Every match takes a byte. -/
  not_accepts : ∀ r ∈ rules, r.pattern.accepts = false

/-- Who listens to complaints. -/
inductive Listener where
  /-- They are collected. -/
  | collect
  /-- They are dropped. -/
  | ignore
  deriving DecidableEq

/-- A reader of a text, between two requests for a token. -/
structure Scanner where
  /-- The length of the whole text. -/
  length : Nat
  /-- The pieces that have not been looked at. -/
  ahead : List Piece
  deriving DecidableEq

namespace Scanner

/-- The first reading among the pieces ahead, and the pieces behind it. Where
nothing is left the reading is the end token, and nothing is left behind it. -/
def take (length : Nat) : List Piece → Reading × List Piece
  | [] => (⟨Token.atEnd length, none⟩, [])
  | p :: ahead =>
    match p.reading? length with
    | some r => (r, ahead)
    | none => take length ahead

/-- The next reading, and the scanner behind it. -/
def next (s : Scanner) : Reading × Scanner :=
  ((take s.length s.ahead).1, ⟨s.length, (take s.length s.ahead).2⟩)

/-- A token that is not the end token uses up a piece. -/
theorem length_take_lt (length : Nat) {ahead : List Piece}
    (h : (take length ahead).1.token.kind ≠ .endOfText) :
    (take length ahead).2.length < ahead.length := by
  induction ahead with
  | nil => exact absurd rfl h
  | cons p ahead ih =>
      rw [take] at h ⊢
      cases hp : p.reading? length with
      | some r => exact Nat.lt_succ_self _
      | none =>
          rw [hp] at h
          exact Nat.lt_succ_of_lt (ih h)

/-- The readings up to the first one of the end kind, and one more. -/
def untilEnd (s : Scanner) : List Reading :=
  if s.next.1.token.kind = .endOfText then [s.next.1, s.next.2.next.1]
  else s.next.1 :: s.next.2.untilEnd
termination_by s.ahead.length
decreasing_by exact length_take_lt s.length ‹_›

end Scanner

/-- The tokens and complaints that a reader of the text has seen. -/
structure Scan where
  /-- The tokens, in order. -/
  tokens : List Token
  /-- The complaints that were listened to, in order. -/
  complaints : List Complaint
  deriving DecidableEq

namespace Lexer

/-- The pieces of a text. -/
def pieces (lexer : Lexer) (t : Bytes) : List Piece := Piece.cut lexer.rules 0 .start t

/-- The readings of a text, without the end token. -/
def readings (lexer : Lexer) (t : Bytes) : List Reading :=
  (lexer.pieces t).filterMap (Piece.reading? t.length)

/-- The tokens of a text, without the end token. -/
def tokens (lexer : Lexer) (t : Bytes) : List Token := (lexer.readings t).map Reading.token

/-- A scanner at the start of a text. -/
def scanner (lexer : Lexer) (t : Bytes) : Scanner := ⟨t.length, lexer.pieces t⟩

/-- Reading a text up to the end token and once more. -/
def scan (lexer : Lexer) (listener : Listener) (t : Bytes) : Scan :=
  let seen := (lexer.scanner t).untilEnd
  { tokens := seen.map Reading.token
    complaints := match listener with
      | .collect => seen.filterMap Reading.complaint?
      | .ignore => [] }

end Lexer

end LineCalculator
