import LineCalculator.Lexer.Regex

/-!
# Patterns

A lexer's rules are written in four forms: a fixed text, a word (one byte
of a class, then any number of bytes of another class), a run (any number of
bytes of a class), and a regular expression. The forms are closed under
reading a byte: what may follow the first byte of a word is a run, what may
follow the first byte of a text is a shorter text, and what may follow in a
regular expression is a regular expression. So a pattern is matched by
stepping through the input with `advance`, and a pattern that has no
successor for the next byte is dead.

## Main results

* `matches_nil_iff` — a pattern accepts exactly when it matches the empty text.
* `matches_cons_iff` — stepping over a byte is matching with that byte in front.
-/

namespace LineCalculator

/-- The classes of bytes that patterns are made of. -/
inductive ByteClass where
  /-- Letters and the underscore. -/
  | letter
  /-- Decimal digits. -/
  | digit
  /-- Letters, the underscore and digits. -/
  | letterOrDigit
  /-- Space, tab and carriage return. -/
  | blank
  deriving DecidableEq

/-- Does the class hold the byte? -/
def ByteClass.holds : ByteClass → UInt8 → Bool
  | .letter, b => Byte.isLetter b
  | .digit, b => Byte.isDigit b
  | .letterOrDigit, b => Byte.isLetter b || Byte.isDigit b
  | .blank, b => Byte.isBlank b

/-- What a rule matches. -/
inductive Pattern where
  /-- Exactly these bytes. -/
  | text (bytes : Bytes)
  /-- One byte of the first class, then any number of the second. -/
  | word (first rest : ByteClass)
  /-- Any number of bytes of the class. -/
  | run (rest : ByteClass)
  /-- Whatever the expression describes. -/
  | regex (r : Regex)
  deriving DecidableEq

namespace Pattern

/-- What is left to match behind byte `b`; nothing if no match starts with it. -/
def advance (b : UInt8) : Pattern → Option Pattern
  | text [] => none
  | text (c :: bytes) => if b = c then some (text bytes) else none
  | word first rest => if first.holds b then some (run rest) else none
  | run rest => if rest.holds b then some (run rest) else none
  | regex r => (r.derive? b).map regex

/-- May the match end here? -/
def accepts : Pattern → Bool
  | text bytes => bytes.isEmpty
  | word _ _ => false
  | run _ => true
  | regex r => r.accepts

/-- The texts that a pattern describes. -/
def Matches : Pattern → Bytes → Prop
  | text bytes, t => t = bytes
  | word first rest, t =>
    ∃ b more, t = b :: more ∧ first.holds b = true ∧ ∀ c ∈ more, rest.holds c = true
  | run rest, t => ∀ c ∈ t, rest.holds c = true
  | regex r, t => r.Matches t

/-- A match may end where the pattern accepts. -/
theorem matches_nil_iff (p : Pattern) : p.Matches [] ↔ p.accepts = true := by
  cases p with
  | text bytes => cases bytes <;> simp [Matches, accepts]
  | word first rest => simp [Matches, accepts]
  | run rest => simp [Matches, accepts]
  | regex r => exact r.matches_nil_iff

/-- A match that starts with `b` goes on with what is left behind `b`. -/
theorem matches_cons_iff (p : Pattern) (b : UInt8) (t : Bytes) :
    p.Matches (b :: t) ↔ ∃ q, p.advance b = some q ∧ q.Matches t := by
  cases p with
  | text bytes =>
      cases bytes with
      | nil => simp [Matches, advance]
      | cons c bytes =>
          by_cases h : b = c
          · subst h
            simp [Matches, advance]
          · simp [Matches, advance, h]
  | word first rest =>
      constructor
      · rintro ⟨_, _, he, hfirst, hrest⟩
        cases he
        exact ⟨run rest, by simp [advance, hfirst], hrest⟩
      · rintro ⟨q, hq, hrest⟩
        by_cases h : first.holds b = true
        · simp only [advance, h, if_true, Option.some.injEq] at hq
          subst hq
          exact ⟨b, t, rfl, h, hrest⟩
        · simp [advance, h] at hq
  | run rest =>
      by_cases h : rest.holds b = true
      · simp [Matches, advance, h]
      · simp [Matches, advance, h]
  | regex r =>
      rw [Matches, r.matches_cons_iff b t, advance]
      cases r.derive? b with
      | none => simp [Regex.LeftMatches]
      | some q => simp [Regex.LeftMatches, Matches]

end Pattern

end LineCalculator
