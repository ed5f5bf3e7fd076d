import LineCalculator.Lexer.Pattern
import LineCalculator.Token.Kind

/-!
# Rules and the longest match

A lexer is an ordered list of rules. At a place in the text all rules are
tried side by side; the longest match wins, and among matches of that
length the earliest rule. The search steps every rule over the next byte,
drops the dead ones, and remembers the last place where some rule accepted.
It stops on the byte that kills the last rule, or at the end of the text.

If no rule accepted anywhere, the place is **unmatched**, and everything up
to and including the byte on which the search stopped is taken together.
A match never is empty, so the text is always used up.

## Main results

* `Verdict.length_pos` — a verdict on a non-empty text covers at least a byte.
-/

namespace LineCalculator

/-- What is done with a match. -/
inductive Action where
  /-- Leave it out. -/
  | skip
  /-- Make it a token of this kind. -/
  | emit (kind : Kind)
  /-- Refuse it with a complaint. -/
  | reject
  deriving DecidableEq

/-- A pattern, and what is done with its matches. -/
structure Rule where
  /-- What the rule matches. -/
  pattern : Pattern
  /-- What is done with it. -/
  action : Action
  deriving DecidableEq

/-- The rule behind byte `b`, unless it is dead. -/
def Rule.advance (b : UInt8) (r : Rule) : Option Rule :=
  (r.pattern.advance b).map fun p => ⟨p, r.action⟩

/-- What stands at a place of the text. -/
inductive Verdict where
  /-- A match of this many bytes. -/
  | hit (length : Nat) (action : Action)
  /-- This many bytes that no rule matches. -/
  | miss (length : Nat)
  deriving DecidableEq

namespace Verdict

/-- The verdict of a search that stopped behind `used` bytes and whose last
accepted place is `best`. -/
def ofSearch (used : Nat) : Option (Nat × Action) → Verdict
  | some (n, action) => hit n action
  | none => miss used

/-- The number of bytes that the verdict covers. -/
def length : Verdict → Nat
  | hit n _ => n
  | miss n => n

/-- What is done with these bytes; nothing is known of unmatched ones. -/
def action? : Verdict → Option Action
  | hit _ action => some action
  | miss _ => none

end Verdict

namespace Rule

/-- The longest match, when the live rules have been stepped over `used`
bytes already and `best` is the last place where one accepted. -/
def search (live : List Rule) (used : Nat) (best : Option (Nat × Action)) : Bytes → Verdict
  | [] => Verdict.ofSearch used best
  | b :: rest =>
    match live.filterMap (Rule.advance b) with
    | [] => Verdict.ofSearch (used + 1) best
    | r :: more =>
      let accepted := (r :: more).find? fun q => q.pattern.accepts
      search (r :: more) (used + 1)
        ((accepted.map fun q => (used + 1, q.action)).or best) rest

/-- The longest match at the start of a text. -/
def longest (rules : List Rule) (t : Bytes) : Verdict := search rules 0 none t

end Rule

namespace Verdict

theorem ofSearch_length_pos {used : Nat} {best : Option (Nat × Action)} (hused : 0 < used)
    (hbest : ∀ x ∈ best, 0 < x.1) : 0 < (ofSearch used best).length := by
  cases best with
  | none => exact hused
  | some x => exact hbest x rfl

theorem search_length_pos {live : List Rule} {used : Nat} {best : Option (Nat × Action)}
    {t : Bytes} (hused : 0 < used ∨ t ≠ []) (hbest : ∀ x ∈ best, 0 < x.1) :
    0 < (Rule.search live used best t).length := by
  induction t generalizing live used best with
  | nil =>
      rw [Rule.search]
      exact ofSearch_length_pos (hused.resolve_right (fun h => h rfl)) hbest
  | cons b rest ih =>
      rw [Rule.search]
      split
      · exact ofSearch_length_pos (Nat.succ_pos used) hbest
      · apply ih (Or.inl (Nat.succ_pos used))
        intro x hx
        rcases Option.or_eq_some_iff.mp hx with h | ⟨_, h⟩
        · obtain ⟨q, _, rfl⟩ := Option.map_eq_some_iff.mp h
          exact Nat.succ_pos used
        · exact hbest x h

/-- A verdict on a non-empty text covers at least a byte. -/
theorem length_pos (rules : List Rule) (b : UInt8) (rest : Bytes) :
    0 < (Rule.longest rules (b :: rest)).length :=
  search_length_pos (Or.inr (by simp)) (by simp)

end Verdict

end LineCalculator
