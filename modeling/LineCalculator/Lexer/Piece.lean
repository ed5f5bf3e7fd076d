import LineCalculator.Lexer.Rule
import LineCalculator.Text.Position

/-!
# Cutting a text into pieces

From left to right, the longest match or the unmatched bytes at the present
place become a **piece**, and cutting goes on behind it. Every piece holds
at least one byte and nothing is left out: the pieces put together are the
text. Positions are counted along the way.

## Main results

* `flatMap_text_cut` — the pieces put together are the text.
* `positions_of_mem_cut` — the positions in a piece are those of its offsets.
-/

namespace LineCalculator

/-- A run of bytes that a rule matched or that no rule matches. -/
structure Piece where
  /-- Offset of the first byte. -/
  start : Nat
  /-- The bytes. -/
  text : Bytes
  /-- What is done with them, if a rule matched. -/
  action? : Option Action
  /-- The position of the first byte. -/
  first : Position
  /-- The position of the byte behind the piece, or of its last byte if
  nothing is behind it. -/
  behind : Position
  deriving DecidableEq

namespace Piece

/-- Offset just behind the last byte. -/
def stop (p : Piece) : Nat := p.start + p.text.length

/-- The pieces of a text whose first byte has offset `start` and stands
behind a byte at position `before`. -/
def cut (rules : List Rule) (start : Nat) (before : Position) : Bytes → List Piece
  | [] => []
  | b :: rest =>
    let verdict := Rule.longest rules (b :: rest)
    let more := verdict.length - 1
    let next := rest.drop more
    let last := (rest.take more).foldl Position.step (before.step b)
    let piece : Piece :=
      { start := start
        text := b :: rest.take more
        action? := verdict.action?
        first := before.step b
        behind := (next.head?.map last.step).getD last }
    piece :: cut rules piece.stop last next
termination_by t => t.length
decreasing_by simp only [List.length_drop, List.length_cons]; omega

/-- The pieces put together are the text. -/
theorem flatMap_text_cut (rules : List Rule) (start : Nat) (before : Position) (t : Bytes) :
    (cut rules start before t).flatMap Piece.text = t := by
  fun_induction cut rules start before t with
  | case1 => rfl
  | case2 start before b rest verdict more next last piece ih =>
      rw [List.flatMap_cons, ih]
      simp [piece, next]

/-- The positions in a piece are those of its offsets, in a text of which
`done` has been cut already. -/
theorem positions_of_mem_cut (rules : List Rule) (done t : Bytes) {p : Piece}
    (h : p ∈ cut rules done.length (done.foldl Position.step .start) t) :
    p.first = .ofIndex (done ++ t) p.start ∧ p.behind = .ofIndex (done ++ t) p.stop := by
  induction hn : t.length using Nat.strongRecOn generalizing done t with
  | _ n ih =>
      cases t with
      | nil => simp [cut] at h
      | cons b rest =>
          rw [cut] at h
          generalize (Rule.longest rules (b :: rest)).length - 1 = more at h
          have hwhole : done ++ b :: rest = (done ++ b :: rest.take more) ++ rest.drop more := by
            simp
          have hlast : (rest.take more).foldl Position.step
              ((done.foldl Position.step .start).step b) =
                (done ++ b :: rest.take more).foldl Position.step .start := by
            rw [List.foldl_append, List.foldl_cons]
          rcases List.mem_cons.mp h with rfl | h
          · refine ⟨(Position.ofIndex_append_cons done b rest).symm, ?_⟩
            show _ = Position.ofIndex _ (done.length + (b :: rest.take more).length)
            rw [hlast, hwhole, ← List.length_append]
            cases rest.drop more with
            | nil =>
                rw [List.append_nil, Position.ofIndex_length]
                rfl
            | cons c next =>
                rw [Position.ofIndex_append_cons]
                rfl
          · rw [hwhole]
            have hshort : (rest.drop more).length < n := by
              rw [← hn, List.length_drop, List.length_cons]
              omega
            apply ih _ hshort (done ++ b :: rest.take more) (rest.drop more) _ rfl
            rw [← hlast, List.length_append]
            exact h

end Piece

end LineCalculator
