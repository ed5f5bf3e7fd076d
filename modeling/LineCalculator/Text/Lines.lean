import LineCalculator.Text.Bytes

/-!
# Lines of a text

A newline ends a line and belongs to none. One carriage return right before
the newline, or at the very end of the text, is dropped as well. Behind a
last newline there is no further, empty line; a last line without newline
counts like any other.
-/

namespace LineCalculator

namespace Lines

/-- The text cut at its newlines, which are left out. -/
def cut : Bytes → List Bytes
  | [] => []
  | b :: rest =>
    if b = Byte.newline then [] :: cut rest
    else
      match cut rest with
      | [] => [[b]]
      | line :: more => (b :: line) :: more

/-- A line without the one carriage return at its end. -/
def dropReturn (line : Bytes) : Bytes :=
  if line.getLast? = some Byte.carriageReturn then line.dropLast else line

end Lines

/-- The lines of a text. -/
def lines (t : Bytes) : List Bytes := (Lines.cut t).map Lines.dropReturn

namespace Lines

@[simp] theorem cut_nil : cut [] = [] := rfl

@[simp] theorem cut_newline (t : Bytes) : cut (Byte.newline :: t) = [] :: cut t := rfl

/-- A newline cuts: what stands before it and what stands behind it are
cut on their own. -/
theorem cut_append_newline (s t : Bytes) :
    cut (s ++ Byte.newline :: t) = cut (s ++ [Byte.newline]) ++ cut t := by
  induction s with
  | nil => simp
  | cons b s ih =>
      by_cases hb : b = Byte.newline
      · subst hb
        simp [ih]
      · simp only [List.cons_append, cut, hb, if_false, ih]
        cases hc : cut (s ++ [Byte.newline]) with
        | nil =>
            have : cut (s ++ [Byte.newline]) ≠ [] := by
              cases s with
              | nil => simp
              | cons c s =>
                  simp only [List.cons_append, cut]
                  split
                  · simp
                  · split <;> simp
            exact absurd hc this
        | cons l ls => rfl

end Lines

end LineCalculator
