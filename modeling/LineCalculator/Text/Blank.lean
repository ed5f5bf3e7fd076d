import LineCalculator.Text.Utf8

/-!
# Blank characters and trimming

A character is blank if it has the White_Space property of Unicode; there
are twenty-five of them. Trimming drops blank characters from both ends of
a text. A stray byte is never blank, so trimming stops at it.
-/

namespace LineCalculator

/-- The characters with the White_Space property, as closed ranges. -/
def blankRanges : List (Nat × Nat) :=
  [(0x9, 0xD), (0x20, 0x20), (0x85, 0x85), (0xA0, 0xA0), (0x1680, 0x1680),
   (0x2000, 0x200A), (0x2028, 0x2029), (0x202F, 0x202F), (0x205F, 0x205F), (0x3000, 0x3000)]

/-- Does the number lie in one of the closed ranges? -/
def inRanges (ranges : List (Nat × Nat)) (n : Nat) : Bool :=
  ranges.any fun r => r.1 ≤ n && n ≤ r.2

/-- Is this rune a blank character? -/
def Rune.isBlank : Rune → Bool
  | .char c => inRanges blankRanges c.toNat
  | .stray _ => false

namespace Bytes

/-- The text without the blank characters at either end. -/
def trim (t : Bytes) : Bytes :=
  let fromLeft := (runes t).dropWhile Rune.isBlank
  let kept := (fromLeft.reverse.dropWhile Rune.isBlank).reverse
  kept.flatMap Rune.bytes

end Bytes

/-- The table lists twenty-five characters. -/
example : (blankRanges.map fun r => r.2 - r.1 + 1).sum = 25 := by decide

end LineCalculator
