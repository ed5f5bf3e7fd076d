import LineCalculator.Text.Bytes

/-!
# Characters in a byte text

A text is read as UTF-8 from the left. Where a well-formed sequence stands
it is one character; any other byte stands for itself as a **stray** byte,
and reading goes on behind it. So every text has runes, well-formed or not.

The well-formed sequences are the strict ones: no overlong forms, no
surrogates, nothing above U+10FFFF. Of two readings of the same bytes there
is never a choice, since no lead byte is a tail byte; in particular the last
rune of a text is the same whether it is read from the left or the right.
-/

namespace LineCalculator

/-- What stands at one place of a text. -/
inductive Rune where
  /-- A character, encoded as UTF-8 demands. -/
  | char (c : Char)
  /-- A byte that begins no well-formed sequence. -/
  | stray (b : UInt8)
  deriving DecidableEq

/-- The bytes of a rune. -/
def Rune.bytes : Rune → Bytes
  | .char c => String.utf8EncodeChar c
  | .stray b => [b]

namespace Utf8

/-- The six bits that a tail byte carries. -/
def tail? (b : UInt8) : Option Nat :=
  if 128 ≤ b && b ≤ 191 then some (b.toNat - 128) else none

/-- The character with this number, if it lies between `low` and the end of
the code space and is no surrogate. -/
def scalar? (low n : Nat) : Option Char :=
  if low ≤ n ∧ n.isValidChar then some (Char.ofNat n) else none

/-- The character that starts with lead byte `b` and goes on in `rest`, with
the number of bytes it takes from `rest`. -/
def lead? (b : UInt8) (rest : Bytes) : Option (Char × Nat) :=
  if b < 128 then some (Char.ofNat b.toNat, 0)
  else if 192 ≤ b && b < 224 then
    match rest with
    | b₁ :: _ => do
      let t₁ ← tail? b₁
      let c ← scalar? 0x80 ((b.toNat - 192) * 64 + t₁)
      some (c, 1)
    | _ => none
  else if 224 ≤ b && b < 240 then
    match rest with
    | b₁ :: b₂ :: _ => do
      let t₁ ← tail? b₁
      let t₂ ← tail? b₂
      let c ← scalar? 0x800 ((b.toNat - 224) * 4096 + t₁ * 64 + t₂)
      some (c, 2)
    | _ => none
  else if 240 ≤ b && b < 248 then
    match rest with
    | b₁ :: b₂ :: b₃ :: _ => do
      let t₁ ← tail? b₁
      let t₂ ← tail? b₂
      let t₃ ← tail? b₃
      let c ← scalar? 0x10000 ((b.toNat - 240) * 262144 + t₁ * 4096 + t₂ * 64 + t₃)
      some (c, 3)
    | _ => none
  else none

end Utf8

/-- The runes of a text, from left to right. -/
def runes : Bytes → List Rune
  | [] => []
  | b :: rest =>
    match Utf8.lead? b rest with
    | some (c, used) => .char c :: runes (rest.drop used)
    | none => .stray b :: runes rest
termination_by t => t.length
decreasing_by
  · simp only [List.length_drop, List.length_cons]; omega
  · simp

end LineCalculator
