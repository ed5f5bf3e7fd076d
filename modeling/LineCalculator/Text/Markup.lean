import LineCalculator.Text.Bytes

/-!
# Markup for colours

Text that is shown may carry markup of two kinds. A **tag** is a name in
angle brackets, such as `<red>` or `</red>`, and the tag `</>` ends what
another one began. A **colour code** is an escape byte and a bracket,
parameters, and the letter `m`. Where there are no colours to show, markup
is left out.

Tags count only in a text with the end tag `</>` in it; all other texts may
use angle brackets as they like. Marks are looked for from left to right,
and what is left when they are gone is not looked at again.

## Main results

* `leaveOut_eq_self` — a text in which no mark begins stays as it is.
* `dropTags_of_notMem`, `dropCodes_of_notMem` — so does a text without angle
  brackets, and one without escape bytes.
-/

namespace LineCalculator.Markup

/-- The text without its marks, from left to right. A mark at the start of a
text is known by its length, zero if there is none; `skip` bytes of the last
mark are still to be left out. -/
def leaveOut (markLength : Bytes → Nat) : (skip : Nat) → Bytes → Bytes
  | _, [] => []
  | n + 1, _ :: rest => leaveOut markLength n rest
  | 0, b :: rest =>
    match markLength (b :: rest) with
    | 0 => b :: leaveOut markLength 0 rest
    | n + 1 => leaveOut markLength n rest

/-! ## Tags -/

/-- Bytes of which the name in a tag is made. -/
def isTagByte (b : UInt8) : Bool := Byte.isLetter b || b == 61 || b == 44 || b == 59

/-- The length of a tag, of which `lead` bytes stand before the name. -/
def closedLength (lead : Nat) (t : Bytes) : Nat :=
  match t.dropWhile isTagByte with
  | 62 :: _ => lead + (t.takeWhile isTagByte).length + 1
  | _ => 0

/-- The length of the tag that a text begins with. -/
def tagLength : Bytes → Nat
  | 60 :: 47 :: rest => closedLength 2 rest
  | 60 :: rest => closedLength 1 rest
  | _ => 0

/-- The tag that ends what another one began. -/
def endTag : Bytes := utf8 "</>"

/-- The text without tags, if it has the end tag in it. -/
def dropTags (t : Bytes) : Bytes := if t.includes endTag then leaveOut tagLength 0 t else t

/-! ## Colour codes -/

/-- Bytes of which the parameters in a colour code are made. -/
def isCodeByte (b : UInt8) : Bool := Byte.isDigit b || b == 59 || b == 63

/-- The length of the colour code that a text begins with. There is at
least one byte of parameters in it. -/
def codeLength : Bytes → Nat
  | 27 :: 91 :: b :: rest =>
    if isCodeByte b then
      match rest.dropWhile isCodeByte with
      | 109 :: _ => (rest.takeWhile isCodeByte).length + 4
      | _ => 0
    else 0
  | _ => 0

/-- The text without colour codes. Most texts have none, which is seen at the
escape byte. -/
def dropCodes (t : Bytes) : Bytes := if t.contains 27 then leaveOut codeLength 0 t else t

/-! ## Text without markup -/

/-- A text in which no mark begins stays as it is. -/
theorem leaveOut_eq_self {markLength : Bytes → Nat} {t : Bytes}
    (h : ∀ s, s <:+ t → markLength s = 0) : leaveOut markLength 0 t = t := by
  induction t with
  | nil => rfl
  | cons b t ih =>
      have hb : markLength (b :: t) = 0 := h (b :: t) (List.suffix_refl _)
      have ht : leaveOut markLength 0 t = t := ih fun s hs => h s (hs.trans (List.suffix_cons b t))
      simp [leaveOut, hb, ht]

/-- A tag begins with an angle bracket. -/
theorem tagLength_eq_zero {t : Bytes} (h : (60 : UInt8) ∉ t) : tagLength t = 0 := by
  unfold tagLength
  split <;> simp_all

/-- A text without angle brackets has no tags. -/
theorem dropTags_of_notMem {t : Bytes} (h : (60 : UInt8) ∉ t) : dropTags t = t := by
  have hs : leaveOut tagLength 0 t = t :=
    leaveOut_eq_self fun s hs => tagLength_eq_zero fun hm => h (hs.subset hm)
  unfold dropTags
  split
  · exact hs
  · rfl

/-- A text without escape bytes has no colour codes. -/
theorem dropCodes_of_notMem {t : Bytes} (h : (27 : UInt8) ∉ t) : dropCodes t = t := by
  simp [dropCodes, h]

end LineCalculator.Markup
