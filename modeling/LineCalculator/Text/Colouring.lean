import LineCalculator.Text.Decimal
import LineCalculator.Text.Markup

/-!
# Colouring

Where colours can be shown, a tag asks for the looks of the **passage** that
goes on to the next end tag. The tag may be the name of a look, such as `red`
or `warning`, or it may list **attributes**: `fg=` sets the colour of the
letters, `bg=` the colour of the ground, and `op=` sets options, with commas
between them. The passage is then put between colour codes, and its two tags
go. If nothing in a tag is known, the passage stays as it is.

Where colours cannot be shown, all tags are left out, known or not.

Going through a text once need not be the end of it: passages may stand in
one another, and tags may come together when others go. So the number of
times that a text is gone through makes a difference.

## Main results

* `pass_of_notMem` — a text without angle brackets stays as it is.
* `passes_of_notMem` — also if it is gone through several times.
-/

namespace LineCalculator

namespace Markup

/-- What is found in a text, from left to right and without overlap. A find
at the start of a text comes with its length; `skip` bytes of the last one
are still to be passed over. -/
def collect {α : Type} (find? : Bytes → Option (α × Nat)) : (skip : Nat) → Bytes → List α
  | _, [] => []
  | n + 1, _ :: rest => collect find? n rest
  | 0, b :: rest =>
    match find? (b :: rest) with
    | none => collect find? 0 rest
    | some (a, length) => a :: collect find? (length - 1) rest

/-- Nothing is found in a text if nothing begins anywhere in it. -/
theorem collect_eq_nil {α : Type} {find? : Bytes → Option (α × Nat)} {t : Bytes}
    (h : ∀ s, s <:+ t → find? s = none) : collect find? 0 t = [] := by
  induction t with
  | nil => rfl
  | cons b t ih =>
      have hb : find? (b :: t) = none := h (b :: t) (List.suffix_refl _)
      have ht : collect find? 0 t = [] := ih fun s hs => h s (hs.trans (List.suffix_cons b t))
      simp [collect, hb, ht]

/-! ## Looks -/

/-- The looks that have a name, with the parameters of their colour codes. -/
def looks : List (String × String) :=
  [("red", "0;31"), ("blue", "0;34"), ("cyan", "0;36"), ("black", "0;30"),
   ("green", "0;32"), ("white", "1;37"), ("default", "0;39"), ("normal", "0;39"),
   ("brown", "0;33"), ("yellow", "1;33"), ("mga", "0;35"), ("magenta", "0;35"),
   ("mgb", "1;35"), ("magentaB", "1;35"),
   ("suc", "1;32"), ("success", "1;32"), ("info", "0;32"), ("comment", "0;33"),
   ("note", "36;1"), ("notice", "36;4"), ("warn", "0;1;33"), ("warning", "0;30;43"),
   ("primary", "0;34"), ("danger", "1;31"), ("err", "97;41"), ("error", "97;41"),
   ("lightRed", "1;31"), ("light_red", "1;31"), ("lightGreen", "1;32"),
   ("light_green", "1;32"), ("lightBlue", "1;34"), ("light_blue", "1;34"),
   ("lightCyan", "1;36"), ("light_cyan", "1;36"), ("lightDray", "37"),
   ("light_gray", "37"), ("gray", "90"), ("darkGray", "90"), ("dark_gray", "90"),
   ("lightYellow", "93"), ("light_yellow", "93"), ("lightMagenta", "95"),
   ("light_magenta", "95"),
   ("lightRedEx", "91"), ("light_red_ex", "91"), ("lightGreenEx", "92"),
   ("light_green_ex", "92"), ("lightBlueEx", "94"), ("light_blue_ex", "94"),
   ("lightCyanEx", "96"), ("light_cyan_ex", "96"), ("whiteEx", "97;40"),
   ("white_ex", "97;40"),
   ("bold", "1"), ("underscore", "4"), ("reverse", "7")]

/-- The colours of letters. The ground has the same ones, ten numbers higher. -/
def colours : List (String × Nat) :=
  [("black", 30), ("red", 31), ("green", 32), ("yellow", 33), ("blue", 34),
   ("magenta", 35), ("cyan", 36), ("white", 37), ("default", 39),
   ("darkGray", 90), ("lightRed", 91), ("lightGreen", 92), ("lightYellow", 93),
   ("lightBlue", 94), ("lightMagenta", 95), ("lightCyan", 96), ("lightWhite", 97)]

/-- The options. -/
def options : List (String × Nat) :=
  [("reset", 0), ("bold", 1), ("fuzzy", 2), ("italic", 3), ("underscore", 4),
   ("blink", 5), ("reverse", 7), ("concealed", 8)]

/-- What a table says about a name. -/
def named? {α : Type} (table : List (String × α)) (name : Bytes) : Option α :=
  (table.find? fun entry => utf8 entry.1 == name).map (·.2)

/-! ## Attributes -/

/-- What an attribute sets. -/
inductive Aspect where
  /-- The colour of the letters. -/
  | letters
  /-- The colour of the ground. -/
  | ground
  /-- Options. -/
  | options

/-- How an attribute begins. -/
def Aspect.key : Aspect → Bytes
  | .letters => utf8 "fg="
  | .ground => utf8 "bg="
  | .options => utf8 "op="

/-- An attribute in a tag. -/
structure Attribute where
  /-- What it sets. -/
  aspect : Aspect
  /-- What to. -/
  value : Bytes

namespace Attribute

/-- Bytes of which a value is made: letters and commas. -/
def isValueByte (b : UInt8) : Bool := (Byte.isLetter b && b != 95) || b == 44

/-- The attribute that a text begins with, and its length. -/
def atStart? (t : Bytes) : Option (Attribute × Nat) := do
  let aspect ← [Aspect.letters, .ground, .options].find? fun a => a.key.isPrefixOf t
  let value := (t.drop aspect.key.length).takeWhile isValueByte
  if value.isEmpty then none else some (⟨aspect, value⟩, aspect.key.length + value.length)

/-- The parameters that the attribute stands for; none if its value is not known. -/
def parameters (a : Attribute) : List Nat :=
  match a.aspect with
  | .letters => (named? colours a.value).toList
  | .ground => ((named? colours a.value).map (· + 10)).toList
  | .options => (a.value.split 44).filterMap (named? Markup.options)

end Attribute

/-- Signs that do not count at the ends of a tag. -/
def isTagEdge (b : UInt8) : Bool := b == 59 || b == 61 || b == 44

/-- The parameters that the attributes in a tag stand for. -/
def parameters (tag : Bytes) : List Nat :=
  let inner := ((tag.dropWhile isTagEdge).reverse.dropWhile isTagEdge).reverse
  (collect Attribute.atStart? 0 inner).flatMap Attribute.parameters

/-- The parameters of the colour code that a tag asks for, if it is known. -/
def codeOf? (tag : Bytes) : Option Bytes :=
  match named? looks tag, parameters tag with
  | some code, _ => some (utf8 code)
  | none, [] => none
  | none, numbers => some (Bytes.join (utf8 ";") (numbers.map Decimal.ofNat))

/-! ## Passages -/

/-- A passage between a tag and the next end tag. -/
structure Passage where
  /-- What stands in the tag. -/
  tag : Bytes
  /-- What stands between the tags. -/
  content : Bytes

namespace Passage

/-- The passage with its tags. -/
def text (p : Passage) : Bytes := utf8 "<" ++ p.tag ++ utf8 ">" ++ p.content ++ endTag

/-- The passage that a text begins with, and its length. There is at least
one byte in its tag. -/
def atStart? : Bytes → Option (Passage × Nat)
  | 60 :: b :: rest =>
    if isTagByte b then
      match rest.dropWhile isTagByte with
      | 62 :: inside =>
        (Bytes.around? endTag inside).map fun (content, _) =>
          let p : Passage := ⟨b :: rest.takeWhile isTagByte, content⟩
          (p, p.text.length)
      | _ => none
    else none
  | _ => none

/-- A passage begins with an angle bracket. -/
theorem atStart?_eq_none {t : Bytes} (h : (60 : UInt8) ∉ t) : atStart? t = none := by
  unfold atStart?
  split
  · simp at h
  · rfl

/-- The content between colour codes. Nothing needs no colour. -/
def coloured (p : Passage) (code : Bytes) : Bytes :=
  if p.content.isEmpty then []
  else utf8 "\x1b[" ++ code ++ utf8 "m" ++ p.content ++ utf8 "\x1b[0m"

/-- Colours the passage where it first occurs in a text, if its tag is known. -/
def colour (t : Bytes) (p : Passage) : Bytes :=
  match codeOf? p.tag with
  | some code => t.replaceFirst p.text (p.coloured code)
  | none => t

end Passage

/-- The text with its passages coloured, if it has the end tag in it. -/
def colourTags (t : Bytes) : Bytes :=
  if t.includes endTag then (collect Passage.atStart? 0 t).foldl Passage.colour t else t

/-- A text without angle brackets has no passages. -/
theorem colourTags_of_notMem {t : Bytes} (h : (60 : UInt8) ∉ t) : colourTags t = t := by
  have hn : collect Passage.atStart? 0 t = [] :=
    collect_eq_nil fun s hs => Passage.atStart?_eq_none fun hm => h (hs.subset hm)
  simp [colourTags, hn]

end Markup

/-- Can colours be shown? -/
inductive Colouring where
  /-- No; markup is left out. -/
  | off
  /-- Yes; tags turn into colour codes. -/
  | on
  deriving DecidableEq

namespace Colouring

/-- Goes through a text once. -/
def pass : Colouring → Bytes → Bytes
  | off => Markup.dropTags
  | on => Markup.colourTags

/-- Goes through a text several times. -/
def passes (c : Colouring) : (times : Nat) → Bytes → Bytes
  | 0, t => t
  | n + 1, t => c.passes n (c.pass t)

/-- Goes through a text once, and leaves out the colour codes too if there
are no colours. -/
def clean : Colouring → Bytes → Bytes
  | off, t => Markup.dropCodes (Markup.dropTags t)
  | on, t => Markup.colourTags t

/-! ## Text without markup -/

/-- A text without angle brackets stays as it is. -/
theorem pass_of_notMem (c : Colouring) {t : Bytes} (h : (60 : UInt8) ∉ t) : c.pass t = t := by
  cases c with
  | off => exact Markup.dropTags_of_notMem h
  | on => exact Markup.colourTags_of_notMem h

/-- A text without angle brackets stays as it is, however often it is gone through. -/
theorem passes_of_notMem (c : Colouring) (times : Nat) {t : Bytes} (h : (60 : UInt8) ∉ t) :
    c.passes times t = t := by
  induction times with
  | zero => rfl
  | succ n ih => rw [passes, c.pass_of_notMem h, ih]

end Colouring

end LineCalculator
