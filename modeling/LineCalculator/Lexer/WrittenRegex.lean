import LineCalculator.Lexer.Regex

/-!
# Regular expressions in writing

In writing, a byte stands for itself, except for these signs:

* a **backslash** takes the meaning off the byte behind it, or gives it one:
  the letters `n`, `r` and `t` then mean newline, carriage return and tab. A
  backslash at the end stands for itself;
* a **point** stands for any byte, and brackets for one byte of a **class**,
  which is listed byte by byte or in ranges; if a circumflex comes first, for
  one byte that is not listed;
* a star, a plus or a question mark behind an item **repeats** it: any number
  of times, at least once, at most once;
* a bar separates **alternatives**, and parentheses make one item of what
  stands in them.

A text is read in three steps. Backslashes are taken off, which leaves bytes
that may be signs and bytes that are not. Brackets are read next, which leaves
items and the signs between them. The signs then build the expression from
left to right, with a draft for each parenthesis that is still open. A text
that breaks off in between, or in which an alternative has no item, is no
regular expression.

## Main results

* `matches_read?_of_plain` — a text without signs stands for itself.
-/

namespace LineCalculator.Regex

/-- What a byte means behind a backslash. -/
def escaped (b : UInt8) : UInt8 :=
  if b = 110 then Byte.newline
  else if b = 114 then Byte.carriageReturn
  else if b = 116 then Byte.tab
  else b

/-- A byte in writing. -/
inductive Mark where
  /-- As it stands. -/
  | plain (b : UInt8)
  /-- Meant by a backslash. -/
  | quoted (b : UInt8)
  deriving DecidableEq

/-- The byte that is meant. -/
def Mark.meant : Mark → UInt8
  | plain b => b
  | quoted b => b

/-- The bytes of a text, with the backslashes taken off. -/
def marks : Bytes → List Mark
  | [] => []
  | [b] => if b = 92 then [.quoted 92] else [.plain b]
  | b :: c :: rest =>
    if b = 92 then .quoted (escaped c) :: marks rest else .plain b :: marks (c :: rest)

/-- A class of bytes in brackets. -/
structure ByteList where
  /-- Are the bytes meant that are not listed? -/
  negated : Bool
  /-- The ranges that are listed. -/
  ranges : List (UInt8 × UInt8) := []

/-- The class as a regular expression, if there is a byte in it. -/
def ByteList.regex? (c : ByteList) : Option Regex :=
  let bytes := (List.range 256).map UInt8.ofNat
  match bytes.filter fun b => c.ranges.any (fun r => r.1 ≤ b && b ≤ r.2) != c.negated with
  | [] => none
  | first :: others => some (byte first others)

/-- What a written expression is made of. -/
inductive Sign where
  /-- A single byte. -/
  | item (r : Regex)
  /-- Any number of times. -/
  | anyNumber
  /-- At least once. -/
  | atLeastOnce
  /-- At most once. -/
  | atMostOnce
  | bar
  | opening
  | closing

/-- The sign that a mark is outside of brackets, unless it is out of place. -/
def Mark.sign? : Mark → Option Sign
  | quoted b => some (.item (byte b []))
  | plain b =>
    if b = 46 then (ByteList.regex? ⟨true, []⟩).map .item
    else if b = 42 then some .anyNumber
    else if b = 43 then some .atLeastOnce
    else if b = 63 then some .atMostOnce
    else if b = 124 then some .bar
    else if b = 40 then some .opening
    else if b = 41 then some .closing
    else if b = 91 || b = 93 || b = 94 then none
    else some (.item (byte b []))

/-- The signs of a written expression, read outside of brackets or inside of them. -/
def signs? : (inside? : Option ByteList) → List Mark → Option (List Sign)
  | none, [] => some []
  | some _, [] => none
  | none, .plain 91 :: .plain 94 :: rest => signs? (some ⟨true, []⟩) rest
  | none, .plain 91 :: rest => signs? (some ⟨false, []⟩) rest
  | none, m :: rest => do return (← m.sign?) :: (← signs? none rest)
  | some c, .plain 93 :: rest =>
    if c.ranges.isEmpty then none else do return .item (← c.regex?) :: (← signs? none rest)
  | some c, low :: .plain 45 :: high :: rest =>
    if high = .plain 93 then none
    else signs? (some { c with ranges := (low.meant, high.meant) :: c.ranges }) rest
  | some c, m :: rest => signs? (some { c with ranges := (m.meant, m.meant) :: c.ranges }) rest

/-- The part of an expression that is being read. -/
structure Draft where
  /-- The alternatives that are finished. -/
  alternatives? : Option Regex := none
  /-- The items of the present alternative, the last one first. -/
  items : List Regex := []

namespace Draft

/-- One more item. -/
def push (d : Draft) (r : Regex) : Draft := { d with items := r :: d.items }

/-- The last item with something done to it, if there is one. -/
def change? (d : Draft) (f : Regex → Regex) : Option Draft :=
  match d.items with
  | [] => none
  | r :: others => some { d with items := f r :: others }

/-- Items in a row, where the last of them and those before it are given, the nearest
first. -/
def row (last : Regex) (before : List Regex) : Regex := before.foldl (fun s r => seq r s) last

/-- The whole draft, if the present alternative has an item. -/
def finish? (d : Draft) : Option Regex :=
  match d.items, d.alternatives? with
  | [], _ => none
  | last :: before, none => some (row last before)
  | last :: before, some r => some (r.alt (row last before))

/-- Reads a sign. Behind the draft stand those in which it is an item. -/
def step : Draft × List Draft → Sign → Option (Draft × List Draft)
  | (d, outer), .item r => some (d.push r, outer)
  | (d, outer), .anyNumber => do return (← d.change? star, outer)
  | (d, outer), .atLeastOnce => do return (← d.change? fun r => seq r (star r), outer)
  | (d, outer), .atMostOnce => do return (← d.change? fun r => alt r blank, outer)
  | (d, outer), .bar => do return ({ alternatives? := ← d.finish? }, outer)
  | (d, outer), .opening => some ({}, d :: outer)
  | (_, []), .closing => none
  | (d, next :: outer), .closing => do return (next.push (← d.finish?), outer)

end Draft

/-- The regular expression that a text stands for, if it stands for one. -/
def read? (t : Bytes) : Option Regex := do
  match ← (← signs? none (marks t)).foldlM Draft.step ({}, []) with
  | (d, []) => d.finish?
  | (_, _ :: _) => none

/-! ## Texts without signs -/

/-- Has the byte a meaning of its own in writing? -/
def isSign (b : UInt8) : Bool := (utf8 "\\.*+?|()[]^").contains b

theorem marks_of_plain {t : Bytes} (h : ∀ b ∈ t, isSign b = false) : marks t = t.map .plain := by
  have hslash : ∀ b ∈ t, b ≠ 92 := by
    rintro b hb rfl
    exact absurd (h 92 hb) (by decide)
  fun_induction marks t with
  | case1 => rfl
  | case2 => simp at hslash
  | case3 b hb => rfl
  | case4 c rest => simp at hslash
  | case5 b c rest hb ih =>
      rw [List.map_cons, ih (fun d hd => h d (List.mem_cons_of_mem b hd))
        (fun d hd => hslash d (List.mem_cons_of_mem b hd))]

theorem sign?_of_plain {b : UInt8} (h : isSign b = false) :
    (Mark.plain b).sign? = some (.item (byte b [])) := by
  have hsigns : utf8 "\\.*+?|()[]^" = [92, 46, 42, 43, 63, 124, 40, 41, 91, 93, 94] := rfl
  simp only [isSign, hsigns, List.contains_cons, List.contains_nil, Bool.or_eq_false_iff,
    beq_eq_false_iff_ne] at h
  simp [Mark.sign?, h]

theorem signs?_of_plain {t : Bytes} (h : ∀ b ∈ t, isSign b = false) :
    signs? none (t.map .plain) = some (t.map fun b => .item (byte b [])) := by
  induction t with
  | nil => rfl
  | cons b t ih =>
      have hb : isSign b = false := h b List.mem_cons_self
      have hbracket : b ≠ 91 := by
        rintro rfl
        exact absurd hb (by decide)
      have ht := ih fun c hc => h c (List.mem_cons_of_mem b hc)
      simp [signs?, hbracket, sign?_of_plain hb, ht]

theorem foldlM_step_items (t : Bytes) (d : Draft) :
    (t.map fun b => Sign.item (byte b [])).foldlM Draft.step (d, []) =
      some ({ d with items := (t.map fun b => byte b []).reverse ++ d.items }, []) := by
  induction t generalizing d with
  | nil => rfl
  | cons b t ih =>
      rw [List.map_cons, List.foldlM_cons]
      show (t.map fun b => Sign.item (byte b [])).foldlM Draft.step (d.push (byte b []), []) = _
      rw [ih]
      simp [Draft.push]

/-- Bytes in a row describe themselves, in front of what the last item describes. -/
theorem matches_row_iff (last : Regex) (before w : Bytes) :
    (Draft.row last (before.map fun b => byte b [])).Matches w ↔
      ∃ v, w = before.reverse ++ v ∧ last.Matches v := by
  induction before generalizing last with
  | nil => simp [Draft.row]
  | cons b before ih =>
      show (Draft.row (seq (byte b []) last) (before.map fun b => byte b [])).Matches w ↔ _
      rw [ih]
      constructor
      · rintro ⟨_, rfl, _, v, rfl, ⟨c, hc, rfl⟩, hv⟩
        rw [List.mem_singleton.mp hc]
        exact ⟨v, by simp, hv⟩
      · rintro ⟨v, rfl, hv⟩
        exact ⟨b :: v, by simp, [b], v, rfl, ⟨b, List.mem_cons_self, rfl⟩, hv⟩

/-- A text without signs stands for itself. -/
theorem matches_read?_of_plain {t : Bytes} (hne : t ≠ []) (h : ∀ b ∈ t, isSign b = false) :
    ∃ r, read? t = some r ∧ ∀ w, r.Matches w ↔ w = t := by
  obtain ⟨last, before, hlast⟩ := List.exists_cons_of_ne_nil (List.reverse_ne_nil_iff.mpr hne)
  have hitems : (t.map fun b => byte b []).reverse =
      byte last [] :: before.map fun b => byte b [] := by
    rw [← List.map_reverse, hlast, List.map_cons]
  have hread : read? t = some (Draft.row (byte last []) (before.map fun b => byte b [])) := by
    simp [read?, marks_of_plain h, signs?_of_plain h, foldlM_step_items, hitems, Draft.finish?]
  have ht : t = before.reverse ++ [last] := by
    rw [← List.reverse_reverse t, hlast, List.reverse_cons]
  refine ⟨_, hread, fun w => ?_⟩
  rw [matches_row_iff, ht]
  constructor
  · rintro ⟨_, rfl, b, hb, rfl⟩
    rw [List.mem_singleton.mp hb]
  · rintro rfl
    exact ⟨[last], rfl, last, List.mem_cons_self, rfl⟩

example : read? (utf8 "(a|b)c*") =
    some (seq (alt (byte 97 []) (byte 98 [])) (star (byte 99 []))) := by decide +kernel

example : read? (utf8 "(a|b") = none := by decide +kernel

end LineCalculator.Regex
