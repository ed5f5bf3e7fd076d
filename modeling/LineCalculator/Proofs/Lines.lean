import LineCalculator.Text.Lines

/-!
# Lines and the texts they make

`lines` goes from a text to its lines. This module goes the other way, in two
forms.

* Lines with a newline behind each of them make a text whose lines they are, as
  long as none holds a newline or ends in a carriage return.
* A text is its **parts** with newlines between them, and keeps everything that
  is not a newline in them, the carriage returns too. All parts are lines, but
  for an empty last one: it stands behind the last newline, or is the whole of
  an empty text.

## Main results

* `lines_flatMap_newline` — lines are read back from the text they make.
* `lines_join` — the lines of a text made of parts.
-/

namespace LineCalculator

namespace Lines

theorem cut_append_of_notMem {line : Bytes} (t : Bytes) (h : Byte.newline ∉ line) :
    cut (line ++ Byte.newline :: t) = line :: cut t := by
  induction line with
  | nil => exact cut_newline t
  | cons b line ih =>
      simp only [List.mem_cons, not_or] at h
      rw [List.cons_append, cut, if_neg (Ne.symm h.1), ih h.2]

end Lines

/-- Lines are read back from the text that they make, each with a newline behind it. -/
theorem lines_flatMap_newline {ls : List Bytes}
    (h : ∀ line ∈ ls, Byte.newline ∉ line ∧ line.getLast? ≠ some Byte.carriageReturn) :
    lines (ls.flatMap fun line => line ++ [Byte.newline]) = ls := by
  induction ls with
  | nil => rfl
  | cons line ls ih =>
      obtain ⟨hnewline, hreturn⟩ := h line List.mem_cons_self
      have hrest := ih fun line' hline' => h line' (List.mem_cons_of_mem _ hline')
      have hdrop : Lines.dropReturn line = line := if_neg hreturn
      rw [lines] at hrest ⊢
      rw [List.flatMap_cons, List.append_assoc, List.singleton_append,
        Lines.cut_append_of_notMem _ hnewline, List.map_cons, hrest, hdrop]

/-! ## Parts -/

namespace Bytes

theorem split_append_cons {sep : UInt8} {part : Bytes} (t : Bytes) (h : sep ∉ part) :
    split sep (part ++ sep :: t) = part :: split sep t := by
  induction part with
  | nil => rw [List.nil_append, split, if_pos rfl]
  | cons b part ih =>
      simp only [List.mem_cons, not_or] at h
      rw [List.cons_append, split, if_neg (Ne.symm h.1), ih h.2]

/-- What is joined by a byte is cut at it again. -/
theorem split_join {sep : UInt8} {parts : List Bytes} (hne : parts ≠ [])
    (h : ∀ part ∈ parts, sep ∉ part) : split sep (join [sep] parts) = parts := by
  induction parts with
  | nil => exact absurd rfl hne
  | cons part parts ih =>
      have hpart : sep ∉ part := h part List.mem_cons_self
      cases parts with
      | nil => exact split_of_notMem hpart
      | cons next more =>
          have hmore := ih (by simp) fun part' hpart' => h part' (List.mem_cons_of_mem _ hpart')
          show split sep (part ++ [sep] ++ join [sep] (next :: more)) = _
          rw [List.append_assoc, List.singleton_append, split_append_cons _ hpart, hmore]

theorem notMem_of_mem_split {sep : UInt8} {t part : Bytes} (h : part ∈ split sep t) :
    sep ∉ part := by
  induction t generalizing part with
  | nil =>
      rw [List.mem_singleton.mp h]
      exact List.not_mem_nil
  | cons b t ih =>
      rw [split] at h
      split at h
      · rcases List.mem_cons.mp h with rfl | h
        · exact List.not_mem_nil
        · exact ih h
      · next hb =>
        obtain ⟨first, more, hsplit⟩ := List.exists_cons_of_ne_nil (split_ne_nil sep t)
        rw [hsplit] at h ih
        rcases List.mem_cons.mp h with rfl | h
        · have hfirst := ih List.mem_cons_self
          simp only [List.mem_cons, not_or]
          exact ⟨Ne.symm hb, hfirst⟩
        · exact ih (List.mem_cons_of_mem _ h)

end Bytes

namespace Lines

/-- The parts that are lines: all of them, but for an empty last one. -/
def ofParts : List Bytes → List Bytes
  | [] => []
  | [part] => if part = [] then [] else [part]
  | part :: next :: more => part :: ofParts (next :: more)

theorem cut_eq_ofParts (t : Bytes) : cut t = ofParts (t.split Byte.newline) := by
  induction t with
  | nil => rfl
  | cons b t ih =>
      obtain ⟨first, more, hsplit⟩ := List.exists_cons_of_ne_nil (Bytes.split_ne_nil Byte.newline t)
      rw [hsplit] at ih
      rw [cut, Bytes.split, ih, hsplit]
      by_cases hb : b = Byte.newline
      · rw [if_pos hb, if_pos hb, ofParts]
      · rw [if_neg hb, if_neg hb]
        -- The byte joins the first part, which is a line now even if it was empty and the last.
        cases more with
        | nil => by_cases hfirst : first = [] <;> simp [ofParts, hfirst]
        | cons next more => rfl

end Lines

/-- The lines of a text made of parts. -/
theorem lines_join {parts : List Bytes} (hne : parts ≠ [])
    (h : ∀ part ∈ parts, Byte.newline ∉ part) :
    lines (Bytes.join [Byte.newline] parts) = (Lines.ofParts parts).map Lines.dropReturn := by
  rw [lines, Lines.cut_eq_ofParts, Bytes.split_join hne h]

end LineCalculator
