import LineCalculator.Parse.Source
import LineCalculator.Proofs.RefusedTokens

/-!
# Texts one behind the other

A text is read line by line, and nothing passes from one line to the next but
the number of the line. So what stands behind a newline is read as if it stood
alone, only with higher numbers. Three facts make this up.

* **Lines.** A newline cuts: the lines of the whole are those up to the newline
  and then those behind it, also where one of the two texts is empty, or ends
  in a carriage return, or lacks a last newline (`lines_append_newline`).
* **Numbers.** The number of a line appears in its statement or in its error,
  and decides nothing (`parseTokens_add`).
* **Counting.** Up to a newline there are as many lines as newlines
  (`length_lines_newline`), so that is how far the rest is moved down.

Every line gives either a statement or an error with its own number. The
statements and the errors of a text thus share out the numbers of its lines
between them.

## Main results

* `Parsed.ofText_append_newline` — reading a text behind another.
* `Parsed.numbered_ofLines` — each line shows up once, and in order.
* `ofText_composes_over_lines` — reading is compositional over lines.
-/

namespace LineCalculator

/-! ## Moving down -/

/-- The statement on a line further down. -/
def Stmt.movedDown (k : Int) (s : Stmt) : Stmt := s.onLine (s.line + k)

/-- The error in a line further down. -/
def SyntaxError.movedDown (k : Int) (e : SyntaxError) : SyntaxError :=
  { e with line := e.line + k }

/-- The number of a line goes into its statement or its error, and nowhere else. -/
theorem parseTokens_add (line k : Int) (last : Token) (ts : List Token) :
    parseTokens (line + k) last ts =
      ((parseTokens line last ts).map (Stmt.movedDown k)).mapError (SyntaxError.movedDown k) := by
  unfold parseTokens parseExpr
  split
  · rfl
  · next name equals rest =>
    split
    · cases ParseState.start.run last rest <;> rfl
    · cases ParseState.start.run last (name :: equals :: rest) <;> rfl
  · next token => cases ParseState.start.run last [token] <;> rfl

/-- The statements and errors of lines further down. -/
def Parsed.movedDown (k : Int) (p : Parsed) : Parsed :=
  ⟨p.program.map (Stmt.movedDown k), p.errors.map (SyntaxError.movedDown k)⟩

theorem Parsed.ofLines_add (number k : Nat) (ls : List Bytes) :
    ofLines (number + k) ls = (ofLines number ls).movedDown k := by
  induction ls generalizing number with
  | nil => rfl
  | cons line ls ih =>
      have hnext : number + k + 1 = number + 1 + k := by omega
      have hline : parseLine line (number + k : Nat) =
          ((parseLine line number).map (Stmt.movedDown k)).mapError
            (SyntaxError.movedDown k) := by
        rw [Int.natCast_add]
        exact parseTokens_add number k _ _
      rw [ofLines, ofLines, hnext, ih, hline]
      cases parseLine line number <;> rfl

/-! ## Lines of a text behind another -/

theorem lines_append_newline (a b : Bytes) :
    lines (a ++ Byte.newline :: b) = lines (a ++ [Byte.newline]) ++ lines b := by
  rw [lines, Lines.cut_append_newline, List.map_append]
  rfl

theorem Lines.cut_eq_nil_iff (t : Bytes) : cut t = [] ↔ t = [] := by
  cases t with
  | nil => exact ⟨fun _ => rfl, fun _ => rfl⟩
  | cons b t =>
      refine iff_of_false ?_ (by simp)
      rw [cut]
      split
      · simp
      · split <;> simp

/-- There are as many lines as newlines, and one more if something stands behind the
last newline. -/
theorem length_lines (t : Bytes) :
    (lines t).length =
      t.count Byte.newline + if t = [] ∨ t.getLast? = some Byte.newline then 0 else 1 := by
  rw [lines, List.length_map]
  induction t with
  | nil => rfl
  | cons b t ih =>
      rw [Lines.cut]
      by_cases hb : b = Byte.newline
      · rw [if_pos hb, List.length_cons, ih, hb, List.count_cons_self]
        cases t with
        | nil => rfl
        | cons c t =>
            rw [List.getLast?_cons_cons]
            simp only [reduceCtorEq, false_or]
            omega
      · rw [if_neg hb, List.count_cons_of_ne hb]
        cases t with
        | nil => simp [hb]
        | cons c t =>
            have hne : Lines.cut (c :: t) ≠ [] := mt (Lines.cut_eq_nil_iff _).mp (by simp)
            obtain ⟨line, more, hcut⟩ := List.exists_cons_of_ne_nil hne
            rw [hcut] at ih ⊢
            rw [List.getLast?_cons_cons]
            simpa using ih

theorem length_lines_newline (a : Bytes) :
    (lines (a ++ [Byte.newline])).length = (a ++ [Byte.newline]).count Byte.newline := by
  rw [length_lines]
  simp

/-- **A text behind another is read as if it stood alone**, and moved down. -/
theorem Parsed.ofText_append_newline (a b : Bytes) :
    ofText (a ++ Byte.newline :: b) =
      ⟨(ofText (a ++ [Byte.newline])).program ++
          ((ofText b).movedDown ((a ++ [Byte.newline]).count Byte.newline)).program,
        (ofText (a ++ [Byte.newline])).errors ++
          ((ofText b).movedDown ((a ++ [Byte.newline]).count Byte.newline)).errors⟩ := by
  rw [ofText, lines_append_newline, ofLines_append, ofLines_add, length_lines_newline]
  rfl

/-! ## Numbers of lines -/

theorem DerivesStmt.line_eq {line : Int} {ts : List Token} {s : Stmt}
    (h : DerivesStmt line ts s) : s.line = line := by
  cases h <;> rfl

/-- The statements and the errors share out the numbers between them: each number
is the line of one of them, and both lists keep the order. -/
structure Parsed.Numbered (p : Parsed) (numbers : List Int) : Prop where
  shared : (p.program.map Stmt.line ++ p.errors.map SyntaxError.line).Perm numbers
  program : (p.program.map Stmt.line).Sublist numbers
  errors : (p.errors.map SyntaxError.line).Sublist numbers

/-- **Every line shows up once**, under its number. -/
theorem Parsed.numbered_ofLines (number : Nat) (ls : List Bytes) :
    (ofLines number ls).Numbered ((List.range' number ls.length).map Int.ofNat) := by
  induction ls generalizing number with
  | nil => exact ⟨.nil, .slnil, .slnil⟩
  | cons line ls ih =>
      obtain ⟨hshared, hprogram, herrors⟩ := ih (number + 1)
      rw [ofLines, List.length_cons, List.range'_succ, List.map_cons]
      cases hline : parseLine line number with
      | ok s =>
          have hnumber : s.line = number := ((parseLine_eq_ok_iff _ _ _).mp hline).line_eq
          simp only [cons]
          refine ⟨?_, ?_, herrors.cons _⟩
          · rw [List.map_cons, hnumber]
            exact hshared.cons _
          · rw [List.map_cons, hnumber]
            exact hprogram.cons_cons _
      | error e =>
          have hnumber : e.line = number := (parseTokens_error_cases hline).1
          simp only [cons]
          refine ⟨?_, hprogram.cons _, ?_⟩
          · rw [List.map_cons, hnumber]
            exact List.perm_middle.trans (hshared.cons _)
          · rw [List.map_cons, hnumber]
            exact herrors.cons_cons _

theorem pairwise_lt_numbers (number n : Nat) :
    ((List.range' number n).map Int.ofNat).Pairwise (· < ·) := by
  rw [List.pairwise_map]
  exact List.Pairwise.imp Int.ofNat_lt.mpr List.pairwise_lt_range'

/--
**Reading is compositional over lines.** A text with a newline and more behind it
has the statements of the text up to the newline, and behind them those of the rest,
moved down by the number of newlines so far; and the same holds of its syntax
errors, which keep their token and their cause, and so their column and their
wording.

In every text, the statements and the errors together have each number from one to
the number of lines exactly once, and rising in both lists. A text that breaks off
with a read failure gives the statements that it gives when it ends there, and the
failure, not the syntax errors, is what is wrong with it.
-/
theorem ofText_composes_over_lines (a b t reason : Bytes) :
    let shift : Int := (a ++ [Byte.newline]).count Byte.newline
    let whole := Parsed.ofText (a ++ Byte.newline :: b)
    let first := Parsed.ofText (a ++ [Byte.newline])
    let second := Parsed.ofText b
    (whole.program = first.program ++ second.program.map (fun s => s.onLine (s.line + shift)) ∧
      whole.errors =
        first.errors ++ second.errors.map (fun e => { e with line := e.line + shift })) ∧
    (let parsed := Parsed.ofText t
      let numbers := (List.range' 1 (lines t).length).map Int.ofNat
      (parsed.program.map Stmt.line ++ parsed.errors.map SyntaxError.line).Perm numbers ∧
      (parsed.program.map Stmt.line).Pairwise (· < ·) ∧
      (parsed.errors.map SyntaxError.line).Pairwise (· < ·) ∧
      (lines t).length =
        t.count Byte.newline + if t = [] ∨ t.getLast? = some Byte.newline then 0 else 1) ∧
    (Source.program ⟨t, some reason⟩ = (Parsed.ofText t).program ∧
      Source.error? ⟨t, some reason⟩ ≠ none ∧
      ∀ first more, Source.error? ⟨t, some reason⟩ ≠ some (.refused first more)) := by
  intro shift whole first second
  have hwhole : whole = _ := Parsed.ofText_append_newline a b
  have hnumbered := Parsed.numbered_ofLines 1 (lines t)
  have hnumbers := pairwise_lt_numbers 1 (lines t).length
  refine ⟨?_, ⟨hnumbered.shared, hnumbers.sublist hnumbered.program,
    hnumbers.sublist hnumbered.errors, length_lines t⟩, rfl, ?_, ?_⟩
  · rw [hwhole]
    exact ⟨rfl, rfl⟩
  · simp [Source.error?]
  · simp [Source.error?]

end LineCalculator
