import LineCalculator.Proofs.Output
import LineCalculator.Proofs.Running

/-!
# A refused line counts as an empty one

A batch run leaves refused lines out and executes the others. That is meant to
be the same as if those lines had been empty from the start: they keep their
numbers, so that lines behind them are named right in diagnostics, and nothing of
them gets into the variables.

Two programs come out of that. Where the first has no statement at all, the
second one has a blank statement, or again none if the emptied line was the last
part of the text. So they are not equal, but **alike**: they do the same under
all options and from all variables. This relation is kept by a statement in
front and does not see blank statements, and that is all the induction over the
parts of the text asks for.

## Main results

* `ofText_emptied` — the emptied text is read without errors and runs alike.
* `run_emptied` — a batch run treats refused lines as empty ones.
-/

namespace LineCalculator

/-! ## Programs that do the same -/

/-- Two programs do the same, whatever the options and the variables are. -/
def Program.Alike (p q : Program) : Prop := ∀ o s, p.execute o s = q.execute o s

namespace Program.Alike

variable {p q r : Program}

theorem refl (p : Program) : p.Alike p := fun _ _ => rfl

theorem symm (h : p.Alike q) : q.Alike p := fun o s => (h o s).symm

theorem trans (hpq : p.Alike q) (hqr : q.Alike r) : p.Alike r :=
  fun o s => (hpq o s).trans (hqr o s)

theorem cons (stmt : Stmt) (h : p.Alike q) : Program.Alike (stmt :: p) (stmt :: q) := by
  intro o s
  simp only [execute, h o]

end Program.Alike

theorem parseLine_nil (line : Int) : parseLine [] line = .ok (.blank line) := by
  rw [parseLine, Calculator.tokens_eq_tokensFrom, Calculator.tokensFrom_nil, parseTokens]

/-- An empty last part is no line, but nothing would change if it were one. -/
theorem Parsed.ofLines_ofParts (number : Nat) (parts : List Bytes) :
    let asLines := ofLines number ((Lines.ofParts parts).map Lines.dropReturn)
    let asParts := ofLines number (parts.map Lines.dropReturn)
    asLines.errors = asParts.errors ∧ asLines.program.Alike asParts.program := by
  induction parts using Lines.ofParts.induct generalizing number with
  | case1 => exact ⟨rfl, .refl _⟩
  | case2 =>
      have hblank : ofLines number [[]] = ⟨[.blank number], []⟩ := by
        rw [ofLines, parseLine_nil]
        rfl
      show (ofLines number []).errors = (ofLines number [[]]).errors ∧
        (ofLines number []).program.Alike (ofLines number [[]]).program
      rw [hblank]
      exact ⟨rfl, fun _ _ => rfl⟩
  | case3 part hpart =>
      rw [Lines.ofParts, if_neg hpart]
      exact ⟨rfl, .refl _⟩
  | case4 part next more ih =>
      obtain ⟨herrors, halike⟩ := ih (number + 1)
      rw [Lines.ofParts, List.map_cons, List.map_cons, ofLines, ofLines]
      cases parseLine (Lines.dropReturn part) number with
      | ok stmt => exact ⟨herrors, halike.cons stmt⟩
      | error e => exact ⟨congrArg (e :: ·) herrors, halike⟩

/-! ## Emptied texts -/

/-- What stands behind the line in a part of a text. -/
def Lines.ending (part : Bytes) : Bytes := part.drop (dropReturn part).length

theorem Lines.ending_eq (part : Bytes) :
    ending part = if part.getLast? = some Byte.carriageReturn then [Byte.carriageReturn] else [] := by
  unfold ending dropReturn
  split
  · next h =>
      obtain ⟨line, rfl⟩ := List.getLast?_eq_some_iff.mp h
      simp
  · simp

theorem Lines.dropReturn_ending (part : Bytes) : dropReturn (ending part) = [] := by
  rw [ending_eq]
  split <;> rfl

/-- The error of a line, if it is refused. -/
def refusal? (line : Bytes) (number : Nat) : Option SyntaxError :=
  match parseLine line number with
  | .ok _ => none
  | .error e => some e

/-- The errors of the refused lines of a text, in line order. -/
def refusals (t : Bytes) : List SyntaxError :=
  ((lines t).zipIdx 1).filterMap fun (line, number) => refusal? line number

/-- A part of a text, with the content of its line taken out if that is refused. -/
def emptiedPart (part : Bytes) (number : Nat) : Bytes :=
  match parseLine (Lines.dropReturn part) number with
  | .ok _ => part
  | .error _ => Lines.ending part

/-- The same for parts, the first of which has this number. -/
def emptiedParts (number : Nat) (parts : List Bytes) : List Bytes :=
  (parts.zipIdx number).map fun (part, number) => emptiedPart part number

/-- A text with the content of every refused line taken out, and all line ends left in. -/
def emptied (t : Bytes) : Bytes :=
  Bytes.join [Byte.newline] (emptiedParts 1 (t.split Byte.newline))

theorem Parsed.errors_ofLines (number : Nat) (ls : List Bytes) :
    (ofLines number ls).errors =
      (ls.zipIdx number).filterMap fun (line, number) => refusal? line number := by
  induction ls generalizing number with
  | nil => rfl
  | cons line ls ih =>
      rw [ofLines, List.zipIdx_cons, List.filterMap_cons, ← ih (number + 1)]
      cases hparse : parseLine line number <;> simp [refusal?, hparse, cons]

theorem refusals_eq_errors (t : Bytes) : refusals t = (Parsed.ofText t).errors :=
  (Parsed.errors_ofLines 1 (lines t)).symm

/-- Emptied parts are read without errors, and do what is left of the parts when the
refused ones are left out. -/
theorem Parsed.ofLines_emptiedParts (number : Nat) (parts : List Bytes) :
    let clean := ofLines number ((emptiedParts number parts).map Lines.dropReturn)
    clean.errors = [] ∧
      clean.program.Alike (ofLines number (parts.map Lines.dropReturn)).program := by
  induction parts generalizing number with
  | nil => exact ⟨rfl, .refl _⟩
  | cons part parts ih =>
      obtain ⟨herrors, halike⟩ := ih (number + 1)
      have hcons : emptiedParts number (part :: parts) =
          emptiedPart part number :: emptiedParts (number + 1) parts := rfl
      rw [hcons, List.map_cons, List.map_cons, ofLines, ofLines, emptiedPart]
      cases hparse : parseLine (Lines.dropReturn part) number with
      | ok stmt =>
          simp only [hparse]
          exact ⟨herrors, halike.cons stmt⟩
      | error e =>
          -- The left has a blank statement where the right has none.
          simp only [Lines.dropReturn_ending, parseLine_nil]
          exact ⟨herrors, fun o s => (Program.execute_blank_cons ..).trans (halike o s)⟩

theorem newline_notMem_emptiedParts {parts : List Bytes}
    (h : ∀ part ∈ parts, Byte.newline ∉ part) (number : Nat) :
    ∀ part ∈ emptiedParts number parts, Byte.newline ∉ part := by
  intro part' hpart'
  obtain ⟨⟨part, n⟩, hmem, rfl⟩ := List.mem_map.mp hpart'
  have hpart : Byte.newline ∉ part := h part (List.fst_mem_of_mem_zipIdx hmem)
  show Byte.newline ∉ emptiedPart part n
  unfold emptiedPart
  split
  · exact hpart
  · rw [Lines.ending_eq]
    split <;> decide

/-- The emptied text is read without errors, and its program does what the program
of the text does. -/
theorem ofText_emptied (t : Bytes) :
    (Parsed.ofText (emptied t)).errors = [] ∧
      (Parsed.ofText (emptied t)).program.Alike (Parsed.ofText t).program := by
  have hnewline := newline_notMem_emptiedParts (fun _ => Bytes.notMem_of_mem_split (t := t)) 1
  have hne : emptiedParts 1 (t.split Byte.newline) ≠ [] := by
    simp [emptiedParts, Bytes.split_ne_nil]
  have hlines := lines_join hne hnewline
  obtain ⟨herrors, hasParts⟩ :=
    Parsed.ofLines_ofParts 1 (emptiedParts 1 (t.split Byte.newline))
  obtain ⟨hclean, hemptied⟩ := Parsed.ofLines_emptiedParts 1 (t.split Byte.newline)
  obtain ⟨-, hasLines⟩ := Parsed.ofLines_ofParts 1 (t.split Byte.newline)
  rw [Parsed.ofText, emptied, hlines, Parsed.ofText, lines, Lines.cut_eq_ofParts]
  exact ⟨herrors.trans hclean, hasParts.trans (hemptied.trans hasLines.symm)⟩

/-! ## Batch runs -/

/--
**A refused line is treated like an empty one.** A text is run, and the text with
the content of every refused line taken out is run. The second run ends well. The
first one gives the same results, and the same diagnostics behind one report for
each refused line, in line order; its exit code says whether there was one.
-/
theorem run_emptied (o : Options) (t : Bytes) :
    let run := Batch.run o ⟨t, none⟩ .unlimited
    let clean := Batch.run o ⟨emptied t, none⟩ .unlimited
    clean.status.code = 0 ∧
      run.outlets.received .results = clean.outlets.received .results ∧
      run.outlets.received .diagnostics =
        (refusals t).flatMap (fun e => utf8 "syntax error: " ++ e.message ++ utf8 "\n") ++
          clean.outlets.received .diagnostics ∧
      run.status.code = if refusals t = [] then 0 else 1 := by
  intro run clean
  obtain ⟨hclean, halike⟩ := ofText_emptied t
  obtain ⟨hresults, hdiagnostics⟩ := Batch.linesOf_reports (refusals t)
  have hwrites : Batch.writes o t = Batch.reports (refusals t) ++ Batch.writes o (emptied t) := by
    rw [Batch.writes, Batch.writes, hclean, halike o .empty, refusals_eq_errors]
    rfl
  have hreceived : ∀ c, run.outlets.received c =
      (Transcript.linesOf c (Batch.reports (refusals t))).flatten ++ clean.outlets.received c := by
    intro c
    have hrun := Batch.received_run o t Outlets.open_unlimited c
    have hother := Batch.received_run o (emptied t) Outlets.open_unlimited c
    rw [Outlets.received_unlimited, List.nil_append] at hrun hother
    rw [hrun, hother, hwrites, Transcript.linesOf_append, List.flatten_append]
  refine ⟨?_, ?_, ?_, ?_⟩
  · rw [Batch.code_run, hclean]
    rfl
  · rw [hreceived, hresults]
    rfl
  · rw [hreceived, hdiagnostics, List.flatMap_def]
    rfl
  · rw [Batch.code_run, refusals_eq_errors]

end LineCalculator
