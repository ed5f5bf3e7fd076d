import LineCalculator.Parse.Source
import LineCalculator.Proofs.Lines
import LineCalculator.Proofs.Statements

/-!
# Programs read back as they were written

A program that was read from a text is written out and read again. The lines
that were refused are gone, so the statements move up and are numbered anew;
apart from that the second reading gives the program of the first, and it
refuses nothing.

The argument has three layers.

* **Trees.** Every tree that a derivation builds has the parentheses that the
  writer would add (`Derives.grouped_eq`), holds no negative integer, and has
  names that the lexer found in a text.
* **Statements.** So each of them reads back as itself, on the line where it
  now stands (`Stmt.ReadsBack.parseLine_text`).
* **Lines.** The text of a statement holds neither a newline nor a carriage
  return, so the lines of a written program are the texts of its statements, and
  a blank statement is an empty line (`lines_text`).

## Main results

* `ofText_text_program` — reading what was written gives the program again.
-/

namespace LineCalculator

open Calculator

/-! ## Trees that derivations build -/

/-- A left operand needs no parentheses where the operator's nonterminal derives it. -/
theorem Derives.bracedOnLeft_eq {nt : Nonterminal} {ts : List Token} {x : Expr}
    (h : Derives nt ts x) {op : Operator} (hle : nt.rank ≤ op.nonterminal.rank) :
    x.bracedOnLeft op = false := by
  induction h with
  | sum _ ho _ _ _ =>
      cases ho <;> cases op <;>
        simp_all [Expr.bracedOnLeft, Operator.precedence, Operator.nonterminal, Nonterminal.rank]
  | ofTerm _ ih => exact ih (Nat.le_trans (by decide) hle)
  | product _ ho _ _ _ =>
      cases ho <;> cases op <;> simp [Expr.bracedOnLeft, Operator.precedence]
  | ofFactor _ ih => exact ih (Nat.zero_le _)
  | number _ => rfl
  | name _ => rfl
  | group _ _ _ _ => rfl

theorem Derives.bracedOnRight_eq {nt : Nonterminal} {ts : List Token} {x : Expr}
    (h : Derives nt ts x) {op : Operator} (hop : op.isKnown = true)
    (hle : nt.rank ≤ op.below.rank) : x.bracedOnRight op = false := by
  induction h with
  | sum _ _ _ _ _ =>
      cases op <;> simp_all [Operator.below, Operator.isKnown, Nonterminal.rank]
  | ofTerm _ ih => exact ih (Nat.le_trans (by decide) hle)
  | product _ ho _ _ _ =>
      cases ho <;> cases op <;>
        simp_all [Expr.bracedOnRight, Operator.precedence, Operator.below, Operator.isKnown,
          Nonterminal.rank]
  | ofFactor _ ih => exact ih (Nat.zero_le _)
  | number _ => rfl
  | name _ => rfl
  | group _ _ _ _ => rfl

/-- Grouping changes nothing in an operation whose operands are derived where they belong. -/
theorem Derives.grouped_bin {ts us : List Token} {op : Operator} {x y : Expr}
    (hop : op.isKnown = true) (hx : Derives op.nonterminal ts x) (hy : Derives op.below us y)
    (ihx : x.grouped = x) (ihy : y.grouped = y) : (Expr.bin op x y).grouped = .bin op x y := by
  have hleft : x.bracedOnLeft op = false := hx.bracedOnLeft_eq (Nat.le_refl _)
  have hright : y.bracedOnRight op = false := hy.bracedOnRight_eq hop (Nat.le_refl _)
  rw [Expr.grouped, hleft, hright, ihx, ihy]
  rfl

/-- A derivation builds every parenthesis that the writer would add. -/
theorem Derives.grouped_eq {nt : Nonterminal} {ts : List Token} {x : Expr}
    (h : Derives nt ts x) : x.grouped = x := by
  induction h with
  | sum hx ho hy ihx ihy =>
      obtain ⟨hop, hnt, hbelow⟩ := ho.levels
      rw [← hnt] at hx
      rw [← hbelow] at hy
      exact hx.grouped_bin hop hy ihx ihy
  | ofTerm _ ih => exact ih
  | product hx ho hy ihx ihy =>
      obtain ⟨hop, hnt, hbelow⟩ := ho.levels
      rw [← hnt] at hx
      rw [← hbelow] at hy
      exact hx.grouped_bin hop hy ihx ihy
  | ofFactor _ ih => exact ih
  | number _ => rfl
  | name _ => rfl
  | group _ _ _ ih => rw [Expr.grouped, ih]

theorem Derives.literals_nonneg {nt : Nonterminal} {ts : List Token} {x : Expr}
    (h : Derives nt ts x) : ∀ n ∈ x.literals, 0 ≤ n := by
  induction h with
  | sum _ _ _ ihx ihy =>
      intro n hn
      rcases List.mem_append.mp hn with hn | hn
      · exact ihx n hn
      · exact ihy n hn
  | ofTerm _ ih => exact ih
  | product _ _ _ ihx ihy =>
      intro n hn
      rcases List.mem_append.mp hn with hn | hn
      · exact ihx n hn
      · exact ihy n hn
  | ofFactor _ ih => exact ih
  | number ht =>
      intro n hn
      rw [List.mem_singleton.mp hn, Int64.le_iff_toInt_le, ht.value]
      exact Int.natCast_nonneg _
  | name _ =>
      intro n hn
      cases hn
  | group _ _ _ ih => exact ih

/-- A derivation builds spellable trees if its names are written like names. -/
theorem Derives.spellable {nt : Nonterminal} {ts : List Token} {x : Expr}
    (h : Derives nt ts x) (hts : ∀ t ∈ ts, t.IsName → IsIdentifier t.lexeme) : x.Spellable := by
  induction h with
  | sum _ ho _ ihx ihy =>
      exact .bin ho.levels.1 (ihx fun t ht => hts t (by simp [ht]))
        (ihy fun t ht => hts t (by simp [ht]))
  | ofTerm _ ih => exact ih hts
  | product _ ho _ ihx ihy =>
      exact .bin ho.levels.1 (ihx fun t ht => hts t (by simp [ht]))
        (ihy fun t ht => hts t (by simp [ht]))
  | ofFactor _ ih => exact ih hts
  | number _ => exact .lit _
  | name ht => exact .var (hts _ (by simp) ht)
  | group _ _ _ ih => exact .paren (ih fun t ht => hts t (by simp [ht]))

/-! ## Statements that were read -/

/-- What every statement that was read from a line has in common. -/
structure Stmt.ReadsBack (s : Stmt) : Prop where
  spellable : s.Spellable
  literals_nonneg : ∀ n ∈ s.literals, 0 ≤ n
  grouped_eq : s.grouped = s

theorem DerivesStmt.readsBack {line : Int} {ts : List Token} {s : Stmt}
    (h : DerivesStmt line ts s) (hts : ∀ t ∈ ts, t.IsName → IsIdentifier t.lexeme) :
    s.ReadsBack := by
  cases h with
  | @assign t e us x ht _ hx =>
      have hus : ∀ u ∈ us, u.IsName → IsIdentifier u.lexeme := fun u hu => hts u (by simp [hu])
      exact ⟨.assign (hts t (by simp) ht) (hx.spellable hus), hx.literals_nonneg,
        congrArg (Stmt.assign t.lexeme · line) hx.grouped_eq⟩
  | print hx =>
      exact ⟨.print (hx.spellable hts), hx.literals_nonneg,
        congrArg (Stmt.print · line) hx.grouped_eq⟩
  | blank =>
      refine ⟨.blank line, fun n hn => ?_, rfl⟩
      cases hn

theorem DerivesStmt.onLine_eq {line : Int} {ts : List Token} {s : Stmt}
    (h : DerivesStmt line ts s) : s.onLine line = s := by
  cases h <;> rfl

theorem readsBack_of_parseLine {text : Bytes} {line : Int} {s : Stmt}
    (h : parseLine text line = .ok s) : s.ReadsBack := by
  refine ((parseLine_eq_ok_iff text line s).mp h).readsBack fun t ht hname => ?_
  rw [tokens_eq_tokensFrom] at ht
  exact matches_of_mem_tokensFrom ht hname

/-- Such a statement reads back as itself, on any line. -/
theorem Stmt.ReadsBack.parseLine_text {s : Stmt} (h : s.ReadsBack) (line : Int) :
    parseLine s.text line = .ok (s.onLine line) := by
  have hgrouped := LineCalculator.parseLine_text h.spellable h.literals_nonneg line
  rwa [h.grouped_eq] at hgrouped

/-! ## Lines of a written program -/

/-- The text of a statement stays within a line. -/
theorem Stmt.Spellable.notMem_text {s : Stmt} (h : s.Spellable) :
    Byte.newline ∉ s.text ∧ Byte.carriageReturn ∉ s.text := by
  have hexpr {x : Expr} (hx : x.Spellable) {b : UInt8} (hb : Expr.isTextByte b = false) :
      b ∉ x.text := by
    intro hmem
    rw [hx.mem_text b hmem] at hb
    cases hb
  have hassign {name : Bytes} {x : Expr} {line : Int} (hname : IsIdentifier name)
      (hx : x.Spellable) {b : UInt8} (hb : Expr.isTextByte b = false)
      (hequals : b ∉ utf8 " = ") : b ∉ (Stmt.assign name x line).text := by
    have hleft : b ∉ (Expr.var name).text := hexpr (.var hname) hb
    rw [Expr.text_var] at hleft
    simp only [Stmt.text, List.mem_append, not_or]
    exact ⟨⟨hleft, hequals⟩, hexpr hx hb⟩
  cases h with
  | assign hname hx =>
      exact ⟨hassign hname hx (by decide) (by decide), hassign hname hx (by decide) (by decide)⟩
  | print hx => exact ⟨hexpr hx (by decide), hexpr hx (by decide)⟩
  | blank _ => exact ⟨List.not_mem_nil, List.not_mem_nil⟩

/-- The lines of a written program are the texts of its statements. -/
theorem lines_text {p : Program} (h : ∀ s ∈ p, s.Spellable) :
    lines (Program.text p) = p.map Stmt.text := by
  have htext : Program.text p = (p.map Stmt.text).flatMap fun line => line ++ [Byte.newline] :=
    (List.flatMap_map Stmt.text (fun line => line ++ [Byte.newline]) p).symm
  rw [htext]
  apply lines_flatMap_newline
  intro line hline
  obtain ⟨s, hs, rfl⟩ := List.mem_map.mp hline
  obtain ⟨hnewline, hreturn⟩ := (h s hs).notMem_text
  exact ⟨hnewline, fun hlast => hreturn (List.mem_of_getLast? hlast)⟩

/-! ## Programs -/

namespace Parsed

/-- Every statement of a program was read from one of its lines. -/
theorem readsBack_of_mem_program {number : Nat} {ls : List Bytes} {s : Stmt}
    (h : s ∈ (ofLines number ls).program) : s.ReadsBack := by
  induction ls generalizing number with
  | nil => cases h
  | cons line ls ih =>
      rw [ofLines] at h
      cases hline : parseLine line number with
      | ok s' =>
          rw [hline] at h
          rcases List.mem_cons.mp h with rfl | h
          · exact readsBack_of_parseLine hline
          · exact ih h
      | error e =>
          rw [hline] at h
          exact ih h

/-- Behind the first statement, numbers go up by one. -/
theorem onLine_succ (number : Nat) :
    (fun (i : Nat) (s : Stmt) => s.onLine (number + (i + 1 : Nat))) =
      fun (i : Nat) (s : Stmt) => s.onLine ((number + 1 : Nat) + i) := by
  funext i s
  have hnumber : (number : Int) + (i + 1 : Nat) = (number + 1 : Nat) + i := by omega
  rw [hnumber]

/-- Statements that read back are read from their texts in order, and numbered so. -/
theorem ofLines_map_text (number : Nat) {p : Program} (h : ∀ s ∈ p, s.ReadsBack) :
    ofLines number (p.map Stmt.text) =
      ⟨p.mapIdx fun i s => s.onLine (number + i), []⟩ := by
  induction p generalizing number with
  | nil => rfl
  | cons s p ih =>
      have hrest := ih (number + 1) fun s' hs' => h s' (by simp [hs'])
      rw [List.map_cons, ofLines, (h s (by simp)).parseLine_text, hrest, List.mapIdx_cons,
        onLine_succ]
      simp [cons]

/-- Where no line is refused, statements stand on the lines in order. -/
theorem mapIdx_onLine_program {number : Nat} {ls : List Bytes}
    (h : (ofLines number ls).errors = []) :
    (ofLines number ls).program.mapIdx (fun i s => s.onLine (number + i)) =
      (ofLines number ls).program := by
  induction ls generalizing number with
  | nil => rfl
  | cons line ls ih =>
      rw [ofLines] at h ⊢
      cases hline : parseLine line number with
      | ok s =>
          rw [hline] at h
          have hs : s.onLine (number : Int) = s :=
            ((parseLine_eq_ok_iff line number s).mp hline).onLine_eq
          show (s :: (ofLines (number + 1) ls).program).mapIdx _ = _
          rw [List.mapIdx_cons, onLine_succ, ih h]
          simp [cons, hs]
      | error e =>
          rw [hline] at h
          cases h

end Parsed

/--
**Reading what was written.** Whatever text a program was read from, writing
the program and reading it again refuses no line and gives the same statements,
numbered from one; and if the text had no syntax error, it gives exactly what
the text gave.
-/
theorem ofText_text_program (t : Bytes) :
    Parsed.ofText (Program.text (Parsed.ofText t).program) =
        ⟨(Parsed.ofText t).program.mapIdx fun i s => s.onLine (i + 1), []⟩ ∧
      ((Parsed.ofText t).errors = [] →
        Parsed.ofText (Program.text (Parsed.ofText t).program) = Parsed.ofText t) := by
  have hreadsBack : ∀ s ∈ (Parsed.ofText t).program, s.ReadsBack := fun s hs =>
    Parsed.readsBack_of_mem_program hs
  have hlines : lines (Program.text (Parsed.ofText t).program) =
      (Parsed.ofText t).program.map Stmt.text :=
    lines_text fun s hs => (hreadsBack s hs).spellable
  have hagain : Parsed.ofText (Program.text (Parsed.ofText t).program) =
      ⟨(Parsed.ofText t).program.mapIdx fun i s => s.onLine ((1 : Nat) + i), []⟩ := by
    have hread := Parsed.ofLines_map_text 1 hreadsBack
    rwa [← hlines] at hread
  constructor
  · have hfrom : (fun (i : Nat) (s : Stmt) => s.onLine ((1 : Nat) + i)) =
        fun (i : Nat) (s : Stmt) => s.onLine (i + 1) := by
      funext i s
      rw [Int.add_comm]
      rfl
    rw [hagain, hfrom]
  · intro herrors
    rw [hagain, Parsed.ofText, Parsed.mapIdx_onLine_program herrors, ← herrors]
    rfl

end LineCalculator
