import LineCalculator.Proofs.RefusedTokens
import LineCalculator.Proofs.UnassignedReads

/-!
# Messages are one line

Errors and diagnostics are shown one to a line. That works as long as no message
has a newline inside, and messages are made from the input, which may hold any
bytes. This module goes through everything that messages are made of.

* Numerals hold digits and a sign, and operators have fixed spellings.
* Illegal input is quoted. Quoting leaves a character as it is only if it is
  printable, which the newline is not, and the bytes of all other characters are
  either the character itself or lie beyond basic Latin
  (`toNat_eq_of_mem_utf8EncodeChar`).
* A token that is not illegal goes by its kind, and the kinds of tokens are few
  (`Calculator.kind_of_mem_tokensFrom`). Only integers are out of range, so the word
  that such a message repeats has digits only.
* A diagnostic repeats the name of a variable, and nothing keeps names of
  variables from having newlines in them except that they were read by the parser
  (`Diagnostic.newline_mem_message_iff`).

## Main results

* `newline_notMem_quoted` — quoted text is one line.
* `newline_notMem_message_of_parseLine` — and so is every syntax error.
* `newline_notMem_message_of_mem_log` — and every diagnostic of a program that was
  read.
-/

namespace LineCalculator

/-! ## Numerals and operators -/

namespace Decimal

theorem newline_notMem_ofInt (n : Int) : Byte.newline ∉ ofInt n :=
  notMem_ofInt (by decide) (by decide) n

theorem newline_notMem_ofInt64 (n : Int64) : Byte.newline ∉ ofInt64 n :=
  newline_notMem_ofInt n.toInt

end Decimal

theorem Operator.newline_notMem_symbol (op : Operator) : Byte.newline ∉ op.symbol := by
  cases op with
  | add => decide
  | sub => decide
  | mul => decide
  | div => decide
  | unknown code =>
      have hleft : Byte.newline ∉ utf8 "Op(" := by decide
      have hright : Byte.newline ∉ utf8 ")" := by decide
      simp only [symbol, List.mem_append, hleft, hright, Decimal.newline_notMem_ofInt, or_self,
        not_false_eq_true]

/-! ## Quoted text -/

/-- A byte of basic Latin in the encoding of a character is that character. -/
theorem toNat_eq_of_mem_utf8EncodeChar {b : UInt8} {c : Char} (hb : b.toNat < 128)
    (h : b ∈ String.utf8EncodeChar c) : c.toNat = b.toNat := by
  have hne {n : Nat} (hlow : 128 ≤ n) (hhigh : n < 256) : b ≠ UInt8.ofNat n := by
    rintro rfl
    rw [UInt8.toNat_ofNat_of_lt' hhigh] at hb
    omega
  have htail (n : Nat) : b ≠ UInt8.ofNat (n % 64 + 128) := hne (by omega) (by omega)
  rw [String.utf8EncodeChar] at h
  split at h
  · next hascii =>
    rw [List.mem_singleton.mp h, UInt8.toNat_ofNat_of_lt' (Nat.lt_of_le_of_lt hascii (by decide))]
    rfl
  · split at h
    · have hlead := hne (n := c.val.toNat / 64 % 32 + 192) (by omega) (by omega)
      simp only [List.mem_cons, hlead, htail, List.not_mem_nil, or_self] at h
    · split at h
      · have hlead := hne (n := c.val.toNat / 4096 % 16 + 224) (by omega) (by omega)
        simp only [List.mem_cons, hlead, htail, List.not_mem_nil, or_self] at h
      · have hlead := hne (n := c.val.toNat / 262144 % 8 + 240) (by omega) (by omega)
        simp only [List.mem_cons, hlead, htail, List.not_mem_nil, or_self] at h

theorem toNat_eq_of_newline_mem {c : Char} (h : Byte.newline ∈ String.utf8EncodeChar c) :
    c.toNat = 10 :=
  toNat_eq_of_mem_utf8EncodeChar (by decide) h

namespace Quoted

theorem newline_notMem_hex (width n : Nat) : Byte.newline ∉ hex width n := by
  have hdigit : ∀ k < 16, Byte.newline ≠ hexDigit k := by decide
  induction width generalizing n with
  | zero => exact List.not_mem_nil
  | succ width ih =>
      rw [hex, List.mem_append, List.mem_singleton, not_or]
      exact ⟨ih (n / 16), hdigit (n % 16) (Nat.mod_lt n (by decide))⟩

theorem newline_notMem_spelled {mark : UInt8} (hmark : Byte.newline ≠ mark) (width n : Nat) :
    Byte.newline ∉ spelled mark width n := by
  have hbackslash : Byte.newline ≠ 92 := by decide
  simp [spelled, hbackslash, hmark, newline_notMem_hex]

theorem letter?_ne_newline (n : Nat) : letter? n ≠ some Byte.newline := by
  unfold letter?
  split <;> decide

/-- A character is shown without a newline: if it is shown as it is, it is printable. -/
theorem newline_notMem_char (c : Char) : Byte.newline ∉ char c := by
  have hbackslash : Byte.newline ≠ 92 := by decide
  dsimp only [char]
  split
  · next hmark =>
    intro h
    have hcode := toNat_eq_of_newline_mem ((List.mem_cons.mp h).resolve_left hbackslash)
    simp [hcode] at hmark
  · split
    · next hprintable =>
      intro h
      have hchar : c = '\n' := by rw [← Char.ofNat_toNat c, toNat_eq_of_newline_mem h]
      rw [hchar] at hprintable
      exact absurd hprintable (by decide)
    · split
      · next b hletter =>
        have hb : b ≠ Byte.newline := fun hb => letter?_ne_newline _ (hb ▸ hletter)
        simp [hbackslash, Ne.symm hb]
      · split
        · exact newline_notMem_spelled (by decide) 2 _
        · split
          · exact newline_notMem_spelled (by decide) 4 _
          · exact newline_notMem_spelled (by decide) 8 _

end Quoted

/-- **Quoted text is one line**, whatever is quoted. -/
theorem newline_notMem_quoted (t : Bytes) : Byte.newline ∉ quoted t := by
  have hquote : Byte.newline ≠ 34 := by decide
  have hrune (r : Rune) : Byte.newline ∉ Quoted.rune r := by
    cases r with
    | char c => exact Quoted.newline_notMem_char c
    | stray b => exact Quoted.newline_notMem_spelled (by decide) 2 b.toNat
  simp [quoted, hquote, hrune]

/-! ## Syntax errors -/

namespace Calculator

/-- The kinds of tokens. -/
theorem kind_of_mem_tokensFrom {start : Nat} {text : Bytes} {t : Token}
    (h : t ∈ tokensFrom start text) :
    t.kind = .identifier ∨ t.kind = .integer ∨ t.kind = .illegal ∨
      ∃ b ∈ symbols, t.kind = .ofByte b := by
  fun_induction tokensFrom start text with
  | case1 => cases h
  | case2 start b rest hletter word ih =>
      rcases List.mem_cons.mp h with rfl | h
      · exact .inl rfl
      · exact ih h
  | case3 start b rest hletter hdigit word ih =>
      rcases List.mem_cons.mp h with rfl | h
      · exact .inr (.inl rfl)
      · exact ih h
  | case4 start b rest hletter hdigit hblank word ih => exact ih h
  | case5 start b rest hletter hdigit hblank ih =>
      rcases List.mem_cons.mp h with rfl | h
      · by_cases hb : b ∈ symbols
        · exact .inr (.inr (.inr ⟨b, hb, if_pos hb⟩))
        · exact .inr (.inr (.inl (if_neg hb)))
      · exact ih h

end Calculator

open Calculator

/-- Messages call a token of a line something without a newline. -/
theorem Token.newline_notMem_description {text : Bytes} {t : Token}
    (h : t ∈ tokens text ++ [Token.atEnd text.length]) : Byte.newline ∉ t.description := by
  have hsymbol : ∀ b ∈ symbols, Byte.newline ∉ (Kind.ofByte b).name := by decide +kernel
  unfold description
  split
  · have hlead : Byte.newline ∉ utf8 "illegal input " := by decide
    rw [List.mem_append, not_or]
    exact ⟨hlead, newline_notMem_quoted t.lexeme⟩
  · next hlegal =>
    rcases List.mem_append.mp h with h | h
    · rw [tokens_eq_tokensFrom] at h
      rcases kind_of_mem_tokensFrom h with hkind | hkind | hkind | ⟨b, hb, hkind⟩
      · rw [hkind]
        decide
      · rw [hkind]
        decide
      · exact absurd hkind hlegal
      · rw [hkind]
        exact hsymbol b hb
    · have hend : Byte.newline ∉ Kind.endOfText.name := by decide
      rw [List.mem_singleton.mp h]
      exact hend

/-- Only integers are out of range. -/
theorem ParseState.isInteger_of_run {last t : Token} {s : ParseState} {ts : List Token}
    (h : run last s ts = .error (t, .outOfRange)) : t ∈ ts ∧ t.kind = .integer := by
  obtain ⟨before, s', -, ⟨-, -, hfinish⟩ | ⟨after, rfl, hstep⟩⟩ := exists_leads_of_run h
  · cases s' with
    | operand sum product outer => cases hfinish
    | operator sum term outer => cases outer <;> cases hfinish
  · refine ⟨by simp, t.symbol_eq_integer_iff.mp ?_⟩
    cases s' with
    | operand sum product outer =>
        unfold step at hstep
        cases hsymbol : t.symbol <;> simp [hsymbol] at hstep ⊢
    | operator sum term outer =>
        unfold step at hstep
        cases hsymbol : t.symbol <;> cases outer <;> simp [hsymbol] at hstep

theorem Expectation.newline_notMem_text (expected : Expectation) :
    Byte.newline ∉ expected.text := by
  cases expected <;> decide

theorem Report.newline_notMem_message {r : Report} (h : Byte.newline ∉ r.text) :
    Byte.newline ∉ r.message := by
  have hline : Byte.newline ∉ utf8 "line " := by decide
  have hcolon : Byte.newline ∉ utf8 ":" := by decide
  have hgap : Byte.newline ∉ utf8 ": " := by decide
  simp only [message, List.mem_append, hline, hcolon, hgap, h, Decimal.newline_notMem_ofInt,
    or_self, not_false_eq_true]

/-- **A syntax error is one line**, whatever the text is that is refused. -/
theorem newline_notMem_message_of_parseLine {text : Bytes} {line : Int} {e : SyntaxError}
    (h : parseLine text line = .error e) : Byte.newline ∉ e.message := by
  have hmem : e.token ∈ tokens text ++ [Token.atEnd text.length] := by
    obtain ⟨-, before, after, hsplit, -⟩ := parseTokens_error h rfl
      fun t ht => (standsIn_of_mem_tokens ht).kind_ne_endOfText
    rw [hsplit]
    simp
  refine Report.newline_notMem_message ?_
  show Byte.newline ∉ e.text
  unfold SyntaxError.text
  cases hcause : e.cause with
  | unexpected expected =>
      have hlead : Byte.newline ∉ utf8 "unexpected " := by decide
      have hgap : Byte.newline ∉ utf8 ", expected " := by decide
      simp only [List.mem_append, hlead, hgap, Token.newline_notMem_description hmem,
        expected.newline_notMem_text, or_self, not_false_eq_true]
  | outOfRange =>
      have hlead : Byte.newline ∉ utf8 "integer literal out of range: " := by decide
      have hinteger : e.token ∈ tokens text ∧ e.token.kind = .integer := by
        obtain ⟨-, ⟨t, eq, rest, hts, -, -, hrun⟩ | ⟨-, -, hrun⟩⟩ := parseTokens_error_cases h
        · obtain ⟨hrest, hkind⟩ := ParseState.isInteger_of_run (hcause ▸ hrun)
          rw [hts]
          exact ⟨by simp [hrest], hkind⟩
        · exact ParseState.isInteger_of_run (hcause ▸ hrun)
      have hdigits := ((standsIn_of_mem_tokens hinteger.1).integer_iff.mp hinteger.2).2
      rw [List.mem_append, not_or]
      exact ⟨hlead, fun hnewline => absurd (hdigits _ hnewline) (by decide)⟩

/-- Every error in a text is one line. -/
theorem Parsed.newline_notMem_message_of_mem_errors {number : Nat} {ls : List Bytes}
    {e : SyntaxError} (h : e ∈ (ofLines number ls).errors) : Byte.newline ∉ e.message := by
  induction ls generalizing number with
  | nil => cases h
  | cons line ls ih =>
      rw [ofLines] at h
      cases hline : parseLine line number with
      | ok stmt =>
          rw [hline] at h
          exact ih h
      | error e' =>
          rw [hline] at h
          rcases List.mem_cons.mp h with rfl | h
          · exact newline_notMem_message_of_parseLine hline
          · exact ih h

/-! ## Diagnostics -/

/-- A diagnostic has a newline in it only if it names a variable that has one. -/
theorem Diagnostic.newline_mem_message_iff (d : Diagnostic) :
    Byte.newline ∈ d.message ↔ ∃ name line, d = .undefined name line ∧ Byte.newline ∈ name := by
  cases d with
  | divisionByZero => exact iff_of_false (by decide) (by simp)
  | overflow l op r =>
      have hlead : Byte.newline ∉ utf8 "integer overflow: " := by decide
      have hgap : Byte.newline ∉ utf8 " " := by decide
      simp [message, hlead, hgap, Decimal.newline_notMem_ofInt64, op.newline_notMem_symbol]
  | undefined name line =>
      have hplace : Byte.newline ∉
          (if 0 < line then utf8 "line " ++ Decimal.ofInt line ++ utf8 ": " else []) := by
        have hlead : Byte.newline ∉ utf8 "line " := by decide
        have hgap : Byte.newline ∉ utf8 ": " := by decide
        split
        · simp [hlead, hgap, Decimal.newline_notMem_ofInt]
        · exact List.not_mem_nil
      have hlead : Byte.newline ∉ utf8 "undefined variable '" := by decide
      have hquote : Byte.newline ∉ utf8 "'" := by decide
      simp only [message, List.mem_append, hplace, hlead, hquote, false_or, or_false]
      constructor
      · intro hname
        exact ⟨name, line, rfl, hname⟩
      · rintro ⟨_, _, heq, hname⟩
        cases heq
        exact hname

theorem newline_notMem_of_isIdentifier {name : Bytes} (h : IsIdentifier name) :
    Byte.newline ∉ name := by
  intro hnewline
  have hall := ((isIdentifier_iff name).mp h).2
  exact absurd (List.all_eq_true.mp hall _ hnewline) (by decide)

theorem Expr.Spellable.isIdentifier_of_mem_names {x : Expr} (h : x.Spellable) :
    ∀ name ∈ x.names, IsIdentifier name := by
  induction h with
  | lit n => exact List.forall_mem_nil _
  | var hname => exact List.forall_mem_singleton.mpr hname
  | bin _ _ _ ihl ihr => exact List.forall_mem_append.mpr ⟨ihl, ihr⟩
  | paren _ ih => exact ih

theorem Stmt.Spellable.isIdentifier_of_mem_reads {stmt : Stmt} (h : stmt.Spellable) :
    ∀ name ∈ stmt.reads, IsIdentifier name := by
  cases h with
  | assign _ hx => exact hx.isIdentifier_of_mem_names
  | print hx => exact hx.isIdentifier_of_mem_names
  | blank _ => exact List.forall_mem_nil _

/-- What the analysis reports is read by a statement. -/
theorem Program.exists_reads_of_mem_unassignedReads {unbound : Bytes → Bool} {p : Program}
    {name : Bytes} {line : Int} (h : .undefined name line ∈ p.unassignedReads unbound) :
    ∃ stmt ∈ p, name ∈ stmt.reads := by
  obtain ⟨⟨stmt, i⟩, hstmt, hreport⟩ := List.mem_flatMap.mp h
  obtain ⟨name', hname, heq⟩ := List.mem_map.mp hreport
  cases heq
  exact ⟨stmt, List.fst_mem_of_mem_zipIdx hstmt, (List.mem_filter.mp hname).1⟩

/-- **A diagnostic of a program that was read is one line.** -/
theorem newline_notMem_message_of_mem_log {o : Options} {s : Store} {p : Program}
    (hp : ∀ stmt ∈ p, stmt.Spellable) {d : Diagnostic}
    (h : .diagnostic d ∈ (p.execute o s).log) : Byte.newline ∉ d.message := by
  rw [d.newline_mem_message_iff]
  rintro ⟨name, line, rfl, hnewline⟩
  have hreport : Event.diagnostic (.undefined name line) ∈
      (p.execute o s).log.filter Event.isUndefined := List.mem_filter.mpr ⟨h, rfl⟩
  rw [Program.filter_isUndefined_execute o s fun stmt hstmt => (hp stmt hstmt).isWellFormed]
    at hreport
  obtain ⟨d, hd, heq⟩ := List.mem_map.mp hreport
  cases heq
  obtain ⟨stmt, hstmt, hname⟩ := Program.exists_reads_of_mem_unassignedReads hd
  exact newline_notMem_of_isIdentifier
    ((hp stmt hstmt).isIdentifier_of_mem_reads name hname) hnewline

end LineCalculator
