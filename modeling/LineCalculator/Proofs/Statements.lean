import LineCalculator.Proofs.Spelling

/-!
# Written statements read back

A statement need not come from the parser: it may carry a negative integer, or
lack the parentheses that its text shows. This module says what becomes of any
assignment or expression that is written and then read as a line.

Reading succeeds exactly if no integer in the statement is negative. What is
read then is the statement with the written parentheses made explicit
(`Stmt.grouped`), on the line it was read from. Hence it differs from the
statement by parentheses only, is written the same way, and does the same.

## Main results

* `parseLine_text` — a statement without negative integers reads back grouped.
* `parseLine_text_ne_ok` — a statement with one is refused.
* `parseLine_text_meaning` — writing keeps the meaning.
-/

namespace LineCalculator

open Calculator

namespace Stmt

/-- The statement with another expression. -/
def mapExpr (f : Expr → Expr) : Stmt → Stmt
  | assign name x line => assign name (f x) line
  | print x line => print (f x) line
  | blank line => blank line
  | missing => missing

/-- The statement with the parentheses that the writer adds. -/
def grouped (s : Stmt) : Stmt := s.mapExpr Expr.grouped

/-- The statement without any parentheses. -/
def bare (s : Stmt) : Stmt := s.mapExpr Expr.bare

/-- All names of the statement, the assigned one included. -/
def names : Stmt → List Bytes
  | assign name x _ => name :: x.names
  | print x _ => x.names
  | _ => []

/-- The integers of the statement. -/
def literals : Stmt → List Int64
  | assign _ x _ => x.literals
  | print x _ => x.literals
  | _ => []

/-- Nothing is missing, every operator means something, and names are names. -/
inductive Spellable : Stmt → Prop
  | assign {name : Bytes} {x : Expr} {line : Int} : IsIdentifier name → x.Spellable →
      Spellable (assign name x line)
  | print {x : Expr} {line : Int} : x.Spellable → Spellable (print x line)
  | blank (line : Int) : Spellable (blank line)

theorem spellable_of_isWellFormed {s : Stmt} (hwf : s.isWellFormed = true)
    (hnames : ∀ name ∈ s.names, IsIdentifier name) : Spellable s := by
  cases s with
  | assign name x line =>
      exact .assign (hnames name (by simp [names]))
        (Expr.spellable_of_isWellFormed hwf fun y hy => hnames y (by simp [names, hy]))
  | print x line => exact .print (Expr.spellable_of_isWellFormed hwf hnames)
  | blank line => exact .blank line
  | missing => cases hwf

theorem text_grouped (s : Stmt) : s.grouped.text = s.text := by
  cases s with
  | assign name x line => exact congrArg (name ++ utf8 " = " ++ ·) x.text_grouped
  | print x line => exact x.text_grouped
  | blank line => rfl
  | missing => rfl

theorem text_onLine (s : Stmt) (line : Int) : (s.onLine line).text = s.text := by
  cases s <;> rfl

theorem bare_grouped (s : Stmt) : s.grouped.bare = s.bare := by
  cases s with
  | assign name x line => exact congrArg (assign name · line) x.bare_grouped
  | print x line => exact congrArg (print · line) x.bare_grouped
  | blank line => rfl
  | missing => rfl

theorem bare_onLine (s : Stmt) (line : Int) : (s.onLine line).bare = s.bare.onLine line := by
  cases s <;> rfl

/-- Statements that differ by parentheses only do the same. -/
theorem execute_bare (o : Options) (st : Store) (s : Stmt) :
    s.bare.execute o st = s.execute o st := by
  cases s with
  | assign name x line =>
      show (assign name x.bare line).execute o st = _
      rw [execute, execute, Expr.evaluate_bare]
  | print x line =>
      show (print x.bare line).execute o st = _
      rw [execute, execute, Expr.evaluate_bare]
  | blank line => rfl
  | missing => rfl

end Stmt

/-! ## Reading succeeds -/

/-- A spelled expression that fills the rest of a line. -/
theorem Spells.derives {w : Bytes} {nt : Nonterminal} {x : Expr} (h : Spells w nt x)
    (start : Nat) : Derives .expr (tokensFrom start w) x := by
  obtain ⟨ts, htokens, hx⟩ := h start [] separate_nil
  rw [List.append_nil, tokensFrom_nil, List.append_nil] at htokens
  rw [htokens]
  exact hx.lift (by cases nt <;> decide)

/-- The tokens of an assignment: the name, the equals sign, and the expression. -/
theorem tokens_assign {name : Bytes} {x : Expr} {line : Int} (hname : IsIdentifier name) :
    ∃ t e start, tokens (Stmt.assign name x line).text = t :: e :: tokensFrom start x.text ∧
      t.IsName ∧ t.lexeme = name ∧ e.IsEquals := by
  have hequals : utf8 " = " = [32, 61, 32] := rfl
  have htext : (Stmt.assign name x line).text = name ++ 32 :: 61 :: 32 :: x.text := by
    simp [Stmt.text, hequals]
  rw [tokens_eq_tokensFrom, htext, tokensFrom_name 0 hname (separate_blank _),
    tokensFrom_blank _ _ (by decide), tokensFrom_symbol _ _ (by decide),
    tokensFrom_blank _ _ (by decide)]
  exact ⟨_, _, _, rfl, rfl, rfl, rfl⟩

/-- The tokens of a written statement derive it, with the written parentheses. -/
theorem Stmt.Spellable.derivesStmt_text {s : Stmt} (h : s.Spellable)
    (hliterals : ∀ n ∈ s.literals, 0 ≤ n) (line : Int) :
    DerivesStmt line (tokens s.text) (s.grouped.onLine line) := by
  cases h with
  | @assign name x _ hname hx =>
      obtain ⟨t, e, start, htokens, ht, hlexeme, he⟩ := tokens_assign hname
      rw [htokens, ← hlexeme]
      exact .assign ht he ((hx.spells_text hliterals).derives start)
  | @print x _ hx =>
      rw [tokens_eq_tokensFrom]
      exact .print ((hx.spells_text hliterals).derives 0)
  | blank _ =>
      show DerivesStmt line (tokens []) _
      rw [tokens_eq_tokensFrom, tokensFrom_nil]
      exact .blank

/-- A statement without negative integers reads back grouped. -/
theorem parseLine_text {s : Stmt} (h : s.Spellable) (hliterals : ∀ n ∈ s.literals, 0 ≤ n)
    (line : Int) : parseLine s.text line = .ok (s.grouped.onLine line) :=
  (parseLine_eq_ok_iff s.text line _).mpr (h.derivesStmt_text hliterals line)

/-! ## Reading fails -/

/-- A refused text is no expression. -/
theorem Refused.not_derives {w : Bytes} (h : Refused w) (start : Nat) (x : Expr) :
    ¬ Derives .expr (tokensFrom start w) x := by
  intro hx
  have hrun := (ParseState.run_start_eq_ok_iff (Token.atEnd 0) _ x).mpr hx
  obtain ⟨e, he⟩ := h (Token.atEnd 0) none none [] start [] separate_nil
  rw [List.append_nil] at he
  rw [ParseState.start, he] at hrun
  cases hrun

/-- No token of a written expression is an equals sign. -/
theorem Expr.Spellable.not_isEquals {x : Expr} (h : x.Spellable) {start : Nat} {t : Token}
    (ht : t ∈ tokensFrom start x.text) : ¬ t.IsEquals := by
  intro he
  have hmem : 61 ∈ x.text := mem_of_mem_tokensFrom ht he
  have hbyte := h.mem_text 61 hmem
  revert hbyte
  decide

/-- A written integer starts with a digit or a sign. -/
theorem ofInt64_eq_cons (n : Int64) :
    ∃ b t, Decimal.ofInt64 n = b :: t ∧ Byte.isBlank b = false := by
  rw [Decimal.ofInt64]
  cases n.toInt with
  | ofNat k =>
      obtain ⟨b, t, h⟩ := List.exists_cons_of_ne_nil (Decimal.ofNat_ne_nil k)
      have hdigit : Byte.isDigit b = true := Decimal.isDigit_of_mem_ofNat k b (by simp [h])
      exact ⟨b, t, h, (Byte.classes_of_isDigit hdigit).2⟩
  | negSucc k => exact ⟨45, Decimal.ofNat (k + 1), rfl, by decide⟩

/-- A written expression does not start with a blank. -/
theorem Expr.Spellable.text_eq_cons {x : Expr} (h : x.Spellable) :
    ∃ b t, x.text = b :: t ∧ Byte.isBlank b = false := by
  have hparen (w t : Bytes) :
      ∃ b t', parenthesized w ++ t = b :: t' ∧ Byte.isBlank b = false :=
    ⟨40, w ++ 41 :: t, parenthesized_append w t, by decide⟩
  induction h with
  | lit n =>
      rw [text_lit]
      exact ofInt64_eq_cons n
  | var hname =>
      obtain ⟨b, more, rfl, hb, -⟩ := hname
      exact ⟨b, more, text_var _, (Byte.classes_of_isLetter hb).2⟩
  | bin _ _ _ ihl _ =>
      obtain ⟨b, t, ht, hb⟩ := ihl
      simp only [text_bin, List.append_assoc]
      split
      · exact hparen _ _
      · rw [ht]
        exact ⟨b, _, rfl, hb⟩
  | paren _ _ =>
      rw [text_paren, ← List.append_nil (parenthesized _)]
      exact hparen _ _

/-- A written expression has a token. -/
theorem Expr.Spellable.tokensFrom_text_ne_nil {x : Expr} (h : x.Spellable) (start : Nat) :
    tokensFrom start x.text ≠ [] := by
  obtain ⟨b, t, ht, hb⟩ := h.text_eq_cons
  rw [ht]
  exact tokensFrom_ne_nil start t hb

/-- A statement with a negative integer is refused. -/
theorem parseLine_text_ne_ok {s : Stmt} (h : s.Spellable) (hneg : ∃ n ∈ s.literals, n < 0)
    (line : Int) (s' : Stmt) : parseLine s.text line ≠ .ok s' := by
  intro hok
  have hs' := (parseLine_eq_ok_iff s.text line s').mp hok
  cases h with
  | @assign name x _ hname hx =>
      obtain ⟨t, e, start, htokens, ht, -, he⟩ := tokens_assign hname
      rw [htokens] at hs'
      cases hs' with
      | assign _ _ hy => exact (hx.refused_text hneg).not_derives start _ hy
      | print hy => exact not_derives_name_equals ht he hy
  | @print x _ hx =>
      rw [tokens_eq_tokensFrom] at hs'
      generalize htokens : tokensFrom 0 (Stmt.print x _).text = ts at hs'
      have htext : tokensFrom 0 x.text = ts := htokens
      cases hs' with
      | @assign t e _ _ _ he _ =>
          have hmem : e ∈ tokensFrom 0 x.text := by
            rw [htext]
            simp
          exact hx.not_isEquals hmem he
      | print hy =>
          rw [← htext] at hy
          exact (hx.refused_text hneg).not_derives 0 _ hy
      | blank => exact hx.tokensFrom_text_ne_nil 0 htext
  | blank _ =>
      obtain ⟨n, hn, -⟩ := hneg
      cases hn

/-! ## Writing keeps the meaning -/

/--
**Writing keeps the meaning.** A statement of any shape is written and read as
a line. Reading succeeds exactly if no integer in it is negative; and what is
read differs by parentheses only, is written the same way, and has the same
events and leaves the same variables in every store and under all options.
-/
theorem parseLine_text_meaning (s : Stmt) (line : Int) (hwf : s.isWellFormed = true)
    (hnames : ∀ name ∈ s.names, IsIdentifier name) :
    ((∃ s', parseLine s.text line = .ok s') ↔ ∀ n ∈ s.literals, 0 ≤ n) ∧
      ∀ s', parseLine s.text line = .ok s' →
        s'.bare = (s.onLine line).bare ∧ s'.text = s.text ∧
          ∀ o st, s'.execute o st = (s.onLine line).execute o st := by
  have hs := Stmt.spellable_of_isWellFormed hwf hnames
  have hnonneg : ∀ s', parseLine s.text line = .ok s' → ∀ n ∈ s.literals, 0 ≤ n := by
    intro s' hs' n hn
    refine Int64.not_lt.mp fun hlt => ?_
    exact parseLine_text_ne_ok hs ⟨n, hn, hlt⟩ line s' hs'
  refine ⟨⟨fun ⟨s', hs'⟩ => hnonneg s' hs', fun h => ⟨_, parseLine_text hs h line⟩⟩, ?_⟩
  intro s' hs'
  -- What is read is the grouped statement on its new line.
  have hgrouped : s.grouped.onLine line = s' := by
    rw [parseLine_text hs (hnonneg s' hs') line] at hs'
    exact Except.ok.inj hs'
  have hbare : s'.bare = (s.onLine line).bare := by
    rw [← hgrouped, Stmt.bare_onLine, Stmt.bare_grouped, Stmt.bare_onLine]
  refine ⟨hbare, ?_, ?_⟩
  · rw [← hgrouped, Stmt.text_onLine, Stmt.text_grouped]
  · intro o st
    rw [← Stmt.execute_bare, hbare, Stmt.execute_bare]

/-- The law at `x = (1 - 2) * (y * 3)`, whose tree has no parentheses. -/
theorem parseLine_text_meaning_product :
    let s := Stmt.assign (utf8 "x")
      (.bin .mul (.bin .sub (.lit 1) (.lit 2)) (.bin .mul (.var (utf8 "y")) (.lit 3))) 0
    s.isWellFormed = true ∧ (∀ name ∈ s.names, IsIdentifier name) ∧
      (((∃ s', parseLine s.text 5 = .ok s') ↔ ∀ n ∈ s.literals, 0 ≤ n) ∧
        ∀ s', parseLine s.text 5 = .ok s' →
          s'.bare = (s.onLine 5).bare ∧ s'.text = s.text ∧
            ∀ o st, s'.execute o st = (s.onLine 5).execute o st) :=
  ⟨by decide, by decide, parseLine_text_meaning _ 5 (by decide) (by decide)⟩

end LineCalculator
