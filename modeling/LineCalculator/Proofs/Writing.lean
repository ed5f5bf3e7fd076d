import LineCalculator.Eval.Run
import LineCalculator.Lexer.Pattern

/-!
# Trees and how they are written

A tree that was not built by the parser may lack parentheses where its text
has some: the writer puts them where precedence, or grouping from the left,
would otherwise change the meaning. `Expr.grouped` makes them part of the
tree. A grouped tree is written like the tree it comes from, means the same,
and differs from it by parentheses only; it is the tree that reading the text
gives back.

What can be read back at all are **spellable** trees: nothing is missing,
every operator is one of the four, and every name is a letter or underscore
followed by letters, underscores and digits.

## Main results

* `text_grouped` — grouping shows the parentheses that are written anyway.
* `bare_grouped`, `evaluate_bare` — parentheses do not change the meaning.
* `Spellable.mem_text` — the bytes that occur in written expressions.
-/

namespace LineCalculator

/-- Letters, underscores and digits, the first of them not a digit. -/
def IsIdentifier (t : Bytes) : Prop := (Pattern.word .letter .letterOrDigit).Matches t

theorem isIdentifier_iff (t : Bytes) : IsIdentifier t ↔
    t.head?.any ByteClass.letter.holds = true ∧ t.all ByteClass.letterOrDigit.holds = true := by
  cases t with
  | nil => simp [IsIdentifier, Pattern.Matches]
  | cons b more =>
      simp only [IsIdentifier, Pattern.Matches, List.head?_cons, Option.any_some, List.all_cons,
        Bool.and_eq_true, List.all_eq_true]
      constructor
      · rintro ⟨_, _, he, hb, hmore⟩
        cases he
        have hholds : ByteClass.letterOrDigit.holds b = true := by
          simp only [ByteClass.holds] at hb
          simp [ByteClass.holds, hb]
        exact ⟨hb, hholds, hmore⟩
      · rintro ⟨hb, -, hmore⟩
        exact ⟨b, more, rfl, hb, hmore⟩

instance (t : Bytes) : Decidable (IsIdentifier t) :=
  decidable_of_iff _ (isIdentifier_iff t).symm

namespace Expr

/-! ## Names and literals -/

/-- The names of the variables that are read, from left to right. -/
def names : Expr → List Bytes
  | lit _ => []
  | var name => [name]
  | bin _ l r => l.names ++ r.names
  | paren x => x.names
  | missing => []

/-- The integers of the tree, from left to right. -/
def literals : Expr → List Int64
  | lit n => [n]
  | var _ => []
  | bin _ l r => l.literals ++ r.literals
  | paren x => x.literals
  | missing => []

/-- Nothing is missing, every operator means something, and names are names. -/
inductive Spellable : Expr → Prop
  | lit (n : Int64) : Spellable (lit n)
  | var {name : Bytes} : IsIdentifier name → Spellable (var name)
  | bin {op : Operator} {l r : Expr} : op.isKnown = true → Spellable l → Spellable r →
      Spellable (bin op l r)
  | paren {x : Expr} : Spellable x → Spellable (paren x)

theorem spellable_of_isWellFormed {x : Expr} (hwf : x.isWellFormed = true)
    (hnames : ∀ name ∈ x.names, IsIdentifier name) : Spellable x := by
  induction x with
  | lit n => exact .lit n
  | var name => exact .var (hnames name (by simp [names]))
  | bin op l r ihl ihr =>
      simp only [isWellFormed, Bool.and_eq_true] at hwf
      obtain ⟨⟨hop, hl⟩, hr⟩ := hwf
      simp only [names, List.mem_append] at hnames
      exact .bin hop (ihl hl fun name h => hnames name (Or.inl h))
        (ihr hr fun name h => hnames name (Or.inr h))
  | paren x ih => exact .paren (ih hwf hnames)
  | missing => cases hwf

/-! ## Parentheses -/

/-- The expression, in parentheses if need be. -/
def enclosed (needed : Bool) (x : Expr) : Expr := if needed then paren x else x

/-- The tree with the parentheses that the writer adds. -/
def grouped : Expr → Expr
  | lit n => lit n
  | var name => var name
  | bin op l r =>
    bin op (enclosed (l.bracedOnLeft op) l.grouped) (enclosed (r.bracedOnRight op) r.grouped)
  | paren x => paren x.grouped
  | missing => missing

/-- The tree without any parentheses. -/
def bare : Expr → Expr
  | lit n => lit n
  | var name => var name
  | bin op l r => bin op l.bare r.bare
  | paren x => x.bare
  | missing => missing

theorem text_enclosed (needed : Bool) (x : Expr) :
    (enclosed needed x).text = if needed then parenthesized x.text else x.text := by
  cases needed with
  | true => exact text_paren x
  | false => rfl

theorem bare_enclosed (needed : Bool) (x : Expr) : (enclosed needed x).bare = x.bare := by
  cases needed <;> rfl

-- Grouping works below the top of a tree, and only the top decides whether an
-- operand needs parentheses; once it has them, it needs no others.

theorem bracedOnLeft_enclosed (op : Operator) (x : Expr) :
    (enclosed (x.bracedOnLeft op) x.grouped).bracedOnLeft op = false := by
  have htop : x.grouped.bracedOnLeft op = x.bracedOnLeft op := by cases x <;> rfl
  cases h : x.bracedOnLeft op with
  | true => rfl
  | false => exact htop.trans h

theorem bracedOnRight_enclosed (op : Operator) (x : Expr) :
    (enclosed (x.bracedOnRight op) x.grouped).bracedOnRight op = false := by
  have htop : x.grouped.bracedOnRight op = x.bracedOnRight op := by cases x <;> rfl
  cases h : x.bracedOnRight op with
  | true => rfl
  | false => exact htop.trans h

/-- Grouping shows the parentheses that are written anyway. -/
theorem text_grouped (x : Expr) : x.grouped.text = x.text := by
  induction x with
  | lit n => rfl
  | var name => rfl
  | bin op l r ihl ihr =>
      rw [grouped, text_bin, bracedOnLeft_enclosed, bracedOnRight_enclosed, text_enclosed,
        text_enclosed, ihl, ihr, text_bin]
      rfl
  | paren x ih => rw [grouped, text_paren, text_paren, ih]
  | missing => rfl

/-- Grouping adds parentheses and nothing else. -/
theorem bare_grouped (x : Expr) : x.grouped.bare = x.bare := by
  induction x with
  | lit n => rfl
  | var name => rfl
  | bin op l r ihl ihr => rw [grouped, bare, bare_enclosed, bare_enclosed, ihl, ihr, bare]
  | paren x ih => exact ih
  | missing => rfl

/-- Parentheses do not change the value, nor what is reported on the way. -/
theorem evaluate_bare (o : Options) (s : Store) (line : Int) (x : Expr) :
    x.bare.evaluate o s line = x.evaluate o s line := by
  induction x with
  | lit n => rfl
  | var name => rfl
  | bin op l r ihl ihr => rw [bare, evaluate, evaluate, ihl, ihr]
  | paren x ih => exact ih
  | missing => rfl

/-! ## Bytes -/

/-- The bytes that occur in written expressions: letters, digits, the blank, the
parentheses and the four operators. -/
def isTextByte (b : UInt8) : Bool :=
  ByteClass.letterOrDigit.holds b || [32, 40, 41, 43, 45, 42, 47].contains b

theorem isTextByte_of_mem_ofInt64 (n : Int64) : ∀ b ∈ Decimal.ofInt64 n, isTextByte b = true := by
  have hdigits (k : Nat) : ∀ b ∈ Decimal.ofNat k, isTextByte b = true := by
    intro b hb
    simp [isTextByte, ByteClass.holds, Decimal.isDigit_of_mem_ofNat k b hb]
  intro b hb
  rw [Decimal.ofInt64] at hb
  cases hn : n.toInt with
  | ofNat k =>
      rw [hn] at hb
      exact hdigits k b hb
  | negSucc k =>
      rw [hn] at hb
      rcases List.mem_cons.mp hb with rfl | hb
      · decide
      · exact hdigits (k + 1) b hb

theorem isTextByte_of_mem_parenthesized {t : Bytes} (ht : ∀ b ∈ t, isTextByte b = true) :
    ∀ b ∈ parenthesized t, isTextByte b = true := by
  intro b hb
  have hopen : utf8 "(" = [40] := rfl
  have hclose : utf8 ")" = [41] := rfl
  simp only [parenthesized, hopen, hclose, List.mem_append, List.mem_singleton] at hb
  rcases hb with (rfl | hb) | rfl
  · decide
  · exact ht b hb
  · decide

/-- No other byte occurs in the text of a spellable expression. -/
theorem Spellable.mem_text {x : Expr} (h : Spellable x) : ∀ b ∈ x.text, isTextByte b = true := by
  induction h with
  | lit n =>
      rw [text_lit]
      exact isTextByte_of_mem_ofInt64 n
  | var hname =>
      obtain ⟨c, more, rfl, hc, hmore⟩ := hname
      intro b hb
      rw [text_var] at hb
      simp only [ByteClass.holds] at hc hmore
      rcases List.mem_cons.mp hb with rfl | hb
      · simp [isTextByte, ByteClass.holds, hc]
      · rw [isTextByte, ByteClass.holds, hmore b hb]
        rfl
  | @bin op l r hop _ _ ihl ihr =>
      have hblank : ∀ b ∈ utf8 " ", isTextByte b = true := List.all_eq_true.mp (by decide)
      have hsymbol : ∀ b ∈ op.symbol, isTextByte b = true := by
        cases op with
        | add | sub | mul | div => exact List.all_eq_true.mp (by decide)
        | unknown code => cases hop
      have hoperand {t : Bytes} (needed : Bool) (ht : ∀ b ∈ t, isTextByte b = true) :
          ∀ b ∈ (if needed then parenthesized t else t), isTextByte b = true := by
        cases needed with
        | true => exact isTextByte_of_mem_parenthesized ht
        | false => exact ht
      intro b hb
      rw [text_bin] at hb
      simp only [List.mem_append] at hb
      rcases hb with (((hb | hb) | hb) | hb) | hb
      · exact hoperand _ ihl b hb
      · exact hblank b hb
      · exact hsymbol b hb
      · exact hblank b hb
      · exact hoperand _ ihr b hb
  | @paren x _ ih =>
      rw [text_paren]
      exact isTextByte_of_mem_parenthesized ih

end Expr

end LineCalculator
