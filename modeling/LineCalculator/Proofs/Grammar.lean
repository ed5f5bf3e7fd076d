import LineCalculator.Parse.Symbol
import LineCalculator.Program.Stmt
import Mathlib.Logic.Basic

/-!
# The grammar as derivations

    Stmt   ::= name '=' Expr | Expr | (nothing)
    Expr   ::= Expr ('+' | '-') Term | Term
    Term   ::= Term ('*' | '/') Factor | Factor
    Factor ::= number | name | '(' Expr ')'

This module writes the grammar down rule by rule, as a relation between a
nonterminal, a list of tokens, and the tree that the derivation builds. It
knows nothing of the automaton that reads lines: terminals are told apart by
the kinds of tokens alone, and the left-recursive rules are stated as they
stand. Left recursion is what makes chains of operators group from the left,
since the tree of the longer chain holds the tree of the shorter one as its
left operand.

A token of digits is a **number** only if its value, leading zeros allowed,
is at most `2 ^ 63 - 1`. Other tokens of digits are terminals that occur in no
rule, and so is illegal input.

## Main results

* `symbol_eq_sum_iff` and its siblings — the symbol of a token says which
  terminals of the grammar it is.
* `integer?_eq_some_iff` — reading a token of digits gives the number it is.
-/

namespace LineCalculator

/-! ## Terminals -/

/-- The token is the number `n`. -/
structure Token.IsNumber (t : Token) (n : Int64) : Prop where
  /-- It is a string of digits, -/
  kind : t.kind = .integer
  /-- whose value is at most `2 ^ 63 - 1`, -/
  inRange : Decimal.value t.lexeme ≤ 9223372036854775807
  /-- and that value is `n`. -/
  value : n.toInt = Decimal.value t.lexeme

/-- The token is a name. -/
def Token.IsName (t : Token) : Prop := t.kind = .identifier

/-- The token is an opening parenthesis. -/
def Token.IsOpening (t : Token) : Prop := t.kind = .ofByte 40

/-- The token is a closing parenthesis. -/
def Token.IsClosing (t : Token) : Prop := t.kind = .ofByte 41

/-- The token is an equals sign. -/
def Token.IsEquals (t : Token) : Prop := t.kind = .ofByte 61

/-- The token is this operator between terms. -/
inductive Token.IsSumOp (t : Token) : Operator → Prop
  | plus : t.kind = .ofByte 43 → t.IsSumOp .add
  | minus : t.kind = .ofByte 45 → t.IsSumOp .sub

/-- The token is this operator between factors. -/
inductive Token.IsProdOp (t : Token) : Operator → Prop
  | times : t.kind = .ofByte 42 → t.IsProdOp .mul
  | over : t.kind = .ofByte 47 → t.IsProdOp .div

/-! ## Rules -/

/-- The nonterminals below a statement. -/
inductive Nonterminal where
  | expr
  | term
  | factor
  deriving DecidableEq

/-- The nonterminal derives the tokens, and this is the tree of the derivation. -/
inductive Derives : Nonterminal → List Token → Expr → Prop
  | sum {ts us : List Token} {o : Token} {op : Operator} {x y : Expr} :
      Derives .expr ts x → o.IsSumOp op → Derives .term us y →
      Derives .expr (ts ++ o :: us) (.bin op x y)
  | ofTerm {ts : List Token} {x : Expr} : Derives .term ts x → Derives .expr ts x
  | product {ts us : List Token} {o : Token} {op : Operator} {x y : Expr} :
      Derives .term ts x → o.IsProdOp op → Derives .factor us y →
      Derives .term (ts ++ o :: us) (.bin op x y)
  | ofFactor {ts : List Token} {x : Expr} : Derives .factor ts x → Derives .term ts x
  | number {t : Token} {n : Int64} : t.IsNumber n → Derives .factor [t] (.lit n)
  | name {t : Token} : t.IsName → Derives .factor [t] (.var t.lexeme)
  | group {o c : Token} {ts : List Token} {x : Expr} :
      o.IsOpening → Derives .expr ts x → c.IsClosing →
      Derives .factor (o :: (ts ++ [c])) (.paren x)

/-- The tokens of a line derive a statement. -/
inductive DerivesStmt (line : Int) : List Token → Stmt → Prop
  | assign {t e : Token} {ts : List Token} {x : Expr} :
      t.IsName → e.IsEquals → Derives .expr ts x →
      DerivesStmt line (t :: e :: ts) (.assign t.lexeme x line)
  | print {ts : List Token} {x : Expr} :
      Derives .expr ts x → DerivesStmt line ts (.print x line)
  | blank : DerivesStmt line [] (.blank line)

/-! ## What the symbol of a token says -/

/-- The one kind of token that has this symbol. Foreign tokens are of many
kinds, and only two operators stand on each level. -/
def Symbol.kind? : Symbol → Option Kind
  | integer => some .integer
  | name => some .identifier
  | sum .add => some (.ofByte 43)
  | sum .sub => some (.ofByte 45)
  | product .mul => some (.ofByte 42)
  | product .div => some (.ofByte 47)
  | opening => some (.ofByte 40)
  | closing => some (.ofByte 41)
  | equals => some (.ofByte 61)
  | _ => none

/-- A symbol of the grammar belongs to exactly one kind. -/
theorem Kind.symbol_eq_iff {k : Kind} {s : Symbol} (hs : s ≠ .foreign) :
    k.symbol = s ↔ s.kind? = some k := by
  constructor
  · intro h
    unfold Kind.symbol at h
    -- Each condition that holds names the kind; behind all of them the token is foreign.
    repeat'
      rcases ite_eq_iff.mp h with ⟨rfl, rfl⟩ | ⟨-, h⟩
      · rfl
    exact absurd h.symm hs
  · intro h
    unfold Symbol.kind? at h
    split at h
    all_goals cases h
    all_goals decide

namespace Token

theorem symbol_eq_integer_iff (t : Token) : t.symbol = .integer ↔ t.kind = .integer := by
  rw [symbol, Kind.symbol_eq_iff (by simp), Symbol.kind?, Option.some.injEq, eq_comm]

theorem symbol_eq_name_iff (t : Token) : t.symbol = .name ↔ t.IsName := by
  rw [symbol, Kind.symbol_eq_iff (by simp), Symbol.kind?, Option.some.injEq, eq_comm, IsName]

theorem symbol_eq_opening_iff (t : Token) : t.symbol = .opening ↔ t.IsOpening := by
  rw [symbol, Kind.symbol_eq_iff (by simp), Symbol.kind?, Option.some.injEq, eq_comm, IsOpening]

theorem symbol_eq_closing_iff (t : Token) : t.symbol = .closing ↔ t.IsClosing := by
  rw [symbol, Kind.symbol_eq_iff (by simp), Symbol.kind?, Option.some.injEq, eq_comm, IsClosing]

theorem symbol_eq_equals_iff (t : Token) : t.symbol = .equals ↔ t.IsEquals := by
  rw [symbol, Kind.symbol_eq_iff (by simp), Symbol.kind?, Option.some.injEq, eq_comm, IsEquals]

theorem symbol_eq_sum_iff (t : Token) (op : Operator) : t.symbol = .sum op ↔ t.IsSumOp op := by
  rw [symbol, Kind.symbol_eq_iff (by simp)]
  constructor
  · intro h
    cases op with
    | add => exact .plus (Option.some.inj h).symm
    | sub => exact .minus (Option.some.inj h).symm
    | mul | div | unknown _ => simp [Symbol.kind?] at h
  · rintro (h | h)
    · rw [h, Symbol.kind?]
    · rw [h, Symbol.kind?]

theorem symbol_eq_product_iff (t : Token) (op : Operator) :
    t.symbol = .product op ↔ t.IsProdOp op := by
  rw [symbol, Kind.symbol_eq_iff (by simp)]
  constructor
  · intro h
    cases op with
    | mul => exact .times (Option.some.inj h).symm
    | div => exact .over (Option.some.inj h).symm
    | add | sub | unknown _ => simp [Symbol.kind?] at h
  · rintro (h | h)
    · rw [h, Symbol.kind?]
    · rw [h, Symbol.kind?]

/-- Reading a token of digits gives the number that the token is. -/
theorem integer?_eq_some_iff (t : Token) (n : Int64) (h : t.kind = .integer) :
    t.integer? = some n ↔ t.IsNumber n := by
  have hmax : Int64.maxValue.toInt = 9223372036854775807 := by decide
  simp only [integer?, hmax]
  constructor
  · intro hn
    split at hn
    · next hle =>
      rw [← Option.some.inj hn]
      refine ⟨h, by omega, Int64.toInt_ofNat_of_lt (by omega)⟩
    · cases hn
  · rintro ⟨-, hle, hvalue⟩
    rw [if_pos (by omega), Option.some.injEq, ← Int64.toInt_inj, hvalue]
    exact Int64.toInt_ofNat_of_lt (by omega)

end Token

end LineCalculator
