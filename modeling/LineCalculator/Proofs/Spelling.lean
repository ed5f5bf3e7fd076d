import LineCalculator.Proofs.Parsing
import LineCalculator.Proofs.Tokenizing
import LineCalculator.Proofs.Writing

/-!
# Reading what was written

A text **spells** an expression if its tokens derive it wherever the text
stands: at any offset, and in front of anything that does not go on with a
letter or a digit. Spelling follows the writer construct by construct, and
each construct adds blanks or symbols between the parts, so no two tokens run
together and none is split.

The writer's choice of parentheses is just what the grammar asks for. The left
operand of an operator is derived by the operator's own nonterminal, because
the rules are left-recursive, and the right one by the nonterminal below it; an
operand without parentheses is one that this nonterminal derives.

A negative integer is the one thing that cannot be read back. Its text starts
with a minus sign, and it stands where an operand must, so the automaton
**refuses** it there, however deep it stands.

## Main results

* `Spellable.spells_text` — without negative integers, a written expression
  spells the expression with the written parentheses in it.
* `Spellable.refused_text` — with one, the written expression is refused.
-/

namespace LineCalculator

open Calculator

/-! ## Nonterminals of operators -/

/-- How much a nonterminal derives: each one derives what those below it derive. -/
def Nonterminal.rank : Nonterminal → Nat
  | .factor => 0
  | .term => 1
  | .expr => 2

theorem Derives.lift {nt nt' : Nonterminal} {ts : List Token} {x : Expr} (h : Derives nt ts x)
    (hle : nt.rank ≤ nt'.rank) : Derives nt' ts x := by
  cases nt <;> cases nt'
  case term.expr => exact .ofTerm h
  case factor.term => exact .ofFactor h
  case factor.expr => exact .ofTerm (.ofFactor h)
  all_goals first | exact h | exact absurd hle (by decide)

/-- The nonterminal that derives an operation, and its left operand. -/
def Operator.nonterminal : Operator → Nonterminal
  | .mul | .div => .term
  | _ => .expr

/-- The nonterminal that derives the right operand of an operation. -/
def Operator.below : Operator → Nonterminal
  | .mul | .div => .factor
  | .add | .sub => .term
  | .unknown _ => .expr

/-- The lowest nonterminal that derives trees with this top. -/
def Expr.nonterminal : Expr → Nonterminal
  | .bin op _ _ => op.nonterminal
  | _ => .factor

/-- An operation that binds as tightly is derived by the operator's own nonterminal. -/
theorem Operator.rank_nonterminal_le {op inner : Operator}
    (h : op.precedence ≤ inner.precedence) : inner.nonterminal.rank ≤ op.nonterminal.rank := by
  cases op <;> cases inner <;> simp_all [precedence, nonterminal, Nonterminal.rank]

/-- An operation that binds more tightly is derived by the nonterminal below. -/
theorem Operator.rank_below_le {op inner : Operator}
    (h : op.precedence < inner.precedence) : inner.nonterminal.rank ≤ op.below.rank := by
  cases op <;> cases inner <;> simp_all [precedence, nonterminal, below, Nonterminal.rank]

theorem Expr.rank_le_of_bracedOnLeft {op : Operator} {x : Expr}
    (h : x.bracedOnLeft op = false) : x.nonterminal.rank ≤ op.nonterminal.rank := by
  cases x with
  | bin inner l r => exact Operator.rank_nonterminal_le (Nat.not_lt.mp (of_decide_eq_false h))
  | lit | var | paren | missing => exact Nat.zero_le _

theorem Expr.rank_le_of_bracedOnRight {op : Operator} {x : Expr}
    (h : x.bracedOnRight op = false) : x.nonterminal.rank ≤ op.below.rank := by
  cases x with
  | bin inner l r => exact Operator.rank_below_le (Nat.not_le.mp (of_decide_eq_false h))
  | lit | var | paren | missing => exact Nat.zero_le _

/-! ## Spelling -/

/-- The tokens of the text derive the expression, wherever the text stands. -/
def Spells (w : Bytes) (nt : Nonterminal) (x : Expr) : Prop :=
  ∀ start t, Separate t → ∃ ts,
    tokensFrom start (w ++ t) = ts ++ tokensFrom (start + w.length) t ∧ Derives nt ts x

theorem Spells.lift {w : Bytes} {nt nt' : Nonterminal} {x : Expr} (h : Spells w nt x)
    (hle : nt.rank ≤ nt'.rank) : Spells w nt' x := by
  intro start t ht
  obtain ⟨ts, htokens, hx⟩ := h start t ht
  exact ⟨ts, htokens, hx.lift hle⟩

theorem spells_lit {n : Int64} (hn : 0 ≤ n) : Spells (Decimal.ofInt64 n) .factor (.lit n) := by
  intro start t ht
  have hnonneg : 0 ≤ n.toInt := Int64.le_iff_toInt_le.mp hn
  obtain ⟨k, hk⟩ := Int.eq_ofNat_of_zero_le hnonneg
  have htext : Decimal.ofInt64 n = Decimal.ofNat k := by
    rw [Decimal.ofInt64, hk]
    rfl
  have hrange : k ≤ 9223372036854775807 := by
    have := n.toInt_lt
    omega
  rw [htext]
  refine ⟨_, tokensFrom_digits start (Decimal.ofNat_ne_nil k) (Decimal.isDigit_of_mem_ofNat k) ht,
    .number ⟨rfl, ?_, ?_⟩⟩
  · rw [Decimal.value_ofNat]
    exact hrange
  · rw [Decimal.value_ofNat]
    exact hk

theorem spells_var {name : Bytes} (hname : IsIdentifier name) :
    Spells name .factor (.var name) := by
  intro start t ht
  have hkind : Token.IsName ⟨.identifier, name, ⟨start, start + name.length⟩⟩ := rfl
  exact ⟨_, tokensFrom_name start hname ht, .name hkind⟩

theorem separate_closing (t : Bytes) : Separate (41 :: t) := separate_cons t (by decide)

theorem separate_blank (t : Bytes) : Separate (32 :: t) := separate_cons t (by decide)

theorem parenthesized_append (w t : Bytes) :
    Expr.parenthesized w ++ t = 40 :: (w ++ 41 :: t) := by
  have hopen : utf8 "(" = [40] := rfl
  have hclose : utf8 ")" = [41] := rfl
  simp [Expr.parenthesized, hopen, hclose]

theorem length_parenthesized (w : Bytes) :
    (Expr.parenthesized w).length = 1 + w.length + 1 := by
  have h := congrArg List.length (parenthesized_append w [])
  rw [List.append_nil, List.length_cons, List.length_append, List.length_singleton] at h
  omega

theorem Spells.paren {w : Bytes} {x : Expr} (h : Spells w .expr x) :
    Spells (Expr.parenthesized w) .factor (.paren x) := by
  intro start t ht
  obtain ⟨ts, htokens, hx⟩ := h (start + 1) (41 :: t) (separate_closing t)
  have hopening : Token.IsOpening ⟨.ofByte 40, [40], ⟨start, start + 1⟩⟩ := rfl
  have hclosing : Token.IsClosing
      ⟨.ofByte 41, [41], ⟨start + 1 + w.length, start + 1 + w.length + 1⟩⟩ := rfl
  refine ⟨_, ?_, .group hopening hx hclosing⟩
  rw [parenthesized_append, tokensFrom_symbol start _ (by decide), htokens,
    tokensFrom_symbol _ t (by decide), length_parenthesized]
  simp [Nat.add_assoc]

/-- An operand is derived where it belongs, with parentheses or without. -/
theorem Spells.enclosed {w : Bytes} {nt nt' : Nonterminal} {x : Expr} (h : Spells w nt x)
    (needed : Bool) (hle : needed = false → nt.rank ≤ nt'.rank) :
    Spells (if needed then Expr.parenthesized w else w) nt' (Expr.enclosed needed x) := by
  cases needed with
  | true =>
      have hexpr : Spells w .expr x := h.lift (by cases nt <;> decide)
      exact hexpr.paren.lift (Nat.zero_le _)
  | false => exact h.lift (hle rfl)

/-- Two operands with an operator between them, which stands between blanks. -/
theorem Spells.tokens_between {v w : Bytes} {nt nt' : Nonterminal} {x y : Expr} {c : UInt8}
    (hc : c ∈ symbols) (hv : Spells v nt x) (hw : Spells w nt' y) (start : Nat) {t : Bytes}
    (ht : Separate t) :
    ∃ ts o us, tokensFrom start (v ++ utf8 " " ++ [c] ++ utf8 " " ++ w ++ t) =
        (ts ++ o :: us) ++
          tokensFrom (start + (v ++ utf8 " " ++ [c] ++ utf8 " " ++ w).length) t ∧
      Derives nt ts x ∧ o.kind = .ofByte c ∧ Derives nt' us y := by
  have hblank : utf8 " " = [32] := rfl
  obtain ⟨ts, hts, hx⟩ := hv start (32 :: c :: 32 :: (w ++ t)) (separate_blank _)
  obtain ⟨us, hus, hy⟩ := hw (start + v.length + 1 + 1 + 1) t ht
  refine ⟨ts, ⟨.ofByte c, [c], ⟨start + v.length + 1, start + v.length + 1 + 1⟩⟩, us, ?_,
    hx, rfl, hy⟩
  have hassoc : v ++ utf8 " " ++ [c] ++ utf8 " " ++ w ++ t = v ++ 32 :: c :: 32 :: (w ++ t) := by
    simp [hblank]
  have hlength : start + (v ++ utf8 " " ++ [c] ++ utf8 " " ++ w).length =
      start + v.length + 1 + 1 + 1 + w.length := by
    simp only [hblank, List.length_append, List.length_singleton]
    omega
  rw [hassoc, hlength, hts, tokensFrom_blank _ _ (by decide), tokensFrom_symbol _ _ hc,
    tokensFrom_blank _ _ (by decide), hus]
  simp

theorem Token.IsSumOp.levels {o : Token} {op : Operator} (h : o.IsSumOp op) :
    op.isKnown = true ∧ op.nonterminal = .expr ∧ op.below = .term := by
  cases h <;> decide

theorem Token.IsProdOp.levels {o : Token} {op : Operator} (h : o.IsProdOp op) :
    op.isKnown = true ∧ op.nonterminal = .term ∧ op.below = .factor := by
  cases h <;> decide

theorem Operator.exists_symbol {op : Operator} (h : op.isKnown = true) :
    ∃ c ∈ symbols, op.symbol = [c] ∧
      ∀ o : Token, o.kind = .ofByte c → o.IsSumOp op ∨ o.IsProdOp op := by
  cases op with
  | add => exact ⟨43, by decide, rfl, fun o ho => Or.inl (.plus ho)⟩
  | sub => exact ⟨45, by decide, rfl, fun o ho => Or.inl (.minus ho)⟩
  | mul => exact ⟨42, by decide, rfl, fun o ho => Or.inr (.times ho)⟩
  | div => exact ⟨47, by decide, rfl, fun o ho => Or.inr (.over ho)⟩
  | unknown code => cases h

/-- The rule of an operator joins what spells its operands. -/
theorem Spells.bin {v w : Bytes} {op : Operator} {x y : Expr} (hop : op.isKnown = true)
    (hv : Spells v op.nonterminal x) (hw : Spells w op.below y) :
    Spells (v ++ utf8 " " ++ op.symbol ++ utf8 " " ++ w) op.nonterminal (.bin op x y) := by
  intro start t ht
  obtain ⟨c, hc, hsymbol, hkind⟩ := Operator.exists_symbol hop
  rw [hsymbol]
  obtain ⟨ts, o, us, htokens, hx, ho, hy⟩ := Spells.tokens_between hc hv hw start ht
  refine ⟨ts ++ o :: us, htokens, ?_⟩
  rcases hkind o ho with hsum | hproduct
  · obtain ⟨-, hnt, hbelow⟩ := hsum.levels
    rw [hnt] at hx ⊢
    rw [hbelow] at hy
    exact .sum hx hsum hy
  · obtain ⟨-, hnt, hbelow⟩ := hproduct.levels
    rw [hnt] at hx ⊢
    rw [hbelow] at hy
    exact .product hx hproduct hy

/-- Without negative integers, a written expression spells the expression with
the written parentheses in it. -/
theorem Expr.Spellable.spells_text {x : Expr} (h : Spellable x)
    (hliterals : ∀ n ∈ x.literals, 0 ≤ n) : Spells x.text x.nonterminal x.grouped := by
  induction h with
  | lit n =>
      rw [text_lit]
      exact spells_lit (hliterals n (by simp [literals]))
  | var hname =>
      rw [text_var]
      exact spells_var hname
  | @bin op l r hop _ _ ihl ihr =>
      simp only [literals, List.mem_append] at hliterals
      have hl := ihl fun n hn => hliterals n (Or.inl hn)
      have hr := ihr fun n hn => hliterals n (Or.inr hn)
      rw [text_bin]
      exact .bin hop (hl.enclosed _ rank_le_of_bracedOnLeft)
        (hr.enclosed _ rank_le_of_bracedOnRight)
  | @paren x _ ih =>
      rw [text_paren]
      exact ((ih hliterals).lift (by cases x.nonterminal <;> decide)).paren

/-! ## Refusal -/

/-- The text is refused wherever an operand must stand. -/
def Refused (w : Bytes) : Prop :=
  ∀ last sum product outer start t, Separate t →
    ∃ e, ParseState.run last (.operand sum product outer) (tokensFrom start (w ++ t)) = .error e

theorem refused_negative {n : Int64} (hn : n < 0) : Refused (Decimal.ofInt64 n) := by
  intro last sum product outer start t ht
  have hneg : n.toInt < 0 := Int64.lt_iff_toInt_lt.mp hn
  have htext : ∃ k, Decimal.ofInt64 n = 45 :: Decimal.ofNat k := by
    cases h : n.toInt with
    | ofNat k => rw [h] at hneg; exact absurd hneg (Int.not_lt.mpr (Int.natCast_nonneg k))
    | negSucc k => exact ⟨k + 1, by rw [Decimal.ofInt64, h]; rfl⟩
  obtain ⟨k, hk⟩ := htext
  rw [hk, List.cons_append, tokensFrom_symbol start _ (by decide)]
  exact ⟨_, rfl⟩

theorem Refused.paren {w : Bytes} (h : Refused w) : Refused (Expr.parenthesized w) := by
  intro last sum product outer start t ht
  have hopening : Token.IsOpening ⟨.ofByte 40, [40], ⟨start, start + 1⟩⟩ := rfl
  rw [parenthesized_append, tokensFrom_symbol start _ (by decide),
    (ParseState.Transition.opening hopening).run_cons]
  exact h last none none _ (start + 1) (41 :: t) (separate_closing t)

theorem Refused.enclosed {w : Bytes} (h : Refused w) (needed : Bool) :
    Refused (if needed then Expr.parenthesized w else w) := by
  cases needed with
  | true => exact h.paren
  | false => exact h

/-- What is refused on the left of an operator is refused with it. -/
theorem Refused.left {v : Bytes} (h : Refused v) (symbol w : Bytes) :
    Refused (v ++ utf8 " " ++ symbol ++ utf8 " " ++ w) := by
  intro last sum product outer start t ht
  have hblank : utf8 " " = [32] := rfl
  have hassoc : v ++ utf8 " " ++ symbol ++ utf8 " " ++ w ++ t =
      v ++ 32 :: (symbol ++ 32 :: (w ++ t)) := by
    simp [hblank]
  rw [hassoc]
  exact h last sum product outer start _ (separate_blank _)

/-- What is refused on the right of an operator is refused once the left operand
has been read. -/
theorem Refused.right {v w : Bytes} {nt : Nonterminal} {x : Expr} {op : Operator}
    (hop : op.isKnown = true) (hv : Spells v nt x) (h : Refused w) :
    Refused (v ++ utf8 " " ++ op.symbol ++ utf8 " " ++ w) := by
  intro last sum product outer start t ht
  obtain ⟨c, hc, hsymbol, hkind⟩ := Operator.exists_symbol hop
  have hblank : utf8 " " = [32] := rfl
  have hassoc : v ++ utf8 " " ++ op.symbol ++ utf8 " " ++ w ++ t =
      v ++ 32 :: c :: 32 :: (w ++ t) := by
    simp [hsymbol, hblank]
  obtain ⟨ts, hts, hx⟩ := hv start (32 :: c :: 32 :: (w ++ t)) (separate_blank _)
  rw [hassoc, hts, tokensFrom_blank _ _ (by decide), tokensFrom_symbol _ _ hc,
    tokensFrom_blank _ _ (by decide)]
  generalize htoken : Token.mk (.ofByte c) [c] _ = o
  have hstep : o.kind = .ofByte c := by rw [← htoken]
  obtain ⟨sum', term, hrun⟩ := hx.run_operand last sum product outer
    (o :: tokensFrom (start + v.length + 1 + 1 + 1) (w ++ t))
  rw [hrun]
  -- Either kind of operator leads back to a state that waits for an operand.
  rcases hkind o hstep with hsum | hproduct
  · rw [(ParseState.Transition.sumOp hsum).run_cons]
    exact h last _ _ outer _ t ht
  · rw [(ParseState.Transition.prodOp hproduct).run_cons]
    exact h last _ _ outer _ t ht

/-- With a negative integer in it, a written expression is refused. -/
theorem Expr.Spellable.refused_text {x : Expr} (h : Spellable x)
    (hneg : ∃ n ∈ x.literals, n < 0) : Refused x.text := by
  induction h with
  | lit n =>
      obtain ⟨m, hm, hlt⟩ := hneg
      rw [List.mem_singleton.mp hm] at hlt
      rw [text_lit]
      exact refused_negative hlt
  | var =>
      obtain ⟨m, hm, -⟩ := hneg
      cases hm
  | @bin op l r hop hl hr ihl ihr =>
      rw [text_bin]
      by_cases hleft : ∃ n ∈ l.literals, n < 0
      · exact ((ihl hleft).enclosed _).left _ _
      · -- The first negative integer stands on the right, so the left operand can be read.
        have hliterals : ∀ n ∈ l.literals, 0 ≤ n := fun n hn =>
          Int64.not_lt.mp fun hlt => hleft ⟨n, hn, hlt⟩
        have hright : ∃ n ∈ r.literals, n < 0 := by
          obtain ⟨n, hn, hlt⟩ := hneg
          rcases List.mem_append.mp hn with hn | hn
          · exact absurd ⟨n, hn, hlt⟩ hleft
          · exact ⟨n, hn, hlt⟩
        have hspells := (hl.spells_text hliterals).enclosed (l.bracedOnLeft op)
          rank_le_of_bracedOnLeft
        exact .right hop hspells ((ihr hright).enclosed _)
  | @paren x _ ih =>
      rw [text_paren]
      exact (ih hneg).paren

end LineCalculator
