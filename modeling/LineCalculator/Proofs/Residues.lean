import LineCalculator.Proofs.Exactness
import Mathlib.Data.Int.ModEq
import Mathlib.Data.List.Forall2

/-!
# Wrapping runs modulo `2 ^ 64`

Where overflow is not checked, words wrap around and nobody is told. Sums,
differences and products do not suffer from it: a word that stands for an
integer modulo `2 ^ 64` goes on standing for the right one, however often it has
wrapped, and however it has travelled through variables. Only division can tell
apart two integers that one word stands for.

So a program without division is run with words and with integers of any size
(see `LineCalculator.Proofs.Exactness`), and the first run is the second one
**cut to 64 bits**, value by value. Cutting commutes with the three operators
(`Operator.ofInt_exact`), therefore with expressions (`Expr.evaluate_cut`), and
from there on with all that statements do with values, which is to print them
and to assign them.

## Main results

* `compute_wraps_and_tells` — each operator gives the one word congruent to the exact
  result, and tells whether that result is out of range.
* `Program.execute_cut` — a wrapping run is the exact run, cut to 64 bits.
* `execute_congruent_to_exact` — each printed and each final value is the one word
  congruent to the exact value.
-/

namespace LineCalculator

/-! ## Single operations -/

/-- The word is congruent to the integer modulo `2 ^ 64`, and no other word is. -/
def IsResidue (w : Int64) (n : Int) : Prop :=
  w.toInt ≡ n [ZMOD 2 ^ 64] ∧ ∀ v : Int64, v.toInt ≡ n [ZMOD 2 ^ 64] → v = w

theorem isResidue_ofInt (n : Int) : IsResidue (Int64.ofInt n) n := by
  obtain ⟨k, hk⟩ := toInt_ofInt_eq n
  constructor
  · unfold Int.ModEq
    omega
  · -- Two words that are congruent are less than `2 ^ 64` apart.
    intro v hv
    have hfits := fits_toInt v
    have hfits' := fits_toInt (Int64.ofInt n)
    apply Int64.toInt_inj.mp
    unfold Int.ModEq at hv
    unfold Fits at hfits hfits'
    omega

/--
**Operators wrap around, and tell so.** What one of the four operators makes of two
words, the divisor of a quotient not being zero, is the one word congruent to the
exact result modulo `2 ^ 64`, division going toward zero. The flag is set if and only
if the exact result lies outside of `-2 ^ 63` to `2 ^ 63 - 1`.
-/
theorem compute_wraps_and_tells (op : Operator) (l r : Int64) (hop : op.isKnown = true)
    (hdiv : op = .div → r ≠ 0) :
    let e := op.exact l.toInt r.toInt
    ∃ v o, op.compute l r = some ⟨v, o⟩ ∧ IsResidue v e ∧
      (o = true ↔ e < -2 ^ 63 ∨ 2 ^ 63 - 1 < e) := by
  intro e
  obtain ⟨⟨v, o⟩, hcompute, hvalue, hwrapped⟩ :=
    Operator.compute_eq_some l hop fun h => hdiv h.1 h.2
  refine ⟨v, o, hcompute, ?_, ?_⟩
  · have hv : v = Int64.ofInt e := hvalue
    rw [hv]
    exact isResidue_ofInt e
  · have ho : o = true ↔ ¬ Fits e := hwrapped
    rw [ho, Fits]
    omega

/-- The least word times minus one, where the test by division would wrap itself, and
the largest square that still fits. -/
theorem compute_wraps_and_tells_products :
    (Operator.mul.isKnown = true ∧ ∃ v o, Operator.mul.compute (-1) Int64.minValue = some ⟨v, o⟩ ∧
      IsResidue v 9223372036854775808 ∧ o = true) ∧
    ∃ v o, Operator.mul.compute 3037000499 3037000499 = some ⟨v, o⟩ ∧
      IsResidue v 9223372030926249001 ∧ o = false := by
  refine ⟨⟨rfl, ?_⟩, ?_⟩
  · obtain ⟨v, o, hcompute, hvalue, hflag⟩ :=
      compute_wraps_and_tells .mul (-1) Int64.minValue rfl nofun
    exact ⟨v, o, hcompute, hvalue, hflag.mpr (by decide)⟩
  · obtain ⟨v, o, hcompute, hvalue, hflag⟩ :=
      compute_wraps_and_tells .mul 3037000499 3037000499 rfl nofun
    refine ⟨v, o, hcompute, hvalue, Bool.eq_false_iff.mpr fun ho => ?_⟩
    exact absurd (hflag.mp ho) (by decide)

/-! ## Cutting to 64 bits -/

/-- An event of an exact run, with its value cut to 64 bits. -/
def ExactEvent.cut : ExactEvent → Event
  | .result n => .result (Int64.ofInt n)
  | .diagnostic d => .diagnostic d

theorem ExactEvent.map_cut_diagnostic (log : List Diagnostic) :
    (log.map ExactEvent.diagnostic).map cut = log.map .diagnostic :=
  List.map_map

/-- The store holds the values of the exact one, cut to 64 bits. -/
structure Store.Cuts (s : Store) (exact : ExactStore) : Prop where
  get? : ∀ name, s.table.get? name = (exact.bindings name).map Int64.ofInt
  tellsUnbound : s.tellsUnbound = exact.tellsUnbound

theorem Store.cuts_exact (s : Store) : s.Cuts s.exact := by
  refine ⟨fun name => ?_, rfl⟩
  show s.table.get? name = ((s.table.get? name).map Int64.toInt).map Int64.ofInt
  cases s.table.get? name with
  | none => rfl
  | some n => exact congrArg some (Int64.ofInt_toInt n).symm

theorem Store.Cuts.set {s : Store} {exact : ExactStore} (h : s.Cuts exact) (name : Bytes)
    (n : Int) : (s.set name (Int64.ofInt n)).Cuts (exact.set name n) := by
  refine ⟨fun x => ?_, h.tellsUnbound⟩
  show (s.table.set name (Int64.ofInt n)).get? x = (if x = name then some n else _).map Int64.ofInt
  rw [Table.get?_set]
  split
  · rfl
  · exact h.get? x

/-! ## Expressions without division -/

/-- Is it a sum, a difference or a product? -/
def Operator.isPolynomial : Operator → Bool
  | add => true
  | sub => true
  | mul => true
  | _ => false

/-- Is nothing missing in the tree, and is every operator in it a sum, a difference
or a product? -/
def Expr.isPolynomial : Expr → Bool
  | lit _ => true
  | var _ => true
  | bin op l r => op.isPolynomial && l.isPolynomial && r.isPolynomial
  | paren x => x.isPolynomial
  | missing => false

def Stmt.isPolynomial : Stmt → Bool
  | assign _ x _ => x.isPolynomial
  | print x _ => x.isPolynomial
  | blank _ => true
  | missing => false

/-- The result of an operation is cut to the same word, whether or not its operands
have been cut before. -/
theorem Operator.ofInt_exact {op : Operator} (hop : op.isPolynomial = true) (l r : Int) :
    Int64.ofInt (op.exact (Int64.ofInt l).toInt (Int64.ofInt r).toInt) =
      Int64.ofInt (op.exact l r) := by
  cases op with
  | add => simp only [exact, Int64.ofInt_add, Int64.ofInt_toInt]
  | sub => simp only [exact, Int64.ofInt_sub, Int64.ofInt_toInt]
  | mul => simp only [exact, Int64.ofInt_mul, Int64.ofInt_toInt]
  | div => cases hop
  | unknown code => cases hop

/-- An exact evaluation, with its value cut to 64 bits. -/
def ExactEvaluation.cut (e : ExactEvaluation) : Evaluation := ⟨e.log, .ok (Int64.ofInt e.value)⟩

theorem ExactEvaluation.cut_andThen (e : ExactEvaluation) (f : Int → ExactEvaluation) :
    (e.andThen f).cut = e.cut.andThen fun _ => (f e.value).cut := rfl

theorem Operator.evaluate_cut (strict : Bool) {op : Operator} (hop : op.isPolynomial = true)
    (l r : Int) :
    op.evaluate ⟨strict, false⟩ (Int64.ofInt l) (Int64.ofInt r) = (op.evaluateExact l r).cut := by
  have hdiv : op ≠ .div := by
    rintro rfl
    cases hop
  have hknown : op.isKnown = true := by
    cases op with
    | unknown code => cases hop
    | _ => rfl
  obtain ⟨c, hc, hvalue, -⟩ := compute_eq_some (Int64.ofInt l) (r := Int64.ofInt r) hknown
    fun h => hdiv h.1
  rw [Operator.ofInt_exact hop] at hvalue
  rw [evaluate, if_neg fun h => hdiv h.1, hc, evaluateExact, if_neg fun h => hdiv h.1]
  simp only [Bool.and_false, Bool.false_eq_true, if_false, hvalue]
  rfl

theorem Store.Cuts.read {s : Store} {exact : ExactStore} (h : s.Cuts exact) (strict : Bool)
    (line : Int) (name : Bytes) :
    s.read ⟨strict, false⟩ line name = (exact.read strict line name).cut := by
  unfold Store.read ExactStore.read Store.isKnownUnbound Store.value Table.isBound Table.value
  rw [h.get? name, h.tellsUnbound]
  cases exact.bindings name with
  | some n =>
      simp only [Option.map_some, Option.isSome_some, Bool.not_true, Bool.and_false]
      rfl
  | none =>
      simp only [Option.map_none, Option.isSome_none, Bool.not_false, Bool.and_true,
        Option.getD_none]
      split <;> rfl

/-- **Evaluating with words is evaluating exactly**, cut to 64 bits. -/
theorem Expr.evaluate_cut (strict : Bool) {s : Store} {exact : ExactStore} (hs : s.Cuts exact)
    (line : Int) {x : Expr} (hx : x.isPolynomial = true) :
    x.evaluate ⟨strict, false⟩ s line = (x.evaluateExact strict exact line).cut := by
  induction x with
  | lit n => exact congrArg Evaluation.ofValue (Int64.ofInt_toInt n).symm
  | var name => exact hs.read strict line name
  | bin op l r ihl ihr =>
      simp only [isPolynomial, Bool.and_eq_true] at hx
      obtain ⟨⟨hop, hl⟩, hr⟩ := hx
      rw [evaluate, evaluateExact, ihl hl, ihr hr, ExactEvaluation.cut_andThen,
        ExactEvaluation.cut_andThen, ← Operator.evaluate_cut strict hop]
      rfl
  | paren x ih => exact ih hx
  | missing => cases hx

/-! ## Statements and programs -/

/-- The run has no fault, its log is the exact one with the values cut, and so is its
store. -/
structure Execution.Cuts (run : Execution) (exact : ExactExecution) : Prop where
  fault? : run.fault? = none
  log : run.log = exact.log.map ExactEvent.cut
  store : run.store.Cuts exact.store

theorem Stmt.execute_cut (strict : Bool) {s : Store} {exact : ExactStore} (hs : s.Cuts exact)
    {stmt : Stmt} (hstmt : stmt.isPolynomial = true) :
    (stmt.execute ⟨strict, false⟩ s).Cuts (stmt.executeExact strict exact) := by
  cases stmt with
  | assign name x line =>
      rw [execute, Expr.evaluate_cut strict hs line hstmt]
      exact ⟨rfl, (ExactEvent.map_cut_diagnostic _).symm, hs.set name _⟩
  | print x line =>
      rw [execute, Expr.evaluate_cut strict hs line hstmt]
      refine ⟨rfl, ?_, hs⟩
      simp only [executeExact, List.map_append, ExactEvent.map_cut_diagnostic]
      rfl
  | blank line => exact ⟨rfl, rfl, hs⟩
  | missing => cases hstmt

/-- **A wrapping run is the exact run, cut to 64 bits.** -/
theorem Program.execute_cut (strict : Bool) {s : Store} {exact : ExactStore} (hs : s.Cuts exact)
    {p : Program} (hp : ∀ stmt ∈ p, stmt.isPolynomial = true) :
    (p.execute ⟨strict, false⟩ s).Cuts (p.executeExact strict exact) := by
  induction p generalizing s exact with
  | nil => exact ⟨rfl, rfl, hs⟩
  | cons stmt rest ih =>
      have hfirst := Stmt.execute_cut strict hs (hp stmt List.mem_cons_self)
      have hothers := ih hfirst.store fun t ht => hp t (List.mem_cons_of_mem _ ht)
      rw [execute_cons_of_none rest hfirst.fault?, executeExact]
      refine ⟨hothers.fault?, ?_, hothers.store⟩
      rw [List.map_append, hfirst.log, hothers.log]

/-! ## Values of the two runs -/

/-- The events are the same, up to a multiple of `2 ^ 64` in a printed value. -/
inductive Event.Represents : Event → ExactEvent → Prop
  | result {w : Int64} {n : Int} (h : IsResidue w n) : Represents (.result w) (.result n)
  | diagnostic (d : Diagnostic) : Represents (.diagnostic d) (.diagnostic d)

theorem ExactEvent.represents_cut (e : ExactEvent) : e.cut.Represents e := by
  cases e with
  | result n => exact .result (isResidue_ofInt n)
  | diagnostic d => exact .diagnostic d

/--
**Without division, wrapping arithmetic is exact modulo `2 ^ 64`.** A program in
which nothing is missing and all operators are sums, differences and products is
run from any store without checking overflow, strictly or not, and over integers of
any size from the same values. The run comes to its end. Its events are those of
the exact run, one for one, and each printed value is the one word congruent to the
exact value modulo `2 ^ 64`. At the end the same variables have values, and each
value is the one word congruent to the exact one.
-/
theorem execute_congruent_to_exact (p : Program) (hp : ∀ stmt ∈ p, stmt.isPolynomial = true)
    (s : Store) (strict : Bool) :
    let run := p.execute ⟨strict, false⟩ s
    let exact := p.executeExact strict s.exact
    run.fault? = none ∧ List.Forall₂ Event.Represents run.log exact.log ∧
      ∀ name, Option.Rel IsResidue (run.store.table.get? name) (exact.store.bindings name) := by
  intro run exact
  have hcuts : run.Cuts exact := Program.execute_cut strict s.cuts_exact hp
  refine ⟨hcuts.fault?, ?_, fun name => ?_⟩
  · rw [hcuts.log, List.forall₂_map_left_iff]
    exact List.forall₂_same.mpr fun e _ => e.represents_cut
  · rw [hcuts.store.get? name]
    cases exact.store.bindings name with
    | none => exact .none
    | some n => exact .some (isResidue_ofInt n)

/-- The lines `x = 9223372036854775807`, `x = x * x`, `y = -9223372036854775808 * -1` and
`x + y - 1`, where both products wrap and the wrapped values go on through variables. -/
theorem execute_congruent_to_exact_products :
    let p : Program :=
      [.assign (utf8 "x") (.lit Int64.maxValue) 1,
        .assign (utf8 "x") (.bin .mul (.var (utf8 "x")) (.var (utf8 "x"))) 2,
        .assign (utf8 "y") (.bin .mul (.lit Int64.minValue) (.lit (-1))) 3,
        .print (.bin .sub (.bin .add (.var (utf8 "x")) (.var (utf8 "y"))) (.lit 1)) 4]
    (∀ stmt ∈ p, stmt.isPolynomial = true) ∧
      (p.execute ⟨false, false⟩ .empty).log = [.result Int64.minValue] ∧
      (p.executeExact false Store.empty.exact).log =
        [.result 85070591730234615856620279821087277056] ∧
      IsResidue Int64.minValue 85070591730234615856620279821087277056 := by
  intro p
  have hp : ∀ stmt ∈ p, stmt.isPolynomial = true := by decide
  have hlog : (p.execute ⟨false, false⟩ .empty).log = [.result Int64.minValue] := by decide
  have hexact : (p.executeExact false Store.empty.exact).log =
      [.result 85070591730234615856620279821087277056] := by decide
  obtain ⟨-, hevents, -⟩ := execute_congruent_to_exact p hp .empty false
  rw [hlog, hexact] at hevents
  refine ⟨hp, hlog, hexact, ?_⟩
  cases hevents with
  | cons hevent _ =>
      cases hevent with
      | result h => exact h

end LineCalculator
