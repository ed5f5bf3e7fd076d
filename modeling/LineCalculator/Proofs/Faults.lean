import LineCalculator.Eval.Run
import LineCalculator.Proofs.Arithmetic

/-!
# Faults are found wherever they are

Evaluation takes no short cuts. Whatever the left operand comes to, the right
one is evaluated too and the operator is applied; a division by zero or an
overflow counts as zero, and the work goes on. So a missing part, or an operator
that means nothing, is reached however deep it stands and whatever is calculated
around it, and the fault that ends an evaluation can be told from the tree
alone. `Expr.defect?` looks for it from left to right, operands before their
operator.

A tree without a defect has a value, and `Expr.meaning` says which one: each
operation is carried out over the integers and its result cut to 64 bits, and
counts as zero where overflow is checked and it does not fit.

The two together say how an evaluation ends (`Expr.result_evaluate`), and from
that follows what a statement does. One with a defect has given diagnostics at
most, since variables are assigned and results printed behind the whole
evaluation. One without a defect does what its kind says and nothing more.

## Main results

* `Expr.isWellFormed_iff` — a tree is in order if no part of it is broken.
* `Expr.result_evaluate` — an evaluation ends in the tree's first defect, or else
  in its meaning.
* `Stmt.fault?_execute_eq` — the fault of a statement is the first defect in it.
* `execute_faults_iff_malformed` — which statements have a fault, and what each
  kind of statement does with and without one.
-/

namespace LineCalculator

/-! ## Defects of trees -/

namespace Expr

/-- The expression itself and all expressions inside it. -/
def parts : Expr → List Expr
  | lit n => [lit n]
  | var name => [var name]
  | bin op l r => bin op l r :: (l.parts ++ r.parts)
  | paren x => paren x :: x.parts
  | missing => [missing]

/-- The topmost node of the tree is missing, or is an operator that means nothing. -/
def IsBroken (x : Expr) : Prop :=
  x = missing ∨ ∃ op l r, x = bin op l r ∧ op ∉ [Operator.add, .sub, .mul, .div]

/-- The first thing wrong with the tree, from left to right and with operands
before their operator. -/
def defect? : Expr → Option Fault
  | lit _ => none
  | var _ => none
  | bin op l r =>
    l.defect?.or (r.defect?.or (if op.isKnown then none else some (.unknownOperator op)))
  | paren x => x.defect?
  | missing => some .missingExpression

end Expr

/-- The first thing wrong with the statement. -/
def Stmt.defect? : Stmt → Option Fault
  | assign _ x _ => x.defect?
  | print x _ => x.defect?
  | blank _ => none
  | missing => some .missingStatement

theorem Operator.isKnown_iff (op : Operator) :
    op.isKnown = true ↔ op ∈ [add, sub, mul, div] := by
  cases op <;> simp [isKnown]

/-- The codes from one to four mean something, and no others. -/
theorem Operator.isKnown_ofCode (code : Int8) :
    (ofCode code).isKnown = true ↔ 1 ≤ code ∧ code ≤ 4 := by
  have hcode (k : Int8) : code = k ↔ code.toInt = k.toInt := Int8.toInt_inj.symm
  have hone : (1 : Int8).toInt = 1 := rfl
  have htwo : (2 : Int8).toInt = 2 := rfl
  have hthree : (3 : Int8).toInt = 3 := rfl
  have hfour : (4 : Int8).toInt = 4 := rfl
  simp only [ofCode, hcode, Int8.le_iff_toInt_le, hone, htwo, hthree, hfour]
  repeat' split
  all_goals simp only [isKnown, Bool.false_eq_true, true_iff, false_iff]
  all_goals omega

theorem Expr.isBroken_bin_iff (op : Operator) (l r : Expr) :
    (bin op l r).IsBroken ↔ op.isKnown = false := by
  rw [← Bool.not_eq_true, op.isKnown_iff]
  constructor
  · rintro (h | ⟨_, _, _, h, hop⟩)
    · cases h
    · cases h
      exact hop
  · exact fun hop => .inr ⟨op, l, r, rfl, hop⟩

/-- **A tree is in order if no part of it is broken.** -/
theorem Expr.isWellFormed_iff (x : Expr) :
    x.isWellFormed = true ↔ ∀ part ∈ x.parts, ¬ part.IsBroken := by
  induction x with
  | lit n => simp [isWellFormed, parts, IsBroken]
  | var name => simp [isWellFormed, parts, IsBroken]
  | bin op l r ihl ihr =>
      rw [isWellFormed, Bool.and_eq_true, Bool.and_eq_true, and_assoc, ihl, ihr, parts,
        List.forall_mem_cons, List.forall_mem_append, isBroken_bin_iff, Bool.not_eq_false]
  | paren x ih =>
      rw [isWellFormed, ih, parts, List.forall_mem_cons]
      simp [IsBroken]
  | missing => simp [isWellFormed, parts, IsBroken]

theorem Expr.defect?_eq_none_iff (x : Expr) : x.defect? = none ↔ x.isWellFormed = true := by
  induction x with
  | lit n => exact iff_of_true rfl rfl
  | var name => exact iff_of_true rfl rfl
  | bin op l r ihl ihr =>
      rw [defect?, Option.or_eq_none_iff, Option.or_eq_none_iff, ihl, ihr, isWellFormed]
      cases op.isKnown <;> simp
  | paren x ih => exact ih
  | missing => exact iff_of_false nofun nofun

theorem Stmt.defect?_eq_none_iff (stmt : Stmt) :
    stmt.defect? = none ↔ stmt.isWellFormed = true := by
  cases stmt with
  | assign name x line => exact x.defect?_eq_none_iff
  | print x line => exact x.defect?_eq_none_iff
  | blank line => exact iff_of_true rfl rfl
  | missing => exact iff_of_false nofun nofun

theorem Stmt.not_isWellFormed_iff (stmt : Stmt) :
    ¬ stmt.isWellFormed = true ↔
      stmt = missing ∨ ∃ x, stmt.expr? = some x ∧ ∃ part ∈ x.parts, part.IsBroken := by
  have hexpr (x : Expr) : ¬ x.isWellFormed = true ↔ ∃ part ∈ x.parts, part.IsBroken := by
    rw [x.isWellFormed_iff]
    simp only [Classical.not_forall, Classical.not_not, exists_prop]
  cases stmt with
  | assign name x line => simpa [isWellFormed, expr?] using hexpr x
  | print x line => simpa [isWellFormed, expr?] using hexpr x
  | blank line => simp [isWellFormed, expr?]
  | missing => simp [isWellFormed]

/-! ## Values of trees -/

/-- What an operation comes to: the exact result cut to 64 bits, or zero if overflow
is checked and the result does not fit. -/
def Operator.meaning (checked : Bool) (op : Operator) (l r : Int64) : Int64 :=
  if checked = true ∧ ¬ Fits (op.exact l.toInt r.toInt) then 0
  else Int64.ofInt (op.exact l.toInt r.toInt)

/-- What an expression comes to if the variables have these values. -/
def Expr.meaning (checked : Bool) (value : Bytes → Int64) : Expr → Int64
  | .lit n => n
  | .var name => value name
  | .bin op l r => op.meaning checked (l.meaning checked value) (r.meaning checked value)
  | .paren x => x.meaning checked value
  | .missing => 0

theorem Operator.result_evaluate (o : Options) (op : Operator) (l r : Int64) :
    (op.evaluate o l r).result =
      if op.isKnown then .ok (op.meaning o.checked l r) else .error (.unknownOperator op) := by
  by_cases hop : op.isKnown = true
  · rw [if_pos hop]
    unfold evaluate meaning
    by_cases hdiv : op = .div ∧ r = 0
    · -- The exact quotient by zero is zero, which fits.
      obtain ⟨rfl, rfl⟩ := hdiv
      have hexact : exact .div l.toInt (0 : Int64).toInt = 0 := Int.tdiv_zero _
      rw [hexact]
      simp [Fits]
    · obtain ⟨c, hc, hvalue, hwrapped⟩ := compute_eq_some l hop hdiv
      rw [if_neg hdiv, hc]
      simp only [Bool.and_eq_true, hwrapped, and_comm]
      split
      · rfl
      · exact congrArg Except.ok hvalue
  · cases op with
    | unknown code => rfl
    | _ => exact absurd rfl hop

theorem Evaluation.result_andThen (e : Evaluation) (f : Int64 → Evaluation) :
    (e.andThen f).result = e.result.bind fun n => (f n).result := by
  unfold andThen
  cases e.result <;> rfl

/-- **How an evaluation ends**: in the first defect of the tree, whatever the
variables and the options are, or else in the meaning of the tree. -/
theorem Expr.result_evaluate (o : Options) (s : Store) (line : Int) (x : Expr) :
    (x.evaluate o s line).result =
      match x.defect? with
      | some fault => .error fault
      | none => .ok (x.meaning o.checked s.value) := by
  induction x with
  | lit n => rfl
  | var name =>
      show (s.read o line name).result = .ok (s.value name)
      unfold Store.read
      split <;> rfl
  | bin op l r ihl ihr =>
      rw [evaluate, Evaluation.result_andThen, ihl, defect?, meaning]
      cases l.defect? with
      | some fault => rfl
      | none =>
          show ((r.evaluate o s line).andThen _).result = _
          rw [Evaluation.result_andThen, ihr]
          cases r.defect? with
          | some fault => rfl
          | none =>
              show (op.evaluate o _ _).result = _
              rw [Operator.result_evaluate]
              cases op.isKnown <;> rfl
  | paren x ih => exact ih
  | missing => rfl

/-! ## Statements -/

namespace Stmt

variable (o : Options) (s : Store) {x : Expr}

/-- A statement with a defect leaves the diagnostics from before the fault, and
nothing else. -/
theorem execute_of_defect {stmt : Stmt} (hx : stmt.expr? = some x) {fault : Fault}
    (h : x.defect? = some fault) :
    stmt.execute o s = ⟨(x.evaluate o s stmt.line).log.map .diagnostic, some fault, s⟩ := by
  have hresult (line : Int) : (x.evaluate o s line).result = .error fault := by
    rw [x.result_evaluate, h]
  cases stmt with
  | assign name y n =>
      cases hx
      simp only [execute, hresult, line]
  | print y n =>
      cases hx
      simp only [execute, hresult, line]
  | blank n => cases hx
  | missing => cases hx

theorem execute_assign (name : Bytes) (line : Int) (h : x.defect? = none) :
    (assign name x line).execute o s =
      ⟨(x.evaluate o s line).log.map .diagnostic, none,
        s.set name (x.meaning o.checked s.value)⟩ := by
  simp only [execute, x.result_evaluate, h]

theorem execute_print (line : Int) (h : x.defect? = none) :
    (print x line).execute o s =
      ⟨(x.evaluate o s line).log.map .diagnostic ++ [.result (x.meaning o.checked s.value)],
        none, s⟩ := by
  simp only [execute, x.result_evaluate, h]

/-- **The fault of a statement** is the first defect in it, whatever the variables and
the options are. -/
theorem fault?_execute_eq (stmt : Stmt) : (stmt.execute o s).fault? = stmt.defect? := by
  cases stmt with
  | assign name x line =>
      cases h : x.defect? with
      | some fault => rw [execute_of_defect o s rfl h, defect?, h]
      | none => rw [execute_assign o s name line h, defect?, h]
  | print x line =>
      cases h : x.defect? with
      | some fault => rw [execute_of_defect o s rfl h, defect?, h]
      | none => rw [execute_print o s line h, defect?, h]
  | blank line => rfl
  | missing => rfl

/-- A fault leaves all variables as they were, and no result is printed. -/
theorem store_execute_of_fault {stmt : Stmt} (h : (stmt.execute o s).fault? ≠ none) :
    (stmt.execute o s).store = s ∧ ∀ n, Event.result n ∉ (stmt.execute o s).log := by
  rw [fault?_execute_eq] at h
  have hdiagnostics (x : Expr) (line : Int) (n : Int64) :
      Event.result n ∉ (x.evaluate o s line).log.map .diagnostic := by simp
  cases stmt with
  | assign name x line =>
      obtain ⟨fault, hfault⟩ := Option.ne_none_iff_exists'.mp h
      rw [execute_of_defect o s rfl hfault]
      exact ⟨rfl, hdiagnostics x line⟩
  | print x line =>
      obtain ⟨fault, hfault⟩ := Option.ne_none_iff_exists'.mp h
      rw [execute_of_defect o s rfl hfault]
      exact ⟨rfl, hdiagnostics x line⟩
  | blank line => exact absurd rfl h
  | missing => exact ⟨rfl, fun n => List.not_mem_nil⟩

end Stmt

/--
**A statement has a fault exactly if its tree is broken somewhere.** Whatever the
variables and the options are, executing a statement ends in a fault if and only
if there is no statement, or some expression in it is missing, or some operator in
it is none of the four; and these have the codes from one to four. A fault leaves
the store as it was, and nothing is printed.

Without a fault, a blank statement does nothing. A printing one leaves the store as
it was, and its events are the diagnostics of its expression and then the one
result, which is the expression's value. An assigning one gives the diagnostics
alone, binds its own name to the value, and leaves every other name as it was.
-/
theorem execute_faults_iff_malformed (o : Options) (s : Store) (stmt : Stmt) :
    let run := stmt.execute o s
    (run.fault? ≠ none ↔
        stmt = .missing ∨ ∃ x, stmt.expr? = some x ∧ ∃ part ∈ x.parts,
          part = .missing ∨ ∃ op l r, part = .bin op l r ∧ op ∉ [Operator.add, .sub, .mul, .div]) ∧
      (∀ code : Int8,
        Operator.ofCode code ∈ [Operator.add, .sub, .mul, .div] ↔ 1 ≤ code ∧ code ≤ 4) ∧
      (run.fault? ≠ none → run.store = s ∧ ∀ n, .result n ∉ run.log) ∧
      (run.fault? = none →
        match stmt with
        | .blank _ => run.log = [] ∧ run.store = s
        | .print x line =>
          ∃ v, (x.evaluate o s line).result = .ok v ∧ v = x.meaning o.checked s.value ∧
            run.log = (x.evaluate o s line).log.map .diagnostic ++ [.result v] ∧ run.store = s
        | .assign name x line =>
          ∃ v, (x.evaluate o s line).result = .ok v ∧ v = x.meaning o.checked s.value ∧
            run.log = (x.evaluate o s line).log.map .diagnostic ∧
            run.store.tellsUnbound = s.tellsUnbound ∧
            ∀ y, run.store.table.get? y = if y = name then some v else s.table.get? y
        | .missing => False) := by
  intro run
  have hfault : run.fault? = stmt.defect? := stmt.fault?_execute_eq o s
  refine ⟨?_, fun code => ?_, fun h => Stmt.store_execute_of_fault o s h, fun h => ?_⟩
  · rw [hfault, Ne, stmt.defect?_eq_none_iff]
    exact stmt.not_isWellFormed_iff
  · rw [← Operator.isKnown_iff, Operator.isKnown_ofCode]
  · rw [hfault] at h
    cases stmt with
    | assign name x line =>
        have hresult := x.result_evaluate o s line
        rw [show x.defect? = none from h] at hresult
        have hrun : run = _ := Stmt.execute_assign o s name line h
        rw [hrun]
        exact ⟨_, hresult, rfl, rfl, rfl, s.table.get?_set name _⟩
    | print x line =>
        have hresult := x.result_evaluate o s line
        rw [show x.defect? = none from h] at hresult
        have hrun : run = _ := Stmt.execute_print o s line h
        rw [hrun]
        exact ⟨_, hresult, rfl, rfl, rfl⟩
    | blank line => exact ⟨rfl, rfl⟩
    | missing => cases h

end LineCalculator
