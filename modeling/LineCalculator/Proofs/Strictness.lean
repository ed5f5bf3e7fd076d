import LineCalculator.Output.LineSink
import LineCalculator.Proofs.Running

/-!
# Strict runs against lenient ones

Strict reading takes another way to every variable: it asks the store whether
the variable was ever assigned, and reports it if not.  Nothing else may change.
Here a program is run twice from the same store, once strict and once not, and
the second run turns out to be the first one **with its reports of unassigned
variables left out**.

So the relation between the two runs is a function, `lenient`, and the whole
argument is equational: leaving out reports commutes with going on from one
piece of work to the next (`Evaluation.lenient_andThen`), so it can be pushed
down to the single read, where it is a matter of one `if`.  In particular both
runs go on with equal values at every point, which is why their stores never
come apart.

A store that cannot tell whether a variable was assigned makes no difference
between the two kinds of reading at all (`Program.execute_strict_and`).

## Main results

* `Program.execute_lenient` — a lenient run is a strict one without its reports.
* `execute_strict_adds_reports` — strictness only adds reports.
-/

namespace LineCalculator

/-! ## Leaving out reports -/

/-- Does it report a variable that was never assigned? -/
def Diagnostic.isUndefined : Diagnostic → Bool
  | .undefined _ _ => true
  | _ => false

def Event.isUndefined : Event → Bool
  | .result _ => false
  | .diagnostic d => d.isUndefined

/-- The evaluation without its reports of unassigned variables. -/
def Evaluation.lenient (e : Evaluation) : Evaluation :=
  ⟨e.log.filter fun d => !d.isUndefined, e.result⟩

/-- The run without its reports of unassigned variables. -/
def Execution.lenient (e : Execution) : Execution :=
  ⟨e.log.filter fun event => !event.isUndefined, e.fault?, e.store⟩

theorem Evaluation.lenient_andThen (e : Evaluation) (f : Int64 → Evaluation) :
    (e.andThen f).lenient = e.lenient.andThen fun n => (f n).lenient := by
  obtain ⟨log, result⟩ := e
  cases result with
  | ok n =>
      show Evaluation.mk ((log ++ (f n).log).filter _) (f n).result = _
      rw [List.filter_append]
      rfl
  | error fault => rfl

theorem Log.filter_isUndefined_map (log : List Diagnostic) :
    (log.map Event.diagnostic).filter (fun e => !e.isUndefined) =
      (log.filter fun d => !d.isUndefined).map .diagnostic :=
  List.filter_map

/-! ## Expressions -/

/-- Operators know nothing of variables. -/
theorem Operator.lenient_evaluate (o : Options) (op : Operator) (l r : Int64) :
    (op.evaluate o l r).lenient = op.evaluate o l r := by
  unfold Operator.evaluate
  by_cases hdiv : op = .div ∧ r = 0
  · rw [if_pos hdiv]
    rfl
  · rw [if_neg hdiv]
    cases op.compute l r with
    | none => rfl
    | some c =>
        by_cases hflag : (c.wrapped && o.checked) = true
        · simp only [hflag, if_true]
          rfl
        · simp only [hflag]
          rfl

theorem Store.lenient_read (checked : Bool) (s : Store) (line : Int) (name : Bytes) :
    s.read ⟨false, checked⟩ line name = (s.read ⟨true, checked⟩ line name).lenient := by
  show Evaluation.ofValue (s.value name) = _
  unfold Store.read
  by_cases hunbound : s.isKnownUnbound name = true
  · simp only [hunbound, Bool.and_self, if_true]
    rfl
  · simp only [hunbound, Bool.true_and]
    rfl

theorem Expr.evaluate_lenient (checked : Bool) (s : Store) (line : Int) (x : Expr) :
    x.evaluate ⟨false, checked⟩ s line = (x.evaluate ⟨true, checked⟩ s line).lenient := by
  induction x with
  | lit n => rfl
  | var name => exact s.lenient_read checked line name
  | bin op l r ihl ihr =>
      rw [evaluate, evaluate, Evaluation.lenient_andThen, ihl]
      congr 1
      funext a
      rw [Evaluation.lenient_andThen, ihr]
      congr 1
      funext b
      exact (op.lenient_evaluate ⟨true, checked⟩ a b).symm
  | paren x ih => exact ih
  | missing => rfl

/-! ## Statements and programs -/

theorem Stmt.execute_lenient (checked : Bool) (s : Store) (stmt : Stmt) :
    stmt.execute ⟨false, checked⟩ s = (stmt.execute ⟨true, checked⟩ s).lenient := by
  cases stmt with
  | assign name x line =>
      simp only [execute, Expr.evaluate_lenient checked s line x, Evaluation.lenient]
      cases (x.evaluate ⟨true, checked⟩ s line).result with
      | ok n => simp only [Execution.lenient, Log.filter_isUndefined_map]
      | error fault => simp only [Execution.lenient, Log.filter_isUndefined_map]
  | print x line =>
      simp only [execute, Expr.evaluate_lenient checked s line x, Evaluation.lenient]
      cases (x.evaluate ⟨true, checked⟩ s line).result with
      | ok n =>
          simp only [Execution.lenient, List.filter_append, Log.filter_isUndefined_map]
          rfl
      | error fault => simp only [Execution.lenient, Log.filter_isUndefined_map]
  | blank line => rfl
  | missing => rfl

namespace Program

/-- **A lenient run is a strict run without its reports of unassigned
variables**: it stops at the same fault, if any, and leaves the same store. -/
theorem execute_lenient (checked : Bool) (s : Store) (p : Program) :
    p.execute ⟨false, checked⟩ s = (p.execute ⟨true, checked⟩ s).lenient := by
  induction p generalizing s with
  | nil => rfl
  | cons stmt rest ih =>
      have hfirst := Stmt.execute_lenient checked s stmt
      rw [execute, execute, hfirst]
      cases hfault : (stmt.execute ⟨true, checked⟩ s).fault? with
      | some fault => simp only [Execution.lenient, hfault]
      | none =>
          have hothers := ih (stmt.execute ⟨true, checked⟩ s).store
          simp only [Execution.lenient, hfault, hothers, List.filter_append]

end Program

/-! ## Stores that cannot tell -/

theorem Store.read_strict_and (strict checked : Bool) (s : Store) :
    s.read ⟨strict, checked⟩ = s.read ⟨strict && s.tellsUnbound, checked⟩ := by
  funext line name
  unfold Store.read Store.isKnownUnbound
  cases strict <;> cases s.tellsUnbound <;> rfl

theorem Expr.evaluate_strict_and (strict checked : Bool) (s : Store) (line : Int) (x : Expr) :
    x.evaluate ⟨strict, checked⟩ s line =
      x.evaluate ⟨strict && s.tellsUnbound, checked⟩ s line := by
  induction x with
  | lit n => rfl
  | var name => exact congrFun (congrFun (s.read_strict_and strict checked) line) name
  | bin op l r ihl ihr =>
      rw [evaluate, evaluate, ihl, ihr]
      rfl
  | paren x ih => exact ih
  | missing => rfl

theorem Stmt.execute_strict_and (strict checked : Bool) (s : Store) (stmt : Stmt) :
    stmt.execute ⟨strict, checked⟩ s =
      stmt.execute ⟨strict && s.tellsUnbound, checked⟩ s := by
  cases stmt with
  | assign name x line => rw [execute, execute, Expr.evaluate_strict_and]
  | print x line => rw [execute, execute, Expr.evaluate_strict_and]
  | blank line => rfl
  | missing => rfl

/-- Executing does not change what the store can tell. -/
theorem Stmt.tellsUnbound_execute (o : Options) (s : Store) (stmt : Stmt) :
    (stmt.execute o s).store.tellsUnbound = s.tellsUnbound := by
  cases stmt with
  | assign name x line =>
      rw [execute]
      cases (x.evaluate o s line).result <;> rfl
  | print x line =>
      rw [execute]
      cases (x.evaluate o s line).result <;> rfl
  | blank line => rfl
  | missing => rfl

/-- Strictness is up to what the store can tell. -/
theorem Program.execute_strict_and (strict checked : Bool) (s : Store) (p : Program) :
    p.execute ⟨strict, checked⟩ s = p.execute ⟨strict && s.tellsUnbound, checked⟩ s := by
  induction p generalizing s with
  | nil => rfl
  | cons stmt rest ih =>
      have htells := Stmt.tellsUnbound_execute ⟨strict && s.tellsUnbound, checked⟩ s stmt
      rw [execute, execute, Stmt.execute_strict_and, ih, htells]

/-! ## Two runs of one program -/

/-- Reports of unassigned variables are no results. -/
theorem Transcript.results_filter_isUndefined (log : Log) :
    (ofLog (log.filter fun e => !e.isUndefined)).results = (ofLog log).results := by
  induction log with
  | nil => rfl
  | cons e log ih =>
      cases e with
      | result n => exact congrArg (Decimal.ofInt64 n :: ·) ih
      | diagnostic d =>
          by_cases hd : d.isUndefined = true
          · rw [List.filter_cons_of_neg (by simp [Event.isUndefined, hd])]
            exact ih
          · rw [List.filter_cons_of_pos (by simp [Event.isUndefined, hd])]
            exact ih

/--
**Strictness only adds reports.**  A program whose trees are in order is run
twice from the same store of any kind, strict and not, with overflow checked in
both runs or in neither.  Both runs come to the end of the program, print the
same results in the same order and leave the same store.  The log of the lenient
run is the log of the strict one without the reports of unassigned variables,
and if the store cannot tell which variables were assigned, the logs are equal.
-/
theorem execute_strict_adds_reports (p : Program) (hp : ∀ stmt ∈ p, stmt.isWellFormed = true)
    (s : Store) (checked : Bool) :
    let strict := p.execute ⟨true, checked⟩ s
    let lenient := p.execute ⟨false, checked⟩ s
    strict.fault? = none ∧ lenient.fault? = none ∧
      (Transcript.ofLog lenient.log).results = (Transcript.ofLog strict.log).results ∧
      lenient.store = strict.store ∧
      lenient.log = strict.log.filter (fun e => !e.isUndefined) ∧
      (s.tellsUnbound = false → lenient.log = strict.log) := by
  intro strict lenient
  have hlenient : lenient = strict.lenient := Program.execute_lenient checked s p
  have hlog : lenient.log = strict.log.filter (fun e => !e.isUndefined) :=
    congrArg Execution.log hlenient
  have hstore : lenient.store = strict.store := by
    rw [hlenient]
    rfl
  refine ⟨Program.fault?_execute _ s hp, Program.fault?_execute _ s hp, ?_, hstore, hlog, ?_⟩
  · rw [hlog]
    exact Transcript.results_filter_isUndefined strict.log
  · intro htells
    have hstrict : strict = p.execute ⟨true && s.tellsUnbound, checked⟩ s :=
      Program.execute_strict_and true checked s p
    rw [hstrict, htells]
    rfl

/-- The lines `x / 0`, `x = 0` and `x`: the first reports an unassigned variable
and a division by zero, and the last, which reads zero too, reports nothing. -/
theorem execute_strict_adds_reports_zero :
    let p : Program := [.print (.bin .div (.var [120]) (.lit 0)) 1, .assign [120] (.lit 0) 2,
      .print (.var [120]) 3]
    (p.execute ⟨true, false⟩ .empty).log =
        [.diagnostic (.undefined [120] 1), .diagnostic .divisionByZero, .result 0, .result 0] ∧
      (p.execute ⟨false, false⟩ .empty).log =
        [.diagnostic .divisionByZero, .result 0, .result 0] := by
  intro p
  have hstrict : (p.execute ⟨true, false⟩ .empty).log =
      [.diagnostic (.undefined [120] 1), .diagnostic .divisionByZero, .result 0, .result 0] := by
    decide
  have h := execute_strict_adds_reports p (by decide) .empty false
  refine ⟨hstrict, ?_⟩
  rw [h.2.2.2.2.1, hstrict]
  rfl

end LineCalculator
