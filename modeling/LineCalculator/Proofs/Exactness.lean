import LineCalculator.Eval.Run
import LineCalculator.Proofs.Arithmetic

/-!
# Checked runs against exact runs

With overflow checked, a program is meant to compute with integers of any size
until it says otherwise. To state this, programs get a second meaning, in which
variables hold integers, no operation wraps, and the result of every operation
that is carried out is written down. Everything else is as in a checked run:
the left operand comes before the right one, division goes toward zero,
division by zero is reported and counts as zero, and so does a variable that
was never assigned, which is reported on request.

A checked run **follows** the exact one in one of two ways. Either nothing has
happened yet: no overflow is reported, every result so far fits into 64 bits,
and both runs have given the same and know the same. Or they have parted: an
overflow is reported, and some result of the exact run does not fit. From then
on the runs may read different values and take different turns, but neither
the report nor the result is ever taken back, so nothing more needs to be
known about the rest than that it goes on without a fault. Both ways are kept
by putting two pieces of work one behind the other, which carries the relation
from operators through expressions and statements to programs.

## Main results

* `Expr.evaluate_follows` — evaluating an expression.
* `Stmt.execute_follows` — one statement.
* `Program.execute_follows` — a whole program.
* `execute_overflows_iff_exact` — a checked run reports an overflow exactly if
  some exact result does not fit, and is the exact run if it reports none.
-/

namespace LineCalculator

/-! ## The exact run -/

/-- Variables that hold integers of any size. -/
structure ExactStore where
  /-- Their values, where they were assigned. -/
  bindings : Bytes → Option Int
  tellsUnbound : Bool

/-- Assigning changes one variable and no other. -/
def ExactStore.set (s : ExactStore) (name : Bytes) (n : Int) : ExactStore :=
  { s with bindings := fun x => if x = name then some n else s.bindings x }

/-- What an exact evaluation gives. -/
structure ExactEvaluation where
  log : List Diagnostic
  /-- The results of all operations, in order. -/
  computed : List Int
  value : Int

namespace ExactEvaluation

/-- A value that nothing was computed for. -/
def ofValue (n : Int) : ExactEvaluation := ⟨[], [], n⟩

/-- Goes on with the value. -/
def andThen (e : ExactEvaluation) (f : Int → ExactEvaluation) : ExactEvaluation :=
  ⟨e.log ++ (f e.value).log, e.computed ++ (f e.value).computed, (f e.value).value⟩

end ExactEvaluation

def Operator.evaluateExact (op : Operator) (l r : Int) : ExactEvaluation :=
  -- Division by zero is an operation too, and its result is zero.
  if op = .div ∧ r = 0 then ⟨[.divisionByZero], [0], 0⟩
  else ⟨[], [op.exact l r], op.exact l r⟩

def ExactStore.read (strict : Bool) (s : ExactStore) (line : Int) (name : Bytes) :
    ExactEvaluation :=
  match s.bindings name with
  | some n => .ofValue n
  | none => if strict && s.tellsUnbound then ⟨[.undefined name line], [], 0⟩ else .ofValue 0

def Expr.evaluateExact (strict : Bool) (s : ExactStore) (line : Int) : Expr → ExactEvaluation
  | .lit n => .ofValue n.toInt
  | .var name => s.read strict line name
  | .bin op l r =>
    (l.evaluateExact strict s line).andThen fun a =>
      (r.evaluateExact strict s line).andThen fun b => op.evaluateExact a b
  | .paren x => x.evaluateExact strict s line
  | .missing => .ofValue 0

/-- Something that an exact run gives to the outside. -/
inductive ExactEvent where
  | result (value : Int)
  | diagnostic (d : Diagnostic)
  deriving DecidableEq

/-- What an exact run has done. -/
structure ExactExecution where
  log : List ExactEvent
  computed : List Int
  store : ExactStore

def Stmt.executeExact (strict : Bool) (s : ExactStore) : Stmt → ExactExecution
  | .assign name x line =>
    let e := x.evaluateExact strict s line
    ⟨e.log.map .diagnostic, e.computed, s.set name e.value⟩
  | .print x line =>
    let e := x.evaluateExact strict s line
    ⟨e.log.map .diagnostic ++ [.result e.value], e.computed, s⟩
  | .blank _ => ⟨[], [], s⟩
  | .missing => ⟨[], [], s⟩

def Program.executeExact (strict : Bool) (s : ExactStore) : Program → ExactExecution
  | [] => ⟨[], [], s⟩
  | stmt :: rest =>
    let first := stmt.executeExact strict s
    let others := executeExact strict first.store rest
    ⟨first.log ++ others.log, first.computed ++ others.computed, others.store⟩

/-! ## What is compared -/

/-- The variables of a store, as integers. -/
def Store.exact (s : Store) : ExactStore :=
  ⟨fun x => (s.table.get? x).map Int64.toInt, s.tellsUnbound⟩

/-- An event, with its value as an integer. -/
def Event.exact : Event → ExactEvent
  | .result n => .result n.toInt
  | .diagnostic d => .diagnostic d

/-- Does the log report an overflow? -/
def Log.Overflows (log : Log) : Prop := ∃ l op r, .diagnostic (.overflow l op r) ∈ log

theorem Log.not_overflows_nil : ¬ Log.Overflows [] := by
  rintro ⟨l, op, r, hmem⟩
  cases hmem

theorem Log.overflows_append (s t : Log) :
    Log.Overflows (s ++ t) ↔ s.Overflows ∨ t.Overflows := by
  simp only [Log.Overflows, List.mem_append, exists_or]

/-- Did an operation have a result that does not fit? -/
def Exceeds (computed : List Int) : Prop := ∃ n ∈ computed, ¬ Fits n

theorem not_exceeds_nil : ¬ Exceeds [] := by
  rintro ⟨n, hmem, -⟩
  cases hmem

theorem exceeds_append (ms ns : List Int) : Exceeds (ms ++ ns) ↔ Exceeds ms ∨ Exceeds ns := by
  simp only [Exceeds, List.mem_append, or_and_right, exists_or]

/-- How a checked evaluation and the exact one stand to each other. -/
inductive Evaluation.Follows (e : Evaluation) (x : ExactEvaluation) : Prop where
  /-- They are the same. -/
  | agreed (n : Int64) (hresult : e.result = .ok n) (hvalue : n.toInt = x.value)
      (hlog : e.log = x.log) (hquiet : ¬ Log.Overflows (e.log.map .diagnostic))
      (hfit : ¬ Exceeds x.computed)
  /-- They have parted at an overflow. -/
  | parted (n : Int64) (hresult : e.result = .ok n)
      (hloud : Log.Overflows (e.log.map .diagnostic)) (hexceeds : Exceeds x.computed)

/-- How a checked run and the exact one stand to each other. -/
inductive Execution.Follows (run : Execution) (x : ExactExecution) : Prop where
  /-- They are the same. -/
  | agreed (hfault : run.fault? = none) (hlog : run.log.map Event.exact = x.log)
      (hstore : run.store.exact = x.store) (hquiet : ¬ run.log.Overflows)
      (hfit : ¬ Exceeds x.computed)
  /-- They have parted at an overflow. -/
  | parted (hfault : run.fault? = none) (hloud : run.log.Overflows)
      (hexceeds : Exceeds x.computed)

/-! ## Expressions -/

namespace Evaluation

theorem Follows.exists_ok {e : Evaluation} {x : ExactEvaluation} (h : e.Follows x) :
    ∃ n, e.result = .ok n := by
  cases h with
  | agreed n hresult => exact ⟨n, hresult⟩
  | parted n hresult => exact ⟨n, hresult⟩

theorem follows_ofValue (n : Int64) : (ofValue n).Follows (.ofValue n.toInt) :=
  .agreed n rfl rfl rfl Log.not_overflows_nil not_exceeds_nil

theorem andThen_of_ok {e : Evaluation} {n : Int64} (h : e.result = .ok n) (f : Int64 → Evaluation) :
    e.andThen f = ⟨e.log ++ (f n).log, (f n).result⟩ := by
  rw [andThen, h]

/-- Two evaluations, one going on with the value of the other, follow the exact
ones if each of them does so, the second for every value. -/
theorem Follows.andThen {e : Evaluation} {x : ExactEvaluation} {f : Int64 → Evaluation}
    {g : Int → ExactEvaluation} (he : e.Follows x) (hf : ∀ n, (f n).Follows (g n.toInt)) :
    (e.andThen f).Follows (x.andThen g) := by
  cases he with
  | agreed n hresult hvalue hlog hquiet hfit =>
      have hrest := hf n
      rw [hvalue] at hrest
      rw [andThen_of_ok hresult]
      cases hrest with
      | agreed m hresult' hvalue' hlog' hquiet' hfit' =>
          refine .agreed m hresult' hvalue' ?_ ?_ ?_
          · show e.log ++ (f n).log = x.log ++ (g x.value).log
            rw [hlog, hlog']
          · rw [List.map_append, Log.overflows_append]
            exact not_or.mpr ⟨hquiet, hquiet'⟩
          · exact mt (exceeds_append _ _).mp (not_or.mpr ⟨hfit, hfit'⟩)
      | parted m hresult' hloud hexceeds =>
          refine .parted m hresult' ?_ ((exceeds_append _ _).mpr (.inr hexceeds))
          rw [List.map_append, Log.overflows_append]
          exact .inr hloud
  | parted n hresult hloud hexceeds =>
      -- The second one may now start from another value, but it ends in some value.
      obtain ⟨m, hm⟩ := (hf n).exists_ok
      rw [andThen_of_ok hresult]
      refine .parted m hm ?_ ((exceeds_append _ _).mpr (.inl hexceeds))
      rw [List.map_append, Log.overflows_append]
      exact .inl hloud

end Evaluation

/-- One operation on words follows the exact one on their values. -/
theorem Operator.evaluate_follows (strict : Bool) {op : Operator} (hop : op.isKnown = true)
    (l r : Int64) : (op.evaluate ⟨strict, true⟩ l r).Follows (op.evaluateExact l.toInt r.toInt) := by
  have hzero : (op = .div ∧ r.toInt = 0) ↔ (op = .div ∧ r = 0) :=
    and_congr_right fun _ => ⟨fun h => Int64.toInt_inj.mp h, fun h => by rw [h]; rfl⟩
  unfold Operator.evaluate Operator.evaluateExact
  by_cases hdiv : op = .div ∧ r = 0
  · rw [if_pos hdiv, if_pos (hzero.mpr hdiv)]
    exact .agreed 0 rfl rfl rfl (by simp [Log.Overflows]) (by simp [Exceeds, Fits])
  · rw [if_neg hdiv, if_neg (mt hzero.mp hdiv)]
    obtain ⟨c, hc, hvalue, hwrapped⟩ := compute_eq_some l hop hdiv
    rw [hc]
    by_cases hfits : Fits (op.exact l.toInt r.toInt)
    · have hflag : c.wrapped = false := by
        rw [Bool.eq_false_iff]
        exact fun h => hwrapped.mp h hfits
      simp only [hflag, Bool.false_and, Bool.false_eq_true, if_false]
      refine .agreed c.value rfl ?_ rfl Log.not_overflows_nil ?_
      · rw [hvalue, toInt_ofInt_of_fits hfits]
      · rintro ⟨n, hmem, hn⟩
        rw [List.mem_singleton.mp hmem] at hn
        exact hn hfits
    · have hflag : c.wrapped = true := hwrapped.mpr hfits
      simp only [hflag, Bool.true_and, if_true]
      exact .parted 0 rfl ⟨l, op, r, List.mem_singleton.mpr rfl⟩
        ⟨_, List.mem_singleton.mpr rfl, hfits⟩

theorem Store.read_follows (o : Options) (s : Store) (line : Int) (name : Bytes) :
    (s.read o line name).Follows (s.exact.read o.strict line name) := by
  unfold Store.read ExactStore.read Store.exact Store.isKnownUnbound Store.value Table.isBound
    Table.value
  cases hget : s.table.get? name with
  | some n =>
      simp only [hget, Option.isSome_some, Bool.not_true, Bool.and_false, Bool.false_eq_true, if_false,
        Option.getD_some, Option.map_some]
      exact Evaluation.follows_ofValue n
  | none =>
      simp only [hget, Option.isSome_none, Bool.not_false, Bool.and_true, Option.getD_none,
        Option.map_none]
      split
      · exact .agreed 0 rfl rfl rfl (by simp [Log.Overflows]) not_exceeds_nil
      · exact Evaluation.follows_ofValue 0

/-- **Checked evaluation follows exact evaluation.** -/
theorem Expr.evaluate_follows (strict : Bool) (s : Store) (line : Int) {x : Expr}
    (hx : x.isWellFormed = true) :
    (x.evaluate ⟨strict, true⟩ s line).Follows (x.evaluateExact strict s.exact line) := by
  induction x with
  | lit n => exact Evaluation.follows_ofValue n
  | var name => exact s.read_follows _ line name
  | bin op l r ihl ihr =>
      simp only [isWellFormed, Bool.and_eq_true] at hx
      obtain ⟨⟨hop, hl⟩, hr⟩ := hx
      apply (ihl hl).andThen
      intro a
      apply (ihr hr).andThen
      intro b
      exact Operator.evaluate_follows strict hop a b
  | paren x ih => exact ih hx
  | missing => cases hx

/-! ## Statements and programs -/

theorem Store.exact_set (s : Store) (name : Bytes) (n : Int64) :
    (s.set name n).exact = s.exact.set name n.toInt := by
  have hbindings : ∀ x, ((s.table.set name n).get? x).map Int64.toInt =
      if x = name then some n.toInt else (s.table.get? x).map Int64.toInt := by
    intro x
    rw [Table.get?_set]
    split <;> rfl
  exact congrArg (ExactStore.mk · s.tellsUnbound) (funext hbindings)

theorem map_exact_diagnostic (log : List Diagnostic) :
    (log.map Event.diagnostic).map Event.exact = log.map .diagnostic :=
  List.map_map

theorem Log.not_overflows_result (n : Int64) : ¬ Log.Overflows [.result n] := by
  rintro ⟨l, op, r, hmem⟩
  cases List.mem_singleton.mp hmem

namespace Execution

theorem Follows.fault?_eq_none {run : Execution} {x : ExactExecution} (h : run.Follows x) :
    run.fault? = none := by
  cases h with
  | agreed hfault => exact hfault
  | parted hfault => exact hfault

theorem follows_nothing (s : Store) : (mk [] none s).Follows ⟨[], [], s.exact⟩ :=
  .agreed rfl rfl rfl Log.not_overflows_nil not_exceeds_nil

end Execution

/-- **One checked statement follows the exact one.** -/
theorem Stmt.execute_follows (strict : Bool) (s : Store) {stmt : Stmt}
    (hstmt : stmt.isWellFormed = true) :
    (stmt.execute ⟨strict, true⟩ s).Follows (stmt.executeExact strict s.exact) := by
  cases stmt with
  | assign name x line =>
      unfold Stmt.execute Stmt.executeExact
      cases Expr.evaluate_follows strict s line (x := x) hstmt with
      | agreed n hresult hvalue hlog hquiet hfit =>
          simp only [hresult]
          refine .agreed rfl ?_ ?_ hquiet hfit
          · rw [map_exact_diagnostic, hlog]
          · rw [Store.exact_set, hvalue]
      | parted n hresult hloud hexceeds =>
          simp only [hresult]
          exact .parted rfl hloud hexceeds
  | print x line =>
      unfold Stmt.execute Stmt.executeExact
      cases Expr.evaluate_follows strict s line (x := x) hstmt with
      | agreed n hresult hvalue hlog hquiet hfit =>
          simp only [hresult]
          refine .agreed rfl ?_ rfl ?_ hfit
          · rw [List.map_append, map_exact_diagnostic, hlog, List.map_singleton, Event.exact, hvalue]
          · rw [Log.overflows_append]
            exact not_or.mpr ⟨hquiet, Log.not_overflows_result n⟩
      | parted n hresult hloud hexceeds =>
          simp only [hresult]
          exact .parted rfl ((Log.overflows_append _ _).mpr (.inl hloud)) hexceeds
  | blank line => exact Execution.follows_nothing s
  | missing => cases hstmt

namespace Program

theorem execute_cons_of_none {o : Options} {s : Store} {stmt : Stmt} (rest : Program)
    (h : (stmt.execute o s).fault? = none) :
    execute o s (stmt :: rest) =
      ⟨(stmt.execute o s).log ++ (execute o (stmt.execute o s).store rest).log,
        (execute o (stmt.execute o s).store rest).fault?,
        (execute o (stmt.execute o s).store rest).store⟩ := by
  rw [execute, h]

/-- **A checked run follows the exact run.** -/
theorem execute_follows (strict : Bool) (s : Store) {p : Program}
    (hp : ∀ stmt ∈ p, stmt.isWellFormed = true) :
    (execute ⟨strict, true⟩ s p).Follows (executeExact strict s.exact p) := by
  induction p generalizing s with
  | nil => exact Execution.follows_nothing s
  | cons stmt rest ih =>
      have hfirst := Stmt.execute_follows strict s (hp stmt (List.mem_cons_self))
      have hothers := ih (stmt.execute ⟨strict, true⟩ s).store
        fun t ht => hp t (List.mem_cons_of_mem _ ht)
      rw [execute_cons_of_none rest hfirst.fault?_eq_none, executeExact]
      cases hfirst with
      | agreed hfault hlog hstore hquiet hfit =>
          rw [hstore] at hothers
          cases hothers with
          | agreed hfault' hlog' hstore' hquiet' hfit' =>
              refine .agreed hfault' ?_ hstore' ?_ ?_
              · rw [List.map_append, hlog, hlog']
              · rw [Log.overflows_append]
                exact not_or.mpr ⟨hquiet, hquiet'⟩
              · rw [exceeds_append]
                exact not_or.mpr ⟨hfit, hfit'⟩
          | parted hfault' hloud hexceeds =>
              exact .parted hfault' ((Log.overflows_append _ _).mpr (.inr hloud))
                ((exceeds_append _ _).mpr (.inr hexceeds))
      | parted hfault hloud hexceeds =>
          exact .parted hothers.fault?_eq_none ((Log.overflows_append _ _).mpr (.inl hloud))
            ((exceeds_append _ _).mpr (.inl hexceeds))

end Program

/-- **A checked run is exact until it says otherwise.** For every program whose
trees are in order, started in any store, strict or not, a checked run comes to
the end of the program. It reports an overflow if and only if some operation
of the exact run has a result below `-2 ^ 63` or above `2 ^ 63 - 1`; and if it
reports none, both runs give the same events and leave the same variables. -/
theorem execute_overflows_iff_exact (p : Program) (hp : ∀ stmt ∈ p, stmt.isWellFormed = true)
    (s : Store) (strict : Bool) :
    let run := p.execute ⟨strict, true⟩ s
    let exact := p.executeExact strict s.exact
    run.fault? = none ∧
      (run.log.Overflows ↔
        ∃ n ∈ exact.computed, ¬ (-9223372036854775808 ≤ n ∧ n ≤ 9223372036854775807)) ∧
      (¬ run.log.Overflows →
        run.log.map Event.exact = exact.log ∧ run.store.exact = exact.store) := by
  intro run exact
  have hfollows : run.Follows exact := Program.execute_follows strict s hp
  refine ⟨hfollows.fault?_eq_none, ?_⟩
  cases hfollows with
  | agreed hfault hlog hstore hquiet hfit =>
      exact ⟨iff_of_false hquiet hfit, fun _ => ⟨hlog, hstore⟩⟩
  | parted hfault hloud hexceeds =>
      exact ⟨iff_of_true hloud hexceeds, fun hquiet => absurd hloud hquiet⟩

/-- The lines `x = 9223372036854775807` and `x + 1`, one of which overflows. -/
theorem execute_overflows_iff_exact_successor :
    Log.Overflows (Program.execute ⟨false, true⟩ .empty
      [.assign [120] (.lit Int64.maxValue) 1, .print (.bin .add (.var [120]) (.lit 1)) 2]).log :=
  (execute_overflows_iff_exact _ (by decide) _ _).2.1.mpr ⟨9223372036854775808, by decide, by decide⟩

end LineCalculator
