import LineCalculator.Proofs.Strictness

/-!
# Reports of unassigned variables can be read off the program

A strict run reports a variable when it reads it and the store has no value for
it yet. That happens deep inside expressions, between divisions by zero and
overflows, and what the store holds depends on all that was executed before. Yet
the reports can be told without executing anything: a read is reported exactly
if the variable had no value at the start and **no earlier statement assigns
it**. `Program.unassignedReads` says this of the program text, statement by
statement, and from left to right within a statement.

The proof follows one fact through the run, which names the store would report
next. Evaluating an expression leaves it alone and reports the names of the
expression that are among them (`Expr.filter_isUndefined_evaluate`); executing a
statement takes out the name it assigns, if any, whatever the value is and
whatever was reported on the way to it (`Stmt.reported_execute`). The analysis
loses the same name from one statement to the next
(`Program.unassignedReads_cons`), so the two stay together to the end.

## Main results

* `Program.filter_isUndefined_execute` — the reports of a run, under all options.
* `execute_reports_unassigned_reads` — the reports of a strict run.
-/

namespace LineCalculator

/-! ## The analysis -/

namespace Stmt

/-- The names that the statement reads, from left to right, each as often as it
is read. -/
def reads : Stmt → List Bytes
  | assign _ x _ => x.names
  | print x _ => x.names
  | _ => []

/-- Does the statement assign this name? -/
def assigns (name : Bytes) : Stmt → Bool
  | assign target _ _ => target == name
  | _ => false

end Stmt

namespace Program

/-- The reads of names that have no value at the start, which `unbound` tells,
and that no earlier statement assigns. Each is given as the report of it. -/
def unassignedReads (unbound : Bytes → Bool) (p : Program) : List Diagnostic :=
  p.zipIdx.flatMap fun (stmt, i) =>
    (stmt.reads.filter fun name => unbound name && !(p.take i).any (Stmt.assigns name)).map
      fun name => .undefined name stmt.line

/-- Behind a statement the analysis goes on without the name that it assigns. -/
theorem unassignedReads_cons (unbound : Bytes → Bool) (stmt : Stmt) (rest : Program) :
    unassignedReads unbound (stmt :: rest) =
      ((stmt.reads.filter unbound).map fun name => .undefined name stmt.line) ++
        unassignedReads (fun name => unbound name && !stmt.assigns name) rest := by
  have hnone (name : Bytes) : (unbound name && !(List.take 0 (stmt :: rest)).any
      (Stmt.assigns name)) = unbound name := Bool.and_true _
  have hlater (name : Bytes) (i : Nat) :
      (unbound name && !((stmt :: rest).take (i + 1)).any (Stmt.assigns name)) =
        (unbound name && !stmt.assigns name && !(rest.take i).any (Stmt.assigns name)) := by
    rw [List.take_succ_cons, List.any_cons, Bool.not_or, Bool.and_assoc]
  unfold unassignedReads
  rw [List.zipIdx_cons, List.flatMap_cons, List.zipIdx_succ, List.flatMap_map]
  simp only [hnone, hlater]

end Program

/-! ## Expressions -/

/-- Operators report no variables. -/
theorem Operator.filter_isUndefined_evaluate (o : Options) (op : Operator) (l r : Int64) :
    (op.evaluate o l r).log.filter Diagnostic.isUndefined = [] := by
  have hsame : (op.evaluate o l r).log.filter (fun d => !d.isUndefined) =
      (op.evaluate o l r).log := congrArg Evaluation.log (op.lenient_evaluate o l r)
  refine List.filter_eq_nil_iff.mpr fun d hd => ?_
  simpa using List.filter_eq_self.mp hsame d hd

/-- Would reading this name be reported? -/
def Store.reports (o : Options) (s : Store) (name : Bytes) : Bool :=
  o.strict && s.isKnownUnbound name

theorem Store.log_read (o : Options) (s : Store) (line : Int) (name : Bytes) :
    (s.read o line name).log = if s.reports o name then [.undefined name line] else [] := by
  unfold Store.read Store.reports
  split <;> rfl

/-- An expression reports the names in it that the store would report. -/
theorem Expr.filter_isUndefined_evaluate (o : Options) (s : Store) (line : Int) {x : Expr}
    (hx : x.isWellFormed = true) :
    (x.evaluate o s line).log.filter Diagnostic.isUndefined =
      (x.names.filter (s.reports o)).map fun name => .undefined name line := by
  induction x with
  | lit n => rfl
  | var name =>
      show (s.read o line name).log.filter Diagnostic.isUndefined = _
      rw [Store.log_read]
      by_cases hname : s.reports o name = true
      · simp [names, hname, Diagnostic.isUndefined]
      · simp [names, hname]
  | bin op l r ihl ihr =>
      simp only [isWellFormed, Bool.and_eq_true] at hx
      obtain ⟨⟨-, hl⟩, hr⟩ := hx
      obtain ⟨a, ha⟩ := Expr.exists_ok_evaluate o s line hl
      obtain ⟨b, hb⟩ := Expr.exists_ok_evaluate o s line hr
      rw [evaluate, Evaluation.andThen_of_ok ha, Evaluation.andThen_of_ok hb]
      simp only [List.filter_append, ihl hl, ihr hr, Operator.filter_isUndefined_evaluate, names,
        List.map_append, List.append_nil]
  | paren x ih => exact ih hx
  | missing => cases hx

/-! ## Statements and programs -/

theorem Log.filter_isUndefined_diagnostics (log : List Diagnostic) :
    (log.map Event.diagnostic).filter Event.isUndefined =
      (log.filter Diagnostic.isUndefined).map .diagnostic :=
  List.filter_map

/-- A statement reports the names it reads that the store would report. -/
theorem Stmt.filter_isUndefined_execute (o : Options) (s : Store) {stmt : Stmt}
    (h : stmt.isWellFormed = true) :
    (stmt.execute o s).log.filter Event.isUndefined =
      ((stmt.reads.filter (s.reports o)).map fun name => .undefined name stmt.line).map
        .diagnostic := by
  cases stmt with
  | assign target x line =>
      obtain ⟨n, hn⟩ := Expr.exists_ok_evaluate o s line (x := x) h
      simp only [execute, hn, Log.filter_isUndefined_diagnostics,
        Expr.filter_isUndefined_evaluate o s line (x := x) h]
      rfl
  | print x line =>
      obtain ⟨n, hn⟩ := Expr.exists_ok_evaluate o s line (x := x) h
      simp only [execute, hn, List.filter_append, Log.filter_isUndefined_diagnostics,
        Expr.filter_isUndefined_evaluate o s line (x := x) h]
      exact List.append_nil _
  | blank line => rfl
  | missing => cases h

theorem Store.reports_set (o : Options) (s : Store) (target : Bytes) (n : Int64) (name : Bytes) :
    (s.set target n).reports o name = (s.reports o name && !(target == name)) := by
  have hbound : (s.set target n).table.isBound name = (s.table.isBound name || target == name) := by
    show ((s.table.set target n).get? name).isSome = ((s.table.get? name).isSome || _)
    rw [Table.get?_set]
    by_cases hname : name = target
    · simp [hname]
    · simp [hname, Ne.symm hname]
  unfold Store.reports Store.isKnownUnbound
  rw [hbound, Bool.not_or, Bool.and_assoc, Bool.and_assoc]
  rfl

/-- Behind a statement the store would report the same names as before, but for
the one that the statement assigns. -/
theorem Stmt.reported_execute (o : Options) (s : Store) {stmt : Stmt}
    (h : stmt.isWellFormed = true) :
    (stmt.execute o s).store.reports o = fun name => s.reports o name && !stmt.assigns name := by
  funext name
  cases stmt with
  | assign target x line =>
      obtain ⟨n, hn⟩ := Expr.exists_ok_evaluate o s line (x := x) h
      simp only [execute, hn]
      exact s.reports_set o target n name
  | print x line =>
      obtain ⟨n, hn⟩ := Expr.exists_ok_evaluate o s line (x := x) h
      simp only [execute, hn]
      exact (Bool.and_true _).symm
  | blank line => exact (Bool.and_true _).symm
  | missing => cases h

/-- **The reports of a run** are the unassigned reads of the program, if reading is
strict and the store can tell, and none otherwise. -/
theorem Program.filter_isUndefined_execute (o : Options) (s : Store) {p : Program}
    (hp : ∀ stmt ∈ p, stmt.isWellFormed = true) :
    (p.execute o s).log.filter Event.isUndefined =
      (p.unassignedReads (s.reports o)).map .diagnostic := by
  induction p generalizing s with
  | nil => rfl
  | cons stmt rest ih =>
      have hstmt : stmt.isWellFormed = true := hp stmt List.mem_cons_self
      have hrest := ih (stmt.execute o s).store fun t ht => hp t (List.mem_cons_of_mem _ ht)
      rw [execute_cons_of_none rest (Stmt.fault?_execute o s hstmt), List.filter_append,
        Stmt.filter_isUndefined_execute o s hstmt, hrest, Stmt.reported_execute o s hstmt,
        unassignedReads_cons, List.map_append]

/--
**The reports of a strict run are the reads before assignment.** A program whose
trees are in order is run strictly, with overflow checked or not, from a store
that can tell which variables have a value. It runs to its end, and its reports of
unassigned variables are, statement by statement and from left to right, the reads
of names that had no value at the start and that no earlier statement assigns,
each with the line of its statement. So they are the same from every such store
with values for the same names, however it is calculated with them.
-/
theorem execute_reports_unassigned_reads (p : Program)
    (hp : ∀ stmt ∈ p, stmt.isWellFormed = true) (s : Store) (hs : s.tellsUnbound = true)
    (checked : Bool) :
    let run := p.execute ⟨true, checked⟩ s
    run.fault? = none ∧
      run.log.filter Event.isUndefined =
        (p.unassignedReads fun name => !s.table.isBound name).map .diagnostic ∧
      ∀ (s' : Store) (checked' : Bool), s'.tellsUnbound = true →
        (∀ name, s'.table.isBound name = s.table.isBound name) →
          (p.execute ⟨true, checked'⟩ s').log.filter Event.isUndefined =
            run.log.filter Event.isUndefined := by
  intro run
  have hreports (s : Store) (hs : s.tellsUnbound = true) (checked : Bool) :
      s.reports ⟨true, checked⟩ = fun name => !s.table.isBound name := by
    funext name
    rw [Store.reports, Store.isKnownUnbound, hs]
    rfl
  have hrun (s : Store) (hs : s.tellsUnbound = true) (checked : Bool) :
      (p.execute ⟨true, checked⟩ s).log.filter Event.isUndefined =
        (p.unassignedReads fun name => !s.table.isBound name).map .diagnostic := by
    rw [Program.filter_isUndefined_execute ⟨true, checked⟩ s hp, hreports s hs checked]
  refine ⟨Program.fault?_execute _ s hp, hrun s hs checked, ?_⟩
  intro s' checked' hs' hbound
  rw [hrun s hs checked, hrun s' hs' checked']
  simp only [hbound]

/-- The lines `x = x + 1`, `y = z / 0` and `y + z + x + z`: the first reads what it
is about to assign, the second assigns although it reports twice. -/
theorem execute_reports_unassigned_reads_self :
    let p : Program :=
      [.assign (utf8 "x") (.bin .add (.var (utf8 "x")) (.lit 1)) 1,
        .assign (utf8 "y") (.bin .div (.var (utf8 "z")) (.lit 0)) 2,
        .print (.bin .add (.bin .add (.bin .add (.var (utf8 "y")) (.var (utf8 "z")))
          (.var (utf8 "x"))) (.var (utf8 "z"))) 3]
    (∀ stmt ∈ p, stmt.isWellFormed = true) ∧ Store.empty.tellsUnbound = true ∧
      (p.execute ⟨true, true⟩ .empty).log.filter Event.isUndefined =
        [.diagnostic (.undefined (utf8 "x") 1), .diagnostic (.undefined (utf8 "z") 2),
          .diagnostic (.undefined (utf8 "z") 3), .diagnostic (.undefined (utf8 "z") 3)] := by
  intro p
  have hp : ∀ stmt ∈ p, stmt.isWellFormed = true := by decide
  refine ⟨hp, rfl, ?_⟩
  rw [(execute_reports_unassigned_reads p hp .empty rfl true).2.1]
  decide

end LineCalculator
