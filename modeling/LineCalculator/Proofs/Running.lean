import LineCalculator.Proofs.Exactness
import LineCalculator.Proofs.Faults
import LineCalculator.Proofs.RoundTrip

/-!
# Programs in order run to their end

A fault stops a run. Trees in which nothing is missing and every operator means
something have none (see `LineCalculator.Proofs.Faults`), and every statement that
was read from a line is such a tree. So programs that were read run to their end,
and one program behind another runs as the two would, each starting with the
variables that the one before it left.

## Main results

* `Program.fault?_execute` — a program in order has no fault.
* `Program.execute_append` — a program behind another one.
* `Parsed.isWellFormed_of_mem_program` — what was read is in order.
-/

namespace LineCalculator

theorem Expr.exists_ok_evaluate (o : Options) (s : Store) (line : Int) {x : Expr}
    (hx : x.isWellFormed = true) : ∃ n, (x.evaluate o s line).result = .ok n := by
  rw [x.result_evaluate, x.defect?_eq_none_iff.mpr hx]
  exact ⟨_, rfl⟩

theorem Stmt.fault?_execute (o : Options) (s : Store) {stmt : Stmt}
    (h : stmt.isWellFormed = true) : (stmt.execute o s).fault? = none := by
  rw [stmt.fault?_execute_eq, stmt.defect?_eq_none_iff.mpr h]

namespace Program

/-- A program in order has no fault. -/
theorem fault?_execute (o : Options) (s : Store) {p : Program}
    (hp : ∀ stmt ∈ p, stmt.isWellFormed = true) : (execute o s p).fault? = none := by
  induction p generalizing s with
  | nil => rfl
  | cons stmt rest ih =>
      have hfirst := Stmt.fault?_execute o s (hp stmt List.mem_cons_self)
      rw [execute_cons_of_none rest hfirst]
      exact ih _ fun t ht => hp t (List.mem_cons_of_mem _ ht)

/-- A program behind another one starts with the variables that the first one leaves. -/
theorem execute_append {o : Options} {s : Store} {p : Program} (q : Program)
    (h : (execute o s p).fault? = none) :
    execute o s (p ++ q) =
      ⟨(execute o s p).log ++ (execute o (execute o s p).store q).log,
        (execute o (execute o s p).store q).fault?,
        (execute o (execute o s p).store q).store⟩ := by
  induction p generalizing s with
  | nil => rfl
  | cons stmt p ih =>
      cases hfirst : (stmt.execute o s).fault? with
      | some fault =>
          rw [execute, hfirst] at h
          cases h
      | none =>
          rw [execute_cons_of_none p hfirst] at h ⊢
          rw [List.cons_append, execute_cons_of_none (p ++ q) hfirst, ih h, List.append_assoc]

/-- A blank statement makes no difference. -/
theorem execute_blank_cons (o : Options) (s : Store) (line : Int) (rest : Program) :
    execute o s (.blank line :: rest) = execute o s rest := rfl

end Program

/-! ## Programs that were read -/

theorem Expr.Spellable.isWellFormed {x : Expr} (h : x.Spellable) : x.isWellFormed = true := by
  induction h with
  | lit n => rfl
  | var _ => rfl
  | bin hop _ _ ihl ihr => rw [Expr.isWellFormed, hop, ihl, ihr]; rfl
  | paren _ ih => exact ih

theorem Stmt.Spellable.isWellFormed {s : Stmt} (h : s.Spellable) : s.isWellFormed = true := by
  cases h with
  | assign _ hx => exact hx.isWellFormed
  | print hx => exact hx.isWellFormed
  | blank _ => rfl

/-- Every statement that was read is in order. -/
theorem Parsed.isWellFormed_of_mem_program {number : Nat} {ls : List Bytes} {s : Stmt}
    (h : s ∈ (ofLines number ls).program) : s.isWellFormed = true :=
  (readsBack_of_mem_program h).spellable.isWellFormed

end LineCalculator
