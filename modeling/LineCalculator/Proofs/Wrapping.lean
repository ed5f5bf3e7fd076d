import LineCalculator.Proofs.Exactness

/-!
# Checked runs against wrapping runs

The same program is run twice from the same store, once with overflow checked
and once with wrap-around. As long as no operation overflows, both runs do the
same. At the first overflow they part: the checked run reports it and goes on
with zero, the other one says nothing and goes on with the wrapped value. What
follows may differ in everything, since the two now read different values.

So a checked run **accompanies** the wrapping one in one of two ways. Either
the two are the same and no overflow has been reported. Or they have parted,
and then three things are known and never taken back: the checked log reports
an overflow, what it says before the first such report is where the other log
starts, and the other log reports none. An overflow may happen deep inside an
expression whose left part has given diagnostics already; these come before the
report, so they belong to the part that the logs share.

## Main results

* `Expr.evaluate_accompanies` — evaluating an expression both ways.
* `Stmt.execute_accompanies` — one statement.
* `Program.execute_accompanies` — a whole program.
* `execute_untilOverflow_prefix` — the logs agree up to the first overflow, and
  the runs agree altogether if there is none.
-/

namespace LineCalculator

/-! ## Logs up to the first overflow -/

/-- Does the event report an overflow? -/
def Event.isOverflow : Event → Bool
  | .diagnostic (.overflow _ _ _) => true
  | _ => false

namespace Log

theorem overflows_iff (log : Log) : log.Overflows ↔ ∃ e ∈ log, e.isOverflow = true := by
  constructor
  · rintro ⟨l, op, r, hmem⟩
    exact ⟨_, hmem, rfl⟩
  · rintro ⟨e, hmem, he⟩
    unfold Event.isOverflow at he
    split at he
    · next l op r => exact ⟨l, op, r, hmem⟩
    · cases he

/-- What a log says before it reports an overflow for the first time. -/
def untilOverflow (log : Log) : Log := log.takeWhile fun e => !e.isOverflow

theorem untilOverflow_append_of_quiet {s : Log} (hquiet : ¬ s.Overflows) (t : Log) :
    untilOverflow (s ++ t) = s ++ untilOverflow t := by
  apply List.takeWhile_append_of_pos
  intro e he
  rw [overflows_iff] at hquiet
  have hno : ¬ e.isOverflow = true := fun h => hquiet ⟨e, he, h⟩
  simpa using hno

theorem untilOverflow_append_of_loud {s : Log} (hloud : s.Overflows) (t : Log) :
    untilOverflow (s ++ t) = untilOverflow s := by
  obtain ⟨e, hmem, he⟩ := (overflows_iff s).mp hloud
  obtain ⟨before, after, rfl⟩ := List.append_of_mem hmem
  have hstop : ∀ rest : Log, untilOverflow (before ++ e :: rest) = untilOverflow before := by
    intro rest
    unfold untilOverflow
    rw [List.takeWhile_append]
    split
    · next hlen =>
      rw [List.takeWhile_cons_of_neg (by simp [he]), List.append_nil]
      exact ((List.takeWhile_prefix _).eq_of_length hlen).symm
    · rfl
  rw [List.append_assoc, List.cons_append, hstop, hstop]

/-- A quiet beginning that both logs have belongs to what they share. -/
theorem untilOverflow_prefix_of_quiet {s c w : Log} (hquiet : ¬ s.Overflows)
    (h : untilOverflow c <+: w) : untilOverflow (s ++ c) <+: s ++ w := by
  rw [untilOverflow_append_of_quiet hquiet]
  exact (List.prefix_append_right_inj s).mpr h

/-- Behind an overflow, what the logs share does not change any more. -/
theorem untilOverflow_prefix_of_loud {c w : Log} (hloud : c.Overflows)
    (h : untilOverflow c <+: w) (c' w' : Log) : untilOverflow (c ++ c') <+: w ++ w' := by
  rw [untilOverflow_append_of_loud hloud]
  exact h.trans (List.prefix_append w w')

end Log

/-! ## Expressions -/

/-- How a checked evaluation and the wrapping one stand to each other. -/
inductive Evaluation.Accompanies (c w : Evaluation) : Prop where
  /-- They are the same. -/
  | agreed (n : Int64) (hresult : c.result = .ok n) (hsame : w = c)
      (hquiet : ¬ Log.Overflows (c.log.map .diagnostic))
  /-- They have parted at an overflow. -/
  | parted (n m : Int64) (hresult : c.result = .ok n) (hresult' : w.result = .ok m)
      (hloud : Log.Overflows (c.log.map .diagnostic))
      (hshared : Log.untilOverflow (c.log.map .diagnostic) <+: w.log.map .diagnostic)
      (hquiet : ¬ Log.Overflows (w.log.map .diagnostic))

namespace Evaluation

theorem Accompanies.exists_ok {c w : Evaluation} (h : c.Accompanies w) :
    ∃ n, c.result = .ok n := by
  cases h with
  | agreed n hresult => exact ⟨n, hresult⟩
  | parted n _ hresult => exact ⟨n, hresult⟩

theorem Accompanies.exists_ok_quiet {c w : Evaluation} (h : c.Accompanies w) :
    ∃ m, w.result = .ok m ∧ ¬ Log.Overflows (w.log.map .diagnostic) := by
  cases h with
  | agreed n hresult hsame hquiet =>
      subst hsame
      exact ⟨n, hresult, hquiet⟩
  | parted _ m _ hresult' _ _ hquiet => exact ⟨m, hresult', hquiet⟩

theorem accompanies_ofValue (n : Int64) : (ofValue n).Accompanies (ofValue n) :=
  .agreed n rfl rfl Log.not_overflows_nil

/-- Going on with the value keeps the two together, or apart, if what comes next
does so for every value. -/
theorem Accompanies.andThen {c w : Evaluation} {f g : Int64 → Evaluation}
    (h : c.Accompanies w) (hnext : ∀ n, (f n).Accompanies (g n)) :
    (c.andThen f).Accompanies (w.andThen g) := by
  cases h with
  | agreed n hresult hsame hquiet =>
      subst hsame
      rw [andThen_of_ok hresult, andThen_of_ok hresult]
      cases hnext n with
      | agreed n' hresult' hsame' hquiet' =>
          rw [hsame']
          refine .agreed n' hresult' rfl ?_
          rw [List.map_append, Log.overflows_append]
          exact not_or.mpr ⟨hquiet, hquiet'⟩
      | parted n' m' hresult' hresult'' hloud hshared hquiet' =>
          refine .parted n' m' hresult' hresult'' ?_ ?_ ?_
          · rw [List.map_append, Log.overflows_append]
            exact .inr hloud
          · rw [List.map_append, List.map_append]
            exact Log.untilOverflow_prefix_of_quiet hquiet hshared
          · rw [List.map_append, Log.overflows_append]
            exact not_or.mpr ⟨hquiet, hquiet'⟩
  | parted n m hresult hresult' hloud hshared hquiet =>
      -- The values differ from here on, so each side goes on by itself.
      obtain ⟨n', hn'⟩ := (hnext n).exists_ok
      obtain ⟨m', hm', hquiet'⟩ := (hnext m).exists_ok_quiet
      rw [andThen_of_ok hresult, andThen_of_ok hresult']
      refine .parted n' m' hn' hm' ?_ ?_ ?_
      · rw [List.map_append, Log.overflows_append]
        exact .inl hloud
      · rw [List.map_append, List.map_append]
        exact Log.untilOverflow_prefix_of_loud hloud hshared _ _
      · rw [List.map_append, Log.overflows_append]
        exact not_or.mpr ⟨hquiet, hquiet'⟩

end Evaluation

theorem Operator.evaluate_accompanies (strict : Bool) {op : Operator} (hop : op.isKnown = true)
    (l r : Int64) :
    (op.evaluate ⟨strict, true⟩ l r).Accompanies (op.evaluate ⟨strict, false⟩ l r) := by
  unfold Operator.evaluate
  by_cases hdiv : op = .div ∧ r = 0
  · rw [if_pos hdiv, if_pos hdiv]
    exact .agreed 0 rfl rfl (by simp [Log.Overflows])
  · rw [if_neg hdiv, if_neg hdiv]
    obtain ⟨c, hc, -⟩ := compute_eq_some l hop hdiv
    rw [hc]
    cases hwrapped : c.wrapped with
    | false =>
        simp only [hwrapped, Bool.false_and, Bool.false_eq_true, if_false]
        exact Evaluation.accompanies_ofValue c.value
    | true =>
        simp only [hwrapped, Bool.and_self, Bool.and_false, Bool.false_eq_true, if_false, if_true]
        have hloud : Log.Overflows [.diagnostic (.overflow l op r)] :=
          ⟨l, op, r, List.mem_singleton.mpr rfl⟩
        exact .parted 0 c.value rfl rfl hloud (List.prefix_refl _) Log.not_overflows_nil

/-- Reading a variable has nothing to do with overflow. -/
theorem Store.read_accompanies (strict : Bool) (s : Store) (line : Int) (name : Bytes) :
    (s.read ⟨strict, true⟩ line name).Accompanies (s.read ⟨strict, false⟩ line name) := by
  have hsame : s.read ⟨strict, false⟩ line name = s.read ⟨strict, true⟩ line name := rfl
  rw [hsame]
  unfold Store.read
  split
  · exact .agreed _ rfl rfl (by simp [Log.Overflows])
  · exact Evaluation.accompanies_ofValue _

/-- **Evaluating an expression both ways.** -/
theorem Expr.evaluate_accompanies (strict : Bool) (s : Store) (line : Int) {x : Expr}
    (hx : x.isWellFormed = true) :
    (x.evaluate ⟨strict, true⟩ s line).Accompanies (x.evaluate ⟨strict, false⟩ s line) := by
  induction x with
  | lit n => exact Evaluation.accompanies_ofValue n
  | var name => exact s.read_accompanies strict line name
  | bin op l r ihl ihr =>
      simp only [isWellFormed, Bool.and_eq_true] at hx
      obtain ⟨⟨hop, hl⟩, hr⟩ := hx
      apply (ihl hl).andThen
      intro a
      apply (ihr hr).andThen
      intro b
      exact Operator.evaluate_accompanies strict hop a b
  | paren x ih => exact ih hx
  | missing => cases hx

/-! ## Statements and programs -/

/-- How a checked run and the wrapping one stand to each other. -/
inductive Execution.Accompanies (c w : Execution) : Prop where
  /-- They are the same. -/
  | agreed (hfault : c.fault? = none) (hsame : w = c) (hquiet : ¬ c.log.Overflows)
  /-- They have parted at an overflow. -/
  | parted (hfault : c.fault? = none) (hfault' : w.fault? = none) (hloud : c.log.Overflows)
      (hshared : c.log.untilOverflow <+: w.log) (hquiet : ¬ w.log.Overflows)

namespace Execution

theorem Accompanies.fault?_eq_none {c w : Execution} (h : c.Accompanies w) :
    c.fault? = none := by
  cases h with
  | agreed hfault => exact hfault
  | parted hfault => exact hfault

theorem Accompanies.fault?_eq_none_quiet {c w : Execution} (h : c.Accompanies w) :
    w.fault? = none ∧ ¬ w.log.Overflows := by
  cases h with
  | agreed hfault hsame hquiet =>
      subst hsame
      exact ⟨hfault, hquiet⟩
  | parted _ hfault' _ _ hquiet => exact ⟨hfault', hquiet⟩

theorem accompanies_nothing (s : Store) : (mk [] none s).Accompanies ⟨[], none, s⟩ :=
  .agreed rfl rfl Log.not_overflows_nil

end Execution

/-- **One statement both ways.** -/
theorem Stmt.execute_accompanies (strict : Bool) (s : Store) {stmt : Stmt}
    (hstmt : stmt.isWellFormed = true) :
    (stmt.execute ⟨strict, true⟩ s).Accompanies (stmt.execute ⟨strict, false⟩ s) := by
  cases stmt with
  | assign name x line =>
      unfold Stmt.execute
      cases Expr.evaluate_accompanies strict s line (x := x) hstmt with
      | agreed n hresult hsame hquiet =>
          simp only [hsame, hresult]
          exact .agreed rfl rfl hquiet
      | parted n m hresult hresult' hloud hshared hquiet =>
          simp only [hresult, hresult']
          exact .parted rfl rfl hloud hshared hquiet
  | print x line =>
      unfold Stmt.execute
      cases Expr.evaluate_accompanies strict s line (x := x) hstmt with
      | agreed n hresult hsame hquiet =>
          simp only [hsame, hresult]
          refine .agreed rfl rfl ?_
          rw [Log.overflows_append]
          exact not_or.mpr ⟨hquiet, Log.not_overflows_result n⟩
      | parted n m hresult hresult' hloud hshared hquiet =>
          simp only [hresult, hresult']
          refine .parted rfl rfl ?_ ?_ ?_
          · exact (Log.overflows_append _ _).mpr (.inl hloud)
          · exact Log.untilOverflow_prefix_of_loud hloud hshared _ _
          · rw [Log.overflows_append]
            exact not_or.mpr ⟨hquiet, Log.not_overflows_result m⟩
  | blank line => exact Execution.accompanies_nothing s
  | missing => cases hstmt

namespace Program

/-- **A whole program both ways.** -/
theorem execute_accompanies (strict : Bool) (s : Store) {p : Program}
    (hp : ∀ stmt ∈ p, stmt.isWellFormed = true) :
    (execute ⟨strict, true⟩ s p).Accompanies (execute ⟨strict, false⟩ s p) := by
  induction p generalizing s with
  | nil => exact Execution.accompanies_nothing s
  | cons stmt rest ih =>
      have hfirst := Stmt.execute_accompanies strict s (hp stmt List.mem_cons_self)
      have hothers := fun s' => ih s' fun t ht => hp t (List.mem_cons_of_mem _ ht)
      obtain ⟨hfault', -⟩ := hfirst.fault?_eq_none_quiet
      rw [execute_cons_of_none rest hfirst.fault?_eq_none, execute_cons_of_none rest hfault']
      cases hfirst with
      | agreed hfault hsame hquiet =>
          rw [hsame]
          cases hothers (stmt.execute ⟨strict, true⟩ s).store with
          | agreed hfault hsame' hquiet' =>
              rw [hsame']
              refine .agreed hfault rfl ?_
              rw [Log.overflows_append]
              exact not_or.mpr ⟨hquiet, hquiet'⟩
          | parted hfault hfault' hloud hshared hquiet' =>
              refine .parted hfault hfault' ?_ ?_ ?_
              · exact (Log.overflows_append _ _).mpr (.inr hloud)
              · exact Log.untilOverflow_prefix_of_quiet hquiet hshared
              · rw [Log.overflows_append]
                exact not_or.mpr ⟨hquiet, hquiet'⟩
      | parted hfault hfault' hloud hshared hquiet =>
          -- The stores differ from here on, so each side runs the rest by itself.
          have hchecked := hothers (stmt.execute ⟨strict, true⟩ s).store
          have hwrapping := hothers (stmt.execute ⟨strict, false⟩ s).store
          obtain ⟨hfault'', hquiet'⟩ := hwrapping.fault?_eq_none_quiet
          refine .parted hchecked.fault?_eq_none hfault'' ?_ ?_ ?_
          · exact (Log.overflows_append _ _).mpr (.inl hloud)
          · exact Log.untilOverflow_prefix_of_loud hloud hshared _ _
          · rw [Log.overflows_append]
            exact not_or.mpr ⟨hquiet, hquiet'⟩

end Program

/-- **Checked and wrapping runs agree until the first overflow report.** Both
runs of a program whose trees are in order come to its end. What the checked
run says before it first reports an overflow is how the wrapping run starts; if
it reports none, the two runs have the same log and leave the same store; and
the wrapping run never reports one. -/
theorem execute_untilOverflow_prefix (p : Program) (hp : ∀ stmt ∈ p, stmt.isWellFormed = true)
    (s : Store) (strict : Bool) :
    let checked := p.execute ⟨strict, true⟩ s
    let wrapping := p.execute ⟨strict, false⟩ s
    checked.fault? = none ∧ wrapping.fault? = none ∧
      (checked.log.takeWhile fun e => !e.isOverflow) <+: wrapping.log ∧
      (¬ checked.log.Overflows →
        checked.log = wrapping.log ∧ checked.store = wrapping.store) ∧
      ¬ wrapping.log.Overflows := by
  intro checked wrapping
  have haccompanies : checked.Accompanies wrapping := Program.execute_accompanies strict s hp
  obtain ⟨hfault', hquiet'⟩ := haccompanies.fault?_eq_none_quiet
  refine ⟨haccompanies.fault?_eq_none, hfault', ?_, ?_, hquiet'⟩
  · cases haccompanies with
    | agreed hfault hsame hquiet =>
        rw [hsame]
        exact List.takeWhile_prefix _
    | parted hfault hfault' hloud hshared hquiet => exact hshared
  · intro hquiet
    cases haccompanies with
    | agreed hfault hsame _ => exact ⟨congrArg _ hsame.symm, congrArg _ hsame.symm⟩
    | parted _ _ hloud => exact absurd hloud hquiet

/-- The lines `1 / 0` and `9223372036854775807 + 1`, which part at the second. -/
theorem execute_untilOverflow_prefix_successor :
    let p : Program := [.print (.bin .div (.lit 1) (.lit 0)) 1,
      .print (.bin .add (.lit Int64.maxValue) (.lit 1)) 2]
    (p.execute ⟨false, true⟩ .empty).log.Overflows ∧
      [.diagnostic .divisionByZero, .result 0] <+: (p.execute ⟨false, false⟩ .empty).log ∧
      ¬ (p.execute ⟨false, false⟩ .empty).log.Overflows := by
  intro p
  have h := execute_untilOverflow_prefix p (by decide) .empty false
  exact ⟨⟨Int64.maxValue, .add, 1, by decide⟩, h.2.2.1, h.2.2.2.2⟩

end LineCalculator
