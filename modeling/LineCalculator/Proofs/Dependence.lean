import LineCalculator.Proofs.UnassignedReads

/-!
# What a run depends on

A program **needs** a name if some statement reads it and no statement before
that one assigns it. Only the needed names can matter: every other name that is
read has been assigned on the way, from values that go back to needed names and
to literals. So two stores in which the needed names stand alike, with the same
value or with none, lead to the same events.

The proof runs the program from both stores at once. Evaluating an expression
gives the same from stores that agree on its names (`Expr.evaluate_congr`). A
statement gives the same events, assigns the same value if it assigns, and
leaves every other name alone, so from one statement to the next the stores come
to agree on one name more and part on none (`Stmt.agreeAt_execute`). What is
left of the program needs no name beyond those that the whole needs and those
just assigned (`Program.needs_cons`), which is what the next statement asks for.

## Main results

* `Program.agreeAt_execute` — two runs side by side.
* `Program.get?_execute_of_not_any` — what a program does not assign, it keeps.
* `execute_depends_on_needed_names` — the events and the assigned names depend on
  the needed names alone.
-/

namespace LineCalculator

/-! ## Needed names -/

namespace Program

/-- Some statement reads the name, and none before it assigns it. -/
def Needs (p : Program) (name : Bytes) : Prop :=
  ∃ before stmt after, p = before ++ stmt :: after ∧ name ∈ stmt.reads ∧
    before.any (Stmt.assigns name) = false

theorem not_needs_nil (name : Bytes) : ¬ Needs [] name := by
  rintro ⟨before, stmt, after, h, -⟩
  exact absurd h.symm (by simp)

/-- A program needs what its first statement reads, and what the rest needs and the
first statement does not assign. -/
theorem needs_cons (stmt : Stmt) (rest : Program) (name : Bytes) :
    Needs (stmt :: rest) name ↔
      name ∈ stmt.reads ∨ stmt.assigns name = false ∧ Needs rest name := by
  constructor
  · rintro ⟨before, reader, after, hsplit, hread, hbefore⟩
    cases before with
    | nil =>
        cases hsplit
        exact .inl hread
    | cons first before =>
        cases hsplit
        rw [List.any_cons, Bool.or_eq_false_iff] at hbefore
        exact .inr ⟨hbefore.1, before, reader, after, rfl, hread, hbefore.2⟩
  · rintro (hread | ⟨hassigns, before, reader, after, rfl, hread, hbefore⟩)
    · exact ⟨[], stmt, rest, rfl, hread, rfl⟩
    · refine ⟨stmt :: before, reader, after, rfl, hread, ?_⟩
      rw [List.any_cons, hassigns, hbefore]
      rfl

end Program

/-! ## Stores that agree -/

/-- The name has the same value in both stores, or none in both. -/
def Store.AgreeAt (s s' : Store) (name : Bytes) : Prop := s.table.get? name = s'.table.get? name

section

variable {s s' : Store}

theorem Store.agreeAt_set (target : Bytes) (n : Int64) {name : Bytes}
    (h : s.AgreeAt s' name ∨ target = name) : (s.set target n).AgreeAt (s'.set target n) name := by
  show (s.table.set target n).get? name = (s'.table.set target n).get? name
  rw [Table.get?_set, Table.get?_set]
  by_cases hname : name = target
  · rw [if_pos hname, if_pos hname]
  · rw [if_neg hname, if_neg hname]
    exact h.resolve_right (Ne.symm hname)

variable (htells : s.tellsUnbound = s'.tellsUnbound)
include htells

theorem Store.read_congr (o : Options) (line : Int) {name : Bytes} (h : s.AgreeAt s' name) :
    s.read o line name = s'.read o line name := by
  have hvalue : s.value name = s'.value name := congrArg (·.getD 0) h
  have hbound : s.table.isBound name = s'.table.isBound name := congrArg Option.isSome h
  unfold Store.read Store.isKnownUnbound
  rw [hvalue, hbound, htells]

/-- An expression depends on the names in it alone. -/
theorem Expr.evaluate_congr (o : Options) (line : Int) {x : Expr}
    (h : ∀ name ∈ x.names, s.AgreeAt s' name) : x.evaluate o s line = x.evaluate o s' line := by
  induction x with
  | lit n => rfl
  | var name => exact Store.read_congr htells o line (h name List.mem_cons_self)
  | bin op l r ihl ihr =>
      have hl := ihl fun name hname => h name (List.mem_append_left _ hname)
      have hr := ihr fun name hname => h name (List.mem_append_right _ hname)
      rw [evaluate, evaluate, hl, hr]
  | paren x ih => exact ih h
  | missing => rfl

/-- **One statement from both stores**: the events are the same, and behind it the
stores agree on all names on which they agreed, and on the assigned one. -/
theorem Stmt.agreeAt_execute (o : Options) {stmt : Stmt} (hstmt : stmt.isWellFormed = true)
    (h : ∀ name ∈ stmt.reads, s.AgreeAt s' name) :
    (stmt.execute o s).log = (stmt.execute o s').log ∧
      ∀ name, s.AgreeAt s' name ∨ stmt.assigns name = true →
        (stmt.execute o s).store.AgreeAt (stmt.execute o s').store name := by
  cases stmt with
  | assign target x line =>
      have hsame := Expr.evaluate_congr htells o line h
      obtain ⟨n, hn⟩ := Expr.exists_ok_evaluate o s' line (x := x) hstmt
      simp only [execute, hsame, hn, true_and]
      exact fun name hname => Store.agreeAt_set target n (hname.imp_right eq_of_beq)
  | print x line =>
      have hsame := Expr.evaluate_congr htells o line h
      obtain ⟨n, hn⟩ := Expr.exists_ok_evaluate o s' line (x := x) hstmt
      simp only [execute, hsame, hn, true_and]
      exact fun name hname => hname.resolve_right Bool.false_ne_true
  | blank line => exact ⟨rfl, fun name hname => hname.resolve_right Bool.false_ne_true⟩
  | missing => cases hstmt

/-- **A program from both stores.** If they agree on the names that the program
needs, the events are the same, and at the end they agree on all names on which they
agreed at the start and on all assigned ones. -/
theorem Program.agreeAt_execute (o : Options) {p : Program}
    (hp : ∀ stmt ∈ p, stmt.isWellFormed = true) (h : ∀ name, p.Needs name → s.AgreeAt s' name) :
    (p.execute o s).log = (p.execute o s').log ∧
      ∀ name, s.AgreeAt s' name ∨ p.any (Stmt.assigns name) = true →
        (p.execute o s).store.AgreeAt (p.execute o s').store name := by
  induction p generalizing s s' with
  | nil => exact ⟨rfl, fun name hname => hname.resolve_right Bool.false_ne_true⟩
  | cons stmt rest ih =>
      have hstmt : stmt.isWellFormed = true := hp stmt List.mem_cons_self
      obtain ⟨hlog, hstep⟩ := Stmt.agreeAt_execute htells o hstmt fun name hname =>
        h name ((needs_cons stmt rest name).mpr (.inl hname))
      have htells' : (stmt.execute o s).store.tellsUnbound =
          (stmt.execute o s').store.tellsUnbound := by
        rw [Stmt.tellsUnbound_execute, Stmt.tellsUnbound_execute, htells]
      -- What the rest needs was needed before, or has just been assigned.
      have hneeded : ∀ name, Needs rest name →
          (stmt.execute o s).store.AgreeAt (stmt.execute o s').store name := by
        intro name hname
        cases hassigns : stmt.assigns name with
        | true => exact hstep name (.inr hassigns)
        | false => exact hstep name (.inl (h name ((needs_cons ..).mpr (.inr ⟨hassigns, hname⟩))))
      obtain ⟨hlog', hrest⟩ := ih htells' (fun t ht => hp t (List.mem_cons_of_mem _ ht)) hneeded
      rw [execute_cons_of_none rest (Stmt.fault?_execute o s hstmt),
        execute_cons_of_none rest (Stmt.fault?_execute o s' hstmt), hlog, hlog']
      refine ⟨rfl, fun name hname => hrest name ?_⟩
      rw [List.any_cons, Bool.or_eq_true] at hname
      obtain hagree | hfirst | hlater := hname
      · exact .inl (hstep name (.inl hagree))
      · exact .inl (hstep name (.inr hfirst))
      · exact .inr hlater

end

/-! ## Names that are kept -/

theorem Stmt.get?_execute_of_not_assigns (o : Options) (s : Store) {stmt : Stmt} {name : Bytes}
    (h : stmt.assigns name = false) :
    (stmt.execute o s).store.table.get? name = s.table.get? name := by
  cases stmt with
  | assign target x line =>
      rw [execute]
      cases (x.evaluate o s line).result with
      | ok n => exact (Table.get?_set ..).trans (if_neg (Ne.symm (ne_of_beq_false h)))
      | error fault => rfl
  | print x line =>
      rw [execute]
      cases (x.evaluate o s line).result <;> rfl
  | blank line => rfl
  | missing => rfl

/-- What a program does not assign, it keeps as it was. -/
theorem Program.get?_execute_of_not_any (o : Options) (s : Store) {p : Program} {name : Bytes}
    (h : p.any (Stmt.assigns name) = false) :
    (p.execute o s).store.table.get? name = s.table.get? name := by
  induction p generalizing s with
  | nil => rfl
  | cons stmt rest ih =>
      rw [List.any_cons, Bool.or_eq_false_iff] at h
      have hfirst := Stmt.get?_execute_of_not_assigns o s h.1
      rw [execute]
      cases (stmt.execute o s).fault? with
      | some fault => exact hfirst
      | none => exact (ih _ h.2).trans hfirst

/-! ## Two runs of one program -/

/--
**A run depends on the needed names alone.** A program whose trees are in order is
run twice under the same options, from stores of the same kind with different
tables. If every name that the program reads before it assigns it has the same
value in both tables, or none in both, then both runs come to the end, they give
the same events, and afterwards the tables agree on these names and on all names
that the program assigns. Each run keeps every name that the program does not
assign as it was.
-/
theorem execute_depends_on_needed_names (p : Program)
    (hp : ∀ stmt ∈ p, stmt.isWellFormed = true) (o : Options) (tells : Bool) (t t' : Table)
    (hagree : ∀ name, p.Needs name → t.get? name = t'.get? name) :
    let run := p.execute o ⟨t, tells⟩
    let run' := p.execute o ⟨t', tells⟩
    run.fault? = none ∧ run'.fault? = none ∧ run.log = run'.log ∧
      (∀ name, p.Needs name ∨ p.any (Stmt.assigns name) = true →
        run.store.table.get? name = run'.store.table.get? name) ∧
      ∀ name, p.any (Stmt.assigns name) = false →
        run.store.table.get? name = t.get? name ∧ run'.store.table.get? name = t'.get? name := by
  intro run run'
  have hstores : (Store.mk t tells).tellsUnbound = (Store.mk t' tells).tellsUnbound := rfl
  obtain ⟨hlog, hfinal⟩ := Program.agreeAt_execute hstores o hp hagree
  refine ⟨Program.fault?_execute o _ hp, Program.fault?_execute o _ hp, hlog, ?_, ?_⟩
  · exact fun name hname => hfinal name (hname.imp_left (hagree name))
  · exact fun name hname => ⟨Program.get?_execute_of_not_any o ⟨t, tells⟩ hname,
      Program.get?_execute_of_not_any o ⟨t', tells⟩ hname⟩

/-- The lines `x = x + y`, `z = x * 2` and `z + w / 0` need `x`, `y` and `w`. The
tables differ in `z`, which is assigned before it is read, and in `v`. -/
theorem execute_depends_on_needed_names_overwritten :
    let p : Program :=
      [.assign (utf8 "x") (.bin .add (.var (utf8 "x")) (.var (utf8 "y"))) 1,
        .assign (utf8 "z") (.bin .mul (.var (utf8 "x")) (.lit 2)) 2,
        .print (.bin .add (.var (utf8 "z")) (.bin .div (.var (utf8 "w")) (.lit 0))) 3]
    let t := Table.ofBindings [(utf8 "x", 3), (utf8 "y", 4), (utf8 "z", 5), (utf8 "v", 6)]
    let t' := Table.ofBindings [(utf8 "x", 3), (utf8 "y", 4)]
    (∀ stmt ∈ p, stmt.isWellFormed = true) ∧
      (∀ name, p.Needs name → t.get? name = t'.get? name) ∧
      (p.execute ⟨true, true⟩ ⟨t, true⟩).log = (p.execute ⟨true, true⟩ ⟨t', true⟩).log ∧
      (p.execute ⟨true, true⟩ ⟨t', true⟩).store.table.get? (utf8 "v") = none := by
  intro p t t'
  have hp : ∀ stmt ∈ p, stmt.isWellFormed = true := by decide
  have hneeds : ∀ name, p.Needs name → name ∈ [utf8 "x", utf8 "y", utf8 "w"] := by
    intro name hname
    simp only [p, Program.needs_cons, Program.not_needs_nil, Stmt.reads, Expr.names,
      Stmt.assigns, beq_eq_false_iff_ne] at hname
    grind
  have htables : ∀ name ∈ [utf8 "x", utf8 "y", utf8 "w"], t.get? name = t'.get? name := by decide
  have hagree : ∀ name, p.Needs name → t.get? name = t'.get? name := fun name hname =>
    htables name (hneeds name hname)
  obtain ⟨-, -, hlog, -, hkept⟩ :=
    execute_depends_on_needed_names p hp ⟨true, true⟩ true t t' hagree
  exact ⟨hp, hagree, hlog, (hkept (utf8 "v") (by decide)).2⟩

end LineCalculator
