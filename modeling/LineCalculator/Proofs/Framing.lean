import LineCalculator.Proofs.OneLine
import LineCalculator.Proofs.Output

/-!
# One line for each event

A batch run has two kinds of output, and both are made of lines. On the channel
of results stands one numeral for each statement that prints. On the channel of
diagnostics stand the reports of refused lines and, behind them, the diagnostics
of the execution. Which lines these are can be told from the program:
`Program.printed` lists the statements that print, each with the value of its
expression under the variables that the statements before it leave.

The log of an execution falls apart into its results and its diagnostics, and the
results of a statement are the value it prints, if it prints
(`Stmt.results_execute`). Statements that were read never stop a run, however
many diagnostics they give, so the results of a program are what `printed` lists
(`Program.results_execute`). That nothing else on a channel ends a line is what
`LineCalculator.Proofs.OneLine` says.

## Main results

* `Decimal.isCanonical_ofInt64` — written integers are canonical numerals.
* `Program.results_execute` — the results of a program, one for each statement
  that prints.
* `run_frames_output` — the output of a batch run, line by line.
-/

namespace LineCalculator

/-! ## Canonical numerals -/

namespace Decimal

/-- The numeral of an integer in canonical form: a single zero, or digits without
a zero in front and at most a minus sign before them. -/
structure IsCanonical (t : Bytes) (n : Int64) : Prop where
  reads : int64? t = some n
  shape : t = [48] ∨ ∃ sign first more, t = sign ++ first :: more ∧ (sign = [] ∨ sign = [45]) ∧
    first ≠ 48 ∧ ∀ b ∈ first :: more, Byte.isDigit b = true

theorem exists_ofNat_eq_cons {n : Nat} (h : 0 < n) :
    ∃ first more, ofNat n = first :: more ∧ first ≠ 48 := by
  fun_induction ofNat n with
  | case1 n hlt =>
      have hdigit := toNat_digit hlt
      refine ⟨digit n, [], rfl, ?_⟩
      intro heq
      rw [heq] at hdigit
      have hzero : UInt8.toNat 48 = 48 := rfl
      omega
  | case2 n hge ih =>
      obtain ⟨first, more, hcons, hfirst⟩ := ih (by omega)
      exact ⟨first, more ++ [digit (n % 10)], by rw [hcons, List.cons_append], hfirst⟩

theorem natural?_ofNat (n : Nat) : natural? (ofNat n) = some n := by
  have hne : (ofNat n).isEmpty = false := List.isEmpty_eq_false_iff.mpr (ofNat_ne_nil n)
  have hall : (ofNat n).all Byte.isDigit = true :=
    List.all_eq_true.mpr (isDigit_of_mem_ofNat n)
  rw [natural?, hne, hall, value_ofNat]
  rfl

theorem integer?_ofInt (n : Int) : integer? (ofInt n) = some n := by
  cases n with
  | ofNat n =>
      -- A digit is no sign, so the numeral is read as it stands.
      obtain ⟨b, more, hcons⟩ := List.exists_cons_of_ne_nil (ofNat_ne_nil n)
      have hdigit : Byte.isDigit b = true := isDigit_of_mem_ofNat n b (by simp [hcons])
      have hplus : ¬ b == 43 := by
        rw [beq_iff_eq]
        rintro rfl
        exact absurd hdigit (by decide)
      have hminus : ¬ b == 45 := by
        rw [beq_iff_eq]
        rintro rfl
        exact absurd hdigit (by decide)
      rw [ofInt, hcons, integer?, if_neg hplus, if_neg hminus, ← hcons, natural?_ofNat]
      rfl
  | negSucc n =>
      rw [ofInt, integer?, if_neg (by decide), if_pos (by decide), natural?_ofNat]
      rfl

theorem int64?_ofInt64 (n : Int64) : int64? (ofInt64 n) = some n := by
  have hlow : Int64.minValue.toInt ≤ n.toInt := Int64.le_iff_toInt_le.mp (Int64.minValue_le n)
  have hhigh : n.toInt ≤ Int64.maxValue.toInt := Int64.le_iff_toInt_le.mp (Int64.le_maxValue n)
  simp only [int64?, ofInt64, integer?_ofInt]
  rw [if_pos ⟨hlow, hhigh⟩, Int64.ofInt_toInt]

/-- **Written integers are canonical numerals.** -/
theorem isCanonical_ofInt64 (n : Int64) : IsCanonical (ofInt64 n) n := by
  refine ⟨int64?_ofInt64 n, ?_⟩
  rw [ofInt64]
  cases n.toInt with
  | ofNat k =>
      rcases Nat.eq_zero_or_pos k with rfl | hk
      · left
        rw [ofInt, ofNat]
        rfl
      · obtain ⟨first, more, hcons, hfirst⟩ := exists_ofNat_eq_cons hk
        exact .inr ⟨[], first, more, hcons, .inl rfl, hfirst, hcons ▸ isDigit_of_mem_ofNat k⟩
  | negSucc k =>
      obtain ⟨first, more, hcons, hfirst⟩ := exists_ofNat_eq_cons (Nat.succ_pos k)
      exact .inr ⟨[45], first, more, congrArg (45 :: ·) hcons, .inr rfl, hfirst,
        hcons ▸ isDigit_of_mem_ofNat (k + 1)⟩

end Decimal

/-! ## Results and diagnostics of a log -/

/-- The value of a result. -/
def Event.result? : Event → Option Int64
  | .result n => some n
  | .diagnostic _ => none

/-- The diagnostic that the event is. -/
def Event.diagnostic? : Event → Option Diagnostic
  | .result _ => none
  | .diagnostic d => some d

namespace Log

/-- The printed values, in order. -/
def results (log : Log) : List Int64 := log.filterMap Event.result?

/-- The diagnostics, in order. -/
def diagnostics (log : Log) : List Diagnostic := log.filterMap Event.diagnostic?

theorem results_append (s t : Log) : results (s ++ t) = s.results ++ t.results :=
  List.filterMap_append

theorem results_diagnostics (ds : List Diagnostic) : results (ds.map .diagnostic) = [] := by
  simp [results, Event.result?]

theorem mem_diagnostics {log : Log} {d : Diagnostic} :
    d ∈ log.diagnostics ↔ .diagnostic d ∈ log := by
  constructor
  · intro h
    obtain ⟨e, he, hd⟩ := List.mem_filterMap.mp h
    cases e with
    | result n => cases hd
    | diagnostic d' =>
        cases hd
        exact he
  · intro h
    exact List.mem_filterMap.mpr ⟨_, h, rfl⟩

/-- A log is written as a numeral for each result and a message for each diagnostic. -/
theorem linesOf_writes (log : Log) :
    Transcript.linesOf .results log.writes =
        log.results.map (fun n => Decimal.ofInt64 n ++ [Byte.newline]) ∧
      Transcript.linesOf .diagnostics log.writes =
        log.diagnostics.map fun d => d.message ++ [Byte.newline] := by
  induction log with
  | nil => exact ⟨rfl, rfl⟩
  | cons e log ih =>
      cases e with
      | result n => exact ⟨congrArg (_ :: ·) ih.1, ih.2⟩
      | diagnostic d => exact ⟨ih.1, congrArg (_ :: ·) ih.2⟩

end Log

/-! ## Statements that print -/

namespace Stmt

/-- Does the statement print? -/
def isPrint : Stmt → Bool
  | print _ _ => true
  | _ => false

/-- The value that the statement prints, if it prints. -/
def printed? (o : Options) (s : Store) : Stmt → Option Int64
  | print x line => (x.evaluate o s line).result.toOption
  | _ => none

/-- A statement in order prints one value or none, and that is its only result. -/
theorem results_execute (o : Options) (s : Store) {stmt : Stmt}
    (h : stmt.isWellFormed = true) :
    (stmt.execute o s).log.results = (stmt.printed? o s).toList ∧
      (stmt.printed? o s).isSome = stmt.isPrint := by
  cases stmt with
  | assign name x line =>
      obtain ⟨n, hn⟩ := Expr.exists_ok_evaluate o s line (x := x) h
      simp only [execute, hn]
      exact ⟨Log.results_diagnostics _, rfl⟩
  | print x line =>
      obtain ⟨n, hn⟩ := Expr.exists_ok_evaluate o s line (x := x) h
      simp only [execute, printed?, hn, Log.results_append, Log.results_diagnostics]
      exact ⟨rfl, rfl⟩
  | blank line => exact ⟨rfl, rfl⟩
  | missing => cases h

end Stmt

namespace Program

/-- The statements that print, each with the value of its expression under the
variables that the statements before it leave. -/
def printed (o : Options) (s : Store) (p : Program) : List (Stmt × Int64) :=
  p.zipIdx.filterMap fun (stmt, i) =>
    (stmt.printed? o (execute o s (p.take i)).store).map fun n => (stmt, n)

/-- Behind a statement, printing goes on with the variables that it leaves. -/
theorem printed_cons (o : Options) (s : Store) {stmt : Stmt} (rest : Program)
    (h : stmt.isWellFormed = true) :
    printed o s (stmt :: rest) =
      ((stmt.printed? o s).map fun n => (stmt, n)).toList ++
        printed o (stmt.execute o s).store rest := by
  have hnow : (execute o s ((stmt :: rest).take 0)).store = s := rfl
  have hlater (i : Nat) : (execute o s ((stmt :: rest).take (i + 1))).store =
      (execute o (stmt.execute o s).store (rest.take i)).store := by
    rw [List.take_succ_cons, execute_cons_of_none _ (Stmt.fault?_execute o s h)]
  unfold printed
  rw [List.zipIdx_cons, List.zipIdx_succ, List.filterMap_cons, List.filterMap_map]
  simp only [Function.comp_def, hnow, hlater]
  cases stmt.printed? o s with
  | none => rfl
  | some n => rfl

/-- **The results of a program**: one for each statement that prints, in order. -/
theorem results_execute (o : Options) (s : Store) {p : Program}
    (hp : ∀ stmt ∈ p, stmt.isWellFormed = true) :
    (p.execute o s).log.results = (p.printed o s).map Prod.snd ∧
      (p.printed o s).map Prod.fst = p.filter Stmt.isPrint := by
  induction p generalizing s with
  | nil => exact ⟨rfl, rfl⟩
  | cons stmt rest ih =>
      have hstmt : stmt.isWellFormed = true := hp stmt List.mem_cons_self
      obtain ⟨hvalues, hstmts⟩ :=
        ih (stmt.execute o s).store fun t ht => hp t (List.mem_cons_of_mem _ ht)
      obtain ⟨hresults, hprints⟩ := Stmt.results_execute o s hstmt
      rw [execute_cons_of_none rest (Stmt.fault?_execute o s hstmt), Log.results_append, hvalues,
        hresults, printed_cons o s rest hstmt, List.map_append, List.map_append, hstmts,
        List.filter_cons, ← hprints]
      cases stmt.printed? o s with
      | none => exact ⟨rfl, rfl⟩
      | some n => exact ⟨rfl, rfl⟩

end Program

/-! ## Batch runs -/

/-- The writes of a run, channel by channel. -/
theorem Batch.linesOf_writes (o : Options) (t : Bytes) :
    Transcript.linesOf .results (writes o t) =
        ((Parsed.ofText t).program.execute o .empty).log.results.map
          (fun n => Decimal.ofInt64 n ++ [Byte.newline]) ∧
      Transcript.linesOf .diagnostics (writes o t) =
        (Parsed.ofText t).errors.map SyntaxError.reportLine ++
          ((Parsed.ofText t).program.execute o .empty).log.diagnostics.map
            fun d => d.message ++ [Byte.newline] := by
  have hreports := linesOf_reports (Parsed.ofText t).errors
  have hlog := Log.linesOf_writes ((Parsed.ofText t).program.execute o .empty).log
  rw [writes, Transcript.linesOf_append, Transcript.linesOf_append, hreports.1, hreports.2,
    hlog.1, hlog.2]
  exact ⟨rfl, rfl⟩

/--
**The output of a batch run is one line for each event.** A text is run under any
options, with writers that refuse nothing. The run comes to the end of the
program, and what it sends to the channel of results is a canonical numeral and a
newline for each statement of the program that prints, in order, and nothing else.
What it sends to the channel of diagnostics is a line for each refused line and
then a line for each diagnostic. With a writer for each channel, this is what comes
out of them. No error and no diagnostic has a newline in its message, whatever
bytes the text holds.
-/
theorem run_frames_output (o : Options) (t : Bytes) (w : Outlets) (hw : w.Unlimited) :
    let parsed := Parsed.ofText t
    let execution := parsed.program.execute o .empty
    let run := Batch.run o ⟨t, none⟩ w
    let printed := parsed.program.printed o .empty
    let results := printed.map fun p => Decimal.ofInt64 p.2 ++ [Byte.newline]
    let reports := parsed.errors.map fun e =>
      utf8 "syntax error: " ++ e.message ++ [Byte.newline]
    let diagnostics := execution.log.diagnostics.map fun d => d.message ++ [Byte.newline]
    execution.fault? = none ∧
      (∃ sent, run.outlets = w.putAll sent ∧ Transcript.linesOf .results sent = results ∧
        Transcript.linesOf .diagnostics sent = reports ++ diagnostics) ∧
      (w.shared = false →
        run.outlets.received .results = w.received .results ++ results.flatten ∧
        run.outlets.received .diagnostics =
          w.received .diagnostics ++ (reports ++ diagnostics).flatten) ∧
      printed.map Prod.fst = parsed.program.filter Stmt.isPrint ∧
      (∀ p ∈ printed, Decimal.IsCanonical (Decimal.ofInt64 p.2) p.2) ∧
      (∀ e ∈ parsed.errors, Byte.newline ∉ e.message) ∧
      ∀ d ∈ execution.log.diagnostics, Byte.newline ∉ d.message := by
  intro parsed execution run printed results reports diagnostics
  have hspellable : ∀ stmt ∈ parsed.program, stmt.Spellable :=
    fun stmt hstmt => (Parsed.readsBack_of_mem_program hstmt).spellable
  have hwf : ∀ stmt ∈ parsed.program, stmt.isWellFormed = true :=
    fun stmt hstmt => (hspellable stmt hstmt).isWellFormed
  obtain ⟨hvalues, hstmts⟩ := Program.results_execute o .empty hwf
  obtain ⟨hresults, hdiagnostics⟩ := Batch.linesOf_writes o t
  have hsent : run.outlets = w.putAll (Batch.writes o t) :=
    Batch.outlets_run o t (hw.takes _)
  replace hresults : Transcript.linesOf .results (Batch.writes o t) = results := by
    rw [hresults, hvalues, List.map_map]
    rfl
  refine ⟨Program.fault?_execute o .empty hwf, ⟨_, hsent, hresults, hdiagnostics⟩, ?_, hstmts,
    fun p _ => Decimal.isCanonical_ofInt64 p.2,
    fun e he => Parsed.newline_notMem_message_of_mem_errors he,
    fun d hd => newline_notMem_message_of_mem_log hspellable (Log.mem_diagnostics.mp hd)⟩
  intro hshared
  have hreceived := (hw.takes (Batch.writes o t)).received_putAll
  rw [hsent, hreceived, hreceived, Outlets.offered_eq_linesOf hshared,
    Outlets.offered_eq_linesOf hshared, hresults, hdiagnostics]
  exact ⟨rfl, rfl⟩

/-- The first line starts with a sign and the third one breaks off. The other two
print, one of them with a diagnostic. -/
theorem run_frames_output_broken :
    let w := Outlets.unlimited
    let run := Batch.run {} ⟨utf8 "-0\n8/0\n3*\n7", none⟩ w
    w.Unlimited ∧ w.shared = false ∧
      run.outlets.received .results = utf8 "0\n7\n" ∧
      run.outlets.received .diagnostics =
        utf8 "syntax error: line 1:1: unexpected '-', expected number, identifier or '('\n" ++
          utf8 "syntax error: line 3:3: unexpected end of line, " ++
          utf8 "expected number, identifier or '('\n" ++ utf8 "division by zero\n" := by
  intro w run
  have hw : w.Unlimited := Outlets.open_unlimited.unlimited
  have hrun := (run_frames_output {} (utf8 "-0\n8/0\n3*\n7") w hw).2.2.1 rfl
  refine ⟨hw, rfl, ?_, ?_⟩
  · rw [hrun.1]
    decide +kernel
  · rw [hrun.2]
    decide +kernel

end LineCalculator
