import Mathlib.Data.List.Infix
import LineCalculator.Proofs.Output

/-!
# Batch runs into full writers

When a writer runs full, a batch run goes on as if nothing had happened and
loses what the writer refuses.  Two questions arise.

**Is anything lost but the end of the output?**  No.  All that a run ever writes
is a beginning of what it would write without limits: the reports are all tried,
and the line sink stops at a first refusal (`Batch.exists_outlets_run`).  Of that,
each writer takes a beginning.  A line is one write, so what is lost starts at the
start of a line.

**Does a full writer of diagnostics cost results?**  Yes.  Results and
diagnostics go through one line sink, and the sink remembers one error for both
channels.  A refused diagnostic therefore ends the results as well, although their
writer would take them.  How many results come through depends only on how many
diagnostics come before them in the log (`Log.beforeDiagnostic`), less one for
each refused line of the program: its report has been written by then.

## Main results

* `run_limited_prefix` — full writers only cut off the end of the output.
* `received_results_beforeDiagnostic` — which results come through when the
  writer of diagnostics is limited.
-/

namespace LineCalculator

namespace Batch

/-! ## A run writes a beginning of its writes -/

/-- All that a run would like to write. -/
def allWrites (o : Options) (source : Source) : List (Channel × Bytes) :=
  match source.failure? with
  | none => writes o source.text
  | some reason => [(.diagnostics, (InputError.unreadable reason).fatalLine)]

/-- An execution writes a beginning of its log. -/
theorem exists_perform (o : Options) (p : Program) (w : Outlets) :
    ∃ done, done <+: Log.writes (p.execute o .empty).log ∧ perform o p w = w.putAll done := by
  rcases w.takes_or_full (Log.lines (p.execute o .empty).log) with
    htakes | ⟨before, c, line, after, hlines, htakes, hfull⟩
  · refine ⟨_, List.prefix_refl _, ?_⟩
    rw [perform, htakes.sendLog]
  · refine ⟨framed before, ?_, ?_⟩
    · rw [← Log.framed_lines, hlines, framed_append]
      exact List.prefix_append _ _
    · rw [perform, LineSink.sendLog_eq_sendAll]
      show (LineSink.sendAll ⟨w, none⟩ (Log.lines (p.execute o .empty).log)).outlets = _
      rw [hlines, hfull.sendAll htakes]

/-- **A run writes a beginning of what it would write without limits.** -/
theorem exists_outlets_run (o : Options) (source : Source) (w : Outlets) :
    ∃ done, done <+: allWrites o source ∧ (run o source w).outlets = w.putAll done := by
  obtain ⟨t, failure?⟩ := source
  cases failure? with
  | none =>
      obtain ⟨done, hdone, hperform⟩ := exists_perform o (Parsed.ofText t).program
        (w.putAll (reports (Parsed.ofText t).errors))
      refine ⟨reports (Parsed.ofText t).errors ++ done, ?_, ?_⟩
      · exact (List.prefix_append_right_inj _).mpr hdone
      · rw [outlets_run_eq_perform, hperform, Outlets.putAll_append]
  | some reason => exact ⟨_, List.prefix_refl _, rfl⟩

theorem outlets_run_of_takes (o : Options) (source : Source) {w : Outlets}
    (h : w.Takes (allWrites o source)) :
    (run o source w).outlets = w.putAll (allWrites o source) := by
  obtain ⟨t, failure?⟩ := source
  cases failure? with
  | none => exact outlets_run o t h
  | some reason => rfl

/-- The exit status says nothing about the writers. -/
theorem status_run (o : Options) (source : Source) (w v : Outlets) :
    (run o source w).status = (run o source v).status := by
  unfold run
  cases source.error? with
  | none => rfl
  | some e => cases e <;> rfl

theorem getLast?_allWrites (o : Options) (source : Source) :
    ∀ write ∈ allWrites o source, write.2.getLast? = some Byte.newline := by
  have hnewline : utf8 "\n" = [Byte.newline] := rfl
  intro write hwrite
  unfold allWrites at hwrite
  cases hfailure : source.failure? with
  | none =>
      rw [hfailure] at hwrite
      rcases List.mem_append.mp hwrite with hreport | hevent
      · obtain ⟨e, -, rfl⟩ := List.mem_map.mp hreport
        show e.reportLine.getLast? = _
        rw [SyntaxError.reportLine, hnewline, List.getLast?_concat]
      · obtain ⟨e, -, rfl⟩ := List.mem_map.mp hevent
        exact List.getLast?_concat
  | some reason =>
      rw [hfailure] at hwrite
      rw [List.mem_singleton.mp hwrite]
      show (InputError.unreadable reason).fatalLine.getLast? = _
      rw [InputError.fatalLine, hnewline, List.getLast?_concat]

end Batch

/-- Whole lines one behind the other end in a newline, unless there are none. -/
theorem getLast?_flatten_lines {lines : List Bytes}
    (h : ∀ line ∈ lines, line.getLast? = some Byte.newline) :
    lines.flatten = [] ∨ lines.flatten.getLast? = some Byte.newline := by
  induction lines with
  | nil => exact .inl rfl
  | cons line lines ih =>
      right
      rw [List.flatten_cons, List.getLast?_append, h line List.mem_cons_self]
      rcases ih fun l hl => h l (List.mem_cons_of_mem _ hl) with hnil | hlast
      · rw [hnil]
        rfl
      · rw [hlast]
        rfl

/-! ## The end of the output is cut off -/

/-- What a channel gives under limits is a beginning of what it would give, and
consists of whole lines. -/
theorem Outlets.received_putAll_isPrefix {w v : Outlets} (hunlimited : v.Unlimited)
    (hshared : w.shared = v.shared) {c : Channel} (hw : w.received c = []) (hv : v.received c = [])
    {done all : List (Channel × Bytes)} (hdone : done <+: all)
    (hlines : ∀ write ∈ all, write.2.getLast? = some Byte.newline) :
    (w.putAll done).received c <+: (v.putAll all).received c ∧
      ((w.putAll done).received c = [] ∨
        ((w.putAll done).received c).getLast? = some Byte.newline) := by
  rw [received_putAll, (hunlimited.takes all).received_putAll, hw, hv, List.nil_append,
    List.nil_append]
  have hoffered : w.offered c done <+: v.offered c all := by
    rw [offered_congr hshared]
    exact hdone.filterMap _
  have htaken := ((w.writer c).accepted_isPrefix (w.offered c done)).trans hoffered
  refine ⟨htaken.flatten, getLast?_flatten_lines fun chunk hchunk => ?_⟩
  obtain ⟨write, hwrite, hchosen⟩ := List.mem_filterMap.mp (htaken.subset hchunk)
  by_cases hmeets : write.1 = c ∨ v.shared = true
  · rw [if_pos hmeets] at hchosen
    cases hchosen
    exact hlines write hwrite
  · rw [if_neg hmeets] at hchosen
    cases hchosen

/-- The state behind each operation is that of the operations so far. -/
theorem LineSink.eq_sendAll_of_sendEach {s state : LineSink} {ops : List (Channel × Bytes)}
    {i : Nat} (h : (s.sendEach ops)[i]? = some state) : state = s.sendAll (ops.take (i + 1)) := by
  induction ops generalizing s i with
  | nil => cases h
  | cons op ops ih =>
      cases i with
      | zero =>
          cases h
          rfl
      | succ i => exact ih h

/--
**Full writers only cut off the end of the output.**  Whatever the budgets of the
two writers are, and also if both channels share one writer, a run into them ends
with the same exit code as a run without limits.  What comes out of each channel
is a beginning of what would come out without limits, and consists of whole lines;
it is all of it if the budgets last.

Behind each operation of a line sink on these writers, the sink remembers no error
exactly if the budgets have lasted so far.  From the first line on whose writer is
full, it remembers what that writer said, whatever comes after.
-/
theorem run_limited_prefix (o : Options) (source : Source) (outBudget? errBudget? : Option Nat)
    (outRefusal errRefusal : Bytes) (shared : Bool) :
    let w : Outlets := ⟨.fresh outBudget? outRefusal, .fresh errBudget? errRefusal, shared⟩
    let limited := Batch.run o source w
    let free := Batch.run o source ⟨.fresh none outRefusal, .fresh none errRefusal, shared⟩
    limited.status.code = free.status.code ∧
      (∀ c, limited.outlets.received c <+: free.outlets.received c ∧
        (limited.outlets.received c = [] ∨
          (limited.outlets.received c).getLast? = some Byte.newline) ∧
        (w.Takes (Batch.allWrites o source) →
          limited.outlets.received c = free.outlets.received c)) ∧
      ∀ ops i state, (LineSink.sendEach ⟨w, none⟩ ops)[i]? = some state →
        (state.error? = none ↔ w.Takes (ops.take (i + 1))) ∧
        ∀ before c line after, ops.take (i + 1) = before ++ (c, line) :: after →
          w.Takes before → w.Full before c →
          state.error? =
            some (if c = .results ∨ shared = true then outRefusal else errRefusal) := by
  intro w limited free
  have hunlimited : Outlets.Unlimited
      ⟨.fresh none outRefusal, .fresh none errRefusal, shared⟩ := by
    intro c
    rw [Outlets.writer]
    split <;> rfl
  have hempty : ∀ (b? b'? : Option Nat) (c : Channel),
      Outlets.received ⟨.fresh b? outRefusal, .fresh b'? errRefusal, shared⟩ c = [] := by
    intro b? b'? c
    rw [Outlets.received_eq, Outlets.writer]
    split <;> rfl
  refine ⟨congrArg _ (Batch.status_run o source _ _), ?_, ?_⟩
  · intro c
    have hall := hunlimited.takes (Batch.allWrites o source)
    have hfree : free.outlets = _ := Batch.outlets_run_of_takes o source hall
    obtain ⟨done, hdone, hlimited⟩ := Batch.exists_outlets_run o source w
    have hcut := Outlets.received_putAll_isPrefix (w := w) hunlimited rfl (hempty _ _ c)
      (hempty _ _ c) hdone (Batch.getLast?_allWrites o source)
    rw [← hlimited, ← hfree] at hcut
    refine ⟨hcut.1, hcut.2, fun htakes => ?_⟩
    have hwritten : limited.outlets = _ := Batch.outlets_run_of_takes o source htakes
    rw [hwritten, hfree, htakes.received_putAll, hall.received_putAll, hempty, hempty]
    exact congrArg _ (congrArg _ (Outlets.offered_congr rfl c _))
  · intro ops i state hstate
    rw [LineSink.eq_sendAll_of_sendEach hstate]
    refine ⟨w.error?_sendAll _, ?_⟩
    intro before c line after hops htakes hfull
    have hrefusal : (w.writer c).refusal =
        if c = .results ∨ shared = true then outRefusal else errRefusal := by
      rw [Outlets.writer]
      split <;> rfl
    rw [hops, hfull.sendAll htakes, hrefusal]

/-! ## Refused diagnostics cost results -/

namespace Log

/-- What a log says before its diagnostic number `n`, counted from zero. -/
def beforeDiagnostic : Nat → Log → Log
  | _, [] => []
  | n, .result v :: log => .result v :: beforeDiagnostic n log
  | 0, .diagnostic _ :: _ => []
  | n + 1, .diagnostic d :: log => .diagnostic d :: beforeDiagnostic n log

/-- The number of diagnostics in a log. -/
def diagnosticCount (log : Log) : Nat := (Transcript.linesOf .diagnostics log.lines).length

/-- A log has no diagnostic number `n`, or it goes on with that one. -/
theorem beforeDiagnostic_cases (n : Nat) (log : Log) :
    (log.beforeDiagnostic n = log ∧ log.diagnosticCount ≤ n) ∨
      ∃ d after, log = log.beforeDiagnostic n ++ .diagnostic d :: after ∧
        (log.beforeDiagnostic n).diagnosticCount = n := by
  induction log generalizing n with
  | nil => exact .inl ⟨by rw [beforeDiagnostic], Nat.zero_le n⟩
  | cons e log ih =>
      cases e with
      | result v =>
          rw [beforeDiagnostic]
          rcases ih n with ⟨hall, hcount⟩ | ⟨d, after, hlog, hcount⟩
          · exact .inl ⟨by rw [hall], hcount⟩
          · refine .inr ⟨d, after, ?_, hcount⟩
            rw [List.cons_append, ← hlog]
      | diagnostic d =>
          cases n with
          | zero => exact .inr ⟨d, log, rfl, rfl⟩
          | succ n =>
              rw [beforeDiagnostic]
              rcases ih n with ⟨hall, hcount⟩ | ⟨d', after, hlog, hcount⟩
              · exact .inl ⟨by rw [hall], Nat.succ_le_succ hcount⟩
              · refine .inr ⟨d', after, ?_, congrArg (· + 1) hcount⟩
                rw [List.cons_append, ← hlog]

theorem beforeDiagnostic_isPrefix (n : Nat) (log : Log) : log.beforeDiagnostic n <+: log := by
  rcases beforeDiagnostic_cases n log with ⟨hall, -⟩ | ⟨d, after, hlog, -⟩
  · exact ⟨[], by rw [hall, List.append_nil]⟩
  · exact ⟨_, hlog.symm⟩

/-- The results of a log as they are written. -/
def resultText (log : Log) : Bytes :=
  log.flatMap fun
    | .result v => Decimal.ofInt64 v ++ [Byte.newline]
    | .diagnostic _ => []

theorem flatten_linesOf_results (log : Log) :
    (Transcript.linesOf .results log.writes).flatten = log.resultText := by
  induction log with
  | nil => rfl
  | cons e log ih =>
      cases e with
      | result v => exact congrArg (_ ++ ·) ih
      | diagnostic d => exact ih

theorem resultText_append (s t : Log) : resultText (s ++ t) = s.resultText ++ t.resultText :=
  List.flatMap_append

/-- A log without text of results has no results. -/
theorem resultText_eq_nil_iff (log : Log) :
    log.resultText = [] ↔ ∀ e ∈ log, e.channel = .diagnostics := by
  rw [resultText, List.flatMap_eq_nil_iff]
  refine forall₂_congr fun e _ => ?_
  cases e with
  | result v => simp [Event.channel]
  | diagnostic d => simp [Event.channel]

end Log

namespace Batch

/-- An execution with a limit of `n` diagnostics writes the log before the one that is
too many. -/
theorem perform_eq_beforeDiagnostic (o : Options) (p : Program) {w : Outlets} {n : Nat}
    (hshared : w.shared = false) (hout : (w.writer .results).budget? = none)
    (herr : (w.writer .diagnostics).budget? = some n) : perform o p w =
      w.putAll (Log.writes ((p.execute o .empty).log.beforeDiagnostic n)) := by
  generalize hkept : (p.execute o .empty).log.beforeDiagnostic n = kept
  have hoffered : ∀ log : Log, w.offered .diagnostics log.lines =
      Transcript.linesOf .diagnostics log.lines :=
    fun log => Outlets.offered_eq_linesOf hshared _ _
  have htakes : ∀ log : Log, log.diagnosticCount ≤ n → w.Takes log.lines := by
    intro log hcount c m hm
    cases c with
    | results =>
        rw [hout] at hm
        cases hm
    | diagnostics =>
        rw [herr] at hm
        cases hm
        rw [hoffered]
        exact hcount
  rcases Log.beforeDiagnostic_cases n (p.execute o .empty).log with
    ⟨hall, hcount⟩ | ⟨d, after, hlog, hcount⟩
  · rw [perform, (htakes _ hcount).sendLog, ← hkept, hall]
  · rw [hkept] at hlog hcount
    have hfull : w.Full kept.lines .diagnostics := by
      refine ⟨n, herr, ?_⟩
      rw [hoffered]
      exact Nat.le_of_eq hcount.symm
    have hlines : (p.execute o .empty).log.map (fun e => (e.channel, e.text)) =
        kept.lines ++ (.diagnostics, d.message) :: Log.lines after := by
      rw [hlog]
      exact List.map_append
    rw [perform, LineSink.sendLog_eq_sendAll, hlines,
      hfull.sendAll (htakes kept (Nat.le_of_eq hcount)), Log.framed_lines]

/-- Reports are no results. -/
theorem flatten_linesOf_results (errors : List SyntaxError) (log : Log) :
    (Transcript.linesOf .results (reports errors ++ log.writes)).flatten = log.resultText := by
  rw [Transcript.linesOf_append, (linesOf_reports errors).1, List.nil_append,
    Log.flatten_linesOf_results]

end Batch

/--
**Which results come through when the writer of diagnostics is limited.**  It takes
`n` writes, and the writer of results takes all.  Then the results that come out
are those before the first diagnostic that is refused, where each report of a
refused line has used up one write.  They are all results of the program exactly
if no result comes behind that diagnostic.
-/
theorem received_results_beforeDiagnostic (o : Options) (t : Bytes) (n : Nat) (refusal : Bytes) :
    let limited := Batch.run o ⟨t, none⟩ ⟨.fresh none [], .fresh (some n) refusal, false⟩
    let free := Batch.run o ⟨t, none⟩ .unlimited
    let log := ((Parsed.ofText t).program.execute o .empty).log
    let kept := log.beforeDiagnostic (n - (Parsed.ofText t).errors.length)
    limited.outlets.received .results = kept.resultText ∧
      free.outlets.received .results = log.resultText ∧
      (limited.outlets.received .results = free.outlets.received .results ↔
        ∀ e ∈ log.drop kept.length, e.channel = .diagnostics) := by
  intro limited free log kept
  have hlimited : limited.outlets.received .results = kept.resultText := by
    show (Batch.run o ⟨t, none⟩ _).outlets.received .results = _
    generalize hw : Outlets.mk (.fresh none []) (.fresh (some n) refusal) false = w
    -- The reports leave the writer of results alone and cost the other one a write each.
    have hshared : w.shared = false := by rw [← hw]
    have hout : ((w.putAll (Batch.reports (Parsed.ofText t).errors)).writer .results).budget? =
        none := by
      rw [Outlets.writer_putAll, Writer.writeAll_eq, ← hw]
      rfl
    have herr : ((w.putAll (Batch.reports (Parsed.ofText t).errors)).writer .diagnostics).budget? =
        some (n - (Parsed.ofText t).errors.length) := by
      rw [Outlets.writer_putAll, Writer.writeAll_eq, Outlets.offered_eq_linesOf hshared,
        (Batch.linesOf_reports _).2, List.length_map, ← hw]
      rfl
    rw [Batch.outlets_run_eq_perform,
      Batch.perform_eq_beforeDiagnostic o _ ((w.shared_putAll _).trans hshared) hout herr,
      ← Outlets.putAll_append, Outlets.received_putAll, Outlets.offered_eq_linesOf hshared, ← hw]
    exact Batch.flatten_linesOf_results _ kept
  have hfree : free.outlets.received .results = log.resultText := by
    have hrun := Batch.received_run o t Outlets.open_unlimited .results
    rw [Outlets.received_unlimited, List.nil_append] at hrun
    exact hrun.trans (Batch.flatten_linesOf_results _ log)
  refine ⟨hlimited, hfree, ?_⟩
  have hsplit : log = kept ++ log.drop kept.length :=
    (List.prefix_iff_eq_append.mp (Log.beforeDiagnostic_isPrefix _ log)).symm
  have htext : log.resultText = kept.resultText ++ Log.resultText (log.drop kept.length) := by
    rw [← Log.resultText_append, ← hsplit]
  rw [hlimited, hfree, htext, List.self_eq_append_right]
  exact Log.resultText_eq_nil_iff _

/-- The line `1/0` prints `0`, but not if its diagnostic is refused. -/
theorem results_lost_behind_refused_diagnostic :
    (Batch.run {} ⟨utf8 "1/0\n", none⟩
        ⟨.fresh none [], .fresh (some 0) (utf8 "err full"), false⟩).outlets.received .results ≠
      (Batch.run {} ⟨utf8 "1/0\n", none⟩ .unlimited).outlets.received .results := by
  decide +kernel

end LineCalculator
