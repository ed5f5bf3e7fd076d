import LineCalculator.Batch
import LineCalculator.Proofs.Writers

/-!
# What a batch run writes

A batch run first reports the lines that were refused and then sends the log of
the execution. As long as no writer refuses anything, all that matters of it is
the list of its **writes**, each a channel and a chunk of text: every chunk comes
out of its own channel, in order, and of no other.

Reports and log go different ways. A report that is refused is forgotten, while
the line sink stops for good at the first refused line. Where nothing is refused
the two ways are one (`report_eq_putAll`, `Outlets.Takes.sendLog`).

## Main results

* `Batch.received_run` — what comes out of the channels of a batch run.
-/

namespace LineCalculator

theorem Transcript.linesOf_append (c : Channel) (xs ys : List (Channel × Bytes)) :
    linesOf c (xs ++ ys) = linesOf c xs ++ linesOf c ys := List.filterMap_append

namespace Outlets

/-- Each channel has a writer of its own, and no write is ever refused. -/
structure Open (w : Outlets) : Prop where
  apart : w.shared = false
  out : w.out.budget? = none
  err : w.err.budget? = none

theorem open_unlimited : unlimited.Open := ⟨rfl, rfl, rfl⟩

theorem received_unlimited (c : Channel) : unlimited.received c = [] := by
  cases c <;> rfl

theorem Open.unlimited {w : Outlets} (h : w.Open) : w.Unlimited := by
  intro c
  rw [writer]
  split
  · exact h.out
  · exact h.err

end Outlets

namespace Log

/-- The lines of a log: one for each event. -/
def lines (log : Log) : List (Channel × Bytes) := log.map fun e => (e.channel, e.text)

/-- The writes of a log: one line for each event. -/
def writes (log : Log) : List (Channel × Bytes) :=
  log.map fun e => (e.channel, e.text ++ [Byte.newline])

theorem framed_lines (log : Log) : framed log.lines = log.writes := List.map_map

end Log

/-- A line sink whose budgets last for a log writes the whole log. -/
theorem Outlets.Takes.sendLog {w : Outlets} {log : Log} (h : w.Takes log.lines) :
    LineSink.sendLog ⟨w, none⟩ log = ⟨w.putAll log.writes, none⟩ := by
  rw [LineSink.sendLog_eq_sendAll, ← Log.framed_lines]
  exact h.sendAll

namespace Batch

/-- The writes that report errors. -/
def reports (errors : List SyntaxError) : List (Channel × Bytes) :=
  errors.map fun e => (.diagnostics, e.reportLine)

theorem report_eq_putAll (w : Outlets) (errors : List SyntaxError) :
    report w errors = w.putAll (reports errors) := by
  rw [report, Outlets.putAll, reports, List.foldl_map]

/-- Reports belong to the diagnostics channel. -/
theorem linesOf_reports (errors : List SyntaxError) :
    Transcript.linesOf .results (reports errors) = [] ∧
      Transcript.linesOf .diagnostics (reports errors) = errors.map SyntaxError.reportLine := by
  constructor
  · simp [Transcript.linesOf, reports, List.filterMap_map]
  · rw [Transcript.linesOf, reports, List.filterMap_map]
    exact congrFun List.filterMap_eq_map errors

/-- The writes of a run: the reports, and then the log. -/
def writes (o : Options) (t : Bytes) : List (Channel × Bytes) :=
  reports (Parsed.ofText t).errors ++
    Log.writes ((Parsed.ofText t).program.execute o .empty).log

theorem code_run (o : Options) (t : Bytes) (w : Outlets) :
    (run o ⟨t, none⟩ w).status.code = if (Parsed.ofText t).errors = [] then 0 else 1 := by
  unfold run Source.error?
  cases (Parsed.ofText t).errors with
  | nil => rfl
  | cons e more => rfl

/-- A run reports first and executes then. -/
theorem outlets_run_eq_perform (o : Options) (t : Bytes) (w : Outlets) :
    (run o ⟨t, none⟩ w).outlets = perform o (Parsed.ofText t).program
      (w.putAll (reports (Parsed.ofText t).errors)) := by
  rw [← report_eq_putAll]
  unfold run Source.error? Source.program
  cases (Parsed.ofText t).errors with
  | nil => rfl
  | cons e more => rfl

/-- Where the budgets last, a run writes its writes. -/
theorem outlets_run (o : Options) (t : Bytes) {w : Outlets} (h : w.Takes (writes o t)) :
    (run o ⟨t, none⟩ w).outlets = w.putAll (writes o t) := by
  have hlog := h.of_append
  rw [← Log.framed_lines, Outlets.takes_framed] at hlog
  rw [outlets_run_eq_perform, perform, hlog.sendLog, writes, Outlets.putAll_append]

/-- **What comes out of a batch run** that is refused no write: on each channel,
its own writes in order. -/
theorem received_run (o : Options) (t : Bytes) {w : Outlets} (h : w.Open) (c : Channel) :
    (run o ⟨t, none⟩ w).outlets.received c =
      w.received c ++ (Transcript.linesOf c (writes o t)).flatten := by
  have htakes := h.unlimited.takes (writes o t)
  rw [outlets_run o t htakes, htakes.received_putAll, Outlets.offered_eq_linesOf h.apart]

end Batch

end LineCalculator
