import LineCalculator.CommandLine.Invocation
import LineCalculator.Proofs.Framing
import LineCalculator.Proofs.FullWriters

/-!
# What the program shows of a batch run

The program as it is started from the command line emits more than a batch run
writes: it tells what it is doing, and trace messages stand among the reports and
the diagnostics.  An emission that is no such message is a **write**
(`Emission.write?`).  Once the messages are taken out, what the program emits for
a source is what a batch run would like to write (`CommandLine.writes_runSource`),
so all that is known of batch runs holds of the program.

Messages come from reading and from executing.  Reading gives nothing else.  When
a statement is executed, each event gives one write, with a message in front of it
if it is a diagnostic.  The program tells of every statement, while a batch run
stops at a fault; but statements that were read have no faults.

Standard output leaves out colour codes, and since results are numerals, there are
none.

## Main results

* `CommandLine.writes_runSource` — what the program emits for a source.
* `CommandLine.runSource_agrees_with_run` — status and standard streams.
* `Invocation.run_standard_input` — a program on standard input.
-/

namespace LineCalculator

namespace Emission

/-- The write that an emission is, unless it is a trace message. -/
def write? : Emission → Option (Channel × Bytes)
  | out t => some (.results, t)
  | err t => some (.diagnostics, t)
  | note _ _ => none

/-- The writes among emissions. -/
def writes (es : List Emission) : List (Channel × Bytes) := es.filterMap write?

@[simp] theorem writes_nil : writes [] = [] := rfl

@[simp] theorem writes_append (xs ys : List Emission) :
    writes (xs ++ ys) = writes xs ++ writes ys := List.filterMap_append

@[simp] theorem writes_err (t : Bytes) (es : List Emission) :
    writes (err t :: es) = (.diagnostics, t) :: writes es := rfl

@[simp] theorem writes_debug (t : Bytes) (es : List Emission) :
    writes (debug t :: es) = writes es := rfl

/-- Standard output shows the writes to the channel of results, without colour codes. -/
theorem flatMap_onOut (es : List Emission) :
    es.flatMap onOut = (Transcript.linesOf .results (writes es)).flatMap Markup.dropCodes := by
  induction es with
  | nil => rfl
  | cons e es ih =>
      rw [List.flatMap_cons, ih]
      cases e <;> rfl

/-- Standard error shows the writes to the channel of diagnostics, and messages. -/
theorem flatMap_onErr (level : TraceLevel) (es : List Emission) :
    (es.filter fun e => e.write?.isSome).flatMap (onErr level) =
      (Transcript.linesOf .diagnostics (writes es)).flatten := by
  induction es with
  | nil => rfl
  | cons e es ih =>
      cases e with
      | out t => exact ih
      | err t => exact congrArg (t ++ ·) ih
      | note l t => exact ih

end Emission

/-! ## Reading gives messages only -/

namespace Narration

open Emission (writes)

theorem writes_reading (rs : List Reading) : writes (rs.map reading) = [] := by
  induction rs with
  | nil => rfl
  | cons r rs ih =>
      rw [List.map_cons, reading]
      split
      · exact ih
      · exact ih

theorem writes_line (t : Bytes) (number : Int) : writes (line t number) = [] := by
  rw [line, Emission.writes_append, writes_reading]
  split <;> rfl

theorem writes_skipped (t : Bytes) (number : Int) : writes (skipped t number) = [] := by
  unfold skipped
  split <;> rfl

theorem writes_lines (number : Nat) (ls : List Bytes) : writes (lines number ls) = [] := by
  induction ls generalizing number with
  | nil => rfl
  | cons t ls ih => rw [lines, Emission.writes_append, Emission.writes_append, writes_line,
      writes_skipped, ih, List.append_nil, List.append_nil]

theorem writes_source (made : Bool) (s : Source) : writes (source made s) = [] := by
  have hlexer : writes (if needsLexer s then lexer made else []) = [] := by
    split
    · cases made <;> rfl
    · rfl
  rw [source, Emission.writes_append, Emission.writes_append, hlexer, writes_lines]
  cases s.failure? <;> rfl

/-! ## Executing gives the log -/

theorem writes_event (e : Event) :
    writes (event CommandLine.batchEvent e) = [(e.channel, e.text ++ [Byte.newline])] := by
  cases e <;> rfl

theorem writes_events (log : Log) :
    writes (log.flatMap (event CommandLine.batchEvent)) = log.writes := by
  induction log with
  | nil => rfl
  | cons e log ih =>
      rw [List.flatMap_cons, Emission.writes_append, writes_event, ih]
      rfl

theorem writes_statement (s : Stmt) (done : Execution) :
    writes (statement CommandLine.batchEvent s done) = done.log.writes := by
  unfold statement
  rw [List.cons_append, Emission.writes_debug, Emission.writes_append, writes_events]
  split <;> exact List.append_nil _

/-- A program in order shows the log of its execution. -/
theorem writes_program (o : Options) (s : Store) {p : Program}
    (hp : ∀ stmt ∈ p, stmt.isWellFormed = true) :
    writes (program CommandLine.batchEvent o s p) = (p.execute o s).log.writes := by
  rw [program, Emission.writes_debug]
  induction p generalizing s with
  | nil => rfl
  | cons stmt rest ih =>
      have hfirst := Stmt.fault?_execute o s (hp stmt List.mem_cons_self)
      have hrest := ih (stmt.execute o s).store fun t ht => hp t (List.mem_cons_of_mem _ ht)
      rw [Program.executeEach, List.zip_cons_cons, List.flatMap_cons, Emission.writes_append,
        writes_statement, hrest, Program.execute_cons_of_none rest hfirst]
      exact List.map_append.symm

end Narration

/-! ## The program and batch runs -/

namespace Batch

theorem received_allWrites (o : Options) (s : Source) (c : Channel) :
    (run o s .unlimited).outlets.received c =
      (Transcript.linesOf c (allWrites o s)).flatten := by
  have htakes := Outlets.open_unlimited.unlimited.takes (allWrites o s)
  rw [outlets_run_of_takes o s htakes, htakes.received_putAll, Outlets.received_unlimited,
    Outlets.offered_eq_linesOf rfl, List.nil_append]

/-- There are no colour codes in results. -/
theorem dropCodes_of_mem_allWrites {o : Options} {s : Source} {line : Bytes}
    (h : line ∈ Transcript.linesOf .results (allWrites o s)) : Markup.dropCodes line = line := by
  apply Markup.dropCodes_of_notMem
  obtain ⟨t, failure?⟩ := s
  cases failure? with
  | some reason => cases h
  | none =>
      rw [allWrites, (linesOf_writes o t).1] at h
      obtain ⟨n, -, rfl⟩ := List.mem_map.mp h
      have hnumeral : (27 : UInt8) ∉ Decimal.ofInt64 n :=
        Decimal.notMem_ofInt (by decide) (by decide) n.toInt
      simpa [Byte.newline] using hnumeral

end Batch

namespace CommandLine

open Emission (writes)

/-- **What the program emits for a source** is, messages apart, what a batch run would
like to write. -/
theorem writes_runSource (o : Options) (s : Source) :
    writes (runSource o s).emitted = Batch.allWrites o s := by
  have hreports (errors : List SyntaxError) :
      writes (errors.map fun e => .err e.reportLine) = Batch.reports errors := by
    rw [writes, List.filterMap_map]
    exact congrFun List.filterMap_eq_map errors
  have hprogram : writes (Narration.program batchEvent o .empty s.program) =
      (s.program.execute o .empty).log.writes :=
    Narration.writes_program o .empty fun stmt => Parsed.isWellFormed_of_mem_program
  obtain ⟨t, failure?⟩ := s
  have hread := Narration.writes_source false ⟨t, failure?⟩
  cases failure? with
  | some reason => simp [runSource, Source.error?, hread, Batch.allWrites]
  | none =>
      simp only [Source.program] at hprogram
      rw [Batch.allWrites, Batch.writes, ← hreports]
      unfold runSource Source.error? Source.program
      cases herrors : (Parsed.ofText t).errors with
      | nil => simp [hread, hprogram, Narration.newStore]
      | cons e more => simp [hread, hprogram, Narration.newStore]

theorem status_runSource (o : Options) (s : Source) (w : Outlets) :
    (runSource o s).status = (Batch.run o s w).status := by
  unfold runSource Batch.run
  cases s.error? with
  | none => rfl
  | some e => cases e <;> rfl

/--
**The program runs a source like a batch run.**  It ends with the same status as a batch
run whose writes are never refused.  Standard output is what comes out of the channel of
results, and standard error, at every level, is what comes out of the channel of
diagnostics once the trace messages are taken out of it.
-/
theorem runSource_agrees_with_run (o : Options) (s : Source) (level : TraceLevel) :
    let shown := runSource o s
    let run := Batch.run o s .unlimited
    shown.status = run.status ∧
      (shown.outcome level).out = run.outlets.received .results ∧
      (shown.emitted.filter fun e => e.write?.isSome).flatMap (Emission.onErr level) =
        run.outlets.received .diagnostics := by
  intro shown run
  refine ⟨status_runSource o s _, ?_, ?_⟩
  · show shown.emitted.flatMap Emission.onOut = _
    rw [Emission.flatMap_onOut, writes_runSource, Batch.received_allWrites,
      List.flatten_eq_flatMap]
    exact List.flatMap_congr fun line hline => Batch.dropCodes_of_mem_allWrites hline
  · rw [Emission.flatMap_onErr, writes_runSource, Batch.received_allWrites]

/-- A session never leaves standard input to be run as a program. -/
theorem interactive_ne_program (o o' : Options) (colouring : Colouring) (files : FileSystem)
    (name : Bytes) : (interactive o colouring files name).2 ≠ .program o' := by
  dsimp only [interactive]
  split
  · exact nofun
  · split
    · exact nofun
    · split <;> exact nofun

/-- If standard input is left to be run, nothing has been emitted for it. -/
theorem emitted_batch {o o' : Options} {files : FileSystem} {name : Bytes}
    (h : (batch o files name).2 = .program o') : (batch o files name).1 = [] := by
  unfold batch at h ⊢
  split
  · rfl
  · next hname =>
    rw [if_neg hname] at h
    split at h <;> cases h

theorem onOut_work {inv : Invocation} {a : Arguments} {o : Options}
    (h : (work inv a).remaining = .program o) :
    (work inv a).emitted.flatMap Emission.onOut = [] := by
  cases hinteractive : a.interactive with
  | true =>
      simp only [work, hinteractive, if_true] at h
      exact absurd h (interactive_ne_program _ _ _ _ _)
  | false =>
      simp only [work, hinteractive] at h ⊢
      rw [if_neg Bool.false_ne_true] at h ⊢
      rw [emitted_batch h]
      rfl

/-- The help command leaves nothing to do. -/
theorem remaining_helpCommand (arguments : List Bytes) :
    ∃ status, (helpCommand arguments).remaining = .nothing status := by
  dsimp only [helpCommand]
  split
  · exact ⟨_, rfl⟩
  · split
    · exact ⟨_, rfl⟩
    · split
      · exact ⟨_, rfl⟩
      · split <;> exact ⟨_, rfl⟩

end CommandLine

namespace Invocation

/-- A run that is not over before standard input is read was asked to do some work. -/
theorem plan_cases (inv : Invocation) :
    inv.plan = CommandLine.work inv (Arguments.parse inv.arguments) ∨
      ∃ status, inv.plan.remaining = .nothing status := by
  dsimp only [plan]
  split
  · exact .inr ⟨_, rfl⟩
  · exact .inr ⟨_, rfl⟩
  · split
    · exact .inr ⟨_, rfl⟩
    · split
      · split
        · exact .inr (CommandLine.remaining_helpCommand _)
        · exact .inl rfl
      · exact .inl rfl

/-- **A program on standard input**: the exit status and standard output of the whole
program are those of a batch run. -/
theorem run_standard_input {inv : Invocation} {o : Options}
    (h : inv.plan.remaining = .program o) (input : Bytes) :
    let run := Batch.run o ⟨input, none⟩ .unlimited
    (inv.run input).status = run.status ∧ (inv.run input).out = run.outlets.received .results := by
  intro run
  obtain ⟨hstatus, hout, -⟩ :=
    CommandLine.runSource_agrees_with_run o ⟨input, none⟩ inv.plan.level
  have hperform : inv.plan.remaining.perform input = CommandLine.runSource o ⟨input, none⟩ := by
    rw [h]
    rfl
  have hplan : inv.plan.emitted.flatMap Emission.onOut = [] := by
    rcases inv.plan_cases with hwork | ⟨status, hnothing⟩
    · rw [hwork] at h ⊢
      exact CommandLine.onOut_work h
    · rw [hnothing] at h
      cases h
  refine ⟨?_, ?_⟩
  · show (inv.plan.remaining.perform input).status = _
    rw [hperform, hstatus]
  · show (inv.plan.emitted ++ (inv.plan.remaining.perform input).emitted).flatMap _ = _
    rw [hperform, List.flatMap_append, hplan]
    exact hout

example (files : FileSystem) :
    (plan ⟨[utf8 "-strict"], [], files⟩).remaining = .program { strict := true } := by rfl

end Invocation

end LineCalculator
