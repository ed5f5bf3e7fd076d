import LineCalculator.Proofs.Running
import LineCalculator.Session

/-!
# Sessions against batch runs

A session takes lines one at a time: it sorts commands out, counts the other
lines, parses each of them with its number and executes it at once. A batch run
takes a text: it parses all lines first, leaves out the refused ones, and then
executes what is left. Both are meant to do the same with the lines that are not
commands.

One line at a time this is a matter of three cases (`step_of_isCommand`,
`step_of_ok`, `step_of_error`). A command leaves the session as it is and gives
no event; a line that can be parsed is counted and its statement executed; a
refused line is only counted. The run lemma `stepEach_eq_execute` follows by
induction on the lines, for a session at any point. What the batch run has in
hand at that point is the program of the lines to come, numbered from the next
number of the session.

## Main results

* `Session.stepEach_eq_execute` — a session executes the program of its lines.
* `Session.load_readable` — loading executes the program of a text.
* `session_agrees_with_batch` — a session and a batch run give the same.
-/

namespace LineCalculator

/-- Is the line a command to the session? -/
def SessionLine.isCommand (line : Bytes) : Bool := startsWithColon line.trim

/-- The lines that are not commands. -/
def SessionLine.statements (ls : List Bytes) : List Bytes := ls.filter fun l => !isCommand l

namespace Session

open SessionLine

/-- A session that has just begun, with a program loaded if there is one. -/
def opened (o : Options) : Option Bytes → Loaded
  | none => ⟨true, [], [], start o⟩
  | some t => (start o).load ⟨t, none⟩

/-- The session behind lines. -/
def behind (s : Session) (ls : List Bytes) : Session :=
  ((s.stepEach ls).getLast?.map Prod.snd).getD s

/-- The events that lines have given, in order. -/
def logOf (s : Session) (ls : List Bytes) : Log := (s.stepEach ls).flatMap fun answer => answer.1.log

/-- The errors that were answered to lines which are not commands, in order. -/
def refusals (s : Session) (ls : List Bytes) : List SessionError :=
  (ls.zip (s.stepEach ls)).filterMap fun (line, answer) =>
    if isCommand line then none else answer.1.error?

/-! ## One line -/

theorem log_command (s : Session) (word : Bytes) (argument? : Option Bytes) :
    (s.command word argument?).log = [] := by
  unfold command
  split
  · rfl
  · split
    · rfl
    · split
      · cases argument? with
        | none => rfl
        | some argument => cases hparse : parseLine argument 0 <;> simp only [hparse]
      · rfl

/-- A command leaves the session as it is and gives no event. -/
theorem step_of_isCommand (s : Session) {line : Bytes} (h : isCommand line = true) :
    (s.step line).2 = s ∧ (s.step line).1.log = [] := by
  have hcommand : ∃ word argument?, SessionLine.ofText line = .command word argument? := by
    unfold isCommand at h
    rw [SessionLine.ofText, if_pos h, splitCommand]
    split
    · exact ⟨_, _, rfl⟩
    · exact ⟨_, _, rfl⟩
  obtain ⟨word, argument?, hline⟩ := hcommand
  rw [step, hline]
  exact ⟨rfl, s.log_command word argument?⟩

theorem step_of_not_isCommand (s : Session) {line : Bytes} (h : isCommand line = false) :
    s.step line = s.statement line := by
  have hline : SessionLine.ofText line = .statement line := by
    unfold isCommand at h
    rw [SessionLine.ofText, if_neg (Bool.eq_false_iff.mp h)]
  rw [step, hline]

/-- A line that can be parsed is counted and executed. -/
theorem step_of_ok (s : Session) {line : Bytes} {stmt : Stmt} (h : isCommand line = false)
    (hparse : parseLine line (s.count + 1 : Nat) = .ok stmt) :
    s.step line = ({ log := (stmt.execute s.options s.store).log },
      ⟨s.options, (stmt.execute s.options s.store).store, s.count + 1⟩) := by
  rw [step_of_not_isCommand s h, statement]
  simp only [hparse]

/-- A refused line is only counted. -/
theorem step_of_error (s : Session) {line : Bytes} {e : SyntaxError} (h : isCommand line = false)
    (hparse : parseLine line (s.count + 1 : Nat) = .error e) :
    s.step line = ({ error? := some (.refused e) }, ⟨s.options, s.store, s.count + 1⟩) := by
  rw [step_of_not_isCommand s h, statement]
  simp only [hparse]

/-! ## Many lines -/

theorem behind_cons (s : Session) (line : Bytes) (ls : List Bytes) :
    s.behind (line :: ls) = (s.step line).2.behind ls := by
  unfold behind
  rw [stepEach, List.getLast?_cons]
  cases ((s.step line).2.stepEach ls).getLast? <;> rfl

theorem logOf_cons (s : Session) (line : Bytes) (ls : List Bytes) :
    s.logOf (line :: ls) = (s.step line).1.log ++ (s.step line).2.logOf ls := rfl

theorem refusals_cons (s : Session) (line : Bytes) (ls : List Bytes) :
    s.refusals (line :: ls) =
      (if isCommand line then none else (s.step line).1.error?).toList ++
        (s.step line).2.refusals ls := by
  unfold refusals
  rw [stepEach, List.zip_cons_cons, List.filterMap_cons]
  simp only
  cases (if isCommand line then none else (s.step line).1.error?) <;> rfl

/-- **A session executes the program of its lines**, commands left out, and
answers with the errors of the refused ones. -/
theorem stepEach_eq_execute (s : Session) (ls : List Bytes) :
    let parsed := Parsed.ofLines (s.count + 1) (statements ls)
    let run := parsed.program.execute s.options s.store
    s.logOf ls = run.log ∧
      s.behind ls = ⟨s.options, run.store, s.count + (statements ls).length⟩ ∧
      s.refusals ls = parsed.errors.map .refused := by
  induction ls generalizing s with
  | nil => exact ⟨rfl, rfl, rfl⟩
  | cons line ls ih =>
      rw [logOf_cons, behind_cons, refusals_cons]
      cases hcommand : isCommand line with
      | true =>
          obtain ⟨hsession, hlog⟩ := s.step_of_isCommand hcommand
          have hstatements : statements (line :: ls) = statements ls := by
            simp [statements, hcommand]
          rw [hsession, hlog, hstatements]
          exact ih s
      | false =>
          have hstatements : statements (line :: ls) = line :: statements ls := by
            simp [statements, hcommand]
          have hcount : s.count + 1 + (statements ls).length =
              s.count + ((statements ls).length + 1) := by omega
          rw [hstatements, Parsed.ofLines, List.length_cons]
          cases hparse : parseLine line (s.count + 1 : Nat) with
          | ok stmt =>
              rw [s.step_of_ok hcommand hparse]
              obtain ⟨hlog, hbehind, hrefusals⟩ :=
                ih ⟨s.options, (stmt.execute s.options s.store).store, s.count + 1⟩
              have hwf : stmt.isWellFormed = true :=
                (readsBack_of_parseLine hparse).spellable.isWellFormed
              simp only [Parsed.cons]
              rw [Program.execute_cons_of_none _ (Stmt.fault?_execute s.options s.store hwf),
                hlog, hbehind, hrefusals, hcount]
              exact ⟨rfl, rfl, rfl⟩
          | error e =>
              rw [s.step_of_error hcommand hparse]
              obtain ⟨hlog, hbehind, hrefusals⟩ := ih ⟨s.options, s.store, s.count + 1⟩
              rw [hlog, hbehind, hrefusals, hcount]
              exact ⟨rfl, rfl, rfl⟩

/-- Loading a text that can be read executes the program of its lines. -/
theorem load_readable (s : Session) (t : Bytes) :
    let run := (Parsed.ofText t).program.execute s.options s.store
    (s.load ⟨t, none⟩).ok = true ∧ (s.load ⟨t, none⟩).log = run.log ∧
      (s.load ⟨t, none⟩).session = ⟨s.options, run.store, s.count⟩ := by
  unfold load Source.error? Source.program
  cases herrors : (Parsed.ofText t).errors with
  | nil => simp
  | cons e more => simp

end Session

open SessionLine in
/--
**A session and a batch run give the same.** A session is begun, a program is
loaded into it or not, and lines are typed. Let `typed` be the text of those
lines that are not commands. Then the events of the session, the variables it
lists and the number of lines it has counted are those of executing, in a fresh
store, the loaded program and behind it the program of `typed`; the run comes to
its end; and the errors that the session answered to those lines are the syntax
errors of `typed`. A command, wherever it stands, leaves the session as it is
and gives no event.
-/
theorem session_agrees_with_batch (o : Options) (init? : Option Bytes) (ls : List Bytes)
    (hls : ∀ l ∈ ls, Byte.newline ∉ l ∧ l.getLast? ≠ some Byte.carriageReturn) :
    let opened := Session.opened o init?
    let typed := (statements ls).flatMap fun l => l ++ [Byte.newline]
    let loaded := (init?.map fun t => (Parsed.ofText t).program).getD []
    let run := (loaded ++ (Parsed.ofText typed).program).execute o .empty
    opened.ok = true ∧ run.fault? = none ∧
      opened.log ++ opened.session.logOf ls = run.log ∧
      (opened.session.behind ls).listing =
        run.store.table.entries.map (fun b => b.1 ++ utf8 " = " ++ Decimal.ofInt64 b.2) ∧
      opened.session.behind ls = ⟨o, run.store, (statements ls).length⟩ ∧
      opened.session.refusals ls = (Parsed.ofText typed).errors.map .refused ∧
      ∀ (s : Session) (l : Bytes), isCommand l = true →
        (s.step l).2 = s ∧ (s.step l).1.log = [] := by
  intro opened typed loaded run
  have hlines : lines typed = statements ls :=
    lines_flatMap_newline fun l hl => hls l (List.mem_filter.mp hl).1
  have htyped : Parsed.ofText typed = Parsed.ofLines 1 (statements ls) := by
    rw [Parsed.ofText, hlines]
  -- What the session is when the first line is typed.
  have hopened : opened.ok = true ∧ opened.log = (loaded.execute o .empty).log ∧
      opened.session = ⟨o, (loaded.execute o .empty).store, 0⟩ := by
    cases init? with
    | none => exact ⟨rfl, rfl, rfl⟩
    | some t => exact Session.load_readable (.start o) t
  obtain ⟨hok, hlog, hsession⟩ := hopened
  have hloaded : (loaded.execute o .empty).fault? = none := by
    cases init? with
    | none => rfl
    | some t => exact Program.fault?_execute o .empty fun _ => Parsed.isWellFormed_of_mem_program
  have hrun : run = _ := Program.execute_append (Parsed.ofText typed).program hloaded
  obtain ⟨hlater, hbehind, hrefusals⟩ := Session.stepEach_eq_execute opened.session ls
  rw [hsession, ← htyped] at hlater hbehind hrefusals
  rw [Nat.zero_add] at hbehind
  have hfinal : opened.session.behind ls = ⟨o, run.store, (statements ls).length⟩ := by
    rw [hsession, hbehind, hrun]
  refine ⟨hok, ?_, ?_, ?_, hfinal, ?_, fun s l hl => s.step_of_isCommand hl⟩
  · rw [hrun]
    exact Program.fault?_execute o _ fun _ => Parsed.isWellFormed_of_mem_program
  · rw [hlog, hsession, hlater, hrun]
  · rw [hfinal]
    rfl
  · rw [hsession, hrefusals]

/-- Commands, a refused line and statements mixed, behind a loaded program. -/
theorem session_agrees_with_batch_mixed :
    let ls := [utf8 ":oops", utf8 "x = x + 1", utf8 ")", utf8 " :vars", utf8 "x + y"]
    let opened := Session.opened ⟨true, false⟩ (some (utf8 "x = 1"))
    (∀ l ∈ ls, Byte.newline ∉ l ∧ l.getLast? ≠ some Byte.carriageReturn) ∧
      opened.session.refusals ls =
        (Parsed.ofText (utf8 "x = x + 1\n)\nx + y\n")).errors.map .refused := by
  intro ls opened
  have hls : ∀ l ∈ ls, Byte.newline ∉ l ∧ l.getLast? ≠ some Byte.carriageReturn := by decide
  have hrefusals := (session_agrees_with_batch ⟨true, false⟩ (some (utf8 "x = 1")) ls hls)
    |>.2.2.2.2.2.1
  refine ⟨hls, ?_⟩
  have htyped : (SessionLine.statements ls).flatMap (fun l => l ++ [Byte.newline]) =
      utf8 "x = x + 1\n)\nx + y\n" := by decide +kernel
  rw [htyped] at hrefusals
  exact hrefusals

end LineCalculator
