import Mathlib.Data.List.Induction
import LineCalculator.Output.LineSink

/-!
# Writers that run full

A writer with a budget takes that many chunks and refuses all later ones.  So
whatever it is offered, it takes a beginning of it (`Writer.writeAll_eq`), and
what two channels hand over to their writers is told apart by channel, or not at
all if they share one (`Outlets.offered`).  Together this says what comes out of
a channel when chunks are written without looking at the answers
(`Outlets.received_putAll`).

A line sink does look at the answers.  It sends lines as long as the budgets
last (`Outlets.Takes`), and stops for good at the first line whose writer is full
(`Outlets.Full`).  Every list of lines is of one of these two shapes
(`Outlets.takes_or_full`), and in both the sink has written a beginning of the
lines and nothing else.

## Main results

* `Outlets.received_putAll` — what comes out of a channel.
* `Outlets.Takes.sendAll`, `Outlets.Full.sendAll` — what a line sink has written
  and remembers.
-/

namespace LineCalculator

/-! ## One writer -/

namespace Writer

/-- Writes chunks in order, whether they are taken or not. -/
def writeAll (w : Writer) (chunks : List Bytes) : Writer :=
  chunks.foldl (fun w chunk => (w.write chunk).1) w

/-- The chunks that a writer takes of those it is offered. -/
def accepted (w : Writer) (chunks : List Bytes) : List Bytes :=
  match w.budget? with
  | none => chunks
  | some n => chunks.take n

theorem accepted_isPrefix (w : Writer) (chunks : List Bytes) : w.accepted chunks <+: chunks := by
  unfold accepted
  split
  · exact List.prefix_refl _
  · exact List.take_prefix _ _

theorem writeAll_eq (w : Writer) (chunks : List Bytes) : w.writeAll chunks =
    ⟨w.budget?.map (· - chunks.length), w.refusal, (w.accepted chunks).reverse ++ w.taken⟩ := by
  induction chunks generalizing w with
  | nil =>
      obtain ⟨budget?, refusal, taken⟩ := w
      cases budget? <;> simp [writeAll, accepted]
  | cons chunk chunks ih =>
      obtain ⟨budget?, refusal, taken⟩ := w
      show writeAll (write ⟨budget?, refusal, taken⟩ chunk).1 chunks = _
      rw [ih]
      cases budget? with
      | none => simp [write, accepted]
      | some n =>
          cases n with
          | zero => simp [write, accepted]
          | succ n => simp [write, accepted]

theorem content_writeAll (w : Writer) (chunks : List Bytes) :
    (w.writeAll chunks).content = w.content ++ (w.accepted chunks).flatten := by
  rw [writeAll_eq]
  simp [content]

theorem answer_write (w : Writer) (chunk : Bytes) :
    (w.write chunk).2 = if w.budget? = some 0 then some w.refusal else none := by
  obtain ⟨budget?, refusal, taken⟩ := w
  cases budget? with
  | none => rfl
  | some n => cases n <;> rfl

end Writer

/-! ## Two channels -/

namespace Outlets

/-- The writer that a channel ends in. -/
def writer (w : Outlets) (c : Channel) : Writer :=
  if c = .results ∨ w.shared = true then w.out else w.err

theorem received_eq (w : Outlets) (c : Channel) : w.received c = (w.writer c).content := by
  cases c with
  | results => rfl
  | diagnostics => cases hshared : w.shared <;> simp [received, writer, hshared]

theorem answer_put (w : Outlets) (c : Channel) (chunk : Bytes) :
    (w.put c chunk).2 = ((w.writer c).write chunk).2 := by
  cases c <;> cases hshared : w.shared <;> simp [put, writer, hshared]

theorem put_of_budget?_eq_zero {w : Outlets} {c : Channel} (h : (w.writer c).budget? = some 0)
    (chunk : Bytes) : w.put c chunk = (w, some (w.writer c).refusal) := by
  obtain ⟨⟨_, _, _⟩, ⟨_, _, _⟩, shared⟩ := w
  cases c <;> cases shared <;> cases h <;> rfl

theorem shared_put (w : Outlets) (c : Channel) (chunk : Bytes) :
    (w.put c chunk).1.shared = w.shared := by
  cases c <;> cases hshared : w.shared <;> simp [put, hshared]

theorem writer_put (w : Outlets) (c d : Channel) (chunk : Bytes) :
    (w.put c chunk).1.writer d =
      if c = d ∨ w.shared = true then ((w.writer d).write chunk).1 else w.writer d := by
  cases c <;> cases d <;> cases hshared : w.shared <;> simp [put, writer, hshared]

/-- Channels that share a writer have the same one. -/
theorem writer_of_meets {w : Outlets} {c d : Channel} (h : c = d ∨ w.shared = true) :
    w.writer c = w.writer d := by
  rcases h with rfl | hshared
  · rfl
  · simp [writer, hshared]

/-- What the writer of a channel is offered: the chunks of that channel, or all
chunks if the channels share it. -/
def offered (w : Outlets) (d : Channel) (writes : List (Channel × Bytes)) : List Bytes :=
  writes.filterMap fun write => if write.1 = d ∨ w.shared = true then some write.2 else none

theorem offered_append (w : Outlets) (d : Channel) (xs ys : List (Channel × Bytes)) :
    w.offered d (xs ++ ys) = w.offered d xs ++ w.offered d ys := List.filterMap_append

theorem offered_singleton (w : Outlets) (c d : Channel) (chunk : Bytes) :
    w.offered d [(c, chunk)] = if c = d ∨ w.shared = true then [chunk] else [] := by
  by_cases h : c = d ∨ w.shared = true <;> simp [offered, h]

theorem offered_congr {w v : Outlets} (h : w.shared = v.shared) (d : Channel)
    (writes : List (Channel × Bytes)) : w.offered d writes = v.offered d writes := by
  unfold offered
  rw [h]

theorem offered_of_meets {w : Outlets} {c d : Channel} (h : c = d ∨ w.shared = true)
    (writes : List (Channel × Bytes)) : w.offered c writes = w.offered d writes := by
  rcases h with rfl | hshared
  · rfl
  · simp [offered, hshared]

/-- Channels with a writer each. -/
theorem offered_eq_linesOf {w : Outlets} (h : w.shared = false) (d : Channel)
    (writes : List (Channel × Bytes)) : w.offered d writes = Transcript.linesOf d writes := by
  simp [offered, Transcript.linesOf, h]

/-- Writes chunks in order, whether they are taken or not. -/
def putAll (w : Outlets) (writes : List (Channel × Bytes)) : Outlets :=
  writes.foldl (fun w write => (w.put write.1 write.2).1) w

theorem putAll_append (w : Outlets) (xs ys : List (Channel × Bytes)) :
    w.putAll (xs ++ ys) = (w.putAll xs).putAll ys := List.foldl_append

theorem shared_putAll (w : Outlets) (writes : List (Channel × Bytes)) :
    (w.putAll writes).shared = w.shared := by
  induction writes generalizing w with
  | nil => rfl
  | cons write writes ih => exact (ih _).trans (w.shared_put write.1 write.2)

theorem writer_putAll (w : Outlets) (d : Channel) (writes : List (Channel × Bytes)) :
    (w.putAll writes).writer d = (w.writer d).writeAll (w.offered d writes) := by
  induction writes generalizing w with
  | nil => rfl
  | cons write writes ih =>
      obtain ⟨c, chunk⟩ := write
      have hsame := offered_congr (w.shared_put c chunk) d writes
      have hsplit : w.offered d ((c, chunk) :: writes) =
          w.offered d [(c, chunk)] ++ w.offered d writes := w.offered_append d [(c, chunk)] writes
      show ((w.put c chunk).1.putAll writes).writer d = _
      rw [ih, hsame, writer_put, hsplit, offered_singleton]
      by_cases hmeets : c = d ∨ w.shared = true
      · rw [if_pos hmeets, if_pos hmeets]
        rfl
      · rw [if_neg hmeets, if_neg hmeets]
        rfl

/-- **What comes out of a channel** when chunks are written: of what its writer
is offered, as much as the budget allows. -/
theorem received_putAll (w : Outlets) (d : Channel) (writes : List (Channel × Bytes)) :
    (w.putAll writes).received d =
      w.received d ++ ((w.writer d).accepted (w.offered d writes)).flatten := by
  rw [received_eq, writer_putAll, Writer.content_writeAll, received_eq]

/-! ## Budgets that last -/

/-- The budgets last for all of these. -/
def Takes (w : Outlets) (sent : List (Channel × Bytes)) : Prop :=
  ∀ c n, (w.writer c).budget? = some n → (w.offered c sent).length ≤ n

/-- The budget of a channel's writer is used up by these. -/
def Full (w : Outlets) (sent : List (Channel × Bytes)) (c : Channel) : Prop :=
  ∃ n, (w.writer c).budget? = some n ∧ n ≤ (w.offered c sent).length

theorem takes_nil (w : Outlets) : w.Takes [] := fun _ n _ => Nat.zero_le n

/-- The next one is taken exactly if its writer is not full. -/
theorem takes_append_singleton (w : Outlets) (sent : List (Channel × Bytes)) (c : Channel)
    (chunk : Bytes) : w.Takes (sent ++ [(c, chunk)]) ↔ w.Takes sent ∧ ¬ w.Full sent c := by
  have hlength : ∀ d, (w.offered d (sent ++ [(c, chunk)])).length =
      (w.offered d sent).length + if c = d ∨ w.shared = true then 1 else 0 := by
    intro d
    rw [offered_append, List.length_append, offered_singleton]
    split <;> rfl
  constructor
  · intro h
    refine ⟨fun d n hn => ?_, ?_⟩
    · have hle := h d n hn
      rw [hlength] at hle
      omega
    · rintro ⟨n, hn, hfull⟩
      have hle := h c n hn
      rw [hlength, if_pos (.inl rfl)] at hle
      omega
  · rintro ⟨htakes, hroom⟩ d n hn
    rw [hlength]
    by_cases hmeets : c = d ∨ w.shared = true
    · have hlt : ¬ n ≤ (w.offered c sent).length := by
        rw [← writer_of_meets hmeets] at hn
        exact fun hfull => hroom ⟨n, hn, hfull⟩
      rw [offered_of_meets hmeets] at hlt
      rw [if_pos hmeets]
      omega
    · rw [if_neg hmeets]
      exact htakes d n hn

/-- Either the budgets last to the end, or there is a first one whose writer is
full. -/
theorem takes_or_full (w : Outlets) (sent : List (Channel × Bytes)) :
    w.Takes sent ∨ ∃ before c chunk after, sent = before ++ (c, chunk) :: after ∧
      w.Takes before ∧ w.Full before c := by
  induction sent using List.reverseRecOn with
  | nil => exact .inl w.takes_nil
  | append_singleton sent last ih =>
      obtain ⟨c, chunk⟩ := last
      rcases ih with htakes | ⟨before, d, chunk', after, rfl, htakes, hfull⟩
      · by_cases hfull : w.Full sent c
        · exact .inr ⟨sent, c, chunk, [], rfl, htakes, hfull⟩
        · exact .inl ((w.takes_append_singleton sent c chunk).mpr ⟨htakes, hfull⟩)
      · refine .inr ⟨before, d, chunk', after ++ [(c, chunk)], ?_, htakes, hfull⟩
        rw [List.append_assoc, List.cons_append]

/-- What was taken leaves room for the rest. -/
theorem Takes.of_append {w : Outlets} {xs ys : List (Channel × Bytes)} (h : w.Takes (xs ++ ys)) :
    (w.putAll xs).Takes ys := by
  intro c n hn
  rw [writer_putAll, Writer.writeAll_eq] at hn
  obtain ⟨m, hm, rfl⟩ := Option.map_eq_some_iff.mp hn
  have hle := h c m hm
  rw [offered_append, List.length_append] at hle
  rw [offered_congr (w.shared_putAll xs)]
  omega

/-- Where the budgets last, all of it comes out. -/
theorem Takes.received_putAll {w : Outlets} {sent : List (Channel × Bytes)} (h : w.Takes sent)
    (c : Channel) : (w.putAll sent).received c = w.received c ++ (w.offered c sent).flatten := by
  have hall : (w.writer c).accepted (w.offered c sent) = w.offered c sent := by
    unfold Writer.accepted
    split
    · rfl
    · next n hn => exact List.take_of_length_le (h c n hn)
  rw [Outlets.received_putAll, hall]

/-- No write is ever refused. -/
def Unlimited (w : Outlets) : Prop := ∀ c, (w.writer c).budget? = none

theorem Unlimited.takes {w : Outlets} (h : w.Unlimited) (sent : List (Channel × Bytes)) :
    w.Takes sent := by
  intro c n hn
  rw [h c] at hn
  cases hn

/-- A writer is full when the chunks that it was offered have used up its budget. -/
theorem budget?_writer_putAll (w : Outlets) (sent : List (Channel × Bytes)) (c : Channel) :
    ((w.putAll sent).writer c).budget? = some 0 ↔ w.Full sent c := by
  rw [writer_putAll, Writer.writeAll_eq]
  show (w.writer c).budget?.map (· - (w.offered c sent).length) = some 0 ↔ _
  unfold Full
  cases (w.writer c).budget? with
  | none => simp
  | some n =>
      simp only [Option.map_some, Option.some.injEq, exists_eq_left']
      omega

/-- A chunk is taken if its writer is not full. -/
theorem answer_put_of_not_full {w : Outlets} {sent : List (Channel × Bytes)} {c : Channel}
    (h : ¬ w.Full sent c) (chunk : Bytes) : ((w.putAll sent).put c chunk).2 = none := by
  rw [answer_put, Writer.answer_write, if_neg (mt (w.budget?_writer_putAll sent c).mp h)]

/-- A full writer refuses a chunk and stays as it is. -/
theorem Full.put {w : Outlets} {sent : List (Channel × Bytes)} {c : Channel}
    (h : w.Full sent c) (chunk : Bytes) :
    (w.putAll sent).put c chunk = (w.putAll sent, some (w.writer c).refusal) := by
  have hbudget := (w.budget?_writer_putAll sent c).mpr h
  have hrefusal : ((w.putAll sent).writer c).refusal = (w.writer c).refusal := by
    rw [writer_putAll, Writer.writeAll_eq]
  rw [put_of_budget?_eq_zero hbudget, hrefusal]

end Outlets

/-! ## The line sink -/

/-- Lines as they are written. -/
def framed (lines : List (Channel × Bytes)) : List (Channel × Bytes) :=
  lines.map fun line => (line.1, line.2 ++ [Byte.newline])

theorem framed_append (xs ys : List (Channel × Bytes)) :
    framed (xs ++ ys) = framed xs ++ framed ys := List.map_append

namespace Outlets

theorem offered_framed (w : Outlets) (c : Channel) (lines : List (Channel × Bytes)) :
    w.offered c (framed lines) = (w.offered c lines).map (· ++ [Byte.newline]) := by
  unfold offered framed
  rw [List.filterMap_map, List.map_filterMap]
  congr 1
  funext line
  by_cases h : line.1 = c ∨ w.shared = true <;> simp [h]

theorem takes_framed (w : Outlets) (lines : List (Channel × Bytes)) :
    w.Takes (framed lines) ↔ w.Takes lines := by
  simp only [Takes, offered_framed, List.length_map]

theorem full_framed (w : Outlets) (lines : List (Channel × Bytes)) (c : Channel) :
    w.Full (framed lines) c ↔ w.Full lines c := by
  unfold Full
  rw [offered_framed, List.length_map]

end Outlets

namespace LineSink

/-- Sends lines in order. -/
def sendAll (s : LineSink) (lines : List (Channel × Bytes)) : LineSink :=
  lines.foldl (fun s line => s.send line.1 line.2) s

theorem sendAll_append (s : LineSink) (xs ys : List (Channel × Bytes)) :
    s.sendAll (xs ++ ys) = (s.sendAll xs).sendAll ys := List.foldl_append

theorem sendLog_eq_sendAll (s : LineSink) (log : Log) :
    s.sendLog log = s.sendAll (log.map fun e => (e.channel, e.text)) := by
  rw [sendLog, sendAll, List.foldl_map]

/-- A sink that remembers an error does nothing any more. -/
theorem sendAll_of_error (w : Outlets) (error : Bytes) (lines : List (Channel × Bytes)) :
    sendAll ⟨w, some error⟩ lines = ⟨w, some error⟩ := by
  induction lines with
  | nil => rfl
  | cons line lines ih => exact ih

theorem send_eq (w : Outlets) (c : Channel) (line : Bytes) : send ⟨w, none⟩ c line =
    ⟨(w.put c (line ++ [Byte.newline])).1, (w.put c (line ++ [Byte.newline])).2⟩ := rfl

end LineSink

namespace Outlets

variable {w : Outlets}

/-- **A line sink whose budgets last** has written all lines and remembers no
error. -/
theorem Takes.sendAll {lines : List (Channel × Bytes)} (h : w.Takes lines) :
    LineSink.sendAll ⟨w, none⟩ lines = ⟨w.putAll (framed lines), none⟩ := by
  induction lines using List.reverseRecOn with
  | nil => rfl
  | append_singleton lines last ih =>
      obtain ⟨c, line⟩ := last
      obtain ⟨htakes, hroom⟩ := (w.takes_append_singleton lines c line).mp h
      have hanswer := answer_put_of_not_full (mt (w.full_framed lines c).mp hroom)
        (line ++ [Byte.newline])
      rw [LineSink.sendAll_append, ih htakes, framed_append, putAll_append]
      show LineSink.send ⟨w.putAll (framed lines), none⟩ c line = _
      rw [LineSink.send_eq, hanswer]
      rfl

/-- **A line sink that meets a full writer** has written the lines before that
and remembers what that writer said, whatever it is given after that. -/
theorem Full.sendAll {before : List (Channel × Bytes)} {c : Channel} (hfull : w.Full before c)
    (htakes : w.Takes before) (line : Bytes) (after : List (Channel × Bytes)) :
    LineSink.sendAll ⟨w, none⟩ (before ++ (c, line) :: after) =
      ⟨w.putAll (framed before), some (w.writer c).refusal⟩ := by
  have hput := Full.put ((w.full_framed before c).mpr hfull) (line ++ [Byte.newline])
  rw [LineSink.sendAll_append, htakes.sendAll]
  show LineSink.sendAll (LineSink.send ⟨w.putAll (framed before), none⟩ c line) after = _
  rw [LineSink.send_eq, hput]
  exact LineSink.sendAll_of_error _ _ after

theorem error?_sendAll (w : Outlets) (lines : List (Channel × Bytes)) :
    (LineSink.sendAll ⟨w, none⟩ lines).error? = none ↔ w.Takes lines := by
  constructor
  · intro hnone
    rcases w.takes_or_full lines with htakes | ⟨before, c, line, after, rfl, htakes, hfull⟩
    · exact htakes
    · rw [hfull.sendAll htakes] at hnone
      cases hnone
  · intro htakes
    rw [htakes.sendAll]

end Outlets

end LineCalculator
