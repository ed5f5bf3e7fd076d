import LineCalculator.Proofs.Parsing
import LineCalculator.Proofs.Scanning
import Mathlib.Data.List.Infix

/-!
# A line is refused at its first offending token

A syntax error names a token. This module says which one it is, in terms of the
grammar alone: what stands before the token can still go on to a sentence, and
together with the token it can not, whatever follows. The end of the line counts
as a token here, so a line that breaks off too early is refused at its end.

Both halves come from the state in which the automaton stops.

* **Before the token.** Every state can be brought to its end: a state that waits
  for an operand is given a number, and then all open levels are closed
  (`exists_completion`). So whatever leads the automaton to some state begins a
  sentence.
* **With the token.** The automaton reads every sentence to its end, so a sentence
  that starts with the same tokens would lead it to the same state, where it does
  not go on.

On top of that two tokens decide whether a line is an assignment, and the error of
a line that is none must not be one that an assignment would not have had
(`offends_of_not_assignment`).

## Main results

* `ParseState.offends_of_run` — where an expression is refused.
* `parseTokens_error` — where a statement is refused.
* `parseLine_error_first_offence` — where a line is refused.
-/

namespace LineCalculator

/-! ## Sentences and offending tokens -/

/-- The tokens are a sentence of the grammar of statements. -/
def Sentence (ts : List Token) : Prop := ∃ line s, DerivesStmt line ts s

/-- The token offends behind the tokens before it: they begin a sentence of the
language, but with it they begin none, not even one with the end of the line
behind it. -/
structure Offends (language : List Token → Prop) (before : List Token) (t : Token) : Prop where
  viable : ∃ w, language w ∧ before <+: w
  refused : ∀ w eol, language w → eol.kind = .endOfText → ¬ before ++ [t] <+: w ++ [eol]

/-- The tokens that can stand in a sentence: not the end of the line, no illegal
input, and no integer beyond `2 ^ 63 - 1`. -/
structure Token.IsTerminal (t : Token) : Prop where
  not_end : t.kind ≠ .endOfText
  not_illegal : t.kind ≠ .illegal
  inRange : t.kind = .integer → Decimal.value t.lexeme ≤ 9223372036854775807

theorem Token.isTerminal_of_ofByte {t : Token} {b : UInt8} (h : t.kind = .ofByte b) :
    t.IsTerminal := by
  refine ⟨?_, ?_, fun hinteger => ?_⟩
  · rw [h]
    exact Calculator.ofByte_ne_of_neg b (by decide)
  · rw [h]
    exact Calculator.ofByte_ne_of_neg b (by decide)
  · rw [h] at hinteger
    exact absurd hinteger (Calculator.ofByte_ne_of_neg b (by decide))

theorem Token.IsNumber.isTerminal {t : Token} {n : Int64} (h : t.IsNumber n) : t.IsTerminal := by
  refine ⟨?_, ?_, fun _ => h.inRange⟩
  · rw [h.kind]
    decide
  · rw [h.kind]
    decide

theorem Token.IsName.isTerminal {t : Token} (h : t.IsName) : t.IsTerminal := by
  have hkind : t.kind = .identifier := h
  refine ⟨?_, ?_, fun hinteger => ?_⟩
  · rw [hkind]
    decide
  · rw [hkind]
    decide
  · rw [hkind] at hinteger
    cases hinteger

theorem Token.IsSumOp.isTerminal {t : Token} {op : Operator} (h : t.IsSumOp op) :
    t.IsTerminal := by
  rcases h with hkind | hkind
  · exact Token.isTerminal_of_ofByte hkind
  · exact Token.isTerminal_of_ofByte hkind

theorem Token.IsProdOp.isTerminal {t : Token} {op : Operator} (h : t.IsProdOp op) :
    t.IsTerminal := by
  rcases h with hkind | hkind
  · exact Token.isTerminal_of_ofByte hkind
  · exact Token.isTerminal_of_ofByte hkind

theorem Derives.isTerminal {nt : Nonterminal} {ts : List Token} {x : Expr}
    (h : Derives nt ts x) : ∀ t ∈ ts, t.IsTerminal := by
  have hbetween {ts us : List Token} {o : Token} (hts : ∀ t ∈ ts, t.IsTerminal)
      (ho : o.IsTerminal) (hus : ∀ t ∈ us, t.IsTerminal) :
      ∀ t ∈ ts ++ o :: us, t.IsTerminal :=
    List.forall_mem_append.mpr ⟨hts, List.forall_mem_cons.mpr ⟨ho, hus⟩⟩
  induction h with
  | sum _ ho _ ihx ihy => exact hbetween ihx ho.isTerminal ihy
  | ofTerm _ ih => exact ih
  | product _ ho _ ihx ihy => exact hbetween ihx ho.isTerminal ihy
  | ofFactor _ ih => exact ih
  | number hn =>
      intro t ht
      rw [List.mem_singleton.mp ht]
      exact hn.isTerminal
  | name hname =>
      intro t ht
      rw [List.mem_singleton.mp ht]
      exact hname.isTerminal
  | @group o c ts x ho _ hc ih =>
      have hclosed := hbetween ih (Token.isTerminal_of_ofByte hc) (List.forall_mem_nil _)
      exact List.forall_mem_cons.mpr ⟨Token.isTerminal_of_ofByte ho, hclosed⟩

/-- Nothing else stands in a sentence. -/
theorem Sentence.isTerminal {ts : List Token} (h : Sentence ts) : ∀ t ∈ ts, t.IsTerminal := by
  obtain ⟨line, s, hs⟩ := h
  cases hs with
  | @assign t e us x ht he hx =>
      intro u hu
      rcases List.mem_cons.mp hu with rfl | hu
      · exact ht.isTerminal
      · rcases List.mem_cons.mp hu with rfl | hu
        · exact Token.isTerminal_of_ofByte he
        · exact hx.isTerminal u hu
  | print hx => exact hx.isTerminal
  | blank =>
      intro t ht
      cases ht

/-! ## Where the automaton stops -/

namespace ParseState

/-- The tokens lead the automaton from one state to another. -/
inductive Leads : ParseState → List Token → ParseState → Prop
  | nil {s : ParseState} : Leads s [] s
  | cons {s s' s'' : ParseState} {t : Token} {ts : List Token} :
      Transition s t s' → Leads s' ts s'' → Leads s (t :: ts) s''

theorem Leads.run_append {s s' : ParseState} {ts : List Token} (h : Leads s ts s')
    (last : Token) (rest : List Token) : run last s (ts ++ rest) = run last s' rest := by
  induction h with
  | nil => rfl
  | cons ht _ ih => rw [List.cons_append, ht.run_cons, ih]

theorem Leads.reached {s s' : ParseState} {ts us : List Token} (h : Leads s us s')
    (hs : Reached s ts) : Reached s' (ts ++ us) := by
  induction h generalizing ts with
  | nil =>
      rw [List.append_nil]
      exact hs
  | @cons s s' s'' t us ht _ ih =>
      have hnext := ih (hs.step ht)
      rwa [List.append_assoc, List.singleton_append] at hnext

/-- A run that fails does so in a state that some of the tokens lead to: at the
token behind them, or at the end if these are all tokens. -/
theorem exists_leads_of_run {last t : Token} {cause : Cause} {s : ParseState} {ts : List Token}
    (h : run last s ts = .error (t, cause)) : ∃ before s', Leads s before s' ∧
      ((ts = before ∧ t = last ∧ s'.finish = .error cause) ∨
        ∃ after, ts = before ++ t :: after ∧ s'.step t = .error cause) := by
  induction ts generalizing s with
  | nil =>
      rw [run] at h
      cases hfinish : s.finish with
      | ok x =>
          rw [hfinish] at h
          cases h
      | error cause' =>
          rw [hfinish] at h
          cases h
          exact ⟨[], s, .nil, .inl ⟨rfl, rfl, hfinish⟩⟩
  | cons u ts ih =>
      rw [run] at h
      cases hstep : s.step u with
      | ok next =>
          rw [hstep] at h
          obtain ⟨before, s', hleads, hstop⟩ := ih h
          refine ⟨u :: before, s', .cons (step_eq_ok_iff.mp hstep) hleads, ?_⟩
          rcases hstop with ⟨rfl, hlast, hfinish⟩ | ⟨after, rfl, hrefused⟩
          · exact .inl ⟨rfl, hlast, hfinish⟩
          · exact .inr ⟨after, rfl, hrefused⟩
      | error cause' =>
          rw [hstep] at h
          cases h
          exact ⟨[], s, .nil, .inr ⟨ts, rfl, hstep⟩⟩

/-- Behind an operand, closing all levels ends the expression. -/
theorem exists_completion_operator (sum : Pending) (term : Expr) (outer : List Level) :
    ∃ more x, ∀ last, run last (operator sum term outer) more = .ok x := by
  induction outer generalizing sum term with
  | nil => exact ⟨[], sum.close term, fun _ => rfl⟩
  | cons level outer ih =>
      obtain ⟨more, x, hrun⟩ := ih level.sum (level.product.close (.paren (sum.close term)))
      let closing : Token := ⟨.ofByte 41, [41], ⟨0, 1⟩⟩
      have hclosing : closing.IsClosing := rfl
      refine ⟨closing :: more, x, fun last => ?_⟩
      rw [(Transition.closing hclosing).run_cons]
      exact hrun last

/-- Every state can be brought to the end of an expression. -/
theorem exists_completion (s : ParseState) :
    ∃ more x, ∀ last, run last s more = .ok x := by
  cases s with
  | operator sum term outer => exact exists_completion_operator sum term outer
  | operand sum product outer =>
      obtain ⟨more, x, hrun⟩ := exists_completion_operator sum (product.close (.lit 0)) outer
      let zero : Token := ⟨.integer, [48], ⟨0, 1⟩⟩
      have hzero : zero.IsNumber 0 := ⟨rfl, by decide, rfl⟩
      refine ⟨zero :: more, x, fun last => ?_⟩
      rw [(Transition.number hzero).run_cons]
      exact hrun last

/-- What leads the automaton from its start to some state begins an expression. -/
theorem Leads.viable {s : ParseState} {ts : List Token} (h : Leads start ts s) :
    ∃ w, (∃ x, Derives .expr w x) ∧ ts <+: w := by
  obtain ⟨more, x, hrun⟩ := s.exists_completion
  have hreached : Reached s ts := h.reached reached_start
  exact ⟨ts ++ more, ⟨x, hreached.derives_of_run (hrun (Token.atEnd 0))⟩,
    List.prefix_append ts more⟩

/-- No expression goes on with a token that the automaton refuses. -/
theorem Leads.not_derives_cons {s : ParseState} {ts more : List Token} {t : Token}
    {cause : Cause} {x : Expr} (h : Leads start ts s) (hstep : s.step t = .error cause) :
    ¬ Derives .expr (ts ++ t :: more) x := by
  intro hx
  have hrun := (run_start_eq_ok_iff (Token.atEnd 0) _ x).mpr hx
  rw [h.run_append, run, hstep] at hrun
  cases hrun

/-- No expression ends where the automaton does not. -/
theorem Leads.not_derives {s : ParseState} {ts : List Token} {cause : Cause} {x : Expr}
    (h : Leads start ts s) (hfinish : s.finish = .error cause) : ¬ Derives .expr ts x := by
  intro hx
  have hrun := (run_start_eq_ok_iff (Token.atEnd 0) _ x).mpr hx
  rw [← List.append_nil ts, h.run_append, run, hfinish] at hrun
  cases hrun

/-- **Where an expression is refused**: at the first offending token, the end of
the line included. -/
theorem offends_of_run {last t : Token} {cause : Cause} {ts : List Token}
    (h : run last start ts = .error (t, cause)) (hlast : last.kind = .endOfText)
    (hts : ∀ u ∈ ts, u.kind ≠ .endOfText) :
    ∃ before after, ts ++ [last] = before ++ t :: after ∧
      Offends (fun w => ∃ x, Derives .expr w x) before t := by
  obtain ⟨before, s, hleads, ⟨rfl, rfl, hfinish⟩ | ⟨after, rfl, hstep⟩⟩ := exists_leads_of_run h
  · refine ⟨ts, [], rfl, hleads.viable, ?_⟩
    rintro w eol ⟨x, hx⟩ - hprefix
    rcases List.prefix_concat_iff.mp hprefix with hall | hprefix
    · -- The sentence ends here as well.
      rw [← (List.append_inj' hall rfl).1] at hx
      exact hleads.not_derives hfinish hx
    · -- The sentence would hold the end of the line.
      have hmem : t ∈ w := hprefix.subset (by simp)
      exact (hx.isTerminal t hmem).not_end hlast
  · refine ⟨before, after ++ [last], by simp, hleads.viable, ?_⟩
    rintro w eol ⟨x, hx⟩ heol hprefix
    rcases List.prefix_concat_iff.mp hprefix with hall | ⟨more, rfl⟩
    · have ht : t = eol := List.singleton_inj.mp (List.append_inj' hall rfl).2
      exact hts t (by simp) (ht ▸ heol)
    · rw [List.append_assoc, List.singleton_append] at hx
      exact hleads.not_derives_cons hstep hx

end ParseState

/-! ## Statements -/

/-- The tokens start like an assignment. -/
def LooksLikeAssignment (ts : List Token) : Prop :=
  ∃ t e rest, ts = t :: e :: rest ∧ t.IsName ∧ e.IsEquals

theorem parseExpr_eq_error {line : Int} {last : Token} {ts : List Token} {make : Expr → Stmt}
    {e : SyntaxError} (h : parseExpr line last ts make = .error e) :
    e.line = line ∧ ParseState.run last .start ts = .error (e.token, e.cause) := by
  rw [parseExpr] at h
  split at h
  · cases h
  · next hrun =>
    cases h
    exact ⟨rfl, hrun⟩

/-- A statement is refused where the expression in it is: behind the equals sign
of what starts like an assignment, and from the first token on otherwise. -/
theorem parseTokens_error_cases {line : Int} {last : Token} {ts : List Token} {e : SyntaxError}
    (h : parseTokens line last ts = .error e) : e.line = line ∧
      ((∃ t eq rest, ts = t :: eq :: rest ∧ t.IsName ∧ eq.IsEquals ∧
          ParseState.run last .start rest = .error (e.token, e.cause)) ∨
        (ts ≠ [] ∧ ¬ LooksLikeAssignment ts ∧
          ParseState.run last .start ts = .error (e.token, e.cause))) := by
  unfold parseTokens at h
  split at h
  · cases h
  · next t eq rest =>
    split at h
    · next hsym =>
      obtain ⟨hline, hrun⟩ := parseExpr_eq_error h
      exact ⟨hline, .inl ⟨t, eq, rest, rfl, t.symbol_eq_name_iff.mp hsym.1,
        eq.symbol_eq_equals_iff.mp hsym.2, hrun⟩⟩
    · next hsym =>
      obtain ⟨hline, hrun⟩ := parseExpr_eq_error h
      refine ⟨hline, .inr ⟨by simp, ?_, hrun⟩⟩
      rintro ⟨t', eq', rest', heq, ht, he⟩
      cases heq
      exact hsym ⟨t.symbol_eq_name_iff.mpr ht, eq.symbol_eq_equals_iff.mpr he⟩
  · obtain ⟨hline, hrun⟩ := parseExpr_eq_error h
    refine ⟨hline, .inr ⟨by simp, ?_, hrun⟩⟩
    rintro ⟨t', eq', rest', heq, -, -⟩
    cases heq

/-- Behind an equals sign, what offends in the expression offends in the line. -/
theorem offends_of_assignment {t e u : Token} {before : List Token} (ht : t.IsName)
    (he : e.IsEquals) (h : Offends (fun w => ∃ x, Derives .expr w x) before u) :
    Offends Sentence (t :: e :: before) u := by
  constructor
  · obtain ⟨w, ⟨x, hx⟩, hprefix⟩ := h.viable
    exact ⟨t :: e :: w, ⟨0, _, .assign ht he hx⟩,
      List.cons_prefix_cons.mpr ⟨rfl, List.cons_prefix_cons.mpr ⟨rfl, hprefix⟩⟩⟩
  · rintro w eol ⟨line, s, hs⟩ heol hprefix
    cases hs with
    | assign _ _ hx =>
        obtain ⟨-, hprefix⟩ := List.cons_prefix_cons.mp hprefix
        obtain ⟨-, hprefix⟩ := List.cons_prefix_cons.mp hprefix
        exact h.refused _ eol ⟨_, hx⟩ heol hprefix
    | print hx =>
        rcases List.prefix_concat_iff.mp hprefix with hall | ⟨more, rfl⟩
        · rw [← (List.append_inj' hall rfl).1] at hx
          exact not_derives_name_equals ht he hx
        · exact not_derives_name_equals ht he hx
    | blank =>
        have hlength := hprefix.length_le
        simp at hlength

/-- Where a line is no assignment, what offends in the expression offends in the
line: an assignment that starts with the same tokens would show in the first two. -/
theorem offends_of_not_assignment {ts before after : List Token} {last u : Token}
    (hne : ts ≠ []) (hts : ∀ t ∈ ts, t.kind ≠ .endOfText) (hlast : last.kind = .endOfText)
    (hshape : ¬ LooksLikeAssignment ts) (hsplit : ts ++ [last] = before ++ u :: after)
    (h : Offends (fun w => ∃ x, Derives .expr w x) before u) : Offends Sentence before u := by
  constructor
  · obtain ⟨w, ⟨x, hx⟩, hprefix⟩ := h.viable
    exact ⟨w, ⟨0, _, .print hx⟩, hprefix⟩
  · rintro w eol ⟨line, s, hs⟩ heol hprefix
    cases hs with
    | @assign t e rest x ht he hx =>
        obtain hnil | ⟨m, hm, hprefix⟩ := List.prefix_cons_iff.mp hprefix
        · simp at hnil
        obtain rfl | ⟨tail, rfl, -⟩ := List.prefix_cons_iff.mp hprefix
        · -- A name alone is an expression already.
          exact h.refused [t] eol ⟨_, .ofTerm (.ofFactor (.name ht))⟩ heol
            (hm ▸ List.prefix_append [t] [eol])
        · have hstart : ts ++ [last] = t :: e :: (tail ++ after) := by
            rw [hsplit, ← List.singleton_append, ← List.append_assoc, hm]
            rfl
          obtain ⟨first, rest, rfl⟩ := List.exists_cons_of_ne_nil hne
          obtain ⟨hfirst, hrest⟩ := List.cons.inj hstart
          cases rest with
          | nil =>
              have hend : last = e := (List.cons.inj hrest).1
              exact (Token.isTerminal_of_ofByte he).not_end (hend ▸ hlast)
          | cons second more =>
              have hsecond : second = e := (List.cons.inj hrest).1
              exact hshape ⟨first, second, more, rfl, hfirst ▸ ht, hsecond ▸ he⟩
    | print hx => exact h.refused w eol ⟨_, hx⟩ heol hprefix
    | blank =>
        -- The line would end where it starts, but it has a token.
        obtain ⟨hbefore, hu⟩ := List.append_inj' (List.prefix_concat_iff.mp hprefix |>.resolve_right
          (by simp)) rfl
        subst hbefore
        obtain ⟨t, rest, rfl⟩ := List.exists_cons_of_ne_nil hne
        have ht : t = u := (List.cons.inj hsplit).1
        exact hts t List.mem_cons_self (by rw [ht, List.singleton_inj.mp hu, heol])

/-- **Where a statement is refused**: at its first offending token, the end of the
line included. -/
theorem parseTokens_error {line : Int} {last : Token} {ts : List Token} {e : SyntaxError}
    (h : parseTokens line last ts = .error e) (hlast : last.kind = .endOfText)
    (hts : ∀ t ∈ ts, t.kind ≠ .endOfText) :
    e.line = line ∧ ∃ before after, ts ++ [last] = before ++ e.token :: after ∧
      Offends Sentence before e.token := by
  obtain ⟨hline, ⟨t, eq, rest, rfl, ht, heq, hrun⟩ | ⟨hne, hshape, hrun⟩⟩ :=
    parseTokens_error_cases h
  · have hrest : ∀ u ∈ rest, u.kind ≠ .endOfText := fun u hu => hts u (by simp [hu])
    obtain ⟨before, after, hsplit, hoffends⟩ := ParseState.offends_of_run hrun hlast hrest
    refine ⟨hline, t :: eq :: before, after, ?_, offends_of_assignment ht heq hoffends⟩
    rw [List.cons_append, List.cons_append, hsplit]
    rfl
  · obtain ⟨before, after, hsplit, hoffends⟩ := ParseState.offends_of_run hrun hlast hts
    exact ⟨hline, before, after, hsplit,
      offends_of_not_assignment hne hts hlast hshape hsplit hoffends⟩

/-! ## Lines -/

open Calculator

theorem standsIn_of_mem_tokens {text : Bytes} {t : Token} (h : t ∈ tokens text) :
    StandsIn text t := by
  rw [tokens_eq_tokensFrom] at h
  exact (tokenizes_tokensFrom [] text).standsIn t h

/--
**A line is refused at its first offending token.** A syntax error carries the
number of its line and a column from one to one behind the line. The column is
that of a token of the line, or of the end of the line, such that the tokens
before it begin a sentence of the grammar, while with it they begin none, not even
one with the end of the line behind it. Illegal input and integers beyond
`2 ^ 63 - 1` stand in no sentence.
-/
theorem parseLine_error_first_offence (text : Bytes) (line : Int) (e : SyntaxError)
    (h : parseLine text line = .error e) :
    e.line = line ∧ 1 ≤ e.column ∧ e.column ≤ text.length + 1 ∧
      (∃ before t after, tokens text ++ [Token.atEnd text.length] = before ++ t :: after ∧
        e.column - 1 = t.span.start ∧ Offends Sentence before t) ∧
      ∀ w, Sentence w → ∀ t ∈ w, t.kind ≠ .illegal ∧
        (t.kind = .integer → Decimal.value t.lexeme ≤ 9223372036854775807) := by
  obtain ⟨hline, before, after, hsplit, hoffends⟩ := parseTokens_error h rfl
    fun t ht => (standsIn_of_mem_tokens ht).kind_ne_endOfText
  have hmem : e.token ∈ tokens text ++ [Token.atEnd text.length] := by
    rw [hsplit]
    simp
  have hstart : e.token.span.start ≤ text.length := by
    rcases List.mem_append.mp hmem with hmem | hmem
    · have htoken := standsIn_of_mem_tokens hmem
      have hlt := htoken.start_lt_stop
      have hle := htoken.stop_le_length
      omega
    · rw [List.mem_singleton.mp hmem]
      exact Nat.le_refl _
  have hcolumn : e.column = e.token.span.start + 1 := rfl
  refine ⟨hline, by omega, by omega, ⟨before, e.token, after, hsplit, by omega, hoffends⟩, ?_⟩
  intro w hw t ht
  have hterminal := hw.isTerminal t ht
  exact ⟨hterminal.not_illegal, hterminal.inRange⟩

/-- The line `x = (12 + y` lacks a parenthesis, which shows at its end only. -/
theorem parseLine_error_first_offence_unclosed :
    let text := utf8 "x = (12 + y"
    let e : SyntaxError := ⟨3, Token.atEnd 11, .unexpected .closing⟩
    parseLine text 3 = .error e ∧ e.line = 3 ∧ e.column = 12 ∧
      ∃ before t after, tokens text ++ [Token.atEnd text.length] = before ++ t :: after ∧
        t.span.start = 11 ∧ Offends Sentence before t := by
  have h : parseLine (utf8 "x = (12 + y") 3 =
      .error ⟨3, Token.atEnd 11, .unexpected .closing⟩ := by decide +kernel
  intro text e
  obtain ⟨hline, -, -, ⟨before, t, after, hsplit, hstart, hoffends⟩, -⟩ :=
    parseLine_error_first_offence text 3 e h
  exact ⟨h, hline, rfl, before, t, after, hsplit, hstart.symm, hoffends⟩

end LineCalculator
