import LineCalculator.Parse.Line
import LineCalculator.Proofs.Grammar

/-!
# The automaton recognises the grammar

The automaton of `LineCalculator.Parse.Line` reads the tokens of a line once,
from left to right, and keeps what it cannot finish yet as pending
operations. The grammar of `LineCalculator.Proofs.Grammar` is left-recursive
and says nothing about the order in which tokens are looked at. Here the two
are shown to agree: a line is read as a statement exactly if the grammar
derives the line's tokens, with that statement as the tree.

**Soundness** goes through what a state stands for. `Reached s ts` says that
the tokens `ts` bring the automaton to `s`, told by derivations: a pending
operation is a derivation that still lacks its last part, and a level of
parentheses is the pending operations before it, then an opening parenthesis.
One step keeps this up (`Reached.step`), so a whole run does
(`Reached.derives_of_run`).

**Completeness** goes through derivations. The tokens of a factor take the
automaton from any state that waits for an operand to the state behind that
factor, whatever is pending; the tokens of a term or an expression do so where
nothing of their own level is pending (`Derives.passes`).

## Main results

* `run_start_eq_ok_iff` — the automaton accepts what `Expr` derives, and builds
  the tree of the derivation.
* `parseTokens_eq_ok_iff` — the same for statements.
* `parseLine_derives_iff` — a line is accepted exactly if the grammar derives
  it, and refused with a syntax error in every other case.
-/

namespace LineCalculator

namespace ParseState

/-! ## Transitions -/

/-- The transitions of the automaton, by what the grammar sees in the token. -/
inductive Transition : ParseState → Token → ParseState → Prop
  | number {sum product : Pending} {outer : List Level} {t : Token} {n : Int64} :
      t.IsNumber n →
      Transition (operand sum product outer) t (afterFactor sum product outer (.lit n))
  | name {sum product : Pending} {outer : List Level} {t : Token} :
      t.IsName →
      Transition (operand sum product outer) t (afterFactor sum product outer (.var t.lexeme))
  | opening {sum product : Pending} {outer : List Level} {t : Token} :
      t.IsOpening →
      Transition (operand sum product outer) t (operand none none (⟨sum, product⟩ :: outer))
  | prodOp {sum : Pending} {term : Expr} {outer : List Level} {t : Token} {op : Operator} :
      t.IsProdOp op →
      Transition (operator sum term outer) t (operand sum (some (term, op)) outer)
  | sumOp {sum : Pending} {term : Expr} {outer : List Level} {t : Token} {op : Operator} :
      t.IsSumOp op →
      Transition (operator sum term outer) t (operand (some (sum.close term, op)) none outer)
  | closing {sum : Pending} {term : Expr} {level : Level} {outer : List Level} {t : Token} :
      t.IsClosing →
      Transition (operator sum term (level :: outer)) t
        (afterFactor level.sum level.product outer (.paren (sum.close term)))

theorem Transition.step_eq_ok {s s' : ParseState} {t : Token} (h : Transition s t s') :
    s.step t = .ok s' := by
  cases h with
  | number ht =>
      simp only [step, (t.symbol_eq_integer_iff).mpr ht.kind,
        (t.integer?_eq_some_iff _ ht.kind).mpr ht]
  | name ht => simp only [step, (t.symbol_eq_name_iff).mpr ht]
  | opening ht => simp only [step, (t.symbol_eq_opening_iff).mpr ht]
  | prodOp ht => simp only [step, (t.symbol_eq_product_iff _).mpr ht]
  | sumOp ht => simp only [step, (t.symbol_eq_sum_iff _).mpr ht]
  | closing ht => simp only [step, (t.symbol_eq_closing_iff).mpr ht]

/-- A step succeeds exactly along a transition. -/
theorem step_eq_ok_iff {s s' : ParseState} {t : Token} :
    s.step t = .ok s' ↔ Transition s t s' := by
  refine ⟨fun h => ?_, Transition.step_eq_ok⟩
  cases s with
  | operand sum product outer =>
      simp only [step] at h
      split at h
      · next hsym =>
        have hkind := (t.symbol_eq_integer_iff).mp hsym
        split at h
        · next n hn =>
          cases h
          exact .number ((t.integer?_eq_some_iff n hkind).mp hn)
        · cases h
      · next hsym =>
        cases h
        exact .name ((t.symbol_eq_name_iff).mp hsym)
      · next hsym =>
        cases h
        exact .opening ((t.symbol_eq_opening_iff).mp hsym)
      · cases h
  | operator sum term outer =>
      simp only [step] at h
      split at h
      · next op hsym =>
        cases h
        exact .prodOp ((t.symbol_eq_product_iff op).mp hsym)
      · next op hsym =>
        cases h
        exact .sumOp ((t.symbol_eq_sum_iff op).mp hsym)
      · next hsym =>
        cases h
        exact .closing ((t.symbol_eq_closing_iff).mp hsym)
      · cases h

/-- A run goes on behind a transition. -/
theorem Transition.run_cons {s s' : ParseState} {t : Token} (h : Transition s t s')
    (last : Token) (rest : List Token) : run last s (t :: rest) = run last s' rest := by
  rw [run, h.step_eq_ok]

/-! ## What a state stands for -/

/-- The tokens of an operation that waits for a term. -/
inductive SumPending : Pending → List Token → Prop
  | none : SumPending none []
  | some {ts : List Token} {x : Expr} {o : Token} {op : Operator} :
      Derives .expr ts x → o.IsSumOp op → SumPending (some (x, op)) (ts ++ [o])

/-- The tokens of an operation that waits for a factor. -/
inductive ProductPending : Pending → List Token → Prop
  | none : ProductPending none []
  | some {ts : List Token} {x : Expr} {o : Token} {op : Operator} :
      Derives .term ts x → o.IsProdOp op → ProductPending (some (x, op)) (ts ++ [o])

/-- The tokens of levels that are left open, the innermost level first in the
list and last in the line. -/
inductive Opened : List Level → List Token → Prop
  | nil : Opened [] []
  | cons {outer : List Level} {level : Level} {ts us vs : List Token} {o : Token} :
      Opened outer ts → SumPending level.sum us → ProductPending level.product vs →
      o.IsOpening → Opened (level :: outer) (ts ++ us ++ vs ++ [o])

/-- The tokens that bring the automaton to a state. -/
inductive Reached : ParseState → List Token → Prop
  | operand {sum product : Pending} {outer : List Level} {ts us vs : List Token} :
      Opened outer ts → SumPending sum us → ProductPending product vs →
      Reached (operand sum product outer) (ts ++ us ++ vs)
  | operator {sum : Pending} {term : Expr} {outer : List Level} {ts us vs : List Token} :
      Opened outer ts → SumPending sum us → Derives .term vs term →
      Reached (operator sum term outer) (ts ++ us ++ vs)

theorem reached_start : Reached start [] := .operand .nil .none .none

/-- A pending sum and its last term are an expression. -/
theorem SumPending.close {p : Pending} {us vs : List Token} {x : Expr}
    (hp : SumPending p us) (hx : Derives .term vs x) : Derives .expr (us ++ vs) (p.close x) := by
  cases hp with
  | none => exact .ofTerm hx
  | some hl ho =>
      rw [List.append_assoc]
      exact .sum hl ho hx

/-- A pending product and its last factor are a term. -/
theorem ProductPending.close {p : Pending} {us vs : List Token} {x : Expr}
    (hp : ProductPending p us) (hx : Derives .factor vs x) :
    Derives .term (us ++ vs) (p.close x) := by
  cases hp with
  | none => exact .ofFactor hx
  | some hl ho =>
      rw [List.append_assoc]
      exact .product hl ho hx

/-- Behind a factor the automaton has read one more term. -/
theorem reached_afterFactor {sum product : Pending} {outer : List Level}
    {ts us vs ws : List Token} {x : Expr} (hts : Opened outer ts) (hus : SumPending sum us)
    (hvs : ProductPending product vs) (hx : Derives .factor ws x) :
    Reached (afterFactor sum product outer x) (ts ++ us ++ vs ++ ws) := by
  rw [List.append_assoc (ts ++ us)]
  exact .operator hts hus (hvs.close hx)

/-- One step keeps up what a state stands for. -/
theorem Reached.step {s s' : ParseState} {ts : List Token} {t : Token} (h : Reached s ts)
    (ht : Transition s t s') : Reached s' (ts ++ [t]) := by
  cases ht with
  | number hn =>
      cases h with
      | operand houter hsum hproduct =>
          exact reached_afterFactor houter hsum hproduct (.number hn)
  | name hname =>
      cases h with
      | operand houter hsum hproduct =>
          exact reached_afterFactor houter hsum hproduct (.name hname)
  | opening ho =>
      cases h with
      | operand houter hsum hproduct =>
          have hlevel : Opened (⟨_, _⟩ :: _) _ := .cons houter hsum hproduct ho
          simpa using Reached.operand hlevel .none .none
  | prodOp ho =>
      cases h with
      | operator houter hsum hterm =>
          rw [List.append_assoc]
          exact .operand houter hsum (.some hterm ho)
  | sumOp ho =>
      cases h with
      | operator houter hsum hterm =>
          have hpending := SumPending.some (hsum.close hterm) ho
          simpa using Reached.operand houter hpending .none
  | closing hc =>
      cases h with
      | operator houter hsum hterm =>
          -- The innermost level ends: its tokens become a factor of the level outside.
          cases houter with
          | cons houter hlevelSum hlevelProduct ho =>
              have hgroup := Derives.group ho (hsum.close hterm) hc
              simpa using reached_afterFactor houter hlevelSum hlevelProduct hgroup

/-- Where a line may end, the tokens read so far are an expression. -/
theorem Reached.derives_of_finish {s : ParseState} {ts : List Token} {x : Expr}
    (h : Reached s ts) (hx : s.finish = .ok x) : Derives .expr ts x := by
  cases h with
  | operand => cases hx
  | operator houter hsum hterm =>
      cases houter with
      | nil =>
          cases hx
          exact hsum.close hterm
      | cons => cases hx

/-- A run that succeeds has read an expression, what was read before it included. -/
theorem Reached.derives_of_run {last : Token} {s : ParseState} {ts us : List Token} {x : Expr}
    (h : Reached s ts) (hrun : run last s us = .ok x) : Derives .expr (ts ++ us) x := by
  induction us generalizing s ts with
  | nil =>
      rw [run] at hrun
      split at hrun
      · next y hy =>
        cases hrun
        rw [List.append_nil]
        exact h.derives_of_finish hy
      · cases hrun
  | cons t us ih =>
      rw [run] at hrun
      split at hrun
      · next s' hs' =>
        rw [← List.singleton_append, ← List.append_assoc]
        exact ih (h.step (step_eq_ok_iff.mp hs')) hrun
      · cases hrun

/-! ## Runs over derivations -/

/-- What the tokens of a derivation do to the automaton. -/
def Passes : Nonterminal → List Token → Expr → Prop
  | .factor, ts, x => ∀ last sum product outer rest,
      run last (operand sum product outer) (ts ++ rest) =
        run last (afterFactor sum product outer x) rest
  | .term, ts, x => ∀ last sum outer rest,
      run last (operand sum none outer) (ts ++ rest) = run last (operator sum x outer) rest
  | .expr, ts, x => ∃ sum term, Pending.close sum term = x ∧ ∀ last outer rest,
      run last (operand none none outer) (ts ++ rest) = run last (operator sum term outer) rest

end ParseState

open ParseState in
/-- The tokens of a derivation bring the automaton behind what they derive. -/
theorem Derives.passes {nt : Nonterminal} {ts : List Token} {x : Expr} (h : Derives nt ts x) :
    Passes nt ts x := by
  induction h with
  | @sum ts us o op x y _ ho _ ihx ihy =>
      obtain ⟨sum, term, rfl, hrun⟩ := ihx
      refine ⟨some (sum.close term, op), y, rfl, fun last outer rest => ?_⟩
      rw [List.append_assoc, hrun, List.cons_append, (Transition.sumOp ho).run_cons]
      exact ihy last _ outer rest
  | @ofTerm ts x _ ih => exact ⟨none, x, rfl, fun last outer rest => ih last none outer rest⟩
  | @product ts us o op x y _ ho _ ihx ihy =>
      intro last sum outer rest
      rw [List.append_assoc, ihx, List.cons_append, (Transition.prodOp ho).run_cons]
      exact ihy last sum _ outer rest
  | ofFactor _ ih => exact fun last sum outer rest => ih last sum none outer rest
  | number hn => exact fun last _ _ _ rest => (Transition.number hn).run_cons last rest
  | name ht => exact fun last _ _ _ rest => (Transition.name ht).run_cons last rest
  | @group o c ts x ho _ hc ih =>
      intro last sum product outer rest
      obtain ⟨inner, term, rfl, hrun⟩ := ih
      rw [List.cons_append, (Transition.opening ho).run_cons, List.append_assoc, hrun,
        List.singleton_append, (Transition.closing hc).run_cons]

open ParseState in
/-- Whatever is pending, the tokens of a derivation bring the automaton from an
operand to an operator on the same level of parentheses. -/
theorem Derives.run_operand {nt : Nonterminal} {ts : List Token} {x : Expr}
    (h : Derives nt ts x) (last : Token) (sum product : Pending) (outer : List Level)
    (rest : List Token) : ∃ sum' term, run last (operand sum product outer) (ts ++ rest) =
      run last (operator sum' term outer) rest := by
  induction h generalizing sum product rest with
  | @sum ts us o op x y _ ho _ ihx ihy =>
      obtain ⟨sum', term, hrun⟩ := ihx sum product (o :: us ++ rest)
      rw [List.append_assoc, hrun, List.cons_append, (Transition.sumOp ho).run_cons]
      exact ihy _ _ rest
  | ofTerm _ ih => exact ih sum product rest
  | @product ts us o op x y _ ho _ ihx ihy =>
      obtain ⟨sum', term, hrun⟩ := ihx sum product (o :: us ++ rest)
      rw [List.append_assoc, hrun, List.cons_append, (Transition.prodOp ho).run_cons]
      exact ihy _ _ rest
  | ofFactor _ ih => exact ih sum product rest
  | number hn => exact ⟨sum, _, (Derives.number hn).passes last sum product outer rest⟩
  | name ht => exact ⟨sum, _, (Derives.name ht).passes last sum product outer rest⟩
  | group ho hx hc _ =>
      exact ⟨sum, _, (Derives.group ho hx hc).passes last sum product outer rest⟩

namespace ParseState

/-- The automaton accepts what `Expr` derives, and builds the tree of the derivation. -/
theorem run_start_eq_ok_iff (last : Token) (ts : List Token) (x : Expr) :
    run last start ts = .ok x ↔ Derives .expr ts x := by
  constructor
  · intro h
    exact reached_start.derives_of_run h
  · intro h
    obtain ⟨sum, term, rfl, hrun⟩ := h.passes
    have h := hrun last [] []
    rw [List.append_nil] at h
    exact h

end ParseState

/-! ## Statements and lines -/

theorem parseExpr_eq_ok_iff (line : Int) (last : Token) (ts : List Token) (make : Expr → Stmt)
    (s : Stmt) : parseExpr line last ts make = .ok s ↔ ∃ x, Derives .expr ts x ∧ make x = s := by
  rw [parseExpr]
  constructor
  · intro h
    split at h
    · next x hx =>
      cases h
      exact ⟨x, (ParseState.run_start_eq_ok_iff last ts x).mp hx, rfl⟩
    · cases h
  · rintro ⟨x, hx, rfl⟩
    rw [(ParseState.run_start_eq_ok_iff last ts x).mpr hx]

/-- No expression is empty. -/
theorem not_derives_nil (x : Expr) : ¬ Derives .expr [] x := by
  intro h
  have hrun := (ParseState.run_start_eq_ok_iff (Token.atEnd 0) [] x).mpr h
  cases hrun

/-- No expression starts like an assignment. -/
theorem not_derives_name_equals {t e : Token} {ts : List Token} {x : Expr} (ht : t.IsName)
    (he : e.IsEquals) : ¬ Derives .expr (t :: e :: ts) x := by
  intro h
  have hrun := (ParseState.run_start_eq_ok_iff (Token.atEnd 0) _ x).mpr h
  rw [ParseState.start, (ParseState.Transition.name ht).run_cons, ParseState.run] at hrun
  simp only [ParseState.afterFactor, ParseState.step, e.symbol_eq_equals_iff.mpr he] at hrun
  cases hrun

/-- Tokens are read as a statement exactly if they derive it. -/
theorem parseTokens_eq_ok_iff (line : Int) (last : Token) (ts : List Token) (s : Stmt) :
    parseTokens line last ts = .ok s ↔ DerivesStmt line ts s := by
  constructor
  · intro h
    unfold parseTokens at h
    split at h
    · cases h
      exact .blank
    · next t e rest =>
      split at h
      · next hsym =>
        obtain ⟨x, hx, rfl⟩ := (parseExpr_eq_ok_iff ..).mp h
        exact .assign (t.symbol_eq_name_iff.mp hsym.1) (e.symbol_eq_equals_iff.mp hsym.2) hx
      · obtain ⟨x, hx, rfl⟩ := (parseExpr_eq_ok_iff ..).mp h
        exact .print hx
    · obtain ⟨x, hx, rfl⟩ := (parseExpr_eq_ok_iff ..).mp h
      exact .print hx
  · intro h
    cases h with
    | blank => rfl
    | @assign t e rest x ht he hx =>
        rw [parseTokens, if_pos ⟨t.symbol_eq_name_iff.mpr ht, e.symbol_eq_equals_iff.mpr he⟩]
        exact (parseExpr_eq_ok_iff ..).mpr ⟨x, hx, rfl⟩
    | @print _ x hx =>
        unfold parseTokens
        split
        · exact absurd hx (not_derives_nil x)
        · next t e rest =>
          -- Two tokens decide: an expression cannot look like an assignment.
          have hnot : ¬ (t.symbol = .name ∧ e.symbol = .equals) := fun hsym =>
            not_derives_name_equals (t.symbol_eq_name_iff.mp hsym.1)
              (e.symbol_eq_equals_iff.mp hsym.2) hx
          rw [if_neg hnot]
          exact (parseExpr_eq_ok_iff ..).mpr ⟨x, hx, rfl⟩
        · exact (parseExpr_eq_ok_iff ..).mpr ⟨x, hx, rfl⟩

/-- A line is read as a statement exactly if its tokens derive it. -/
theorem parseLine_eq_ok_iff (text : Bytes) (line : Int) (s : Stmt) :
    parseLine text line = .ok s ↔ DerivesStmt line (Calculator.tokens text) s :=
  parseTokens_eq_ok_iff line (Token.atEnd text.length) (Calculator.tokens text) s

/--
**The reader accepts the grammar.** A line is read as a statement exactly if
the grammar derives its tokens with that statement as the tree, and a line
that derives no statement is refused with a syntax error.
-/
theorem parseLine_derives_iff (text : Bytes) (line : Int) :
    (∀ s, parseLine text line = .ok s ↔ DerivesStmt line (Calculator.tokens text) s) ∧
      ((∃ e, parseLine text line = .error e) ↔
        ¬ ∃ s, DerivesStmt line (Calculator.tokens text) s) := by
  refine ⟨parseLine_eq_ok_iff text line, ?_⟩
  simp only [← parseLine_eq_ok_iff]
  cases h : parseLine text line with
  | ok s => simp
  | error e => simp

end LineCalculator
