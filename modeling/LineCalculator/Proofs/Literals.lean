import LineCalculator.Proofs.Vocabularies

/-!
# What a literal matches

A lexer that has a single literal and nothing else is the simplest of all, and
yet it need not find its literal. A literal is written with a backslash in front
of each character, so that signs with a meaning of their own stand for
themselves. But behind a backslash the letters `n`, `r` and `t` mean newline,
carriage return and tab, and so a literal in which one of them occurs matches
another text.

Which text that is, `Vocabulary.literalText` says. Its lexer **recognizes** it and
nothing else (`Lexer.Recognizes`): a token of the literal's kind stands only where
the text does, and the text by itself is such a token. Both follow from what a
piece is (`Rule.Cuts`), since the only rule matches one text only. There is but
one text that a lexer recognizes under a kind, so the literal is recognized
itself exactly if it is its own text.

## Main results

* `Vocabulary.recognizes_literalText` — the text that the lexer of a literal finds.
* `literal_recognized_iff` — which literals are found themselves.
* `letter_n_not_recognized` — the literal `n` is not; what is found is a newline.
-/

namespace LineCalculator

open Regex (escaped)

/-! ## Recognizing a text -/

/-- A token of the kind stands only where the text `w` stands, and the text by itself
is one such token with the end behind it. -/
structure Lexer.Recognizes (lexer : Lexer) (kind : Kind) (w : Bytes) : Prop where
  only : ∀ t i, ((lexer.scanner t).request i).token.kind = kind →
    let span := ((lexer.scanner t).request i).token.span
    (t.drop span.start).take (span.stop - span.start) = w
  itself : ∀ listener, (lexer.scan listener w).tokens =
    [⟨kind, w, ⟨0, w.length⟩⟩, Token.atEnd w.length, Token.atEnd w.length]

/-- What is read first is what the first request is answered with. -/
theorem Lexer.head?_tokens_scan (lexer : Lexer) (listener : Listener) (t : Bytes) :
    (lexer.scan listener t).tokens.head? = some ((lexer.scanner t).request 0).token := by
  show ((lexer.scanner t).untilEnd.map Reading.token).head? = _
  rw [Scanner.untilEnd]
  split <;> rfl

/-- There is one text at most that a lexer recognizes under a kind. -/
theorem Lexer.Recognizes.unique {lexer : Lexer} {kind : Kind} {v w : Bytes}
    (hv : lexer.Recognizes kind v) (hw : lexer.Recognizes kind w) : v = w := by
  have hfirst : ((lexer.scanner v).request 0).token = ⟨kind, v, ⟨0, v.length⟩⟩ := by
    have hhead := lexer.head?_tokens_scan .ignore v
    rw [hv.itself] at hhead
    exact (Option.some.inj hhead).symm
  have honly := hw.only v 0
  rw [hfirst] at honly
  have hwhole : v.take v.length = w := honly rfl
  rwa [List.take_length] at hwhole

namespace Vocabulary

/-- The vocabulary of one literal. -/
def ofLiteral (lit : Bytes) (kind : Kind) : Vocabulary :=
  { literals := [lit], kinds := [(lit, kind)] }

theorem rules_ofLiteral (lit : Bytes) (kind : Kind) :
    (ofLiteral lit kind).rules = .ok [⟨.text (literalText lit), .emit kind⟩] := by
  simp [rules, fixedRules, ofLiteral, kindOf, pure, Except.pure, bind, Except.bind]

/-! ## The text of a literal -/

/-- Behind a backslash three letters have another meaning. -/
theorem escaped_eq_self_iff (b : UInt8) : escaped b = b ↔ b ∉ utf8 "nrt" := by
  have htext : utf8 "nrt" = [110, 114, 116] := rfl
  rw [htext]
  unfold escaped
  grind [Byte.newline, Byte.carriageReturn, Byte.tab]

theorem literalText_ne_nil (lit : Bytes) : literalText lit ≠ [] := by
  unfold literalText
  split
  · exact List.cons_ne_nil _ _
  · next hlit => simpa using hlit

/-- A literal is its own text exactly if none of the three letters occurs in it. -/
theorem literalText_eq_self_iff {lit : Bytes} (hne : lit ≠ []) :
    literalText lit = lit ↔ ∀ b ∈ lit, b ∉ utf8 "nrt" := by
  have hmap : literalText lit = lit ↔ lit.map escaped = lit.map id := by
    rw [literalText, if_neg (by simpa using hne), List.map_id]
  rw [hmap, List.map_inj_left]
  simp only [id, escaped_eq_self_iff]

/-! ## The lexer of a literal -/

section Literal

variable {lit : Bytes} {kind : Kind} {lexer : Lexer}
  (hrules : lexer.rules = [⟨.text (literalText lit), .emit kind⟩])

include hrules

/-- What a rule matches is the text of the literal, since there is no other rule. -/
theorem text_of_action {t : Bytes} {p : Piece} (hp : p ∈ lexer.pieces t) {a : Action}
    (ha : p.action? = some a) : p.text = literalText lit ∧ a = .emit kind := by
  have hcuts := Lexer.cuts_of_mem_pieces hp
  have haction := hcuts.earliest a ha
  rw [hrules, Rule.actionOn] at haction
  obtain ⟨r, hr, rfl⟩ := Option.map_eq_some_iff.mp haction
  have hmem := List.mem_singleton.mp (List.mem_of_find?_eq_some hr)
  have hmatch : r.pattern.Matches p.text := by simpa using List.find?_some hr
  subst hmem
  exact ⟨hmatch, rfl⟩

/-- A token of the literal's kind stands where the text of the literal does. -/
theorem slice_of_request (hend : kind ≠ .endOfText) (hillegal : kind ≠ .illegal) (t : Bytes)
    (i : Nat) (hkind : ((lexer.scanner t).request i).token.kind = kind) :
    let span := ((lexer.scanner t).request i).token.span
    (t.drop span.start).take (span.stop - span.start) = literalText lit := by
  rw [lexer.token_request_scanner t i] at hkind ⊢
  cases htoken : (lexer.tokens t)[i]? with
  | none =>
      rw [htoken] at hkind
      exact absurd hkind.symm hend
  | some token =>
      rw [htoken, Option.getD_some] at hkind
      have hmem := List.mem_of_getElem? htoken
      rw [lexer.tokens_eq] at hmem
      obtain ⟨p, hp, hpiece⟩ := List.mem_filterMap.mp hmem
      have hstarts := (Lexer.cuts_of_mem_pieces hp).starts
      unfold Piece.token? at hpiece
      split at hpiece
      · cases hpiece
      · cases hpiece
        exact absurd hkind.symm hillegal
      · next k haction =>
        cases hpiece
        show (t.drop p.start).take (p.start + p.text.length - p.start) = literalText lit
        rw [Nat.add_sub_cancel_left, ← List.prefix_iff_eq_take.mp hstarts]
        exact (text_of_action hrules hp haction).1
      · cases hpiece
        exact absurd hkind.symm hillegal

/-- The text of the literal is a single piece. -/
theorem pieces_literalText :
    ∃ p, lexer.pieces (literalText lit) = [p] ∧ p.start = 0 ∧ p.text = literalText lit ∧
      p.action? = some (.emit kind) := by
  have hjoined : (lexer.pieces (literalText lit)).flatMap Piece.text = literalText lit :=
    Piece.flatMap_text_cut _ _ _ _
  cases hpieces : lexer.pieces (literalText lit) with
  | nil =>
      rw [hpieces] at hjoined
      exact absurd hjoined.symm (literalText_ne_nil lit)
  | cons p later =>
      have hfirst : lexer.pieces (literalText lit) = [] ++ p :: later := hpieces
      obtain ⟨hstart, hcuts⟩ := Lexer.cuts_of_pieces_eq hfirst
      have hzero : p.start = 0 := hstart
      have hmem : p ∈ lexer.pieces (literalText lit) := by
        rw [hpieces]
        exact List.mem_cons_self
      -- The text matches as a whole, so the first piece is no unmatched one.
      have hmatch : p.action? ≠ none := by
        intro hnone
        have hunmatched := hcuts.unmatched_iff.mp hnone (literalText lit)
        rw [hzero, hrules] at hunmatched
        exact hunmatched (List.prefix_refl _) _ List.mem_cons_self rfl
      obtain ⟨a, ha⟩ := Option.ne_none_iff_exists'.mp hmatch
      obtain ⟨htext, rfl⟩ := text_of_action hrules hmem ha
      -- It takes the whole text, and every piece holds a byte, so nothing is behind it.
      have hnothing : later.flatMap Piece.text = [] := by
        rw [hpieces, List.flatMap_cons, htext] at hjoined
        exact List.append_right_eq_self.mp hjoined
      have hlater : later = [] := by
        refine List.eq_nil_iff_forall_not_mem.mpr fun q hq => ?_
        have hq' : q ∈ lexer.pieces (literalText lit) := by
          rw [hpieces]
          exact List.mem_cons_of_mem p hq
        exact (Lexer.cuts_of_mem_pieces hq').ne_nil (List.flatMap_eq_nil_iff.mp hnothing q hq)
      exact ⟨p, by rw [hlater], hzero, htext, ha⟩

/-- **What the lexer of a literal finds**: the text of the literal, and nothing else. -/
theorem recognizes_literalText (hend : kind ≠ .endOfText) (hillegal : kind ≠ .illegal) :
    lexer.Recognizes kind (literalText lit) := by
  refine ⟨slice_of_request hrules hend hillegal, fun listener => ?_⟩
  have hrule : ∀ r ∈ lexer.rules, ∀ k, r.action = .emit k → k ≠ .endOfText ∧ k ≠ .illegal := by
    rw [hrules]
    intro r hr k hk
    rw [List.mem_singleton.mp hr] at hk
    cases hk
    exact ⟨hend, hillegal⟩
  have hkinds : ∀ r ∈ lexer.readings (literalText lit), r.token.kind ≠ .endOfText := fun r hr =>
    (Lexer.kind_of_mem_readings hrule hr).1
  have hseen : (lexer.scanner (literalText lit)).untilEnd = lexer.readings (literalText lit) ++ _ :=
    Scanner.untilEnd_eq hkinds
  obtain ⟨p, hpieces, hstart, htext, haction⟩ := pieces_literalText hrules
  have htokens : lexer.tokens (literalText lit) =
      [⟨kind, literalText lit, ⟨0, (literalText lit).length⟩⟩] := by
    rw [lexer.tokens_eq, hpieces]
    simp [Piece.token?, haction, hstart, htext]
  show (lexer.scanner (literalText lit)).untilEnd.map Reading.token = _
  rw [hseen, List.map_append, ← Lexer.tokens, htokens]
  rfl

end Literal

end Vocabulary

/-! ## Literals that are found themselves -/

open Vocabulary

/--
**What a literal matches.** A literal that is not empty and has a kind of its own has a
lexer, which recognizes the text of the literal: the literal with newline, carriage
return and tab in place of the letters `n`, `r` and `t`. So the literal matches itself
and nothing else if and only if none of these letters occurs in it.
-/
theorem literal_recognized_iff (lit : Bytes) (hne : lit ≠ []) (kind : Kind)
    (hend : kind ≠ .endOfText) (hillegal : kind ≠ .illegal) :
    ∃ lexer, (ofLiteral lit kind).lexer = .ok lexer ∧
      lexer.Recognizes kind (lit.map escaped) ∧
      (lexer.Recognizes kind lit ↔ ∀ b ∈ lit, b ∉ utf8 "nrt") := by
  have haccepts : ∀ r ∈ [(⟨.text (literalText lit), .emit kind⟩ : Rule)],
      r.pattern.accepts = false := by
    simp [Pattern.accepts, literalText_ne_nil]
  let lexer : Lexer := ⟨[⟨.text (literalText lit), .emit kind⟩], List.cons_ne_nil _ _, haccepts⟩
  have hlexer : (ofLiteral lit kind).lexer = .ok lexer :=
    (lexer_eq_ok_iff _ lexer).mpr (rules_ofLiteral lit kind)
  have hfound : lexer.Recognizes kind (literalText lit) :=
    recognizes_literalText rfl hend hillegal
  have htext : literalText lit = lit.map escaped := if_neg (by simpa using hne)
  refine ⟨lexer, hlexer, htext ▸ hfound, ?_⟩
  rw [← literalText_eq_self_iff hne]
  constructor
  · intro hself
    exact hfound.unique hself
  · intro hself
    rwa [hself] at hfound

/-- The literal `(.*)→` has signs that mean something in a pattern, and one of several
bytes; it is found as it stands. -/
theorem literal_recognized_iff_signs :
    let lit := utf8 "(.*)→"
    lit ≠ [] ∧ (⟨7⟩ : Kind) ≠ .endOfText ∧ (⟨7⟩ : Kind) ≠ .illegal ∧
      ∃ lexer, (ofLiteral lit ⟨7⟩).lexer = .ok lexer ∧ lexer.Recognizes ⟨7⟩ lit := by
  intro lit
  have hne : lit ≠ [] := by decide
  obtain ⟨lexer, hlexer, -, hself⟩ := literal_recognized_iff lit hne ⟨7⟩ (by decide) (by decide)
  exact ⟨hne, by decide, by decide, lexer, hlexer, hself.mpr (by decide +kernel)⟩

/-- The literal `n` does not match itself: the letter is illegal input for its lexer, and
a newline is taken for the literal. -/
theorem letter_n_not_recognized :
    ∃ lexer, (ofLiteral (utf8 "n") ⟨5⟩).lexer = .ok lexer ∧
      (lexer.scan .collect (utf8 "n")).tokens =
        [⟨.illegal, utf8 "n", ⟨0, 1⟩⟩, Token.atEnd 1, Token.atEnd 1] ∧
      (lexer.scan .collect (utf8 "\n")).tokens =
        [⟨⟨5⟩, utf8 "\n", ⟨0, 1⟩⟩, Token.atEnd 1, Token.atEnd 1] ∧
      ¬ lexer.Recognizes ⟨5⟩ (utf8 "n") := by
  refine ⟨⟨[⟨.text (utf8 "\n"), .emit ⟨5⟩⟩], by decide, by decide⟩, rfl, by decide +kernel,
    by decide +kernel, fun hself => ?_⟩
  have hscan := hself.itself .collect
  exact absurd hscan (by decide +kernel)

end LineCalculator
