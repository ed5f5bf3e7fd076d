import LineCalculator.Proofs.RefusedTokens

/-!
# Blanks between tokens

A blank may be put in wherever no token is cut in two, and the line means what
it meant. Two things are to be shown, one for each half of the reader.

**Tokens.** A blank that is put in at offset `p` moves the tokens that start
there or later by one byte, and leaves the others alone (`Token.moved`). A token
that ends at `p` ends there before and after, whether or not the text went on
with a word of another sort, because no word has a blank in it
(`span_insert_blank`). The blank itself either stands alone or joins the blanks
around it; both leave no token. The argument goes along the text before the
blank, one token or one blank at a time (`tokensFrom_insert_blank`).

**Statements.** The reader looks at kinds and lexemes of tokens, never at their
places, and refuses a line at one of its tokens. So moving the tokens moves the
token of the error and changes nothing else (`Relocates.parseTokens_map`).

## Main results

* `tokensFrom_insert_blank` — the tokens of a text with one more blank.
* `Relocates.parseTokens_map` — reading does not depend on places.
* `parseLine_insert_blank` — a blank between tokens does not matter.
-/

namespace LineCalculator

/-! ## Moving tokens -/

/-- The map gives every token a new place, and nothing else. -/
structure Relocates (f : Token → Token) : Prop where
  kind : ∀ t, (f t).kind = t.kind
  lexeme : ∀ t, (f t).lexeme = t.lexeme

/-- The token where it stands once a byte has been put in at offset `p`, if
that does not cut it in two. -/
def Token.moved (p : Nat) (t : Token) : Token :=
  if p ≤ t.span.start then { t with span := ⟨t.span.start + 1, t.span.stop + 1⟩ } else t

namespace Token

theorem moved_of_le {p : Nat} {t : Token} (h : p ≤ t.span.start) :
    t.moved p = { t with span := ⟨t.span.start + 1, t.span.stop + 1⟩ } :=
  if_pos h

theorem moved_of_lt {p : Nat} {t : Token} (h : t.span.start < p) : t.moved p = t :=
  if_neg (Nat.not_le.mpr h)

theorem start_moved (p : Nat) (t : Token) :
    (t.moved p).span.start = if p ≤ t.span.start then t.span.start + 1 else t.span.start := by
  rw [moved]
  split <;> rfl

end Token

theorem relocates_moved (p : Nat) : Relocates (Token.moved p) := by
  constructor
  · intro t
    rw [Token.moved]
    split <;> rfl
  · intro t
    rw [Token.moved]
    split <;> rfl

/-! ## Reading does not depend on places -/

/-- An error at a token that has been moved. -/
def SyntaxError.relocated (f : Token → Token) (e : SyntaxError) : SyntaxError :=
  { e with token := f e.token }

namespace Relocates

variable {f : Token → Token}

theorem symbol (hf : Relocates f) (t : Token) : (f t).symbol = t.symbol := by
  rw [Token.symbol, hf.kind, Token.symbol]

theorem integer? (hf : Relocates f) (t : Token) : (f t).integer? = t.integer? := by
  rw [Token.integer?, hf.lexeme, Token.integer?]

theorem step (hf : Relocates f) (s : ParseState) (t : Token) : s.step (f t) = s.step t := by
  unfold ParseState.step
  rw [hf.symbol, hf.integer?, hf.lexeme]

/-- The automaton reads moved tokens as it reads the tokens. -/
theorem run_map (hf : Relocates f) (last : Token) (s : ParseState) (ts : List Token) :
    ParseState.run (f last) s (ts.map f) =
      (ParseState.run last s ts).mapError fun e => (f e.1, e.2) := by
  induction ts generalizing s with
  | nil =>
      rw [List.map_nil, ParseState.run, ParseState.run]
      cases s.finish <;> rfl
  | cons t ts ih =>
      rw [List.map_cons, ParseState.run, ParseState.run, hf.step]
      cases s.step t with
      | ok next => exact ih next
      | error cause => rfl

theorem parseExpr_map (hf : Relocates f) (line : Int) (last : Token) (ts : List Token)
    (make : Expr → Stmt) :
    parseExpr line (f last) (ts.map f) make =
      (parseExpr line last ts make).mapError (SyntaxError.relocated f) := by
  rw [parseExpr, parseExpr, hf.run_map]
  cases ParseState.start.run last ts <;> rfl

/-- **Reading does not depend on places.** Where the tokens have been moved, the
same statement is read, or the line is refused at the same token for the same cause. -/
theorem parseTokens_map (hf : Relocates f) (line : Int) (last : Token) (ts : List Token) :
    parseTokens line (f last) (ts.map f) =
      (parseTokens line last ts).mapError (SyntaxError.relocated f) := by
  match ts with
  | [] => rfl
  | [t] => exact hf.parseExpr_map line last [t] _
  | name :: equals :: rest =>
      rw [List.map_cons, List.map_cons, parseTokens, parseTokens, hf.symbol, hf.symbol, hf.lexeme]
      split
      · exact hf.parseExpr_map line last rest _
      · exact hf.parseExpr_map line last (name :: equals :: rest) _

/-- The wording of an error does not depend on places either. -/
theorem text_relocated (hf : Relocates f) (e : SyntaxError) : (e.relocated f).text = e.text := by
  unfold SyntaxError.text SyntaxError.relocated Token.description
  rw [hf.kind, hf.lexeme]

end Relocates

/-! ## Tokens of a text with one more blank -/

namespace Calculator

/-- A text that stands one byte further on has its tokens there. -/
theorem tokensFrom_succ {p start : Nat} (h : p ≤ start) (t : Bytes) :
    tokensFrom (start + 1) t = (tokensFrom start t).map (Token.moved p) := by
  fun_induction tokensFrom start t with
  | case1 start => exact tokensFrom_nil (start + 1)
  | case2 start b rest hletter word ih =>
      rw [tokensFrom_of_isLetter (start + 1) rest hletter, List.map_cons, ← ih (by omega),
        Token.moved_of_le h]
      simp only [Nat.add_right_comm start 1, word]
  | case3 start b rest hletter hdigit word ih =>
      rw [tokensFrom_of_isDigit (start + 1) rest hdigit, List.map_cons, ← ih (by omega),
        Token.moved_of_le h]
      simp only [Nat.add_right_comm start 1, word]
  | case4 start b rest hletter hdigit hblank word ih =>
      rw [tokensFrom_of_isBlank (start + 1) rest hblank, ← ih (by omega)]
      simp only [word, List.length_cons]
      congr 1
      omega
  | case5 start b rest hletter hdigit hblank ih =>
      rw [tokensFrom, if_neg hletter, if_neg hdigit, if_neg hblank, List.map_cons, ← ih (by omega),
        Token.moved_of_le h]

/-- A word that ends before the blank, or where it is put in, ends there with the
blank and without it. -/
theorem span_insert_blank {q : UInt8 → Bool} {w : UInt8} (hw : q w = false) (a b : Bytes)
    (h : ((a ++ b).takeWhile q).length ≤ a.length) :
    ∃ word rest, a = word ++ rest ∧
      (a ++ b).takeWhile q = word ∧ (a ++ b).dropWhile q = rest ++ b ∧
      (a ++ w :: b).takeWhile q = word ∧ (a ++ w :: b).dropWhile q = rest ++ w :: b := by
  induction a with
  | nil =>
      have hnil : b.takeWhile q = [] := List.length_eq_zero_iff.mp (Nat.le_zero.mp h)
      have hdrop : b.dropWhile q = b := by
        have hsplit := List.takeWhile_append_dropWhile (p := q) (l := b)
        rwa [hnil, List.nil_append] at hsplit
      exact ⟨[], [], rfl, hnil, hdrop, List.takeWhile_cons_of_neg (by simp [hw]),
        List.dropWhile_cons_of_neg (by simp [hw])⟩
  | cons c a ih =>
      by_cases hc : q c = true
      · simp only [List.cons_append, List.takeWhile_cons_of_pos hc, List.dropWhile_cons_of_pos hc,
          List.length_cons, Nat.add_le_add_iff_right] at h ⊢
        obtain ⟨word, rest, rfl, htake, hdrop, htake', hdrop'⟩ := ih h
        exact ⟨c :: word, rest, rfl, by rw [htake], hdrop, by rw [htake'], hdrop'⟩
      · simp only [List.cons_append, List.takeWhile_cons_of_neg hc, List.dropWhile_cons_of_neg hc]
        exact ⟨[], c :: a, rfl, rfl, rfl, rfl, rfl⟩

/-- No token of the list is cut in two at offset `p`. -/
def NoneCutAt (p : Nat) (ts : List Token) : Prop :=
  ∀ t ∈ ts, ¬ (t.span.start < p ∧ p < t.span.stop)

/-- One word in front of the place where the blank is put in: it is not reached by
the blank, and the tokens behind it are those of a shorter text. -/
theorem tokensFrom_insert_blank_word {q : UInt8 → Bool} {w : UInt8} (hw : q w = false)
    {start : Nat} {kind : Kind} {c : UInt8} {a b : Bytes}
    (hword : ∀ rest, tokensFrom start (c :: rest) =
      ⟨kind, c :: rest.takeWhile q, ⟨start, start + (c :: rest.takeWhile q).length⟩⟩ ::
        tokensFrom (start + (c :: rest.takeWhile q).length) (rest.dropWhile q))
    (h : NoneCutAt (start + (c :: a).length) (tokensFrom start (c :: a ++ b)))
    (ih : ∀ rest : Bytes, rest.length ≤ a.length → ∀ next,
      NoneCutAt (next + rest.length) (tokensFrom next (rest ++ b)) →
        tokensFrom next (rest ++ w :: b) =
          (tokensFrom next (rest ++ b)).map (Token.moved (next + rest.length))) :
    tokensFrom start (c :: a ++ w :: b) =
      (tokensFrom start (c :: a ++ b)).map (Token.moved (start + (c :: a).length)) := by
  rw [List.cons_append, hword] at h
  have hshort : ((a ++ b).takeWhile q).length ≤ a.length := by
    have hfirst := h _ List.mem_cons_self
    simp only [List.length_cons] at hfirst
    omega
  obtain ⟨word, rest, rfl, htake, hdrop, htake', hdrop'⟩ := span_insert_blank hw a b hshort
  rw [htake, hdrop] at h
  have hplace :
      start + (c :: (word ++ rest)).length = start + (c :: word).length + rest.length := by
    simp only [List.length_cons, List.length_append]
    omega
  have hrest : NoneCutAt (start + (c :: word).length + rest.length)
      (tokensFrom (start + (c :: word).length) (rest ++ b)) := by
    rw [← hplace]
    exact fun t ht => h t (List.mem_cons_of_mem _ ht)
  rw [List.cons_append, List.cons_append, hword, hword, htake, hdrop, htake', hdrop', List.map_cons,
    Token.moved_of_lt (by simp), hplace, ih rest (by simp) _ hrest]

/-- **The tokens of a text with one more blank**: those that start behind it are
moved, and the others stay. -/
theorem tokensFrom_insert_blank {w : UInt8} (hw : Byte.isBlank w = true) (start : Nat)
    (a b : Bytes) (h : NoneCutAt (start + a.length) (tokensFrom start (a ++ b))) :
    tokensFrom start (a ++ w :: b) =
      (tokensFrom start (a ++ b)).map (Token.moved (start + a.length)) := by
  induction hn : a.length using Nat.strongRecOn generalizing a start with
  | _ n ih =>
      subst hn
      cases a with
      | nil =>
          show tokensFrom start (w :: b) = _
          rw [tokensFrom_blank start b hw]
          exact tokensFrom_succ (Nat.le_refl start) b
      | cons c a =>
          have ih' : ∀ rest : Bytes, rest.length ≤ a.length → ∀ next,
              NoneCutAt (next + rest.length) (tokensFrom next (rest ++ b)) →
                tokensFrom next (rest ++ w :: b) =
                  (tokensFrom next (rest ++ b)).map (Token.moved (next + rest.length)) :=
            fun rest hle next hrest => ih rest.length (Nat.lt_succ_of_le hle) next rest hrest rfl
          obtain ⟨hletter, hdigit⟩ := Byte.classes_of_isBlank hw
          by_cases hcl : Byte.isLetter c = true
          · exact tokensFrom_insert_blank_word (by simp [ByteClass.holds, hletter, hdigit])
              (fun rest => tokensFrom_of_isLetter start rest hcl) h ih'
          by_cases hcd : Byte.isDigit c = true
          · exact tokensFrom_insert_blank_word (by simp [ByteClass.holds, hdigit])
              (fun rest => tokensFrom_of_isDigit start rest hcd) h ih'
          by_cases hcb : Byte.isBlank c = true
          · have hplace : start + (c :: a).length = start + 1 + a.length := by
              rw [List.length_cons, Nat.add_right_comm, Nat.add_assoc]
            rw [hplace, List.cons_append, tokensFrom_blank start _ hcb] at h
            rw [hplace, List.cons_append, List.cons_append, tokensFrom_blank start _ hcb,
              tokensFrom_blank start _ hcb]
            exact ih' a (Nat.le_refl _) (start + 1) h
          · -- Any other byte is a token by itself, a word that goes on with nothing.
            have hnothing (rest : Bytes) : rest.takeWhile (fun _ => false) = [] ∧
                rest.dropWhile (fun _ => false) = rest := by
              cases rest <;> exact ⟨rfl, rfl⟩
            have hword (rest : Bytes) : tokensFrom start (c :: rest) =
                ⟨if c ∈ symbols then .ofByte c else .illegal, c :: rest.takeWhile (fun _ => false),
                  ⟨start, start + (c :: rest.takeWhile (fun _ => false)).length⟩⟩ ::
                  tokensFrom (start + (c :: rest.takeWhile (fun _ => false)).length)
                    (rest.dropWhile (fun _ => false)) := by
              rw [(hnothing rest).1, (hnothing rest).2, tokensFrom, if_neg hcl, if_neg hcd,
                if_neg hcb]
              rfl
            exact tokensFrom_insert_blank_word rfl hword h ih'

end Calculator

/-! ## Lines -/

open Calculator

/-- **A line with one more blank**, which is put in between `a` and `b`, is read as
the line without it, its tokens moved. -/
theorem parseLine_insert {w : UInt8} (hw : Byte.isBlank w = true) (a b : Bytes) (line : Int)
    (h : NoneCutAt a.length (tokens (a ++ b))) :
    parseLine (a ++ w :: b) line =
      (parseLine (a ++ b) line).mapError (SyntaxError.relocated (Token.moved a.length)) := by
  have htokens : tokens (a ++ w :: b) = (tokens (a ++ b)).map (Token.moved a.length) := by
    rw [tokens_eq_tokensFrom] at h ⊢
    rw [tokens_eq_tokensFrom]
    have hinsert := tokensFrom_insert_blank hw 0 a b (by rwa [Nat.zero_add])
    rwa [Nat.zero_add] at hinsert
  have hend : Token.atEnd (a ++ w :: b).length =
      (Token.atEnd (a ++ b).length).moved a.length := by
    rw [Token.moved_of_le (by simp [Token.atEnd])]
    simp [Token.atEnd, Nat.add_assoc]
  rw [parseLine, htokens, hend, (relocates_moved a.length).parseTokens_map]
  rfl

/--
**White space between tokens does not matter.** A space, a tab or a carriage return
is put into a line at an offset that stands strictly inside no token. Then both lines
are read as the same statement; or both are refused, with the same number of the line
and in the same words, and the column is one more exactly if the refused token starts
at the offset or behind it.
-/
theorem parseLine_insert_blank (text : Bytes) (line : Int) (p : Nat) (hp : p ≤ text.length)
    (w : UInt8) (hw : w ∈ [Byte.space, Byte.tab, Byte.carriageReturn])
    (hplace : ∀ t ∈ tokens text, ¬ (t.span.start < p ∧ p < t.span.stop)) :
    let padded := text.take p ++ w :: text.drop p
    (∃ s, parseLine text line = .ok s ∧ parseLine padded line = .ok s) ∨
      ∃ e e', parseLine text line = .error e ∧ parseLine padded line = .error e' ∧
        e'.line = e.line ∧ e'.text = e.text ∧
        e'.column = if p ≤ e.column - 1 then e.column + 1 else e.column := by
  intro padded
  have hblank : Byte.isBlank w = true := by
    simp only [List.mem_cons, List.not_mem_nil, or_false] at hw
    rcases hw with rfl | rfl | rfl <;> rfl
  have hlength : (text.take p).length = p := List.length_take_of_le hp
  have hsplit : text.take p ++ text.drop p = text := List.take_append_drop p text
  have hread : parseLine padded line =
      (parseLine text line).mapError (SyntaxError.relocated (Token.moved p)) := by
    have hinsert := parseLine_insert hblank (text.take p) (text.drop p) line
    rw [hlength, hsplit] at hinsert
    exact hinsert hplace
  rw [hread]
  cases parseLine text line with
  | ok s => exact .inl ⟨s, rfl, rfl⟩
  | error e =>
      refine .inr ⟨e, e.relocated (Token.moved p), rfl, rfl, rfl,
        (relocates_moved p).text_relocated e, ?_⟩
      show (e.token.moved p).span.start + 1 =
        if p ≤ e.token.span.start then e.token.span.start + 1 + 1 else e.token.span.start + 1
      rw [Token.start_moved]
      split <;> rfl

/-- In the line `x=12ab` a tab between the digits and the letters, which are two tokens
already, moves the error at the second of them from column five to column six. -/
theorem parseLine_insert_blank_joined :
    let text := utf8 "x=12ab"
    let e : SyntaxError := ⟨7, ⟨.identifier, utf8 "ab", ⟨4, 6⟩⟩, .unexpected .endOfLine⟩
    4 ≤ text.length ∧ Byte.tab ∈ [Byte.space, Byte.tab, Byte.carriageReturn] ∧
      (∀ t ∈ tokens text, ¬ (t.span.start < 4 ∧ 4 < t.span.stop)) ∧
      parseLine text 7 = .error e ∧ e.column = 5 ∧
      ∃ e', parseLine (utf8 "x=12\tab") 7 = .error e' ∧ e'.line = 7 ∧ e'.text = e.text ∧
        e'.column = 6 := by
  intro text e
  have hp : 4 ≤ text.length := by decide
  have hw : Byte.tab ∈ [Byte.space, Byte.tab, Byte.carriageReturn] := by decide
  have hplace : ∀ t ∈ tokens text, ¬ (t.span.start < 4 ∧ 4 < t.span.stop) := by decide +kernel
  have hread : parseLine text 7 = .error e := by decide +kernel
  refine ⟨hp, hw, hplace, hread, rfl, ?_⟩
  rcases parseLine_insert_blank text 7 4 hp Byte.tab hw hplace with
    ⟨s, hs, -⟩ | ⟨e₀, e', he₀, he', hline, htext, hcolumn⟩
  · rw [hread] at hs
    cases hs
  · rw [hread] at he₀
    cases he₀
    exact ⟨e', he', hline, htext, hcolumn⟩

end LineCalculator
