import LineCalculator.Proofs.Tokenizing
import LineCalculator.Proofs.Writing

/-!
# What the scanner gives for a text

A scanner is asked for one token after the other. This module says what the
answers are, for any bytes at all, without speaking of rules or of a search.

* A token is the part of the text that its span tells. Its kind can be read
  off that part alone: it is a **word** of one of four sorts (`Word`), and a
  name or a string of digits ends only where the text does not go on with it.
* Tokens follow one another from left to right and do not overlap, and a byte
  that belongs to no token is a blank (`Tokenizes`). So nothing is lost.
* After at most as many tokens as the text has bytes comes the end token, and
  then the end token for ever.

The first two are carried along the recursion of `tokensFrom`. The text before
the present place is kept as `done`, so that spans are lengths: a word behind
`done` and before `rest` has the span from `done.length` on.

The third is about requests. A scanner with nothing to read ahead answers with
the end token and still has nothing ahead; any other request takes the first of
the readings to come (`next_of_readings_eq_cons`). By induction on the number of
requests, request number `i` is answered with reading number `i`.

## Main results

* `tokenizes_tokensFrom` — the tokens from a place of the text on.
* `Scanner.request_eq` — what each request is answered with.
* `tokens_cover_text_maximally` — the sequence of all answers.
-/

namespace LineCalculator

namespace Calculator

/-! ## Words -/

/-- The words that tokens are made of, with their kinds. -/
inductive Word : Bytes → Kind → Prop
  | name {w : Bytes} : IsIdentifier w → Word w .identifier
  | digits {w : Bytes} : w ≠ [] → (∀ b ∈ w, Byte.isDigit b = true) → Word w .integer
  | symbol {b : UInt8} : b ∈ symbols → Word [b] (.ofByte b)
  | illegal {b : UInt8} : Byte.isLetter b = false → Byte.isDigit b = false →
      Byte.isBlank b = false → b ∉ symbols → Word [b] .illegal

theorem ofByte_ne_of_neg (b : UInt8) {k : Kind} (hk : k.code < 0) : Kind.ofByte b ≠ k := by
  intro h
  have hcode : (b.toNat : Int) = k.code := congrArg Kind.code h
  omega

theorem isIdentifier_singleton {b : UInt8} (h : IsIdentifier [b]) : Byte.isLetter b = true := by
  obtain ⟨_, _, he, hb, -⟩ := h
  cases he
  exact hb

/-- A name starts with no digit. -/
theorem not_isDigit_of_isIdentifier {w : Bytes} (h : IsIdentifier w) :
    ¬ ∀ b ∈ w, Byte.isDigit b = true := by
  intro hdigits
  obtain ⟨b, more, rfl, hb, -⟩ := h
  have hdigit : Byte.isDigit b = true := hdigits b List.mem_cons_self
  have hletter : Byte.isLetter b = false := (Byte.classes_of_isDigit hdigit).1
  have hb : Byte.isLetter b = true := hb
  rw [hletter] at hb
  cases hb

namespace Word

theorem ne_nil {w : Bytes} {k : Kind} (h : Word w k) : w ≠ [] := by
  cases h with
  | name hw =>
      obtain ⟨b, more, rfl, -⟩ := hw
      simp
  | digits hne _ => exact hne
  | symbol _ => simp
  | illegal _ _ _ _ => simp

theorem kind_ne_endOfText {w : Bytes} {k : Kind} (h : Word w k) : k ≠ .endOfText := by
  cases h with
  | name _ => decide
  | digits _ _ => decide
  | symbol _ => exact ofByte_ne_of_neg _ (by decide)
  | illegal _ _ _ _ => decide

theorem kind_eq_identifier_iff {w : Bytes} {k : Kind} (h : Word w k) :
    k = .identifier ↔ IsIdentifier w := by
  cases h with
  | name hw => exact iff_of_true rfl hw
  | digits _ hdigits =>
      exact iff_of_false (by decide) fun hw => not_isDigit_of_isIdentifier hw hdigits
  | symbol hb =>
      refine iff_of_false (ofByte_ne_of_neg _ (by decide)) fun hw => ?_
      have hletter := isIdentifier_singleton hw
      rw [(classes_of_mem_symbols hb).1] at hletter
      cases hletter
  | illegal hletter _ _ _ =>
      refine iff_of_false (by decide) fun hw => ?_
      rw [isIdentifier_singleton hw] at hletter
      cases hletter

theorem kind_eq_integer_iff {w : Bytes} {k : Kind} (h : Word w k) :
    k = .integer ↔ w ≠ [] ∧ ∀ b ∈ w, Byte.isDigit b = true := by
  have hone {b : UInt8} (hb : Byte.isDigit b = false) :
      ¬ ([b] ≠ [] ∧ ∀ c ∈ [b], Byte.isDigit c = true) := by
    rintro ⟨-, hdigits⟩
    rw [hdigits b (List.mem_singleton.mpr rfl)] at hb
    cases hb
  cases h with
  | name hw =>
      exact iff_of_false (by decide) fun hdigits => not_isDigit_of_isIdentifier hw hdigits.2
  | digits hne hdigits => exact iff_of_true rfl ⟨hne, hdigits⟩
  | symbol hb =>
      exact iff_of_false (ofByte_ne_of_neg _ (by decide)) (hone (classes_of_mem_symbols hb).2.1)
  | illegal _ hdigit _ _ => exact iff_of_false (by decide) (hone hdigit)

theorem kind_eq_ofByte_iff {w : Bytes} {k : Kind} (h : Word w k) (b : UInt8) :
    k = .ofByte b ↔ w = [b] ∧ b ∈ symbols := by
  cases h with
  | name hw =>
      refine iff_of_false (ofByte_ne_of_neg b (by decide)).symm ?_
      rintro ⟨rfl, hb⟩
      have hletter := isIdentifier_singleton hw
      rw [(classes_of_mem_symbols hb).1] at hletter
      cases hletter
  | digits _ hdigits =>
      refine iff_of_false (ofByte_ne_of_neg b (by decide)).symm ?_
      rintro ⟨rfl, hb⟩
      have hdigit := hdigits b (List.mem_singleton.mpr rfl)
      rw [(classes_of_mem_symbols hb).2.1] at hdigit
      cases hdigit
  | @symbol c hc =>
      constructor
      · intro hkind
        have hcode : (c.toNat : Int) = b.toNat := congrArg Kind.code hkind
        have hbyte : c = b := UInt8.toNat_inj.mp (Int.ofNat.inj hcode)
        subst hbyte
        exact ⟨rfl, hc⟩
      · rintro ⟨hword, -⟩
        rw [List.singleton_inj.mp hword]
  | illegal _ _ _ hc =>
      refine iff_of_false (ofByte_ne_of_neg b (by decide)).symm ?_
      rintro ⟨hword, hb⟩
      rw [List.singleton_inj.mp hword] at hc
      exact hc hb

theorem kind_eq_illegal_iff {w : Bytes} {k : Kind} (h : Word w k) :
    k = .illegal ↔ ∃ b, w = [b] ∧ Byte.isLetter b = false ∧ Byte.isDigit b = false ∧
      Byte.isBlank b = false ∧ b ∉ symbols := by
  cases h with
  | name hw =>
      refine iff_of_false (by decide) ?_
      rintro ⟨b, rfl, hletter, -⟩
      rw [isIdentifier_singleton hw] at hletter
      cases hletter
  | digits _ hdigits =>
      refine iff_of_false (by decide) ?_
      rintro ⟨b, rfl, -, hdigit, -⟩
      rw [hdigits b (List.mem_singleton.mpr rfl)] at hdigit
      cases hdigit
  | symbol hc =>
      refine iff_of_false (ofByte_ne_of_neg _ (by decide)) ?_
      rintro ⟨b, hword, -, -, -, hb⟩
      rw [List.singleton_inj.mp hword] at hc
      exact hb hc
  | @illegal c hletter hdigit hblank hc =>
      exact iff_of_true rfl ⟨c, rfl, hletter, hdigit, hblank, hc⟩

end Word

/-! ## Tokens in their text -/

/-- What can be said of a token of a text, the end token apart. -/
structure StandsIn (t : Bytes) (token : Token) : Prop where
  kind_ne_endOfText : token.kind ≠ .endOfText
  start_lt_stop : token.span.start < token.span.stop
  stop_le_length : token.span.stop ≤ t.length
  /-- The lexeme is what the text has at the span. -/
  lexeme_eq : token.lexeme =
    (t.drop token.span.start).take (token.span.stop - token.span.start)
  identifier_iff : token.kind = .identifier ↔ IsIdentifier token.lexeme
  /-- A name does not go on behind its token. -/
  identifier_ends : token.kind = .identifier → ∀ b, t[token.span.stop]? = some b →
    Byte.isLetter b = false ∧ Byte.isDigit b = false
  integer_iff : token.kind = .integer ↔
    token.lexeme ≠ [] ∧ ∀ b ∈ token.lexeme, Byte.isDigit b = true
  /-- Digits do not go on behind their token. -/
  integer_ends : token.kind = .integer → ∀ b, t[token.span.stop]? = some b →
    Byte.isDigit b = false
  symbol_iff : ∀ b, token.kind = .ofByte b ↔ token.lexeme = [b] ∧ b ∈ utf8 "()+-*/="
  illegal_iff : token.kind = .illegal ↔ ∃ b, token.lexeme = [b] ∧ Byte.isLetter b = false ∧
    Byte.isDigit b = false ∧ Byte.isBlank b = false ∧ b ∉ utf8 "()+-*/="

theorem mem_symbols_iff (b : UInt8) : b ∈ symbols ↔ b ∈ utf8 "()+-*/=" := by
  have htext : utf8 "()+-*/=" = [40, 41, 43, 45, 42, 47, 61] := by decide
  rw [htext]
  rfl

theorem getElem?_length_append (s t : Bytes) : (s ++ t)[s.length]? = t.head? := by
  rw [List.getElem?_append_right (Nat.le_refl _), Nat.sub_self, List.head?_eq_getElem?]

/-- A word is a token of the text around it, unless the text goes on with it. -/
theorem standsIn_of_word (done : Bytes) {w : Bytes} {k : Kind} (rest : Bytes) (hw : Word w k)
    (hname : k = .identifier → ∀ b ∈ rest.head?, ByteClass.letterOrDigit.holds b = false)
    (hdigits : k = .integer → ∀ b ∈ rest.head?, ByteClass.digit.holds b = false) :
    StandsIn (done ++ w ++ rest) ⟨k, w, ⟨done.length, done.length + w.length⟩⟩ := by
  have hstop : (done ++ w ++ rest)[done.length + w.length]? = rest.head? := by
    rw [← List.length_append]
    exact getElem?_length_append (done ++ w) rest
  have hpos : 0 < w.length := List.length_pos_iff.mpr hw.ne_nil
  refine
    { kind_ne_endOfText := hw.kind_ne_endOfText
      start_lt_stop := Nat.lt_add_of_pos_right hpos
      stop_le_length := ?_
      lexeme_eq := ?_
      identifier_iff := hw.kind_eq_identifier_iff
      identifier_ends := ?_
      integer_iff := hw.kind_eq_integer_iff
      integer_ends := ?_
      symbol_iff := ?_
      illegal_iff := ?_ }
  · show done.length + w.length ≤ (done ++ w ++ rest).length
    rw [List.length_append, List.length_append]
    omega
  · show w = ((done ++ w ++ rest).drop done.length).take (done.length + w.length - done.length)
    rw [List.append_assoc, List.drop_left, Nat.add_sub_cancel_left, List.take_left]
  · intro hkind b hb
    rw [hstop] at hb
    have hholds := hname hkind b hb
    simpa [ByteClass.holds] using hholds
  · intro hkind b hb
    rw [hstop] at hb
    exact hdigits hkind b hb
  · intro b
    rw [← mem_symbols_iff]
    exact hw.kind_eq_ofByte_iff b
  · simp only [← mem_symbols_iff]
    exact hw.kind_eq_illegal_iff

/-! ## Tokens in order, and what is between them -/

/-- These are the tokens of the text from offset `start` on. -/
structure Tokenizes (t : Bytes) (start : Nat) (tokens : List Token) : Prop where
  standsIn : ∀ token ∈ tokens, StandsIn t token
  start_le : ∀ token ∈ tokens, start ≤ token.span.start
  /-- A token ends before the tokens behind it start. -/
  ordered : tokens.Pairwise fun a b => a.span.stop ≤ b.span.start
  /-- A byte that belongs to no token is a blank. -/
  blank_of_uncovered : ∀ i b, start ≤ i → t[i]? = some b →
    (∀ token ∈ tokens, ¬ (token.span.start ≤ i ∧ i < token.span.stop)) → Byte.isBlank b = true

namespace Tokenizes

theorem nil (t : Bytes) : Tokenizes t t.length [] := by
  refine ⟨by simp, by simp, .nil, ?_⟩
  intro i b hle hb _
  rw [List.getElem?_eq_none hle] at hb
  cases hb

theorem cons {t : Bytes} {token : Token} {tokens : List Token} (htoken : StandsIn t token)
    (h : Tokenizes t token.span.stop tokens) :
    Tokenizes t token.span.start (token :: tokens) := by
  have hlt := htoken.start_lt_stop
  refine ⟨?_, ?_, List.pairwise_cons.mpr ⟨h.start_le, h.ordered⟩, ?_⟩
  · intro other hother
    rcases List.mem_cons.mp hother with rfl | hother
    · exact htoken
    · exact h.standsIn other hother
  · intro other hother
    rcases List.mem_cons.mp hother with rfl | hother
    · exact Nat.le_refl _
    · have hle := h.start_le other hother
      omega
  · intro i b hle hb huncovered
    -- The token covers what is between its start and its stop.
    have hstop : token.span.stop ≤ i := by
      have hhead := huncovered token List.mem_cons_self
      omega
    exact h.blank_of_uncovered i b hstop hb fun other hother =>
      huncovered other (List.mem_cons_of_mem _ hother)

/-- Blanks in front make no difference. -/
theorem skip {done w rest : Bytes} {tokens : List Token}
    (hblank : ∀ b ∈ w, Byte.isBlank b = true)
    (h : Tokenizes (done ++ w ++ rest) (done.length + w.length) tokens) :
    Tokenizes (done ++ w ++ rest) done.length tokens := by
  refine ⟨h.standsIn, ?_, h.ordered, ?_⟩
  · intro token htoken
    have hle := h.start_le token htoken
    omega
  · intro i b hle hb huncovered
    by_cases hi : done.length + w.length ≤ i
    · exact h.blank_of_uncovered i b hi hb huncovered
    · have hword : w[i - done.length]? = some b := by
        rw [List.append_assoc, List.getElem?_append_right hle,
          List.getElem?_append_left (by omega)] at hb
        exact hb
      exact hblank b (List.mem_of_getElem? hword)

end Tokenizes

theorem head?_dropWhile (p : UInt8 → Bool) (t : Bytes) :
    ∀ b ∈ (t.dropWhile p).head?, p b = false := by
  intro b hb
  have hnot := List.head?_dropWhile_not p t
  rw [hb] at hnot
  exact hnot

theorem cons_takeWhile_append (b : UInt8) (p : UInt8 → Bool) (rest : Bytes) :
    b :: rest = (b :: rest.takeWhile p) ++ rest.dropWhile p := by
  rw [List.cons_append, List.takeWhile_append_dropWhile]

/-- **The tokens from a place of the text on**, when `done` stands before it. -/
theorem tokenizes_tokensFrom (done t : Bytes) :
    Tokenizes (done ++ t) done.length (tokensFrom done.length t) := by
  generalize hstart : done.length = start
  fun_induction tokensFrom start t generalizing done with
  | case1 start =>
      subst hstart
      rw [List.append_nil]
      exact .nil done
  | case2 start b rest hletter word ih =>
      subst hstart
      have hrest := ih (done ++ word) List.length_append
      have hword : Word word .identifier :=
        .name ⟨b, _, rfl, hletter, List.all_eq_true.mp List.all_takeWhile⟩
      rw [cons_takeWhile_append b, ← List.append_assoc]
      exact .cons (standsIn_of_word done _ hword (fun _ => head?_dropWhile _ rest)
        fun h => absurd h (by decide)) hrest
  | case3 start b rest hletter hdigit word ih =>
      subst hstart
      have hrest := ih (done ++ word) List.length_append
      have hdigits : ∀ c ∈ word, Byte.isDigit c = true := by
        intro c hc
        rcases List.mem_cons.mp hc with rfl | hc
        · exact hdigit
        · exact List.all_eq_true.mp List.all_takeWhile c hc
      have hword : Word word .integer := .digits (List.cons_ne_nil _ _) hdigits
      rw [cons_takeWhile_append b, ← List.append_assoc]
      exact .cons (standsIn_of_word done _ hword (fun h => absurd h (by decide))
        fun _ => head?_dropWhile _ rest) hrest
  | case4 start b rest hletter hdigit hblank word ih =>
      subst hstart
      have hrest := ih (done ++ word) List.length_append
      have hblanks : ∀ c ∈ word, Byte.isBlank c = true := by
        intro c hc
        rcases List.mem_cons.mp hc with rfl | hc
        · exact hblank
        · exact List.all_eq_true.mp List.all_takeWhile c hc
      rw [cons_takeWhile_append b, ← List.append_assoc]
      exact .skip hblanks hrest
  | case5 start b rest hletter hdigit hblank ih =>
      subst hstart
      have hrest := ih (done ++ [b]) List.length_append
      have hword : Word [b] (if b ∈ symbols then .ofByte b else .illegal) := by
        split
        · next hb => exact .symbol hb
        · next hb =>
          exact .illegal (Bool.eq_false_iff.mpr hletter) (Bool.eq_false_iff.mpr hdigit)
            (Bool.eq_false_iff.mpr hblank) hb
      have hnoName : (if b ∈ symbols then Kind.ofByte b else .illegal) ≠ .identifier :=
        kind_ne_identifier b
      have hnoDigits : (if b ∈ symbols then Kind.ofByte b else .illegal) ≠ .integer := by
        split
        · exact ofByte_ne_of_neg b (by decide)
        · decide
      rw [show done ++ b :: rest = done ++ [b] ++ rest by simp]
      exact .cons (standsIn_of_word done rest hword (fun h => absurd h hnoName)
        fun h => absurd h hnoDigits) hrest

/-- Every token takes a byte. -/
theorem length_tokensFrom_le (start : Nat) (t : Bytes) :
    (tokensFrom start t).length ≤ t.length := by
  fun_induction tokensFrom start t with
  | case1 => exact Nat.le_refl _
  | case2 start b rest hletter word ih =>
      have hdrop := (rest.dropWhile_sublist ByteClass.letterOrDigit.holds).length_le
      simp only [List.length_cons]
      omega
  | case3 start b rest hletter hdigit word ih =>
      have hdrop := (rest.dropWhile_sublist ByteClass.digit.holds).length_le
      simp only [List.length_cons]
      omega
  | case4 start b rest hletter hdigit hblank word ih =>
      have hdrop := (rest.dropWhile_sublist ByteClass.blank.holds).length_le
      simp only [List.length_cons]
      omega
  | case5 start b rest hletter hdigit hblank ih =>
      simp only [List.length_cons]
      omega

end Calculator

/-! ## Requests -/

namespace Scanner

/-- The readings to come, the end token apart. -/
def readings (s : Scanner) : List Reading := s.ahead.filterMap (Piece.reading? s.length)

/-- What request number `i`, counted from zero, is answered with. -/
def request (s : Scanner) : Nat → Reading
  | 0 => s.next.1
  | i + 1 => s.next.2.request i

theorem take_of_filterMap_eq_nil {length : Nat} {ahead : List Piece}
    (h : ahead.filterMap (Piece.reading? length) = []) :
    take length ahead = (⟨Token.atEnd length, none⟩, []) := by
  induction ahead with
  | nil => rfl
  | cons p ahead ih =>
      cases hp : p.reading? length with
      | some r => simp [hp] at h
      | none =>
          rw [List.filterMap_cons_none hp] at h
          rw [take, hp, ih h]

theorem take_of_filterMap_eq_cons {length : Nat} {ahead : List Piece} {r : Reading}
    {rs : List Reading} (h : ahead.filterMap (Piece.reading? length) = r :: rs) :
    (take length ahead).1 = r ∧
      (take length ahead).2.filterMap (Piece.reading? length) = rs := by
  induction ahead with
  | nil => cases h
  | cons p ahead ih =>
      cases hp : p.reading? length with
      | some r' =>
          rw [List.filterMap_cons_some hp] at h
          rw [take, hp]
          exact List.cons.inj h
      | none =>
          rw [List.filterMap_cons_none hp] at h
          rw [take, hp]
          exact ih h

/-- With nothing to come, a request is answered with the end token, and there
is still nothing to come. -/
theorem next_of_readings_eq_nil {s : Scanner} (h : s.readings = []) :
    s.next.1 = ⟨Token.atEnd s.length, none⟩ ∧ s.next.2.readings = [] := by
  have htake := take_of_filterMap_eq_nil h
  unfold next
  rw [htake]
  exact ⟨rfl, rfl⟩

/-- Otherwise it takes the first of the readings to come. -/
theorem next_of_readings_eq_cons {s : Scanner} {r : Reading} {rs : List Reading}
    (h : s.readings = r :: rs) : s.next.1 = r ∧ s.next.2.readings = rs :=
  take_of_filterMap_eq_cons h

/-- **What each request is answered with**: the readings in order, and the end
token for ever behind them. -/
theorem request_eq (s : Scanner) (i : Nat) :
    s.request i = s.readings[i]?.getD ⟨Token.atEnd s.length, none⟩ := by
  induction i generalizing s with
  | zero =>
      cases hs : s.readings with
      | nil => exact (next_of_readings_eq_nil hs).1
      | cons r rs => exact (next_of_readings_eq_cons hs).1
  | succ i ih =>
      have hlater := ih s.next.2
      cases hs : s.readings with
      | nil =>
          rw [(next_of_readings_eq_nil hs).2] at hlater
          exact hlater
      | cons r rs =>
          rw [(next_of_readings_eq_cons hs).2] at hlater
          exact hlater

/-- Reading until the end token gives all readings, if none of them is of its kind. -/
theorem untilEnd_eq {s : Scanner} (h : ∀ r ∈ s.readings, r.token.kind ≠ .endOfText) :
    s.untilEnd = s.readings ++
      [⟨Token.atEnd s.length, none⟩, ⟨Token.atEnd s.length, none⟩] := by
  generalize hrs : s.readings = rs at h
  induction rs generalizing s with
  | nil =>
      obtain ⟨hfirst, hrest⟩ := next_of_readings_eq_nil hrs
      have hsecond := (next_of_readings_eq_nil hrest).1
      rw [untilEnd, hfirst, hsecond]
      rfl
  | cons r rs ih =>
      obtain ⟨hfirst, hrest⟩ := next_of_readings_eq_cons hrs
      have hkind : r.token.kind ≠ .endOfText := h r List.mem_cons_self
      have hothers := ih hrest fun r' hr' => h r' (List.mem_cons_of_mem _ hr')
      rw [untilEnd, hfirst, if_neg hkind, hothers]
      rfl

end Scanner

open Calculator

/--
**What the calculator's scanner gives for a text.** For every text, the tokens
in front of the end token are the parts of the text that their spans tell, each
of the kind of its bytes and as long as it can be; they are in order, do not
overlap, and leave out nothing but blanks. There are at most as many of them as
the text has bytes. Every request before that is answered with the token in
turn, and every later one with the end token behind the last byte.
-/
theorem tokens_cover_text_maximally (t : Bytes) :
    (∀ token ∈ tokens t, StandsIn t token) ∧
      (tokens t).Pairwise (fun a b => a.span.stop ≤ b.span.start) ∧
      (∀ i b, t[i]? = some b →
        (∀ token ∈ tokens t, ¬ (token.span.start ≤ i ∧ i < token.span.stop)) →
          Byte.isBlank b = true) ∧
      (tokens t).length ≤ t.length ∧
      (∀ i < (tokens t).length, (tokens t)[i]? = some ((lexer.scanner t).request i).token) ∧
      (∀ i, (tokens t).length ≤ i →
        ((lexer.scanner t).request i).token = ⟨.endOfText, [], ⟨t.length, t.length⟩⟩) ∧
      ∀ listener, (lexer.scan listener t).tokens =
        tokens t ++ [Token.atEnd t.length, Token.atEnd t.length] := by
  have htokens : Tokenizes t 0 (tokens t) := by
    rw [tokens_eq_tokensFrom]
    exact tokenizes_tokensFrom [] t
  have hlength : (tokens t).length ≤ t.length := by
    rw [tokens_eq_tokensFrom]
    exact length_tokensFrom_le 0 t
  have hrequest : ∀ i, ((lexer.scanner t).request i).token =
      (tokens t)[i]?.getD (Token.atEnd t.length) := by
    intro i
    have hmap : (tokens t)[i]? = (lexer.scanner t).readings[i]?.map Reading.token :=
      List.getElem?_map
    rw [Scanner.request_eq, hmap]
    cases (lexer.scanner t).readings[i]? <;> rfl
  refine ⟨htokens.standsIn, htokens.ordered, ?_, hlength, ?_, ?_, ?_⟩
  · intro i b hb huncovered
    exact htokens.blank_of_uncovered i b (Nat.zero_le i) hb huncovered
  · intro i hi
    rw [hrequest, List.getElem?_eq_getElem hi]
    rfl
  · intro i hi
    rw [hrequest, List.getElem?_eq_none hi]
    rfl
  · intro listener
    have hkinds : ∀ r ∈ (lexer.scanner t).readings, r.token.kind ≠ .endOfText := by
      intro r hr
      exact (htokens.standsIn r.token (List.mem_map_of_mem hr)).kind_ne_endOfText
    show (lexer.scanner t).untilEnd.map Reading.token = _
    rw [Scanner.untilEnd_eq hkinds, List.map_append]
    rfl

end LineCalculator
