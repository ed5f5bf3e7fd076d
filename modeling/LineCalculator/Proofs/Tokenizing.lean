import LineCalculator.Lexer.Calculator

/-!
# The calculator's tokens, byte by byte

The lexer steps ten rules side by side and remembers the last place where one
of them accepted. For the calculator's own rules the outcome can be read off
the first byte: its rules start with bytes of disjoint classes, so at most one
of them survives the first step. A letter starts a name, a digit starts an
integer, a blank is skipped, one of the seven symbols stands for itself, and
any other byte is illegal on its own.

`tokensFrom` says just that, by recursion on the text. It is the form in which
the texts that the calculator writes are read back.

## Main results

* `longest_eq` — the longest match from the first byte on.
* `tokens_eq_tokensFrom` — the lexer gives the tokens of `tokensFrom`.
* `tokensFrom_name`, `tokensFrom_digits`, `tokensFrom_symbol` — a word in front
  of a text that cannot go on with it is a token of its own.
-/

namespace LineCalculator

namespace Byte

/-! ## Classes of bytes are disjoint -/

theorem classes_of_isLetter {b : UInt8} (h : isLetter b = true) :
    isDigit b = false ∧ isBlank b = false := by
  grind [isLetter, isDigit, isBlank, space, tab, carriageReturn]

theorem classes_of_isDigit {b : UInt8} (h : isDigit b = true) :
    isLetter b = false ∧ isBlank b = false := by
  grind [isLetter, isDigit, isBlank, space, tab, carriageReturn]

theorem classes_of_isBlank {b : UInt8} (h : isBlank b = true) :
    isLetter b = false ∧ isDigit b = false := by
  grind [isLetter, isDigit, isBlank, space, tab, carriageReturn]

end Byte

namespace Calculator

/-- A symbol belongs to no class of bytes. -/
theorem classes_of_mem_symbols {b : UInt8} (h : b ∈ symbols) :
    Byte.isLetter b = false ∧ Byte.isDigit b = false ∧ Byte.isBlank b = false := by
  simp only [symbols, List.mem_cons, List.not_mem_nil, or_false] at h
  rcases h with rfl | rfl | rfl | rfl | rfl | rfl | rfl
  all_goals decide

/-! ## The longest match -/

theorem rules_eq : lexer.rules =
    [⟨.word .letter .letterOrDigit, .emit .identifier⟩, ⟨.word .digit .digit, .emit .integer⟩,
      ⟨.word .blank .blank, .skip⟩] ++ symbols.map fun b => ⟨.text [b], .emit (.ofByte b)⟩ := by
  rfl

/-- Of the rules for symbols, those of the byte itself live on. -/
theorem filterMap_advance_symbols (b : UInt8) (bs : Bytes) (action : UInt8 → Action) :
    (bs.map fun c => (⟨.text [c], action c⟩ : Rule)).filterMap (Rule.advance b) =
      (bs.filter (· == b)).map fun c => ⟨.text [], action c⟩ := by
  induction bs with
  | nil => rfl
  | cons c bs ih =>
      rw [List.map_cons, List.filterMap_cons, ih]
      by_cases h : b = c
      · subst h
        simp [Rule.advance, Pattern.advance]
      · simp [Rule.advance, Pattern.advance, h, Ne.symm h]

theorem filter_symbols_of_mem {b : UInt8} (h : b ∈ symbols) : symbols.filter (· == b) = [b] := by
  simp only [symbols, List.mem_cons, List.not_mem_nil, or_false] at h
  rcases h with rfl | rfl | rfl | rfl | rfl | rfl | rfl
  all_goals decide

theorem filter_symbols_of_notMem {b : UInt8} (h : b ∉ symbols) :
    symbols.filter (· == b) = [] := by
  rw [List.filter_eq_nil_iff]
  intro c hc heq
  rw [beq_iff_eq] at heq
  exact h (heq ▸ hc)

/-- The rules that live on behind a byte, class by class. -/
theorem filterMap_advance_rules (b : UInt8) : lexer.rules.filterMap (Rule.advance b) =
    if Byte.isLetter b then [⟨.run .letterOrDigit, .emit .identifier⟩]
    else if Byte.isDigit b then [⟨.run .digit, .emit .integer⟩]
    else if Byte.isBlank b then [⟨.run .blank, .skip⟩]
    else if b ∈ symbols then [⟨.text [], .emit (.ofByte b)⟩]
    else [] := by
  rw [rules_eq, List.filterMap_append, filterMap_advance_symbols]
  by_cases hsymbol : b ∈ symbols
  · obtain ⟨hletter, hdigit, hblank⟩ := classes_of_mem_symbols hsymbol
    simp [filter_symbols_of_mem hsymbol, Rule.advance, Pattern.advance, ByteClass.holds,
      hletter, hdigit, hblank, hsymbol]
  · rw [filter_symbols_of_notMem hsymbol]
    by_cases hletter : Byte.isLetter b = true
    · obtain ⟨hdigit, hblank⟩ := Byte.classes_of_isLetter hletter
      simp [Rule.advance, Pattern.advance, ByteClass.holds, hletter, hdigit, hblank]
    · by_cases hdigit : Byte.isDigit b = true
      · obtain ⟨-, hblank⟩ := Byte.classes_of_isDigit hdigit
        simp [Rule.advance, Pattern.advance, ByteClass.holds, hletter, hdigit, hblank]
      · by_cases hblank : Byte.isBlank b = true
        · simp [Rule.advance, Pattern.advance, ByteClass.holds, hletter, hdigit, hblank]
        · simp [Rule.advance, Pattern.advance, ByteClass.holds, hletter, hdigit, hblank,
            hsymbol]

/-- A run that is the only live rule goes on as long as its class lasts. -/
theorem search_run (c : ByteClass) (action : Action) (used : Nat) (t : Bytes) :
    Rule.search [⟨.run c, action⟩] used (some (used, action)) t =
      .hit (used + (t.takeWhile c.holds).length) action := by
  induction t generalizing used with
  | nil => rfl
  | cons b t ih =>
      by_cases hb : c.holds b = true
      · have hlive : [(⟨.run c, action⟩ : Rule)].filterMap (Rule.advance b) =
            [⟨.run c, action⟩] := by
          simp [Rule.advance, Pattern.advance, hb]
        rw [Rule.search, hlive, List.takeWhile_cons, if_pos hb, List.length_cons]
        show Rule.search _ (used + 1) (some (used + 1, action)) t = _
        rw [ih, Nat.add_assoc, Nat.add_comm 1]
      · have hdead : [(⟨.run c, action⟩ : Rule)].filterMap (Rule.advance b) = [] := by
          simp [Rule.advance, Pattern.advance, hb]
        rw [Rule.search, hdead, List.takeWhile_cons, if_neg hb]
        rfl

/-- A text that is matched to its end cannot go on. -/
theorem search_text_nil (action : Action) (used : Nat) (t : Bytes) :
    Rule.search [⟨.text [], action⟩] used (some (used, action)) t = .hit used action := by
  cases t <;> rfl

/-- The longest match from the first byte on. -/
theorem longest_eq (b : UInt8) (rest : Bytes) : Rule.longest lexer.rules (b :: rest) =
    if Byte.isLetter b then
      .hit (1 + (rest.takeWhile ByteClass.letterOrDigit.holds).length) (.emit .identifier)
    else if Byte.isDigit b then
      .hit (1 + (rest.takeWhile ByteClass.digit.holds).length) (.emit .integer)
    else if Byte.isBlank b then
      .hit (1 + (rest.takeWhile ByteClass.blank.holds).length) .skip
    else if b ∈ symbols then .hit 1 (.emit (.ofByte b))
    else .miss 1 := by
  rw [Rule.longest, Rule.search, filterMap_advance_rules]
  by_cases hletter : Byte.isLetter b = true
  · simp only [hletter, if_true]
    exact search_run .letterOrDigit (.emit .identifier) 1 rest
  · by_cases hdigit : Byte.isDigit b = true
    · simp only [hletter, hdigit, if_true]
      exact search_run .digit (.emit .integer) 1 rest
    · by_cases hblank : Byte.isBlank b = true
      · simp only [hletter, hdigit, hblank, if_true]
        exact search_run .blank .skip 1 rest
      · by_cases hsymbol : b ∈ symbols
        · simp only [hletter, hdigit, hblank, hsymbol, if_true]
          exact search_text_nil (.emit (.ofByte b)) 1 rest
        · simp only [hletter, hdigit, hblank, hsymbol, if_false]
          rfl

/-! ## Tokens by recursion on the text -/

/-- The tokens of a text whose first byte has offset `start`. -/
def tokensFrom (start : Nat) : Bytes → List Token
  | [] => []
  | b :: rest =>
    if Byte.isLetter b then
      let word := b :: rest.takeWhile ByteClass.letterOrDigit.holds
      ⟨.identifier, word, ⟨start, start + word.length⟩⟩ ::
        tokensFrom (start + word.length) (rest.dropWhile ByteClass.letterOrDigit.holds)
    else if Byte.isDigit b then
      let word := b :: rest.takeWhile ByteClass.digit.holds
      ⟨.integer, word, ⟨start, start + word.length⟩⟩ ::
        tokensFrom (start + word.length) (rest.dropWhile ByteClass.digit.holds)
    else if Byte.isBlank b then
      let word := b :: rest.takeWhile ByteClass.blank.holds
      tokensFrom (start + word.length) (rest.dropWhile ByteClass.blank.holds)
    else
      ⟨if b ∈ symbols then .ofByte b else .illegal, [b], ⟨start, start + 1⟩⟩ ::
        tokensFrom (start + 1) rest
termination_by t => t.length
decreasing_by
  all_goals simp only [List.length_cons]
  · exact Nat.lt_succ_of_le (List.dropWhile_sublist _).length_le
  · exact Nat.lt_succ_of_le (List.dropWhile_sublist _).length_le
  · exact Nat.lt_succ_of_le (List.dropWhile_sublist _).length_le
  · exact Nat.lt_succ_self _

theorem tokensFrom_nil (start : Nat) : tokensFrom start [] = [] := by rw [tokensFrom]

theorem tokensFrom_of_isLetter (start : Nat) {b : UInt8} (rest : Bytes)
    (h : Byte.isLetter b = true) : tokensFrom start (b :: rest) =
      let word := b :: rest.takeWhile ByteClass.letterOrDigit.holds
      ⟨.identifier, word, ⟨start, start + word.length⟩⟩ ::
        tokensFrom (start + word.length) (rest.dropWhile ByteClass.letterOrDigit.holds) := by
  rw [tokensFrom, if_pos h]

theorem tokensFrom_of_isDigit (start : Nat) {b : UInt8} (rest : Bytes)
    (h : Byte.isDigit b = true) : tokensFrom start (b :: rest) =
      let word := b :: rest.takeWhile ByteClass.digit.holds
      ⟨.integer, word, ⟨start, start + word.length⟩⟩ ::
        tokensFrom (start + word.length) (rest.dropWhile ByteClass.digit.holds) := by
  obtain ⟨hletter, -⟩ := Byte.classes_of_isDigit h
  rw [tokensFrom, if_neg (by simp [hletter]), if_pos h]

theorem tokensFrom_of_isBlank (start : Nat) {b : UInt8} (rest : Bytes)
    (h : Byte.isBlank b = true) : tokensFrom start (b :: rest) =
      tokensFrom (start + (1 + (rest.takeWhile ByteClass.blank.holds).length))
        (rest.dropWhile ByteClass.blank.holds) := by
  obtain ⟨hletter, hdigit⟩ := Byte.classes_of_isBlank h
  rw [tokensFrom, if_neg (by simp [hletter]), if_neg (by simp [hdigit]), if_pos h,
    Nat.add_comm 1]
  rfl

theorem take_length_takeWhile (p : UInt8 → Bool) (t : Bytes) :
    t.take (t.takeWhile p).length = t.takeWhile p :=
  (List.prefix_iff_eq_take.mp (List.takeWhile_prefix p)).symm

theorem drop_length_takeWhile (p : UInt8 → Bool) (t : Bytes) :
    t.drop (t.takeWhile p).length = t.dropWhile p := by
  have h : (t.takeWhile p ++ t.dropWhile p).drop (t.takeWhile p).length = t.dropWhile p :=
    List.drop_left
  rwa [List.takeWhile_append_dropWhile] at h

/-! ## One piece at a time -/

/-- The tokens of the pieces of a text, cut from offset `start` on. -/
def cutTokens (length start : Nat) (before : Position) (t : Bytes) : List Token :=
  ((Piece.cut lexer.rules start before t).filterMap (Piece.reading? length)).map Reading.token

/-- A match of `1 + n` bytes with a kind is a token, and cutting goes on behind it. -/
theorem cutTokens_of_emit {b : UInt8} {rest : Bytes} {n : Nat} {kind : Kind}
    (h : Rule.longest lexer.rules (b :: rest) = .hit (1 + n) (.emit kind))
    (length start : Nat) (before : Position) :
    ∃ after, cutTokens length start before (b :: rest) =
      ⟨kind, b :: rest.take n, ⟨start, start + (b :: rest.take n).length⟩⟩ ::
        cutTokens length (start + (b :: rest.take n).length) after (rest.drop n) := by
  refine ⟨(rest.take n).foldl Position.step (before.step b), ?_⟩
  rw [cutTokens, Piece.cut]
  simp only [h, Verdict.length, Verdict.action?, Nat.add_sub_cancel_left, List.filterMap_cons,
    Piece.reading?, List.map_cons, Piece.stop]
  rfl

theorem cutTokens_of_skip {b : UInt8} {rest : Bytes} {n : Nat}
    (h : Rule.longest lexer.rules (b :: rest) = .hit (1 + n) .skip)
    (length start : Nat) (before : Position) :
    ∃ after, cutTokens length start before (b :: rest) =
      cutTokens length (start + (b :: rest.take n).length) after (rest.drop n) := by
  refine ⟨(rest.take n).foldl Position.step (before.step b), ?_⟩
  rw [cutTokens, Piece.cut]
  simp only [h, Verdict.length, Verdict.action?, Nat.add_sub_cancel_left, List.filterMap_cons,
    Piece.reading?, Piece.stop]
  rfl

theorem cutTokens_of_miss {b : UInt8} {rest : Bytes}
    (h : Rule.longest lexer.rules (b :: rest) = .miss 1) (length start : Nat)
    (before : Position) :
    ∃ after, cutTokens length start before (b :: rest) =
      ⟨.illegal, [b], ⟨start, start + 1⟩⟩ :: cutTokens length (start + 1) after rest := by
  refine ⟨before.step b, ?_⟩
  rw [cutTokens, Piece.cut]
  simp only [h, Verdict.length, Verdict.action?, List.filterMap_cons, Piece.reading?,
    List.map_cons, Piece.stop]
  rfl

/-- Positions and the length of the whole text make no difference to the
calculator's tokens, since none of its rules refuses a match. -/
theorem cutTokens_eq_tokensFrom (length start : Nat) (before : Position) (t : Bytes) :
    cutTokens length start before t = tokensFrom start t := by
  fun_induction tokensFrom start t generalizing before with
  | case1 start =>
      rw [cutTokens, Piece.cut]
      rfl
  | case2 start b rest hletter word ih =>
      have hverdict := longest_eq b rest
      rw [if_pos hletter] at hverdict
      obtain ⟨after, hcut⟩ := cutTokens_of_emit hverdict length start before
      rw [hcut, take_length_takeWhile, drop_length_takeWhile, ih after]
  | case3 start b rest hletter hdigit word ih =>
      have hverdict := longest_eq b rest
      rw [if_neg hletter, if_pos hdigit] at hverdict
      obtain ⟨after, hcut⟩ := cutTokens_of_emit hverdict length start before
      rw [hcut, take_length_takeWhile, drop_length_takeWhile, ih after]
  | case4 start b rest hletter hdigit hblank word ih =>
      have hverdict := longest_eq b rest
      rw [if_neg hletter, if_neg hdigit, if_pos hblank] at hverdict
      obtain ⟨after, hcut⟩ := cutTokens_of_skip hverdict length start before
      rw [hcut, take_length_takeWhile, drop_length_takeWhile, ih after]
  | case5 start b rest hletter hdigit hblank ih =>
      have hverdict := longest_eq b rest
      rw [if_neg hletter, if_neg hdigit, if_neg hblank] at hverdict
      by_cases hsymbol : b ∈ symbols
      · rw [if_pos hsymbol] at hverdict ⊢
        have hone : Rule.longest lexer.rules (b :: rest) = .hit (1 + 0) (.emit (.ofByte b)) :=
          hverdict
        obtain ⟨after, hcut⟩ := cutTokens_of_emit hone length start before
        rw [hcut, List.take_zero, List.drop_zero]
        exact congrArg _ (ih after)
      · rw [if_neg hsymbol] at hverdict ⊢
        obtain ⟨after, hcut⟩ := cutTokens_of_miss hverdict length start before
        rw [hcut, ih after]

/-- The lexer gives the tokens that the recursion on the text gives. -/
theorem tokens_eq_tokensFrom (t : Bytes) : tokens t = tokensFrom 0 t :=
  cutTokens_eq_tokensFrom t.length 0 .start t

/-! ## Words in front of a text -/

/-- A text that goes on with no letter and no digit. -/
def Separate (t : Bytes) : Prop := ∀ b ∈ t.head?, ByteClass.letterOrDigit.holds b = false

theorem separate_nil : Separate [] := by
  intro b hb
  cases hb

theorem separate_cons {b : UInt8} (t : Bytes) (hb : ByteClass.letterOrDigit.holds b = false) :
    Separate (b :: t) := by
  intro c hc
  cases hc
  exact hb

/-- A class of letters and digits ends where the word does. -/
theorem Separate.span {t : Bytes} (h : Separate t) {p : UInt8 → Bool}
    (hp : ∀ b, p b = true → ByteClass.letterOrDigit.holds b = true) {w : Bytes}
    (hw : ∀ b ∈ w, p b = true) :
    (w ++ t).takeWhile p = w ∧ (w ++ t).dropWhile p = t := by
  rw [List.takeWhile_append_of_pos hw, List.dropWhile_append_of_pos hw]
  cases t with
  | nil => simp
  | cons b t =>
      have hb : ¬ p b = true := fun hpb => by
        have := h b rfl
        rw [hp b hpb] at this
        cases this
      rw [List.takeWhile_cons_of_neg hb, List.dropWhile_cons_of_neg hb, List.append_nil]
      exact ⟨rfl, rfl⟩

/-- A name in front of a text that does not go on with it is a token. -/
theorem tokensFrom_name (start : Nat) {w t : Bytes}
    (hw : (Pattern.word .letter .letterOrDigit).Matches w) (ht : Separate t) :
    tokensFrom start (w ++ t) =
      ⟨.identifier, w, ⟨start, start + w.length⟩⟩ :: tokensFrom (start + w.length) t := by
  obtain ⟨b, more, rfl, hletter, hmore⟩ := hw
  obtain ⟨htake, hdrop⟩ := ht.span (fun _ h => h) hmore
  rw [List.cons_append, tokensFrom_of_isLetter start _ hletter]
  simp only [htake, hdrop]

/-- Digits in front of a text that does not go on with them are a token. -/
theorem tokensFrom_digits (start : Nat) {w t : Bytes} (hne : w ≠ [])
    (hw : ∀ b ∈ w, Byte.isDigit b = true) (ht : Separate t) :
    tokensFrom start (w ++ t) =
      ⟨.integer, w, ⟨start, start + w.length⟩⟩ :: tokensFrom (start + w.length) t := by
  cases w with
  | nil => exact absurd rfl hne
  | cons b more =>
      have hdigit : Byte.isDigit b = true := hw b (by simp)
      have hholds (c : UInt8) (hc : ByteClass.digit.holds c = true) :
          ByteClass.letterOrDigit.holds c = true := by
        simp only [ByteClass.holds] at hc
        simp [ByteClass.holds, hc]
      have hmore : ∀ c ∈ more, ByteClass.digit.holds c = true := fun c hc => hw c (by simp [hc])
      obtain ⟨htake, hdrop⟩ := ht.span hholds hmore
      rw [List.cons_append, tokensFrom_of_isDigit start _ hdigit]
      simp only [htake, hdrop]

/-- A symbol is a token whatever follows it. -/
theorem tokensFrom_symbol (start : Nat) {b : UInt8} (t : Bytes) (hb : b ∈ symbols) :
    tokensFrom start (b :: t) =
      ⟨.ofByte b, [b], ⟨start, start + 1⟩⟩ :: tokensFrom (start + 1) t := by
  obtain ⟨hletter, hdigit, hblank⟩ := classes_of_mem_symbols hb
  rw [tokensFrom, hletter, hdigit, hblank, if_pos hb]
  rfl

/-- A blank leaves no token. -/
theorem tokensFrom_blank (start : Nat) {b : UInt8} (t : Bytes) (hb : Byte.isBlank b = true) :
    tokensFrom start (b :: t) = tokensFrom (start + 1) t := by
  rw [tokensFrom_of_isBlank start t hb]
  cases t with
  | nil => rfl
  | cons c t =>
      by_cases hc : ByteClass.blank.holds c = true
      · rw [tokensFrom_of_isBlank (start + 1) t hc, List.takeWhile_cons_of_pos hc,
          List.dropWhile_cons_of_pos hc, List.length_cons]
        congr 1
        omega
      · rw [List.takeWhile_cons_of_neg hc, List.dropWhile_cons_of_neg hc]
        rfl

/-- A text that does not start with a blank has a token. -/
theorem tokensFrom_ne_nil (start : Nat) {b : UInt8} (t : Bytes) (hb : Byte.isBlank b = false) :
    tokensFrom start (b :: t) ≠ [] := by
  rw [tokensFrom]
  split
  · simp
  · split
    · simp
    · simp [hb]

/-! ## Lexemes -/

/-- No byte that is a token by itself is taken for a name. -/
theorem kind_ne_identifier (b : UInt8) :
    (if b ∈ symbols then Kind.ofByte b else .illegal) ≠ .identifier := by
  split
  · intro h
    have hcode : (b.toNat : Int) = -2 := congrArg Kind.code h
    omega
  · decide

/-- Every token of the kind of names is written like a name. -/
theorem matches_of_mem_tokensFrom {start : Nat} {t : Bytes} {token : Token}
    (h : token ∈ tokensFrom start t) (hkind : token.kind = .identifier) :
    (Pattern.word .letter .letterOrDigit).Matches token.lexeme := by
  fun_induction tokensFrom start t with
  | case1 => cases h
  | case2 start b rest hletter word ih =>
      rcases List.mem_cons.mp h with rfl | h
      · exact ⟨b, _, rfl, hletter, List.all_eq_true.mp List.all_takeWhile⟩
      · exact ih h
  | case3 start b rest hletter hdigit word ih =>
      rcases List.mem_cons.mp h with rfl | h
      · cases hkind
      · exact ih h
  | case4 start b rest hletter hdigit hblank word ih => exact ih h
  | case5 start b rest hletter hdigit hblank ih =>
      rcases List.mem_cons.mp h with rfl | h
      · exact absurd hkind (kind_ne_identifier b)
      · exact ih h

/-- A token of a symbol's kind stands for a byte of the text. -/
theorem mem_of_mem_tokensFrom {start : Nat} {t : Bytes} {token : Token} {c : UInt8}
    (h : token ∈ tokensFrom start t) (hkind : token.kind = .ofByte c) : c ∈ t := by
  have hcode : token.kind.code = c.toNat := congrArg Kind.code hkind
  fun_induction tokensFrom start t with
  | case1 => cases h
  | case2 start b rest hletter word ih =>
      rcases List.mem_cons.mp h with rfl | h
      · cases hcode
      · exact List.mem_cons_of_mem b ((List.dropWhile_sublist _).mem (ih h))
  | case3 start b rest hletter hdigit word ih =>
      rcases List.mem_cons.mp h with rfl | h
      · cases hcode
      · exact List.mem_cons_of_mem b ((List.dropWhile_sublist _).mem (ih h))
  | case4 start b rest hletter hdigit hblank word ih =>
      exact List.mem_cons_of_mem b ((List.dropWhile_sublist _).mem (ih h))
  | case5 start b rest hletter hdigit hblank ih =>
      rcases List.mem_cons.mp h with rfl | h
      · split at hcode
        · have hbyte : b = c := UInt8.toNat_inj.mp (Int.ofNat.inj hcode)
          simp [hbyte]
        · cases hcode
      · exact List.mem_cons_of_mem b (ih h)

end Calculator

end LineCalculator
