import LineCalculator.Lexer.Vocabulary
import LineCalculator.Proofs.LongestMatch
import LineCalculator.Proofs.Scanning
import Mathlib.Data.List.Forall2

/-!
# What the lexer of a vocabulary does

A vocabulary is any choice of basic patterns, refused texts, literals and
keywords.  Its **entries** stand in this order, and each of them describes texts
(`Vocabulary.Describes`): a keyword those of the pattern as which it is read.
Entries may describe beginnings of one another's texts or the same texts, and may
leave bytes that none of them describes.  Whatever they are, the lexer cuts every
text by longest match and loses nothing.

A vocabulary has a lexer exactly if it has an entry, all its keywords can be read,
and no entry describes the empty text, which would be no progress
(`Vocabulary.exists_lexer_iff`).  The rules of the lexer then follow the entries
one by one (`Vocabulary.forall₂_gives`), so that what is known of matches says the
same of entries (`Vocabulary.cuts_of_rules`).

The work on matches is done elsewhere; what is left is to follow a piece into the
answers.  A piece gives at most one token (`Piece.token?`) and a complaint exactly
if that token is illegal (`Piece.complaint?`), and the scanner hands these out in
order.  This needs that no word has the kind of the end of the text or of illegal
input, so that a token of one of these kinds always means what it says.

## Main results

* `Vocabulary.exists_lexer_iff` — which vocabularies have a lexer.
* `Lexer.kind_of_mem_readings` — a complaint goes with every illegal token and with
  no other.
* `scan_by_longest_match` — pieces, tokens and complaints of every text.
-/

namespace LineCalculator

theorem Bytes.lowerCase_ne_nil {t : Bytes} (h : t ≠ []) : t.lowerCase ≠ [] := by
  obtain ⟨b, rest, rfl⟩ := List.exists_cons_of_ne_nil h
  obtain ⟨r, rs, hrunes⟩ : ∃ r rs, runes (b :: rest) = r :: rs := by
    rw [runes]
    split <;> exact ⟨_, _, rfl⟩
  have hchar : String.utf8EncodeChar r.lower ≠ [] := by
    apply List.ne_nil_of_length_pos
    rw [String.length_utf8EncodeChar]
    exact r.lower.utf8Size_pos
  simp [lowerCase, hrunes, hchar]

/-! ## Entries -/

namespace Vocabulary

/-- Something that a vocabulary lists. -/
inductive Entry where
  | basic (p : BasicPattern)
  | refused (t : Bytes)
  | literal (name : Bytes)
  | keyword (name : Bytes)

/-- What a vocabulary lists, the strongest first. -/
def entries (v : Vocabulary) : List Entry :=
  v.basic.map .basic ++ v.refused.map .refused ++ v.literals.map .literal ++
    v.keywords.map .keyword

/-- The texts that an entry describes. The characters of a literal stand behind backslashes. -/
def Describes (v : Vocabulary) : Entry → Bytes → Prop
  | .basic .identifier, w => ∃ b more, w = b :: more ∧ Byte.isLetter b = true ∧
      ∀ c ∈ more, (Byte.isLetter c || Byte.isDigit c) = true
  | .basic .integer, w => w ≠ [] ∧ ∀ b ∈ w, Byte.isDigit b = true
  | .basic .blanks, w => w ≠ [] ∧ ∀ b ∈ w, Byte.isBlank b = true
  | .refused t, w => w = t
  | .literal name, w => w = if name = [] then utf8 "\\" else name.map Regex.escaped
  | .keyword name, w => ∃ r, v.read? name.lowerCase = some r ∧ r.Matches w

/-- What is done with these texts. -/
def actionFor (v : Vocabulary) : Entry → Action
  | .basic .identifier => .emit .identifier
  | .basic .integer => .emit .integer
  | .basic .blanks => .skip
  | .refused _ => .reject
  | .literal name => .emit ((v.kinds.lookup name).getD ⟨0⟩)
  | .keyword name => .emit ((v.kinds.lookup name).getD ⟨0⟩)

/-- What a piece is that stands at the start of `rest`. -/
structure Cuts (v : Vocabulary) (rest w : Bytes) (action? : Option Action) : Prop where
  ne_nil : w ≠ []
  starts : w <+: rest
  /-- A match goes to the earliest of the entries that describe it. -/
  earliest : ∀ a, action? = some a → ∃ earlier e later, v.entries = earlier ++ e :: later ∧
    v.Describes e w ∧ v.actionFor e = a ∧ ∀ e' ∈ earlier, ¬ v.Describes e' w
  /-- No entry describes more. -/
  longest : ∀ a, action? = some a → ∀ u, u <+: rest → w.length < u.length →
    ∀ e ∈ v.entries, ¬ v.Describes e u
  unmatched_iff : action? = none ↔ ∀ u, u <+: rest → ∀ e ∈ v.entries, ¬ v.Describes e u
  /-- Bytes that no entry describes go on as long as a match may follow. -/
  viable : action? = none → ∀ m, 0 < m → m < w.length →
    ∃ more, ∃ e ∈ v.entries, v.Describes e (rest.take m ++ more)
  /-- They end behind the byte that rules out a match. -/
  dead : action? = none → w.length < rest.length →
    ∀ more, ∀ e ∈ v.entries, ¬ v.Describes e (w ++ more)

/-! ## Rules follow entries -/

/-- The rule says what the entry says. -/
structure Gives (v : Vocabulary) (e : Entry) (r : Rule) : Prop where
  action : r.action = v.actionFor e
  matches_iff : ∀ w, r.pattern.Matches w ↔ v.Describes e w

theorem gives_basic (v : Vocabulary) (p : BasicPattern) : v.Gives (.basic p) p.rule := by
  have hword (c : ByteClass) (w : Bytes) :
      (Pattern.word c c).Matches w ↔ w ≠ [] ∧ ∀ b ∈ w, c.holds b = true := by
    cases w with
    | nil => simp [Pattern.Matches]
    | cons b more => simp [Pattern.Matches]
  cases p with
  | identifier => exact ⟨rfl, fun w => Iff.rfl⟩
  | integer => exact ⟨rfl, hword .digit⟩
  | blanks => exact ⟨rfl, hword .blank⟩

theorem gives_literal (v : Vocabulary) (name : Bytes) :
    v.Gives (.literal name) ⟨.text (literalText name), .emit (v.kindOf name)⟩ := by
  refine ⟨rfl, fun w => ?_⟩
  show w = literalText name ↔ _
  cases name <;> exact Iff.rfl

theorem keywordRule_eq_ok_iff (v : Vocabulary) (name : Bytes) (rule : Rule) :
    v.keywordRule name = .ok rule ↔
      ∃ r, v.read? name.lowerCase = some r ∧ rule = ⟨.regex r, .emit (v.kindOf name)⟩ := by
  rw [keywordRule]
  cases v.read? name.lowerCase with
  | none => simp
  | some r => simp [eq_comm]

/-- A keyword that can be read describes what its pattern matches. -/
theorem describes_keyword_iff {v : Vocabulary} {name : Bytes} {r : Regex}
    (hr : v.read? name.lowerCase = some r) (w : Bytes) :
    v.Describes (.keyword name) w ↔ r.Matches w := by
  constructor
  · rintro ⟨r', hr', hw⟩
    rw [hr] at hr'
    cases hr'
    exact hw
  · exact fun hw => ⟨r, hr, hw⟩

theorem gives_keyword {v : Vocabulary} {name : Bytes} {rule : Rule}
    (h : v.keywordRule name = .ok rule) : v.Gives (.keyword name) rule := by
  obtain ⟨r, hr, rfl⟩ := (v.keywordRule_eq_ok_iff name rule).mp h
  exact ⟨rfl, fun w => (describes_keyword_iff hr w).symm⟩

/-- Going through a list succeeds exactly if every step does. -/
theorem mapM_keywordRule_eq_ok_iff (v : Vocabulary) (names : List Bytes) (rules : List Rule) :
    names.mapM v.keywordRule = .ok rules ↔
      List.Forall₂ (fun name rule => v.keywordRule name = .ok rule) names rules := by
  induction names generalizing rules with
  | nil =>
      rw [List.mapM_nil, List.forall₂_nil_left_iff]
      exact ⟨fun h => (Except.ok.inj h).symm, fun h => congrArg Except.ok h.symm⟩
  | cons name names ih =>
      rw [List.mapM_cons, List.forall₂_cons_left_iff]
      simp only [← ih]
      cases v.keywordRule name with
      | error e => simp [bind, Except.bind]
      | ok rule =>
          cases names.mapM v.keywordRule with
          | error e => simp [bind, Except.bind]
          | ok others => simp [bind, Except.bind, pure, Except.pure, eq_comm]

theorem rules_eq_ok_iff (v : Vocabulary) (rules : List Rule) :
    v.rules = .ok rules ↔ ∃ keywordRules,
      List.Forall₂ (fun name rule => v.keywordRule name = .ok rule) v.keywords keywordRules ∧
        rules = v.fixedRules ++ keywordRules := by
  simp only [← mapM_keywordRule_eq_ok_iff]
  rw [Vocabulary.rules]
  cases v.keywords.mapM v.keywordRule with
  | error e => simp [bind, Except.bind]
  | ok keywordRules => simp [bind, Except.bind, pure, Except.pure, eq_comm]

/-- **Rules follow entries** one by one. -/
theorem forall₂_gives {v : Vocabulary} {rules : List Rule} (h : v.rules = .ok rules) :
    List.Forall₂ v.Gives v.entries rules := by
  obtain ⟨keywordRules, hkeywords, rfl⟩ := (v.rules_eq_ok_iff rules).mp h
  have hbasic : List.Forall₂ v.Gives (v.basic.map .basic) (v.basic.map BasicPattern.rule) := by
    rw [List.forall₂_map_left_iff, List.forall₂_map_right_iff, List.forall₂_same]
    exact fun p _ => v.gives_basic p
  have hrefused : List.Forall₂ v.Gives (v.refused.map .refused)
      (v.refused.map fun t => ⟨.text t, .reject⟩) := by
    rw [List.forall₂_map_left_iff, List.forall₂_map_right_iff, List.forall₂_same]
    exact fun t _ => ⟨rfl, fun w => Iff.rfl⟩
  have hliterals : List.Forall₂ v.Gives (v.literals.map .literal)
      (v.literals.map fun name => ⟨.text (literalText name), .emit (v.kindOf name)⟩) := by
    rw [List.forall₂_map_left_iff, List.forall₂_map_right_iff, List.forall₂_same]
    exact fun name _ => v.gives_literal name
  have hread : List.Forall₂ v.Gives (v.keywords.map .keyword) keywordRules := by
    rw [List.forall₂_map_left_iff]
    exact hkeywords.imp fun name rule => gives_keyword
  exact List.rel_append (List.rel_append (List.rel_append hbasic hrefused) hliterals) hread

/-- The rules can be made exactly if the keywords can be read. -/
theorem exists_rules_iff (v : Vocabulary) :
    (∃ rules, v.rules = .ok rules) ↔
      ∀ name ∈ v.keywords, ∃ r, v.read? name.lowerCase = some r := by
  have hall (names : List Bytes) :
      (∃ rules, List.Forall₂ (fun name rule => v.keywordRule name = .ok rule) names rules) ↔
        ∀ name ∈ names, ∃ r, v.read? name.lowerCase = some r := by
    induction names with
    | nil => exact iff_of_true ⟨[], .nil⟩ (by simp)
    | cons name names ih =>
        rw [List.forall_mem_cons, ← ih]
        constructor
        · rintro ⟨_, _ | ⟨hname, hnames⟩⟩
          obtain ⟨r, hr, -⟩ := (v.keywordRule_eq_ok_iff _ _).mp hname
          exact ⟨⟨r, hr⟩, _, hnames⟩
        · rintro ⟨⟨r, hr⟩, rules, hnames⟩
          exact ⟨_, .cons ((v.keywordRule_eq_ok_iff _ _).mpr ⟨r, hr, rfl⟩) hnames⟩
  rw [← hall]
  simp only [rules_eq_ok_iff]
  constructor
  · rintro ⟨_, keywordRules, h, -⟩
    exact ⟨keywordRules, h⟩
  · rintro ⟨keywordRules, h⟩
    exact ⟨_, keywordRules, h, rfl⟩

/-- A lexer is given by its rules. -/
theorem lexer_eq_ok_iff (v : Vocabulary) (lexer : Lexer) :
    v.lexer = .ok lexer ↔ v.rules = .ok lexer.rules := by
  rw [Vocabulary.lexer]
  cases v.rules with
  | error e => simp [bind, Except.bind]
  | ok rules =>
      show (if hempty : rules = [] then _ else _) = _ ↔ _
      constructor
      · intro h
        split at h
        · cases h
        · split at h
          · cases h
            rfl
          · cases h
      · intro h
        cases h
        rw [dif_neg lexer.rules_ne_nil, dif_pos lexer.not_accepts]

/-! ## From rules to entries -/

section Transfer

variable {v : Vocabulary} {entries : List Entry} {rules : List Rule}

theorem exists_matches_iff (h : List.Forall₂ v.Gives entries rules) (w : Bytes) :
    (∃ r ∈ rules, r.pattern.Matches w) ↔ ∃ e ∈ entries, v.Describes e w := by
  induction h with
  | nil => simp
  | cons hgives _ ih => simp only [List.exists_mem_cons_iff, hgives.matches_iff, ih]

theorem forall_not_matches_iff (h : List.Forall₂ v.Gives entries rules) (w : Bytes) :
    (∀ r ∈ rules, ¬ r.pattern.Matches w) ↔ ∀ e ∈ entries, ¬ v.Describes e w := by
  simpa only [not_exists, not_and] using not_congr (exists_matches_iff h w)

theorem exists_entry_of_mem (h : List.Forall₂ v.Gives entries rules) {r : Rule} (hr : r ∈ rules) :
    ∃ e ∈ entries, v.Gives e r := by
  induction h with
  | nil => cases hr
  | cons hgives _ ih =>
      rcases List.mem_cons.mp hr with rfl | hr
      · exact ⟨_, List.mem_cons_self, hgives⟩
      · obtain ⟨e, he, hgives'⟩ := ih hr
        exact ⟨e, List.mem_cons_of_mem _ he, hgives'⟩

/-- The earliest rule that matches is that of the earliest entry that describes. -/
theorem earliest_of_actionOn (h : List.Forall₂ v.Gives entries rules) {w : Bytes} {a : Action}
    (ha : Rule.actionOn rules w = some a) :
    ∃ earlier e later, entries = earlier ++ e :: later ∧ v.Describes e w ∧
      v.actionFor e = a ∧ ∀ e' ∈ earlier, ¬ v.Describes e' w := by
  induction h with
  | nil => cases ha
  | @cons e r entries rules hgives _ ih =>
      by_cases hmatch : r.pattern.Matches w
      · have haction : r.action = a := by simpa [Rule.actionOn, hmatch] using ha
        refine ⟨[], e, entries, rfl, (hgives.matches_iff w).mp hmatch, ?_, by simp⟩
        rw [← hgives.action, haction]
      · have hrest : Rule.actionOn rules w = some a := by
          simpa [Rule.actionOn, hmatch] using ha
        obtain ⟨earlier, e', later, rfl, hdescribes, haction, hearlier⟩ := ih hrest
        refine ⟨e :: earlier, e', later, rfl, hdescribes, haction, fun e'' he'' => ?_⟩
        rcases List.mem_cons.mp he'' with rfl | he''
        · exact fun hd => hmatch ((hgives.matches_iff w).mpr hd)
        · exact hearlier e'' he''

end Transfer

/-- What is known of a piece in terms of rules says the same of entries. -/
theorem cuts_of_rules {v : Vocabulary} {rules : List Rule} (hrules : v.rules = .ok rules)
    {rest w : Bytes} {action? : Option Action} (h : Rule.Cuts rules rest w action?) :
    v.Cuts rest w action? := by
  have hgives := forall₂_gives hrules
  refine ⟨h.ne_nil, h.starts, fun a ha => earliest_of_actionOn hgives (h.earliest a ha), ?_, ?_,
    ?_, ?_⟩
  · intro a ha u hu hlonger
    exact (forall_not_matches_iff hgives u).mp (h.longest a ha u hu hlonger)
  · rw [h.unmatched_iff]
    exact forall₂_congr fun u _ => forall_not_matches_iff hgives u
  · intro hnone m hpos hlt
    obtain ⟨more, hmore⟩ := (h.reaches hnone).viable m hpos hlt
    exact ⟨more, (exists_matches_iff hgives _).mp hmore⟩
  · intro hnone hlt more
    have hdead := (h.reaches hnone).dead hlt
    rw [← List.prefix_iff_eq_take.mp h.starts] at hdead
    exact (forall_not_matches_iff hgives _).mp fun r hr hmatch => hdead ⟨more, r, hr, hmatch⟩

/-- **Which vocabularies have a lexer.** -/
theorem exists_lexer_iff (v : Vocabulary) :
    (∃ lexer, v.lexer = .ok lexer) ↔
      v.entries ≠ [] ∧ (∀ name ∈ v.keywords, ∃ r, v.read? name.lowerCase = some r) ∧
        ∀ e ∈ v.entries, ¬ v.Describes e [] := by
  rw [← exists_rules_iff]
  have hempty {rules : List Rule} (hrules : v.rules = .ok rules) :
      (rules ≠ [] ↔ v.entries ≠ []) ∧
        ((∀ r ∈ rules, r.pattern.accepts = false) ↔ ∀ e ∈ v.entries, ¬ v.Describes e []) := by
    have hgives := forall₂_gives hrules
    refine ⟨?_, ?_⟩
    · rw [ne_eq, ne_eq, ← List.length_eq_zero_iff, ← List.length_eq_zero_iff, hgives.length_eq]
    · rw [← forall_not_matches_iff hgives]
      simp only [Pattern.matches_nil_iff, Bool.not_eq_true]
  constructor
  · rintro ⟨lexer, hlexer⟩
    have hrules := (v.lexer_eq_ok_iff lexer).mp hlexer
    obtain ⟨hne, haccepts⟩ := hempty hrules
    exact ⟨hne.mp lexer.rules_ne_nil, ⟨_, hrules⟩, haccepts.mp lexer.not_accepts⟩
  · rintro ⟨hentries, ⟨rules, hrules⟩, hnil⟩
    obtain ⟨hne, haccepts⟩ := hempty hrules
    exact ⟨⟨rules, hne.mpr hentries, haccepts.mpr hnil⟩, (v.lexer_eq_ok_iff _).mpr hrules⟩

theorem kind_ne {v : Vocabulary}
    (hkinds : ∀ name ∈ v.literals ++ v.keywords,
      v.kindOf name ≠ .endOfText ∧ v.kindOf name ≠ .illegal)
    {rules : List Rule} (hrules : v.rules = .ok rules) {r : Rule} (hr : r ∈ rules) {kind : Kind}
    (hkind : r.action = .emit kind) : kind ≠ .endOfText ∧ kind ≠ .illegal := by
  obtain ⟨e, he, hgives⟩ := exists_entry_of_mem (forall₂_gives hrules) hr
  rw [hgives.action] at hkind
  cases e with
  | basic p => cases p <;> cases hkind <;> decide
  | refused t => cases hkind
  | literal name =>
      cases hkind
      exact hkinds name (List.mem_append_left _ (by simpa [entries] using he))
  | keyword name =>
      cases hkind
      exact hkinds name (List.mem_append_right _ (by simpa [entries] using he))

/-- A keyword in the usual writing that has no signs in it describes its own text in lower
case. -/
theorem describes_plain_keyword {v : Vocabulary} (hread : v.read? = Regex.read?) {name : Bytes}
    (hne : name ≠ []) (hplain : ∀ b ∈ name.lowerCase, Regex.isSign b = false) :
    (∃ r, v.read? name.lowerCase = some r) ∧
      ∀ w, v.Describes (.keyword name) w ↔ w = name.lowerCase := by
  obtain ⟨r, hr, hmatches⟩ :=
    Regex.matches_read?_of_plain (Bytes.lowerCase_ne_nil hne) hplain
  rw [← hread] at hr
  exact ⟨⟨r, hr⟩, fun w => (describes_keyword_iff hr w).trans (hmatches w)⟩

end Vocabulary

/-! ## From pieces to answers -/

namespace Piece

/-- The token of a piece of a text of this length. -/
def token? (length : Nat) (p : Piece) : Option Token :=
  match p.action? with
  | some .skip => none
  | some .reject => some ⟨.illegal, [], ⟨length, length⟩⟩
  | some (.emit kind) => some ⟨kind, p.text, ⟨p.start, p.start + p.text.length⟩⟩
  | none => some ⟨.illegal, p.text, ⟨p.start, p.start + p.text.length⟩⟩

/-- The complaint about a piece of a text. -/
def complaint? (t : Bytes) (p : Piece) : Option Complaint :=
  match p.action? with
  | some .reject => some (.rejected p.text)
  | none => some (.unmatched (.ofIndex t p.start) (.ofIndex t (p.start + p.text.length)) p.text)
  | _ => none

theorem map_token_reading? (length : Nat) (p : Piece) :
    (p.reading? length).map Reading.token = p.token? length := by
  unfold reading? token?
  rcases p.action? with _ | _ | _ | _ <;> rfl

theorem bind_complaint?_reading? {t : Bytes} {p : Piece} (hfirst : p.first = .ofIndex t p.start)
    (hbehind : p.behind = .ofIndex t p.stop) :
    (p.reading? t.length).bind Reading.complaint? = p.complaint? t := by
  unfold reading? complaint?
  rw [hfirst, hbehind]
  rcases p.action? with _ | _ | _ | _ <;> rfl

/-- A complaint goes with every illegal token and with no other, if no word has a
special kind. -/
theorem kind_of_reading? {length : Nat} {p : Piece} {r : Reading} (h : p.reading? length = some r)
    (hkind : ∀ kind, p.action? = some (.emit kind) → kind ≠ .endOfText ∧ kind ≠ .illegal) :
    r.token.kind ≠ .endOfText ∧ (r.complaint?.isSome ↔ r.token.kind = .illegal) := by
  have hspecial : Kind.illegal ≠ .endOfText := by decide
  unfold reading? at h
  split at h
  · cases h
  · next kind haction =>
    obtain ⟨hend, hillegal⟩ := hkind kind haction
    cases h
    exact ⟨hend, iff_of_false (by simp) hillegal⟩
  · cases h
    exact ⟨hspecial, iff_of_true rfl rfl⟩
  · cases h
    exact ⟨hspecial, iff_of_true rfl rfl⟩

/-- Pieces that hold a byte each are no more than the bytes they hold. -/
theorem length_le_length_flatMap {pieces : List Piece} (h : ∀ p ∈ pieces, p.text ≠ []) :
    pieces.length ≤ (pieces.flatMap Piece.text).length := by
  induction pieces with
  | nil => exact Nat.le_refl 0
  | cons p pieces ih =>
      have hp : 0 < p.text.length := List.length_pos_iff.mpr (h p List.mem_cons_self)
      have hrest := ih fun q hq => h q (List.mem_cons_of_mem p hq)
      rw [List.flatMap_cons, List.length_append, List.length_cons]
      omega

end Piece

namespace Lexer

/-- No rule of a lexer matches the empty text. -/
theorem not_matches_nil (lexer : Lexer) : ∀ r ∈ lexer.rules, ¬ r.pattern.Matches [] := by
  intro r hr hmatch
  rw [r.pattern.matches_nil_iff, lexer.not_accepts r hr] at hmatch
  cases hmatch

/-- The pieces of a text. -/
theorem cuts_of_pieces_eq {lexer : Lexer} {t : Bytes} {earlier later : List Piece} {p : Piece}
    (h : lexer.pieces t = earlier ++ p :: later) :
    p.start = (earlier.flatMap Piece.text).length ∧
      Rule.Cuts lexer.rules (t.drop p.start) p.text p.action? := by
  obtain ⟨hstart, hcuts⟩ := Piece.cuts_of_cut_eq lexer.not_matches_nil 0 .start t earlier h
  rw [Nat.zero_add] at hstart
  have htext : t = earlier.flatMap Piece.text ++ (p.text ++ later.flatMap Piece.text) := by
    rw [← Piece.flatMap_text_cut lexer.rules 0 .start t]
    show (lexer.pieces t).flatMap Piece.text = _
    rw [h, List.flatMap_append, List.flatMap_cons]
  refine ⟨hstart, ?_⟩
  rw [hstart, htext, List.drop_left]
  exact hcuts

theorem cuts_of_mem_pieces {lexer : Lexer} {t : Bytes} {p : Piece} (hp : p ∈ lexer.pieces t) :
    Rule.Cuts lexer.rules (t.drop p.start) p.text p.action? := by
  obtain ⟨earlier, later, hpieces⟩ := List.append_of_mem hp
  exact (cuts_of_pieces_eq hpieces).2

theorem tokens_eq (lexer : Lexer) (t : Bytes) :
    lexer.tokens t = (lexer.pieces t).filterMap (Piece.token? t.length) := by
  rw [tokens, readings, List.map_filterMap]
  simp only [Piece.map_token_reading?]

/-- Every piece takes a byte, and gives a token at most. -/
theorem length_tokens_le (lexer : Lexer) (t : Bytes) : (lexer.tokens t).length ≤ t.length := by
  have hpieces : ∀ p ∈ lexer.pieces t, p.text ≠ [] := fun p hp => (cuts_of_mem_pieces hp).ne_nil
  calc (lexer.tokens t).length
    _ ≤ (lexer.pieces t).length := by
        rw [tokens_eq]
        exact List.length_filterMap_le _ _
    _ ≤ ((lexer.pieces t).flatMap Piece.text).length := Piece.length_le_length_flatMap hpieces
    _ = t.length := by rw [pieces, Piece.flatMap_text_cut]

/-- Every complaint in the order of the pieces. -/
theorem filterMap_complaint?_readings (lexer : Lexer) (t : Bytes) :
    (lexer.readings t).filterMap Reading.complaint? =
      (lexer.pieces t).filterMap (Piece.complaint? t) := by
  rw [readings, List.filterMap_filterMap]
  apply List.filterMap_congr
  intro p hp
  obtain ⟨hfirst, hbehind⟩ := Piece.positions_of_mem_cut lexer.rules [] t hp
  exact Piece.bind_complaint?_reading? hfirst hbehind

theorem request_scanner (lexer : Lexer) (t : Bytes) (i : Nat) :
    (lexer.scanner t).request i = (lexer.readings t)[i]?.getD ⟨Token.atEnd t.length, none⟩ :=
  Scanner.request_eq (lexer.scanner t) i

theorem token_request_scanner (lexer : Lexer) (t : Bytes) (i : Nat) :
    ((lexer.scanner t).request i).token = (lexer.tokens t)[i]?.getD (Token.atEnd t.length) := by
  rw [request_scanner, tokens, List.getElem?_map]
  cases (lexer.readings t)[i]? <;> rfl

/-- The readings of a text show the end kind nowhere, and a complaint exactly where
the token is illegal. -/
theorem kind_of_mem_readings {lexer : Lexer}
    (hkinds : ∀ r ∈ lexer.rules, ∀ kind, r.action = .emit kind →
      kind ≠ .endOfText ∧ kind ≠ .illegal)
    {t : Bytes} {r : Reading} (hr : r ∈ lexer.readings t) :
    r.token.kind ≠ .endOfText ∧ (r.complaint?.isSome ↔ r.token.kind = .illegal) := by
  obtain ⟨p, hp, hreading⟩ := List.mem_filterMap.mp hr
  apply Piece.kind_of_reading? hreading
  intro kind haction
  have hcuts := cuts_of_mem_pieces hp
  obtain ⟨q, hq, hkind⟩ := Option.map_eq_some_iff.mp (hcuts.earliest _ haction)
  exact hkinds q (List.mem_of_find?_eq_some hq) kind hkind

end Lexer

/--
**Lexing by longest match.** Let no literal and no keyword have a kind that the lexer
keeps for itself. The vocabulary has a lexer exactly if it has an entry, all keywords
can be read, and no entry describes the empty text; a keyword in the usual writing that
has no signs in it can be read, and describes its own text in lower case. For the lexer
and every text:

* The pieces put together are the text, and each starts where those before it end.
  A piece holds a byte at least.  It is the longest beginning of what is left that an
  entry describes, with the action of the earliest entry that describes it; or, exactly
  if no entry describes any beginning of what is left, it is unmatched
  (`Vocabulary.Cuts`).
* The tokens are those of the pieces, in order.  There are at most as many as the
  text has bytes, none of them is of the end kind, and behind them every request is
  answered with the end token, whoever listens.
* A request comes with a complaint exactly if its token is illegal, and the complaints
  that are heard are those about the pieces, in order.
-/
theorem scan_by_longest_match (v : Vocabulary)
    (hkinds : ∀ name ∈ v.literals ++ v.keywords,
      v.kindOf name ≠ .endOfText ∧ v.kindOf name ≠ .illegal) :
    ((∃ lexer, v.lexer = .ok lexer) ↔
      v.entries ≠ [] ∧ (∀ name ∈ v.keywords, ∃ r, v.read? name.lowerCase = some r) ∧
        ∀ e ∈ v.entries, ¬ v.Describes e []) ∧
    (v.read? = Regex.read? → ∀ name : Bytes, name ≠ [] →
      (∀ b ∈ name.lowerCase, Regex.isSign b = false) →
      (∃ r, v.read? name.lowerCase = some r) ∧
        ∀ w, v.Describes (.keyword name) w ↔ w = name.lowerCase) ∧
    ∀ lexer, v.lexer = .ok lexer → ∀ t,
      (lexer.pieces t).flatMap Piece.text = t ∧
      (∀ earlier p later, lexer.pieces t = earlier ++ p :: later →
        p.start = (earlier.flatMap Piece.text).length ∧
          v.Cuts (t.drop p.start) p.text p.action?) ∧
      lexer.tokens t = (lexer.pieces t).filterMap (Piece.token? t.length) ∧
      (lexer.tokens t).length ≤ t.length ∧
      (∀ token ∈ lexer.tokens t, token.kind ≠ .endOfText) ∧
      (∀ i, ((lexer.scanner t).request i).token =
        (lexer.tokens t)[i]?.getD ⟨.endOfText, [], ⟨t.length, t.length⟩⟩) ∧
      (∀ listener, (lexer.scan listener t).tokens =
        lexer.tokens t ++ [Token.atEnd t.length, Token.atEnd t.length]) ∧
      (∀ i, ((lexer.scanner t).request i).complaint?.isSome ↔
        ((lexer.scanner t).request i).token.kind = .illegal) ∧
      (lexer.scan .collect t).complaints = (lexer.pieces t).filterMap (Piece.complaint? t) := by
  refine ⟨v.exists_lexer_iff, fun hread name => Vocabulary.describes_plain_keyword hread, ?_⟩
  intro lexer hlexer t
  have hrules : v.rules = .ok lexer.rules := (v.lexer_eq_ok_iff lexer).mp hlexer
  have hreadings : ∀ r ∈ lexer.readings t,
      r.token.kind ≠ .endOfText ∧ (r.complaint?.isSome ↔ r.token.kind = .illegal) := fun r hr =>
    Lexer.kind_of_mem_readings (fun q hq kind => Vocabulary.kind_ne hkinds hrules hq) hr
  have hseen : (lexer.scanner t).untilEnd =
      lexer.readings t ++ [⟨Token.atEnd t.length, none⟩, ⟨Token.atEnd t.length, none⟩] :=
    Scanner.untilEnd_eq fun r hr => (hreadings r hr).1
  refine ⟨Piece.flatMap_text_cut _ _ _ t, ?_, lexer.tokens_eq t, lexer.length_tokens_le t, ?_,
    lexer.token_request_scanner t, ?_, ?_, ?_⟩
  · intro earlier p later hpieces
    obtain ⟨hstart, hcuts⟩ := Lexer.cuts_of_pieces_eq hpieces
    exact ⟨hstart, Vocabulary.cuts_of_rules hrules hcuts⟩
  · intro token htoken
    obtain ⟨r, hr, rfl⟩ := List.mem_map.mp htoken
    exact (hreadings r hr).1
  · intro listener
    show (lexer.scanner t).untilEnd.map Reading.token = _
    rw [hseen, List.map_append]
    rfl
  · intro i
    rw [Lexer.request_scanner]
    cases hr : (lexer.readings t)[i]? with
    | none => exact iff_of_false (by simp) (show Kind.endOfText ≠ .illegal by decide)
    | some r => exact (hreadings r (List.mem_of_getElem? hr)).2
  · show (lexer.scanner t).untilEnd.filterMap Reading.complaint? = _
    rw [hseen, List.filterMap_append, Lexer.filterMap_complaint?_readings]
    exact List.append_nil _

/-- Arrows and equality signs that begin like one another, a word, and a pattern for
numbers. -/
def Vocabulary.signs : Vocabulary :=
  { basic := [.identifier, .blanks]
    refused := [utf8 "=>"]
    literals := [utf8 "=", utf8 "===", utf8 "<->"]
    keywords := [utf8 "IF", utf8 "0(X[0-9A-F]+)?"]
    kinds := [(utf8 "=", ⟨61⟩), (utf8 "===", ⟨1⟩), (utf8 "<->", ⟨2⟩), (utf8 "IF", ⟨3⟩),
      (utf8 "0(X[0-9A-F]+)?", ⟨4⟩)] }

/-- The search backs up from `==` and from `0x`, the name wins over the keyword, `=>` is
refused, and what begins like `<->` is taken with the byte that does not fit. -/
theorem scan_signs :
    (∀ name ∈ Vocabulary.signs.literals ++ Vocabulary.signs.keywords,
      Vocabulary.signs.kindOf name ≠ .endOfText ∧ Vocabulary.signs.kindOf name ≠ .illegal) ∧
    ∃ lexer, Vocabulary.signs.lexer = .ok lexer ∧
      ∀ listener, (lexer.scan listener (utf8 "==if =>x <-y0x1f 0x")).tokens =
        [⟨⟨61⟩, utf8 "=", ⟨0, 1⟩⟩, ⟨⟨61⟩, utf8 "=", ⟨1, 2⟩⟩, ⟨.identifier, utf8 "if", ⟨2, 4⟩⟩,
          ⟨.illegal, [], ⟨19, 19⟩⟩, ⟨.identifier, utf8 "x", ⟨7, 8⟩⟩,
          ⟨.illegal, utf8 "<-y", ⟨9, 12⟩⟩, ⟨⟨4⟩, utf8 "0x1f", ⟨12, 16⟩⟩, ⟨⟨4⟩, utf8 "0", ⟨17, 18⟩⟩,
          ⟨.identifier, utf8 "x", ⟨18, 19⟩⟩, .atEnd 19, .atEnd 19] := by
  have hkinds : ∀ name ∈ Vocabulary.signs.literals ++ Vocabulary.signs.keywords,
      Vocabulary.signs.kindOf name ≠ .endOfText ∧ Vocabulary.signs.kindOf name ≠ .illegal := by
    decide +kernel
  have hsome : Vocabulary.signs.lexer.toOption.isSome = true := by decide +kernel
  have hlexer : Vocabulary.signs.lexer = .ok (Vocabulary.signs.lexer.toOption.get hsome) := by
    revert hsome
    cases Vocabulary.signs.lexer with
    | error e => exact fun hsome => nomatch hsome
    | ok lexer => exact fun _ => rfl
  obtain ⟨-, -, hall⟩ := scan_by_longest_match Vocabulary.signs hkinds
  refine ⟨hkinds, _, hlexer, fun listener => ?_⟩
  obtain ⟨-, -, -, -, -, -, hscan, -⟩ := hall _ hlexer (utf8 "==if =>x <-y0x1f 0x")
  rw [hscan]
  clear hall hscan hlexer
  decide +kernel +revert

end LineCalculator
