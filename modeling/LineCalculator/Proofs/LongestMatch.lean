import LineCalculator.Lexer.Piece

/-!
# The search for the longest match

The search steps all rules side by side, drops the dead ones and remembers the
last place where one accepted.  What it is meant to find says nothing of this:
the longest beginning of the text that some rule matches, and the earliest of
the rules that match it.

The bridge is what the live rules behind some bytes stand for.  They match a
text exactly if the rules they came from match these bytes with the text behind
them, in the same order (`Rule.actionOn_behind`).  So "a live rule accepts" says
that a rule matches what was read, and "no rule is live" says that no match
starts like that, because every pattern matches something.

The search is then a loop with an invariant: the remembered place is the longest
match within what was read (`Rule.LongestWithin`), and so far a match could still
follow.  One more byte keeps it (`LongestWithin.step`).  Where the loop stops,
nothing farther on can change the answer (`LongestWithin.stop`), also if the
remembered place is far behind.

## Main results

* `Rule.longest_spec` — what the search finds at the start of a text.
* `Piece.cuts_of_cut_eq` — where each piece of a text stands, and what it is.
-/

namespace LineCalculator

/-! ## Matching -/

theorem ByteClass.exists_holds (c : ByteClass) : ∃ b, c.holds b = true := by
  cases c with
  | letter => exact ⟨97, rfl⟩
  | digit => exact ⟨48, rfl⟩
  | letterOrDigit => exact ⟨97, rfl⟩
  | blank => exact ⟨32, rfl⟩

namespace Pattern

instance decidableMatches : (p : Pattern) → (t : Bytes) → Decidable (p.Matches t)
  | text bytes, t => inferInstanceAs (Decidable (t = bytes))
  | run rest, t => List.decidableBAll (fun c => rest.holds c = true) t
  | regex r, t => r.decidableMatches t
  | word _ _, [] => isFalse fun ⟨_, _, h, _⟩ => nomatch h
  | word first rest, b :: more =>
    haveI := List.decidableBAll (fun c => rest.holds c = true) more
    decidable_of_iff (first.holds b = true ∧ ∀ c ∈ more, rest.holds c = true)
      ⟨fun h => ⟨b, more, rfl, h⟩, fun ⟨_, _, h, hm⟩ => by cases h; exact hm⟩

theorem exists_matches (p : Pattern) : ∃ t, p.Matches t := by
  cases p with
  | text bytes => exact ⟨bytes, rfl⟩
  | word first rest =>
      obtain ⟨b, hb⟩ := first.exists_holds
      exact ⟨[b], b, [], rfl, hb, by simp⟩
  | run rest => exact ⟨[], by simp [Matches]⟩
  | regex r => exact r.exists_matches

end Pattern

namespace Rule

/-- What is done with a text: the action of the earliest rule that matches it. -/
def actionOn (rules : List Rule) (t : Bytes) : Option Action :=
  (rules.find? fun r => decide (r.pattern.Matches t)).map Rule.action

theorem actionOn_eq_none_iff {rules : List Rule} {t : Bytes} :
    actionOn rules t = none ↔ ∀ r ∈ rules, ¬ r.pattern.Matches t := by
  simp [actionOn]

theorem exists_matches_of_actionOn_eq_some {rules : List Rule} {t : Bytes} {a : Action}
    (h : actionOn rules t = some a) : ∃ r ∈ rules, r.pattern.Matches t := by
  obtain ⟨r, hr, -⟩ := Option.map_eq_some_iff.mp h
  exact ⟨r, List.mem_of_find?_eq_some hr, by simpa using List.find?_some hr⟩

/-- Does a match start with these bytes? -/
def Viable (rules : List Rule) (t : Bytes) : Prop :=
  ∃ more, ∃ r ∈ rules, r.pattern.Matches (t ++ more)

/-! ## Live rules -/

/-- The live rules behind some bytes. -/
def behind (rules : List Rule) (t : Bytes) : List Rule :=
  t.foldl (fun live b => live.filterMap (Rule.advance b)) rules

theorem behind_concat (rules : List Rule) (t : Bytes) (b : UInt8) :
    behind rules (t ++ [b]) = (behind rules t).filterMap (Rule.advance b) := by
  rw [behind, List.foldl_append]
  rfl

/-- Stepping over a byte keeps the order of the rules. -/
theorem actionOn_filterMap_advance (rules : List Rule) (b : UInt8) (t : Bytes) :
    actionOn (rules.filterMap (Rule.advance b)) t = actionOn rules (b :: t) := by
  induction rules with
  | nil => rfl
  | cons r rules ih =>
      have hmatch := r.pattern.matches_cons_iff b t
      cases hstep : r.pattern.advance b with
      | none =>
          have hdead : ¬ r.pattern.Matches (b :: t) := by simp [hmatch, hstep]
          have hr : r.advance b = none := by simp [advance, hstep]
          rw [List.filterMap_cons_none hr, ih]
          simp [actionOn, hdead]
      | some q =>
          have hlive : r.pattern.Matches (b :: t) ↔ q.Matches t := by simp [hmatch, hstep]
          have hr : r.advance b = some ⟨q, r.action⟩ := by simp [advance, hstep]
          rw [List.filterMap_cons_some hr]
          by_cases hq : q.Matches t
          · simp [actionOn, hq, hlive]
          · simpa [actionOn, hq, hlive] using ih

theorem actionOn_behind (rules : List Rule) (s t : Bytes) :
    actionOn (behind rules s) t = actionOn rules (s ++ t) := by
  induction s generalizing rules with
  | nil => rfl
  | cons b s ih =>
      show actionOn (behind (rules.filterMap (Rule.advance b)) s) t = actionOn rules (b :: (s ++ t))
      rw [ih, actionOn_filterMap_advance]

/-- A rule is live exactly if a match starts like this. -/
theorem viable_iff (rules : List Rule) (t : Bytes) :
    Viable rules t ↔ behind rules t ≠ [] := by
  constructor
  · rintro ⟨more, r, hr, hmatch⟩ hdead
    have hnone : actionOn rules (t ++ more) = none := by
      rw [← actionOn_behind, hdead]
      rfl
    exact actionOn_eq_none_iff.mp hnone r hr hmatch
  · intro hlive
    obtain ⟨q, live, hlive⟩ := List.exists_cons_of_ne_nil hlive
    obtain ⟨more, hmore⟩ := q.pattern.exists_matches
    have haction : actionOn rules (t ++ more) = some q.action := by
      rw [← actionOn_behind, hlive]
      simp [actionOn, hmore]
    exact ⟨more, exists_matches_of_actionOn_eq_some haction⟩

/-- The live rule that accepts first is the first rule that matches what was read. -/
theorem find?_accepts_behind (rules : List Rule) (t : Bytes) :
    ((behind rules t).find? fun q => q.pattern.accepts).map Rule.action = actionOn rules t := by
  have hnil := actionOn_behind rules t []
  rw [List.append_nil] at hnil
  rw [← hnil]
  simp [actionOn, Pattern.matches_nil_iff]

/-- A step of the search, in terms of what was read. -/
theorem search_behind_cons (rules : List Rule) (done : Bytes) (best : Option (Nat × Action))
    (b : UInt8) (rest : Bytes) :
    search (behind rules done) done.length best (b :: rest) =
      if behind rules (done ++ [b]) = [] then Verdict.ofSearch (done.length + 1) best
      else search (behind rules (done ++ [b])) (done ++ [b]).length
        (((actionOn rules (done ++ [b])).map fun a => (done.length + 1, a)).or best) rest := by
  rw [search, ← behind_concat, ← find?_accepts_behind, Option.map_map, List.length_append]
  cases behind rules (done ++ [b]) <;> rfl

/-! ## The loop -/

/-- The longest match within the first `used` bytes of a text, with the action
of the earliest rule that matches it. -/
structure LongestWithin (rules : List Rule) (t : Bytes) (used : Nat)
    (best : Option (Nat × Action)) : Prop where
  found : ∀ n a, best = some (n, a) → 0 < n ∧ n ≤ used ∧ actionOn rules (t.take n) = some a
  none_longer : ∀ m, 0 < m → m ≤ used → (∀ n a, best = some (n, a) → n < m) →
    actionOn rules (t.take m) = none

/-- How far the search looks: as long as a match may follow, and over the byte
behind which none can. -/
structure Reaches (rules : List Rule) (t : Bytes) (n : Nat) : Prop where
  le_length : n ≤ t.length
  viable : ∀ m, 0 < m → m < n → Viable rules (t.take m)
  dead : n < t.length → ¬ Viable rules (t.take n)

namespace LongestWithin

theorem zero (rules : List Rule) (t : Bytes) : LongestWithin rules t 0 none := by
  refine ⟨by simp, ?_⟩
  intro m hpos hle
  omega

/-- One more byte: what matches up to there is longer than all before. -/
theorem step {rules : List Rule} {t : Bytes} {used : Nat} {best : Option (Nat × Action)}
    (h : LongestWithin rules t used best) :
    LongestWithin rules t (used + 1)
      (((actionOn rules (t.take (used + 1))).map fun a => (used + 1, a)).or best) := by
  cases hnew : actionOn rules (t.take (used + 1)) with
  | some a =>
      simp only [Option.map_some, Option.some_or]
      constructor
      · rintro _ _ ⟨⟩
        exact ⟨Nat.succ_pos used, Nat.le_refl _, hnew⟩
      · intro m _ hle hlonger
        have := hlonger (used + 1) a rfl
        omega
  | none =>
      simp only [Option.map_none, Option.none_or]
      constructor
      · intro n a hbest
        obtain ⟨hpos, hle, haction⟩ := h.found n a hbest
        exact ⟨hpos, Nat.le_succ_of_le hle, haction⟩
      · intro m hpos hle hlonger
        by_cases hlast : m = used + 1
        · rw [hlast, hnew]
        · exact h.none_longer m hpos (by omega) hlonger

/-- Behind a place where no match can follow there is none. -/
theorem stop {rules : List Rule} {t : Bytes} {used : Nat} {best : Option (Nat × Action)}
    (h : LongestWithin rules t used best) (hused : used < t.length)
    (hdead : ¬ Viable rules (t.take (used + 1))) : LongestWithin rules t t.length best := by
  constructor
  · intro n a hbest
    obtain ⟨hpos, hle, haction⟩ := h.found n a hbest
    exact ⟨hpos, by omega, haction⟩
  · intro m hpos hle hlonger
    by_cases hm : m ≤ used
    · exact h.none_longer m hpos hm hlonger
    · have hsplit : t.take m = t.take (used + 1) ++ (t.drop (used + 1)).take (m - (used + 1)) := by
        rw [← List.take_add, Nat.add_sub_cancel' (by omega)]
      rw [hsplit, actionOn_eq_none_iff]
      intro r hr hmatch
      exact hdead ⟨_, r, hr, hmatch⟩

end LongestWithin

/-- What the search finds, once `done` has been read. -/
theorem search_spec (rules : List Rule) (done rest : Bytes) {best : Option (Nat × Action)}
    (hbest : LongestWithin rules (done ++ rest) done.length best)
    (hviable : ∀ m, 0 < m → m ≤ done.length → Viable rules ((done ++ rest).take m)) :
    ∃ n best', search (behind rules done) done.length best rest = Verdict.ofSearch n best' ∧
      LongestWithin rules (done ++ rest) (done ++ rest).length best' ∧
      Reaches rules (done ++ rest) n := by
  induction rest generalizing done best with
  | nil =>
      rw [List.append_nil] at hbest hviable ⊢
      refine ⟨done.length, best, rfl, hbest, Nat.le_refl _, ?_, ?_⟩
      · intro m hpos hlt
        exact hviable m hpos (Nat.le_of_lt hlt)
      · intro hlt
        omega
  | cons b rest ih =>
      have hwhole : done ++ b :: rest = (done ++ [b]) ++ rest := by simp
      have hsucc : (done ++ [b]).length = done.length + 1 := List.length_append
      have hread : (done ++ b :: rest).take (done.length + 1) = done ++ [b] := by
        rw [hwhole, ← hsucc, List.take_left]
      rw [search_behind_cons]
      by_cases hlive : behind rules (done ++ [b]) = []
      · rw [if_pos hlive]
        have hlength : done.length < (done ++ b :: rest).length := by simp
        have hdead : ¬ Viable rules ((done ++ b :: rest).take (done.length + 1)) := by
          rw [hread, viable_iff]
          exact not_not_intro hlive
        refine ⟨done.length + 1, best, rfl, hbest.stop hlength hdead, hlength, ?_, fun _ => hdead⟩
        intro m hpos hlt
        exact hviable m hpos (Nat.le_of_lt_succ hlt)
      · rw [if_neg hlive]
        have hstep := hbest.step
        rw [hread] at hstep
        rw [hwhole] at hstep hviable ⊢
        apply ih (done ++ [b]) (hsucc ▸ hstep)
        intro m hpos hle
        by_cases hm : m ≤ done.length
        · exact hviable m hpos hm
        · have hlast : m = (done ++ [b]).length := by omega
          rw [hlast, List.take_left, viable_iff]
          exact hlive

/-- **What the search finds** at the start of a text. -/
theorem longest_spec (rules : List Rule) (t : Bytes) :
    ∃ n best, longest rules t = Verdict.ofSearch n best ∧
      LongestWithin rules t t.length best ∧ Reaches rules t n :=
  search_spec rules [] t (.zero rules t) fun m hpos hle => by simp at hle; omega

/-! ## Pieces -/

/-- What a piece is that stands at the start of `rest`. -/
structure Cuts (rules : List Rule) (rest w : Bytes) (action? : Option Action) : Prop where
  ne_nil : w ≠ []
  starts : w <+: rest
  /-- A match goes to the earliest of the rules that match it. -/
  earliest : ∀ a, action? = some a → actionOn rules w = some a
  /-- No rule matches more. -/
  longest : ∀ a, action? = some a → ∀ u, u <+: rest → w.length < u.length →
    ∀ r ∈ rules, ¬ r.pattern.Matches u
  unmatched_iff : action? = none ↔ ∀ u, u <+: rest → ∀ r ∈ rules, ¬ r.pattern.Matches u
  /-- Bytes that no rule matches end behind the byte that rules out a match. -/
  reaches : action? = none → Reaches rules rest w.length

theorem LongestWithin.not_matches {rules : List Rule} {t u : Bytes}
    {best : Option (Nat × Action)} (h : LongestWithin rules t t.length best)
    (hne : ∀ r ∈ rules, ¬ r.pattern.Matches []) (hu : u <+: t)
    (hlonger : ∀ n a, best = some (n, a) → n < u.length) :
    ∀ r ∈ rules, ¬ r.pattern.Matches u := by
  by_cases hnil : u = []
  · rw [hnil]
    exact hne
  · have hpos : 0 < u.length := List.length_pos_iff.mpr hnil
    have hnone := h.none_longer u.length hpos hu.length_le hlonger
    rw [← List.prefix_iff_eq_take.mp hu] at hnone
    exact actionOn_eq_none_iff.mp hnone

theorem cuts_of_hit {rules : List Rule} (hne : ∀ r ∈ rules, ¬ r.pattern.Matches []) {t : Bytes}
    {n : Nat} {a : Action} (h : LongestWithin rules t t.length (some (n, a))) :
    Cuts rules t (t.take n) (some a) := by
  obtain ⟨hpos, hle, haction⟩ := h.found n a rfl
  have hlength : (t.take n).length = n := List.length_take_of_le hle
  obtain ⟨r, hr, hmatch⟩ := exists_matches_of_actionOn_eq_some haction
  have hstarts : t.take n <+: t := List.take_prefix n t
  refine ⟨List.ne_nil_of_length_pos (by omega), hstarts, ?_, ?_, ?_, nofun⟩
  · rintro _ ⟨⟩
    exact haction
  · rintro _ ⟨⟩ u hu hlonger
    apply h.not_matches hne hu
    rintro _ _ ⟨⟩
    omega
  · exact iff_of_false nofun fun hnone => hnone _ hstarts r hr hmatch

theorem cuts_of_miss {rules : List Rule} (hne : ∀ r ∈ rules, ¬ r.pattern.Matches []) {t : Bytes}
    {n : Nat} (hpos : 0 < n) (h : LongestWithin rules t t.length none)
    (hreaches : Reaches rules t n) : Cuts rules t (t.take n) none := by
  have hlength : (t.take n).length = n := List.length_take_of_le hreaches.le_length
  refine ⟨List.ne_nil_of_length_pos (by omega), List.take_prefix n t, nofun, nofun, ?_, ?_⟩
  · exact iff_of_true rfl fun u hu => h.not_matches hne hu nofun
  · intro _
    rw [hlength]
    exact hreaches

/-- The verdict on a text cuts a piece off it. -/
theorem cuts_longest {rules : List Rule} (hne : ∀ r ∈ rules, ¬ r.pattern.Matches [])
    (b : UInt8) (rest : Bytes) :
    Cuts rules (b :: rest) ((b :: rest).take (Rule.longest rules (b :: rest)).length)
      (Rule.longest rules (b :: rest)).action? := by
  have hpos := Verdict.length_pos rules b rest
  obtain ⟨used, best, hsearch, hlongest, hreaches⟩ := longest_spec rules (b :: rest)
  rw [hsearch] at hpos ⊢
  cases best with
  | none => exact cuts_of_miss hne hpos hlongest hreaches
  | some found => exact cuts_of_hit hne hlongest

end Rule

namespace Piece

/-- **Where each piece of a text stands, and what it is.** -/
theorem cuts_of_cut_eq {rules : List Rule} (hne : ∀ r ∈ rules, ¬ r.pattern.Matches [])
    (start : Nat) (before : Position) (t : Bytes) (earlier : List Piece) {later : List Piece}
    {p : Piece} (h : cut rules start before t = earlier ++ p :: later) :
    p.start = start + (earlier.flatMap Piece.text).length ∧
      Rule.Cuts rules (p.text ++ later.flatMap Piece.text) p.text p.action? := by
  fun_induction cut rules start before t generalizing earlier with
  | case1 => simp at h
  | case2 start before b rest verdict more next last piece ih =>
      have hpos : 0 < verdict.length := Verdict.length_pos rules b rest
      have htext : piece.text = (b :: rest).take verdict.length := by
        obtain ⟨n, hn⟩ : ∃ n, verdict.length = n + 1 := ⟨verdict.length - 1, by omega⟩
        simp [piece, more, hn]
      cases earlier with
      | nil =>
          obtain ⟨rfl, hlater⟩ := List.cons.inj h
          have hrest : piece.text ++ later.flatMap Piece.text = b :: rest := by
            rw [← hlater, flatMap_text_cut]
            simp [piece, next]
          refine ⟨rfl, ?_⟩
          rw [hrest, htext]
          exact Rule.cuts_longest hne b rest
      | cons q earlier =>
          obtain ⟨rfl, hlater⟩ := List.cons.inj h
          obtain ⟨hstart, hcuts⟩ := ih earlier hlater
          refine ⟨?_, hcuts⟩
          rw [hstart, List.flatMap_cons, List.length_append, ← Nat.add_assoc]
          rfl

end Piece

end LineCalculator
