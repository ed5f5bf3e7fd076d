import LineCalculator.Text.Bytes

/-!
# Regular expressions

A regular expression is built from choices of bytes by sequence, alternative
and repetition. It is matched by stepping through the input: what is left of
it behind a byte is again a regular expression, or there is nothing left. A
choice of bytes always holds one, so that every expression matches some text,
and "nothing left" means that no match starts like this.

How regular expressions are written is said in
`LineCalculator.Lexer.WrittenRegex`.

## Main results

* `matches_nil_iff`, `matches_cons_iff` — stepping is matching.
* `exists_matches` — every regular expression matches some text.
-/

namespace LineCalculator

/-- A regular expression over bytes. -/
inductive Regex where
  /-- The empty text. -/
  | blank
  /-- One of these bytes. -/
  | byte (first : UInt8) (others : List UInt8)
  /-- One behind the other. -/
  | seq (r s : Regex)
  /-- One or the other. -/
  | alt (r s : Regex)
  /-- Any number of times. -/
  | star (r : Regex)
  deriving DecidableEq

namespace Regex

/-- The texts that an expression describes. -/
def Matches : Regex → Bytes → Prop
  | blank, t => t = []
  | byte first others, t => ∃ b ∈ first :: others, t = [b]
  | seq r s, t => ∃ u v, t = u ++ v ∧ r.Matches u ∧ s.Matches v
  | alt r s, t => r.Matches t ∨ s.Matches t
  | star r, t => ∃ parts : List Bytes, t = parts.flatten ∧ ∀ u ∈ parts, r.Matches u

/-- May the match end here? -/
def accepts : Regex → Bool
  | blank => true
  | byte _ _ => false
  | seq r s => r.accepts && s.accepts
  | alt r s => r.accepts || s.accepts
  | star _ => true

/-- One or the other, as far as they are there. -/
def either : Option Regex → Option Regex → Option Regex
  | none, s => s
  | some r, none => some r
  | some r, some s => some (if r = s then r else alt r s)

/-- What is left to match behind byte `b`; nothing if no match starts with it. -/
def derive? (b : UInt8) : Regex → Option Regex
  | blank => none
  | byte first others => if b ∈ first :: others then some blank else none
  | seq r s =>
    either ((r.derive? b).map fun q => q.seq s) (if r.accepts then s.derive? b else none)
  | alt r s => either (r.derive? b) (s.derive? b)
  | star r => (r.derive? b).map fun q => q.seq (star r)

/-- Every expression describes some text. -/
theorem exists_matches (r : Regex) : ∃ t, r.Matches t := by
  induction r with
  | blank => exact ⟨[], rfl⟩
  | byte first others => exact ⟨[first], first, List.mem_cons_self, rfl⟩
  | seq r s ihr ihs =>
      obtain ⟨u, hu⟩ := ihr
      obtain ⟨v, hv⟩ := ihs
      exact ⟨u ++ v, u, v, rfl, hu, hv⟩
  | alt r s ihr _ =>
      obtain ⟨t, ht⟩ := ihr
      exact ⟨t, .inl ht⟩
  | star r _ => exact ⟨[], [], rfl, by simp⟩

/-- A match may end where the expression accepts. -/
theorem matches_nil_iff (r : Regex) : r.Matches [] ↔ r.accepts = true := by
  induction r with
  | blank => simp [Matches, accepts]
  | byte first others => simp [Matches, accepts]
  | seq r s ihr ihs =>
      rw [accepts, Bool.and_eq_true, ← ihr, ← ihs]
      constructor
      · rintro ⟨u, v, huv, hu, hv⟩
        obtain ⟨rfl, rfl⟩ := List.append_eq_nil_iff.mp huv.symm
        exact ⟨hu, hv⟩
      · rintro ⟨hr, hs⟩
        exact ⟨[], [], rfl, hr, hs⟩
  | alt r s ihr ihs => rw [accepts, Bool.or_eq_true, ← ihr, ← ihs, Matches]
  | star r _ => exact iff_of_true ⟨[], rfl, by simp⟩ rfl

/-- The first byte of a sequence belongs to its first part, unless this is empty. -/
theorem matches_seq_cons_iff (r s : Regex) (b : UInt8) (t : Bytes) :
    (seq r s).Matches (b :: t) ↔
      (∃ u v, t = u ++ v ∧ r.Matches (b :: u) ∧ s.Matches v) ∨
        r.accepts = true ∧ s.Matches (b :: t) := by
  rw [← matches_nil_iff]
  constructor
  · rintro ⟨u, v, huv, hu, hv⟩
    cases u with
    | nil => exact .inr ⟨hu, huv ▸ hv⟩
    | cons c u =>
        obtain ⟨rfl, rfl⟩ := List.cons.inj huv
        exact .inl ⟨u, v, rfl, hu, hv⟩
  · rintro (⟨u, v, rfl, hu, hv⟩ | ⟨hr, hs⟩)
    · exact ⟨b :: u, v, rfl, hu, hv⟩
    · exact ⟨[], b :: t, rfl, hr, hs⟩

/-- The first byte of a repetition belongs to its first part that is not empty. -/
theorem matches_star_cons_iff (r : Regex) (b : UInt8) (t : Bytes) :
    (star r).Matches (b :: t) ↔
      ∃ u v, t = u ++ v ∧ r.Matches (b :: u) ∧ (star r).Matches v := by
  constructor
  · rintro ⟨parts, hparts, hr⟩
    induction parts with
    | nil => cases hparts
    | cons part parts ih =>
        cases part with
        | nil => exact ih hparts fun u hu => hr u (List.mem_cons_of_mem _ hu)
        | cons c u =>
            obtain ⟨rfl, rfl⟩ := List.cons.inj hparts
            exact ⟨u, parts.flatten, rfl, hr _ List.mem_cons_self, parts, rfl,
              fun w hw => hr w (List.mem_cons_of_mem _ hw)⟩
  · rintro ⟨u, v, rfl, hu, parts, rfl, hr⟩
    refine ⟨(b :: u) :: parts, rfl, fun w hw => ?_⟩
    rcases List.mem_cons.mp hw with rfl | hw
    · exact hu
    · exact hr w hw

/-- What is left describes a text. -/
def LeftMatches (left? : Option Regex) (t : Bytes) : Prop := ∃ q, left? = some q ∧ q.Matches t

theorem leftMatches_either (r? s? : Option Regex) (t : Bytes) :
    LeftMatches (either r? s?) t ↔ LeftMatches r? t ∨ LeftMatches s? t := by
  cases r? with
  | none => simp [either, LeftMatches]
  | some r =>
      cases s? with
      | none => simp [either, LeftMatches]
      | some s =>
          by_cases h : r = s
          · simp [either, LeftMatches, h]
          · simp [either, LeftMatches, h, Matches]

theorem leftMatches_map_seq (r? : Option Regex) (s : Regex) (t : Bytes) :
    LeftMatches (r?.map fun q => q.seq s) t ↔
      ∃ u v, t = u ++ v ∧ LeftMatches r? u ∧ s.Matches v := by
  cases r? with
  | none => simp [LeftMatches]
  | some r => simp [LeftMatches, Matches]

/-- A match that starts with `b` goes on with what is left behind `b`. -/
theorem matches_cons_iff (r : Regex) (b : UInt8) (t : Bytes) :
    r.Matches (b :: t) ↔ LeftMatches (r.derive? b) t := by
  induction r generalizing t with
  | blank => simp [Matches, derive?, LeftMatches]
  | byte first others =>
      by_cases hb : b ∈ first :: others
      · rw [derive?, if_pos hb]
        constructor
        · rintro ⟨c, -, hc⟩
          exact ⟨blank, rfl, (List.cons.inj hc).2⟩
        · rintro ⟨q, hq, ht⟩
          cases hq
          exact ⟨b, hb, congrArg (b :: ·) ht⟩
      · rw [derive?, if_neg hb]
        constructor
        · rintro ⟨c, hc, heq⟩
          exact absurd ((List.cons.inj heq).1 ▸ hc) hb
        · rintro ⟨q, hq, -⟩
          cases hq
  | seq r s ihr ihs =>
      rw [matches_seq_cons_iff, derive?, leftMatches_either, leftMatches_map_seq]
      simp only [ihr, ihs]
      cases r.accepts <;> simp [LeftMatches]
  | alt r s ihr ihs => rw [Matches, ihr, ihs, derive?, leftMatches_either]
  | star r ih =>
      rw [matches_star_cons_iff, derive?, leftMatches_map_seq]
      simp only [ih]

instance decidableMatches : (r : Regex) → (t : Bytes) → Decidable (r.Matches t)
  | r, [] => decidable_of_iff _ r.matches_nil_iff.symm
  | r, b :: t =>
    match h : r.derive? b with
    | none => isFalse fun hr => by
        obtain ⟨q, hq, -⟩ := (r.matches_cons_iff b t).mp hr
        rw [h] at hq
        cases hq
    | some q =>
      haveI := decidableMatches q t
      decidable_of_iff (q.Matches t) (by simp [matches_cons_iff, h, LeftMatches])

end Regex

end LineCalculator
