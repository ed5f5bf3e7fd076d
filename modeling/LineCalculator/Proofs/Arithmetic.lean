import LineCalculator.Eval.Arithmetic

/-!
# Word arithmetic against integer arithmetic

`Operator.compute` works on 64-bit words, and finds out with word operations
whether its result wrapped. Here both halves of its answer are compared with
the exact result over the integers, division going toward zero. The value is
the exact result cut to 64 bits, and the flag is set exactly if something had
to be cut off, that is, if the exact result does not fit.

The signs of words carry the tests for sums and differences: a word made by
`^^^` is negative if its operands have different signs, and one made by `&&&`
if both are negative. With the wrapped value written as the exact one less a
multiple of `2 ^ 64`, what remains is linear arithmetic.

The test for products divides back. A division leaves a remainder smaller than
the divisor, so a wrapped product that divides back to the left operand is less
than `2 ^ 63` away from the exact one. But it is a multiple of `2 ^ 64` away,
so it is the exact one.

## Main results

* `compute_eq_some` — each operator gives the exact result cut to 64 bits, and
  tells whether it fits.
-/

namespace LineCalculator

/-- The integers from `-2 ^ 63` to `2 ^ 63 - 1`, which fit into 64 bits with a sign. -/
def Fits (n : Int) : Prop := -9223372036854775808 ≤ n ∧ n ≤ 9223372036854775807

instance (n : Int) : Decidable (Fits n) := inferInstanceAs (Decidable (_ ∧ _))

theorem fits_toInt (n : Int64) : Fits n.toInt :=
  ⟨n.le_toInt, Int.le_sub_one_of_lt n.toInt_lt⟩

/-- A number that fits is not changed by cutting it to 64 bits. -/
theorem toInt_ofInt_of_fits {n : Int} (h : Fits n) : (Int64.ofInt n).toInt = n :=
  Int64.toInt_ofInt_of_le h.1 (Int.lt_of_le_sub_one h.2)

/-- Cutting to 64 bits takes away a multiple of `2 ^ 64`. -/
theorem toInt_ofInt_eq (n : Int) : ∃ k, (Int64.ofInt n).toInt = n - 18446744073709551616 * k := by
  refine ⟨n.bdiv (2 ^ 64), ?_⟩
  rw [Int64.toInt_ofInt]
  exact Int.bmod_eq_self_sub_mul_bdiv n (2 ^ 64)

/-! ## Signs of words -/

theorem neg_iff_toInt (a : Int64) : a < 0 ↔ a.toInt < 0 := Int64.lt_iff_toInt_lt

theorem neg_iff_msb (a : Int64) : a < 0 ↔ a.toBitVec.msb = true := by
  rw [Int64.lt_iff_toBitVec_slt]
  exact BitVec.slt_zero_iff_msb_cond

theorem and_neg_iff (a b : Int64) : a &&& b < 0 ↔ a < 0 ∧ b < 0 := by
  rw [neg_iff_msb, neg_iff_msb, neg_iff_msb, Int64.toBitVec_and, BitVec.msb_and,
    Bool.and_eq_true]

theorem xor_neg_iff (a b : Int64) : a ^^^ b < 0 ↔ ¬ (a < 0 ↔ b < 0) := by
  rw [neg_iff_msb, neg_iff_msb, neg_iff_msb, Int64.toBitVec_xor, BitVec.msb_xor]
  cases a.toBitVec.msb <;> cases b.toBitVec.msb <;> decide

/-! ## Operators -/

/-- The exact result of an operation; dividing by zero, and operators that mean
nothing, give zero. -/
def Operator.exact (op : Operator) (l r : Int) : Int :=
  match op with
  | add => l + r
  | sub => l - r
  | mul => l * r
  | div => l.tdiv r
  | unknown _ => 0

/-- The value is the exact result cut to 64 bits, and the flag tells if it fits. -/
structure Computed.Reflects (c : Computed) (exact : Int) : Prop where
  value_eq : c.value = Int64.ofInt exact
  wrapped_iff : c.wrapped = true ↔ ¬ Fits exact

namespace Operator

theorem compute_add (l r : Int64) :
    ∃ c, add.compute l r = some c ∧ c.Reflects (l.toInt + r.toInt) := by
  have hvalue : l + r = Int64.ofInt (l.toInt + r.toInt) := by
    rw [Int64.ofInt_add, Int64.ofInt_toInt, Int64.ofInt_toInt]
  refine ⟨_, rfl, hvalue, ?_⟩
  obtain ⟨k, hk⟩ := toInt_ofInt_eq (l.toInt + r.toInt)
  rw [← hvalue] at hk
  have hl := fits_toInt l
  have hr := fits_toInt r
  have hv := fits_toInt (l + r)
  rw [decide_eq_true_eq, and_neg_iff, xor_neg_iff, xor_neg_iff]
  simp only [neg_iff_toInt]
  unfold Fits at *
  omega

theorem compute_sub (l r : Int64) :
    ∃ c, sub.compute l r = some c ∧ c.Reflects (l.toInt - r.toInt) := by
  have hvalue : l - r = Int64.ofInt (l.toInt - r.toInt) := by
    rw [Int64.ofInt_sub, Int64.ofInt_toInt, Int64.ofInt_toInt]
  refine ⟨_, rfl, hvalue, ?_⟩
  obtain ⟨k, hk⟩ := toInt_ofInt_eq (l.toInt - r.toInt)
  rw [← hvalue] at hk
  have hl := fits_toInt l
  have hr := fits_toInt r
  have hv := fits_toInt (l - r)
  rw [decide_eq_true_eq, and_neg_iff, xor_neg_iff, xor_neg_iff]
  simp only [neg_iff_toInt]
  unfold Fits at *
  omega

/-- A product divides back to its left operand exactly if it fits, where the
division cannot wrap. -/
theorem product_div_eq_iff {l r : Int64} (hr : r ≠ 0) (hleast : ¬ (r = -1 ∧ l = Int64.minValue)) :
    l * r / r = l ↔ Fits (l.toInt * r.toInt) := by
  have hvalue : l * r = Int64.ofInt (l.toInt * r.toInt) := by
    rw [Int64.ofInt_mul, Int64.ofInt_toInt, Int64.ofInt_toInt]
  have hzero : r.toInt ≠ 0 := fun h => hr (Int64.toInt_inj.mp h)
  constructor
  · intro hback
    by_cases hone : r = -1
    · -- Nothing but the least word changes its sign with a wrap.
      have hl := fits_toInt l
      have hne : l.toInt ≠ -9223372036854775808 := fun h => hleast ⟨hone, Int64.toInt_inj.mp h⟩
      have hr : r.toInt = -1 := by rw [hone]; rfl
      rw [hr]
      unfold Fits at *
      omega
    · obtain ⟨k, hk⟩ := toInt_ofInt_eq (l.toInt * r.toInt)
      rw [← hvalue] at hk
      have hdiv : (l * r).toInt.tdiv r.toInt = l.toInt := by
        rw [← Int64.toInt_div_of_ne_right _ _ hone, hback]
      have hsplit := Int.tdiv_mul_add_tmod (l * r).toInt r.toInt
      rw [hdiv] at hsplit
      have hrem : ((l * r).toInt.tmod r.toInt).natAbs < r.toInt.natAbs := by
        rw [Int.natAbs_tmod]
        exact Nat.mod_lt _ (Int.natAbs_pos.mpr hzero)
      have hr := fits_toInt r
      have hv := fits_toInt (l * r)
      unfold Fits at *
      omega
  · intro hfits
    have hv : (l * r).toInt = l.toInt * r.toInt := by rw [hvalue, toInt_ofInt_of_fits hfits]
    apply Int64.toInt_inj.mp
    rw [Int64.toInt_div, hv, Int.mul_tdiv_cancel _ hzero, ← Int64.toInt_ofInt,
      Int64.ofInt_toInt]

theorem compute_mul (l r : Int64) :
    ∃ c, mul.compute l r = some c ∧ c.Reflects (l.toInt * r.toInt) := by
  have hvalue : l * r = Int64.ofInt (l.toInt * r.toInt) := by
    rw [Int64.ofInt_mul, Int64.ofInt_toInt, Int64.ofInt_toInt]
  by_cases hzero : l = 0 ∨ r = 0
  · have hexact : l.toInt * r.toInt = 0 := by
      obtain rfl | rfl := hzero
      · exact Int.zero_mul _
      · exact Int.mul_zero _
    refine ⟨⟨0, false⟩, if_pos hzero, ?_⟩
    rw [hexact]
    exact ⟨rfl, by decide⟩
  · by_cases hleast : (l = -1 ∧ r = Int64.minValue) ∨ (r = -1 ∧ l = Int64.minValue)
    · have hexact : l.toInt * r.toInt = 9223372036854775808 := by
        obtain ⟨rfl, rfl⟩ | ⟨rfl, rfl⟩ := hleast <;> rfl
      refine ⟨⟨l * r, true⟩, (if_neg hzero).trans (if_pos hleast), hvalue, ?_⟩
      rw [hexact]
      exact iff_of_true rfl (by decide)
    · refine ⟨_, (if_neg hzero).trans (if_neg hleast), hvalue, ?_⟩
      have hback := product_div_eq_iff (fun h => hzero (.inr h)) fun h => hleast (.inr h)
      rw [decide_eq_true_eq, ← hback]

/-- A quotient by anything but zero. -/
theorem compute_div (l : Int64) {r : Int64} (hr : r ≠ 0) :
    ∃ c, div.compute l r = some c ∧ c.Reflects (l.toInt.tdiv r.toInt) := by
  by_cases hleast : l = Int64.minValue ∧ r = -1
  · obtain ⟨rfl, rfl⟩ := hleast
    refine ⟨_, rfl, ?_, ?_⟩ <;> decide
  · have hexact : (l / r).toInt = l.toInt.tdiv r.toInt := by
      by_cases hl : l = Int64.minValue
      · exact Int64.toInt_div_of_ne_right l r fun h => hleast ⟨hl, h⟩
      · exact Int64.toInt_div_of_ne_left l r hl
    refine ⟨_, rfl, ?_, ?_⟩
    · rw [← hexact, Int64.ofInt_toInt]
    · have hfits := fits_toInt (l / r)
      rw [hexact] at hfits
      rw [decide_eq_true_eq]
      exact iff_of_false hleast (not_not_intro hfits)

/-- **Each operator is exact up to its flag.** What an operator that means
something makes of two words is the exact result cut to 64 bits, and the flag
tells whether the exact result fits. -/
theorem compute_eq_some {op : Operator} (l : Int64) {r : Int64} (hop : op.isKnown = true)
    (hdiv : ¬ (op = div ∧ r = 0)) :
    ∃ c, op.compute l r = some c ∧ c.Reflects (op.exact l.toInt r.toInt) := by
  cases op with
  | add => exact compute_add l r
  | sub => exact compute_sub l r
  | mul => exact compute_mul l r
  | div => exact compute_div l fun h => hdiv ⟨rfl, h⟩
  | unknown code => cases hop

end Operator

end LineCalculator
