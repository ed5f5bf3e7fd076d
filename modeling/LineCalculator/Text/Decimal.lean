import LineCalculator.Text.Bytes

/-!
# Decimal numerals

Integers are written in decimal without leading zeros, a minus sign in
front of the negative ones, and read from any string of digits. Reading is
on unbounded integers; what fits into a word is decided by the caller.

## Main results

* `value_ofNat` — what is written reads back.
* `isDigit_of_mem_ofNat` — a written number holds digits only.
* `ofNat_ne_nil` — and at least one of them.
* `notMem_ofInt` — a written integer holds digits and a minus sign only.
-/

namespace LineCalculator.Decimal

/-- The digit for a number below ten. -/
def digit (n : Nat) : UInt8 := UInt8.ofNat (48 + n)

/-- A natural number in decimal, without leading zeros. -/
def ofNat (n : Nat) : Bytes :=
  if n < 10 then [digit n] else ofNat (n / 10) ++ [digit (n % 10)]

/-- An integer in decimal, with a minus sign if it is negative. -/
def ofInt : Int → Bytes
  | .ofNat n => ofNat n
  | .negSucc n => 45 :: ofNat (n + 1)

/-- A 64-bit integer in decimal. -/
def ofInt64 (n : Int64) : Bytes := ofInt n.toInt

/-- The number that a string of digits stands for, most significant first. -/
def value (digits : Bytes) : Nat :=
  digits.foldl (fun n b => n * 10 + (b.toNat - 48)) 0

/-- A numeral without sign: at least one digit and nothing else. -/
def natural? (t : Bytes) : Option Nat :=
  if !t.isEmpty && t.all Byte.isDigit then some (value t) else none

/-- A numeral with an optional sign in front. -/
def integer? : Bytes → Option Int
  | [] => none
  | b :: t =>
    if b == 43 then (natural? t).map Int.ofNat
    else if b == 45 then (natural? t).map (fun n => -(n : Int))
    else (natural? (b :: t)).map Int.ofNat

/-- The 64-bit integer that a numeral stands for, if it stands for one. -/
def int64? (t : Bytes) : Option Int64 :=
  match integer? t with
  | some n =>
    if Int64.minValue.toInt ≤ n ∧ n ≤ Int64.maxValue.toInt then some (Int64.ofInt n) else none
  | none => none

/-! ## Writing and reading agree -/

theorem toNat_digit {n : Nat} (h : n < 10) : (digit n).toNat = 48 + n := by
  have hsize : 48 + n < UInt8.size := by simp only [UInt8.size]; omega
  rw [digit, UInt8.toNat_ofNat_of_lt' hsize]

theorem isDigit_digit {n : Nat} (h : n < 10) : Byte.isDigit (digit n) = true := by
  have hn := toNat_digit h
  simp only [Byte.isDigit, Bool.and_eq_true, decide_eq_true_eq, UInt8.le_iff_toNat_le, hn]
  constructor
  · exact Nat.le_add_right 48 n
  · have : UInt8.toNat 57 = 57 := rfl
    omega

@[simp] theorem value_nil : value [] = 0 := rfl

theorem value_append_singleton (ds : Bytes) (b : UInt8) :
    value (ds ++ [b]) = value ds * 10 + (b.toNat - 48) := by
  simp [value, List.foldl_append]

/-- What is written reads back. -/
theorem value_ofNat (n : Nat) : value (ofNat n) = n := by
  fun_induction ofNat n with
  | case1 n h => simp [value, toNat_digit h]
  | case2 n h ih =>
      rw [value_append_singleton, ih, toNat_digit (Nat.mod_lt n (by omega))]
      omega

theorem ofNat_ne_nil (n : Nat) : ofNat n ≠ [] := by
  fun_induction ofNat n with
  | case1 => simp
  | case2 => simp

/-- A written number holds digits only. -/
theorem isDigit_of_mem_ofNat (n : Nat) : ∀ b ∈ ofNat n, Byte.isDigit b = true := by
  fun_induction ofNat n with
  | case1 n h =>
      intro b hb
      rw [List.mem_singleton.mp hb]
      exact isDigit_digit h
  | case2 n h ih =>
      intro b hb
      rcases List.mem_append.mp hb with hb | hb
      · exact ih b hb
      · rw [List.mem_singleton.mp hb]
        exact isDigit_digit (Nat.mod_lt n (by omega))

/-- A written integer holds digits and a minus sign only. -/
theorem notMem_ofInt {b : UInt8} (hdigit : Byte.isDigit b = false) (hminus : b ≠ 45) (n : Int) :
    b ∉ ofInt n := by
  have hnat (k : Nat) : b ∉ ofNat k := by
    intro hb
    rw [isDigit_of_mem_ofNat k b hb] at hdigit
    cases hdigit
  cases n with
  | ofNat k => exact hnat k
  | negSucc k =>
      intro hb
      rcases List.mem_cons.mp hb with hb | hb
      · exact hminus hb
      · exact hnat (k + 1) hb

end LineCalculator.Decimal
