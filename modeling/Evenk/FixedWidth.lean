import Mathlib.Tactic.NormNum

/-!
# Facts about 32-bit words

Masks that clear low bits, flags or-ed into a word, powers of two, and the signed reading of a
wrapped difference, which for numbers less than `2 ^ 31` apart compares them.
-/
namespace FixedWidth

theorem and_high_mask {n w k : ℕ} (hn : n < 2 ^ w) (hk : k ≤ w) :
    n &&& (2 ^ w - 2 ^ k) = n / 2 ^ k * 2 ^ k := by
  have hm : 2 ^ w - 2 ^ k = (2 ^ (w - k) - 1) * 2 ^ k := by
    rw [Nat.sub_mul, one_mul, ← pow_add, Nat.sub_add_cancel hk]
  rw [hm]
  apply Nat.eq_of_testBit_eq
  intro i
  rw [Nat.testBit_and, Nat.testBit_mul_two_pow, Nat.testBit_mul_two_pow,
    Nat.testBit_div_two_pow, Nat.testBit_two_pow_sub_one]
  by_cases hki : k ≤ i
  · by_cases hiw : i < w
    · simp [hki, show i - k < w - k by omega, Nat.sub_add_cancel hki]
    · have hb : n.testBit i = false :=
        Nat.testBit_lt_two_pow (lt_of_lt_of_le hn (Nat.pow_le_pow_right (by norm_num) (by omega)))
      simp [hki, show ¬ i - k < w - k by omega, Nat.sub_add_cancel hki, hb]
  · simp [hki]

theorem or_and_self (x m : UInt32) : (x ||| m) &&& m = m := by
  apply UInt32.toBitVec_inj.1
  simp only [UInt32.toBitVec_and, UInt32.toBitVec_or]
  ext i
  simp only [BitVec.getElem_and, BitVec.getElem_or]
  cases m.toBitVec[i] <;> simp

theorem or_or_self (x m : UInt32) : x ||| m ||| m = x ||| m := by
  rw [UInt32.or_assoc, UInt32.or_self]

theorem toNat_eq_zero {x : UInt32} : x = 0 ↔ x.toNat = 0 := by
  constructor
  · rintro rfl; rfl
  · intro h; exact UInt32.toNat_inj.mp h

theorem toInt_toInt32 (x : UInt32) :
    x.toInt32.toInt = if x.toNat < 2 ^ 31 then (x.toNat : ℤ) else x.toNat - 2 ^ 32 := by
  have ht : x.toInt32.toInt = x.toBitVec.toInt := rfl
  have hn : x.toBitVec.toNat = x.toNat := rfl
  rw [ht, BitVec.toInt_eq_toNat_cond, hn]
  split <;> split <;> omega

theorem toInt32_nonpos_iff (x : UInt32) : x.toInt32 ≤ 0 ↔ x = 0 ∨ 2 ^ 31 ≤ x.toNat := by
  have hx := x.toNat_lt
  have h0 : (0 : Int32).toInt = 0 := rfl
  rw [Int32.le_iff_toInt_le, toInt_toInt32, h0, toNat_eq_zero]
  split <;> omega

theorem ofNat_inj_of_near {a b : ℕ} (hab : a < b + 2 ^ 32) (hba : b < a + 2 ^ 32)
    (h : UInt32.ofNat a = UInt32.ofNat b) : a = b := by
  have hmod := congrArg UInt32.toNat h
  simp only [UInt32.toNat_ofNat'] at hmod
  omega

/-- The signed test `(l - c) <= 0` on the words of two numbers less than `2 ^ 31` apart
compares the numbers. -/
theorem toInt32_sub_nonpos_iff {l c : ℕ} (h₁ : l < c + 2 ^ 31) (h₂ : c < l + 2 ^ 31) :
    (UInt32.ofNat l - UInt32.ofNat c).toInt32 ≤ 0 ↔ l ≤ c := by
  rw [toInt32_nonpos_iff, toNat_eq_zero, UInt32.toNat_sub, UInt32.toNat_ofNat',
    UInt32.toNat_ofNat']
  omega

theorem toNat_and_pred {x : UInt32} (hx : x ≠ 0) :
    (x &&& (x - 1)).toNat = x.toNat &&& (x.toNat - 1) := by
  have hx' : x.toNat ≠ 0 := fun h => hx (toNat_eq_zero.mpr h)
  rw [UInt32.toNat_and, UInt32.toNat_sub_of_le _ _ (UInt32.le_iff_toNat_le.mpr (by simp; omega))]
  rfl

/-- A nonzero word has no bit in common with its predecessor exactly when it is a power of
two. -/
theorem and_pred_eq_zero_iff {x : UInt32} (hx : x ≠ 0) :
    x &&& (x - 1) = 0 ↔ ∃ k, x.toNat = 2 ^ k := by
  rw [toNat_eq_zero, toNat_and_pred hx]
  exact Nat.and_sub_one_eq_zero_iff_isPowerOfTwo fun h => hx (toNat_eq_zero.mpr h)

end FixedWidth
