import Mathlib.Data.Nat.Bitwise
import Mathlib.Tactic.Ring

/-!
# Two counters packed into one word

A `w`-bit word holds `lo + hi * 2 ^ h` modulo `2 ^ w`, each counter moved by adding its step to
the whole word. With `2 * h ≤ w`, two packings whose counters are each less than `2 ^ h` apart
are equal only when both counters are.
-/
namespace PackedCounter

variable {w h : ℕ}

def pack (w h lo hi : ℕ) : BitVec w := BitVec.ofNat w (lo + hi * 2 ^ h)

theorem toNat_pack (lo hi : ℕ) : (pack w h lo hi).toNat = (lo + hi * 2 ^ h) % 2 ^ w :=
  BitVec.toNat_ofNat _ _

@[simp] theorem pack_zero : pack w h 0 0 = 0 := by
  simp [pack]

theorem pack_add_one (lo hi : ℕ) : pack w h lo hi + 1 = pack w h (lo + 1) hi := by
  rw [pack, pack, show (1 : BitVec w) = BitVec.ofNat w 1 from rfl, BitVec.ofNat_add_ofNat]
  congr 1
  ring

theorem pack_add_step (lo hi : ℕ) :
    pack w h lo hi + BitVec.ofNat w (2 ^ h) = pack w h lo (hi + 1) := by
  rw [pack, pack, BitVec.ofNat_add_ofNat]
  congr 1
  ring

theorem toNat_mask (hh : h < w) : (BitVec.ofNat w (2 ^ h) - 1).toNat = 2 ^ h - 1 := by
  have hp : 2 ^ h < 2 ^ w := Nat.pow_lt_pow_right Nat.one_lt_two hh
  have hpos : 0 < 2 ^ h := Nat.two_pow_pos h
  have h1 : (1 : BitVec w).toNat = 1 := BitVec.toNat_one (by omega)
  rw [BitVec.toNat_sub, h1, BitVec.toNat_ofNat, Nat.mod_eq_of_lt hp]
  rw [show 2 ^ w - 1 + 2 ^ h = (2 ^ h - 1) + 2 ^ w by omega, Nat.add_mod_right,
    Nat.mod_eq_of_lt (by omega)]

theorem pack_and_mask (hh : h < w) (lo hi : ℕ) :
    (pack w h lo hi &&& (BitVec.ofNat w (2 ^ h) - 1)).toNat = lo % 2 ^ h := by
  rw [BitVec.toNat_and, toNat_mask hh, Nat.and_two_pow_sub_one_eq_mod, toNat_pack,
    Nat.mod_mod_of_dvd _ (pow_dvd_pow 2 hh.le), Nat.add_mul_mod_self_right]

theorem eq_of_mod_eq {m a b : ℕ} (hab : a ≤ b) (hb : b < a + m) (h : a % m = b % m) : a = b := by
  have hd : m ∣ b - a := Nat.dvd_of_mod_eq_zero (Nat.sub_mod_eq_zero_of_mod_eq h.symm)
  have := Nat.eq_zero_of_dvd_of_lt hd (by omega)
  omega

theorem low_inj (hh : h < w) {lo lo' hi hi' : ℕ} (hlo : lo ≤ lo') (hlo' : lo' < lo + 2 ^ h)
    (heq : (pack w h lo hi &&& (BitVec.ofNat w (2 ^ h) - 1)) =
      (pack w h lo' hi' &&& (BitVec.ofNat w (2 ^ h) - 1))) : lo = lo' := by
  have hmod := congrArg BitVec.toNat heq
  rw [pack_and_mask hh, pack_and_mask hh] at hmod
  exact eq_of_mod_eq hlo hlo' hmod

theorem pack_inj (hw : 2 * h ≤ w) {lo lo' hi hi' : ℕ} (hlo : lo ≤ lo') (hlo' : lo' < lo + 2 ^ h)
    (hhi : hi ≤ hi') (hhi' : hi' < hi + 2 ^ h) (heq : pack w h lo hi = pack w h lo' hi') :
    lo = lo' ∧ hi = hi' := by
  have hmod := congrArg BitVec.toNat heq
  rw [toNat_pack, toNat_pack] at hmod
  obtain ⟨a, rfl⟩ : ∃ a, lo' = lo + a := ⟨lo' - lo, by omega⟩
  obtain ⟨b, rfl⟩ : ∃ b, hi' = hi + b := ⟨hi' - hi, by omega⟩
  -- the two words differ by `a + b * 2 ^ h`, which is below `2 ^ (2 * h) ≤ 2 ^ w`
  have hpos : 0 < 2 ^ h := Nat.two_pow_pos h
  have hlt : a + b * 2 ^ h < 2 ^ w := by
    have hb : b * 2 ^ h + 2 ^ h ≤ 2 ^ h * 2 ^ h :=
      calc b * 2 ^ h + 2 ^ h = (b + 1) * 2 ^ h := by ring
        _ ≤ 2 ^ h * 2 ^ h := Nat.mul_le_mul_right _ (by omega)
    have hw' : 2 ^ h * 2 ^ h ≤ 2 ^ w := by
      rw [← pow_add]
      exact Nat.pow_le_pow_right Nat.two_pos (by omega)
    omega
  have hsum : lo + a + (hi + b) * 2 ^ h = (lo + hi * 2 ^ h) + (a + b * 2 ^ h) := by ring
  rw [hsum] at hmod
  have hsame := eq_of_mod_eq (m := 2 ^ w) (Nat.le_add_right _ _) (by omega) hmod
  have hb : b * 2 ^ h = 0 := by omega
  rcases Nat.mul_eq_zero.mp hb with hb | hb
  · omega
  · omega

end PackedCounter
