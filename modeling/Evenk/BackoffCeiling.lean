import Evenk.Backoff
import Mathlib.Algebra.Group.Nat.Defs
import Mathlib.Order.Basic

/-!
# What the back-off policies report

No pause exceeds the ceiling. After a call that reports the ceiling, the next one reports it
again exactly when `ceiling + grow(ceiling)` does not wrap in `uint32_t`; otherwise the count
starts again from the wrapped value. `composite_backoff` hands every later call to its second
policy.
-/
namespace BackoffCeiling

open Backoff

variable {σ : Type} {ceiling : UInt32} {grow : UInt32 → UInt32}

/-! ## Runs of calls -/

theorem after_succ (f : σ → Call × σ) (n : ℕ) (s : σ) :
    after f (n + 1) s = (f (after f n s)).2 := by
  induction n generalizing s with
  | zero => rfl
  | succ n ih => exact ih (f s).2

theorem after_add (f : σ → Call × σ) (m n : ℕ) (s : σ) :
    after f (m + n) s = after f n (after f m s) := by
  induction n with
  | zero => rfl
  | succ n ih => rw [← Nat.add_assoc, after_succ, ih, after_succ]

theorem after_of_step {f : σ → Call × σ} {P : σ → Prop} (hstep : ∀ s, P s → P (f s).2)
    (n : ℕ) {s : σ} (hs : P s) : P (after f n s) := by
  induction n generalizing s with
  | zero => exact hs
  | succ n ih => exact ih (hstep s hs)

/-! ## One clamped call -/

theorem clampedBackoff_of_lt {count : UInt32} (h : ceiling < count + grow count) :
    clampedBackoff ceiling grow count = (⟨some count, true⟩, ceiling) := by
  simp [clampedBackoff, h]

theorem clampedBackoff_of_le {count : UInt32} (h : count + grow count ≤ ceiling) :
    clampedBackoff ceiling grow count = (⟨some count, false⟩, count + grow count) := by
  simp [clampedBackoff, UInt32.not_lt.mpr h]

@[simp] theorem clampedBackoff_pause (count : UInt32) :
    (clampedBackoff ceiling grow count).1.pause = some count := by
  rcases UInt32.lt_or_le ceiling (count + grow count) with h | h
  · rw [clampedBackoff_of_lt h]
  · rw [clampedBackoff_of_le h]

theorem clampedBackoff_reached (count : UInt32) :
    (clampedBackoff ceiling grow count).1.reached = true ↔ ceiling < count + grow count := by
  rcases UInt32.lt_or_le ceiling (count + grow count) with h | h
  · simp [clampedBackoff_of_lt h, h]
  · simp [clampedBackoff_of_le h, UInt32.not_lt.mpr h]

theorem clampedBackoff_of_reached {count : UInt32}
    (h : (clampedBackoff ceiling grow count).1.reached = true) :
    (clampedBackoff ceiling grow count).2 = ceiling := by
  rw [clampedBackoff_of_lt ((clampedBackoff_reached _).mp h)]

theorem clampedBackoff_le {count : UInt32} :
    (clampedBackoff ceiling grow count).2 ≤ ceiling := by
  rcases UInt32.lt_or_le ceiling (count + grow count) with h | h
  · rw [clampedBackoff_of_lt h]
    exact UInt32.le_refl _
  · rw [clampedBackoff_of_le h]
    exact h

theorem after_le (n : ℕ) : after (clampedBackoff ceiling grow) n initialCount ≤ ceiling := by
  cases n with
  | zero => exact UInt32.zero_le
  | succ n =>
    rw [after_succ]
    exact clampedBackoff_le

/-- No call pauses for longer than the ceiling. -/
theorem pause_le_ceiling (n : ℕ) :
    ∃ p, (nth (clampedBackoff ceiling grow) n initialCount).pause = some p ∧ p ≤ ceiling :=
  ⟨_, clampedBackoff_pause _, after_le n⟩

/-! ## After the ceiling is reached -/

theorem after_reached {n : ℕ} {s : UInt32}
    (h : (nth (clampedBackoff ceiling grow) n s).reached = true) :
    after (clampedBackoff ceiling grow) (n + 1) s = ceiling := by
  rw [after_succ]
  exact clampedBackoff_of_reached h

theorem reached_stays (hfix : ceiling < ceiling + grow ceiling) {n : ℕ} {s : UInt32}
    (h : (nth (clampedBackoff ceiling grow) n s).reached = true) (k : ℕ) :
    (nth (clampedBackoff ceiling grow) (n + 1 + k) s).reached = true := by
  have hat : ∀ k, after (clampedBackoff ceiling grow) (n + 1 + k) s = ceiling := by
    intro k
    rw [after_add, after_reached h]
    refine after_of_step (P := fun c => c = ceiling) (fun c hc => ?_) k rfl
    subst hc
    exact clampedBackoff_of_reached ((clampedBackoff_reached _).mpr hfix)
  rw [nth, hat k]
  exact (clampedBackoff_reached _).mpr hfix

/-- With a ceiling that grows past itself, the reported values are monotone. -/
theorem reached_monotone (hfix : ceiling < ceiling + grow ceiling) {i j : ℕ} {s : UInt32}
    (hij : i ≤ j) (h : (nth (clampedBackoff ceiling grow) i s).reached = true) :
    (nth (clampedBackoff ceiling grow) j s).reached = true := by
  rcases Nat.eq_or_lt_of_le hij with rfl | hlt
  · exact h
  · obtain ⟨k, rfl⟩ : ∃ k, j = i + 1 + k := ⟨j - (i + 1), by omega⟩
    exact reached_stays hfix h k

/-- If the ceiling wraps when it grows, the call after one that reported the ceiling reports
it not reached. -/
theorem reached_forgotten (hwrap : ¬ ceiling < ceiling + grow ceiling) {n : ℕ} {s : UInt32}
    (h : (nth (clampedBackoff ceiling grow) n s).reached = true) :
    (nth (clampedBackoff ceiling grow) (n + 1) s).reached = false := by
  rw [nth, after_reached h]
  cases hr : (clampedBackoff ceiling grow ceiling).1.reached
  · rfl
  · exact absurd ((clampedBackoff_reached _).mp hr) hwrap

/-! ## The two policies -/

theorem linear_grows_iff {step : UInt32} (hstep : 0 < step.toNat) :
    ceiling < ceiling + step ↔ ceiling.toNat + step.toNat < 2 ^ 32 := by
  rw [UInt32.lt_iff_toNat_lt, UInt32.toNat_add]
  have := ceiling.toNat_lt
  have := step.toNat_lt
  constructor
  · intro h
    by_contra hge
    rw [Nat.mod_eq_sub_mod (by omega), Nat.mod_eq_of_lt (by omega)] at h
    omega
  · intro h
    rw [Nat.mod_eq_of_lt h]
    omega

theorem exponential_grows_iff : ceiling < ceiling + (ceiling + 1) ↔ ceiling.toNat < 2 ^ 31 := by
  rw [UInt32.lt_iff_toNat_lt, UInt32.toNat_add, UInt32.toNat_add, UInt32.toNat_one]
  have := ceiling.toNat_lt
  constructor
  · intro h
    by_contra hge
    rw [Nat.mod_eq_of_lt (a := ceiling.toNat + 1) (by omega),
      Nat.mod_eq_sub_mod (by omega), Nat.mod_eq_of_lt (by omega)] at h
    omega
  · intro h
    rw [Nat.mod_eq_of_lt (a := ceiling.toNat + 1) (by omega), Nat.mod_eq_of_lt (by omega)]
    omega

theorem linear_first_reached {step : UInt32} (h : ceiling < step) :
    (nth (linearBackoff ceiling step) 0 initialCount).reached = true := by
  rw [nth, after, linearBackoff, clampedBackoff_reached]
  simpa [initialCount] using h

theorem exponentialBackoff_of_le {count : UInt32} (h : count + (count + 1) ≤ ceiling) :
    exponentialBackoff ceiling count = (⟨some count, false⟩, count + (count + 1)) :=
  clampedBackoff_of_le h

theorem exponentialBackoff_reached (count : UInt32) :
    (exponentialBackoff ceiling count).1.reached = true ↔ ceiling < count + (count + 1) :=
  clampedBackoff_reached count

theorem exponential_after_pow {k : ℕ} (hk : 2 ^ k - 1 ≤ ceiling.toNat) (hk32 : k < 32) :
    (after (exponentialBackoff ceiling) k initialCount).toNat = 2 ^ k - 1 := by
  induction k with
  | zero => rfl
  | succ k ih =>
    have hpow : 2 ^ k ≤ 2 ^ 31 := Nat.pow_le_pow_right Nat.two_pos (by omega)
    have hk' : 2 ^ k - 1 ≤ ceiling.toNat := by
      have : 2 ^ k ≤ 2 ^ (k + 1) := Nat.pow_le_pow_right Nat.two_pos (by omega)
      omega
    have hprev := ih hk' (by omega)
    rw [after_succ]
    generalize after (exponentialBackoff ceiling) k initialCount = x at hprev ⊢
    have hsum : (x + (x + 1)).toNat = 2 ^ (k + 1) - 1 := by
      rw [UInt32.toNat_add, UInt32.toNat_add, UInt32.toNat_one, hprev, Nat.pow_succ]
      have : 1 ≤ 2 ^ k := Nat.one_le_two_pow
      rw [Nat.mod_eq_of_lt (by omega), Nat.mod_eq_of_lt (by omega)]
      omega
    have hle : x + (x + 1) ≤ ceiling := by
      rw [UInt32.le_iff_toNat_le, hsum]
      omega
    rw [exponentialBackoff_of_le hle]
    exact hsum

theorem exponential_reached_31 (hlo : 2 ^ 31 ≤ ceiling.toNat) (hhi : ceiling.toNat < 2 ^ 32 - 1) :
    (nth (exponentialBackoff ceiling) 31 initialCount).reached = true := by
  have h31 : (after (exponentialBackoff ceiling) 31 initialCount).toNat = 2 ^ 31 - 1 :=
    exponential_after_pow (by omega) (by omega)
  rw [nth]
  generalize after (exponentialBackoff ceiling) 31 initialCount = x at h31 ⊢
  rw [exponentialBackoff_reached, UInt32.lt_iff_toNat_lt, UInt32.toNat_add, UInt32.toNat_add,
    UInt32.toNat_one, h31]
  omega

/-- `linear_backoff<P, 4294967294, 4294967295>` reports its ceiling on call 0 and not on call
1, and `exponential_backoff<P, 2147483648>` reports it on call 31 and not on call 32: at the
ceiling, `count_ += step` and `count_ += count_ + 1` wrap. -/
theorem backoff_ceiling_forgotten :
    (nth (linearBackoff 4294967294 4294967295) 0 initialCount).reached = true ∧
    (nth (linearBackoff 4294967294 4294967295) 1 initialCount).reached = false ∧
    (nth (exponentialBackoff 2147483648) 31 initialCount).reached = true ∧
    (nth (exponentialBackoff 2147483648) 32 initialCount).reached = false := by
  have hlin : (nth (linearBackoff 4294967294 4294967295) 0 initialCount).reached = true :=
    linear_first_reached (by decide)
  have hexp : (nth (exponentialBackoff 2147483648) 31 initialCount).reached = true :=
    exponential_reached_31 (by decide) (by decide)
  refine ⟨hlin, reached_forgotten ?_ hlin, hexp, reached_forgotten ?_ hexp⟩
  · -- `4294967294 + 4294967295` wraps
    show ¬ (4294967294 : UInt32) < 4294967294 + 4294967295
    rw [linear_grows_iff (by decide)]
    decide
  · show ¬ (2147483648 : UInt32) < 2147483648 + (2147483648 + 1)
    rw [exponential_grows_iff]
    decide

/-! ## `composite_backoff` -/

section Composite

variable {σ₁ σ₂ : Type} {a : σ₁ → Call × σ₁} {b : σ₂ → Call × σ₂}

theorem useSecond_stays (n : ℕ) {s : CompositeState σ₁ σ₂} (h : s.useSecond = true) :
    (after (compositeBackoff a b) n s).useSecond = true :=
  after_of_step (P := fun s : CompositeState σ₁ σ₂ => s.useSecond = true)
    (fun s hs => by simp [compositeBackoff, hs]) n h

/-- Every call after one on which the first policy returned `true` goes to the second
policy. -/
theorem composite_delegates {s : CompositeState σ₁ σ₂} {i n : ℕ} (hin : i < n)
    (hfirst : (after (compositeBackoff a b) i s).useSecond = false)
    (hreached : (a (after (compositeBackoff a b) i s).first).1.reached = true) :
    compositeBackoff a b (after (compositeBackoff a b) n s) =
      ((b (after (compositeBackoff a b) n s).second).1,
        { after (compositeBackoff a b) n s with
          second := (b (after (compositeBackoff a b) n s).second).2 }) := by
  have hnext : (after (compositeBackoff a b) (i + 1) s).useSecond = true := by
    rw [after_succ]
    simp [compositeBackoff, hfirst, hreached]
  obtain ⟨k, rfl⟩ : ∃ k, n = i + 1 + k := ⟨n - (i + 1), by omega⟩
  have huse := useSecond_stays (a := a) (b := b) k hnext
  rw [← after_add] at huse
  simp [compositeBackoff, huse]

end Composite

end BackoffCeiling
