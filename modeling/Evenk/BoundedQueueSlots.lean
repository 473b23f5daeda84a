import Evenk.BoundedQueueThreads
import Mathlib.Data.Nat.ModEq

/-!
# The slots of the threaded ring, by ticket number

The slot of ticket `c` is `ring_[c & mask_]` and its lap the ghost lap of `c` modulo the size, so
a store into the slot of one ticket changes the slot of every ticket of its residue and of no
other.
-/
namespace BoundedQueueThreads

open BoundedQueue BoundedQueueRing BoundedQueueRing.BoundedRing

variable {V τ : Type}

theorem add_le_of_mod_eq {a b n : ℕ} (h : a % n = b % n) (hab : a < b) : a + n ≤ b := by
  have hd : n ∣ b - a := (Nat.modEq_iff_dvd' hab.le).mp h
  have := Nat.le_of_dvd (by omega) hd
  omega

namespace State

/-- The slot of ticket `c`. -/
def slotOf (s : State V τ) (c : ℕ) : RingSlot V := s.mem.ring (UInt32.ofNat c &&& s.mem.mask)

/-- The lap the slot of ticket `c` waits for. -/
def lapOf (s : State V τ) (c : ℕ) : ℕ := s.lap (c % s.size)

/-- The pop of ticket `c` has passed its slot on to the next lap. -/
def Finished (s : State V τ) (c : ℕ) : Prop := c ∈ s.outcomes.map Prod.fst

theorem word_ofNat (s : State V τ) (c : ℕ) : s.word (UInt32.ofNat c) = (s.slotOf c).word := rfl

theorem finished_iff_exists {s : State V τ} {c : ℕ} :
    s.Finished c ↔ ∃ n, (c, n) ∈ s.outcomes := by
  simp [Finished]

theorem finished_append {s s' : State V τ} {k : ℕ} {n : AfterWake V}
    (h : s'.outcomes = s.outcomes ++ [(k, n)]) (c : ℕ) : s'.Finished c ↔ s.Finished c ∨ c = k := by
  simp [Finished, h]

section SetPc

variable [DecidableEq τ] (s : State V τ) (t : τ) (p : Pc V)

@[simp] theorem setPc_size : (s.setPc t p).size = s.size := rfl
@[simp] theorem setPc_slotOf (c : ℕ) : (s.setPc t p).slotOf c = s.slotOf c := rfl
@[simp] theorem setPc_lapOf (c : ℕ) : (s.setPc t p).lapOf c = s.lapOf c := rfl
@[simp] theorem setPc_finished (c : ℕ) : (s.setPc t p).Finished c ↔ s.Finished c := Iff.rfl

end SetPc

end State

/-! ## Stores into one slot -/

section Store

variable {m : CountT} (h : ValidSize (m + 1))
include h

theorem update_ofNat_mask {β : Type} (f : CountT → β) (x : β) {a b : ℕ} :
    Function.update f (UInt32.ofNat a &&& m) x (UInt32.ofNat b &&& m) =
      if a % (m + 1).toNat = b % (m + 1).toNat then x else f (UInt32.ofNat b &&& m) := by
  rw [Function.update_apply]
  by_cases hab : a % (m + 1).toNat = b % (m + 1).toNat
  · rw [if_pos (h.ofNat_mask_eq_iff.mpr hab.symm), if_pos hab]
  · rw [if_neg (fun he => hab (h.ofNat_mask_eq_iff.mp he).symm), if_neg hab]

theorem ring_update_same {β : Type} (f : CountT → β) (x : β) {a b : ℕ}
    (hab : a % (m + 1).toNat = b % (m + 1).toNat) :
    Function.update f (UInt32.ofNat a &&& m) x (UInt32.ofNat b &&& m) = x := by
  rw [update_ofNat_mask h, if_pos hab]

theorem ring_update_other {β : Type} (f : CountT → β) (x : β) {a b : ℕ}
    (hab : a % (m + 1).toNat ≠ b % (m + 1).toNat) :
    Function.update f (UInt32.ofNat a &&& m) x (UInt32.ofNat b &&& m) =
      f (UInt32.ofNat b &&& m) := by
  rw [update_ofNat_mask h, if_neg hab]

theorem ofNat_mask_congr {a b : ℕ} (hab : a % (m + 1).toNat = b % (m + 1).toNat) :
    UInt32.ofNat a &&& m = UInt32.ofNat b &&& m :=
  h.ofNat_mask_eq_iff.mpr hab

end Store

namespace State

variable {s s' : State V τ}

theorem slotOf_congr (h : ValidSize (s.mem.mask + 1)) {a b : ℕ} (hab : a % s.size = b % s.size) :
    s.slotOf a = s.slotOf b := by
  unfold slotOf
  rw [ofNat_mask_congr h hab]

theorem lapOf_congr {a b : ℕ} (hab : a % s.size = b % s.size) : s.lapOf a = s.lapOf b := by
  unfold lapOf
  rw [hab]

theorem slotOf_update_same (h : ValidSize (s.mem.mask + 1)) {a b : ℕ} {x : RingSlot V}
    (hring : s'.mem.ring = Function.update s.mem.ring (UInt32.ofNat a &&& s.mem.mask) x)
    (hmask : s'.mem.mask = s.mem.mask)
    (hab : a % s.size = b % s.size) : s'.slotOf b = x := by
  unfold slotOf
  rw [hmask, hring, ring_update_same h _ _ hab]

theorem slotOf_update_other (h : ValidSize (s.mem.mask + 1)) {a b : ℕ} {x : RingSlot V}
    (hring : s'.mem.ring = Function.update s.mem.ring (UInt32.ofNat a &&& s.mem.mask) x)
    (hmask : s'.mem.mask = s.mem.mask)
    (hab : a % s.size ≠ b % s.size) : s'.slotOf b = s.slotOf b := by
  unfold slotOf
  rw [hmask, hring, ring_update_other h _ _ hab]

theorem lapOf_update {a x : ℕ} (hlap : s'.lap = Function.update s.lap (a % s.size) x)
    (hsize : s'.size = s.size) (b : ℕ) :
    s'.lapOf b = if a % s.size = b % s.size then x else s.lapOf b := by
  unfold lapOf
  rw [hsize, hlap, Function.update_apply]
  by_cases hab : a % s.size = b % s.size
  · rw [if_pos hab.symm, if_pos hab]
  · rw [if_neg (Ne.symm hab), if_neg hab]

end State

/-! ## Counters as numbers -/

theorem ofNat_succ (n : ℕ) : UInt32.ofNat n + 1 = UInt32.ofNat (n + 1) := by
  rw [UInt32.ofNat_add]
  rfl

theorem ofNat_add_size (n : ℕ) (m : CountT) :
    UInt32.ofNat n + (m + 1) = UInt32.ofNat (n + (m + 1).toNat) := by
  rw [UInt32.ofNat_add, UInt32.ofNat_toNat]

theorem isPastLast_ofNat {r : BoundedRing V} {lastN k : ℕ}
    (hlast : r.closed = .closed → r.last = UInt32.ofNat lastN)
    (hnear : r.closed = .closed → Near k lastN) :
    r.isPastLast (UInt32.ofNat k) = true ↔ r.closed = .closed ∧ lastN ≤ k := by
  unfold isPastLast
  by_cases hc : r.closed = .closed
  · obtain ⟨h₁, h₂⟩ := hnear hc
    rw [if_neg (not_not.mpr hc), hlast hc, decide_eq_true_iff,
      FixedWidth.toInt32_sub_nonpos_iff h₂ h₁]
    exact ⟨fun hle => ⟨hc, hle⟩, fun h => h.2⟩
  · rw [if_pos hc]
    simp [hc]

end BoundedQueueThreads
