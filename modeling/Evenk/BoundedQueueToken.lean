import Evenk.FixedWidth

/-!
# Slot words of the bounded ring (`bounded_queue.h`, `namespace detail`)

A slot word holds the token of a count, the count with its low four bits cleared, and four status
flags below it. As a ring size is a multiple of 16, the token tells the laps of one slot apart,
and adding the size gives the token of the next lap.
-/
namespace BoundedQueue

abbrev CountT := UInt32

abbrev TokenT := UInt32

def statusValid : TokenT := 1

def statusInvalid : TokenT := 2

def statusWaiting : TokenT := 4

def statusClosed : TokenT := 8

def statusMask : TokenT := statusValid ||| statusInvalid

def ticketMask : TokenT := ~~~(statusMask ||| statusWaiting ||| statusClosed)

def minSize : CountT := 16

inductive CloseT where
  | «open»
  | closing
  | closed
  deriving DecidableEq, Repr

/-- `count & detail::ticket_mask`, the token a count looks for in its slot. -/
def token (count : CountT) : TokenT := count &&& ticketMask

/-- The sizes that `ring::create` accepts. -/
def ValidSize (size : CountT) : Prop := minSize ≤ size ∧ size &&& (size - 1) = 0

instance (size : CountT) : Decidable (ValidSize size) :=
  inferInstanceAs (Decidable (_ ∧ _))

theorem ticketMask_toNat : ticketMask.toNat = 2 ^ 32 - 2 ^ 4 := by decide

theorem toNat_token (c : CountT) : (token c).toNat = c.toNat / 2 ^ 4 * 2 ^ 4 := by
  rw [token, UInt32.toNat_and, ticketMask_toNat]
  exact FixedWidth.and_high_mask c.toNat_lt (by norm_num)

theorem toNat_ticket (w : TokenT) : (w &&& ticketMask).toNat = w.toNat / 2 ^ 4 * 2 ^ 4 :=
  toNat_token w

theorem toNat_and_low (w : TokenT) {k : ℕ} (m : TokenT) (hm : m.toNat = 2 ^ k - 1) :
    (w &&& m).toNat = w.toNat % 2 ^ k := by
  rw [UInt32.toNat_and, hm, Nat.and_two_pow_sub_one_eq_mod]

theorem statusMask_toNat : statusMask.toNat = 2 ^ 2 - 1 := by decide

theorem toNat_token_or (c : CountT) {s : TokenT} (hs : s.toNat < 2 ^ 4) :
    (token c ||| s).toNat = (token c).toNat + s.toNat := by
  rw [UInt32.toNat_or, toNat_token, Nat.mul_comm, ← Nat.two_pow_add_eq_or_of_lt hs]

theorem ticket_token_or (c : CountT) {s : TokenT} (hs : s.toNat < 2 ^ 4) :
    (token c ||| s) &&& ticketMask = token c := by
  apply UInt32.toNat_inj.mp
  rw [toNat_ticket, toNat_token_or c hs, toNat_token]
  omega

theorem status_token_or (c : CountT) {s : TokenT} (hs : s.toNat < 2 ^ 4) :
    (token c ||| s) &&& statusMask = s &&& statusMask := by
  apply UInt32.toNat_inj.mp
  rw [toNat_and_low _ _ statusMask_toNat, toNat_and_low _ _ statusMask_toNat,
    toNat_token_or c hs, toNat_token]
  omega

theorem or_flag_and {w f m : TokenT} (h : f &&& m = 0) : (w ||| f) &&& m = w &&& m := by
  apply UInt32.toNat_inj.mp
  have h' : f.toNat &&& m.toNat = 0 := by rw [← UInt32.toNat_and, h]; rfl
  rw [UInt32.toNat_and, UInt32.toNat_or, Nat.and_or_distrib_right, h', Nat.or_zero,
    UInt32.toNat_and]

theorem statusClosed_ticket : statusClosed &&& ticketMask = 0 := by decide

theorem statusClosed_status : statusClosed &&& statusMask = 0 := by decide

theorem statusWaiting_ticket : statusWaiting &&& ticketMask = 0 := by decide

theorem statusWaiting_status : statusWaiting &&& statusMask = 0 := by decide

theorem ValidSize.pow {size : CountT} (h : ValidSize size) :
    ∃ k, 4 ≤ k ∧ k < 32 ∧ size.toNat = 2 ^ k := by
  obtain ⟨hmin, hpow⟩ := h
  have h16 : 2 ^ 4 ≤ size.toNat := UInt32.le_iff_toNat_le.mp hmin
  have hne : size ≠ 0 := by rintro rfl; exact absurd h16 (by decide)
  obtain ⟨k, hk⟩ := (FixedWidth.and_pred_eq_zero_iff hne).mp hpow
  have h32 := size.toNat_lt
  rw [hk] at h16 h32
  exact ⟨k, (Nat.pow_le_pow_iff_right (by decide)).mp h16,
    (Nat.pow_lt_pow_iff_right (by decide)).mp h32, hk⟩

theorem validSize_iff_pow (size : CountT) :
    ValidSize size ↔ ∃ k, 4 ≤ k ∧ k < 32 ∧ size.toNat = 2 ^ k := by
  refine ⟨ValidSize.pow, ?_⟩
  rintro ⟨k, hk4, -, hk⟩
  have hpos : 0 < size.toNat := hk ▸ Nat.two_pow_pos k
  have hne : size ≠ 0 := by rintro rfl; exact absurd hpos (by decide)
  have h16 : 2 ^ 4 ≤ size.toNat := hk ▸ Nat.pow_le_pow_right (by decide) hk4
  exact ⟨UInt32.le_iff_toNat_le.mpr h16, (FixedWidth.and_pred_eq_zero_iff hne).mpr ⟨k, hk⟩⟩

theorem ValidSize.toNat_slot {size : CountT} (h : ValidSize size) (c : CountT) :
    (c &&& (size - 1)).toNat = c.toNat % size.toNat := by
  obtain ⟨k, hk4, -, hk⟩ := h.pow
  have hpos : 1 ≤ 2 ^ k := Nat.one_le_two_pow
  have hsub : (size - 1).toNat = 2 ^ k - 1 := by
    rw [UInt32.toNat_sub_of_le _ _ (by rw [UInt32.le_iff_toNat_le, hk]; simpa using hpos), hk]
    rfl
  rw [toNat_and_low c _ hsub, hk]

theorem ValidSize.dvd {size : CountT} (h : ValidSize size) : 2 ^ 4 ∣ size.toNat := by
  obtain ⟨k, hk4, -, hk⟩ := h.pow
  rw [hk]
  exact Nat.pow_dvd_pow 2 hk4

theorem token_and_flag (c : CountT) {f : TokenT} (hf : ticketMask &&& f = 0) :
    token c &&& f = 0 := by
  rw [token, UInt32.and_assoc, hf, UInt32.and_zero]

theorem token_add_size {size : CountT} (h : ValidSize size) (c : CountT) :
    token c + size = token (c + size) := by
  obtain ⟨m, hm⟩ := h.dvd
  apply UInt32.toNat_inj.mp
  rw [UInt32.toNat_add, toNat_token, toNat_token, UInt32.toNat_add, hm]
  omega

theorem token_inj {size : CountT} (h : ValidSize size) {c c' : CountT}
    (hslot : c.toNat % size.toNat = c'.toNat % size.toNat) : token c = token c' ↔ c = c' := by
  constructor
  · intro ht
    have hdiv := congrArg UInt32.toNat ht
    rw [toNat_token, toNat_token] at hdiv
    have hlow : c.toNat % 2 ^ 4 = c'.toNat % 2 ^ 4 := by
      rw [← Nat.mod_mod_of_dvd _ h.dvd, hslot, Nat.mod_mod_of_dvd _ h.dvd]
    apply UInt32.toNat_inj.mp
    omega
  · rintro rfl
    rfl

/-! ## Counts as numbers

Under threads the counters are read as the numbers of tickets drawn, which the 32-bit words
hold modulo `2 ^ 32`. The size divides `2 ^ 32`, so the slot of a count is the number modulo
the size, and a token tells apart the counts of one slot less than `2 ^ 32` apart. -/

theorem ValidSize.le_two_pow {size : CountT} (h : ValidSize size) : size.toNat ≤ 2 ^ 31 := by
  obtain ⟨k, -, hk, hs⟩ := h.pow
  rw [hs]
  exact Nat.pow_le_pow_right (by norm_num) (by omega)

theorem ValidSize.dvd_two_pow {size : CountT} (h : ValidSize size) : size.toNat ∣ 2 ^ 32 := by
  obtain ⟨k, -, hk, hs⟩ := h.pow
  rw [hs]
  exact Nat.pow_dvd_pow 2 (by omega)

theorem ValidSize.pos {size : CountT} (h : ValidSize size) : 0 < size.toNat := by
  have h16 : 16 ≤ size.toNat := UInt32.le_iff_toNat_le.mp h.1
  omega

theorem ValidSize.toNat_ofNat_mask {m : CountT} (h : ValidSize (m + 1)) (a : ℕ) :
    (UInt32.ofNat a &&& m).toNat = a % (m + 1).toNat := by
  have hslot := h.toNat_slot (UInt32.ofNat a)
  rw [show m + 1 - 1 = m by simp] at hslot
  rw [hslot, UInt32.toNat_ofNat', Nat.mod_mod_of_dvd _ h.dvd_two_pow]

theorem ValidSize.ofNat_mask_eq_iff {m : CountT} (h : ValidSize (m + 1)) {a b : ℕ} :
    UInt32.ofNat a &&& m = UInt32.ofNat b &&& m ↔ a % (m + 1).toNat = b % (m + 1).toNat := by
  rw [← UInt32.toNat_inj, h.toNat_ofNat_mask, h.toNat_ofNat_mask]

theorem token_ofNat_inj {size : CountT} (h : ValidSize size) {a b : ℕ}
    (hslot : a % size.toNat = b % size.toNat) (hab : a < b + 2 ^ 32) (hba : b < a + 2 ^ 32) :
    token (UInt32.ofNat a) = token (UInt32.ofNat b) ↔ a = b := by
  have hmod : (UInt32.ofNat a).toNat % size.toNat = (UInt32.ofNat b).toNat % size.toNat := by
    rw [UInt32.toNat_ofNat', UInt32.toNat_ofNat', Nat.mod_mod_of_dvd _ h.dvd_two_pow,
      Nat.mod_mod_of_dvd _ h.dvd_two_pow, hslot]
  rw [token_inj h hmod]
  exact ⟨FixedWidth.ofNat_inj_of_near hab hba, congrArg _⟩

theorem token_ofNat_next {m : CountT} (h : ValidSize (m + 1)) (a : ℕ) :
    token (UInt32.ofNat a) + m + 1 = token (UInt32.ofNat (a + (m + 1).toNat)) := by
  rw [UInt32.add_assoc, token_add_size h, UInt32.ofNat_add, UInt32.ofNat_toNat]

end BoundedQueue
