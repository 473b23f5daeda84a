import Mathlib.Data.Fintype.Card
import Mathlib.Order.Basic
import Mathlib.Algebra.Group.Int.Defs
import Mathlib.Algebra.Group.Nat.Defs
import Evenk.FixedWidth

/-!
# The kernel side of a futex

`futex_wait` is an atomic compare-and-sleep; `futex_wake` and `futex_requeue` take up to their
counts of sleepers off a queue, the kernel choosing which, so both are relations. Spurious
wake-ups are left out. The wrappers' two decodings of the kernel's answer, from `eax` on x86-64
and through `syscall()` elsewhere, agree.
-/
namespace Futex

/-- The address each thread sleeps on, if it sleeps. -/
abbrev Queues (τ α : Type*) := τ → Option α

variable {τ α : Type*}

def Queues.empty : Queues τ α := fun _ => none

@[simp] theorem empty_apply (t : τ) : (Queues.empty : Queues τ α) t = none := rfl

section Update

variable [DecidableEq τ]

def enqueue (q : Queues τ α) (t : τ) (a : α) : Queues τ α := Function.update q t (some a)

def release (q : Queues τ α) (W : Finset τ) : Queues τ α := fun t => if t ∈ W then none else q t

def move (q : Queues τ α) (R : Finset τ) (b : α) : Queues τ α :=
  fun t => if t ∈ R then some b else q t

@[simp] theorem enqueue_self (q : Queues τ α) (t : τ) (a : α) : enqueue q t a t = some a := by
  simp [enqueue]

theorem enqueue_ne (q : Queues τ α) {t u : τ} (a : α) (h : u ≠ t) : enqueue q t a u = q u := by
  simp [enqueue, h]

theorem enqueue_eq_some {q : Queues τ α} {t u : τ} {a b : α} (hab : a ≠ b)
    (h : enqueue q t a u = some b) : q u = some b := by
  by_cases hu : u = t
  · subst hu
    rw [enqueue_self] at h
    exact absurd (Option.some.inj h) hab
  · rwa [enqueue_ne _ _ hu] at h

end Update

variable [Fintype τ] [DecidableEq τ] [DecidableEq α]

def sleepers (q : Queues τ α) (a : α) : Finset τ := Finset.univ.filter fun t => q t = some a

def Wake (q : Queues τ α) (a : α) (n : ℕ) (q' : Queues τ α) : Prop :=
  ∃ W ⊆ sleepers q a, W.card = min n (sleepers q a).card ∧ q' = release q W

def Requeue (q : Queues τ α) (a : α) (n m : ℕ) (b : α) (q' : Queues τ α) : Prop :=
  ∃ W R, W ⊆ sleepers q a ∧ R ⊆ sleepers q a ∧ Disjoint W R ∧
    W.card = min n (sleepers q a).card ∧ R.card = min m ((sleepers q a).card - W.card) ∧
    q' = move (release q W) R b

omit [DecidableEq τ] in
@[simp] theorem mem_sleepers {q : Queues τ α} {a : α} {t : τ} :
    t ∈ sleepers q a ↔ q t = some a := by
  simp [sleepers]

omit [DecidableEq τ] in
theorem card_sleepers_lt {q : Queues τ α} {t : τ} (ht : q t = none) (a : α) :
    (sleepers q a).card < Fintype.card τ :=
  Finset.card_lt_univ_of_notMem (x := t) (by simp [ht])

omit [DecidableEq τ] in
theorem sleepers_eq_empty {q : Queues τ α} {a : α} (h : ∀ t, q t ≠ some a) :
    sleepers q a = ∅ := by
  ext t
  simpa using h t

theorem wake_self {q : Queues τ α} {a : α} (h : ∀ t, q t ≠ some a) (n : ℕ) : Wake q a n q := by
  refine ⟨∅, Finset.empty_subset _, by simp [sleepers_eq_empty h], ?_⟩
  funext t
  simp [release]

theorem requeue_self {q : Queues τ α} {a : α} (h : ∀ t, q t ≠ some a) (n m : ℕ) (b : α) :
    Requeue q a n m b q := by
  refine ⟨∅, ∅, Finset.empty_subset _, Finset.empty_subset _, Finset.disjoint_empty_left _,
    by simp [sleepers_eq_empty h], by simp [sleepers_eq_empty h], ?_⟩
  funext t
  simp [move, release]

theorem Wake.apply {q q' : Queues τ α} {a : α} {n : ℕ} (h : Wake q a n q') (t : τ) :
    q' t = q t ∨ (q t = some a ∧ q' t = none) := by
  obtain ⟨W, hW, -, rfl⟩ := h
  by_cases ht : t ∈ W
  · exact .inr ⟨mem_sleepers.mp (hW ht), by simp [release, ht]⟩
  · exact .inl (by simp [release, ht])

theorem Wake.other {q q' : Queues τ α} {a : α} {n : ℕ} (h : Wake q a n q') {t : τ}
    (ht : q t ≠ some a) : q' t = q t := by
  rcases h.apply t with h | ⟨h, -⟩
  · exact h
  · exact absurd h ht

theorem Wake.le {q q' : Queues τ α} {a : α} {n : ℕ} (h : Wake q a n q') {t : τ} {b : α}
    (ht : q' t = some b) : q t = some b := by
  rcases h.apply t with h | ⟨-, h⟩
  · rwa [← h]
  · rw [h] at ht; cases ht

theorem Wake.keep_none {q q' : Queues τ α} {a : α} {n : ℕ} (h : Wake q a n q') {t : τ}
    (ht : q t = none) : q' t = none := by
  rcases h.apply t with h | ⟨h, -⟩
  · rw [h, ht]
  · rw [ht] at h; cases h

theorem Wake.all {q q' : Queues τ α} {a : α} {n : ℕ} (h : Wake q a n q')
    (hn : (sleepers q a).card ≤ n) {t : τ} (ht : q t = some a) : q' t = none := by
  obtain ⟨W, hW, hc, rfl⟩ := h
  have hall : W = sleepers q a :=
    Finset.eq_of_subset_of_card_le hW (by rw [hc]; exact le_min hn le_rfl)
  have : t ∈ W := hall ▸ mem_sleepers.mpr ht
  simp [release, this]

theorem Wake.some_left {q q' : Queues τ α} {a : α} {n : ℕ} (h : Wake q a n q')
    (hc : n < (sleepers q a).card) : ∃ t, q t = some a ∧ q' t = some a := by
  obtain ⟨W, hW, hcW, rfl⟩ := h
  have hlt : W.card < (sleepers q a).card := by
    rw [hcW]
    exact lt_of_le_of_lt (min_le_left _ _) hc
  obtain ⟨t, ht, htn⟩ := Finset.exists_mem_notMem_of_card_lt_card hlt
  exact ⟨t, mem_sleepers.mp ht, by simp [release, htn, mem_sleepers.mp ht]⟩

theorem Wake.some_woken {q q' : Queues τ α} {a : α} {n : ℕ} (h : Wake q a n q') (hn : 0 < n)
    {t : τ} (ht : q t = some a) : ∃ u, q u = some a ∧ q' u = none := by
  obtain ⟨W, hW, hc, rfl⟩ := h
  have hpos : 0 < W.card := by
    rw [hc]
    exact lt_min hn (Finset.card_pos.mpr ⟨t, mem_sleepers.mpr ht⟩)
  obtain ⟨u, hu⟩ := Finset.card_pos.mp hpos
  exact ⟨u, mem_sleepers.mp (hW hu), by simp [release, hu]⟩

theorem wake_exists (q : Queues τ α) (a : α) (n : ℕ) : ∃ q', Wake q a n q' := by
  obtain ⟨W, hW, hc⟩ := Finset.exists_subset_card_eq (min_le_right n (sleepers q a).card)
  exact ⟨_, W, hW, hc, rfl⟩

/-- A requeue changes only the queue of its source address: its threads are woken, moved
to the target or left in place. -/
theorem Requeue.apply {q q' : Queues τ α} {a b : α} {n m : ℕ} (h : Requeue q a n m b q')
    (t : τ) : q' t = q t ∨ (q t = some a ∧ (q' t = none ∨ q' t = some b)) := by
  obtain ⟨W, R, hW, hR, hd, -, -, rfl⟩ := h
  by_cases hw : t ∈ W
  · exact .inr ⟨mem_sleepers.mp (hW hw),
      .inl (by simp [move, release, hw, Finset.disjoint_left.mp hd hw])⟩
  · by_cases hr : t ∈ R
    · exact .inr ⟨mem_sleepers.mp (hR hr), .inr (by simp [move, hr])⟩
    · exact .inl (by simp [move, release, hw, hr])

theorem Requeue.other {q q' : Queues τ α} {a b : α} {n m : ℕ} (h : Requeue q a n m b q')
    {t : τ} (ht : q t ≠ some a) : q' t = q t := by
  rcases h.apply t with h | ⟨h, -⟩
  · exact h
  · exact absurd h ht

theorem Requeue.keep_none {q q' : Queues τ α} {a b : α} {n m : ℕ} (h : Requeue q a n m b q')
    {t : τ} (ht : q t = none) : q' t = none := by
  rcases h.apply t with h | ⟨h, -⟩
  · rw [h, ht]
  · rw [ht] at h; cases h

theorem Requeue.all {q q' : Queues τ α} {a b : α} {n m : ℕ} (h : Requeue q a n m b q')
    (hn : (sleepers q a).card ≤ n + m) {t : τ} (ht : q t = some a) :
    q' t = none ∨ q' t = some b := by
  obtain ⟨W, R, hW, hR, hd, hcW, hcR, rfl⟩ := h
  have hu : (W ∪ R).card = (sleepers q a).card := by
    rw [Finset.card_union_of_disjoint hd, hcW, hcR]
    have := Finset.card_le_card hW
    omega
  have hall : W ∪ R = sleepers q a :=
    Finset.eq_of_subset_of_card_le (Finset.union_subset hW hR) hu.ge
  have hmem : t ∈ W ∪ R := hall ▸ mem_sleepers.mpr ht
  rcases Finset.mem_union.mp hmem with hw | hr
  · exact .inl (by simp [move, release, hw, Finset.disjoint_left.mp hd hw])
  · exact .inr (by simp [move, hr])

theorem requeue_exists (q : Queues τ α) (a : α) (n m : ℕ) (b : α) :
    ∃ q', Requeue q a n m b q' := by
  obtain ⟨W, hW, hcW⟩ := Finset.exists_subset_card_eq (min_le_right n (sleepers q a).card)
  have hroom : min m ((sleepers q a).card - W.card) ≤ (sleepers q a \ W).card := by
    rw [Finset.card_sdiff_of_subset hW]
    exact min_le_right _ _
  obtain ⟨R, hR, hcR⟩ := Finset.exists_subset_card_eq hroom
  exact ⟨_, W, R, hW, hR.trans Finset.sdiff_subset,
    Finset.disjoint_of_subset_right hR Finset.disjoint_sdiff, hcW, hcR, rfl⟩

theorem Requeue.some_left {q q' : Queues τ α} {a b : α} {n m : ℕ} (h : Requeue q a n m b q')
    (hc : n + m < (sleepers q a).card) : ∃ t, q t = some a ∧ q' t = some a := by
  obtain ⟨W, R, hW, hR, hd, hcW, hcR, rfl⟩ := h
  have hlt : (W ∪ R).card < (sleepers q a).card := by
    rw [Finset.card_union_of_disjoint hd, hcW, hcR]
    have := min_le_left n (sleepers q a).card
    have := min_le_left m ((sleepers q a).card - min n (sleepers q a).card)
    omega
  obtain ⟨t, ht, htn⟩ := Finset.exists_mem_notMem_of_card_lt_card hlt
  have hw : t ∉ W := fun hw => htn (Finset.mem_union_left R hw)
  have hr : t ∉ R := fun hr => htn (Finset.mem_union_right W hr)
  exact ⟨t, mem_sleepers.mp ht, by simp [move, release, hw, hr, mem_sleepers.mp ht]⟩

theorem Requeue.some_woken {q q' : Queues τ α} {a b : α} {n m : ℕ}
    (h : Requeue q a n m b q') (hn : 0 < n) {t : τ} (ht : q t = some a) :
    ∃ u, q u = some a ∧ q' u = none := by
  obtain ⟨W, R, hW, hR, hd, hcW, -, rfl⟩ := h
  have hpos : 0 < W.card := by
    rw [hcW]
    exact lt_min hn (Finset.card_pos.mpr ⟨t, mem_sleepers.mpr ht⟩)
  obtain ⟨u, hu⟩ := Finset.card_pos.mp hpos
  exact ⟨u, mem_sleepers.mp (hW hu), by simp [move, release, hu, Finset.disjoint_left.mp hd hu]⟩

/-! ## What the wrappers return -/

/-- What the kernel can answer a futex call, as `rax` holds it: a count below `2 ^ 31`, or
`-errno` with `errno < 4096`. -/
def KernelReturn (r : ℤ) : Prop := -4096 < r ∧ r < 2 ^ 31

/-- `unsigned result`, bound to `eax`: the low 32 bits of the kernel's answer. -/
def eax (r : ℤ) : UInt32 := UInt32.ofInt r

/-- The x86-64 path: `(result > (unsigned) -4096) ? (int) result : 0`. -/
def asmReturn (result : UInt32) : ℤ := if result > 0 - 4096 then result.toInt32.toInt else 0

/-- `syscall()`: an answer from `-4095` to `-1` comes back as `-1` with `errno` set to its
negation; any other answer comes back as it is, `errno` unchanged. -/
def syscall (r errno : ℤ) : ℤ × ℤ := if -4096 < r ∧ r < 0 then (-1, -r) else (r, errno)

/-- The other path: `syscall(...) == -1 ? -errno : 0`. -/
def libcReturn (r errno : ℤ) : ℤ :=
  if (syscall r errno).1 = -1 then -(syscall r errno).2 else 0

theorem toNat_eax (r : ℤ) : ((eax r).toNat : ℤ) = r % 2 ^ 32 := by
  have h0 : 0 ≤ r % 2 ^ 32 := Int.emod_nonneg _ (by decide)
  have h1 : r % 2 ^ 32 < 2 ^ 32 := Int.emod_lt_of_pos _ (by decide)
  rw [eax, UInt32.ofInt, UInt32.toNat_ofNat', Nat.mod_eq_of_lt (by omega), Int.toNat_of_nonneg h0]

theorem asmReturn_of_error {r : ℤ} (h1 : -4096 < r) (h2 : r < 0) : asmReturn (eax r) = r := by
  have hn := toNat_eax r
  have hgt : (0 : UInt32) - 4096 < eax r := by
    rw [UInt32.lt_iff_toNat_lt]
    have : ((0 : UInt32) - 4096).toNat = 2 ^ 32 - 4096 := by decide
    omega
  rw [asmReturn, if_pos hgt, FixedWidth.toInt_toInt32, if_neg (by omega)]
  omega

theorem asmReturn_of_count {r : ℤ} (h1 : 0 ≤ r) (h2 : r < 2 ^ 31) : asmReturn (eax r) = 0 := by
  have hn := toNat_eax r
  have hle : ¬ (0 : UInt32) - 4096 < eax r := by
    rw [UInt32.lt_iff_toNat_lt]
    have : ((0 : UInt32) - 4096).toNat = 2 ^ 32 - 4096 := by decide
    omega
  rw [asmReturn, if_neg hle]

theorem libcReturn_eq (r errno : ℤ) (h1 : -4096 < r) :
    libcReturn r errno = if r < 0 then r else 0 := by
  unfold libcReturn syscall
  by_cases h : r < 0
  · simp [h1, h]
  · -- a count is never `-1`, so it is not taken for an error
    have : r ≠ -1 := by omega
    simp [h, this]

/-- For every answer the kernel can give, and whatever `errno` held before, the x86-64 and the
`syscall()` builds of `futex_wait`, `futex_wake` and `futex_requeue` return the same: `-errno`
for an error, 0 for success, whatever count the kernel reported. -/
theorem futex_return_agrees {r : ℤ} (hr : KernelReturn r) (errno : ℤ) :
    asmReturn (eax r) = libcReturn r errno ∧ libcReturn r errno = if r < 0 then r else 0 := by
  obtain ⟨h1, h2⟩ := hr
  rw [libcReturn_eq r errno h1]
  refine ⟨?_, rfl⟩
  by_cases h : r < 0
  · rw [if_pos h, asmReturn_of_error h1 h]
  · rw [if_neg h, asmReturn_of_count (by omega) h2]

/-- `EAGAIN` from a `futex_wait` whose word has changed: both builds return `-11`. -/
theorem futex_return_agrees_eagain :
    KernelReturn (-11) ∧ asmReturn (eax (-11)) = libcReturn (-11) 0 ∧
      libcReturn (-11) 0 = if (-11 : ℤ) < 0 then -11 else 0 :=
  ⟨⟨by decide, by decide⟩, futex_return_agrees ⟨by decide, by decide⟩ 0⟩

end Futex
