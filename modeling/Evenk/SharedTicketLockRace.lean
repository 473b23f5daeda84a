import Evenk.SharedTicketLock
import Mathlib.Tactic.FinCases

/-!
# `try_lock_shared` admits a reader beside a writer

Between `try_lock_shared`'s loads of `head_` and `tail_`, a writer passes through the lock
`2 ^ (w / 2) - 1` times and takes it once more; the low halves then agree, the CAS succeeds and
the reader enters beside the writer. Two threads suffice.
-/
namespace SharedTicketLockRace

open SharedTicketLock PackedCounter TransitionSystem

variable {w : ℕ}

theorem bounded_two {s : State (w + 2) (Fin 2)} (h0 : (s.pc 0).exclusiveActive = false)
    (h1 : (s.pc 1).sharedActive = false) : Bounded s := by
  have hlt : 1 < 2 ^ ((w + 2) / 2) := Nat.one_lt_two_pow (by omega)
  have hx : exclusiveThreads s ⊆ {1} := by
    intro a ha
    fin_cases a
    · simp [exclusiveThreads, h0] at ha
    · simp
  have hs : sharedThreads s ⊆ {0} := by
    intro a ha
    fin_cases a
    · simp
    · simp [sharedThreads, h1] at ha
  rw [← Finset.card_singleton (1 : Fin 2)] at hlt
  exact ⟨(Finset.card_le_card hx).trans_lt hlt, (Finset.card_le_card hs).trans_lt hlt⟩

theorem step_bounded {s s' : State (w + 2) (Fin 2)} {t : Fin 2}
    (hs : Reachable ((system (w + 2)).restrict Bounded) s) (hst : Step (w + 2) t s s')
    (h0 : (s'.pc 0).exclusiveActive = false) (h1 : (s'.pc 1).sharedActive = false) :
    Reachable ((system (w + 2)).restrict Bounded) s' :=
  hs.tail ⟨hst, bounded_two h0 h1⟩

section Writer

variable {s : State (w + 2) (Fin 2)} (hs : Reachable ((system (w + 2)).restrict Bounded) s)
  (h0 : (s.pc 0).exclusiveActive = false)
include hs h0

theorem writer_lock (h1 : s.pc 1 = .idle) (hfree : s.head = s.tail) :
    ∃ s' : State (w + 2) (Fin 2), Reachable ((system (w + 2)).restrict Bounded) s' ∧
      s'.pc 0 = s.pc 0 ∧ s'.pc 1 = .exclusive ∧ s'.head = s.head ∧ s'.tail = s.tail + 1 := by
  have r₁ := step_bounded hs (Step.lockDraw (t := 1) h1) (by simpa [State.draw] using h0)
    (by simp [State.draw, Pc.sharedActive])
  have r₂ := step_bounded r₁ (Step.lockAcquire (t := 1) rfl (by simp [State.draw, hfree]))
    (by simpa [State.setPc, State.draw] using h0) (by simp [Pc.sharedActive])
  exact ⟨_, r₂, by simp [State.setPc, State.draw], by simp, rfl, rfl⟩

theorem writer_unlock (h1 : s.pc 1 = .exclusive) :
    ∃ s' : State (w + 2) (Fin 2), Reachable ((system (w + 2)).restrict Bounded) s' ∧
      s'.pc 0 = s.pc 0 ∧ s'.pc 1 = .idle ∧ s'.head = s.head + 1 ∧ s'.tail = s.tail := by
  have r₁ := step_bounded hs (Step.unlockLoad (t := 1) h1) (by simpa [State.setPc] using h0)
    (by simp [Pc.sharedActive])
  have r₂ := step_bounded r₁ (Step.unlockStore (t := 1) rfl)
    (by simpa [State.setPc] using h0) (by simp [State.setPc, Pc.sharedActive])
  exact ⟨_, r₂, by simp [State.setPc], by simp [State.setPc], rfl, rfl⟩

end Writer

theorem ofNat_add_one (k : ℕ) : BitVec.ofNat w k + 1 = BitVec.ofNat w (k + 1) := by
  rw [← BitVec.ofNat_add_ofNat]
  rfl

theorem writer_cycles (k : ℕ) :
    ∃ s : State (w + 2) (Fin 2), Reachable ((system (w + 2)).restrict Bounded) s ∧
      s.pc 0 = .tryLockSharedTail 0 ∧ s.pc 1 = .idle ∧
      s.head = BitVec.ofNat _ k ∧ s.tail = BitVec.ofNat _ k := by
  induction k with
  | zero =>
    have r₀ : Reachable ((system (w + 2)).restrict Bounded) (State.init : State _ (Fin 2)) :=
      .init ⟨rfl, bounded_two rfl rfl⟩
    have r₁ := step_bounded r₀ (Step.tryLockSharedHead (t := 0) rfl)
      (by simp [State.setPc, Pc.exclusiveActive])
      (by simp [State.setPc, State.init, Pc.sharedActive])
    exact ⟨_, r₁, rfl, rfl, rfl, rfl⟩
  | succ k ih =>
    obtain ⟨s, hs, h0, h1, hh, ht⟩ := ih
    have hx : (s.pc 0).exclusiveActive = false := by rw [h0]; rfl
    obtain ⟨s₁, r₁, h0₁, h1₁, hh₁, ht₁⟩ := writer_lock hs hx h1 (hh.trans ht.symm)
    obtain ⟨s₂, r₂, h0₂, h1₂, hh₂, ht₂⟩ := writer_unlock r₁ (by rw [h0₁]; exact hx) h1₁
    refine ⟨s₂, r₂, by rw [h0₂, h0₁, h0], h1₂, ?_, ?_⟩
    · rw [hh₂, hh₁, hh, ofNat_add_one]
    · rw [ht₂, ht₁, ht, ofNat_add_one]

theorem low_half_wraps :
    (BitVec.ofNat (w + 2) (2 ^ ((w + 2) / 2)) &&& exclusiveMask (w + 2)) = 0 := by
  have hh : (w + 2) / 2 < w + 2 := by omega
  apply BitVec.eq_of_toNat_eq
  have hmask := pack_and_mask hh 0 1
  rw [pack, Nat.zero_add, Nat.one_mul] at hmask
  rw [exclusiveMask_eq, hmask, Nat.zero_mod]
  rfl

/-- Thread 0's `try_lock_shared` loads `head_ = 0`; thread 1 then passes through the lock
`2 ^ (w / 2) - 1` times and takes it again; thread 0 loads `tail_`, whose low half is 0 again,
and its CAS succeeds. Both now hold the lock, thread 0 shared and thread 1 exclusive. -/
theorem try_lock_shared_races_lock (w : ℕ) :
    ∃ s : State (w + 2) (Fin 2), Reachable ((system (w + 2)).restrict Bounded) s ∧
      (s.pc 0).holdsShared ∧ (s.pc 1).holdsExclusive := by
  obtain ⟨s, hs, h0, h1, hh, ht⟩ := writer_cycles (w := w) (2 ^ ((w + 2) / 2) - 1)
  have hx : (s.pc 0).exclusiveActive = false := by rw [h0]; rfl
  obtain ⟨s₁, r₁, h0₁, h1₁, -, ht₁⟩ := writer_lock hs hx h1 (hh.trans ht.symm)
  -- `tail_` now holds `2 ^ (w / 2)` exclusive tickets, and its low half is that of `head_ = 0`
  have hwrap : ((0 : BitVec (w + 2)) &&& exclusiveMask (w + 2)) =
      (s₁.tail &&& exclusiveMask (w + 2)) := by
    rw [ht₁, ht, ofNat_add_one, Nat.sub_add_cancel Nat.one_le_two_pow, low_half_wraps]
    exact BitVec.zero_and
  have hst : Step (w + 2) 0 s₁ (s₁.setPc 0 (.tryLockSharedCas s₁.tail)) := by
    have hst := Step.tryLockSharedTail (t := 0) (h0₁.trans h0)
    rwa [if_pos hwrap] at hst
  have r₂ := step_bounded r₁ hst (by simp [Pc.exclusiveActive])
    (by simp [State.setPc, h1₁, Pc.sharedActive])
  have r₃ := step_bounded r₂ (Step.tryLockSharedCasOk (t := 0) (State.setPc_pc_self _ _ _) rfl)
    (by simp [State.draw, Pc.exclusiveActive])
    (by simp [State.draw, State.setPc, h1₁, Pc.sharedActive])
  exact ⟨_, r₃, by simp [State.draw, Pc.holdsShared],
    by simp [State.draw, State.setPc, h1₁, Pc.holdsExclusive]⟩

end SharedTicketLockRace
