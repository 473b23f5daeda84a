import Evenk.TicketLock

/-!
# `try_lock` admits a second holder

Between `try_lock`'s loads of `head_` and `tail_`, another thread passes through the lock
`2 ^ 16 - 1` times and takes it once more; `tail_` has wrapped to the stale `head_`, the CAS
succeeds and the caller enters beside the holder.
-/
namespace TicketLockRace

open TicketLock TransitionSystem

section Writer

variable {s : State (Fin 2)} (hs : Reachable system s)
include hs

theorem writer_lock (h1 : s.pc 1 = .idle) (hfree : s.head = s.tail) :
    ∃ s' : State (Fin 2), Reachable system s' ∧
      s'.pc 0 = s.pc 0 ∧ s'.pc 1 = .locked ∧ s'.head = s.head ∧ s'.tail = s.tail + 1 := by
  have r₁ := hs.tail (Step.lockDraw (t := 1) h1)
  have hwait : (s.draw 1 (s.tail + 1) (.lockWait s.tail)).pc 1 = .lockWait s.tail := by
    simp [State.draw]
  have r₂ := r₁.tail (Step.lockAcquire hwait (by simp [State.draw, hfree]))
  exact ⟨_, r₂, by simp [State.setPc, State.draw], by simp, rfl, rfl⟩

theorem writer_unlock (h1 : s.pc 1 = .locked) :
    ∃ s' : State (Fin 2), Reachable system s' ∧
      s'.pc 0 = s.pc 0 ∧ s'.pc 1 = .idle ∧ s'.head = s.head + 1 ∧ s'.tail = s.tail := by
  have r₁ := hs.tail (Step.unlockLoad (t := 1) h1)
  have r₂ := r₁.tail (Step.unlockStore (t := 1) (State.setPc_pc_self _ _ _))
  exact ⟨_, r₂, by simp [State.setPc], by simp [State.setPc], rfl, rfl⟩

end Writer

theorem ofNat_add_one (k : ℕ) : UInt16.ofNat k + 1 = UInt16.ofNat (k + 1) := by
  rw [UInt16.ofNat_add]
  rfl

theorem writer_cycles (k : ℕ) :
    ∃ s : State (Fin 2), Reachable system s ∧ s.pc 0 = .tryLockTail 0 ∧ s.pc 1 = .idle ∧
      s.head = UInt16.ofNat k ∧ s.tail = UInt16.ofNat k := by
  induction k with
  | zero =>
    have r₀ : Reachable system (State.init : State (Fin 2)) := .init rfl
    have r₁ := r₀.tail (Step.tryLockHead (t := 0) rfl)
    exact ⟨_, r₁, rfl, rfl, rfl, rfl⟩
  | succ k ih =>
    obtain ⟨s, hs, h0, h1, hh, ht⟩ := ih
    obtain ⟨s₁, r₁, h0₁, h1₁, hh₁, ht₁⟩ := writer_lock hs h1 (hh.trans ht.symm)
    obtain ⟨s₂, r₂, h0₂, h1₂, hh₂, ht₂⟩ := writer_unlock r₁ h1₁
    refine ⟨s₂, r₂, by rw [h0₂, h0₁, h0], h1₂, ?_, ?_⟩
    · rw [hh₂, hh₁, hh, ofNat_add_one]
    · rw [ht₂, ht₁, ht, ofNat_add_one]

/-- Thread 0's `try_lock` loads `head_ = 0`; thread 1 then passes through the lock
`2 ^ 16 - 1` times and takes it again, which wraps `tail_` to 0; thread 0 loads `tail_ = 0`,
finds it equal to the `head_` it loaded, and its CAS succeeds. Both threads now hold the
lock. -/
theorem try_lock_races_lock :
    ∃ s : State (Fin 2), Reachable system s ∧ (s.pc 0).holds ∧ (s.pc 1).holds := by
  obtain ⟨s, hs, h0, h1, hh, ht⟩ := writer_cycles (2 ^ 16 - 1)
  obtain ⟨s₁, r₁, h0₁, h1₁, -, ht₁⟩ := writer_lock hs h1 (hh.trans ht.symm)
  -- thread 1 drew ticket `2 ^ 16 - 1`, so `tail_` has wrapped to the `head_` thread 0 loaded
  have hwrap : (0 : UInt16) = s₁.tail := by
    rw [ht₁, ht, ofNat_add_one]
    decide
  have hst : Step 0 s₁ (s₁.setPc 0 (.tryLockCas s₁.tail)) := by
    have hst := Step.tryLockTail (t := 0) (h0₁.trans h0)
    rwa [if_pos hwrap] at hst
  have r₂ := r₁.tail hst
  have r₃ := r₂.tail (Step.tryLockCasOk (t := 0) (State.setPc_pc_self _ _ _) rfl)
  exact ⟨_, r₃, by simp [State.draw, Pc.holds],
    by simp [State.draw, State.setPc, h1₁, Pc.holds]⟩

end TicketLockRace
