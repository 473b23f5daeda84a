import Evenk.FutexLockExclusion

/-!
# No lost wake-up for `futex_lock` with `futex_cond_var`

`notify_all` requeues the condition variable's sleepers onto the lock word without writing it.
While a thread sleeps on the lock word, the word is 2, or an `unlock` is on its way to its
wake, or a woken thread has yet to make its `exchange(2)` (`Chain`). The requeue reaches every
waiter that registered before its `notify_all`, unless `futex_` wraps back to the value a waiter
read.
-/
namespace FutexCondVar

open FutexLock TransitionSystem Futex

variable {τ : Type} [DecidableEq τ]

/-- `t` was taken off a futex queue and has not yet made its next `exchange(2)`: it is still
in `futex_wait`, or at `wait`'s `count_` decrement, or at the exchange. -/
def Woken (s : State τ) (t : τ) : Prop :=
  (∃ r, s.pc t = .asleep r ∧ s.queues t = none) ∨ s.woken t = true

/-- `t` is inside `unlock()` between its `fetch_sub` and its `futex_wake`. -/
def Unlocking (s : State τ) (t : τ) : Prop :=
  ∃ k, s.pc t = .unlockStore k ∨ s.pc t = .unlockWake k

def LockSleeper (s : State τ) : Prop := ∃ t, s.queues t = some .lock

/-- A thread at a place where it can be neither `Woken` nor `Unlocking`. -/
def bystander : Pc → Bool
  | .asleep _ | .unlockStore _ | .unlockWake _ | .lockXchg | .waitDec => false
  | _ => true

structure Chain (s : State τ) : Prop where
  asleep : ∀ t, s.queues t ≠ none → ∃ r, s.pc t = .asleep r
  woken : ∀ t, s.woken t = true → s.pc t = .lockXchg ∨ s.pc t = .waitDec
  chain : LockSleeper s → s.lockWord = 2 ∨ (∃ t, Unlocking s t) ∨ ∃ t, Woken s t

namespace Chain

variable {s s' : State τ} {t u : τ} {p : Pc}

omit [DecidableEq τ] in
theorem queue_none (h : Chain s) (ht : ∀ r, s.pc t ≠ .asleep r) : s.queues t = none := by
  by_contra hq
  obtain ⟨r, hr⟩ := h.asleep t hq
  exact ht r hr

omit [DecidableEq τ] in
theorem not_asleep (ht : bystander (s.pc t)) (r : Resume) : s.pc t ≠ .asleep r := by
  intro hr
  rw [hr] at ht
  cases ht

omit [DecidableEq τ] in
theorem flag_false (h : Chain s) (ht : bystander (s.pc t)) : s.woken t = false := by
  cases hf : s.woken t
  · rfl
  · rcases h.woken t hf with hp | hp <;> (rw [hp] at ht; cases ht)

omit [DecidableEq τ] in
theorem ne_of_bystander (h : Chain s) (ht : bystander (s.pc t)) (hu : Unlocking s u ∨ Woken s u) :
    u ≠ t := by
  rintro rfl
  rcases hu with ⟨k, hk | hk⟩ | ⟨r, hr, -⟩ | hw
  · rw [hk] at ht; cases ht
  · rw [hk] at ht; cases ht
  · exact not_asleep ht r hr
  · rw [h.flag_false ht] at hw; cases hw

theorem witness_transfer (hne : u ≠ t) (hpc : s'.pc = Function.update s.pc t p)
    (hqn : s.queues u = none → s'.queues u = none) (hw : s'.woken u = s.woken u)
    (hu : Unlocking s u ∨ Woken s u) : Unlocking s' u ∨ Woken s' u := by
  have hpu : s'.pc u = s.pc u := by rw [hpc, Function.update_of_ne hne]
  rcases hu with ⟨k, hk⟩ | ⟨r, hr, hn⟩ | hf
  · exact .inl ⟨k, by rw [hpu]; exact hk⟩
  · exact .inr (.inl ⟨r, by rw [hpu, hr], hqn hn⟩)
  · exact .inr (.inr (by rw [hw]; exact hf))

theorem asleep_frame (h : Chain s) (ht : s.queues t = none)
    (hpc : s'.pc = Function.update s.pc t p) (hq : ∀ v, s'.queues v ≠ none → s.queues v ≠ none) :
    ∀ v, s'.queues v ≠ none → ∃ r, s'.pc v = .asleep r := by
  intro v hv
  have hv' := hq v hv
  have hne : v ≠ t := by
    rintro rfl
    exact hv' ht
  obtain ⟨r, hr⟩ := h.asleep v hv'
  exact ⟨r, by rw [hpc, Function.update_of_ne hne, hr]⟩

theorem woken_frame (h : Chain s) (ht : s'.woken t = false)
    (hpc : s'.pc = Function.update s.pc t p) (hw : ∀ v, v ≠ t → s'.woken v = s.woken v) :
    ∀ v, s'.woken v = true → s'.pc v = .lockXchg ∨ s'.pc v = .waitDec := by
  intro v hv
  have hne : v ≠ t := by
    rintro rfl
    rw [ht] at hv
    cases hv
  rw [hpc, Function.update_of_ne hne]
  exact h.woken v (hw v hne ▸ hv)

theorem bystander_step (h : Chain s) (ht : bystander (s.pc t))
    (hpc : s'.pc = Function.update s.pc t p) (hq : s'.queues = s.queues)
    (hw : s'.woken = s.woken) (hword : s.lockWord = 2 → s'.lockWord = 2) : Chain s' where
  asleep := h.asleep_frame (h.queue_none (not_asleep ht)) hpc (fun v hv => hq ▸ hv)
  woken := h.woken_frame (by rw [hw]; exact h.flag_false ht) hpc (fun v _ => by rw [hw])
  chain hs := by
    rw [LockSleeper, hq] at hs
    rcases h.chain hs with h2 | ⟨v, hv⟩ | ⟨v, hv⟩
    · exact .inl (hword h2)
    · rcases witness_transfer (h.ne_of_bystander ht (.inl hv)) hpc (fun hn => hq ▸ hn)
        (by rw [hw]) (.inl hv) with hv' | hv'
      · exact .inr (.inl ⟨v, hv'⟩)
      · exact .inr (.inr ⟨v, hv'⟩)
    · rcases witness_transfer (h.ne_of_bystander ht (.inr hv)) hpc (fun hn => hq ▸ hn)
        (by rw [hw]) (.inr hv) with hv' | hv'
      · exact .inr (.inl ⟨v, hv'⟩)
      · exact .inr (.inr ⟨v, hv'⟩)

theorem to_unlocking (h : Chain s) (ht : ∀ r, s.pc t ≠ .asleep r) (hf : s.woken t = false)
    (hpc : s'.pc = Function.update s.pc t p) (hp : ∃ k, p = .unlockStore k ∨ p = .unlockWake k)
    (hq : s'.queues = s.queues) (hw : s'.woken = s.woken) : Chain s' where
  asleep := h.asleep_frame (h.queue_none ht) hpc (fun v hv => hq ▸ hv)
  woken := h.woken_frame (by rw [hw]; exact hf) hpc (fun v _ => by rw [hw])
  chain _ := by
    obtain ⟨k, hk⟩ := hp
    exact .inr (.inl ⟨t, k, by rw [hpc, Function.update_self]; exact hk⟩)

theorem sleep_step (h : Chain s) (ht : bystander (s.pc t)) {a : Word} {r : Resume}
    (hpc : s'.pc = Function.update s.pc t (.asleep r)) (hq : s'.queues = Futex.enqueue s.queues t a)
    (hw : s'.woken = s.woken) (hword : s'.lockWord = s.lockWord)
    (ha : a = .lock → s.lockWord = 2) : Chain s' where
  asleep v hv := by
    by_cases hvt : v = t
    · subst hvt
      exact ⟨r, by rw [hpc, Function.update_self]⟩
    · rw [hq, Futex.enqueue_ne _ _ hvt] at hv
      obtain ⟨r', hr'⟩ := h.asleep v hv
      exact ⟨r', by rw [hpc, Function.update_of_ne hvt, hr']⟩
  woken := h.woken_frame (by rw [hw]; exact h.flag_false ht) hpc (fun v _ => by rw [hw])
  chain := by
    rintro ⟨v, hv⟩
    by_cases hvt : v = t
    · subst hvt
      rw [hq, Futex.enqueue_self] at hv
      exact .inl (by rw [hword]; exact ha (Option.some.inj hv))
    · rw [hq, Futex.enqueue_ne _ _ hvt] at hv
      rcases h.chain ⟨v, hv⟩ with h2 | ⟨u, hu⟩ | ⟨u, hu⟩
      · exact .inl (by rw [hword]; exact h2)
      · have hne := h.ne_of_bystander ht (.inl hu)
        rcases witness_transfer hne hpc (fun hn => by rw [hq, Futex.enqueue_ne _ _ hne]; exact hn)
          (by rw [hw]) (.inl hu) with hu' | hu'
        · exact .inr (.inl ⟨u, hu'⟩)
        · exact .inr (.inr ⟨u, hu'⟩)
      · have hne := h.ne_of_bystander ht (.inr hu)
        rcases witness_transfer hne hpc (fun hn => by rw [hq, Futex.enqueue_ne _ _ hne]; exact hn)
          (by rw [hw]) (.inr hu) with hu' | hu'
        · exact .inr (.inl ⟨u, hu'⟩)
        · exact .inr (.inr ⟨u, hu'⟩)

theorem resume_step (h : Chain s) (ht : s.queues t = none) (hnu : ¬ Unlocking s t)
    (hpc : s'.pc = Function.update s.pc t p) (hp : p = .lockXchg ∨ p = .waitDec)
    (hq : s'.queues = s.queues) (hw : ∀ v, v ≠ t → s'.woken v = s.woken v)
    (hwt : Woken s t → s'.woken t = true) (hword : s'.lockWord = s.lockWord) : Chain s' where
  asleep := h.asleep_frame ht hpc (fun v hv => hq ▸ hv)
  woken v hv := by
    by_cases hvt : v = t
    · subst hvt
      rw [hpc, Function.update_self]
      exact hp
    · rw [hpc, Function.update_of_ne hvt]
      exact h.woken v (hw v hvt ▸ hv)
  chain hs := by
    rw [LockSleeper, hq] at hs
    rcases h.chain hs with h2 | ⟨v, hv⟩ | ⟨v, hv⟩
    · exact .inl (by rw [hword]; exact h2)
    · have hne : v ≠ t := by
        rintro rfl
        exact hnu hv
      rcases witness_transfer hne hpc (fun hn => hq ▸ hn) (hw v hne) (.inl hv) with hv' | hv'
      · exact .inr (.inl ⟨v, hv'⟩)
      · exact .inr (.inr ⟨v, hv'⟩)
    · by_cases hvt : v = t
      · subst hvt
        exact .inr (.inr ⟨v, .inr (hwt hv)⟩)
      · rcases witness_transfer hvt hpc (fun hn => hq ▸ hn) (hw v hvt) (.inr hv) with hv' | hv'
        · exact .inr (.inl ⟨v, hv'⟩)
        · exact .inr (.inr ⟨v, hv'⟩)

theorem exchange_step (h : Chain s) (hx : s.pc t = .lockXchg)
    (hpc : s'.pc = Function.update s.pc t p) (hq : s'.queues = s.queues)
    (hw : s'.woken = Function.update s.woken t false) (hword : s'.lockWord = 2) : Chain s' where
  asleep := h.asleep_frame (h.queue_none (fun r hr => by rw [hx] at hr; cases hr)) hpc
    (fun v hv => hq ▸ hv)
  woken := h.woken_frame (by rw [hw, Function.update_self]) hpc
    (fun v hv => by rw [hw, Function.update_of_ne hv])
  chain _ := .inl hword

theorem wake_step (h : Chain s) (ht : bystander (s.pc t))
    (hpc : s'.pc = Function.update s.pc t p) (hw : s'.woken = s.woken)
    (hword : s'.lockWord = s.lockWord) (hqn : ∀ v, s.queues v = none → s'.queues v = none)
    (hsl : ∀ v, s'.queues v = some .lock →
      s.queues v = some .lock ∨ ∃ u, s.queues u ≠ none ∧ s'.queues u = none) : Chain s' where
  asleep := h.asleep_frame (h.queue_none (not_asleep ht)) hpc
    (fun v hv hn => hv (hqn v hn))
  woken := h.woken_frame (by rw [hw]; exact h.flag_false ht) hpc (fun v _ => by rw [hw])
  chain := by
    rintro ⟨v, hv⟩
    rcases hsl v hv with hv' | ⟨u, hu, hu'⟩
    · rcases h.chain ⟨v, hv'⟩ with h2 | ⟨w, hw'⟩ | ⟨w, hw'⟩
      · exact .inl (by rw [hword]; exact h2)
      · rcases witness_transfer (h.ne_of_bystander ht (.inl hw')) hpc (hqn w) (by rw [hw])
          (.inl hw') with hw'' | hw''
        · exact .inr (.inl ⟨w, hw''⟩)
        · exact .inr (.inr ⟨w, hw''⟩)
      · rcases witness_transfer (h.ne_of_bystander ht (.inr hw')) hpc (hqn w) (by rw [hw])
          (.inr hw') with hw'' | hw''
        · exact .inr (.inl ⟨w, hw''⟩)
        · exact .inr (.inr ⟨w, hw''⟩)
    · obtain ⟨r, hr⟩ := h.asleep u hu
      have hne : u ≠ t := by
        rintro rfl
        exact not_asleep ht r hr
      exact .inr (.inr ⟨u, .inl ⟨r, by rw [hpc, Function.update_of_ne hne, hr], hu'⟩⟩)

theorem unlock_wake_step (h : Chain s) {k : Cont} (hu : s.pc t = .unlockWake k)
    (hpc : s'.pc = Function.update s.pc t p) (hw : s'.woken = s.woken)
    (hqn : ∀ v, s.queues v = none → s'.queues v = none)
    (hsl : LockSleeper s' → ∃ u, s.queues u ≠ none ∧ s'.queues u = none) : Chain s' where
  asleep := h.asleep_frame (h.queue_none (fun r hr => by rw [hu] at hr; cases hr)) hpc
    (fun v hv hn => hv (hqn v hn))
  woken := h.woken_frame (by
      rw [hw]
      cases hf : s.woken t
      · rfl
      · rcases h.woken t hf with hp | hp <;> (rw [hu] at hp; cases hp)) hpc
    (fun v _ => by rw [hw])
  chain hs := by
    obtain ⟨u, hq, hq'⟩ := hsl hs
    obtain ⟨r, hr⟩ := h.asleep u hq
    have hne : u ≠ t := by
      rintro rfl
      rw [hu] at hr
      cases hr
    exact .inr (.inr ⟨u, .inl ⟨r, by rw [hpc, Function.update_of_ne hne, hr], hq'⟩⟩)

end Chain

omit [DecidableEq τ] in
theorem Chain.init : Chain (State.init : State τ) where
  asleep t h := absurd rfl h
  woken t h := by cases h
  chain := by
    rintro ⟨t, ht⟩
    cases ht

section Steps

variable [Fintype τ]

theorem woken_sleeper {q q' : Futex.Queues τ Word} {a : Word} {n : ℕ} (h : Futex.Wake q a n q')
    (hn : 0 < n) {v : τ} (hv : q' v = some a) : ∃ u, q u ≠ none ∧ q' u = none := by
  obtain ⟨u, hu, hu'⟩ := h.some_woken hn (h.le hv)
  exact ⟨u, by rw [hu]; exact Option.some_ne_none _, hu'⟩

theorem chain_step {t : τ} {s s' : State τ} (h : Chain s) (hst : Step t s s') : Chain s' := by
  cases hst with
  | lockCall hpc => exact h.bystander_step (by rw [hpc]; rfl) rfl rfl rfl id
  | lockCasOk hpc hw =>
    exact h.bystander_step (by rw [hpc]; rfl) rfl rfl rfl
      (fun h2 => absurd (hw.symm.trans h2) (by decide))
  | lockCasFail backoff hpc hw => exact h.bystander_step (by rw [hpc]; rfl) rfl rfl rfl id
  | lockContendTwo hpc hv => exact h.bystander_step (by rw [hpc]; rfl) rfl rfl rfl id
  | lockContendXchg hpc hv => exact h.bystander_step (by rw [hpc]; rfl) rfl rfl rfl (fun _ => rfl)
  | lockXchg hpc => exact h.exchange_step hpc rfl rfl rfl rfl
  | lockSleep hpc hw => exact h.sleep_step (by rw [hpc]; rfl) rfl rfl rfl rfl (fun _ => hw)
  | lockPass hpc hw => exact h.bystander_step (by rw [hpc]; rfl) rfl rfl rfl id
  | wakeUp hpc hq =>
    rename_i r
    refine h.resume_step hq ?_ rfl (by cases r <;> simp [Resume.pc]) rfl
      (fun v hv => Function.update_of_ne hv _ _) (fun _ => Function.update_self _ _ _) rfl
    rintro ⟨k, hk | hk⟩ <;> (rw [hpc] at hk; cases hk)
  | tryLock hpc hw =>
    exact h.bystander_step (by rw [hpc]; rfl) rfl rfl rfl
      (fun h2 => absurd (hw.symm.trans h2) (by decide))
  | unlockCall hpc => exact h.bystander_step (by rw [hpc]; rfl) rfl rfl rfl id
  | unlockSub hpc =>
    rename_i k
    by_cases hw1 : s.lockWord = 1
    · simp only [hw1, if_true]
      exact h.bystander_step (by rw [hpc]; rfl) rfl rfl rfl
        (fun h2 => absurd (hw1.symm.trans h2) (by decide))
    · simp only [hw1, if_false]
      exact h.to_unlocking (Chain.not_asleep (by rw [hpc]; rfl))
        (h.flag_false (by rw [hpc]; rfl)) rfl ⟨k, .inl rfl⟩ rfl rfl
  | unlockStore hpc =>
    rename_i k
    refine h.to_unlocking (fun r hr => by rw [hpc] at hr; cases hr) ?_ rfl ⟨k, .inr rfl⟩ rfl rfl
    cases hf : s.woken t
    · rfl
    · rcases h.woken t hf with hp | hp <;> (rw [hpc] at hp; cases hp)
  | unlockWake hpc hwake =>
    exact h.unlock_wake_step hpc rfl rfl (fun v => hwake.keep_none)
      (fun ⟨v, hv⟩ => woken_sleeper hwake one_pos hv)
  | waitCall hpc => exact h.bystander_step (by rw [hpc]; rfl) rfl rfl rfl id
  | waitLoad hpc => exact h.bystander_step (by rw [hpc]; rfl) rfl rfl rfl id
  | waitSleep hpc hv =>
    exact h.sleep_step (by rw [hpc]; rfl) rfl rfl rfl rfl (fun ha => by cases ha)
  | waitPass hpc hv => exact h.bystander_step (by rw [hpc]; rfl) rfl rfl rfl id
  | waitDec hpc =>
    refine h.resume_step (h.queue_none (fun r hr => by rw [hpc] at hr; cases hr)) ?_ rfl
      (.inl rfl) rfl (fun _ _ => rfl) ?_ rfl
    · rintro ⟨k, hk | hk⟩ <;> (rw [hpc] at hk; cases hk)
    · rintro (⟨r, hr, -⟩ | hf)
      · rw [hpc] at hr
        cases hr
      · exact hf
  | notifyCall all hpc => exact h.bystander_step (by rw [hpc]; rfl) rfl rfl rfl id
  | notifyLoad hpc => exact h.bystander_step (by rw [hpc]; rfl) rfl rfl rfl id
  | notifyWake hpc hwake =>
    exact h.wake_step (by rw [hpc]; rfl) rfl rfl rfl (fun v => hwake.keep_none)
      (fun v hv => .inl (hwake.le hv))
  | notifyRequeue hpc hreq =>
    refine h.wake_step (by rw [hpc]; rfl) rfl rfl rfl (fun v => hreq.keep_none) ?_
    intro v hv
    rcases hreq.apply v with hq | ⟨hc, -⟩
    · exact .inl (hq ▸ hv)
    · obtain ⟨u, hu, hu'⟩ := hreq.some_woken one_pos hc
      exact .inr ⟨u, by rw [hu]; exact Option.some_ne_none _, hu'⟩

theorem chain_inductive : Inductive (system : System τ (State τ)) Chain := by
  refine ⟨fun s hs => ?_, fun t s s' h hst => chain_step h hst⟩
  subst hs
  exact Chain.init

end Steps

/-! ## The requeue reaches every earlier waiter -/

/-- Every waiter between its read of `futex_` and its `futex_wait` has seen fewer than
`2 ^ 32` increments of `futex_` since the read. -/
def FewIncrements (s : State τ) : Prop :=
  ∀ t v, (s.pc t).pendingValue = some v → s.incs < s.readAt t + 2 ^ 32

/-- A notifier between its increment of `futex_` and its requeue. -/
def notifying : Pc → Bool
  | .notifyLoad _ | .notifyRequeue => true
  | _ => false

/-- The condition variable's word and the ghost counters. -/
def counters (s : State τ) : UInt32 × ℕ × (τ → ℕ) × (τ → ℕ) × ℕ :=
  (s.condWord, s.incs, s.readAt, s.notifyAt, s.requeued)

/-- The sequence word follows the count of increments; a pending waiter holds the value it
read; and every sleeper on the condition variable read `futex_` after the increments whose
`notify_all` has done its requeue. -/
structure Seq (s : State τ) : Prop where
  cond : s.condWord.toNat = s.incs % 2 ^ 32
  requeued : s.requeued ≤ s.incs
  notifier : ∀ t, notifying (s.pc t) → s.notifyAt t < s.incs
  pending : ∀ t v, (s.pc t).pendingValue = some v →
    v.toNat = s.readAt t % 2 ^ 32 ∧ s.readAt t ≤ s.incs
  asleepCond : ∀ t, s.queues t = some .cond → s.requeued ≤ s.readAt t

namespace Seq

variable {s s' : State τ} {t : τ} {p : Pc}

theorem frame (h : Seq s) (hpc : s'.pc = Function.update s.pc t p)
    (hq : ∀ v, s'.queues v = some .cond → s.queues v = some .cond)
    (hk : counters s' = counters s)
    (hpend : p.pendingValue = none ∨ p.pendingValue = (s.pc t).pendingValue)
    (hnot : notifying p → notifying (s.pc t)) : Seq s' := by
  simp only [counters, Prod.mk.injEq] at hk
  obtain ⟨hc, hi, hr, hn, hrq⟩ := hk
  refine ⟨by rw [hc, hi]; exact h.cond, by rw [hrq, hi]; exact h.requeued,
    fun v hv => ?_, fun v w hv => ?_, fun v hv => ?_⟩
  · rw [hn, hi]
    by_cases hvt : v = t
    · subst hvt
      rw [hpc, Function.update_self] at hv
      exact h.notifier v (hnot hv)
    · rw [hpc, Function.update_of_ne hvt] at hv
      exact h.notifier v hv
  · rw [hr, hi]
    by_cases hvt : v = t
    · subst hvt
      rw [hpc, Function.update_self] at hv
      rcases hpend with hp | hp
      · rw [hp] at hv
        cases hv
      · exact h.pending v w (hp ▸ hv)
    · rw [hpc, Function.update_of_ne hvt] at hv
      exact h.pending v w hv
  · rw [hrq, hr]
    exact h.asleepCond v (hq v hv)

theorem read (h : Seq s) (hq : s.queues t = none) :
    Seq { s.setPc t (.unlockSub (.condWait s.condWord)) with
      readAt := Function.update s.readAt t s.incs } := by
  refine ⟨h.cond, h.requeued, fun v hv => ?_, fun v w hv => ?_, fun v hv => ?_⟩
  · by_cases hvt : v = t
    · subst hvt
      simp [notifying] at hv
    · exact h.notifier v (by simpa [State.setPc_pc_ne _ _ _ hvt] using hv)
  · by_cases hvt : v = t
    · subst hvt
      simp only [State.setPc_pc_self, Pc.pendingValue, Option.some.injEq] at hv
      subst hv
      simp only [Function.update_self]
      exact ⟨h.cond, le_rfl⟩
    · simp only [State.setPc_pc_ne _ _ _ hvt] at hv
      simpa [Function.update_of_ne hvt] using h.pending v w hv
  · change s.queues v = some .cond at hv
    have hvt : v ≠ t := by
      rintro rfl
      rw [hq] at hv
      cases hv
    simpa [Function.update_of_ne hvt] using h.asleepCond v hv

theorem sleep (h : Seq s) (hf : FewIncrements s) {v : UInt32} (hpc : s.pc t = .waitSleep v)
    (hv : s.condWord = v) :
    Seq { s.setPc t (.asleep .condWoken) with queues := Futex.enqueue s.queues t .cond } := by
  refine ⟨h.cond, h.requeued, fun u hu => ?_, fun u w hu => ?_, fun u hu => ?_⟩
  · by_cases hut : u = t
    · subst hut
      simp [notifying] at hu
    · exact h.notifier u (by simpa [State.setPc_pc_ne _ _ _ hut] using hu)
  · by_cases hut : u = t
    · subst hut
      simp [Pc.pendingValue] at hu
    · exact h.pending u w (by simpa [State.setPc_pc_ne _ _ _ hut] using hu)
  · change Futex.enqueue s.queues t .cond u = some .cond at hu
    by_cases hut : u = t
    · subst hut
      have hpend : (s.pc u).pendingValue = some v := by rw [hpc]; rfl
      obtain ⟨hval, hle⟩ := h.pending u v hpend
      have hlt := hf u v hpend
      have hcond := h.cond
      rw [hv] at hcond
      have hsame : s.incs = s.readAt u := by omega
      exact hsame ▸ h.requeued
    · rw [Futex.enqueue_ne _ _ hut] at hu
      exact h.asleepCond u hu

theorem increment (h : Seq s) (all : Bool) :
    Seq { s.setPc t (.notifyLoad all) with
      condWord := s.condWord + 1, incs := s.incs + 1,
      notifyAt := Function.update s.notifyAt t s.incs } := by
  refine ⟨?_, Nat.le_succ_of_le h.requeued, fun v hv => ?_, fun v w hv => ?_, h.asleepCond⟩
  · show (s.condWord + 1).toNat = (s.incs + 1) % 2 ^ 32
    rw [UInt32.toNat_add, h.cond]
    simp only [UInt32.toNat_one]
    omega
  · by_cases hvt : v = t
    · subst hvt
      simp
    · have := h.notifier v (by simpa [State.setPc_pc_ne _ _ _ hvt] using hv)
      simp only [Function.update_of_ne hvt]
      omega
  · by_cases hvt : v = t
    · subst hvt
      simp [Pc.pendingValue] at hv
    · obtain ⟨hval, hle⟩ := h.pending v w (by simpa [State.setPc_pc_ne _ _ _ hvt] using hv)
      exact ⟨hval, Nat.le_succ_of_le hle⟩

end Seq

omit [DecidableEq τ] in
theorem Seq.init : Seq (State.init : State τ) where
  cond := rfl
  requeued := le_rfl
  notifier t ht := by cases ht
  pending t v hv := by cases hv
  asleepCond t ht := by cases ht

omit [DecidableEq τ] in
theorem fewIncrements_of_small {s : State τ} (h : s.incs < 2 ^ 32) : FewIncrements s :=
  fun _ _ _ => lt_of_lt_of_le h (Nat.le_add_left _ _)

theorem pendingValue_afterUnlock (k : Cont) :
    (afterUnlock k).pendingValue = (Pc.unlockSub k).pendingValue := by
  cases k <;> rfl

section Steps

variable [Fintype τ]

/-- With at most `2 ^ 31 + 1` threads, `notify_all`'s requeue takes every sleeper off the
condition variable: the notifier is not one of them, and the others fit in the one wake and
the `INT_MAX` moves. -/
theorem requeue_empties {s : State τ} {t : τ} {q' : Queues τ Word} (hc : Chain s)
    (hcard : Fintype.card τ ≤ 2 ^ 31 + 1) (hpc : s.pc t = .notifyRequeue)
    (hreq : Requeue s.queues .cond 1 intMax .lock q') (v : τ) : q' v ≠ some .cond := by
  intro hv
  have ht : s.queues t = none := hc.queue_none (fun r hr => by rw [hpc] at hr; cases hr)
  have hroom : (sleepers s.queues .cond).card ≤ 1 + intMax := by
    have := card_sleepers_lt ht .cond
    simp only [intMax]
    omega
  have hsrc : s.queues v = some .cond := by
    rcases hreq.apply v with h | ⟨h, -⟩
    · rw [← h]
      exact hv
    · exact h
  rcases hreq.all hroom hsrc with h | h <;> rw [h] at hv <;> cases hv

theorem Seq.requeue {s : State τ} {t : τ} {q' : Queues τ Word} (h : Seq s) (hc : Chain s)
    (hcard : Fintype.card τ ≤ 2 ^ 31 + 1) (hpc : s.pc t = .notifyRequeue)
    (hreq : Requeue s.queues .cond 1 intMax .lock q') :
    Seq { s.setPc t .held with queues := q', requeued := max s.requeued (s.notifyAt t + 1) } := by
  have hn : s.notifyAt t < s.incs := h.notifier t (by rw [hpc]; rfl)
  refine ⟨h.cond, max_le h.requeued hn, fun v hv => ?_, fun v w hv => ?_,
    fun v hv => absurd hv (requeue_empties hc hcard hpc hreq v)⟩
  · by_cases hvt : v = t
    · subst hvt
      simp [notifying] at hv
    · exact h.notifier v (by simpa [State.setPc_pc_ne _ _ _ hvt] using hv)
  · by_cases hvt : v = t
    · subst hvt
      simp [Pc.pendingValue] at hv
    · exact h.pending v w (by simpa [State.setPc_pc_ne _ _ _ hvt] using hv)

theorem seq_step (hcard : Fintype.card τ ≤ 2 ^ 31 + 1) {t : τ} {s s' : State τ} (hc : Chain s)
    (hf : FewIncrements s) (h : Seq s) (hst : Step t s s') : Seq s' := by
  cases hst with
  | lockCall hpc => exact h.frame rfl (fun _ => id) rfl (.inl rfl) nofun
  | lockCasOk hpc hw => exact h.frame rfl (fun _ => id) rfl (.inl rfl) nofun
  | lockCasFail backoff hpc hw =>
    exact h.frame rfl (fun _ => id) rfl (.inl (by split <;> rfl)) (by split <;> simp [notifying])
  | lockContendTwo hpc hv => exact h.frame rfl (fun _ => id) rfl (.inl rfl) nofun
  | lockContendXchg hpc hv =>
    exact h.frame rfl (fun _ => id) rfl (.inl (by split <;> rfl)) (by split <;> simp [notifying])
  | lockXchg hpc =>
    exact h.frame rfl (fun _ => id) rfl (.inl (by split <;> rfl)) (by split <;> simp [notifying])
  | lockSleep hpc hw =>
    exact h.frame rfl (fun _ => enqueue_eq_some (by decide)) rfl (.inl rfl) nofun
  | lockPass hpc hw => exact h.frame rfl (fun _ => id) rfl (.inl rfl) nofun
  | wakeUp hpc hq =>
    rename_i r
    exact h.frame rfl (fun _ => id) rfl (.inl (by cases r <;> rfl))
      (by cases r <;> simp [notifying, Resume.pc])
  | tryLock hpc hw => exact h.frame rfl (fun _ => id) rfl (.inl rfl) nofun
  | unlockCall hpc => exact h.frame rfl (fun _ => id) rfl (.inl rfl) nofun
  | unlockSub hpc =>
    rename_i k
    refine h.frame rfl (fun _ => id) rfl (.inr ?_)
      (by split <;> cases k <;> simp [notifying, afterUnlock])
    rw [hpc]
    split
    · exact pendingValue_afterUnlock k
    · cases k <;> rfl
  | unlockStore hpc =>
    rename_i k
    exact h.frame rfl (fun _ => id) rfl (.inr (by rw [hpc]; cases k <;> rfl)) nofun
  | unlockWake hpc hwake =>
    rename_i k _
    exact h.frame rfl (fun _ => hwake.le) rfl (.inr (by rw [hpc]; cases k <;> rfl))
      (by cases k <;> simp [notifying, afterUnlock])
  | waitCall hpc => exact h.frame rfl (fun _ => id) rfl (.inl rfl) nofun
  | waitLoad hpc => exact h.read (hc.queue_none (fun r hr => by rw [hpc] at hr; cases hr))
  | waitSleep hpc hv => exact h.sleep hf hpc hv
  | waitPass hpc hv => exact h.frame rfl (fun _ => id) rfl (.inl rfl) nofun
  | waitDec hpc => exact h.frame rfl (fun _ => id) rfl (.inl rfl) nofun
  | notifyCall all hpc => exact h.increment all
  | notifyLoad hpc =>
    exact h.frame rfl (fun _ => id) rfl (.inl (by split_ifs <;> rfl)) (fun _ => by rw [hpc]; rfl)
  | notifyWake hpc hwake => exact h.frame rfl (fun _ => hwake.le) rfl (.inl rfl) nofun
  | notifyRequeue hpc hreq => exact h.requeue hc hcard hpc hreq

theorem seq_reachable (hcard : Fintype.card τ ≤ 2 ^ 31 + 1) {s : State τ}
    (h : Reachable (system.restrict FewIncrements) s) : Seq s := by
  refine reachable_of_step (S := system.restrict FewIncrements)
    (J := fun s => Chain s ∧ FewIncrements s) (fun s hs => ?_)
    (fun s hs => ?_) (fun t s s' _ hj hi hst => seq_step hcard hj.1 hj.2 hi hst.1) h
  · obtain ⟨hr, hf⟩ := hs.restrict
    exact ⟨chain_inductive.reachable hr, hf⟩
  · rw [hs.1]
    exact Seq.init

/-- In every reachable state a sleeper on the lock word is followed by a hand-off. With at most
`2 ^ 31 + 1` threads, and in runs where no waiter sleeps `2 ^ 32` increments of `futex_` after
its read, every sleeper on the condition variable read `futex_` after the increment of every
`notify_all` whose requeue is done. -/
theorem futex_cond_var_no_lost_wakeup :
    (∀ s : State τ, Reachable system s →
      LockSleeper s → s.lockWord = 2 ∨ (∃ t, Unlocking s t) ∨ ∃ t, Woken s t) ∧
    (Fintype.card τ ≤ 2 ^ 31 + 1 → ∀ s : State τ, Reachable (system.restrict FewIncrements) s →
      ∀ t, s.queues t = some .cond → s.requeued ≤ s.readAt t) :=
  ⟨fun _ h => (chain_inductive.reachable h).chain,
    fun hcard _ h => (seq_reachable hcard h).asleepCond⟩

theorem reachable_few_tail {s s' : State τ} (h : Reachable (system.restrict FewIncrements) s)
    {t : τ} (hst : system.step t s s') (hs : s'.incs < 2 ^ 32) :
    Reachable (system.restrict FewIncrements) s' :=
  h.tail ⟨hst, fewIncrements_of_small hs⟩

/-- Thread 0 waits on the condition variable, thread 1 takes the lock, and thread 2 finds it
taken, marks it contended and sleeps on the lock word. -/
theorem futex_cond_var_no_lost_wakeup_sleepers :
    ∃ s : State (Fin 3), Reachable (system.restrict FewIncrements) s ∧
      (LockSleeper s ∧ (s.lockWord = 2 ∨ (∃ t, Unlocking s t) ∨ ∃ t, Woken s t)) ∧
      Fintype.card (Fin 3) ≤ 2 ^ 31 + 1 ∧ s.queues 0 = some .cond ∧ s.requeued ≤ s.readAt 0 := by
  have h₀ : Reachable (system.restrict FewIncrements) (State.init : State (Fin 3)) :=
    .init ⟨rfl, fewIncrements_of_small (by decide)⟩
  have h₁ := reachable_few_tail h₀ (Step.lockCall (t := 0) rfl) (by decide)
  have h₂ := reachable_few_tail h₁ (Step.lockCasOk (t := 0) rfl rfl) (by decide)
  have h₃ := reachable_few_tail h₂ (Step.waitCall (t := 0) rfl) (by decide)
  have h₄ := reachable_few_tail h₃ (Step.waitLoad (t := 0) rfl) (by decide)
  have h₅ := reachable_few_tail h₄ (Step.unlockSub (t := 0) rfl) (by decide)
  have h₆ := reachable_few_tail h₅ (Step.waitSleep (t := 0) (v := 0) rfl rfl) (by decide)
  have h₇ := reachable_few_tail h₆ (Step.lockCall (t := 1) rfl) (by decide)
  have h₈ := reachable_few_tail h₇ (Step.lockCasOk (t := 1) rfl rfl) (by decide)
  have h₉ := reachable_few_tail h₈ (Step.lockCall (t := 2) rfl) (by decide)
  have h₁₀ := reachable_few_tail h₉ (Step.lockCasFail (t := 2) true rfl (by decide)) (by decide)
  have h₁₁ := reachable_few_tail h₁₀ (Step.lockContendXchg (t := 2) (v := 1) rfl (by decide))
    (by decide)
  have h₁₂ := reachable_few_tail h₁₁ (Step.lockSleep (t := 2) rfl rfl) (by decide)
  have hcard : Fintype.card (Fin 3) ≤ 2 ^ 31 + 1 := by simp
  refine ⟨_, h₁₂, ⟨?sleeper, futex_cond_var_no_lost_wakeup.1 _ h₁₂.restrict.1 ?sleeper⟩, hcard,
    ?cond, futex_cond_var_no_lost_wakeup.2 hcard _ h₁₂ 0 ?cond⟩
  case sleeper => exact ⟨2, rfl⟩
  case cond => rfl

/-! ## `futex_` wraps around -/

/-- What a run of `notify_one` calls leaves in place, and how far it moves `futex_`. -/
structure Notified (s s' : State τ) (k : ℕ) : Prop where
  pc : s'.pc = s.pc
  queues : s'.queues = s.queues
  count : s'.count = s.count
  readAt : s'.readAt = s.readAt
  requeued : s'.requeued = s.requeued
  condWord : s'.condWord.toNat = (s.condWord.toNat + k) % 2 ^ 32

omit [DecidableEq τ] [Fintype τ] in
theorem Notified.refl (s : State τ) : Notified s s 0 :=
  ⟨rfl, rfl, rfl, rfl, rfl, by rw [Nat.add_zero, Nat.mod_eq_of_lt (UInt32.toNat_lt _)]⟩

omit [DecidableEq τ] [Fintype τ] in
theorem Notified.trans {s₁ s₂ s₃ : State τ} {j k : ℕ} (h₁ : Notified s₁ s₂ j)
    (h₂ : Notified s₂ s₃ k) : Notified s₁ s₃ (j + k) where
  pc := h₂.pc.trans h₁.pc
  queues := h₂.queues.trans h₁.queues
  count := h₂.count.trans h₁.count
  readAt := h₂.readAt.trans h₁.readAt
  requeued := h₂.requeued.trans h₁.requeued
  condWord := by
    rw [h₂.condWord, h₁.condWord]
    omega

theorem notify_one_round {n : τ} {s : State τ} (hr : Reachable system s)
    (hpc : s.pc n = .held) (hc : s.count ≠ 0) (hq : ∀ u, s.queues u ≠ some .cond) :
    ∃ s', Reachable system s' ∧ Notified s s' 1 := by
  let s₁ : State τ := { s.setPc n (.notifyLoad false) with
    condWord := s.condWord + 1, incs := s.incs + 1,
    notifyAt := Function.update s.notifyAt n s.incs }
  have h₁ : Reachable system s₁ := hr.tail (Step.notifyCall false hpc)
  have hload : (if s₁.count = 0 then Pc.held
      else if false then (if s₁.owner then .notifyRequeue else .held) else .notifyWake) =
      .notifyWake := by
    simp [s₁, hc]
  have h₂ : Reachable system (s₁.setPc n .notifyWake) :=
    hload ▸ h₁.tail (Step.notifyLoad (by simp [s₁]))
  have h₃ := h₂.tail (Step.notifyWake (t := n) (by simp) (wake_self hq 1))
  refine ⟨_, h₃, ?_, rfl, rfl, rfl, rfl, ?_⟩
  · funext v
    by_cases hv : v = n
    · subst hv
      simp [State.setPc, s₁, hpc]
    · simp [State.setPc, s₁, hv]
  · show (s.condWord + 1).toNat = (s.condWord.toNat + 1) % 2 ^ 32
    rw [UInt32.toNat_add, UInt32.toNat_one]

theorem notify_one_rounds (k : ℕ) {n : τ} {s : State τ} (hr : Reachable system s)
    (hpc : s.pc n = .held) (hc : s.count ≠ 0) (hq : ∀ u, s.queues u ≠ some .cond) :
    ∃ s', Reachable system s' ∧ Notified s s' k := by
  induction k with
  | zero => exact ⟨s, hr, Notified.refl s⟩
  | succ k ih =>
    obtain ⟨s', hr', hk⟩ := ih
    obtain ⟨s'', hr'', h₁⟩ := notify_one_round (n := n) hr' (by rw [hk.pc]; exact hpc)
      (by rw [hk.count]; exact hc) (by rw [hk.queues]; exact hq)
    exact ⟨s'', hr'', hk.trans h₁⟩

/-- Thread 0 reads `futex_ = 0` in `wait` and unlocks; thread 1 calls `notify_all`, whose
requeue finds nobody asleep yet, and then `notify_one` `2 ^ 32 - 1` times, which brings
`futex_` back to 0; thread 0's `futex_wait` then sleeps on the condition variable, after the
requeue of a `notify_all` that incremented `futex_` after thread 0 read it. -/
theorem futex_cond_var_requeue_missed :
    ∃ s : State (Fin 2), Reachable system s ∧
      ∃ t, s.queues t = some .cond ∧ s.readAt t < s.requeued := by
  have h₁ := (Reachable.init (S := system) (rfl : (State.init : State (Fin 2)) = _)).tail
    (Step.lockCall (t := 0) rfl)
  have h₂ := h₁.tail (Step.lockCasOk (t := 0) rfl rfl)
  have h₃ := h₂.tail (Step.waitCall (t := 0) rfl)
  have h₄ := h₃.tail (Step.waitLoad (t := 0) rfl)
  have h₅ := h₄.tail (Step.unlockSub (t := 0) rfl)
  have h₆ := h₅.tail (Step.lockCall (t := 1) rfl)
  have h₇ := h₆.tail (Step.lockCasOk (t := 1) rfl rfl)
  have h₈ := h₇.tail (Step.notifyCall (t := 1) true rfl)
  have h₉ := h₈.tail (Step.notifyLoad (t := 1) rfl)
  have h₁₀ := h₉.tail (Step.notifyRequeue (t := 1) rfl
    (requeue_self (q := Queues.empty) (a := Word.cond) (fun u hu => nomatch hu) 1 intMax .lock))
  obtain ⟨c, hc, hn⟩ := notify_one_rounds (2 ^ 32 - 1) (n := 1) h₁₀ rfl (by decide)
    (fun u hu => nomatch hu)
  have hw : c.condWord = 0 := UInt32.toNat_inj.mp (by rw [hn.condWord]; rfl)
  have h₁₁ := hc.tail (Step.waitSleep (t := 0) (v := 0) (by rw [hn.pc]; rfl) hw)
  refine ⟨_, h₁₁, 0, enqueue_self c.queues 0 .cond, ?_⟩
  show c.readAt 0 < c.requeued
  rw [hn.readAt, hn.requeued]
  decide

/-! ## More sleepers than the requeue moves -/

/-- The threads of `A` sleep in `wait` on the condition variable and the others are idle; the
lock is free, and `futex_` has never been incremented. -/
structure Gathered (A : Finset τ) (s : State τ) : Prop where
  asleep : ∀ v ∈ A, s.queues v = some .cond
  idle : ∀ v ∉ A, s.pc v = .idle ∧ s.queues v = none
  lockWord : s.lockWord = 0
  count : s.count.toNat = A.card % 2 ^ 32
  owner : A.Nonempty → s.owner = true
  condWord : s.condWord = 0
  incs : s.incs = 0
  readAt : ∀ v, s.readAt v = 0

omit [DecidableEq τ] [Fintype τ] in
theorem Gathered.init : Gathered ∅ (State.init : State τ) where
  asleep v hv := absurd hv (Finset.notMem_empty v)
  idle _ _ := ⟨rfl, rfl⟩
  lockWord := rfl
  count := by simp [State.init]
  owner h := absurd h Finset.not_nonempty_empty
  condWord := rfl
  incs := rfl
  readAt _ := rfl

theorem Gathered.add {A : Finset τ} {u : τ} {s : State τ} (hr : Reachable system s)
    (hg : Gathered A s) (hu : u ∉ A) : ∃ s', Reachable system s' ∧ Gathered (insert u A) s' := by
  obtain ⟨hidle, hnone⟩ := hg.idle u hu
  have h₁ := hr.tail (Step.lockCall (t := u) hidle)
  have h₂ := h₁.tail (Step.lockCasOk (t := u) (by simp) hg.lockWord)
  have h₃ := h₂.tail (Step.waitCall (t := u) (by simp))
  have h₄ := h₃.tail (Step.waitLoad (t := u) (by simp))
  have h₅ := h₄.tail (Step.unlockSub (t := u) (k := .condWait s.condWord) (by simp))
  -- the word was 1, so `unlock` goes straight on to the `futex_wait`
  have h₆ := h₅.tail (Step.waitSleep (t := u) (v := s.condWord) (by simp [afterUnlock]) rfl)
  refine ⟨_, h₆, ⟨fun v hv => ?_, fun v hv => ?_, by simp, ?_, fun _ => rfl,
    by simpa using hg.condWord, by simpa using hg.incs, fun v => ?_⟩⟩
  · rcases Finset.mem_insert.mp hv with rfl | hv
    · exact enqueue_self _ _ _
    · have hvu : v ≠ u := fun h => hu (h ▸ hv)
      rw [← hg.asleep v hv]
      exact enqueue_ne _ _ hvu
  · have hvu : v ≠ u := fun h => hv (h ▸ Finset.mem_insert_self u A)
    obtain ⟨hpv, hqv⟩ := hg.idle v (fun h => hv (Finset.mem_insert_of_mem h))
    refine ⟨by simpa [State.setPc_pc_ne _ _ _ hvu] using hpv, ?_⟩
    rw [← hqv]
    exact enqueue_ne _ _ hvu
  · show (s.count + 1).toNat = (insert u A).card % 2 ^ 32
    rw [UInt32.toNat_add, hg.count, Finset.card_insert_of_notMem hu, UInt32.toNat_one]
    omega
  · show Function.update s.readAt u s.incs v = 0
    by_cases hvu : v = u
    · subst hvu
      rw [Function.update_self, hg.incs]
    · rw [Function.update_of_ne hvu, hg.readAt]

theorem gathered_reachable (A : Finset τ) : ∃ s, Reachable system s ∧ Gathered A s := by
  induction A using Finset.induction_on with
  | empty => exact ⟨State.init, .init rfl, Gathered.init⟩
  | insert u A hu ih =>
    obtain ⟨s, hr, hg⟩ := ih
    exact hg.add hr hu

/-- With `2 ^ 31 + 1` threads asleep in `wait`, one more thread's `notify_all` wakes one and
moves `INT_MAX` of them, and leaves one asleep on the condition variable. A fact of the model
only: Linux caps thread ids at `PID_MAX_LIMIT = 2 ^ 22`. -/
theorem intMax_misses_requeue :
    ∃ s : State (Fin (2 ^ 31 + 2)), Reachable system s ∧
      ∃ t, s.queues t = some .cond ∧ s.readAt t < s.requeued := by
  let N : Fin (2 ^ 31 + 2) := Fin.last _
  obtain ⟨s, hr, hg⟩ := gathered_reachable (Finset.univ.erase N)
  obtain ⟨hidle, hnone⟩ := hg.idle N (Finset.notMem_erase N _)
  have hcard : (Finset.univ.erase N).card = 2 ^ 31 + 1 := by
    simp [Finset.card_erase_of_mem]
  have hcount : s.count ≠ 0 := by
    intro h
    have := hg.count
    rw [h, hcard] at this
    simp at this
  have howner : s.owner = true := hg.owner ⟨0, by simp [N, Fin.ext_iff]⟩
  have h₁ := hr.tail (Step.lockCall (t := N) hidle)
  have h₂ := h₁.tail (Step.lockCasOk (t := N) (by simp) hg.lockWord)
  have h₃ := h₂.tail (Step.notifyCall (t := N) true (by simp))
  have h₄ := h₃.tail (Step.notifyLoad (t := N) (by simp : State.pc _ N = .notifyLoad true))
  obtain ⟨q', hq'⟩ := requeue_exists s.queues .cond 1 intMax .lock
  have h₅ := h₄.tail (Step.notifyRequeue (t := N) (by simp [hcount, howner]) hq')
  have hsl : sleepers s.queues .cond = Finset.univ.erase N := by
    ext v
    by_cases hv : v = N
    · subst hv
      simp [hnone]
    · simp [hv, hg.asleep v (by simp [hv])]
  obtain ⟨v, -, hv⟩ := hq'.some_left (by rw [hsl, hcard]; simp [intMax])
  refine ⟨_, h₅, v, hv, ?_⟩
  show s.readAt v < max s.requeued (Function.update s.notifyAt N s.incs N + 1)
  rw [hg.readAt]
  exact lt_max_of_lt_right (Nat.succ_pos _)

end Steps

end FutexCondVar
