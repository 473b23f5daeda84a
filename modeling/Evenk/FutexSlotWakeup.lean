import Evenk.FutexSlot

/-!
# No lost wake-up on a futex slot

Every sleeper's value is still in the word, or a thread that replaced it has seen
`status_waiting` and is on its way to `futex_wake(INT32_MAX)` (`Covered`). That wake takes every
sleeper off the queue while there are at most `2 ^ 31` threads; the model admits one more, which
no Linux process can have.
-/
namespace FutexSlotWakeup

open FutexSlot BoundedQueue Futex TransitionSystem

/-- The word has `status_waiting` set. -/
def HasWaiting (x : TokenT) : Prop := x ||| statusWaiting = x

instance (x : TokenT) : Decidable (HasWaiting x) := inferInstanceAs (Decidable (_ = _))

theorem hasWaiting_or (v : TokenT) : HasWaiting (v ||| statusWaiting) :=
  FixedWidth.or_or_self v statusWaiting

theorem HasWaiting.test {x : TokenT} (h : HasWaiting x) : x &&& statusWaiting ≠ 0 := by
  have hread := FixedWidth.or_and_self x statusWaiting
  rw [h] at hread
  rw [hread]
  decide

theorem HasWaiting.afterReplace {x : TokenT} (h : HasWaiting x) : afterReplace x = .wakeAll x :=
  if_pos h.test

variable {τ : Type} [DecidableEq τ] [Fintype τ]

/-- The value `x` a thread sleeps on is still in the word, or a thread that replaced it has
seen `status_waiting` and is about to call `futex_wake`. -/
def Covered (s : State τ) (x : TokenT) : Prop := s.word = x ∨ ∃ u, s.pc u = .wakeAll x

structure Inv (s : State τ) : Prop where
  sleepers : ∀ t, s.queues t = some () →
    ∃ x, s.pc t = .asleep x ∧ HasWaiting x ∧ Covered s x
  waitSleep : ∀ t x, s.pc t = .waitSleep x → HasWaiting x

namespace Inv

variable {s : State τ} {t : τ}

theorem init {s : State τ} (hs : system.init s) : Inv s where
  sleepers t ht := by
    rw [hs.2] at ht
    cases ht
  waitSleep t x hx := by
    rw [hs.1 t] at hx
    cases hx

omit [DecidableEq τ] [Fintype τ] in
theorem queue_none (h : Inv s) (hpc : ∀ x, s.pc t ≠ .asleep x) : s.queues t = none := by
  cases hq : s.queues t with
  | none => rfl
  | some _ =>
    obtain ⟨x, hx, -⟩ := h.sleepers t hq
    exact absurd hx (hpc x)

omit [DecidableEq τ] [Fintype τ] in
theorem covered_of {s' : State τ} {x : TokenT} (hc : Covered s x) (hword : s'.word = s.word)
    (hpc : ∀ u, s.pc u = .wakeAll x → s'.pc u = .wakeAll x) : Covered s' x := by
  rcases hc with hw | ⟨u, hu⟩
  · exact .inl (hword.trans hw)
  · exact .inr ⟨u, hpc u hu⟩

omit [Fintype τ] in
theorem setPc (h : Inv s) {p : Pc} (hasleep : ∀ x, s.pc t ≠ .asleep x ∨ s.queues t = none)
    (hwake : ∀ x, s.pc t ≠ .wakeAll x) (hp : ∀ x, p = .waitSleep x → HasWaiting x) :
    Inv (s.setPc t p) where
  sleepers u hu := by
    have hq : s.queues u = some () := hu
    have hut : u ≠ t := by
      rintro rfl
      obtain ⟨x, hx, -⟩ := h.sleepers u hq
      rcases hasleep x with hne | hnone
      · exact hne hx
      · rw [hnone] at hq
        cases hq
    obtain ⟨x, hx, hw, hc⟩ := h.sleepers u hq
    refine ⟨x, by rw [s.setPc_pc_ne t p hut, hx], hw, covered_of hc rfl fun v hv => ?_⟩
    have hvt : v ≠ t := by
      rintro rfl
      exact hwake x hv
    rw [s.setPc_pc_ne t p hvt, hv]
  waitSleep u x hx := by
    by_cases hut : u = t
    · subst hut
      exact hp x (by simpa using hx)
    · exact h.waitSleep u x (by rwa [s.setPc_pc_ne t p hut] at hx)

omit [Fintype τ] in
theorem replace (h : Inv s) (hidle : ∀ x, s.pc t ≠ .asleep x) (hwake : ∀ x, s.pc t ≠ .wakeAll x)
    {old v : TokenT} (hold : s.word = old) :
    Inv { s.setPc t (afterReplace old) with word := v } where
  sleepers u hu := by
    have hq : s.queues u = some () := hu
    have hut : u ≠ t := by
      rintro rfl
      rw [h.queue_none hidle] at hq
      cases hq
    obtain ⟨x, hx, hw, hc⟩ := h.sleepers u hq
    refine ⟨x, by simp [State.setPc, hut, hx], hw, ?_⟩
    rcases hc with hword | ⟨v', hv'⟩
    · refine .inr ⟨t, ?_⟩
      simp only [State.setPc_pc_self]
      rw [← hold, hword, hw.afterReplace]
    · have hvt : v' ≠ t := by
        rintro rfl
        exact hwake x hv'
      exact .inr ⟨v', by simp [State.setPc, hvt, hv']⟩
  waitSleep u x hx := by
    have hut : u ≠ t := by
      rintro rfl
      simp only [State.setPc_pc_self] at hx
      unfold FutexSlot.afterReplace at hx
      split at hx <;> cases hx
    exact h.waitSleep u x (by simpa [State.setPc, hut] using hx)

end Inv

/-- One case per atomic operation of `futex::wait`, `wake` and `close`, and the kernel's
wake. -/
theorem inv_step (hcard : Fintype.card τ ≤ 2 ^ 31) {s s' : State τ} {t : τ} (h : Inv s)
    (hst : Step t s s') : Inv s' := by
  cases hst with
  | waitCall v hpc =>
    exact h.setPc (fun _ => by simp [hpc]) (fun _ => by simp [hpc]) (fun _ hx => by cases hx)
  | waitCasOk hpc hword =>
    rename_i v
    refine ⟨fun u hu => ?_, fun u x hx => ?_⟩
    · have hq : s.queues u = some () := hu
      have hut : u ≠ t := by
        rintro rfl
        rw [h.queue_none (by simp [hpc])] at hq
        cases hq
      obtain ⟨x, hx, hw, hc⟩ := h.sleepers u hq
      refine ⟨x, by simp [State.setPc, hut, hx], hw, ?_⟩
      rcases hc with hx' | ⟨v', hv'⟩
      · refine .inl ?_
        show v ||| statusWaiting = x
        rw [← hword, hx', hw]
      · have hvt : v' ≠ t := by
          rintro rfl
          rw [hpc] at hv'
          cases hv'
        exact .inr ⟨v', by simp [State.setPc, hvt, hv']⟩
    · by_cases hut : u = t
      · subst hut
        simp only [State.setPc_pc_self, Pc.waitSleep.injEq] at hx
        exact hx ▸ hasWaiting_or v
      · exact h.waitSleep u x (by simpa [State.setPc, hut] using hx)
  | waitCasFail hpc _ =>
    rename_i v _
    refine h.setPc (fun _ => by simp [hpc]) (fun _ => by simp [hpc]) fun x hx => ?_
    split at hx
    · cases hx
      exact hasWaiting_or v
    · cases hx
  | sleep hpc hword =>
    rename_i x
    have hw := h.waitSleep t x hpc
    refine ⟨fun u hu => ?_, fun u y hy => ?_⟩
    · by_cases hut : u = t
      · subst hut
        exact ⟨x, by simp, hw, .inl hword⟩
      · obtain ⟨y, hy, hwy, hc⟩ := h.sleepers u (by simpa [enqueue_ne _ _ hut] using hu)
        refine ⟨y, by simp [State.setPc, hut, hy], hwy, Inv.covered_of hc rfl fun v hv => ?_⟩
        have hvt : v ≠ t := by
          rintro rfl
          rw [hpc] at hv
          cases hv
        simp [State.setPc, hvt, hv]
    · have hut : u ≠ t := by
        rintro rfl
        simp [State.setPc] at hy
      exact h.waitSleep u y (by simpa [State.setPc, hut] using hy)
  | sleepFail hpc _ =>
    exact h.setPc (fun _ => by simp [hpc]) (fun _ => by simp [hpc]) (fun _ hx => by cases hx)
  | wakeUp hpc hq =>
    exact h.setPc (fun _ => .inr hq) (fun _ => by simp [hpc]) (fun _ hx => by cases hx)
  | wake v hpc => exact h.replace (by simp [hpc]) (by simp [hpc]) rfl
  | closeLoad hpc =>
    exact h.setPc (fun _ => by simp [hpc]) (fun _ => by simp [hpc]) (fun _ hx => by cases hx)
  | closeCasOk hpc hword => exact h.replace (by simp [hpc]) (by simp [hpc]) hword
  | closeCasFail hpc =>
    exact h.setPc (fun _ => by simp [hpc]) (fun _ => by simp [hpc]) (fun _ hx => by cases hx)
  | futexWake hpc hwake =>
    rename_i old q'
    -- the waker is not queued, so at most `INT32_MAX` threads are, and all are woken
    have hroom : (sleepers s.queues ()).card ≤ int32Max := by
      have := card_sleepers_lt (h.queue_none (t := t) (by simp [hpc])) ()
      unfold int32Max
      omega
    refine ⟨fun u hu => ?_, fun u x hx => ?_⟩
    · have hq : q' u = some () := hu
      rw [hwake.all hroom (hwake.le hq)] at hq
      cases hq
    · have hut : u ≠ t := by
        rintro rfl
        simp [State.setPc] at hx
      exact h.waitSleep u x (by simpa [State.setPc, hut] using hx)

theorem inv_reachable (hcard : Fintype.card τ ≤ 2 ^ 31) {s : State τ}
    (h : Reachable system s) : Inv s :=
  Inductive.reachable (I := Inv)
    ⟨fun _ hs => Inv.init hs, fun _ _ _ hi hst => inv_step hcard hi hst⟩ h

/-- With at most `2 ^ 31` threads on a slot, each thread asleep in `futex_wait` sleeps on a
value with `status_waiting`, and that value is still in the word or the thread that replaced
it has seen the bit and not yet called `futex_wake`. -/
theorem futex_slot_no_lost_wakeup (hcard : Fintype.card τ ≤ 2 ^ 31) {s : State τ}
    (h : Reachable system s) (t : τ) (ht : s.queues t = some ()) :
    ∃ x, s.pc t = .asleep x ∧ x &&& statusWaiting ≠ 0 ∧
      (s.word = x ∨ ∃ u, s.pc u = .wakeAll x) := by
  obtain ⟨x, hx, hw, hc⟩ := (inv_reachable hcard h).sleepers t ht
  exact ⟨x, hx, hw.test, hc⟩

/-- One thread calls `wait(0)` on a slot that holds 0 and sleeps on `status_waiting`. -/
theorem futex_slot_no_lost_wakeup_asleep :
    ∃ s : State (Fin 1), Reachable system s ∧ s.queues 0 = some () ∧
      ∃ x, s.pc 0 = .asleep x ∧ x &&& statusWaiting ≠ 0 ∧
        (s.word = x ∨ ∃ u, s.pc u = .wakeAll x) := by
  let s₀ : State (Fin 1) := ⟨0, fun _ => .idle, Queues.empty⟩
  have h₀ : Reachable system s₀ := .init ⟨fun _ => rfl, rfl⟩
  have h₁ := h₀.tail (Step.waitCall (t := 0) 0 rfl)
  have h₂ := h₁.tail (Step.waitCasOk (t := 0) rfl rfl)
  have h₃ := h₂.tail (Step.sleep (t := 0) rfl rfl)
  exact ⟨_, h₃, rfl, futex_slot_no_lost_wakeup (by simp) h₃ 0 rfl⟩

/-! ## More sleepers than `INT32_MAX` -/

theorem zero_or_waiting : (0 : TokenT) ||| statusWaiting = statusWaiting := by decide

/-- The threads of `A` called `wait(0)` on a slot that held 0 and sleep on `status_waiting`,
which the first of them set; the others are idle. -/
structure Gathered (A : Finset τ) (s : State τ) : Prop where
  asleep : ∀ v ∈ A, s.pc v = .asleep statusWaiting ∧ s.queues v = some ()
  idle : ∀ v ∉ A, s.pc v = .idle ∧ s.queues v = none
  word : s.word = 0 ∨ s.word = statusWaiting
  waiting : A.Nonempty → s.word = statusWaiting

omit [DecidableEq τ] [Fintype τ] in
theorem Gathered.init : Gathered ∅ (⟨0, fun _ => .idle, Queues.empty⟩ : State τ) where
  asleep v hv := absurd hv (Finset.notMem_empty v)
  idle _ _ := ⟨rfl, rfl⟩
  word := .inl rfl
  waiting h := absurd h Finset.not_nonempty_empty

theorem wait_zero {s : State τ} {u : τ} (hr : Reachable system s) (hidle : s.pc u = .idle)
    (hword : s.word = 0 ∨ s.word = statusWaiting) :
    ∃ s', Reachable system s' ∧ s'.pc u = .waitSleep statusWaiting ∧
      s'.word = statusWaiting ∧ (∀ v, v ≠ u → s'.pc v = s.pc v) ∧ s'.queues = s.queues := by
  have h₁ := hr.tail (Step.waitCall (t := u) 0 hidle)
  rcases hword with h0 | h4
  · have h₂ := h₁.tail (Step.waitCasOk (t := u) (State.setPc_pc_self _ _ _) (by simpa using h0))
    exact ⟨_, h₂, by simp, zero_or_waiting,
      fun v hv => by simp [State.setPc, hv], rfl⟩
  · have hne : s.word ≠ 0 := by rw [h4]; decide
    have h₂ := h₁.tail (Step.waitCasFail (t := u) (State.setPc_pc_self _ _ _) (by simpa using hne))
    refine ⟨_, h₂, ?_, h4, fun v hv => by simp [State.setPc, hv], rfl⟩
    simp [h4]

theorem Gathered.add {A : Finset τ} {u : τ} {s : State τ} (hr : Reachable system s)
    (hg : Gathered A s) (hu : u ∉ A) : ∃ s', Reachable system s' ∧ Gathered (insert u A) s' := by
  obtain ⟨hidle, -⟩ := hg.idle u hu
  obtain ⟨s₂, h₂, hpc, hword, hframe, hq⟩ := wait_zero hr hidle hg.word
  have h₃ := h₂.tail (Step.sleep (t := u) hpc hword)
  refine ⟨_, h₃, fun v hv => ?_, fun v hv => ?_, .inr hword, fun _ => hword⟩
  · rcases Finset.mem_insert.mp hv with rfl | hv
    · exact ⟨by simp, enqueue_self _ _ _⟩
    · have hvu : v ≠ u := fun h => hu (h ▸ hv)
      obtain ⟨hp, hqv⟩ := hg.asleep v hv
      refine ⟨by simp [State.setPc, hvu, hframe v hvu, hp], ?_⟩
      show enqueue s₂.queues u () v = some ()
      rw [enqueue_ne _ _ hvu, hq, hqv]
  · have hvu : v ≠ u := fun h => hv (h ▸ Finset.mem_insert_self u A)
    obtain ⟨hp, hqv⟩ := hg.idle v (fun h => hv (Finset.mem_insert_of_mem h))
    refine ⟨by simp [State.setPc, hvu, hframe v hvu, hp], ?_⟩
    show enqueue s₂.queues u () v = none
    rw [enqueue_ne _ _ hvu, hq, hqv]

theorem gathered_reachable (A : Finset τ) : ∃ s, Reachable system s ∧ Gathered A s := by
  induction A using Finset.induction_on with
  | empty => exact ⟨_, .init ⟨fun _ => rfl, rfl⟩, Gathered.init⟩
  | insert u A hu ih =>
    obtain ⟨s, hr, hg⟩ := ih
    exact hg.add hr hu

/-- With `2 ^ 31` threads asleep on a slot, one more thread's `wake(0)` sees `status_waiting`,
and its `futex_wake(INT32_MAX)` leaves one of them asleep on a value no longer in the word, with
no waker left on the way. A fact of the model only: no Linux process has that many threads. -/
theorem futex_slot_wake_leaves_sleeper :
    ∃ s : State (Fin (2 ^ 31 + 1)), Reachable system s ∧
      ∃ t x, s.queues t = some () ∧ s.pc t = .asleep x ∧ s.word ≠ x ∧
        ∀ u, s.pc u ≠ .wakeAll x := by
  let N : Fin (2 ^ 31 + 1) := Fin.last _
  obtain ⟨s, hr, hg⟩ := gathered_reachable (Finset.univ.erase N)
  obtain ⟨hidle, hnone⟩ := hg.idle N (Finset.notMem_erase N _)
  have hcard : (Finset.univ.erase N).card = 2 ^ 31 := by simp [Finset.card_erase_of_mem]
  have hword : s.word = statusWaiting := hg.waiting ⟨0, by simp [N, Fin.ext_iff]⟩
  have h₁ := hr.tail (Step.wake (t := N) 0 hidle)
  obtain ⟨q', hq'⟩ := wake_exists s.queues () int32Max
  have hpc : (afterReplace s.word) = .wakeAll statusWaiting := by
    rw [hword]
    exact (hasWaiting_or 0).afterReplace.trans (by rw [zero_or_waiting])
  have h₂ := h₁.tail (Step.futexWake (t := N) (by simpa using hpc) hq')
  have hsl : sleepers s.queues () = Finset.univ.erase N := by
    ext v
    by_cases hv : v = N
    · subst hv
      simp [hnone]
    · simp [hv, (hg.asleep v (by simp [hv])).2]
  obtain ⟨v, hv, hv'⟩ := hq'.some_left (by rw [hsl, hcard]; simp [int32Max])
  have hvN : v ≠ N := by
    rintro rfl
    rw [hnone] at hv
    cases hv
  have hpv := (hg.asleep v (by simp [hvN])).1
  refine ⟨_, h₂, v, statusWaiting, hv', by simp [State.setPc, hvN, hpv],
    show (0 : TokenT) ≠ statusWaiting by decide, fun u => ?_⟩
  by_cases hu : u = N
  · subst hu
    simp [State.setPc]
  · simp [State.setPc, hu, (hg.asleep u (by simp [hu])).1]

end FutexSlotWakeup
