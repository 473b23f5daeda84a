import Evenk.SynchQueue
import Evenk.TransitionSystem
import Mathlib.Data.Fintype.Card

/-!
# `synch_queue` under concurrency (`synch_queue.h`)

Any number of threads call the queue, each critical section under `lock_` one step. `cond_` is
the condition variable of `std_synch` or `posix_synch`: `wait` releases the lock and sleeps in
one step and may wake spuriously, `notify_one` wakes one sleeper. The Linux `default_synch`,
`futex_synch`, is not covered. Pops hand out the pushed values in order, and no value waits
while every consumer sleeps.
-/
namespace SynchQueueThreads

open QueueSpec SynchQueue TransitionSystem

variable {V τ : Type}

/-! ## `locked_push` and `locked_pop` on plain values -/

theorem lockedPush_success {q q' : SynchQueue V} {v v' : V}
    (h : lockedPush plain () q v = .ok (.success, (), q', v')) :
    q.closed = false ∧ q' = { q with queue := q.queue ++ [v] } := by
  unfold lockedPush at h
  cases hc : q.closed
  · simp only [hc, Bool.false_eq_true, if_false] at h
    cases h
    exact ⟨rfl, rfl⟩
  · simp only [hc, if_true] at h
    cases h

theorem lockedPop_cases {q q' : SynchQueue V} {d v : V} {st : QueueOpStatus}
    (h : lockedPop plain () q d = .ok (st, (), q', v)) :
    (st = .success ∧ q.queue = v :: q'.queue ∧ q'.closed = q.closed) ∨
      (st = .closed ∧ q.queue = [] ∧ q.closed = true ∧ q' = q) ∨
      (st = .empty ∧ q.queue = [] ∧ q.closed = false ∧ q' = q) := by
  unfold lockedPop at h
  cases hq : q.queue with
  | nil =>
    rw [hq] at h
    cases hc : q.closed
    · simp only [hc, Bool.false_eq_true, if_false] at h
      cases h
      exact .inr (.inr ⟨rfl, rfl, rfl, rfl⟩)
    · simp only [hc, if_true] at h
      cases h
      exact .inr (.inl ⟨rfl, rfl, rfl, rfl⟩)
  | cons front rest =>
    rw [hq] at h
    cases h
    exact .inl ⟨rfl, rfl, rfl⟩

/-! ## Threads -/

/-- Where a thread stands with respect to `cond_`: outside a wait, asleep in `cond_.wait`, or
woken from it and yet to retake the lock. -/
inductive Pc where
  | idle
  | asleep
  | woken
  deriving DecidableEq, Repr

def Pc.isWoken : Pc → Bool
  | .woken => true
  | _ => false

structure State (V τ : Type) where
  q : SynchQueue V
  pc : τ → Pc
  /-- The values of the successful pushes, in the order of their critical sections. -/
  pushed : List V
  /-- The values that successful pops handed out, in the order of their critical sections. -/
  popped : List V

def init : State V τ := ⟨SynchQueue.init, fun _ => .idle, [], []⟩

variable [DecidableEq τ]

/-- `cond_.notify_one()`: one thread asleep on `cond_`, if there is one, is woken. -/
inductive NotifyOne (pc : τ → Pc) : (τ → Pc) → Prop
  | none (h : ∀ u, pc u ≠ .asleep) : NotifyOne pc pc
  | wake (u : τ) (h : pc u = .asleep) : NotifyOne pc (Function.update pc u .woken)

/-- `cond_.notify_all()`: every thread asleep on `cond_` is woken. -/
def notifyAll (pc : τ → Pc) : τ → Pc := fun u => if pc u = .asleep then .woken else pc u

/-- One step of thread `t`, each a whole critical section under `lock_`; `d` is the caller's
`value`, which a pop that finds nothing leaves as it is. A call that changes nothing (a push
on a closed queue, a `try_pop` that finds nothing) is not a step. -/
inductive Step : τ → State V τ → State V τ → Prop
  /-- `wait_push(v)` and `try_push(v)`, which is the same code: `locked_push` on an open queue
  appends the value and calls `notify_one`. -/
  | push {s : State V τ} {t : τ} {q' : SynchQueue V} {v v' : V} {pc' : τ → Pc}
      (hpc : s.pc t = .idle) (h : lockedPush plain () s.q v = .ok (.success, (), q', v'))
      (hn : NotifyOne s.pc pc') :
      Step t s ⟨q', pc', s.pushed ++ [v], s.popped⟩
  /-- `wait_pop`, at its call or woken: `locked_pop` hands out the front. -/
  | pop {s : State V τ} {t : τ} {q' : SynchQueue V} {d v : V}
      (hpc : s.pc t = .idle ∨ s.pc t = .woken)
      (h : lockedPop plain () s.q d = .ok (.success, (), q', v)) :
      Step t s ⟨q', Function.update s.pc t .idle, s.pushed, s.popped ++ [v]⟩
  /-- `wait_pop` on an empty closed queue returns `closed`. -/
  | popClosed {s : State V τ} {t : τ} {q' : SynchQueue V} {d v : V}
      (hpc : s.pc t = .idle ∨ s.pc t = .woken)
      (h : lockedPop plain () s.q d = .ok (.closed, (), q', v)) :
      Step t s ⟨q', Function.update s.pc t .idle, s.pushed, s.popped⟩
  /-- `wait_pop` on an empty open queue: `cond_.wait(guard)` releases the lock and sleeps. -/
  | sleep {s : State V τ} {t : τ} {q' : SynchQueue V} {d v : V}
      (hpc : s.pc t = .idle ∨ s.pc t = .woken)
      (h : lockedPop plain () s.q d = .ok (.empty, (), q', v)) :
      Step t s ⟨q', Function.update s.pc t .asleep, s.pushed, s.popped⟩
  /-- `try_pop` that finds an element. -/
  | tryPop {s : State V τ} {t : τ} {q' : SynchQueue V} {d v : V} (hpc : s.pc t = .idle)
      (h : lockedPop plain () s.q d = .ok (.success, (), q', v)) :
      Step t s ⟨q', s.pc, s.pushed, s.popped ++ [v]⟩
  /-- `close()`: set `closed_` and call `notify_all`. -/
  | close {s : State V τ} {t : τ} (hpc : s.pc t = .idle) :
      Step t s ⟨s.q.close, notifyAll s.pc, s.pushed, s.popped⟩
  /-- A sleeper wakes with no notification, as a condition variable allows. -/
  | spurious {s : State V τ} {t : τ} (hpc : s.pc t = .asleep) :
      Step t s ⟨s.q, Function.update s.pc t .woken, s.pushed, s.popped⟩

def system : System τ (State V τ) where
  init s := s = init
  step := Step

/-! ## Delivery in push order -/

/-- Every value pushed has been handed out by one pop, in push order, or is still queued. -/
def Fifo (s : State V τ) : Prop := s.pushed = s.popped ++ s.q.queue

theorem fifo_step {t : τ} {s s' : State V τ} (hf : Fifo s) (h : Step t s s') : Fifo s' := by
  unfold Fifo at hf ⊢
  cases h with
  | push _ h _ =>
    obtain ⟨-, rfl⟩ := lockedPush_success h
    simp [hf]
  | pop _ h | tryPop _ h =>
    obtain ⟨-, hq, -⟩ | ⟨h, -⟩ | ⟨h, -⟩ := lockedPop_cases h
    · simp [hf, hq]
    · cases h
    · cases h
  | popClosed _ h | sleep _ h =>
    obtain ⟨h, -⟩ | ⟨-, -, -, rfl⟩ | ⟨-, -, -, rfl⟩ := lockedPop_cases h
    · cases h
    · exact hf
    · exact hf
  | close _ => exact hf
  | spurious _ => exact hf

theorem fifo_inductive : Inductive (system : System τ (State V τ)) Fifo := by
  refine ⟨fun s hs => ?_, fun _ _ _ hf h => fifo_step hf h⟩
  subst hs
  rfl

/-! ## No lost wake-up -/

theorem asleep_of_update {pc : τ → Pc} {t u : τ} {p : Pc} (hp : p ≠ .asleep)
    (hu : Function.update pc t p u = .asleep) : pc u = .asleep := by
  by_cases hut : u = t
  · subst hut
    rw [Function.update_self] at hu
    exact absurd hu hp
  · rwa [Function.update_of_ne hut] at hu

section Wakeup

variable [Fintype τ]

/-- The threads woken from `cond_.wait` that have not yet retaken the lock. -/
def wokenOf (pc : τ → Pc) : Finset τ := Finset.univ.filter fun u => (pc u).isWoken

theorem card_wokenOf_update_woken {pc : τ → Pc} {t : τ} (h : pc t ≠ .woken) :
    (wokenOf (Function.update pc t .woken)).card = (wokenOf pc).card + 1 := by
  have ht : (pc t).isWoken = false := by
    cases hp : pc t <;> simp_all [Pc.isWoken]
  exact card_filter_update_of_true Pc.isWoken pc t .woken rfl ht

theorem card_wokenOf_update_le {pc : τ → Pc} {t : τ} {p : Pc} (hp : p ≠ .woken) :
    (wokenOf pc).card ≤ (wokenOf (Function.update pc t p)).card + 1 := by
  unfold wokenOf
  rw [filter_update_of_false Pc.isWoken pc t p (by cases p <;> simp_all [Pc.isWoken])]
  have := Finset.pred_card_le_card_erase (s := Finset.univ.filter fun u => (pc u).isWoken) (a := t)
  omega

/-- While a thread sleeps in `wait_pop`, the queue is open and every element is matched by a
woken thread. -/
def Awake (s : State V τ) : Prop :=
  ∀ u, s.pc u = .asleep → s.q.closed = false ∧ s.q.queue.length ≤ (wokenOf s.pc).card

theorem awake_push {s : State V τ} {q' : SynchQueue V} {v v' : V} {pc' : τ → Pc} (ha : Awake s)
    (h : lockedPush plain () s.q v = .ok (.success, (), q', v')) (hn : NotifyOne s.pc pc') :
    Awake ⟨q', pc', s.pushed ++ [v], s.popped⟩ := by
  obtain ⟨hc, rfl⟩ := lockedPush_success h
  intro u hu
  cases hn with
  | none hnone => exact absurd hu (hnone u)
  | wake w hw =>
    have hu' := asleep_of_update (by decide) hu
    obtain ⟨-, hlen⟩ := ha u hu'
    have hcard := card_wokenOf_update_woken (t := w) (show s.pc w ≠ .woken by rw [hw]; decide)
    refine ⟨hc, ?_⟩
    simp only [List.length_append, List.length_singleton]
    omega

theorem awake_pop {s : State V τ} {t : τ} {q' : SynchQueue V} {d v : V} (ha : Awake s)
    (h : lockedPop plain () s.q d = .ok (.success, (), q', v)) :
    Awake ⟨q', Function.update s.pc t .idle, s.pushed, s.popped ++ [v]⟩ := by
  obtain ⟨-, hq, hc⟩ | ⟨h, -⟩ | ⟨h, -⟩ := lockedPop_cases h
  · intro u hu
    obtain ⟨hopen, hlen⟩ := ha u (asleep_of_update (by decide) hu)
    have hcard : (wokenOf s.pc).card ≤ (wokenOf (Function.update s.pc t .idle)).card + 1 :=
      card_wokenOf_update_le (by decide)
    rw [hq, List.length_cons] at hlen
    exact ⟨hc.trans hopen, by dsimp only; omega⟩
  · cases h
  · cases h

theorem awake_popClosed {s : State V τ} {t : τ} {q' : SynchQueue V} {d v : V} (ha : Awake s)
    (h : lockedPop plain () s.q d = .ok (.closed, (), q', v)) :
    Awake ⟨q', Function.update s.pc t .idle, s.pushed, s.popped⟩ := by
  obtain ⟨h, -⟩ | ⟨-, -, hc, -⟩ | ⟨h, -⟩ := lockedPop_cases h
  · cases h
  · -- a closed queue has no sleepers, and the step adds none
    intro u hu
    have hopen := (ha u (asleep_of_update (by decide) hu)).1
    rw [hc] at hopen
    cases hopen
  · cases h

theorem awake_sleep {s : State V τ} {t : τ} {q' : SynchQueue V} {d v : V}
    (h : lockedPop plain () s.q d = .ok (.empty, (), q', v)) :
    Awake ⟨q', Function.update s.pc t .asleep, s.pushed, s.popped⟩ := by
  obtain ⟨h, -⟩ | ⟨h, -⟩ | ⟨-, hq, hc, rfl⟩ := lockedPop_cases h
  · cases h
  · cases h
  · intro _ _
    exact ⟨hc, by rw [hq]; exact Nat.zero_le _⟩

omit [DecidableEq τ] in
theorem awake_tryPop {s : State V τ} {q' : SynchQueue V} {d v : V} (ha : Awake s)
    (h : lockedPop plain () s.q d = .ok (.success, (), q', v)) :
    Awake ⟨q', s.pc, s.pushed, s.popped ++ [v]⟩ := by
  obtain ⟨-, hq, hc⟩ | ⟨h, -⟩ | ⟨h, -⟩ := lockedPop_cases h
  · intro u hu
    obtain ⟨hopen, hlen⟩ := ha u hu
    rw [hq, List.length_cons] at hlen
    exact ⟨hc.trans hopen, by dsimp only; omega⟩
  · cases h
  · cases h

omit [DecidableEq τ] in
theorem awake_close (s : State V τ) : Awake ⟨s.q.close, notifyAll s.pc, s.pushed, s.popped⟩ := by
  intro u hu
  dsimp only [notifyAll] at hu
  by_cases h : s.pc u = .asleep
  · rw [if_pos h] at hu
    cases hu
  · rw [if_neg h] at hu
    exact absurd hu h

theorem awake_spurious {s : State V τ} {t : τ} (ha : Awake s) (hpc : s.pc t = .asleep) :
    Awake ⟨s.q, Function.update s.pc t .woken, s.pushed, s.popped⟩ := by
  intro u hu
  obtain ⟨hopen, hlen⟩ := ha u (asleep_of_update (by decide) hu)
  have hcard := card_wokenOf_update_woken (t := t) (show s.pc t ≠ .woken by rw [hpc]; decide)
  exact ⟨hopen, by dsimp only; omega⟩

theorem awake_step {t : τ} {s s' : State V τ} (ha : Awake s) (h : Step t s s') : Awake s' := by
  cases h with
  | push _ h hn => exact awake_push ha h hn
  | pop _ h => exact awake_pop ha h
  | popClosed _ h => exact awake_popClosed ha h
  | sleep _ h => exact awake_sleep h
  | tryPop _ h => exact awake_tryPop ha h
  | close _ => exact awake_close s
  | spurious hpc => exact awake_spurious ha hpc

theorem awake_inductive : Inductive (system : System τ (State V τ)) Awake := by
  refine ⟨fun s hs u hu => ?_, fun _ _ _ ha h => awake_step ha h⟩
  rw [show s = init from hs] at hu
  exact absurd hu (by simp [init])

end Wakeup

/-- In every reachable state of `synch_queue`, with any number of threads: the values handed
out by successful pops, in the order of their critical sections, followed by the queue's
contents, are the values of the successful pushes in order; and while a thread sleeps in
`wait_pop`, the queue is open and holds at most as many elements as there are threads woken
and yet to retake the lock. -/
theorem synch_queue_delivers_in_order [Fintype τ] {s : State V τ} (hs : Reachable system s) :
    s.pushed = s.popped ++ s.q.queue ∧
      ∀ u, s.pc u = .asleep → s.q.closed = false ∧ s.q.queue.length ≤ (wokenOf s.pc).card :=
  ⟨fifo_inductive.reachable hs, awake_inductive.reachable hs⟩

/-- Two threads: thread `0` sleeps in `wait_pop` on the empty queue, thread `1` pushes `7`,
whose `notify_one` wakes thread `0`. The queue then holds `7` and one thread is woken. -/
theorem synch_queue_delivers_in_order_wake :
    ∃ s : State ℕ (Fin 2), Reachable system s ∧ s.q.queue = [7] ∧ s.pc 0 = .woken ∧
      (s.pushed = s.popped ++ s.q.queue ∧
        ∀ u, s.pc u = .asleep → s.q.closed = false ∧ s.q.queue.length ≤ (wokenOf s.pc).card) := by
  have h₀ : Reachable (system : System (Fin 2) (State ℕ (Fin 2))) init := .init rfl
  have h₁ := Reachable.step 0 h₀ (Step.sleep (d := 0) (v := 0) (.inl rfl) rfl)
  have h₂ := Reachable.step 1 h₁
    (Step.push (v := 7) (by rfl) rfl (NotifyOne.wake 0 (by rfl)))
  exact ⟨_, h₂, rfl, rfl, synch_queue_delivers_in_order h₂⟩

end SynchQueueThreads
