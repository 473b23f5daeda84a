import Evenk.BoundedQueueToken
import Evenk.Futex
import Evenk.TransitionSystem

/-!
# `bounded_queue::futex`, the futex slot of the ring (`bounded_queue.h`)

One slot word shared by threads that call `wait`, `wake` and `close`. Each atomic operation is
one step and `futex_wait` an atomic compare-and-sleep. The values passed to `wait` and `wake`
are left free.
-/
namespace FutexSlot

open BoundedQueue Futex TransitionSystem

/-- `INT32_MAX`, the count of both `futex_wake` calls. -/
def int32Max : ℕ := 2 ^ 31 - 1

inductive Pc where
  | idle
  /-- `wait(t)`, before its `compare_exchange_strong(t, t | status_waiting)`. -/
  | waitCas (t : TokenT)
  /-- `wait`, before `futex_wait(*this, x)`. -/
  | waitSleep (x : TokenT)
  /-- In `futex_wait` on `x`: queued, or woken and not yet run. -/
  | asleep (x : TokenT)
  /-- `close()`, before its `compare_exchange_weak(t, t | status_closed)`. -/
  | closeCas (t : TokenT)
  /-- `wake` or `close` has replaced `old`, which had `status_waiting`, and calls
  `futex_wake(*this, INT32_MAX)`. -/
  | wakeAll (old : TokenT)
  deriving DecidableEq, Repr

/-- `if ((t & detail::status_waiting) != 0) futex_wake(...)` after replacing `t`. -/
def afterReplace (t : TokenT) : Pc :=
  if t &&& statusWaiting ≠ 0 then .wakeAll t else .idle

structure State (τ : Type) where
  word : TokenT
  pc : τ → Pc
  queues : Queues τ Unit

variable {τ : Type} [DecidableEq τ]

def State.setPc (s : State τ) (t : τ) (p : Pc) : State τ :=
  { s with pc := Function.update s.pc t p }

namespace State

variable (s : State τ) (t : τ) (p : Pc)

@[simp] theorem setPc_pc_self : (s.setPc t p).pc t = p := by simp [setPc]

theorem setPc_pc_ne {u : τ} (h : u ≠ t) : (s.setPc t p).pc u = s.pc u := by simp [setPc, h]

@[simp] theorem setPc_word : (s.setPc t p).word = s.word := rfl
@[simp] theorem setPc_queues : (s.setPc t p).queues = s.queues := rfl

end State

variable [Fintype τ]

/-- One step of thread `t`. -/
inductive Step (t : τ) : State τ → State τ → Prop where
  | waitCall {s} (v : TokenT) : s.pc t = .idle → Step t s (s.setPc t (.waitCas v))
  | waitCasOk {s v} : s.pc t = .waitCas v → s.word = v →
      Step t s { s.setPc t (.waitSleep (v ||| statusWaiting)) with word := v ||| statusWaiting }
  /-- The failed CAS loads the word into `t`; `wait` sleeps if it is `x` all the same. -/
  | waitCasFail {s v} : s.pc t = .waitCas v → s.word ≠ v →
      Step t s (s.setPc t
        (if s.word = v ||| statusWaiting then .waitSleep (v ||| statusWaiting) else .idle))
  | sleep {s x} : s.pc t = .waitSleep x → s.word = x →
      Step t s { s.setPc t (.asleep x) with queues := enqueue s.queues t () }
  | sleepFail {s x} : s.pc t = .waitSleep x → s.word ≠ x → Step t s (s.setPc t .idle)
  | wakeUp {s x} : s.pc t = .asleep x → s.queues t = none → Step t s (s.setPc t .idle)
  /-- `wake(v)`: `exchange(v)`. -/
  | wake {s} (v : TokenT) : s.pc t = .idle →
      Step t s { s.setPc t (afterReplace s.word) with word := v }
  | closeLoad {s} : s.pc t = .idle → Step t s (s.setPc t (.closeCas s.word))
  | closeCasOk {s v} : s.pc t = .closeCas v → s.word = v →
      Step t s { s.setPc t (afterReplace v) with word := v ||| statusClosed }
  /-- A weak CAS may also fail spuriously; either way it loads the word into `t`. -/
  | closeCasFail {s v} : s.pc t = .closeCas v → Step t s (s.setPc t (.closeCas s.word))
  | futexWake {s old q'} : s.pc t = .wakeAll old → Wake s.queues () int32Max q' →
      Step t s { s.setPc t .idle with queues := q' }

/-- Any slot word, every thread outside the slot's calls and none asleep. -/
def system : System τ (State τ) where
  init s := (∀ t, s.pc t = .idle) ∧ s.queues = Queues.empty
  step := Step

end FutexSlot
