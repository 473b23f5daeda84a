import Evenk.Futex
import Mathlib.Algebra.Group.Nat.Defs
import Evenk.TransitionSystem

/-!
# `futex_lock` and `futex_cond_var` (`synch.h`)

A thread's place in `lock`, `try_lock`, `unlock`, `wait`, `notify_one` and `notify_all` is its
`Pc`; a step is one atomic operation or one futex call, with local tests folded into the step
before. The lock is held by every caller of `wait` and the notifies. A failing `try_lock` is
left out. The ghost fields count the increments of the condition variable's `futex_`.
-/
namespace FutexLock

open Futex TransitionSystem

/-- `futex_lock::futex_` and `futex_cond_var::futex_`. -/
inductive Word where
  | lock
  | cond
  deriving DecidableEq, Repr

/-- Where `unlock()` returns: to its caller, or into `futex_cond_var::wait`, which then
sleeps on the value of `futex_` it read. -/
inductive Cont where
  | caller
  | condWait (value : UInt32)
  deriving DecidableEq, Repr

/-- Where a `futex_wait` returns: to the `exchange(2)` loop of `lock`, or to the
`count_.fetch_sub(1)` of `wait`. -/
inductive Resume where
  | lockLoop
  | condWoken
  deriving DecidableEq, Repr

inductive Pc where
  | idle
  | lockCas
  | lockContend (value : UInt32)
  | lockWait
  | lockXchg
  | asleep (resume : Resume)
  | held
  | unlockSub (k : Cont)
  | unlockStore (k : Cont)
  | unlockWake (k : Cont)
  | waitLoad
  | waitSleep (value : UInt32)
  | waitDec
  | notifyLoad (all : Bool)
  | notifyWake
  | notifyRequeue
  deriving DecidableEq, Repr

/-- The thread holds the lock: from the CAS or exchange that took it to the `fetch_sub` or
the store that frees it, across the steps of `wait` and of the notifies made under it. -/
def Pc.holds : Pc → Bool
  | .held | .unlockSub _ | .unlockStore _ | .waitLoad | .notifyLoad _ | .notifyWake
  | .notifyRequeue => true
  | _ => false

/-- The value of `futex_` a thread in `wait` read and will sleep on, from its read until its
`futex_wait`. -/
def Pc.pendingValue : Pc → Option UInt32
  | .unlockSub (.condWait v) | .unlockStore (.condWait v) | .unlockWake (.condWait v)
  | .waitSleep v => some v
  | _ => none

def afterUnlock : Cont → Pc
  | .caller => .idle
  | .condWait value => .waitSleep value

def Resume.pc : Resume → Pc
  | .lockLoop => .lockXchg
  | .condWoken => .waitDec

/-- `std::numeric_limits<int>::max()`, the `queue_count` of `notify_all`'s requeue. -/
def intMax : ℕ := 2 ^ 31 - 1

structure State (τ : Type) where
  lockWord : UInt32
  condWord : UInt32
  count : UInt32
  owner : Bool
  queues : Queues τ Word
  pc : τ → Pc
  incs : ℕ
  readAt : τ → ℕ
  notifyAt : τ → ℕ
  requeued : ℕ
  woken : τ → Bool

variable {τ : Type}

def State.init : State τ :=
  ⟨0, 0, 0, false, Queues.empty, fun _ => .idle, 0, fun _ => 0, fun _ => 0, 0, fun _ => false⟩

variable [DecidableEq τ]

def State.setPc (s : State τ) (t : τ) (p : Pc) : State τ :=
  { s with pc := Function.update s.pc t p }

namespace State

variable (s : State τ) (t : τ) (p : Pc)

@[simp] theorem setPc_pc_self : (s.setPc t p).pc t = p := by simp [setPc]

theorem setPc_pc_ne {u : τ} (h : u ≠ t) : (s.setPc t p).pc u = s.pc u := by simp [setPc, h]

@[simp] theorem setPc_lockWord : (s.setPc t p).lockWord = s.lockWord := rfl
@[simp] theorem setPc_condWord : (s.setPc t p).condWord = s.condWord := rfl
@[simp] theorem setPc_count : (s.setPc t p).count = s.count := rfl
@[simp] theorem setPc_owner : (s.setPc t p).owner = s.owner := rfl
@[simp] theorem setPc_queues : (s.setPc t p).queues = s.queues := rfl
@[simp] theorem setPc_incs : (s.setPc t p).incs = s.incs := rfl
@[simp] theorem setPc_readAt : (s.setPc t p).readAt = s.readAt := rfl
@[simp] theorem setPc_notifyAt : (s.setPc t p).notifyAt = s.notifyAt := rfl
@[simp] theorem setPc_requeued : (s.setPc t p).requeued = s.requeued := rfl
@[simp] theorem setPc_woken : (s.setPc t p).woken = s.woken := rfl

end State

variable [Fintype τ]

/-- One step of thread `t`. -/
inductive Step (t : τ) : State τ → State τ → Prop where
  | lockCall {s} : s.pc t = .idle → Step t s (s.setPc t .lockCas)
  | lockCasOk {s} : s.pc t = .lockCas → s.lockWord = 0 →
      Step t s { s.setPc t .held with lockWord := 1 }
  | lockCasFail {s} (backoff : Bool) : s.pc t = .lockCas → s.lockWord ≠ 0 →
      Step t s (s.setPc t (if backoff then .lockContend s.lockWord else .lockCas))
  | lockContendTwo {s v} : s.pc t = .lockContend v → v = 2 → Step t s (s.setPc t .lockWait)
  | lockContendXchg {s v} : s.pc t = .lockContend v → v ≠ 2 →
      Step t s { s.setPc t (if s.lockWord = 0 then .held else .lockWait) with lockWord := 2 }
  | lockXchg {s} : s.pc t = .lockXchg →
      Step t s { s.setPc t (if s.lockWord = 0 then .held else .lockWait) with
        lockWord := 2, woken := Function.update s.woken t false }
  | lockSleep {s} : s.pc t = .lockWait → s.lockWord = 2 →
      Step t s { s.setPc t (.asleep .lockLoop) with queues := enqueue s.queues t .lock }
  | lockPass {s} : s.pc t = .lockWait → s.lockWord ≠ 2 → Step t s (s.setPc t .lockXchg)
  | wakeUp {s r} : s.pc t = .asleep r → s.queues t = none →
      Step t s { s.setPc t r.pc with woken := Function.update s.woken t true }
  | tryLock {s} : s.pc t = .idle → s.lockWord = 0 →
      Step t s { s.setPc t .held with lockWord := 1 }
  | unlockCall {s} : s.pc t = .held → Step t s (s.setPc t (.unlockSub .caller))
  | unlockSub {s k} : s.pc t = .unlockSub k →
      Step t s { s.setPc t (if s.lockWord = 1 then afterUnlock k else .unlockStore k) with
        lockWord := s.lockWord - 1 }
  | unlockStore {s k} : s.pc t = .unlockStore k →
      Step t s { s.setPc t (.unlockWake k) with lockWord := 0 }
  | unlockWake {s k q'} : s.pc t = .unlockWake k → Wake s.queues .lock 1 q' →
      Step t s { s.setPc t (afterUnlock k) with queues := q' }
  | waitCall {s} : s.pc t = .held →
      Step t s { s.setPc t .waitLoad with count := s.count + 1, owner := true }
  | waitLoad {s} : s.pc t = .waitLoad →
      Step t s { s.setPc t (.unlockSub (.condWait s.condWord)) with
        readAt := Function.update s.readAt t s.incs }
  | waitSleep {s v} : s.pc t = .waitSleep v → s.condWord = v →
      Step t s { s.setPc t (.asleep .condWoken) with queues := enqueue s.queues t .cond }
  | waitPass {s v} : s.pc t = .waitSleep v → s.condWord ≠ v → Step t s (s.setPc t .waitDec)
  | waitDec {s} : s.pc t = .waitDec → Step t s { s.setPc t .lockXchg with count := s.count - 1 }
  | notifyCall {s} (all : Bool) : s.pc t = .held →
      Step t s { s.setPc t (.notifyLoad all) with
        condWord := s.condWord + 1, incs := s.incs + 1,
        notifyAt := Function.update s.notifyAt t s.incs }
  | notifyLoad {s all} : s.pc t = .notifyLoad all →
      Step t s (s.setPc t
        (if s.count = 0 then .held
         else if all then (if s.owner then .notifyRequeue else .held) else .notifyWake))
  | notifyWake {s q'} : s.pc t = .notifyWake → Wake s.queues .cond 1 q' →
      Step t s { s.setPc t .held with queues := q' }
  | notifyRequeue {s q'} : s.pc t = .notifyRequeue → Requeue s.queues .cond 1 intMax .lock q' →
      Step t s { s.setPc t .held with
        queues := q', requeued := max s.requeued (s.notifyAt t + 1) }

def system : System τ (State τ) where
  init s := s = State.init
  step := Step

end FutexLock
