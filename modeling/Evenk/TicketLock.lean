import Evenk.TransitionSystem
import Mathlib.Algebra.Group.Nat.Defs
import Mathlib.Data.Fintype.Card

/-!
# `ticket_lock` (`spinlock.h`)

`head_` and `tail_` are `std::uint16_t` counters that wrap; `unlock` is a load and a store. Each
atomic operation is one step, a poll that finds the ticket not yet served is left out, and
every `unlock` is made by the holder. The ghost fields count the tickets drawn and released.
-/
namespace TicketLock

open TransitionSystem

inductive Pc where
  | idle
  /-- `lock`, spinning until `head_` equals the ticket it drew. -/
  | lockWait (tail : UInt16)
  /-- `try_lock` has loaded `head_`. -/
  | tryLockTail (head : UInt16)
  /-- `try_lock` has found `head == tail` and tries its CAS. -/
  | tryLockCas (tail : UInt16)
  | locked
  /-- `unlock` has loaded `head_`. -/
  | unlockStore (head : UInt16)
  deriving DecidableEq, Repr

namespace Pc

/-- Waiting for or holding the lock, from the draw of a ticket to `unlock`'s store. -/
def active : Pc → Bool
  | .idle | .tryLockTail _ | .tryLockCas _ => false
  | .lockWait _ | .locked | .unlockStore _ => true

def holds : Pc → Bool
  | .idle | .lockWait _ | .tryLockTail _ | .tryLockCas _ => false
  | .locked | .unlockStore _ => true

/-- Inside `try_lock`, between its load of `head_` and its CAS. -/
def trying : Pc → Bool
  | .idle | .lockWait _ | .locked | .unlockStore _ => false
  | .tryLockTail _ | .tryLockCas _ => true

theorem holds_iff {p : Pc} : p.holds ↔ p = .locked ∨ ∃ hd, p = .unlockStore hd := by
  cases p <;> simp [holds]

theorem active_of_holds {p : Pc} (h : p.holds) : p.active := by
  rcases holds_iff.mp h with rfl | ⟨hd, rfl⟩ <;> rfl

end Pc

structure State (τ : Type) where
  head : UInt16
  tail : UInt16
  pc : τ → Pc
  drawn : ℕ
  released : ℕ
  ticket : τ → ℕ
  loaded : τ → ℕ

variable {τ : Type}

def State.init : State τ := ⟨0, 0, fun _ => .idle, 0, 0, fun _ => 0, fun _ => 0⟩

variable [DecidableEq τ]

def State.setPc (s : State τ) (t : τ) (p : Pc) : State τ :=
  { s with pc := Function.update s.pc t p }

/-- A ticket is drawn by `t`: `tail_` becomes `tail` and `t` moves to `p`. -/
def State.draw (s : State τ) (t : τ) (tail : UInt16) (p : Pc) : State τ :=
  { s with
    tail := tail, pc := Function.update s.pc t p, drawn := s.drawn + 1,
    ticket := Function.update s.ticket t s.drawn }

namespace State

variable (s : State τ) (t : τ) (p : Pc)

@[simp] theorem setPc_pc_self : (s.setPc t p).pc t = p := by simp [setPc]

theorem setPc_pc_ne {u : τ} (h : u ≠ t) : (s.setPc t p).pc u = s.pc u := by simp [setPc, h]

@[simp] theorem setPc_head : (s.setPc t p).head = s.head := rfl
@[simp] theorem setPc_tail : (s.setPc t p).tail = s.tail := rfl
@[simp] theorem setPc_drawn : (s.setPc t p).drawn = s.drawn := rfl
@[simp] theorem setPc_released : (s.setPc t p).released = s.released := rfl
@[simp] theorem setPc_ticket : (s.setPc t p).ticket = s.ticket := rfl
@[simp] theorem setPc_loaded : (s.setPc t p).loaded = s.loaded := rfl

end State

/-- One step of thread `t`. -/
inductive Step (t : τ) : State τ → State τ → Prop where
  /-- `lock`: `tail_.fetch_add(1)`. -/
  | lockDraw {s} : s.pc t = .idle → Step t s (s.draw t (s.tail + 1) (.lockWait s.tail))
  /-- `lock`: a load of `head_` that finds `tail == head`. -/
  | lockAcquire {s tk} : s.pc t = .lockWait tk → s.head = tk → Step t s (s.setPc t .locked)
  | tryLockHead {s} : s.pc t = .idle →
      Step t s { s.setPc t (.tryLockTail s.head) with
        loaded := Function.update s.loaded t s.released }
  /-- The load of `tail_` and the test `head == tail`. -/
  | tryLockTail {s hd} : s.pc t = .tryLockTail hd →
      Step t s (s.setPc t (if hd = s.tail then .tryLockCas s.tail else .idle))
  /-- `tail_.compare_exchange_strong(tail, tail + 1)`. -/
  | tryLockCasOk {s tl} : s.pc t = .tryLockCas tl → s.tail = tl →
      Step t s (s.draw t (tl + 1) .locked)
  | tryLockCasFail {s tl} : s.pc t = .tryLockCas tl → s.tail ≠ tl → Step t s (s.setPc t .idle)
  | unlockLoad {s} : s.pc t = .locked → Step t s (s.setPc t (.unlockStore s.head))
  /-- `head_.store(head + 1)`. -/
  | unlockStore {s hd} : s.pc t = .unlockStore hd →
      Step t s { s.setPc t .idle with head := hd + 1, released := s.released + 1 }

def system : System τ (State τ) where
  init s := s = State.init
  step := Step

variable [Fintype τ]

/-- The threads waiting for or holding the lock. -/
def lockers (s : State τ) : Finset τ := Finset.univ.filter fun t => (s.pc t).active

/-- Inside `try_lock`, fewer than `2 ^ 16` tickets were drawn beyond those released when it
loaded `head_`. -/
def ShortTries (s : State τ) : Prop :=
  ∀ t, (s.pc t).trying → s.drawn < s.loaded t + 2 ^ 16

end TicketLock
