import Evenk.TransitionSystem
import Evenk.PackedCounter
import Evenk.SharedTickets
import Mathlib.Data.Fintype.Card

/-!
# `shared_ticket_lock` (`spinlock.h`)

`head_` and `tail_` are `w`-bit words whose low half counts exclusive tickets and whose high half
counts shared ones. Each atomic operation is one step; a poll that finds the ticket not yet
served and the back-off change nothing and are left out. The ghost fields count the tickets
drawn and released in each mode.
-/
namespace SharedTicketLock

open TransitionSystem SharedTickets

variable (w : ℕ)

/-- `shared_step = 1 << (8 * sizeof(base_type) / 2)`. -/
def sharedStep : BitVec w := 1 <<< (w / 2)

/-- `exclusive_mask = shared_step - 1`. -/
def exclusiveMask : BitVec w := sharedStep w - 1

/-- `exclusive_step = 1`. -/
def exclusiveStep : BitVec w := 1

variable {w} in
theorem sharedStep_eq : sharedStep w = BitVec.ofNat w (2 ^ (w / 2)) := by
  rw [sharedStep, Nat.one_shiftLeft]
  rfl

variable {w} in
theorem exclusiveMask_eq : exclusiveMask w = BitVec.ofNat w (2 ^ (w / 2)) - 1 := by
  rw [exclusiveMask, sharedStep_eq]

inductive Pc (w : ℕ) where
  | idle
  /-- `lock`, spinning until `head_` equals the ticket it drew. -/
  | lockWait (tail : BitVec w)
  /-- `try_lock` has loaded `head_`. -/
  | tryLockTail (head : BitVec w)
  /-- `try_lock` has found `head == tail` and tries its CAS. -/
  | tryLockCas (tail : BitVec w)
  | exclusive
  /-- `unlock` has loaded `head_`. -/
  | unlockStore (head : BitVec w)
  /-- `lock_shared`, spinning until the low half of `head_` equals its masked ticket. -/
  | lockSharedWait (tail : BitVec w)
  | tryLockSharedTail (head : BitVec w)
  | tryLockSharedCas (tail : BitVec w)
  | shared
  deriving DecidableEq, Repr

namespace Pc

variable {w}

/-- Waiting for or holding the exclusive mode, from the draw of a ticket to `unlock`'s store. -/
def exclusiveActive : Pc w → Bool
  | .lockWait _ | .exclusive | .unlockStore _ => true
  | _ => false

/-- Waiting for or holding the shared mode. -/
def sharedActive : Pc w → Bool
  | .lockSharedWait _ | .shared => true
  | _ => false

def holdsExclusive : Pc w → Bool
  | .exclusive | .unlockStore _ => true
  | _ => false

def holdsShared : Pc w → Bool
  | .shared => true
  | _ => false

/-- Inside `try_lock` or `try_lock_shared`, between its load of `head_` and its CAS. -/
def trying : Pc w → Bool
  | .tryLockTail _ | .tryLockCas _ | .tryLockSharedTail _ | .tryLockSharedCas _ => true
  | _ => false

theorem holdsExclusive_iff {p : Pc w} :
    p.holdsExclusive ↔ p = .exclusive ∨ ∃ hd, p = .unlockStore hd := by
  cases p <;> simp [holdsExclusive]

theorem holdsShared_iff {p : Pc w} : p.holdsShared ↔ p = .shared := by
  cases p <;> simp [holdsShared]

theorem exclusiveActive_of_holds {p : Pc w} (h : p.holdsExclusive) : p.exclusiveActive := by
  rcases holdsExclusive_iff.mp h with rfl | ⟨hd, rfl⟩ <;> rfl

end Pc

structure State (w : ℕ) (τ : Type) where
  head : BitVec w
  tail : BitVec w
  pc : τ → Pc w
  drawn : Counts
  released : Counts
  ticket : τ → Counts
  loaded : τ → Counts

variable {w} {τ : Type}

def State.init : State w τ :=
  ⟨0, 0, fun _ => .idle, ⟨0, 0⟩, ⟨0, 0⟩, fun _ => ⟨0, 0⟩, fun _ => ⟨0, 0⟩⟩

variable [DecidableEq τ]

def State.setPc (s : State w τ) (t : τ) (p : Pc w) : State w τ :=
  { s with pc := Function.update s.pc t p }

/-- A ticket is drawn by `t`: `tail_` becomes `tail` and `t` moves to `p`. -/
def State.draw (s : State w τ) (t : τ) (tail : BitVec w) (p : Pc w) (drawn : Counts) :
    State w τ :=
  { s with
    tail := tail, pc := Function.update s.pc t p, drawn := drawn,
    ticket := Function.update s.ticket t s.drawn }

namespace State

variable (s : State w τ) (t : τ) (p : Pc w)

@[simp] theorem setPc_pc_self : (s.setPc t p).pc t = p := by simp [setPc]

theorem setPc_pc_ne {u : τ} (h : u ≠ t) : (s.setPc t p).pc u = s.pc u := by simp [setPc, h]

@[simp] theorem setPc_head : (s.setPc t p).head = s.head := rfl
@[simp] theorem setPc_tail : (s.setPc t p).tail = s.tail := rfl
@[simp] theorem setPc_drawn : (s.setPc t p).drawn = s.drawn := rfl
@[simp] theorem setPc_released : (s.setPc t p).released = s.released := rfl
@[simp] theorem setPc_ticket : (s.setPc t p).ticket = s.ticket := rfl
@[simp] theorem setPc_loaded : (s.setPc t p).loaded = s.loaded := rfl

end State

variable (w)

/-- One step of thread `t`. -/
inductive Step (t : τ) : State w τ → State w τ → Prop where
  /-- `lock`: `tail_.fetch_add(exclusive_step)`. -/
  | lockDraw {s} : s.pc t = .idle →
      Step t s (s.draw t (s.tail + exclusiveStep w) (.lockWait s.tail) s.drawn.addExclusive)
  /-- `lock`: a load of `head_` that finds the ticket served. -/
  | lockAcquire {s tk} : s.pc t = .lockWait tk → s.head = tk → Step t s (s.setPc t .exclusive)
  | tryLockHead {s} : s.pc t = .idle →
      Step t s { s.setPc t (.tryLockTail s.head) with
        loaded := Function.update s.loaded t s.released }
  | tryLockTail {s hd} : s.pc t = .tryLockTail hd →
      Step t s (s.setPc t (if hd = s.tail then .tryLockCas s.tail else .idle))
  /-- `tail_.compare_exchange_strong(tail, tail + exclusive_step)`. -/
  | tryLockCasOk {s tl} : s.pc t = .tryLockCas tl → s.tail = tl →
      Step t s (s.draw t (tl + exclusiveStep w) .exclusive s.drawn.addExclusive)
  | tryLockCasFail {s tl} : s.pc t = .tryLockCas tl → s.tail ≠ tl → Step t s (s.setPc t .idle)
  | unlockLoad {s} : s.pc t = .exclusive → Step t s (s.setPc t (.unlockStore s.head))
  /-- `head_.store(head + exclusive_step)`. -/
  | unlockStore {s hd} : s.pc t = .unlockStore hd →
      Step t s { s.setPc t .idle with
        head := hd + exclusiveStep w, released := s.released.addExclusive }
  /-- `lock_shared`: `tail_.fetch_add(shared_step)`, then `tail &= exclusive_mask`. -/
  | lockSharedDraw {s} : s.pc t = .idle →
      Step t s (s.draw t (s.tail + sharedStep w) (.lockSharedWait (s.tail &&& exclusiveMask w))
        s.drawn.addShared)
  | lockSharedAcquire {s tk} : s.pc t = .lockSharedWait tk → (s.head &&& exclusiveMask w) = tk →
      Step t s (s.setPc t .shared)
  | tryLockSharedHead {s} : s.pc t = .idle →
      Step t s { s.setPc t (.tryLockSharedTail s.head) with
        loaded := Function.update s.loaded t s.released }
  | tryLockSharedTail {s hd} : s.pc t = .tryLockSharedTail hd →
      Step t s (s.setPc t
        (if (hd &&& exclusiveMask w) = (s.tail &&& exclusiveMask w) then .tryLockSharedCas s.tail
         else .idle))
  | tryLockSharedCasOk {s tl} : s.pc t = .tryLockSharedCas tl → s.tail = tl →
      Step t s (s.draw t (tl + sharedStep w) .shared s.drawn.addShared)
  | tryLockSharedCasFail {s tl} : s.pc t = .tryLockSharedCas tl → s.tail ≠ tl →
      Step t s (s.setPc t .idle)
  /-- `head_.fetch_add(shared_step)`. -/
  | unlockShared {s} : s.pc t = .shared →
      Step t s { s.setPc t .idle with
        head := s.head + sharedStep w, released := s.released.addShared }

def system : System τ (State w τ) where
  init s := s = State.init
  step := Step w

variable [Fintype τ] {w}

def exclusiveThreads (s : State w τ) : Finset τ :=
  Finset.univ.filter fun t => (s.pc t).exclusiveActive

def sharedThreads (s : State w τ) : Finset τ :=
  Finset.univ.filter fun t => (s.pc t).sharedActive

/-- Fewer than `2 ^ (w / 2)` threads wait for or hold each mode. -/
def Bounded (s : State w τ) : Prop :=
  (exclusiveThreads s).card < 2 ^ (w / 2) ∧ (sharedThreads s).card < 2 ^ (w / 2)

/-- Inside `try_lock` or `try_lock_shared`, fewer than `2 ^ (w / 2)` tickets of each mode were
drawn beyond those released when it loaded `head_`. -/
def ShortTries (s : State w τ) : Prop :=
  ∀ t, (s.pc t).trying →
    s.drawn.exclusive < (s.loaded t).exclusive + 2 ^ (w / 2) ∧
      s.drawn.shared < (s.loaded t).shared + 2 ^ (w / 2)

end SharedTicketLock
