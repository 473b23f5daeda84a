import Evenk.BoundedQueueRing
import Evenk.TransitionSystem
import Mathlib.Algebra.Group.Nat.Defs

/-!
# The bounded ring under threads (`bounded_queue.h`, `ring`)

Each atomic operation on a slot word, `head_`, `tail_` or `closed_`, and each assignment of a
value into or out of a slot, is one step. A sleep in `slot.wait` only delays its load and may
end spuriously. `is_past_last` and the `fetch_add` of `close` are one step each, which is exact
when `close` is called once. The ghost fields number the tickets and record what each push and
pop did; the code never reads them.
-/
namespace BoundedQueueThreads

open BoundedQueue BoundedQueueRing BoundedQueueRing.BoundedRing TransitionSystem

variable {V τ : Type}

/-- `slot.value = value`, the first half of `put_value`. -/
def setValue (r : BoundedRing V) (i : CountT) (v : V) : BoundedRing V :=
  { r with ring := Function.update r.ring i { r.ring i with value := v } }

/-- What a consumer does after its `slot.wake(token + mask_ + 1)`. -/
inductive AfterWake (V : Type) where
  /-- `get_value` has moved `value` out, and the call returns `success`. -/
  | success (value : V)
  /-- `wait_head` returned `empty` on `status_invalid`: `wait_pop` draws a new ticket. -/
  | retry
  /-- `try_pop` found `status_invalid` and returns `empty`. -/
  | empty
  /-- The move out of the slot threw, and the exception goes on to the caller. -/
  | rethrow

inductive Pc (V : Type) where
  | idle
  /-- `wait_push(value)` with ticket `count`, before a load of its slot word. -/
  | pushLoad (count : CountT) (value : V)
  /-- The word `t` has another ticket: `is_past_last(count)`. -/
  | pushCheck (count : CountT) (value : V) (t : TokenT)
  /-- In `slot.wait(t)`. -/
  | pushWait (count : CountT) (value : V) (t : TokenT)
  /-- `put_value`: `slot.value = value`. -/
  | pushPut (count : CountT) (value : V)
  /-- `slot.wake(token | status)`, with `status_valid`, or `status_invalid` after a throw. -/
  | pushWake (count : CountT) (status : TokenT)
  /-- `wait_pop`, at the top of its loop: `head_.fetch_add(1)`. -/
  | popDraw
  /-- The first loop of `wait_head`, waiting for the ticket. -/
  | popLoad (count : CountT)
  | popCheck (count : CountT) (t : TokenT)
  | popWait (count : CountT) (t : TokenT)
  /-- The second loop of `wait_head`, waiting for a status. -/
  | popStatusLoad (count : CountT)
  | popStatusCheck (count : CountT) (t : TokenT)
  | popStatusWait (count : CountT) (t : TokenT)
  /-- `get_value`: `value = std::move(slot.value)`. -/
  | popGet (count : CountT)
  /-- `slot.wake(token + mask_ + 1)`. -/
  | popWake (count : CountT) (next : AfterWake V)
  /-- `try_pop` has loaded `head_` and loads the slot word. -/
  | tryPopLoad (count : CountT)
  /-- `try_pop` found no value for its ticket: `is_past_last(count)`. -/
  | tryPopCheck (count : CountT)
  /-- `head_.try_increment(count)`, with the word `t` it loaded. -/
  | tryPopCas (count : CountT) (t : TokenT)
  /-- `last_ = tail_.fetch_add(size)`. -/
  | closeReserve
  | closeStore
  /-- `slot.close()` on the slot `(last_ + i) & mask_`. -/
  | closeSlot (i : ℕ)

/-- The part of the ring a thread is in. -/
inductive Role where
  | none
  /-- Inside `wait_push`, holding a ticket of `tail_`. -/
  | push
  /-- Inside `wait_pop` between draws of a ticket. -/
  | draw
  /-- Holding a ticket of `head_`, from `wait_pop` or from a `try_pop` whose increment passed. -/
  | pop
  /-- Inside `try_pop` before its increment. -/
  | tryPop
  | close
  deriving DecidableEq, Repr

namespace Pc

def role : Pc V → Role
  | .idle => .none
  | .pushLoad .. | .pushCheck .. | .pushWait .. | .pushPut .. | .pushWake .. => .push
  | .popDraw => .draw
  | .popLoad _ | .popCheck .. | .popWait .. | .popStatusLoad _ | .popStatusCheck ..
  | .popStatusWait .. | .popGet _ | .popWake .. => .pop
  | .tryPopLoad _ | .tryPopCheck _ | .tryPopCas .. => .tryPop
  | .closeReserve | .closeStore | .closeSlot _ => .close

/-- The count a thread holds: its ticket in `wait_push` or `wait_pop`, the `head_` it loaded in
`try_pop`. -/
def count : Pc V → Option CountT
  | .pushLoad c _ | .pushCheck c _ _ | .pushWait c _ _ | .pushPut c _ | .pushWake c _
  | .popLoad c | .popCheck c _ | .popWait c _ | .popStatusLoad c | .popStatusCheck c _
  | .popStatusWait c _ | .popGet c | .popWake c _ | .tryPopLoad c | .tryPopCheck c
  | .tryPopCas c _ => some c
  | .idle | .popDraw | .closeReserve | .closeStore | .closeSlot _ => none

/-- The count and word of a thread inside `slot.wait(t)`. -/
def waitingOn : Pc V → Option (CountT × TokenT)
  | .pushWait c _ t | .popWait c t | .popStatusWait c t => some (c, t)
  | .idle | .pushLoad .. | .pushCheck .. | .pushPut .. | .pushWake .. | .popDraw | .popLoad _
  | .popCheck .. | .popStatusLoad _ | .popStatusCheck .. | .popGet _ | .popWake ..
  | .tryPopLoad _ | .tryPopCheck _ | .tryPopCas .. | .closeReserve | .closeStore
  | .closeSlot _ => none

/-- Where `slot.wait` returns to: the load of its loop. -/
def afterWait : Pc V → Pc V
  | .pushWait c v _ => .pushLoad c v
  | .popWait c _ => .popLoad c
  | .popStatusWait c _ => .popStatusLoad c
  | p => p

end Pc

/-- `wait_head` once the ticket has matched, on the word `t`: the status loop, `empty` on
`status_invalid` (after which `wait_pop` wakes the slot and retries), or the value. -/
def popAfterStatus (c : CountT) (t : TokenT) : Pc V :=
  if statusEmpty t then .popStatusCheck c t
  else if t &&& statusValid = 0 then .popWake c .retry
  else .popGet c

def popAfterTicket (c : CountT) (t : TokenT) : Pc V :=
  if ticketMismatch (token c) t then .popCheck c t else popAfterStatus c t

def AfterWake.pc : AfterWake V → Pc V
  | .retry => .popDraw
  | .success _ | .empty | .rethrow => .idle

structure State (V τ : Type) where
  mem : BoundedRing V
  pc : τ → Pc V
  headN : ℕ
  tailN : ℕ
  lastN : ℕ
  ticket : τ → ℕ
  lap : ℕ → ℕ
  written : ℕ → Option V
  outcomes : List (ℕ × AfterWake V)
  closes : ℕ

namespace State

/-- The ring as `ring(size)` leaves it, with every thread outside the ring. -/
def init [Inhabited V] (size : CountT) : State V τ :=
  ⟨BoundedRing.init size, fun _ => .idle, 0, 0, 0, fun _ => 0, fun i => i, fun _ => none, [], 0⟩

/-- `mask_ + 1`, the size, as a number. -/
def size (s : State V τ) : ℕ := (s.mem.mask + 1).toNat

/-- The word of the slot of `count`, `ring_[count & mask_]`. -/
def word (s : State V τ) (c : CountT) : TokenT := (s.mem.ring (c &&& s.mem.mask)).word

def value (s : State V τ) (c : CountT) : V := (s.mem.ring (c &&& s.mem.mask)).value

variable [DecidableEq τ]

def setPc (s : State V τ) (t : τ) (p : Pc V) : State V τ :=
  { s with pc := Function.update s.pc t p }

section SetPc

variable (s : State V τ) (t : τ) (p : Pc V)

@[simp] theorem setPc_pc_self : (s.setPc t p).pc t = p := by simp [setPc]

theorem setPc_pc_ne {u : τ} (h : u ≠ t) : (s.setPc t p).pc u = s.pc u := by simp [setPc, h]

@[simp] theorem setPc_mem : (s.setPc t p).mem = s.mem := rfl
@[simp] theorem setPc_headN : (s.setPc t p).headN = s.headN := rfl
@[simp] theorem setPc_tailN : (s.setPc t p).tailN = s.tailN := rfl
@[simp] theorem setPc_lastN : (s.setPc t p).lastN = s.lastN := rfl
@[simp] theorem setPc_ticket : (s.setPc t p).ticket = s.ticket := rfl
@[simp] theorem setPc_lap : (s.setPc t p).lap = s.lap := rfl
@[simp] theorem setPc_written : (s.setPc t p).written = s.written := rfl
@[simp] theorem setPc_outcomes : (s.setPc t p).outcomes = s.outcomes := rfl
@[simp] theorem setPc_closes : (s.setPc t p).closes = s.closes := rfl

end SetPc

end State

variable [DecidableEq τ]

/-- One step of thread `t`, for the template arguments `P`. -/
inductive Step (P : Policy) (throws : Bool) (t : τ) : State V τ → State V τ → Prop where
  /-- `wait_push(value)`: `tail_.fetch_add(1)`. -/
  | pushDraw {s} (v : V) : s.pc t = .idle →
      Step P throws t s { s.setPc t (.pushLoad s.mem.tail v) with
        mem := { s.mem with tail := s.mem.tail + 1 }, tailN := s.tailN + 1,
        ticket := Function.update s.ticket t s.tailN }
  /-- `wait_tail`: a load of the word and the ticket test. -/
  | pushLoad {s c v} : s.pc t = .pushLoad c v →
      Step P throws t s (s.setPc t
        (if ticketMismatch (token c) (s.word c) then .pushCheck c v (s.word c) else .pushPut c v))
  | pushCheck {s c v w} : s.pc t = .pushCheck c v w →
      Step P throws t s (s.setPc t (if s.mem.isPastLast c then .idle else .pushWait c v w))
  | pushPut {s c v} : s.pc t = .pushPut c v →
      Step P throws t s { s.setPc t (.pushWake c statusValid) with
        mem := setValue s.mem (c &&& s.mem.mask) v,
        written := Function.update s.written (s.ticket t) (some v) }
  /-- The assignment into the slot throws; `put_value` marks the slot invalid and rethrows. -/
  | pushPutThrow {s c v} (junk : V) : throws = true → s.pc t = .pushPut c v →
      Step P throws t s { s.setPc t (.pushWake c statusInvalid) with
        mem := setValue s.mem (c &&& s.mem.mask) junk }
  | pushWake {s c st} : s.pc t = .pushWake c st →
      Step P throws t s { s.setPc t .idle with
        mem := s.mem.wake (c &&& s.mem.mask) (token c ||| st) }
  | popCall {s} : s.pc t = .idle → Step P throws t s (s.setPc t .popDraw)
  /-- `wait_pop`: `head_.fetch_add(1)`. -/
  | popDraw {s} : s.pc t = .popDraw →
      Step P throws t s { s.setPc t (.popLoad s.mem.head) with
        mem := { s.mem with head := s.mem.head + 1 }, headN := s.headN + 1,
        ticket := Function.update s.ticket t s.headN }
  | popLoad {s c} : s.pc t = .popLoad c →
      Step P throws t s (s.setPc t (popAfterTicket c (s.word c)))
  | popCheck {s c w} : s.pc t = .popCheck c w →
      Step P throws t s (s.setPc t (if s.mem.isPastLast c then .idle else .popWait c w))
  | popStatusLoad {s c} : s.pc t = .popStatusLoad c →
      Step P throws t s (s.setPc t (popAfterStatus c (s.word c)))
  | popStatusCheck {s c w} : s.pc t = .popStatusCheck c w →
      Step P throws t s (s.setPc t (if s.mem.isPastLast c then .idle else .popStatusWait c w))
  /-- The futex class's `compare_exchange_strong(t, t | status_waiting)` inside `wait`. -/
  | waitFlag {s c w} : (s.pc t).waitingOn = some (c, w) → P.slot = .futex → s.word c = w →
      Step P throws t s { s with mem := s.mem.setWord (c &&& s.mem.mask) (w ||| statusWaiting) }
  /-- `slot.wait` returns to the load. -/
  | waitReturn {s} : (s.pc t).waitingOn.isSome → Step P throws t s (s.setPc t (s.pc t).afterWait)
  | popGet {s c} : s.pc t = .popGet c →
      Step P throws t s (s.setPc t (.popWake c (.success (s.value c))))
  /-- The move out of the slot throws; `get_value` still passes the slot on. -/
  | popGetThrow {s c} (junk : V) : throws = true → s.pc t = .popGet c →
      Step P throws t s { s.setPc t (.popWake c .rethrow) with
        mem := setValue s.mem (c &&& s.mem.mask) junk }
  | popWake {s c n} : s.pc t = .popWake c n →
      Step P throws t s { s.setPc t n.pc with
        mem := s.mem.wake (c &&& s.mem.mask) (token c + s.mem.mask + 1),
        lap := Function.update s.lap (s.ticket t % s.size) (s.lap (s.ticket t % s.size) + s.size),
        outcomes := s.outcomes ++ [(s.ticket t, n)] }
  /-- `try_pop`: `head_.load()`. -/
  | tryPopHead {s} : s.pc t = .idle →
      Step P throws t s { s.setPc t (.tryPopLoad s.mem.head) with
        ticket := Function.update s.ticket t s.headN }
  | tryPopLoad {s c} : s.pc t = .tryPopLoad c →
      Step P throws t s (s.setPc t
        (if ticketMismatch (token c) (s.word c) || statusEmpty (s.word c) then .tryPopCheck c
         else .tryPopCas c (s.word c)))
  /-- `is_past_last` decides between `closed` and `empty`; either way `try_pop` returns. -/
  | tryPopCheck {s c} : s.pc t = .tryPopCheck c → Step P throws t s (s.setPc t .idle)
  | tryPopCasFail {s c w} : s.pc t = .tryPopCas c w → tryIncrement P.consumer s.mem.head c = none →
      Step P throws t s (s.setPc t .idle)
  /-- The increment passed: skip an invalid slot, or take the value. -/
  | tryPopCasOk {s c w h} : s.pc t = .tryPopCas c w →
      tryIncrement P.consumer s.mem.head c = some h →
      Step P throws t s { s.setPc t (if w &&& statusValid = 0 then .popWake c .empty else .popGet c)
        with mem := { s.mem with head := h }, headN := s.headN + 1 }
  /-- `close()`: `closed_.compare_exchange_strong(closing, open)`. -/
  | closeCall {s} : s.pc t = .idle →
      Step P throws t s
        (if s.mem.closed = .closing then
          { s.setPc t .idle with mem := { s.mem with closed := .open }, closes := s.closes + 1 }
         else { s.setPc t .closeReserve with closes := s.closes + 1 })
  | closeReserve {s} : s.pc t = .closeReserve →
      Step P throws t s { s.setPc t .closeStore with
        mem := { s.mem with last := s.mem.tail, tail := s.mem.tail + (s.mem.mask + 1) },
        lastN := s.tailN, tailN := s.tailN + s.size }
  | closeStore {s} : s.pc t = .closeStore →
      Step P throws t s { s.setPc t (.closeSlot 0) with mem := { s.mem with closed := .closed } }
  | closeSlot {s i} : s.pc t = .closeSlot i → i < s.size →
      Step P throws t s { s.setPc t (.closeSlot (i + 1)) with
        mem := s.mem.closeSlot P.slot ((s.mem.last + UInt32.ofNat i) &&& s.mem.mask) }
  | closeDone {s i} : s.pc t = .closeSlot i → s.size ≤ i → Step P throws t s (s.setPc t .idle)

def system [Inhabited V] (P : Policy) (size : CountT) (throws : Bool) : System τ (State V τ) where
  init s := s = State.init size
  step := Step P throws

/-- Two counts less than `2 ^ 31` apart. -/
def Near (a b : ℕ) : Prop := a < b + 2 ^ 31 ∧ b < a + 2 ^ 31

/-- No ticket in flight is `2 ^ 31` or more away from `head_`, nor, once the ring is closed,
from `last_`. -/
def Window (s : State V τ) : Prop :=
  ∀ t, (s.pc t).role = .push ∨ (s.pc t).role = .pop ∨ (s.pc t).role = .tryPop →
    Near (s.ticket t) s.headN ∧ (s.mem.closed = .closed → Near (s.ticket t) s.lastN)

/-- The consumers of the ring: inside `wait_pop` or `try_pop`. -/
def Consumer (p : Pc V) : Prop := p.role = .draw ∨ p.role = .pop ∨ p.role = .tryPop

/-- A `detail::counter` for `head_` has one consumer thread at a time. -/
def SingleConsumer (P : Policy) (s : State V τ) : Prop :=
  P.consumer = .counter → ∀ t u, Consumer (s.pc t) → Consumer (s.pc u) → t = u

/-- The runs the ring is used in: one `close`, tickets within the window, and no more
consumers than the consumers' counter allows. -/
def Assumptions (P : Policy) (s : State V τ) : Prop :=
  s.closes ≤ 1 ∧ Window s ∧ SingleConsumer P s

end BoundedQueueThreads
