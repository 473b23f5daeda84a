import Evenk.BoundedQueueToken
import Evenk.QueueSpec

/-!
# The bounded ring, one call at a time (`bounded_queue.h`, `ring`)

The ring's calls as one thread makes them: the slot array, `head_`, `tail_`, the close flag and
`last_`. A waiting loop runs on fuel, and `none` is a call that does not return. `is_empty`,
`is_full`, `try_push` and `try_pop` do not compile as written: they call
`load(std::memory_order)` on counters whose `load()` takes no argument. They are read here with
`load()`.
-/
namespace BoundedQueueRing

open BoundedQueue QueueSpec

inductive SlotKind where
  | spin
  | yield
  | futex
  | synch
  deriving DecidableEq, Repr

/-- `detail::counter` and `detail::atomic_counter`. -/
inductive CounterKind where
  | counter
  | atomicCounter
  deriving DecidableEq, Repr

/-- The template arguments `Slot`, `ProducerCounter` and `ConsumerCounter`. -/
structure Policy where
  slot : SlotKind
  producer : CounterKind
  consumer : CounterKind

/-- `try_increment(count)` on a counter that holds `current`. -/
def tryIncrement : CounterKind → CountT → CountT → Option CountT
  | .counter, _, count => some (count + 1)
  | .atomicCounter, current, count => if current = count then some (count + 1) else none

/-- `Slot::close()` on the word. -/
def slotClose : SlotKind → TokenT → TokenT
  | .spin, w | .yield, w => w
  | .futex, w | .synch, w => w ||| statusClosed

/-- `Slot::wait(t)` on the word `w`: the word read back, or `none` where the thread goes to
sleep. The futex class sleeps after its CAS sets the waiting bit or finds it set, the synch
class when the word still equals `t`. -/
def slotWait : SlotKind → TokenT → TokenT → Option TokenT
  | .spin, w, _ | .yield, w, _ => some w
  | .futex, w, t => if w = t ∨ w = (t ||| statusWaiting) then none else some w
  | .synch, w, t => if t = w then none else some w

structure RingSlot (V : Type) where
  word : TokenT
  value : V

structure BoundedRing (V : Type) where
  ring : CountT → RingSlot V
  mask : CountT
  closed : CloseT
  last : CountT
  head : CountT
  tail : CountT

/-- The size checks of `ring::create`; the allocation is not modelled. -/
def create (size : CountT) : Except String Unit :=
  if size < minSize then .error ("bounded_queue size must be at least" ++ toString minSize)
  else if size &&& (size - 1) ≠ 0 then .error "bounded_queue size must be a power of two"
  else .ok ()

namespace BoundedRing

variable {V β : Type}

/-- The ring that `ring(size)` builds once `create` has accepted the size: slot `i` starts
with the word `i & ticket_mask` and a default value. `last_` is not initialised by the
source and reads as `0` here; it is read only once the ring is closed. -/
def init [Inhabited V] (size : CountT) : BoundedRing V :=
  { ring := fun i => ⟨i &&& ticketMask, default⟩, mask := size - 1, closed := .open,
    last := 0, head := 0, tail := 0 }

def new [Inhabited V] (size : CountT) : Except String (BoundedRing V) := do
  create size
  pure (init size)

def setWord (r : BoundedRing V) (i : CountT) (t : TokenT) : BoundedRing V :=
  { r with ring := Function.update r.ring i { r.ring i with word := t } }

/-- `slot.wake(t)`: every slot class stores `t`; the futex and synch classes then wake the
sleepers, of which there are none here. -/
def wake (r : BoundedRing V) (i : CountT) (t : TokenT) : BoundedRing V := r.setWord i t

def closeSlot (k : SlotKind) (r : BoundedRing V) (i : CountT) : BoundedRing V :=
  r.setWord i (slotClose k (r.ring i).word)

def close (k : SlotKind) (r : BoundedRing V) : BoundedRing V :=
  let size := r.mask + 1
  if r.closed = .closing then { r with closed := .open }
  else
    let r := { r with last := r.tail, tail := r.tail + size }
    let r := { r with closed := .closed }
    (List.range size.toNat).foldl (fun r i => r.closeSlot k ((r.last + UInt32.ofNat i) &&& r.mask)) r

def isClosed (r : BoundedRing V) : Bool := r.closed ≠ .open

/-- `is_empty`, with `tail_.load()` and `head_.load()` for the loads the source writes. -/
def isEmpty (r : BoundedRing V) : Bool := (r.tail - r.head).toInt32 ≤ 0

/-- `is_full`, read the same way; the signed difference is compared with the unsigned `mask_`,
so it is converted back to unsigned first. -/
def isFull (r : BoundedRing V) : Bool := r.mask < (r.tail - r.head).toInt32.toUInt32

def isPastLast (r : BoundedRing V) (count : CountT) : Bool :=
  if r.closed ≠ .closed then false else (r.last - count).toInt32 ≤ 0

/-- How a waiting loop ends: `closed`, or at a word `t` that ends it, with the back-off
state it has reached. -/
inductive LoopExit (β : Type) where
  | closed
  | done (waiting : Bool) (b : β) (t : TokenT)

/-- The loops of `wait_tail` and `wait_head`: while `stay t`, test `is_past_last`, then wait
on the slot once the back-off ceiling has been reached (`waiting`), and otherwise call the
back-off and read the word again, by a load (`reload`) or by a wait. The loops of the
overloads without back-off are those that start with `waiting` set. -/
def waitLoop (k : SlotKind) (r : BoundedRing V) (i count : CountT) (stay : TokenT → Bool)
    (reload : Bool) (bo : β → Bool × β) : ℕ → Bool → β → TokenT → Option (LoopExit β)
  | 0, _, _, _ => none
  | fuel + 1, waiting, b, t =>
    if !stay t then some (.done waiting b t)
    else if r.isPastLast count then some .closed
    else if waiting then
      match slotWait k (r.ring i).word t with
      | some t' => waitLoop k r i count stay reload bo fuel waiting b t'
      | none => none
    else
      let w := (bo b).1
      if reload then waitLoop k r i count stay reload bo fuel w (bo b).2 (r.ring i).word
      else
        match slotWait k (r.ring i).word t with
        | some t' => waitLoop k r i count stay reload bo fuel w (bo b).2 t'
        | none => none

def ticketMismatch (token t : TokenT) : Bool := t &&& ticketMask ≠ token

def statusEmpty (t : TokenT) : Bool := t &&& statusMask = 0

/-- `wait_tail`, with the back-off `b` or, for `none`, without. -/
def waitTail (k : SlotKind) (r : BoundedRing V) (i count token : TokenT) (bo : β → Bool × β)
    (backoff : Option β) (b₀ : β) (fuel : ℕ) : Option QueueOpStatus :=
  match waitLoop k r i count (ticketMismatch token) true bo fuel backoff.isNone
      (backoff.getD b₀) (r.ring i).word with
  | some (.done ..) => some .success
  | some .closed => some .closed
  | none => none

/-- `wait_head`: the ticket loop, then the status loop with the back-off state carried on. -/
def waitHead (k : SlotKind) (r : BoundedRing V) (i count token : TokenT) (bo : β → Bool × β)
    (backoff : Option β) (b₀ : β) (fuel : ℕ) : Option QueueOpStatus :=
  match waitLoop k r i count (ticketMismatch token) false bo fuel backoff.isNone
      (backoff.getD b₀) (r.ring i).word with
  | some (.done waiting b t) =>
    match waitLoop k r i count statusEmpty false bo fuel waiting b t with
    | some (.done _ _ t) => if t &&& statusValid = 0 then some .empty else some .success
    | some .closed => some .closed
    | none => none
  | some .closed => some .closed
  | none => none

/-- `put_value`: the value, then the word `token | status_valid`. -/
def putValue (r : BoundedRing V) (i token : TokenT) (v : V) : BoundedRing V :=
  { r with ring := Function.update r.ring i { r.ring i with value := v } }.wake i
    (token ||| statusValid)

/-- `get_value`: the value, then the token of the slot's next lap. -/
def getValue (r : BoundedRing V) (i token : TokenT) : V × BoundedRing V :=
  ((r.ring i).value, r.wake i (token + r.mask + 1))

def waitPush (P : Policy) (r : BoundedRing V) (v : V) (bo : β → Bool × β) (backoff : Option β)
    (b₀ : β) (fuel : ℕ) : Option (QueueOpStatus × BoundedRing V) :=
  let count := r.tail
  let r := { r with tail := r.tail + 1 }
  let i := count &&& r.mask
  match r.waitTail P.slot i count (token count) bo backoff b₀ fuel with
  | some .success => some (.success, r.putValue i (token count) v)
  | some s => some (s, r)
  | none => none

def waitPopLoop (P : Policy) (bo : β → Bool × β) (backoff : Option β) (b₀ : β) :
    ℕ → BoundedRing V → Option (QueueOpStatus × Option V × BoundedRing V)
  | 0, _ => none
  | fuel + 1, r =>
    let count := r.head
    let r := { r with head := r.head + 1 }
    let i := count &&& r.mask
    match r.waitHead P.slot i count (token count) bo backoff b₀ (fuel + 1) with
    | some .success => some (.success, some (r.getValue i (token count)).1,
        (r.getValue i (token count)).2)
    | some .empty => waitPopLoop P bo backoff b₀ fuel (r.wake i (token count + r.mask + 1))
    | some s => some (s, none, r)
    | none => none

def waitPop (P : Policy) (r : BoundedRing V) (bo : β → Bool × β) (backoff : Option β) (b₀ : β)
    (fuel : ℕ) : Option (QueueOpStatus × Option V × BoundedRing V) :=
  waitPopLoop P bo backoff b₀ fuel r

/-- `try_push`, with `tail_.load()`. The source increments `head_`, the consumers' counter, at
this step. -/
def tryPush (P : Policy) (r : BoundedRing V) (v : V) : QueueOpStatus × BoundedRing V :=
  let count := r.tail
  let i := count &&& r.mask
  if ticketMismatch (token count) (r.ring i).word then
    (if r.isPastLast count then .closed else .empty, r)
  else
    match tryIncrement P.consumer r.head count with
    | none => (.full, r)
    | some h => (.success, { r with head := h }.putValue i (token count) v)

/-- `try_pop`, with `head_.load()`. -/
def tryPop (P : Policy) (r : BoundedRing V) : QueueOpStatus × Option V × BoundedRing V :=
  let count := r.head
  let i := count &&& r.mask
  let t := (r.ring i).word
  if ticketMismatch (token count) t || statusEmpty t then
    (if r.isPastLast count then .closed else .empty, none, r)
  else
    match tryIncrement P.consumer r.head count with
    | none => (.empty, none, r)
    | some h =>
      let r := { r with head := h }
      if t &&& statusValid = 0 then (.empty, none, r.wake i (token count + r.mask + 1))
      else (.success, some (r.getValue i (token count)).1, (r.getValue i (token count)).2)

/-- One call of the queue interface; `b₀` stands in for a back-off the call does not take. -/
def apply (P : Policy) (bo : β → Bool × β) (b₀ : β) (fuel : ℕ) (r : BoundedRing V) :
    Op V β → Option (Answer V × BoundedRing V)
  | .waitPush v backoff =>
    (r.waitPush P v bo backoff b₀ fuel).map fun x => (.status x.1, x.2)
  | .tryPush v => some (.status (r.tryPush P v).1, (r.tryPush P v).2)
  | .waitPop backoff => (r.waitPop P bo backoff b₀ fuel).map fun x => (.popped x.1 x.2.1, x.2.2)
  | .tryPop => some (.popped (r.tryPop P).1 (r.tryPop P).2.1, (r.tryPop P).2.2)
  | .close => some (.done, r.close P.slot)
  | .isEmpty => some (.bool r.isEmpty, r)
  | .isFull => some (.bool r.isFull, r)
  | .isClosed => some (.bool r.isClosed, r)

/-- Calls one after another; `none` as soon as one does not return. -/
def run (P : Policy) (bo : β → Bool × β) (b₀ : β) (fuel : ℕ) :
    BoundedRing V → List (Op V β) → Option (List (Answer V) × BoundedRing V)
  | r, [] => some ([], r)
  | r, op :: ops =>
    match r.apply P bo b₀ fuel op with
    | some (a, r') => (run P bo b₀ fuel r' ops).map fun x => (a :: x.1, x.2)
    | none => none

end BoundedRing

end BoundedQueueRing
