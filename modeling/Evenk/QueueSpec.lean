import Mathlib.Data.List.Basic

/-!
# Queue operations and the reference bounded queue

The status codes of `conqueue.h`, the calls of the queue interface, and a reference bounded FIFO
queue with a closed flag. A waiting call would block exactly where the reference answers `full`
or `empty` on an open queue.
-/
namespace QueueSpec

inductive QueueOpStatus where
  | success
  | empty
  | full
  | closed
  | busy
  deriving DecidableEq, Repr

/-- One call on a queue; a waiting call may carry a back-off policy of type `β`. -/
inductive Op (V β : Type*) where
  | waitPush (v : V) (backoff : Option β)
  | tryPush (v : V)
  | waitPop (backoff : Option β)
  | tryPop
  | close
  | isEmpty
  | isFull
  | isClosed

/-- What a call returns: nothing, a status, a status with the popped value, or a Boolean. -/
inductive Answer (V : Type*) where
  | done
  | status (s : QueueOpStatus)
  | popped (s : QueueOpStatus) (v : Option V)
  | bool (b : Bool)
  deriving DecidableEq, Repr

structure BoundedFifo (V : Type*) where
  capacity : ℕ
  items : List V
  closed : Bool

namespace BoundedFifo

variable {V β : Type*}

def empty (capacity : ℕ) : BoundedFifo V := ⟨capacity, [], false⟩

def push (q : BoundedFifo V) (v : V) : QueueOpStatus × BoundedFifo V :=
  if q.closed then (.closed, q)
  else if q.items.length = q.capacity then (.full, q)
  else (.success, { q with items := q.items ++ [v] })

def pop (q : BoundedFifo V) : QueueOpStatus × Option V × BoundedFifo V :=
  match q.items with
  | v :: vs => (.success, some v, { q with items := vs })
  | [] => if q.closed then (.closed, none, q) else (.empty, none, q)

def close (q : BoundedFifo V) : BoundedFifo V := { q with closed := true }

/-- A waiting call on the reference blocks where the non-waiting one would report a full or
an empty open queue. -/
def Blocks (q : BoundedFifo V) : Op V β → Prop
  | .waitPush _ _ => q.closed = false ∧ q.items.length = q.capacity
  | .waitPop _ => q.closed = false ∧ q.items = []
  | _ => False

def apply (q : BoundedFifo V) : Op V β → Answer V × BoundedFifo V
  | .waitPush v _ | .tryPush v => (.status (q.push v).1, (q.push v).2)
  | .waitPop _ | .tryPop => (.popped (q.pop).1 (q.pop).2.1, (q.pop).2.2)
  | .close => (.done, q.close)
  | .isEmpty => (.bool q.items.isEmpty, q)
  | .isFull => (.bool (q.items.length == q.capacity), q)
  | .isClosed => (.bool q.closed, q)

def run (q : BoundedFifo V) : List (Op V β) → List (Answer V) × BoundedFifo V
  | [] => ([], q)
  | op :: ops => ((q.apply op).1 :: ((q.apply op).2.run ops).1, ((q.apply op).2.run ops).2)

instance (q : BoundedFifo V) : (op : Op V β) → Decidable (q.Blocks op)
  | .waitPush _ _ => inferInstanceAs (Decidable (_ ∧ _))
  | .waitPop _ => decidable_of_iff (q.closed = false ∧ q.items.isEmpty = true)
      (and_congr_right fun _ => List.isEmpty_iff)
  | .tryPush _ | .tryPop | .close | .isEmpty | .isFull | .isClosed =>
      inferInstanceAs (Decidable False)

/-- The reference with its waiting calls: the answers up to the first call that would block,
and `none` if one does. -/
def waitRun (q : BoundedFifo V) : List (Op V β) → Option (List (Answer V) × BoundedFifo V)
  | [] => some ([], q)
  | op :: ops =>
    if q.Blocks op then none
    else ((q.apply op).2.waitRun ops).map fun x => ((q.apply op).1 :: x.1, x.2)

theorem pop_success {q : BoundedFifo V} {v : V} {vs : List V} (h : q.items = v :: vs) :
    q.pop = (.success, some v, { q with items := vs }) := by
  simp [pop, h]

theorem apply_capacity (q : BoundedFifo V) (op : Op V β) : (q.apply op).2.capacity = q.capacity := by
  cases op <;> simp only [apply, close] <;>
    first
    | rfl
    | (unfold push; split_ifs <;> rfl)
    | (unfold pop; split <;> (try split) <;> rfl)

theorem apply_closed_of_ne (q : BoundedFifo V) {op : Op V β} (hne : op ≠ .close) :
    (q.apply op).2.closed = q.closed := by
  cases op <;> simp only [apply] <;>
    first
    | exact absurd rfl hne
    | rfl
    | (unfold push; split_ifs <;> rfl)
    | (unfold pop; split <;> (try split) <;> rfl)

end BoundedFifo

theorem map_fst_cons {V γ : Type*} (o : Option (List (Answer V) × γ)) (a : Answer V) :
    (o.map fun x => (a :: x.1, x.2)).map Prod.fst = (o.map Prod.fst).map (a :: ·) := by
  cases o <;> rfl

end QueueSpec
