import Evenk.SynchQueue

/-!
# The queue iterators (`conqueue.h`)

A queue is given by its two waiting calls, each `none` where it would wait for good. `std::copy`
into a `queue_output_iterator` does not compile: the `const` `operator*` and `operator++` return
`*this` as a non-`const` reference. Values are written by the loop that assigns each to the
iterator and read by the loop from `queue_input_iterator(queue)` to the default iterator.
-/
namespace QueueIterators

open QueueSpec SynchQueue

variable {Q V : Type}

/-- The waiting calls that the iterators make on a queue of type `Q`. -/
structure WaitingCalls (Q V : Type) where
  /-- `wait_push(value)`: the status, and the queue after the call. -/
  waitPush : Q → V → Option (QueueOpStatus × Q)
  /-- `wait_pop(value)`: the status, the value written back and the queue after the call. -/
  waitPop : Q → V → Option (QueueOpStatus × V × Q)

/-- `queue_input_iterator`: whether `queue_` is set, and `value_`. -/
structure InputIterator (V : Type) where
  hasQueue : Bool
  value : V

variable (calls : WaitingCalls Q V)

/-- `pop_value()`: `wait_pop(value_)`; on `closed` the queue pointer is cleared. -/
def popValue (q : Q) (it : InputIterator V) : Option (Q × InputIterator V) :=
  (calls.waitPop q it.value).map fun r => (r.2.2, ⟨decide (r.1 ≠ .closed), r.2.1⟩)

/-- The constructor `queue_input_iterator(queue)`: `value_` is default-constructed, then
`pop_value()`. -/
def begin [Inhabited V] (q : Q) : Option (Q × InputIterator V) := popValue calls q ⟨true, default⟩

/-- The loop from `it`: while `it != queue_input_iterator()`, which compares queue pointers, visit
`*it` and do `++it`. `none` if a pop would wait for good, or after `fuel` visits. -/
def visit : ℕ → Q → InputIterator V → Option (List V × Q)
  | fuel, q, it =>
    if it.hasQueue then
      match fuel with
      | 0 => none
      | fuel + 1 =>
        (popValue calls q it).bind fun r => (visit fuel r.1 r.2).map fun x => (it.value :: x.1, x.2)
    else some ([], q)

/-- `for (queue_input_iterator it(queue); it != queue_input_iterator(); ++it)`. -/
def rangeFor [Inhabited V] (fuel : ℕ) (q : Q) : Option (List V × Q) :=
  (begin calls q).bind fun r => visit calls fuel r.1 r.2

/-- `out = value` on a `queue_output_iterator`: `wait_push(value)`; a status other than
`success` clears the iterator's queue pointer and is thrown. -/
def assign (q : Q) (value : V) : Option (Except QueueOpStatus Q) :=
  (calls.waitPush q value).map fun r => if r.1 = .success then .ok r.2 else .error r.1

/-- `for (auto &v : values) out = v;` with `out` a `queue_output_iterator(queue)`: one
assignment each, up to the first that throws. -/
def copy : Q → List V → Option (Except QueueOpStatus Q)
  | q, [] => some (.ok q)
  | q, v :: vs => (assign calls q v).bind fun
    | .ok q' => copy q' vs
    | .error st => some (.error st)

/-! ## The loop, call by call -/

variable {calls}

theorem visit_end (fuel : ℕ) (q : Q) (v : V) : visit calls fuel q ⟨false, v⟩ = some ([], q) := by
  cases fuel <;> rfl

theorem visit_success {fuel : ℕ} {q q' : Q} {x v : V}
    (h : calls.waitPop q x = some (.success, v, q')) :
    visit calls (fuel + 1) q ⟨true, x⟩ = (visit calls fuel q' ⟨true, v⟩).map fun r => (x :: r.1, r.2) := by
  simp only [visit, popValue, h, if_true, Option.map_some, Option.bind_some]
  rfl

theorem visit_closed {fuel : ℕ} {q q' : Q} {x v : V}
    (h : calls.waitPop q x = some (.closed, v, q')) :
    visit calls (fuel + 1) q ⟨true, x⟩ = some ([x], q') := by
  simp only [visit, popValue, h, if_true, Option.map_some, Option.bind_some]
  rw [show decide (QueueOpStatus.closed ≠ .closed) = false from rfl, visit_end]
  rfl

theorem visit_blocked {fuel : ℕ} {q : Q} {x : V} (h : calls.waitPop q x = none) :
    visit calls (fuel + 1) q ⟨true, x⟩ = none := by
  simp only [visit, popValue, h, if_true, Option.map_none, Option.bind_none]

theorem copy_cons_ok {q q' : Q} {v : V} (vs : List V) (h : calls.waitPush q v = some (.success, q')) :
    copy calls q (v :: vs) = copy calls q' vs := by
  simp only [copy, assign, h, Option.map_some, if_true, Option.bind_some]

/-! ## `synch_queue` with one thread -/

/-- `synch_queue`'s waiting calls made by a thread alone, on plain values. `wait_push` is
`try_push`, that is `locked_push`. `wait_pop` is `locked_pop`, and on `empty` a wait on `cond_`
that no other thread ends. -/
def synchCalls : WaitingCalls (SynchQueue V) V where
  waitPush q v := match lockedPush plain () q v with
    | .ok r => some (r.1, r.2.2.1)
    | .error e => e.elim
  waitPop q v := match lockedPop plain () q v with
    | .ok r => if r.1 = .empty then none else some (r.1, r.2.2.2, r.2.2.1)
    | .error e => e.elim

theorem synchCalls_waitPush_open {q : SynchQueue V} (hc : q.closed = false) (v : V) :
    synchCalls.waitPush q v = some (.success, { q with queue := q.queue ++ [v] }) := by
  simp only [synchCalls, lockedPush_open plain hc rfl]

theorem synchCalls_waitPop_cons {q : SynchQueue V} {v : V} {rest : List V}
    (hq : q.queue = v :: rest) (d : V) :
    synchCalls.waitPop q d = some (.success, v, { q with queue := rest }) := by
  simp [synchCalls, lockedPop, hq, plain]

theorem synchCalls_waitPop_nil (q : SynchQueue V) (hq : q.queue = []) (d : V) :
    synchCalls.waitPop q d = if q.closed then some (.closed, d, q) else none := by
  cases hc : q.closed <;> simp [synchCalls, lockedPop_empty _ hq, hc]

theorem copy_open (q : SynchQueue V) (hc : q.closed = false) (vs : List V) :
    copy synchCalls q vs = some (.ok { q with queue := q.queue ++ vs }) := by
  induction vs generalizing q with
  | nil => simp [copy]
  | cons v vs ih =>
    rw [copy_cons_ok vs (synchCalls_waitPush_open hc v), ih { q with queue := q.queue ++ [v] } hc]
    simp

theorem visit_closed_queue {fuel : ℕ} (items : List V) (x : V) (hfuel : items.length < fuel) :
    visit synchCalls fuel ⟨true, items⟩ ⟨true, x⟩ = some (x :: items, ⟨true, []⟩) := by
  induction items generalizing fuel x with
  | nil =>
    obtain ⟨fuel, rfl⟩ := Nat.exists_eq_add_of_lt hfuel
    rw [visit_closed ((synchCalls_waitPop_nil _ rfl x).trans (if_pos rfl))]
  | cons v rest ih =>
    obtain ⟨fuel, rfl⟩ := Nat.exists_eq_add_of_lt hfuel
    rw [visit_success (synchCalls_waitPop_cons rfl x), ih v (by rw [List.length_cons]; omega)]
    rfl

theorem visit_open_queue (fuel : ℕ) (items : List V) (x : V) :
    visit synchCalls fuel ⟨false, items⟩ ⟨true, x⟩ = none := by
  induction items generalizing fuel x with
  | nil =>
    cases fuel with
    | zero => rfl
    | succ fuel => exact visit_blocked ((synchCalls_waitPop_nil _ rfl x).trans (if_neg (by simp)))
  | cons v rest ih =>
    cases fuel with
    | zero => rfl
    | succ fuel =>
      rw [visit_success (synchCalls_waitPop_cons rfl x), ih]
      rfl

theorem rangeFor_closed [Inhabited V] (items : List V) {fuel : ℕ} (hfuel : items.length ≤ fuel) :
    rangeFor synchCalls fuel ⟨true, items⟩ = some (items, ⟨true, []⟩) := by
  cases items with
  | nil =>
    simp only [rangeFor, begin, popValue, synchCalls_waitPop_nil ⟨true, []⟩ rfl]
    exact visit_end fuel _ _
  | cons v rest =>
    simp only [rangeFor, begin, popValue, synchCalls_waitPop_cons (q := ⟨true, v :: rest⟩) rfl,
      Option.map_some, Option.bind_some]
    exact visit_closed_queue rest v (by rw [List.length_cons] at hfuel; omega)

theorem rangeFor_open [Inhabited V] (items : List V) (fuel : ℕ) :
    rangeFor synchCalls fuel ⟨false, items⟩ = none := by
  cases items with
  | nil =>
    simp only [rangeFor, begin, popValue, synchCalls_waitPop_nil ⟨false, []⟩ rfl,
      Bool.false_eq_true, if_false, Option.map_none, Option.bind_none]
  | cons v rest =>
    simp only [rangeFor, begin, popValue, synchCalls_waitPop_cons (q := ⟨false, v :: rest⟩) rfl,
      Option.map_some, Option.bind_some]
    exact visit_open_queue fuel rest v

/-- One thread, a `synch_queue` of plain values that is open: assigning `values` one by one to
an output iterator on it succeeds. Before a `close`, the loop over input iterators on it never
ends; after `close`, with fuel for as many visits as the queue holds, it visits the queue's old
contents and then `values`, in order, and leaves it empty. -/
theorem copy_close_range_for [Inhabited V] {q : SynchQueue V} (hc : q.closed = false)
    (values : List V) :
    ∃ q', copy synchCalls q values = some (.ok q') ∧ (∀ fuel, rangeFor synchCalls fuel q' = none) ∧
      ∀ fuel, q.queue.length + values.length ≤ fuel →
        rangeFor synchCalls fuel q'.close = some (q.queue ++ values, ⟨true, []⟩) := by
  refine ⟨_, copy_open q hc values, fun fuel => ?_, fun fuel hfuel => ?_⟩
  · have h := rangeFor_open (q.queue ++ values) fuel
    rwa [← hc] at h
  · exact rangeFor_closed (q.queue ++ values) (by simpa using hfuel)

/-- Three values written to a fresh queue, which is then closed: the loop visits them. -/
theorem copy_close_range_for_three :
    (SynchQueue.init : SynchQueue ℕ).closed = false ∧
      ∃ q', copy synchCalls SynchQueue.init [1, 2, 3] = some (.ok q') ∧
        (∀ fuel, rangeFor synchCalls fuel q' = none) ∧
        rangeFor synchCalls 3 q'.close = some ([1, 2, 3], ⟨true, []⟩) := by
  obtain ⟨q', hcopy, hopen, hclose⟩ := copy_close_range_for (q := SynchQueue.init) rfl [1, 2, 3]
  exact ⟨rfl, q', hcopy, hopen, hclose 3 (by decide)⟩

end QueueIterators
