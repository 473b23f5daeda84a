import Evenk.SynchQueue
import Evenk.MoveOnlyTaskOwnership
import Evenk.TransitionSystem

/-!
# The thread pool over `synch_queue` (`thread_pool.h`)

A step is one locked queue operation, one `fetch_or` on `flags_`, the `shutdown()` of the caller
whose `fetch_or` found the flags clear, the join, or one stretch of a worker's loop. A fault ends
the process. One shutdown is ever started; but a worker pops into a default-constructed `task`,
and that move assignment faults, so no task is ever run.
-/
namespace ThreadPool

open MoveOnlyTask MoveOnlyTaskOwnership SynchQueue Fallible TransitionSystem QueueSpec

def stopFlag : UInt8 := 1

def waitFlag : UInt8 := 2

/-- `is_stopped()`. -/
def isStopped (flags : UInt8) : Bool := flags &&& stopFlag != 0

variable {A : Type}

/-- Where a worker is in `work()`, with its local `task`. -/
inductive Worker (A : Type) where
  | loop
  | popping (task : TaskRec A)
  | running (task : TaskRec A)
  | exited

def Worker.isRunning : Worker A → Bool
  | .running _ => true
  | _ => false

def Worker.isExited : Worker A → Bool
  | .exited => true
  | _ => false

/-- The pool's state, with the queue, the heap of targets, and a log of the tasks run. -/
structure Pool (A : Type) (n : ℕ) where
  flags : UInt8
  pending : ℕ
  shutdowns : ℕ
  queue : SynchQueue (TaskRec A)
  store : Store A
  workers : Fin n → Worker A
  joinDone : Bool
  submitted : ℕ
  invoked : List Outcome
  fault : Option Fault

inductive Act (n : ℕ) where
  | submit (T : TargetType)
  | stop
  | waitClose
  | shutdown
  | waitJoin
  | work (i : Fin n)

variable {n : ℕ}

namespace Pool

def init (n : ℕ) : Pool A n :=
  ⟨0, 0, 0, SynchQueue.init, Store.empty, fun _ => .loop, false, 0, [], none⟩

def crash (p : Pool A n) (f : Fault) : Pool A n := { p with fault := some f }

/-- Go on with `k` after a computation that may fault. -/
def after {α : Type} (p : Pool A n) (r : Except Fault α) (k : α → Pool A n) : Pool A n :=
  match r with
  | .error f => p.crash f
  | .ok a => k a

def setWorker (p : Pool A n) (i : Fin n) (w : Worker A) : Pool A n :=
  { p with workers := Function.update p.workers i w }

/-- The `fetch_or` of `close(flag)`; `pending` counts the callers that found the flags clear
and have yet to call `shutdown()`. -/
def closeFlag (p : Pool A n) (flag : UInt8) : Pool A n :=
  { p with flags := p.flags ||| flag, pending := if p.flags = 0 then p.pending + 1 else p.pending }

/-- `shutdown()` by such a caller: `queue_.close()`, one locked step. -/
def shutdown (p : Pool A n) : Pool A n :=
  { p with pending := p.pending - 1, shutdowns := p.shutdowns + 1, queue := close p.queue }

end Pool

/-! ## What a step does -/

namespace Pool

variable {p : Pool A n}

theorem after_cases {α : Type} (r : Except Fault α) (k : α → Pool A n) :
    (∃ f, p.after r k = p.crash f) ∨ ∃ a, r = .ok a ∧ p.after r k = k a := by
  cases r with
  | error f => exact .inl ⟨f, rfl⟩
  | ok a => exact .inr ⟨a, rfl, rfl⟩

theorem after_ok {α : Type} {r : Except Fault α} {a : α} (h : r = .ok a) (k : α → Pool A n) :
    p.after r k = k a := by
  rw [h]
  rfl

end Pool

/-- What the flags, the shutdown count and the queue's `closed_` keep over a step that
makes no `fetch_or`. -/
structure FlagsKept (p p' : Pool A n) : Prop where
  flags : p'.flags = p.flags
  pending : p'.pending = p.pending
  shutdowns : p'.shutdowns = p.shutdowns
  closed : p'.queue.closed = p.queue.closed

/-- What a step keeps of the workers and the log when it runs no task. -/
structure RunsKept (p p' : Pool A n) : Prop where
  invoked : p'.invoked = p.invoked
  workers : p'.workers = p.workers

namespace FlagsKept

variable {p q : Pool A n}

theorem crash (f : Fault) : FlagsKept p (p.crash f) := ⟨rfl, rfl, rfl, rfl⟩

theorem after {α : Type} {r : Except Fault α} {k : α → Pool A n}
    (h : ∀ a, r = .ok a → FlagsKept p (k a)) : FlagsKept p (p.after r k) := by
  rcases Pool.after_cases (p := p) r k with ⟨f, hf⟩ | ⟨a, ha, hk⟩
  · rw [hf]
    exact crash f
  · rw [hk]
    exact h a ha

theorem setWorker {i : Fin n} {w : Worker A} (h : FlagsKept p q) : FlagsKept p (q.setWorker i w) :=
  ⟨h.flags, h.pending, h.shutdowns, h.closed⟩

end FlagsKept

namespace RunsKept

variable {p : Pool A n}

theorem crash (f : Fault) : RunsKept p (p.crash f) := ⟨rfl, rfl⟩

theorem after {α : Type} {r : Except Fault α} {k : α → Pool A n}
    (h : ∀ a, r = .ok a → RunsKept p (k a)) : RunsKept p (p.after r k) := by
  rcases Pool.after_cases (p := p) r k with ⟨f, hf⟩ | ⟨a, ha, hk⟩
  · rw [hf]
    exact crash f
  · rw [hk]
    exact h a ha

end RunsKept

theorem closeFlag_runsKept {p : Pool A n} (flag : UInt8) : RunsKept p (p.closeFlag flag) :=
  ⟨rfl, rfl⟩

theorem shutdown_runsKept {p : Pool A n} : RunsKept p p.shutdown := ⟨rfl, rfl⟩

/-! ## `shutdown()` runs once -/

/-- One `shutdown()` is started or done exactly when some `fetch_or` has run, and the queue is
closed exactly when it is done. -/
structure ShutdownOnce (p : Pool A n) : Prop where
  count : p.shutdowns + p.pending = if p.flags = 0 then 0 else 1
  closed : p.queue.closed = true ↔ p.shutdowns = 1

theorem ShutdownOnce.init : ShutdownOnce (Pool.init n : Pool A n) := by
  constructor <;> simp [Pool.init, SynchQueue.init]

theorem ShutdownOnce.closeFlag {p : Pool A n} {flag : UInt8} (hflag : flag ≠ 0)
    (h : ShutdownOnce p) : ShutdownOnce (p.closeFlag flag) := by
  have hne : p.flags ||| flag ≠ 0 := fun hz => hflag (UInt8.or_eq_zero_iff.mp hz).2
  have hcount := h.count
  refine ⟨?_, h.closed⟩
  simp only [Pool.closeFlag, hne, if_false]
  split_ifs at hcount ⊢ <;> omega

theorem ShutdownOnce.shutdown {p : Pool A n} (hp : p.pending ≠ 0) (h : ShutdownOnce p) :
    ShutdownOnce p.shutdown := by
  have hcount := h.count
  have hf : p.flags ≠ 0 := fun hz => by simp only [hz, if_true] at hcount; omega
  simp only [hf, if_false] at hcount
  have hs : p.shutdowns = 0 := by omega
  refine ⟨?_, ?_⟩
  · simp only [Pool.shutdown, hf, if_false]
    omega
  · simp [Pool.shutdown, hs, close]

theorem ShutdownOnce.kept {p p' : Pool A n} (hk : FlagsKept p p') (h : ShutdownOnce p) :
    ShutdownOnce p' where
  count := by rw [hk.flags, hk.pending, hk.shutdowns]; exact h.count
  closed := by rw [hk.shutdowns, hk.closed]; exact h.closed

/-- No task has run and no worker is about to run one. -/
structure NothingRun (p : Pool A n) : Prop where
  invoked : p.invoked = []
  idle : ∀ i, (p.workers i).isRunning = false

namespace NothingRun

variable {p p' : Pool A n}

theorem kept (hk : RunsKept p p') (h : NothingRun p) : NothingRun p' where
  invoked := hk.invoked ▸ h.invoked
  idle := hk.workers ▸ h.idle

theorem crash (f : Fault) (h : NothingRun p) : NothingRun (p.crash f) := h.kept (.crash f)

theorem after {α : Type} {r : Except Fault α} {k : α → Pool A n} (h : NothingRun p)
    (hk : ∀ a, r = .ok a → NothingRun (k a)) : NothingRun (p.after r k) := by
  rcases Pool.after_cases (p := p) r k with ⟨f, hf⟩ | ⟨a, ha, hk'⟩
  · rw [hf]
    exact h.crash f
  · rw [hk']
    exact hk a ha

theorem setWorker {i : Fin n} {w : Worker A} (h : NothingRun p) (hw : w.isRunning = false) :
    NothingRun (p.setWorker i w) where
  invoked := h.invoked
  idle j := by
    by_cases hj : j = i
    · subst hj
      simpa [Pool.setWorker] using hw
    · simpa [Pool.setWorker, hj] using h.idle j

end NothingRun

variable [Inhabited A] (m : UInt64) (fuel : ℕ)

/-- `task_type` as the value type of the queue. -/
def taskOps : ValueOps (Store A) Fault (TaskRec A) :=
  ⟨moveConstruct m, moveAssign m fuel, destroy m⟩

/-- `submit(callable)`: build `task_type(callable, alloc_)`, `push` it, let the temporary
die. A push on a closed queue throws, and then `submit` does not return normally. -/
def submit (alloc : A) (p : Pool A n) (T : TargetType) : Pool A n :=
  let (s, tmp) := construct m p.store T alloc
  p.after (lockedPush (taskOps m fuel) s p.queue tmp) fun (st, s, q, tmp) =>
    p.after (destroy m s tmp) fun s =>
      { p with store := s, queue := q,
               submitted := if st = .success then p.submitted + 1 else p.submitted }

/-- One stretch of `work()` for worker `i`; `none` while it sleeps in `wait_pop` or has
left the loop. -/
def work (p : Pool A n) (i : Fin n) : Option (Pool A n) :=
  match p.workers i with
  | .loop =>
    if isStopped p.flags then some (p.setWorker i .exited)
    else some (p.setWorker i (.popping defaultTask))
  | .popping t =>
    match lockedPop (taskOps m fuel) p.store p.queue t with
    | .error f => some (p.crash f)
    | .ok (.success, s, q, t) => some ({ p with store := s, queue := q }.setWorker i (.running t))
    | .ok (.closed, s, q, t) =>
      some (p.after (destroy m s t) fun s => { p with store := s, queue := q }.setWorker i .exited)
    | .ok _ => none
  | .running t =>
    some (p.after (invoke m p.store t) fun o =>
      p.after (destroy m p.store t) fun s =>
        { p with store := s, invoked := p.invoked ++ [o] }.setWorker i .loop)
  | .exited => none

def next (alloc : A) (a : Act n) (p : Pool A n) : Option (Pool A n) :=
  if p.fault.isSome then none
  else match a with
    | .submit T => some (submit m fuel alloc p T)
    | .stop => some (p.closeFlag stopFlag)
    | .waitClose => some (p.closeFlag waitFlag)
    | .shutdown => if p.pending = 0 then none else some p.shutdown
    | .waitJoin =>
      if p.joinDone || decide (∀ i, (p.workers i).isExited) then some { p with joinDone := true }
      else none
    | .work i => work m fuel p i

def pool (alloc : A) (n : ℕ) : System (Act n) (Pool A n) where
  init p := p = Pool.init n
  step a p p' := next m fuel alloc a p = some p'

variable {alloc : A} {p p' : Pool A n}

theorem submit_flagsKept (T : TargetType) : FlagsKept p (submit m fuel alloc p T) := by
  unfold submit
  refine FlagsKept.after fun ⟨st, s, q, tmp⟩ hpush => FlagsKept.after fun s' _ => ?_
  exact ⟨rfl, rfl, rfl, lockedPush_closed hpush⟩

theorem submit_runsKept (T : TargetType) : RunsKept p (submit m fuel alloc p T) := by
  unfold submit
  exact RunsKept.after fun _ _ => RunsKept.after fun _ _ => ⟨rfl, rfl⟩

theorem work_flagsKept {i : Fin n} (h : work m fuel p i = some p') : FlagsKept p p' := by
  unfold work at h
  split at h
  · split at h <;> (cases h; exact FlagsKept.setWorker ⟨rfl, rfl, rfl, rfl⟩)
  · split at h
    · cases h
      exact FlagsKept.crash _
    · cases h
      exact FlagsKept.setWorker ⟨rfl, rfl, rfl, lockedPop_closed ‹_›⟩
    · cases h
      exact FlagsKept.after fun _ _ => FlagsKept.setWorker ⟨rfl, rfl, rfl, lockedPop_closed ‹_›⟩
    · cases h
  · cases h
    exact FlagsKept.after fun _ _ => FlagsKept.after fun _ _ =>
      FlagsKept.setWorker ⟨rfl, rfl, rfl, rfl⟩
  · cases h

/-- Every step is a `fetch_or` of `close`, a `shutdown()` by a caller due to make one, or
leaves the flags, the callers due to shut down, the shutdown count and `closed_` alone. -/
theorem next_cases {a : Act n} (h : next m fuel alloc a p = some p') :
    p' = p.closeFlag stopFlag ∨ p' = p.closeFlag waitFlag ∨ (p.pending ≠ 0 ∧ p' = p.shutdown) ∨
      FlagsKept p p' := by
  unfold next at h
  split at h
  · cases h
  · split at h
    · cases h
      exact .inr (.inr (.inr (submit_flagsKept m fuel _)))
    · cases h
      exact .inl rfl
    · cases h
      exact .inr (.inl rfl)
    · split at h
      · cases h
      · cases h
        exact .inr (.inr (.inl ⟨‹_›, rfl⟩))
    · split at h
      · cases h
        exact .inr (.inr (.inr ⟨rfl, rfl, rfl, rfl⟩))
      · cases h
    · exact .inr (.inr (.inr (work_flagsKept m fuel h)))

/-! ## `shutdown()` runs once -/

theorem shutdownOnce_inductive : Inductive (pool m fuel alloc n) (ShutdownOnce (A := A)) := by
  refine ⟨fun p hp => hp ▸ ShutdownOnce.init, fun a p p' hi hst => ?_⟩
  rcases next_cases m fuel hst with rfl | rfl | ⟨hp, rfl⟩ | hk
  · exact hi.closeFlag (by decide)
  · exact hi.closeFlag (by decide)
  · exact hi.shutdown hp
  · exact hi.kept hk

/-- However many `stop()` and `wait()` calls run, one `shutdown()` is started once the flags are
set, by the call whose `fetch_or` found them clear, and no other; the queue is closed exactly
when it has run. -/
theorem reachable_shutdown_once (h : Reachable (pool m fuel alloc n) p) :
    p.shutdowns + p.pending = (if p.flags = 0 then 0 else 1) ∧
      (p.queue.closed = true ↔ p.shutdowns = 1) := by
  have hs := (shutdownOnce_inductive m fuel).reachable h
  exact ⟨hs.count, hs.closed⟩

/-- `stop()` and then the `fetch_or` of `wait()` on a fresh pool of one worker: the flags are
set, and the one shutdown started by `stop()` has not yet closed the queue. -/
theorem reachable_shutdown_once_stop_wait :
    ∃ p : Pool ℕ 1, Reachable (pool 0 0 0 1) p ∧ p.flags ≠ 0 ∧ p.pending = 1 ∧
      p.shutdowns + p.pending = (if p.flags = 0 then 0 else 1) ∧
        (p.queue.closed = true ↔ p.shutdowns = 1) := by
  let p₁ : Pool ℕ 1 := (Pool.init 1).closeFlag stopFlag
  have h₁ : Reachable (pool 0 0 0 1) p₁ := .step .stop (.init rfl) rfl
  have h₂ : Reachable (pool 0 0 0 1) (p₁.closeFlag waitFlag) := .step .waitClose h₁ rfl
  exact ⟨_, h₂, by decide, rfl, reachable_shutdown_once 0 0 h₂⟩

/-! ## No task is ever run -/

theorem lockedPop_task_ok {s s' : Store A} {q q' : SynchQueue (TaskRec A)} {t t' : TaskRec A}
    {st : QueueOpStatus} (h : lockedPop (taskOps m fuel) s q t = .ok (st, s', q', t')) :
    q.queue = [] ∧ st ≠ .success := by
  cases hq : q.queue with
  | nil =>
    rw [lockedPop_empty s hq] at h
    cases h
    refine ⟨rfl, ?_⟩
    cases q.closed <;> simp
  | cons front rest =>
    obtain ⟨e, he⟩ := moveAssign_faults m fuel s t front
    rw [lockedPop_error (taskOps m fuel) hq he] at h
    cases h

theorem NothingRun.of_work {i : Fin n} (h : NothingRun p) (hw : work m fuel p i = some p') :
    NothingRun p' := by
  unfold work at hw
  split at hw
  · split at hw <;> (cases hw; exact h.setWorker rfl)
  · split at hw
    · cases hw
      exact h.crash _
    · exact absurd rfl (lockedPop_task_ok m fuel ‹_›).2
    · cases hw
      exact h.after fun _ _ => NothingRun.setWorker (NothingRun.kept (p := p) ⟨rfl, rfl⟩ h) rfl
    · cases hw
  · rename_i t ht
    have hi := h.idle i
    rw [ht] at hi
    cases hi
  · cases hw

theorem NothingRun.of_next {a : Act n} (h : NothingRun p) (hst : next m fuel alloc a p = some p') :
    NothingRun p' := by
  unfold next at hst
  split at hst
  · cases hst
  · split at hst
    · cases hst
      exact h.kept (submit_runsKept m fuel _)
    · cases hst
      exact h.kept (closeFlag_runsKept _)
    · cases hst
      exact h.kept (closeFlag_runsKept _)
    · split at hst
      · cases hst
      · cases hst
        exact h.kept shutdown_runsKept
    · split at hst
      · cases hst
        exact NothingRun.kept (p := p) ⟨rfl, rfl⟩ h
      · cases hst
    · exact h.of_work m fuel hst

theorem nothingRun_inductive : Inductive (pool m fuel alloc n) (NothingRun (A := A)) := by
  refine ⟨fun p hp => ?_, fun a p p' hi hst => hi.of_next m fuel hst⟩
  subst hp
  exact ⟨rfl, fun _ => rfl⟩

theorem reachable_nothing_run (h : Reachable (pool m fuel alloc n) p) : NothingRun p :=
  (nothingRun_inductive m fuel).reachable h

/-! ## A submitted task crashes the first worker that pops it -/

theorem moveConstruct_construct {s s₀ : Store A} {T : TargetType} {a : A} {t₀ : TaskRec A}
    (h : construct m s T a = (s₀, t₀)) : ∃ s' t o, moveConstruct m s₀ t₀ = .ok (s', t, o) := by
  unfold construct at h
  cases hT : isSmall m T <;> simp only [hT] at h <;> cases h <;>
    simp [moveConstruct, helper, adapterMove, adapterGet, hT, Store.construct]

theorem submit_open (alloc : A) (T : TargetType) (hc : p.queue.closed = false) :
    let p' := submit m fuel alloc p T
    p'.submitted = p.submitted + 1 ∧ p'.queue.queue ≠ [] ∧ p'.workers = p.workers ∧
      p'.flags = p.flags ∧ p'.fault = p.fault := by
  intro p'
  cases hcon : construct m p.store T alloc with
  | mk s₀ t₀ =>
    obtain ⟨s', t, o, hm⟩ := moveConstruct_construct m hcon
    have ho : o.helper = none := (moveConstruct_ok m hm).1
    have hpush := lockedPush_open (taskOps m fuel) hc hm
    have hd : destroy m s' o = .ok s' := by simp [destroy, ho]
    simp only [p', submit, hcon]
    rw [Pool.after_ok hpush, Pool.after_ok hd]
    simp

theorem work_loop_open {i : Fin n} (hw : p.workers i = .loop) (hs : isStopped p.flags = false) :
    work m fuel p i = some (p.setWorker i (.popping defaultTask)) := by
  simp [work, hw, hs]

theorem work_popping_nonempty {i : Fin n} {t : TaskRec A} (hw : p.workers i = .popping t)
    {front : TaskRec A} {rest : List (TaskRec A)} (hq : p.queue.queue = front :: rest) :
    ∃ f, work m fuel p i = some (p.crash f) := by
  obtain ⟨e, he⟩ := moveAssign_faults m fuel p.store t front
  refine ⟨e, ?_⟩
  simp [work, hw, lockedPop_error (taskOps m fuel) hq he]

theorem next_submit {T : TargetType} (hf : p.fault = none) :
    next m fuel alloc (.submit T) p = some (submit m fuel alloc p T) := by
  simp [next, hf]

theorem next_work {i : Fin n} (hf : p.fault = none) :
    next m fuel alloc (.work i) p = work m fuel p i := by
  simp [next, hf]

/-- One worker, one `submit`: the submit returns normally, and the worker's first pop calls
through a null `helper_`. In no run, with any number of workers, is a task ever run. -/
theorem pool_never_runs_a_task (alloc : A) (T : TargetType) :
    (∃ p : Pool A 1, Reachable (pool m fuel alloc 1) p ∧ p.submitted = 1 ∧ p.fault.isSome) ∧
      ∀ n (p : Pool A n), Reachable (pool m fuel alloc n) p → p.invoked = [] := by
  refine ⟨?_, fun n p hp => (reachable_nothing_run m fuel hp).invoked⟩
  let p₀ : Pool A 1 := Pool.init 1
  obtain ⟨hsub, hne, hwk, hfl, hft⟩ := submit_open m fuel (p := p₀) alloc T rfl
  let p₁ := submit m fuel alloc p₀ T
  have h₁ : Reachable (pool m fuel alloc 1) p₁ :=
    .step (.submit T) (.init rfl) (next_submit m fuel rfl)
  let p₂ := p₁.setWorker 0 (.popping defaultTask)
  have h₂ : Reachable (pool m fuel alloc 1) p₂ := by
    refine .step (.work 0) h₁ ?_
    show next m fuel alloc (.work 0) p₁ = some p₂
    rw [next_work m fuel hft, work_loop_open m fuel (by rw [hwk]; rfl)
      (by rw [hfl]; show isStopped 0 = false; decide)]
  obtain ⟨front, rest, hq⟩ := List.exists_cons_of_ne_nil hne
  obtain ⟨f, hf⟩ := work_popping_nonempty m fuel (p := p₂) (i := 0) (t := defaultTask)
    (by simp [p₂, Pool.setWorker]) hq
  refine ⟨p₂.crash f, .step (.work 0) h₂ ?_, hsub, rfl⟩
  show next m fuel alloc (.work 0) p₂ = some (p₂.crash f)
  rw [next_work m fuel (p := p₂) hft, hf]

end ThreadPool
