import Evenk.MoveOnlyTask

/-!
# What the task operations do with ownership

The move constructor calls the other task's helper without the `operator bool` test, so every
move from an empty task, and hence every move assignment and swap, calls through a null
`helper_`. It also default-constructs the allocator, so a moved block is returned through
`A()`.
-/
namespace MoveOnlyTaskOwnership

open MoveOnlyTask Fallible

variable {A : Type} [Inhabited A] (m : UInt64)

theorem moveConstruct_empty (s : Store A) {other : TaskRec A} (h : other.helper = none) :
    moveConstruct m s other = .error .nullHelper := by
  simp [moveConstruct, h]

theorem moveConstruct_ok {s s' : Store A} {other this other' : TaskRec A}
    (h : moveConstruct m s other = .ok (s', this, other')) :
    other'.helper = none ∧ this.helper = other.helper ∧ this.alloc = default ∧
      other'.invoke = .invalidInvoke := by
  unfold moveConstruct at h
  cases hh : other.helper with
  | none => simp [hh] at h
  | some T =>
    simp only [hh] at h
    cases hm : adapterMove m s T other.memory with
    | error e => simp [helper, hm] at h
    | ok r =>
      obtain ⟨s₁, mem, mem'⟩ := r
      simp only [helper, hm] at h
      cases h
      refine ⟨rfl, ?_, rfl, rfl⟩
      simp [hh]

theorem moveAssign_from_empty (fuel : ℕ) (s : Store A) (this : TaskRec A) {other : TaskRec A}
    (h : other.helper = none) : Fails (moveAssign m fuel s this other) := by
  cases fuel with
  | zero => exact ⟨.stackOverflow, by simp [moveAssign]⟩
  | succ fuel =>
    refine ⟨.nullHelper, ?_⟩
    simp [moveAssign, moveConstruct_empty m s h]

theorem swap_with_empty (fuel : ℕ) (s : Store A) (a : TaskRec A) {b : TaskRec A}
    (h : b.helper = none) : Fails (swap m fuel s a b) := by
  cases fuel with
  | zero => exact ⟨.stackOverflow, by simp [swap]⟩
  | succ fuel =>
    simp only [swap]
    cases hc : moveConstruct m s a with
    | error e => exact ⟨e, rfl⟩
    | ok r =>
      obtain ⟨s₁, tmp, a₁⟩ := r
      obtain ⟨e, he⟩ := moveAssign_from_empty m fuel s₁ a₁ h
      exact ⟨e, by simp [he]⟩

/-- Every move assignment ends in a fault, whatever the two tasks hold. -/
theorem moveAssign_faults (fuel : ℕ) (s : Store A) (this other : TaskRec A) :
    Fails (moveAssign m fuel s this other) := by
  rcases fuel with _ | _ | _ | fuel
  · exact ⟨.stackOverflow, by simp [moveAssign]⟩
  · simp only [moveAssign, swap]
    cases moveConstruct m s other with
    | error e => exact ⟨e, rfl⟩
    | ok r => exact ⟨.stackOverflow, rfl⟩
  · simp only [moveAssign]
    cases hc : moveConstruct m s other with
    | error e => exact ⟨e, rfl⟩
    | ok r =>
      obtain ⟨s₁, temp, other₁⟩ := r
      simp only [swap]
      cases hc' : moveConstruct m s₁ temp with
      | error e => exact ⟨e, by simp [hc']⟩
      | ok r' => exact ⟨.stackOverflow, by simp [hc', moveAssign]⟩
  · simp only [moveAssign]
    cases hc : moveConstruct m s other with
    | error e => exact ⟨e, rfl⟩
    | ok r =>
      obtain ⟨s₁, temp, other₁⟩ := r
      simp only [swap]
      cases hc' : moveConstruct m s₁ temp with
      | error e => exact ⟨e, by simp [hc']⟩
      | ok r' =>
        obtain ⟨s₂, tmp, temp₂⟩ := r'
        have hempty := (moveConstruct_ok m hc').1
        simp only [moveAssign]
        cases hc'' : moveConstruct m s₂ this with
        | error e => exact ⟨e, by simp [hc', hc'']⟩
        | ok r'' =>
          obtain ⟨s₃, t₂, this₃⟩ := r''
          obtain ⟨e, he⟩ := swap_with_empty m fuel s₃ t₂ hempty
          exact ⟨e, by simp [hc', hc'', he]⟩

theorem swap_faults (fuel : ℕ) (s : Store A) (a b : TaskRec A) : Fails (swap m fuel s a b) := by
  cases fuel with
  | zero => exact ⟨.stackOverflow, by simp [swap]⟩
  | succ fuel =>
    simp only [swap]
    cases hc : moveConstruct m s a with
    | error e => exact ⟨e, rfl⟩
    | ok r =>
      obtain ⟨s₁, tmp, a₁⟩ := r
      obtain ⟨e, he⟩ := moveAssign_faults m fuel s₁ a₁ b
      exact ⟨e, by simp [he]⟩

/-! ## Client programs over task variables -/

/-- A statement of a program over task variables: `task x(callable, a)`, `task x;`,
`task x(std::move(y))`, `x = std::move(y)`, `x.swap(y)`, `x()` and the end of `x`'s scope. -/
inductive Stmt (A : Type) where
  | make (x : ℕ) (T : TargetType) (a : A)
  | empty (x : ℕ)
  | moveFrom (x y : ℕ)
  | assign (x y : ℕ)
  | swap (x y : ℕ)
  | call (x : ℕ)
  | drop (x : ℕ)

structure World (A : Type) where
  store : Store A
  vars : ℕ → Option (TaskRec A)
  calls : List Outcome

def World.empty : World A := ⟨Store.empty, fun _ => none, []⟩

/-- A variable out of scope is not a program the compiler accepts; the model refuses it. -/
def World.get (w : World A) (x : ℕ) : Except Fault (TaskRec A) :=
  match w.vars x with
  | some t => .ok t
  | none => .error .invalidAccess

def World.set (w : World A) (s : Store A) (x : ℕ) (t : Option (TaskRec A)) : World A :=
  { w with store := s, vars := Function.update w.vars x t }

def exec (fuel : ℕ) (w : World A) : Stmt A → Except Fault (World A)
  | .make x T a =>
    let (s, t) := construct m w.store T a
    pure (w.set s x (some t))
  | .empty x => pure (w.set w.store x (some defaultTask))
  | .moveFrom x y => do
    let t ← w.get y
    let (s, this, other) ← moveConstruct m w.store t
    pure ((w.set s y (some other)).set s x (some this))
  | .assign x y => do
    let tx ← w.get x
    let ty ← w.get y
    let (s, this, other) ← moveAssign m fuel w.store tx ty
    pure ((w.set s y (some other)).set s x (some this))
  | .swap x y => do
    let tx ← w.get x
    let ty ← w.get y
    let (s, a, b) ← MoveOnlyTask.swap m fuel w.store tx ty
    pure ((w.set s y (some b)).set s x (some a))
  | .call x => do
    let t ← w.get x
    let o ← invoke m w.store t
    pure { w with calls := w.calls ++ [o] }
  | .drop x => do
    let t ← w.get x
    let s ← destroy m w.store t
    pure (w.set s x none)

def run (fuel : ℕ) : World A → List (Stmt A) → Except Fault (World A)
  | w, [] => .ok w
  | w, st :: p => do
    let w ← exec m fuel w st
    run fuel w p

theorem run_append (fuel : ℕ) (w : World A) (p q : List (Stmt A)) :
    run m fuel w (p ++ q) = (run m fuel w p >>= fun w => run m fuel w q) := by
  induction p generalizing w with
  | nil => rfl
  | cons st p ih =>
    simp only [List.cons_append, run]
    cases exec m fuel w st with
    | error e => rfl
    | ok w' => exact ih w'

theorem exec_moveFrom_empty (fuel : ℕ) (w : World A) {x y : ℕ} {t : TaskRec A}
    (hy : w.vars y = some t) (ht : t.helper = none) :
    exec m fuel w (.moveFrom x y) = .error .nullHelper := by
  simp [exec, World.get, hy, moveConstruct_empty m _ ht]

/-- Every assignment between two tasks in scope faults. -/
theorem exec_assign_faults (fuel : ℕ) (w : World A) {x y : ℕ} {tx ty : TaskRec A}
    (hx : w.vars x = some tx) (hy : w.vars y = some ty) :
    Fails (exec m fuel w (.assign x y)) := by
  obtain ⟨e, he⟩ := moveAssign_faults m fuel w.store tx ty
  exact ⟨e, by simp [exec, World.get, hx, hy, he]⟩

/-- `task<R> a; task<R> b(std::move(a));` calls through `a`'s null `helper_`. -/
theorem moved_from_default_calls_null_helper (fuel : ℕ) :
    run m fuel (World.empty : World A) [.empty 0, .moveFrom 1 0] = .error .nullHelper := by
  let w₁ : World A := World.empty.set World.empty.store 0 (some defaultTask)
  have h₁ : exec m fuel w₁ (.moveFrom 1 0) = .error .nullHelper :=
    exec_moveFrom_empty m fuel w₁ (t := defaultTask) (by simp [w₁, World.set]) rfl
  have h₀ : exec m fuel (World.empty : World A) (.empty 0) = .ok w₁ := rfl
  simp only [run, h₀, h₁, ok_bind, error_bind]

/-- A large target built with allocator `a`, moved and destroyed: its block is freed through
`A()`, whatever `a` is. -/
theorem large_target_freed_through_default (fuel : ℕ) (T : TargetType) (a : A)
    (hT : isSmall m T = false) :
    ∃ w, run m fuel World.empty [.make 0 T a, .moveFrom 1 0, .drop 1] = .ok w ∧
      w.store.freed = [(0, default)] := by
  simp [run, exec, construct, hT, World.get, World.set, moveConstruct, helper, adapterMove,
      destroy, adapterGet, Store.allocate, Store.construct, Store.empty, World.empty,
    Store.destroy, Store.deallocate]

end MoveOnlyTaskOwnership
