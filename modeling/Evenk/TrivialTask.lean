import Evenk.MoveOnlyTask
import Evenk.FixedWidth

/-!
# `trivial_task` (`task.h`)

`trivial_task<R, S>` keeps its target in a buffer of `task_memory_size(S)` bytes and `invoke_`.
Every move is a swap of the two members, so a target moves whole: over any moves among a
program's tasks, each task holds one task's starting target or nothing, and no target is held
twice.
-/
namespace TrivialTask

/-! ## The buffer size -/

theorem toNat_roundUp {size : UInt64} (h : size.toNat + 7 < 2 ^ 64) :
    ((size + MoveOnlyTask.fptrAlign - 1) &&& ~~~(MoveOnlyTask.fptrAlign - 1)).toNat =
      (size.toNat + 7) / 8 * 8 := by
  -- `size + fptr_align` may wrap, but `- 1` brings it back: the sum is `size + 7`
  have hsum : size + MoveOnlyTask.fptrAlign - 1 = size + 7 := by
    unfold MoveOnlyTask.fptrAlign
    grind
  have hadd : (size + 7).toNat = size.toNat + 7 := by
    rw [UInt64.toNat_add, show (7 : UInt64).toNat = 7 from rfl]
    exact Nat.mod_eq_of_lt h
  have hmask : (~~~(MoveOnlyTask.fptrAlign - 1)).toNat = 2 ^ 64 - 2 ^ 3 := by decide
  rw [UInt64.toNat_and, hsum, hadd, hmask, FixedWidth.and_high_mask h (by decide)]
  rfl

theorem toNat_taskMemorySize {size : UInt64} (h : size.toNat + 7 < 2 ^ 64) :
    (MoveOnlyTask.taskMemorySize size).toNat = max ((size.toNat + 7) / 8 * 8) 8 := by
  rw [MoveOnlyTask.taskMemorySize, UInt64.toNat_max, toNat_roundUp h]
  rfl

/-- `task_memory_size(S)` is the least size that holds `S` bytes and a function pointer and is
a multiple of the function pointer's alignment, for every `S` at least 7 below `2 ^ 64`. -/
theorem taskMemorySize_least {size : UInt64} (h : size.toNat + 7 < 2 ^ 64) :
    size.toNat ≤ (MoveOnlyTask.taskMemorySize size).toNat ∧
      MoveOnlyTask.fptrSize.toNat ≤ (MoveOnlyTask.taskMemorySize size).toNat ∧
      MoveOnlyTask.fptrAlign.toNat ∣ (MoveOnlyTask.taskMemorySize size).toNat ∧
      ∀ m, size.toNat ≤ m → MoveOnlyTask.fptrSize.toNat ≤ m → MoveOnlyTask.fptrAlign.toNat ∣ m →
        (MoveOnlyTask.taskMemorySize size).toNat ≤ m := by
  rw [toNat_taskMemorySize h, show MoveOnlyTask.fptrSize.toNat = 8 from rfl,
    show MoveOnlyTask.fptrAlign.toNat = 8 from rfl]
  refine ⟨by omega, by omega, ?_, fun m hm h8 hd => ?_⟩
  · rcases le_total ((size.toNat + 7) / 8 * 8) 8 with hle | hle
    · rw [max_eq_right hle]
    · rw [max_eq_left hle]
      exact Nat.dvd_mul_left _ _
  · obtain ⟨k, rfl⟩ := hd
    omega

/-- `trivial_task<void, 20>` gets a buffer of 24 bytes. -/
theorem taskMemorySize_least_twenty :
    (20 : UInt64).toNat + 7 < 2 ^ 64 ∧ (MoveOnlyTask.taskMemorySize 20).toNat = 24 ∧
      (20 : UInt64).toNat ≤ (MoveOnlyTask.taskMemorySize 20).toNat :=
  ⟨by decide, by decide, (taskMemorySize_least (by decide)).1⟩

/-! ## The task and its moves -/

/-- A `trivial_task`: `invoke_` names the target type whose `invoke<Target>` it points to, or
is null; `memory_` holds the target's bytes. -/
structure Task (ι M : Type) where
  invoke : Option ι
  memory : M
  deriving DecidableEq, Repr

variable {ι M R κ : Type} [Zero M]

/-- `trivial_task()`: `invoke_` null and `memory_` zero. -/
def empty : Task ι M := ⟨none, 0⟩

/-- `trivial_task(callable)`: the target's bytes are placed in `memory_`. -/
def construct (T : ι) (bytes : M) : Task ι M := ⟨some T, bytes⟩

/-- `swap(other)`: `std::swap(invoke_, other.invoke_)` and `std::swap(memory_, other.memory_)`. -/
def swap (this other : Task ι M) : Task ι M × Task ι M :=
  (⟨other.invoke, other.memory⟩, ⟨this.invoke, this.memory⟩)

/-- `trivial_task(trivial_task &&other)`: `other.swap(*this)` with `*this` fresh. The new task,
and the source after. -/
def moveConstruct (other : Task ι M) : Task ι M × Task ι M :=
  ((swap other empty).2, (swap other empty).1)

/-- `explicit operator bool`. -/
def toBool (t : Task ι M) : Bool := t.invoke.isSome

/-- Calling through a null `invoke_`. -/
inductive Fault where
  | nullInvoke
  deriving DecidableEq, Repr

/-- `operator()`: `(*invoke_)(&memory_)`, with `run T` what `invoke<T>` does on the bytes. -/
def call (run : ι → M → R) (t : Task ι M) : Except Fault R :=
  match t.invoke with
  | none => .error .nullInvoke
  | some T => .ok (run T t.memory)

variable [DecidableEq κ]

/-- `this.swap(other)` on two tasks of a program, which may be one task. -/
def swapAt (ts : κ → Task ι M) (this other : κ) : κ → Task ι M :=
  Function.update (Function.update ts this (swap (ts this) (ts other)).1) other
    (swap (ts this) (ts other)).2

/-- `this = std::move(other)`: `trivial_task(std::move(other)).swap(*this)`. The temporary takes
the source's target and leaves it empty, then swaps with `*this`, and dies holding what `*this`
held, with nothing to destroy. -/
def moveAssign (ts : κ → Task ι M) (this other : κ) : κ → Task ι M :=
  let temp := (moveConstruct (ts other)).1
  let ts := Function.update ts other (moveConstruct (ts other)).2
  Function.update ts this (swap temp (ts this)).2

/-- A move on the tasks of a program. -/
inductive Move (κ : Type) where
  | assign (this other : κ)
  | swap (this other : κ)
  deriving DecidableEq, Repr

def Move.apply (ts : κ → Task ι M) : Move κ → κ → Task ι M
  | .assign this other => moveAssign ts this other
  | .swap this other => swapAt ts this other

def runMoves (ts : κ → Task ι M) (ms : List (Move κ)) : κ → Task ι M := ms.foldl Move.apply ts

/-! ## The target moves whole -/

omit [DecidableEq κ] in
theorem moveConstruct_eq (other : Task ι M) : moveConstruct other = (other, empty) := rfl

theorem moveAssign_apply (ts : κ → Task ι M) (this other k : κ) :
    moveAssign ts this other k =
      if k = this then ts other else if k = other then empty else ts k := by
  unfold moveAssign
  rw [moveConstruct_eq]
  by_cases hk : k = this
  · subst hk
    simp [swap]
  · by_cases ho : k = other
    · subst ho
      simp [hk]
    · simp [hk, ho]

omit [Zero M] in
theorem swapAt_apply (ts : κ → Task ι M) (this other k : κ) :
    swapAt ts this other k =
      if k = other then ts this else if k = this then ts other else ts k := by
  unfold swapAt
  by_cases ho : k = other
  · subst ho
    simp [swap]
  · by_cases hk : k = this
    · subst hk
      simp [ho, swap]
    · simp [ho, hk]

/-! ## Which target each task holds

A ghost map says which task of the start each task's target came from. Each move acts on it as
it acts on the tasks, so the tasks are always the start read through the map. -/

/-- The tasks of the start, read through `holders`: a task holds the target of the task of the
start that `holders` names, or is empty. -/
def view (ts₀ : κ → Task ι M) (holders : κ → Option κ) (k : κ) : Task ι M :=
  match holders k with
  | none => empty
  | some k₀ => ts₀ k₀

omit [Zero M] in
/-- What a move does to the ghost map. -/
def Move.holders (h : κ → Option κ) : Move κ → κ → Option κ
  | .assign this other => Function.update (Function.update h other none) this (h other)
  | .swap this other => Function.update (Function.update h this (h other)) other (h this)

omit [Zero M] in
def holdersAfter (ms : List (Move κ)) : κ → Option κ := ms.foldl Move.holders some

/-- No task of the start is held by two tasks. -/
def Unshared (h : κ → Option κ) : Prop := ∀ a b x, h a = some x → h b = some x → a = b

omit [Zero M] in
theorem holders_assign_apply (h : κ → Option κ) (this other k : κ) :
    (Move.assign this other).holders h k =
      if k = this then h other else if k = other then none else h k := by
  simp only [Move.holders, Function.update_apply]

omit [Zero M] in
theorem holders_swap_apply (h : κ → Option κ) (this other k : κ) :
    (Move.swap this other).holders h k =
      if k = other then h this else if k = this then h other else h k := by
  simp only [Move.holders, Function.update_apply]

theorem apply_view (ts₀ : κ → Task ι M) (h : κ → Option κ) (m : Move κ) :
    Move.apply (view ts₀ h) m = view ts₀ (m.holders h) := by
  funext k
  cases m with
  | assign this other =>
    rw [Move.apply, moveAssign_apply]
    simp only [view, holders_assign_apply]
    split_ifs <;> rfl
  | swap this other =>
    rw [Move.apply, swapAt_apply]
    simp only [view, holders_swap_apply]
    split_ifs <;> rfl

omit [Zero M] in
theorem unshared_holders {h : κ → Option κ} (hu : Unshared h) (m : Move κ) :
    Unshared (m.holders h) := by
  intro a b x ha hb
  cases m with
  | assign this other =>
    rw [holders_assign_apply] at ha hb
    grind [Unshared]
  | swap this other =>
    rw [holders_swap_apply] at ha hb
    grind [Unshared]

theorem runMoves_view (ts₀ : κ → Task ι M) (ms : List (Move κ)) (h : κ → Option κ) :
    runMoves (view ts₀ h) ms = view ts₀ (ms.foldl Move.holders h) := by
  induction ms generalizing h with
  | nil => rfl
  | cons m ms ih =>
    rw [runMoves, List.foldl_cons, ← runMoves, apply_view, ih, List.foldl_cons]

omit [Zero M] in
theorem unshared_foldl {h : κ → Option κ} (hu : Unshared h) (ms : List (Move κ)) :
    Unshared (ms.foldl Move.holders h) := by
  induction ms generalizing h with
  | nil => exact hu
  | cons m ms ih => exact ih (unshared_holders hu m)

omit [Zero M] [DecidableEq κ] in
theorem unshared_some : Unshared (some : κ → Option κ) := by
  intro a b x ha hb
  rw [Option.some_inj] at ha hb
  rw [ha, hb]

/-- After any sequence of move assignments and swaps, self-moves included, every task holds the
target of the task of the start that `holdersAfter` names, or is empty, and no task of the start
is held by two tasks: a target is never duplicated, and calling a task runs the target it was
handed. -/
theorem moves_keep_targets (ts₀ : κ → Task ι M) (ms : List (Move κ)) :
    runMoves ts₀ ms = view ts₀ (holdersAfter ms) ∧ Unshared (holdersAfter ms) := by
  have hstart : view ts₀ some = ts₀ := rfl
  refine ⟨?_, unshared_foldl unshared_some ms⟩
  rw [holdersAfter, ← runMoves_view ts₀ ms some, hstart]

/-- Task 1 moved into itself, task 1 moved into task 0, then the two swapped: task 0 is empty and
task 1 holds the target task 1 started with. -/
theorem moves_keep_targets_self_move :
    runMoves (fun k : Fin 2 => (construct k (10 * k.val) : Task (Fin 2) ℕ))
        [.assign 1 1, .assign 0 1, .swap 0 1] =
      view (fun k : Fin 2 => (construct k (10 * k.val) : Task (Fin 2) ℕ))
        (holdersAfter [.assign 1 1, .assign 0 1, .swap 0 1]) ∧
      holdersAfter ([.assign 1 1, .assign 0 1, .swap 0 1] : List (Move (Fin 2))) 0 = none ∧
      holdersAfter ([.assign 1 1, .assign 0 1, .swap 0 1] : List (Move (Fin 2))) 1 = some 1 :=
  ⟨(moves_keep_targets _ _).1, by decide, by decide⟩

end TrivialTask
