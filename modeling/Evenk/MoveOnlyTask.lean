import Evenk.Fallible

/-!
# Move-only tasks (`task.h`)

A `task<R, S, A>` keeps `invoke_`, the buffer `memory_`, the allocator and `helper_`; a large
target lives in an allocated block. Targets and blocks live in a store that logs every
destruction and deallocation. A call through a null `helper_`, a read of an empty buffer and a
recursion deeper than the stack are faults; `operator=` and `std::swap` recurse on a fuel.
-/
namespace MoveOnlyTask

/-- A target type, the template argument `Target` of the adapters, with its `sizeof`. -/
structure TargetType where
  name : ℕ
  size : ℕ
  deriving DecidableEq, Repr

def fptrSize : UInt64 := 8

def fptrAlign : UInt64 := 8

/-- `detail::task_memory_size`. -/
def taskMemorySize (size : UInt64) : UInt64 :=
  max ((size + fptrAlign - 1) &&& ~~~(fptrAlign - 1)) fptrSize

/-- `task_adapter<T, memory_size, A>` is the small adapter when `sizeof(T) <= memory_size`. -/
def isSmall (memorySize : UInt64) (T : TargetType) : Bool := T.size ≤ memorySize.toNat

/-- What the buffer `memory_` holds. -/
inductive Memory where
  | zero
  | object (o : ℕ)
  | pointer (b : Option ℕ)
  deriving DecidableEq, Repr

/-- The function `invoke_` points to. -/
inductive InvokeFn where
  | invalidInvoke
  | invoke (T : TargetType)
  deriving DecidableEq, Repr

structure TaskRec (A : Type) where
  invoke : InvokeFn
  memory : Memory
  alloc : A
  helper : Option TargetType

inductive Fault where
  | nullHelper
  | invalidAccess
  | stackOverflow
  deriving DecidableEq, Repr

/-- Live target objects, blocks with the allocator that allocated them and the object each
holds, and the logs of destructions and deallocations. -/
structure Store (A : Type) where
  objects : ℕ → Option TargetType
  nextObject : ℕ
  blocks : ℕ → Option A
  blockObject : ℕ → Option ℕ
  nextBlock : ℕ
  destroyed : List ℕ
  freed : List (ℕ × A)

variable {A : Type}

def Store.empty : Store A := ⟨fun _ => none, 0, fun _ => none, fun _ => none, 0, [], []⟩

namespace Store

def construct (s : Store A) (T : TargetType) : ℕ × Store A :=
  (s.nextObject, { s with objects := Function.update s.objects s.nextObject (some T),
                          nextObject := s.nextObject + 1 })

def destroy (s : Store A) (o : ℕ) : Store A :=
  { s with objects := Function.update s.objects o none, destroyed := s.destroyed ++ [o] }

def allocate (s : Store A) (a : A) : ℕ × Store A :=
  (s.nextBlock, { s with blocks := Function.update s.blocks s.nextBlock (some a),
                         nextBlock := s.nextBlock + 1 })

def deallocate (s : Store A) (b : ℕ) (a : A) : Store A :=
  { s with blocks := Function.update s.blocks b none, freed := s.freed ++ [(b, a)] }

end Store

variable (memorySize : UInt64)

/-- `adapter.get(memory)`: the target object the buffer leads to. -/
def adapterGet (s : Store A) (T : TargetType) : Memory → Except Fault ℕ
  | .object o => if isSmall memorySize T then .ok o else .error .invalidAccess
  | .pointer (some b) =>
    if isSmall memorySize T then .error .invalidAccess
    else match s.blockObject b with
      | some o => .ok o
      | none => .error .invalidAccess
  | _ => .error .invalidAccess

/-- `adapter.move(memory, other_memory)`: the small adapter move-constructs a new target in
the buffer and destroys the old one; the large one takes the pointer and clears the other. -/
def adapterMove (s : Store A) (T : TargetType) (other : Memory) :
    Except Fault (Store A × Memory × Memory) :=
  if isSmall memorySize T then do
    let o ← adapterGet memorySize s T other
    let (o', s) := s.construct T
    pure (s.destroy o, .object o', other)
  else pure (s, other, .pointer none)

/-- `helper<Target>(this_task, other_task)`: move from `other`, or, for a null `other`,
destroy the target and return its block through this task's allocator. -/
def helper (s : Store A) (T : TargetType) (this : TaskRec A) :
    Option (TaskRec A) → Except Fault (Store A × TaskRec A × Option (TaskRec A))
  | some other => do
    let (s, m, m') ← adapterMove memorySize s T other.memory
    pure (s, { this with memory := m }, some { other with memory := m' })
  | none => do
    let o ← adapterGet memorySize s T this.memory
    let s := s.destroy o
    if isSmall memorySize T then pure (s, this, none)
    else match this.memory with
      | .pointer (some b) => pure (s.deallocate b this.alloc, this, none)
      | _ => .error .invalidAccess

/-- `task()`: `invoke_` is `invalid_invoke` and the allocator is `A()`. -/
def defaultTask [Inhabited A] : TaskRec A :=
  ⟨.invalidInvoke, .zero, default, none⟩

/-- `task(callable, alloc)`: allocate for a large target, build the target, set the helper. -/
def construct (s : Store A) (T : TargetType) (a : A) : Store A × TaskRec A :=
  if isSmall memorySize T then
    let (o, s) := s.construct T
    (s, ⟨.invoke T, .object o, a, some T⟩)
  else
    let (b, s) := s.allocate a
    let (o, s) := s.construct T
    ({ s with blockObject := Function.update s.blockObject b (some o) },
      ⟨.invoke T, .pointer (some b), a, some T⟩)

/-- `task(task &&other)`: copy `invoke_`, default-construct the wrapper, call the other's
helper, swap the helpers and make the other's `invoke_` invalid. -/
def moveConstruct [Inhabited A] (s : Store A) (other : TaskRec A) :
    Except Fault (Store A × TaskRec A × TaskRec A) := do
  let this : TaskRec A := ⟨other.invoke, .zero, default, none⟩
  match other.helper with
  | none => .error .nullHelper
  | some T =>
    let (s, this, other') ← helper memorySize s T this (some other)
    match other' with
    | some other' =>
      pure (s, { this with helper := other'.helper },
        { other' with helper := this.helper, invoke := .invalidInvoke })
    | none => .error .invalidAccess

/-- `~task()`: the helper runs only when `operator bool` holds. -/
def destroy (s : Store A) (this : TaskRec A) : Except Fault (Store A) :=
  match this.helper with
  | none => .ok s
  | some T => do
    let (s, _, _) ← helper memorySize s T this none
    pure s

mutual

/-- `operator=(task &&other)`: `task(std::move(other)).swap(*this)`, then the temporary dies. -/
def moveAssign [Inhabited A] : ℕ → Store A → TaskRec A → TaskRec A →
    Except Fault (Store A × TaskRec A × TaskRec A)
  | 0, _, _, _ => .error .stackOverflow
  | fuel + 1, s, this, other => do
    let (s, temp, other) ← moveConstruct memorySize s other
    let (s, temp, this) ← swap fuel s temp this
    let s ← destroy memorySize s temp
    pure (s, this, other)

/-- `swap(other)`: `std::swap(*this, other)`, which moves `a` into a local, move-assigns
`b` to `a` and the local to `b`, and lets the local die. -/
def swap [Inhabited A] : ℕ → Store A → TaskRec A → TaskRec A →
    Except Fault (Store A × TaskRec A × TaskRec A)
  | 0, _, _, _ => .error .stackOverflow
  | fuel + 1, s, a, b => do
    let (s, tmp, a) ← moveConstruct memorySize s a
    let (s, a, b) ← moveAssign fuel s a b
    let (s, b, tmp) ← moveAssign fuel s b tmp
    let s ← destroy memorySize s tmp
    pure (s, a, b)

end

/-- What calling a task does: run a target object, or throw `bad_function_call`. -/
inductive Outcome where
  | ran (o : ℕ)
  | badFunctionCall
  deriving DecidableEq, Repr

/-- `operator()`: `(*invoke_)(&memory_)`. -/
def invoke (s : Store A) (this : TaskRec A) : Except Fault Outcome :=
  match this.invoke with
  | .invalidInvoke => .ok .badFunctionCall
  | .invoke T => (adapterGet memorySize s T this.memory).map Outcome.ran

end MoveOnlyTask
