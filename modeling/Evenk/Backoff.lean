import Mathlib.Data.Nat.Init

/-!
# Back-off policies (`backoff.h`)

A policy maps its state before a call to the `Pause` count it uses, whether the ceiling is
reached, and its state after. `linear_backoff` and `exponential_backoff` share one body that
clamps a `uint32_t` count at the ceiling; they differ in how much they add.
-/
namespace Backoff

/-- What one call does: the argument passed to `Pause`, if any, and the value returned. -/
structure Call where
  pause : Option UInt32
  reached : Bool
  deriving DecidableEq, Repr

variable {σ σ₁ σ₂ : Type}

/-- The state after `n` calls from `s`. -/
def after (f : σ → Call × σ) : ℕ → σ → σ
  | 0, s => s
  | n + 1, s => after f n (f s).2

/-- Call number `n` from `s`, counting from 0. -/
def nth (f : σ → Call × σ) (n : ℕ) (s : σ) : Call := (f (after f n s)).1

def noBackoff (_ : Unit) : Call × Unit := (⟨none, true⟩, ())

/-- `yield_backoff`: `std::this_thread::yield()`, which is not a pause. -/
def yieldBackoff (_ : Unit) : Call × Unit := (⟨none, false⟩, ())

def constBackoff (count : UInt32) (_ : Unit) : Call × Unit := (⟨some count, false⟩, ())

/-- The body of `linear_backoff` and `exponential_backoff`: `Pause(count_)`,
`count_ += grow(count_)`, and `if (count_ > ceiling) { count_ = ceiling; return true; }`. -/
def clampedBackoff (ceiling : UInt32) (grow : UInt32 → UInt32) (count : UInt32) :
    Call × UInt32 :=
  let count' := count + grow count
  if count' > ceiling then (⟨some count, true⟩, ceiling) else (⟨some count, false⟩, count')

/-- `linear_backoff<Pause, ceiling, step>`: `count_ += step`. -/
def linearBackoff (ceiling step : UInt32) : UInt32 → Call × UInt32 :=
  clampedBackoff ceiling fun _ => step

/-- `exponential_backoff<Pause, ceiling>`: `count_ += count_ + 1`. -/
def exponentialBackoff (ceiling : UInt32) : UInt32 → Call × UInt32 :=
  clampedBackoff ceiling fun count => count + 1

/-- Both policies start with `count_ = 0`. -/
def initialCount : UInt32 := 0

/-- `proportional_backoff<Pause, count>` called through `proportional_adapter` with `factor`. -/
def proportionalBackoff (count factor : UInt32) (_ : Unit) : Call × Unit :=
  (⟨some (count * factor), false⟩, ())

structure CompositeState (σ₁ σ₂ : Type) where
  first : σ₁
  second : σ₂
  useSecond : Bool

/-- The constructor sets `use_second_{false}`. -/
def CompositeState.init (a : σ₁) (b : σ₂) : CompositeState σ₁ σ₂ := ⟨a, b, false⟩

/-- `composite_backoff<FirstBackoff, SecondBackoff>`: once the first policy has returned
`true`, every call goes to the second; the call on which the first returns `true` itself
returns `false`. -/
def compositeBackoff (a : σ₁ → Call × σ₁) (b : σ₂ → Call × σ₂) (s : CompositeState σ₁ σ₂) :
    Call × CompositeState σ₁ σ₂ :=
  if s.useSecond then
    ((b s.second).1, { s with second := (b s.second).2 })
  else
    (⟨(a s.first).1.pause, false⟩,
      { s with first := (a s.first).2, useSecond := (a s.first).1.reached })

end Backoff
