import Mathlib.Data.List.Basic

/-!
# Computations that may fault

The model's fallible code runs in `Except ε`; binds are pushed through by simp lemmas, and a
successful bind is taken apart by `bind_eq_ok`.
-/
namespace Fallible

variable {ε α β : Type}

@[simp] theorem error_bind (e : ε) (f : α → Except ε β) :
    (Except.error e >>= f) = Except.error e := rfl

@[simp] theorem ok_bind (a : α) (f : α → Except ε β) : (Except.ok a >>= f) = f a := rfl

@[simp] theorem pure_eq_ok (a : α) : (pure a : Except ε α) = Except.ok a := rfl

theorem bind_eq_ok {x : Except ε α} {f : α → Except ε β} {b : β} (h : (x >>= f) = .ok b) :
    ∃ a, x = .ok a ∧ f a = .ok b := by
  cases x with
  | error e => cases h
  | ok a => exact ⟨a, rfl, h⟩

/-- A computation that ends in a fault. -/
def Fails (x : Except ε α) : Prop := ∃ e, x = .error e

theorem Fails.bind {x : Except ε α} (f : α → Except ε β) (h : Fails x) : Fails (x >>= f) := by
  obtain ⟨e, rfl⟩ := h
  exact ⟨e, rfl⟩

end Fallible
