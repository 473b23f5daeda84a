import Mathlib.Logic.Relation
import Mathlib.Data.Fintype.Card

/-!
# Labelled transition systems and their invariants

Reachable states, inductive invariants, systems restricted to an assumption on the states they
reach, and refinement by a map of states that sends each step to a step or a stutter.
-/
namespace TransitionSystem

structure System (α σ : Type*) where
  init : σ → Prop
  step : α → σ → σ → Prop

variable {α σ : Type*} (S : System α σ)

inductive Reachable : σ → Prop where
  | init {s} : S.init s → Reachable s
  | step {s t} (a : α) : Reachable s → S.step a s t → Reachable t

def Inductive (I : σ → Prop) : Prop :=
  (∀ s, S.init s → I s) ∧ ∀ a s t, I s → S.step a s t → I t

/-- Only the steps whose target state satisfies the assumption `P`. -/
def System.restrict (P : σ → Prop) : System α σ where
  init s := S.init s ∧ P s
  step a s t := S.step a s t ∧ P t

variable {S}

theorem Inductive.reachable {I : σ → Prop} (h : Inductive S I) {s : σ} (hs : Reachable S s) :
    I s := by
  induction hs with
  | init hi => exact h.1 _ hi
  | step a _ hst ih => exact h.2 a _ _ ih hst

/-- An invariant may be proved with the help of one already known on reachable states. -/
theorem reachable_of_step {I J : σ → Prop} (hJ : ∀ s, Reachable S s → J s)
    (h0 : ∀ s, S.init s → I s) (h1 : ∀ a s t, Reachable S s → J s → I s → S.step a s t → I t)
    {s : σ} (hs : Reachable S s) : I s := by
  induction hs with
  | init hi => exact h0 _ hi
  | step a hr hst ih => exact h1 a _ _ hr (hJ _ hr) ih hst

theorem Reachable.restrict {P : σ → Prop} {s : σ} (h : Reachable (S.restrict P) s) :
    Reachable S s ∧ P s := by
  induction h with
  | init hi => exact ⟨.init hi.1, hi.2⟩
  | step a _ hst ih => exact ⟨.step a ih.1 hst.1, hst.2⟩

theorem Reachable.tail {s t : σ} (hs : Reachable S s) {a : α} (h : S.step a s t) :
    Reachable S t := .step a hs h

/-- A map of states under which every step is a step of the other system or leaves the image
as it was (a stutter) takes reachable states to reachable states: the first system refines the
second. -/
theorem Reachable.map {β ρ : Type*} {T : System β ρ} (f : σ → ρ)
    (hinit : ∀ s, S.init s → T.init (f s))
    (hstep : ∀ a s t, Reachable S s → S.step a s t → f t = f s ∨ ∃ b, T.step b (f s) (f t))
    {s : σ} (h : Reachable S s) : Reachable T (f s) := by
  induction h with
  | init hi => exact .init (hinit _ hi)
  | step a hr hst ih =>
    rcases hstep a _ _ hr hst with heq | ⟨b, hb⟩
    · rw [heq]
      exact ih
    · exact .step b ih hb

/-! ## The threads in one kind of place -/

section Places

variable {τ π : Type*} [Fintype τ] [DecidableEq τ] (g : π → Bool) (pc : τ → π) (t : τ) (p : π)

theorem filter_update_of_true (hp : g p) :
    Finset.univ.filter (fun u => g (Function.update pc t p u)) =
      insert t (Finset.univ.filter fun u => g (pc u)) := by
  ext u
  by_cases hu : u = t
  · subst hu
    simp [hp]
  · simp [hu]

theorem filter_update_of_false (hp : g p = false) :
    Finset.univ.filter (fun u => g (Function.update pc t p u)) =
      (Finset.univ.filter fun u => g (pc u)).erase t := by
  ext u
  by_cases hu : u = t
  · subst hu
    simp [hp]
  · simp [hu]

theorem card_filter_update_of_true (hp : g p) (ht : g (pc t) = false) :
    (Finset.univ.filter fun u => g (Function.update pc t p u)).card =
      (Finset.univ.filter fun u => g (pc u)).card + 1 := by
  rw [filter_update_of_true g pc t p hp]
  exact Finset.card_insert_of_notMem (by simp [ht])

theorem card_filter_update_of_false (hp : g p = false) (ht : g (pc t)) :
    (Finset.univ.filter fun u => g (Function.update pc t p u)).card + 1 =
      (Finset.univ.filter fun u => g (pc u)).card := by
  rw [filter_update_of_false g pc t p hp]
  exact Finset.card_erase_add_one (by simp [ht])

theorem filter_update_of_eq (hp : g p = g (pc t)) :
    Finset.univ.filter (fun u => g (Function.update pc t p u)) =
      Finset.univ.filter fun u => g (pc u) := by
  cases hq : g p
  · rw [filter_update_of_false g pc t p hq, Finset.erase_eq_of_notMem (by simp [← hp, hq])]
  · rw [filter_update_of_true g pc t p hq, Finset.insert_eq_of_mem (by simp [← hp, hq])]

end Places

end TransitionSystem
