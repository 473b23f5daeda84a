import Evenk.FutexLock

/-!
# Mutual exclusion of `futex_lock`

The invariant `Excl` ties the lock word to the holders: it is 0, 1 or 2, at most one thread
holds the lock, and the word is 0 exactly when none does. Only the CAS, the `exchange(2)`,
`unlock`'s `fetch_sub` and its store write the word.
-/
namespace FutexLockExclusion

open FutexLock TransitionSystem

variable {τ : Type} [DecidableEq τ]

structure Excl (w : UInt32) (pc : τ → Pc) : Prop where
  word : w = 0 ∨ w = 1 ∨ w = 2
  one : ∀ t u, (pc t).holds → (pc u).holds → t = u
  free : w = 0 ↔ ∀ t, (pc t).holds = false

namespace Excl

variable {w : UInt32} {pc : τ → Pc} {t : τ} {p : Pc}

theorem holds_update (hp : p.holds = (pc t).holds) (u : τ) :
    (Function.update pc t p u).holds = (pc u).holds := by
  by_cases hu : u = t
  · subst hu
    simpa using hp
  · simp [hu]

theorem frame (h : Excl w pc) (hp : p.holds = (pc t).holds) :
    Excl w (Function.update pc t p) where
  word := h.word
  one u v hu hv := h.one u v (holds_update hp u ▸ hu) (holds_update hp v ▸ hv)
  free := by
    simp only [holds_update hp]
    exact h.free

theorem acquire (h : Excl 0 pc) (hp : p.holds) {w' : UInt32} (hw : w' = 1 ∨ w' = 2) :
    Excl w' (Function.update pc t p) where
  word := .inr hw
  one u v hu hv := by
    have hnone := h.free.mp rfl
    have hu' : u = t := by
      by_contra hne
      simp [hne, hnone u] at hu
    have hv' : v = t := by
      by_contra hne
      simp [hne, hnone v] at hv
    rw [hu', hv']
  free := by
    constructor
    · rintro rfl
      simp at hw
    · intro hall
      have := hall t
      simp [hp] at this

theorem reword (h : Excl w pc) (hw : w ≠ 0) (hp : p.holds = (pc t).holds) {w' : UInt32}
    (hw' : w' = 1 ∨ w' = 2) : Excl w' (Function.update pc t p) where
  word := .inr hw'
  one := (h.frame hp).one
  free := by
    have hsome : ¬ ∀ u, (pc u).holds = false := fun hall => hw (h.free.mpr hall)
    constructor
    · rintro rfl
      simp at hw'
    · intro hall
      exact absurd (fun u => holds_update hp u ▸ hall u) hsome

theorem release (h : Excl w pc) (ht : (pc t).holds) (hp : p.holds = false) :
    Excl 0 (Function.update pc t p) where
  word := .inl rfl
  one u v hu hv := by
    have hu' : u ≠ t := by
      rintro rfl
      simp [hp] at hu
    have hv' : v ≠ t := by
      rintro rfl
      simp [hp] at hv
    simp only [Function.update_of_ne hu', Function.update_of_ne hv'] at hu hv
    exact h.one u v hu hv
  free := by
    refine ⟨fun _ u => ?_, fun _ => rfl⟩
    by_cases hu : u = t
    · subst hu
      simpa using hp
    · have : (pc u).holds = false := by
        cases hh : (pc u).holds
        · rfl
        · exact absurd (h.one u t hh ht) hu
      simpa [hu] using this

omit [DecidableEq τ] in
theorem holder_word (h : Excl w pc) (ht : (pc t).holds) : w = 1 ∨ w = 2 := by
  rcases h.word with hw | hw
  · have := (h.free.mp hw) t
    simp [ht] at this
  · exact hw

end Excl

theorem afterUnlock_holds (k : Cont) : (afterUnlock k).holds = false := by
  cases k <;> rfl

theorem resume_holds (r : Resume) : r.pc.holds = false := by
  cases r <;> rfl

variable [Fintype τ]

theorem excl_step {t : τ} {s s' : State τ} (h : Excl s.lockWord s.pc) (hst : Step t s s') :
    Excl s'.lockWord s'.pc := by
  cases hst with
  | lockCall hpc => exact h.frame (by rw [hpc]; rfl)
  | lockCasOk hpc hw => exact (hw ▸ h).acquire rfl (.inl rfl)
  | lockCasFail backoff hpc hw => cases backoff <;> exact h.frame (by rw [hpc]; rfl)
  | lockContendTwo hpc hv => exact h.frame (by rw [hpc]; rfl)
  | lockContendXchg hpc hv =>
    by_cases hw : s.lockWord = 0
    · simp only [hw, if_true]
      exact (hw ▸ h).acquire rfl (.inr rfl)
    · simp only [hw, if_false]
      exact h.reword hw (by rw [hpc]; rfl) (.inr rfl)
  | lockXchg hpc =>
    by_cases hw : s.lockWord = 0
    · simp only [hw, if_true]
      exact (hw ▸ h).acquire rfl (.inr rfl)
    · simp only [hw, if_false]
      exact h.reword hw (by rw [hpc]; rfl) (.inr rfl)
  | lockSleep hpc hw => exact h.frame (by rw [hpc]; rfl)
  | lockPass hpc hw => exact h.frame (by rw [hpc]; rfl)
  | wakeUp hpc hq => exact h.frame (by rw [hpc, resume_holds]; rfl)
  | tryLock hpc hw => exact (hw ▸ h).acquire rfl (.inl rfl)
  | unlockCall hpc => exact h.frame (by rw [hpc]; rfl)
  | unlockSub hpc =>
    have ht : (s.pc t).holds := by rw [hpc]; rfl
    rcases h.holder_word ht with hw | hw
    · simp only [hw, if_true]
      exact h.release ht (afterUnlock_holds _)
    · simp only [hw]
      exact h.reword (by rw [hw]; decide) (by rw [hpc]; rfl) (.inl rfl)
  | unlockStore hpc => exact h.release (by rw [hpc]; rfl) rfl
  | unlockWake hpc hwake => exact h.frame (by rw [hpc, afterUnlock_holds]; rfl)
  | waitCall hpc => exact h.frame (by rw [hpc]; rfl)
  | waitLoad hpc => exact h.frame (by rw [hpc]; rfl)
  | waitSleep hpc hv => exact h.frame (by rw [hpc]; rfl)
  | waitPass hpc hv => exact h.frame (by rw [hpc]; rfl)
  | waitDec hpc => exact h.frame (by rw [hpc]; rfl)
  | notifyCall all hpc => exact h.frame (by rw [hpc]; rfl)
  | notifyLoad hpc =>
    refine h.frame ?_
    rw [hpc]
    split_ifs <;> rfl
  | notifyWake hpc hwake => exact h.frame (by rw [hpc]; rfl)
  | notifyRequeue hpc hreq => exact h.frame (by rw [hpc]; rfl)

theorem excl_inductive :
    Inductive (system : System τ (State τ)) fun s => Excl s.lockWord s.pc := by
  refine ⟨fun s hs => ?_, fun t s s' h hst => excl_step h hst⟩
  subst hs
  exact ⟨.inl rfl, fun t u ht _ => by simp [State.init, Pc.holds] at ht,
    by simp [State.init, Pc.holds]⟩

/-- In every reachable state at most one thread holds the lock, the word is 0, 1 or 2, and it
is 0 only when no thread holds the lock. -/
theorem futex_lock_mutual_exclusion {s : State τ} (h : Reachable system s) :
    (∀ t u, (s.pc t).holds → (s.pc u).holds → t = u) ∧
      (s.lockWord = 0 ∨ s.lockWord = 1 ∨ s.lockWord = 2) ∧
      (s.lockWord = 0 → ∀ t, (s.pc t).holds = false) := by
  have hx := excl_inductive.reachable h
  exact ⟨hx.one, hx.word, hx.free.mp⟩

/-- Of two threads, the first has taken the lock by its CAS. -/
theorem futex_lock_mutual_exclusion_taken :
    let s : State (Fin 2) := { (State.init.setPc 0 .lockCas).setPc 0 .held with lockWord := 1 }
    Reachable system s ∧ ((∀ t u, (s.pc t).holds → (s.pc u).holds → t = u) ∧
      (s.lockWord = 0 ∨ s.lockWord = 1 ∨ s.lockWord = 2) ∧
      (s.lockWord = 0 → ∀ t, (s.pc t).holds = false)) := by
  intro s
  have h₁ : Reachable system (State.init.setPc (0 : Fin 2) .lockCas) :=
    .step 0 (.init rfl) (Step.lockCall rfl)
  have h₂ : Reachable system s := .step 0 h₁ (Step.lockCasOk (by simp) rfl)
  exact ⟨h₂, futex_lock_mutual_exclusion h₂⟩

end FutexLockExclusion
