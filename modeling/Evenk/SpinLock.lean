import Evenk.TransitionSystem

/-!
# The flag spin locks (`spinlock.h`)

`spin_lock` spins on `test_and_set`; `tatas_lock` exchanges and spins on loads in between. Each
atomic operation is one step. `spin_lock` keeps mutual exclusion, and `tatas_lock` refines it once
a thread in the load loop is read as one retrying `test_and_set`.
-/
namespace SpinLock

open TransitionSystem

/-- Where a thread is in `spin_lock`'s code. -/
inductive Pc where
  /-- Outside the lock. -/
  | idle
  /-- In `lock`'s loop, at its `test_and_set`. -/
  | trying
  /-- It holds the lock. -/
  | holds
  deriving DecidableEq, Repr

def Pc.isHolds : Pc → Bool
  | .holds => true
  | _ => false

structure State (τ : Type) where
  /-- `lock_`. -/
  flag : Bool
  pc : τ → Pc

variable {τ : Type}

def init : State τ := ⟨false, fun _ => .idle⟩

section Holders

variable [Fintype τ]

def holders (pc : τ → Pc) : Finset τ := Finset.univ.filter fun u => (pc u).isHolds

theorem mem_holders {pc : τ → Pc} {u : τ} : u ∈ holders pc ↔ pc u = .holds := by
  simp only [holders, Finset.mem_filter, Finset.mem_univ, true_and]
  cases pc u <;> simp [Pc.isHolds]

/-- The flag is set exactly while one thread holds the lock. -/
def FlagExact (s : State τ) : Prop := (holders s.pc).card = if s.flag then 1 else 0

theorem FlagExact.flag_iff {s : State τ} (hf : FlagExact s) :
    s.flag = true ↔ ∃ u, s.pc u = .holds := by
  unfold FlagExact at hf
  constructor
  · intro h
    rw [h, if_pos rfl] at hf
    obtain ⟨u, hu⟩ := Finset.card_pos.mp (by omega : 0 < (holders s.pc).card)
    exact ⟨u, mem_holders.mp hu⟩
  · rintro ⟨u, hu⟩
    have hpos : 0 < (holders s.pc).card := Finset.card_pos.mpr ⟨u, mem_holders.mpr hu⟩
    cases hflag : s.flag
    · rw [hflag] at hf
      simp only [Bool.false_eq_true, if_false] at hf
      omega
    · rfl

theorem FlagExact.unique {s : State τ} (hf : FlagExact s) {u v : τ} (hu : s.pc u = .holds)
    (hv : s.pc v = .holds) : u = v := by
  have hle : (holders s.pc).card ≤ 1 := by
    unfold FlagExact at hf
    split_ifs at hf <;> omega
  exact Finset.card_le_one.mp hle u (mem_holders.mpr hu) v (mem_holders.mpr hv)

end Holders

variable [DecidableEq τ]

/-- One atomic step of thread `t`. `test_and_set` sets the flag and returns its old value; the
lock is taken when that was `false`. -/
inductive Step : τ → State τ → State τ → Prop
  /-- A call to `lock`. -/
  | lock {s : State τ} {t : τ} (h : s.pc t = .idle) :
      Step t s ⟨s.flag, Function.update s.pc t .trying⟩
  /-- `lock`'s `test_and_set`; on `true` the loop backs off and tries again. -/
  | testAndSet {s : State τ} {t : τ} (h : s.pc t = .trying) :
      Step t s ⟨true, Function.update s.pc t (if s.flag then .trying else .holds)⟩
  /-- `try_lock`: one `test_and_set`, which takes the lock if it returns `false`. -/
  | tryLock {s : State τ} {t : τ} (h : s.pc t = .idle) :
      Step t s ⟨true, Function.update s.pc t (if s.flag then .idle else .holds)⟩
  /-- `unlock`: `clear`. -/
  | unlock {s : State τ} {t : τ} (h : s.pc t = .holds) :
      Step t s ⟨false, Function.update s.pc t .idle⟩

def system : System τ (State τ) where
  init s := s = init
  step := Step

section Exclusion

variable [Fintype τ]

theorem flagExact_testAndSet {s : State τ} {t : τ} {p : Pc} (hf : FlagExact s)
    (ht : (s.pc t).isHolds = false) (hp : p.isHolds = false) :
    FlagExact ⟨true, Function.update s.pc t (if s.flag then p else .holds)⟩ := by
  unfold FlagExact holders at hf ⊢
  cases hflag : s.flag
  · -- the flag was clear: `t` is the first and only holder
    rw [hflag] at hf
    simp only [Bool.false_eq_true, if_false, if_true] at hf ⊢
    rw [card_filter_update_of_true Pc.isHolds s.pc t .holds rfl ht, hf]
  · -- the flag was set: nobody new holds the lock
    rw [hflag] at hf
    simp only [if_true] at hf ⊢
    rw [filter_update_of_eq Pc.isHolds s.pc t p (by rw [hp, ht]), hf]

theorem flagExact_unlock {s : State τ} {t : τ} (hf : FlagExact s) (ht : s.pc t = .holds) :
    FlagExact ⟨false, Function.update s.pc t .idle⟩ := by
  have hflag : s.flag = true := hf.flag_iff.mpr ⟨t, ht⟩
  unfold FlagExact holders at hf ⊢
  rw [hflag, if_pos rfl] at hf
  have h := card_filter_update_of_false Pc.isHolds s.pc t .idle rfl (by rw [ht]; rfl)
  simp only [Bool.false_eq_true, if_false]
  omega

theorem flagExact_step {t : τ} {s s' : State τ} (hf : FlagExact s) (h : Step t s s') :
    FlagExact s' := by
  cases h with
  | lock ht =>
    unfold FlagExact holders at hf ⊢
    rwa [filter_update_of_eq Pc.isHolds s.pc t .trying (by rw [ht]; rfl)]
  | testAndSet ht => exact flagExact_testAndSet hf (by rw [ht]; rfl) rfl
  | tryLock ht => exact flagExact_testAndSet hf (by rw [ht]; rfl) rfl
  | unlock ht => exact flagExact_unlock hf ht

theorem flagExact_inductive : Inductive (system : System τ (State τ)) FlagExact := by
  refine ⟨fun s hs => ?_, fun _ _ _ hf h => flagExact_step hf h⟩
  rw [show s = init from hs]
  simp [FlagExact, holders, init, Pc.isHolds]

/-- In every reachable state of `spin_lock`, with any number of threads, the flag is set
exactly when some thread holds the lock, and no two threads hold it. -/
theorem spin_lock_mutual_exclusion {s : State τ} (hs : Reachable system s) :
    (s.flag = true ↔ ∃ u, s.pc u = .holds) ∧
      ∀ u v, s.pc u = .holds → s.pc v = .holds → u = v :=
  have hf := flagExact_inductive.reachable hs
  ⟨hf.flag_iff, fun _ _ hu hv => hf.unique hu hv⟩

/-- Thread `0` takes the lock with `try_lock`; thread `1`'s `test_and_set` then finds the flag
set and keeps trying. -/
theorem spin_lock_mutual_exclusion_contended :
    ∃ s : State (Fin 2), Reachable system s ∧ s.pc 0 = .holds ∧ s.pc 1 = .trying ∧
      ((s.flag = true ↔ ∃ u, s.pc u = .holds) ∧
        ∀ u v, s.pc u = .holds → s.pc v = .holds → u = v) := by
  have h₀ : Reachable (system : System (Fin 2) (State (Fin 2))) init := .init rfl
  have h₁ := Reachable.step 0 h₀ (Step.tryLock (s := init) (by rfl))
  have h₂ := Reachable.step 1 h₁ (Step.lock (by rfl))
  have h₃ := Reachable.step 1 h₂ (Step.testAndSet (by rfl))
  exact ⟨_, h₃, rfl, rfl, spin_lock_mutual_exclusion h₃⟩

end Exclusion

end SpinLock

namespace TatasLock

open TransitionSystem

/-- Where a thread is in `tatas_lock`'s code. -/
inductive Pc where
  /-- Outside the lock. -/
  | idle
  /-- In `lock`'s outer loop, at its `exchange(true)`. -/
  | exchanging
  /-- In `lock`'s inner loop, at its `load`. -/
  | loading
  /-- It holds the lock. -/
  | holds
  deriving DecidableEq, Repr

structure State (τ : Type) where
  /-- `lock_`. -/
  flag : Bool
  pc : τ → Pc

variable {τ : Type}

def init : State τ := ⟨false, fun _ => .idle⟩

variable [DecidableEq τ]

/-- One atomic step of thread `t`. -/
inductive Step : τ → State τ → State τ → Prop
  /-- A call to `lock`. -/
  | lock {s : State τ} {t : τ} (h : s.pc t = .idle) :
      Step t s ⟨s.flag, Function.update s.pc t .exchanging⟩
  /-- `lock`'s `exchange(true)`: the lock is taken if the old value was `false`, else the
  thread backs off and spins on loads. -/
  | exchange {s : State τ} {t : τ} (h : s.pc t = .exchanging) :
      Step t s ⟨true, Function.update s.pc t (if s.flag then .loading else .holds)⟩
  /-- The inner loop's `load`: it spins while the flag reads `true`, and exchanges again once it
  reads `false`. -/
  | load {s : State τ} {t : τ} (h : s.pc t = .loading) :
      Step t s ⟨s.flag, Function.update s.pc t (if s.flag then .loading else .exchanging)⟩
  /-- `try_lock`: one `exchange(true)`. -/
  | tryLock {s : State τ} {t : τ} (h : s.pc t = .idle) :
      Step t s ⟨true, Function.update s.pc t (if s.flag then .idle else .holds)⟩
  /-- `unlock`: `store(false)`. -/
  | unlock {s : State τ} {t : τ} (h : s.pc t = .holds) :
      Step t s ⟨false, Function.update s.pc t .idle⟩

def system : System τ (State τ) where
  init s := s = init
  step := Step

/-! ## `tatas_lock` refines `spin_lock` -/

/-- A thread in either loop of `lock` is one trying to take the lock. -/
def Pc.abstract : Pc → SpinLock.Pc
  | .idle => .idle
  | .exchanging | .loading => .trying
  | .holds => .holds

/-- The `spin_lock` state that a `tatas_lock` state stands for: the same flag, and each thread
at the place of `spin_lock`'s code that does what its own place does. -/
def State.abstract (s : State τ) : SpinLock.State τ := ⟨s.flag, Pc.abstract ∘ s.pc⟩

omit [DecidableEq τ] in
theorem abstract_pc (s : State τ) (u : τ) : s.abstract.pc u = (s.pc u).abstract := rfl

theorem abstract_update (f : Bool) (pc : τ → Pc) (t : τ) (p : Pc) :
    (⟨f, Function.update pc t p⟩ : State τ).abstract =
      ⟨f, Function.update (Pc.abstract ∘ pc) t p.abstract⟩ := by
  simp only [State.abstract, Function.comp_update]

/-- Every step of `tatas_lock` is the same thread's step of `spin_lock`, except a load, which
the abstraction does not see. -/
theorem abstract_step {t : τ} {s s' : State τ} (h : Step t s s') :
    s'.abstract = s.abstract ∨ SpinLock.Step t s.abstract s'.abstract := by
  cases h with
  | lock ht =>
    refine .inr ?_
    rw [abstract_update]
    exact SpinLock.Step.lock (by rw [abstract_pc, ht]; rfl)
  | exchange ht =>
    refine .inr ?_
    rw [abstract_update, apply_ite Pc.abstract]
    exact SpinLock.Step.testAndSet (by rw [abstract_pc, ht]; rfl)
  | load ht =>
    refine .inl ?_
    have hp : (if s.flag then Pc.loading else .exchanging).abstract = (s.pc t).abstract := by
      rw [ht]
      split_ifs <;> rfl
    rw [abstract_update, hp]
    simp only [State.abstract]
    rw [← Function.comp_apply (f := Pc.abstract) (g := s.pc), Function.update_eq_self]
  | tryLock ht =>
    refine .inr ?_
    rw [abstract_update, apply_ite Pc.abstract]
    exact SpinLock.Step.tryLock (by rw [abstract_pc, ht]; rfl)
  | unlock ht =>
    refine .inr ?_
    rw [abstract_update]
    exact SpinLock.Step.unlock (by rw [abstract_pc, ht]; rfl)

theorem tatas_refines_spin {s : State τ} (hs : Reachable system s) :
    Reachable SpinLock.system s.abstract :=
  Reachable.map State.abstract (fun s (hs : s = init) => by rw [hs]; rfl)
    (fun _ _ _ _ h => (abstract_step h).imp_right fun h => ⟨_, h⟩) hs

/-- Every reachable state of `tatas_lock`, with any number of threads, stands for a reachable
state of `spin_lock`; so its flag is set exactly when some thread holds the lock, and no two
threads hold it. -/
theorem tatas_lock_mutual_exclusion [Fintype τ] {s : State τ} (hs : Reachable system s) :
    Reachable SpinLock.system s.abstract ∧ (s.flag = true ↔ ∃ u, s.pc u = .holds) ∧
      ∀ u v, s.pc u = .holds → s.pc v = .holds → u = v := by
  have hr := tatas_refines_spin hs
  have hf := SpinLock.flagExact_inductive.reachable hr
  -- a thread holds the `tatas_lock` exactly when it holds the `spin_lock` it stands for
  have hholds : ∀ u, s.pc u = .holds ↔ s.abstract.pc u = .holds := fun u => by
    rw [abstract_pc]
    cases s.pc u <;> simp [Pc.abstract]
  refine ⟨hr, ?_, fun u v hu hv => hf.unique ((hholds u).mp hu) ((hholds v).mp hv)⟩
  simp only [hholds]
  exact hf.flag_iff

/-- Thread `0` takes the lock; thread `1`'s `exchange` finds the flag set and it spins on
loads, which keep reading `true`. -/
theorem tatas_lock_mutual_exclusion_spinning :
    ∃ s : State (Fin 2), Reachable system s ∧ s.pc 0 = .holds ∧ s.pc 1 = .loading ∧
      (Reachable SpinLock.system s.abstract ∧ (s.flag = true ↔ ∃ u, s.pc u = .holds) ∧
        ∀ u v, s.pc u = .holds → s.pc v = .holds → u = v) := by
  have h₀ : Reachable (system : System (Fin 2) (State (Fin 2))) init := .init rfl
  have h₁ := Reachable.step 0 h₀ (Step.lock (s := init) (by rfl))
  have h₂ := Reachable.step 0 h₁ (Step.exchange (by rfl))
  have h₃ := Reachable.step 1 h₂ (Step.lock (by rfl))
  have h₄ := Reachable.step 1 h₃ (Step.exchange (by rfl))
  have h₅ := Reachable.step 1 h₄ (Step.load (by rfl))
  exact ⟨_, h₅, rfl, rfl, tatas_lock_mutual_exclusion h₅⟩

end TatasLock
