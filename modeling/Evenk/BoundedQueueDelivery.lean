import Evenk.BoundedQueueSteps

/-!
# Exactly-once delivery of the threaded ring

The invariant holds in every state of a run that keeps to the assumptions on runs: one
`close`, tickets within a window of `2 ^ 31`, and no more consumers than `detail::counter`
allows. Over the ghost records it gives ticket-ordered, exactly-once delivery, and when the
value's assignments throw, no slot falls behind the tickets it serves.
-/
namespace BoundedQueueDelivery

open BoundedQueue BoundedQueueRing BoundedQueueRing.BoundedRing BoundedQueueThreads
open BoundedQueueInvariant BoundedQueueSteps TransitionSystem

variable {V τ : Type} [DecidableEq τ] {P : Policy} {throws : Bool}

/-! ## Every step, every run -/

theorem inv_step {s s' : State V τ} {t : τ} (hinv : Inv P throws s) (hA : Assumptions P s)
    (hone : s'.closes ≤ 1) (h : Step P throws t s s') : Inv P throws s' := by
  obtain ⟨-, hwin, hsingle⟩ := hA
  cases h with
  | pushDraw v hpc => exact inv_pushDraw hinv v hpc
  | pushLoad hpc => exact inv_pushLoad hinv hwin hpc
  | pushCheck hpc => exact inv_pushCheck hinv hpc
  | pushPut hpc => exact inv_pushPut hinv hpc
  | pushPutThrow junk hth hpc => exact inv_pushPutThrow hinv junk hth hpc
  | pushWake hpc => exact inv_pushWake hinv hpc
  | popCall hpc => exact inv_popCall hinv hpc
  | popDraw hpc => exact inv_popDraw hinv hsingle hpc
  | popLoad hpc => exact inv_popLoad hinv hwin hpc
  | popCheck hpc => exact inv_popCheck hinv hwin (.inl hpc) (.inl rfl) ⟨fun _ => rfl, fun _ => hpc⟩
  | popStatusLoad hpc => exact inv_popStatusLoad hinv hpc
  | popStatusCheck hpc =>
    exact inv_popCheck hinv hwin (.inr hpc) (.inr rfl)
      ⟨fun h => (nomatch hpc.symm.trans h), fun h => (nomatch h)⟩
  | waitFlag _ _ hw => exact inv_waitFlag hinv hw
  | waitReturn hw => exact inv_waitReturn hinv hw
  | popGet hpc => exact inv_popGet hinv hpc
  | popGetThrow junk hth hpc => exact inv_popGetThrow hinv junk hth hpc
  | popWake hpc => exact inv_popWake hinv hpc
  | tryPopHead hpc => exact inv_tryPopHead hinv hpc
  | tryPopLoad hpc => exact inv_tryPopLoad hinv hwin hpc
  | tryPopCheck hpc => exact inv_return hinv (.inl (by rw [hpc]; rfl))
  | tryPopCasFail hpc _ => exact inv_return hinv (.inl (by rw [hpc]; rfl))
  | tryPopCasOk hpc hinc => exact inv_tryPopCasOk hinv hwin hsingle hpc hinc
  | closeCall hpc =>
    -- `closed_` never holds `closing`, so `close()` always goes on to reserve the last lap
    rw [if_neg hinv.not_closing] at hone ⊢
    exact inv_closeCall hinv hpc hone
  | closeReserve hpc => exact inv_closeReserve hinv hpc
  | closeStore hpc => exact inv_closeStore hinv hpc
  | closeSlot hpc _ => exact inv_closeSlot hinv hpc
  | closeDone hpc _ => exact inv_return hinv (.inr (by rw [hpc]; rfl))

theorem mask_step {s s' : State V τ} {t : τ} (h : Step P throws t s s') :
    s'.mem.mask = s.mem.mask := by
  cases h
  case closeCall => split <;> rfl
  all_goals rfl

section Runs

variable [Inhabited V] {size : CountT}

omit [DecidableEq τ] in
theorem assumptions_init : Assumptions P (State.init size : State V τ) := by
  refine ⟨Nat.zero_le _, fun t ht => ?_, fun _ t _ ht => ?_⟩
  · simp [Pc.role] at ht
  · simp [Consumer, Pc.role] at ht

omit [DecidableEq τ] [Inhabited V] in
theorem assumptions_of_small {s : State V τ} (hP : P.consumer = .atomicCounter)
    (hc : s.closes ≤ 1) (hopen : s.mem.closed = .open) (hsmall : ∀ t, s.ticket t < 2 ^ 31)
    (hhead : s.headN < 2 ^ 31) : Assumptions P s := by
  refine ⟨hc, fun t _ => ⟨⟨?_, ?_⟩, fun h => nomatch hopen.symm.trans h⟩, fun h => ?_⟩
  · have := hsmall t
    omega
  · have := hsmall t
    omega
  · rw [hP] at h
    cases h

/-- The invariant holds in every state of a run that keeps to the assumptions. -/
theorem inv_reachable (hsize : create size = .ok ()) {s : State V τ}
    (hs : Reachable ((system P size throws).restrict (Assumptions P)) s) : Inv P throws s := by
  refine reachable_of_step (fun s hs => (Reachable.restrict hs).2) ?_ ?_ hs
  · rintro s ⟨rfl, -⟩
    exact inv_init (BoundedQueueSequential.create_ok_iff.mp hsize)
  · rintro t s s' - hA hinv ⟨hstep, hA'⟩
    exact inv_step hinv hA hA'.1 hstep

theorem size_reachable {s : State V τ}
    (hs : Reachable ((system P size throws).restrict (Assumptions P)) s) : s.size = size.toNat := by
  have hmask : s.mem.mask = size - 1 := by
    induction hs with
    | init hi => rw [hi.1]; rfl
    | step _ _ hst ih => rw [mask_step hst.1, ih]
  rw [State.size, hmask, UInt32.sub_add_cancel]

end Runs

/-! ## What the invariant says -/

/-- Ticket-ordered delivery in a state of a ring with `N` slots. -/
structure TicketOrdered (N : ℕ) (s : State V τ) : Prop where
  /-- A push writes its slot only after the pop of the lap before has passed it on. -/
  put_after_pass : ∀ t c v, s.pc t = .pushPut c v → N ≤ s.ticket t → s.Finished (s.ticket t - N)
  /-- A pop that succeeds returns the value the push of its ticket wrote. -/
  success_written : ∀ c v, (c, .success v) ∈ s.outcomes → s.written c = some v
  push_unique : ∀ t u, (s.pc t).role = .push → (s.pc u).role = .push →
    s.ticket t = s.ticket u → t = u
  pop_unique : ∀ t u, (s.pc t).role = .pop → (s.pc u).role = .pop →
    s.ticket t = s.ticket u → t = u
  /-- No ticket is passed on twice. -/
  passed_once : (s.outcomes.map Prod.fst).Nodup

section Consequences

variable {s : State V τ} (hinv : Inv P throws s)
include hinv

omit [DecidableEq τ] in
theorem put_after_pass {t : τ} {c : CountT} {v : V} (hpc : s.pc t = .pushPut c v)
    (hk : s.size ≤ s.ticket t) : s.Finished (s.ticket t - s.size) := by
  obtain ⟨-, hlap, -⟩ : s.written (s.ticket t) = none ∧ Writing s (s.ticket t) := by
    have hplace := (hinv.threads t).place
    rwa [hpc] at hplace
  rw [hinv.finished_iff, State.lapOf_congr (Nat.mod_eq_sub_mod hk).symm, hlap]
  omega

omit [DecidableEq τ] in
theorem ticketOrdered_of_inv : TicketOrdered s.size s :=
  ⟨fun _ _ _ hpc hk => put_after_pass hinv hpc hk, hinv.success, hinv.push_unique,
    hinv.pop_unique, hinv.outcomes_nodup⟩

omit [DecidableEq τ] in
theorem written_returned {c : ℕ} {v : V} (hw : s.written c = some v) (hf : s.Finished c) :
    (c, .success v) ∈ s.outcomes ∨ (c, .rethrow) ∈ s.outcomes := by
  obtain ⟨n, hn⟩ := State.finished_iff_exists.mp hf
  cases n with
  | success w =>
    have hwv := (hinv.success c w hn).symm.trans hw
    cases hwv
    exact .inl hn
  | retry => exact absurd ((hinv.skipped c (.inl hn)).symm.trans hw) (by simp)
  | empty => exact absurd ((hinv.skipped c (.inr hn)).symm.trans hw) (by simp)
  | rethrow => exact .inr hn

end Consequences

/-! ## The ring under concurrency -/

section Delivery

variable [Inhabited V] {size : CountT}

/-- Exactly-once, ticket-ordered delivery. In every state of a run of a ring whose values do not
throw, under the assumptions on runs:
- a push writes its slot only after the pop of the lap before has passed it on;
- a pop that succeeds returns the value written by the push of its ticket;
- no ticket is held by two pushes or two pops, and none is passed on twice;
- a value written and passed on was returned. -/
theorem ring_delivers_exactly_once (hsize : create size = .ok ()) {s : State V τ}
    (hs : Reachable ((system P size false).restrict (Assumptions P)) s) :
    TicketOrdered size.toNat s ∧
      ∀ c v, s.written c = some v → s.Finished c → (c, .success v) ∈ s.outcomes := by
  have hinv := inv_reachable hsize hs
  rw [← size_reachable hs]
  refine ⟨ticketOrdered_of_inv hinv, fun c v hw hf => ?_⟩
  rcases written_returned hinv hw hf with h | h
  · exact h
  · exact absurd (hinv.rethrown c h).1 (by decide)

/-- Of two threads on a ring of 16 slots, the first pushes 7 and the second pops it. -/
theorem ring_delivers_exactly_once_handoff :
    ∃ s : State ℕ (Fin 2), create (16 : CountT) = .ok () ∧
      Reachable ((system ⟨.futex, .atomicCounter, .atomicCounter⟩ 16 false).restrict
        (Assumptions ⟨.futex, .atomicCounter, .atomicCounter⟩)) s ∧
      s.outcomes = [(0, .success 7)] ∧ TicketOrdered (16 : CountT).toNat s ∧
      ∀ c v, s.written c = some v → s.Finished c → (c, .success v) ∈ s.outcomes := by
  have hc : create (16 : CountT) = .ok () := BoundedQueueSequential.create_ok_iff.mpr (by decide)
  have h₀ : Reachable ((system ⟨.futex, .atomicCounter, .atomicCounter⟩ 16 false).restrict
      (Assumptions ⟨.futex, .atomicCounter, .atomicCounter⟩)) (State.init 16 : State ℕ (Fin 2)) :=
    .init ⟨rfl, assumptions_init⟩
  have h₁ := Reachable.step 0 h₀ (And.intro (Step.pushDraw 7 rfl)
    (assumptions_of_small rfl (by decide) rfl (by decide) (by decide)))
  have h₂ := Reachable.step 0 h₁ (And.intro (Step.pushLoad (c := 0) (v := 7) rfl)
    (assumptions_of_small rfl (by decide) rfl (by decide) (by decide)))
  have h₃ := Reachable.step 0 h₂ (And.intro (Step.pushPut (c := 0) (v := 7) rfl)
    (assumptions_of_small rfl (by decide) rfl (by decide) (by decide)))
  have h₄ := Reachable.step 0 h₃ (And.intro (Step.pushWake (c := 0) rfl)
    (assumptions_of_small rfl (by decide) rfl (by decide) (by decide)))
  have h₅ := Reachable.step 1 h₄ (And.intro (Step.popCall rfl)
    (assumptions_of_small rfl (by decide) rfl (by decide) (by decide)))
  have h₆ := Reachable.step 1 h₅ (And.intro (Step.popDraw rfl)
    (assumptions_of_small rfl (by decide) rfl (by decide) (by decide)))
  have h₇ := Reachable.step 1 h₆ (And.intro (Step.popLoad (c := 0) rfl)
    (assumptions_of_small rfl (by decide) rfl (by decide) (by decide)))
  have h₈ := Reachable.step 1 h₇ (And.intro (Step.popGet (c := 0) rfl)
    (assumptions_of_small rfl (by decide) rfl (by decide) (by decide)))
  have h₉ := Reachable.step 1 h₈ (And.intro (Step.popWake (c := 0) (n := .success 7) rfl)
    (assumptions_of_small rfl (by decide) rfl (by decide) (by decide)))
  exact ⟨_, hc, h₉, rfl, ring_delivers_exactly_once hc h₉⟩

end Delivery

end BoundedQueueDelivery
