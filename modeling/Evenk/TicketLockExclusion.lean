import Evenk.TicketLock
import Evenk.SharedTickets

/-!
# Exclusion and ticket order of `ticket_lock`

The words are the counts of tickets drawn and released modulo `2 ^ 16`, and the threads in play
are exclusive tickets of `SharedTickets`, so `Counting` carries over. This holds with fewer than
`2 ^ 16` threads and every `try_lock` ending within `2 ^ 16` draws of its load (`ShortTries`).
-/
namespace TicketLockExclusion

open TicketLock SharedTickets TransitionSystem

/-- A count as the 16-bit counters hold it. -/
def enc (n : ℕ) : UInt16 := UInt16.ofNat n

theorem enc_add_one (n : ℕ) : enc n + 1 = enc (n + 1) := by
  rw [enc, enc, UInt16.ofNat_add]
  rfl

theorem enc_inj {a b : ℕ} (hab : a ≤ b) (hlt : b < a + 2 ^ 16) (h : enc a = enc b) : a = b := by
  have hmod := congrArg UInt16.toNat h
  simp only [enc, UInt16.toNat_ofNat'] at hmod
  omega

/-- A ticket of the one mode: the number of tickets drawn before it. -/
def single (n : ℕ) : Counts := ⟨n, 0⟩

/-! ## The tickets in play -/

variable {τ : Type} [Fintype τ]

@[simp] theorem mem_lockers {s : State τ} {t : τ} : t ∈ lockers s ↔ (s.pc t).active := by
  simp [lockers]

def toTickets (s : State τ) : Tickets τ :=
  ⟨lockers s, ∅, single ∘ s.ticket, single s.drawn, single s.released⟩

section Transfer

variable [DecidableEq τ] {s : State τ} {t : τ} {p : Pc}

theorem lockers_update {s' : State τ} (hpc : s'.pc = Function.update s.pc t p) :
    lockers s' = Finset.univ.filter fun u => (Function.update s.pc t p u).active := by
  unfold lockers
  rw [hpc]

theorem toTickets_setPc (hp : p.active = (s.pc t).active) :
    toTickets (s.setPc t p) = toTickets s := by
  unfold toTickets
  rw [lockers_update rfl, filter_update_of_eq Pc.active s.pc t p hp]
  rfl

theorem toTickets_draw {tail : UInt16} (hp : p.active) :
    toTickets (s.draw t tail p) = (toTickets s).drawExclusive t := by
  unfold toTickets Tickets.drawExclusive
  rw [lockers_update rfl, filter_update_of_true Pc.active s.pc t p hp]
  simp only [State.draw, Function.comp_update]
  rfl

theorem toTickets_release {hd : UInt16} :
    toTickets { s.setPc t .idle with head := hd, released := s.released + 1 } =
      (toTickets s).releaseExclusive t := by
  unfold toTickets
  rw [lockers_update rfl, filter_update_of_false Pc.active s.pc t .idle rfl]
  rfl

end Transfer

/-! ## What each thread's local values say -/

/-- A spinning locker's ticket is the one it drew, and a holder's the one being served; a
`try_lock` holds the `head_` it loaded. -/
def PcInv (s : State τ) (t : τ) : Prop :=
  match s.pc t with
  | .idle => True
  | .lockWait tk => tk = enc (s.ticket t)
  | .tryLockTail hd => hd = enc (s.loaded t) ∧ s.loaded t ≤ s.released
  | .tryLockCas tl => tl = enc (s.loaded t) ∧ s.loaded t ≤ s.released
  | .locked => s.ticket t = s.released
  | .unlockStore hd => s.ticket t = s.released ∧ hd = s.head

omit [Fintype τ] in
theorem PcInv.other {s s' : State τ} {u : τ} (h : PcInv s u) (hpc : s'.pc u = s.pc u)
    (ht : s'.ticket u = s.ticket u) (hl : s'.loaded u = s.loaded u)
    (hrel : s.released ≤ s'.released)
    (hx : (s.pc u).holds → s'.released = s.released ∧ s'.head = s.head) : PcInv s' u := by
  unfold PcInv at h ⊢
  rw [hpc, ht, hl]
  cases hq : s.pc u with
  | idle => trivial
  | lockWait tk => simpa [hq] using h
  | tryLockTail hd =>
    simp only [hq] at h
    exact ⟨h.1, h.2.trans hrel⟩
  | tryLockCas tl =>
    simp only [hq] at h
    exact ⟨h.1, h.2.trans hrel⟩
  | locked =>
    simp only [hq] at h
    rw [(hx (by rw [hq]; rfl)).1]
    exact h
  | unlockStore hd =>
    simp only [hq] at h
    obtain ⟨hr, hh⟩ := hx (by rw [hq]; rfl)
    rw [hr, hh]
    exact h

structure Inv (s : State τ) : Prop where
  counting : Counting (toTickets s)
  tail : s.tail = enc s.drawn
  head : s.head = enc s.released
  pcs : ∀ t, PcInv s t

namespace Inv

variable {s : State τ} {t u : τ}

theorem init : Inv (State.init : State τ) where
  counting := by
    have hempty : toTickets (State.init : State τ) = ⟨∅, ∅, fun _ => ⟨0, 0⟩, ⟨0, 0⟩, ⟨0, 0⟩⟩ := by
      unfold toTickets
      congr 1
      ext t
      simp [State.init, Pc.active]
    rw [hempty]
    exact Counting.empty _
  tail := rfl
  head := rfl
  pcs _ := trivial

theorem holds (h : Inv s) (ht : (s.pc t).holds) : t ∈ lockers s ∧ s.ticket t = s.released := by
  refine ⟨mem_lockers.mpr (Pc.active_of_holds ht), ?_⟩
  have hp := h.pcs t
  unfold PcInv at hp
  rcases Pc.holds_iff.mp ht with hq | ⟨hd, hq⟩
  · simpa [hq] using hp
  · simp only [hq] at hp
    exact hp.1

theorem holder_first (h : Inv s) (ht : (s.pc t).holds) (hu : (s.pc u).active) (hne : u ≠ t) :
    s.ticket t < s.ticket u := by
  obtain ⟨htm, hown⟩ := h.holds ht
  have hlt := h.counting.exclusive_after_holder htm (congrArg single hown) (mem_lockers.mpr hu) hne
  exact hlt.1

theorem alone (h : Inv s) (ht : (s.pc t).holds) (hu : (s.pc u).holds) : u = t := by
  by_contra hne
  have hlt := h.holder_first ht (Pc.active_of_holds hu) hne
  rw [(h.holds ht).2, (h.holds hu).2] at hlt
  exact lt_irrefl _ hlt

theorem released_le_drawn (h : Inv s) : s.released ≤ s.drawn :=
  h.counting.released_le_drawn.1

theorem lockers_empty (h : Inv s) (he : s.drawn = s.released) : lockers s = ∅ := by
  have hc := h.counting.exclCard
  simp only [toTickets, single] at hc
  exact Finset.card_eq_zero.mp (by omega)

/-! ## Reading the words back -/

theorem acquire_ticket (h : Inv s) (hcard : Fintype.card τ < 2 ^ 16) {tk : UInt16}
    (hpc : s.pc t = .lockWait tk) (hh : s.head = tk) : s.ticket t = s.released := by
  have htm : t ∈ (toTickets s).excl := mem_lockers.mpr (by rw [hpc]; rfl)
  have hp := h.pcs t
  unfold PcInv at hp
  simp only [hpc] at hp
  have hr := (h.counting.exclRange t htm).1
  have hgap := (h.counting.exclusive_gap htm).1
  have hle : (lockers s).card ≤ Fintype.card τ := Finset.card_le_univ _
  simp only [toTickets, single, Function.comp_apply] at hr hgap
  have heq : enc s.released = enc (s.ticket t) := by rw [← h.head, hh, hp]
  exact (enc_inj hr (by omega) heq).symm

theorem cas_free (h : Inv s) (hsh : ShortTries s) {tl : UInt16}
    (hpc : s.pc t = .tryLockCas tl) (htl : s.tail = tl) : s.drawn = s.released := by
  have hp := h.pcs t
  unfold PcInv at hp
  simp only [hpc] at hp
  have hlt := hsh t (by rw [hpc]; rfl)
  have hrel := h.released_le_drawn
  have heq : enc (s.loaded t) = enc s.drawn := by rw [← hp.1, ← htl, h.tail]
  have hld := enc_inj (hp.2.trans hrel) hlt heq
  omega

/-! ## Steps that keep the invariant -/

variable [DecidableEq τ]

theorem quiet (h : Inv s) {p : Pc} {L : τ → ℕ} (hx : p.active = (s.pc t).active)
    (hL : ∀ u, u ≠ t → L u = s.loaded u) (hp : PcInv { s.setPc t p with loaded := L } t) :
    Inv { s.setPc t p with loaded := L } where
  counting := by
    have hsame : toTickets { s.setPc t p with loaded := L } = toTickets s := toTickets_setPc hx
    rw [hsame]
    exact h.counting
  tail := h.tail
  head := h.head
  pcs u := by
    by_cases hu : u = t
    · subst hu
      exact hp
    · exact (h.pcs u).other (s.setPc_pc_ne t p hu) rfl (hL u hu) le_rfl (fun _ => ⟨rfl, rfl⟩)

theorem setPc (h : Inv s) {p : Pc} (hx : p.active = (s.pc t).active)
    (hp : PcInv (s.setPc t p) t) : Inv (s.setPc t p) :=
  h.quiet hx (fun _ _ => rfl) hp

theorem draw (h : Inv s) {tail : UInt16} {p : Pc} (ht : (s.pc t).active = false) (hp : p.active)
    (htail : tail = enc (s.drawn + 1)) (hpt : PcInv (s.draw t tail p) t) :
    Inv (s.draw t tail p) where
  counting := by
    rw [toTickets_draw hp]
    exact h.counting.drawExclusive (by simp [toTickets, ht]) (Finset.notMem_empty t)
  tail := htail
  head := h.head
  pcs u := by
    by_cases hu : u = t
    · subst hu
      exact hpt
    · exact (h.pcs u).other (by simp [State.draw, hu]) (by simp [State.draw, hu]) rfl le_rfl
        (fun _ => ⟨rfl, rfl⟩)

theorem release (h : Inv s) {hd : UInt16} (hpc : s.pc t = .unlockStore hd) :
    Inv { s.setPc t .idle with head := hd + 1, released := s.released + 1 } where
  counting := by
    have ht : (s.pc t).holds := by rw [hpc]; rfl
    obtain ⟨htm, hown⟩ := h.holds ht
    rw [toTickets_release]
    exact h.counting.releaseExclusive htm (congrArg single hown)
  tail := h.tail
  head := by
    have hp := h.pcs t
    unfold PcInv at hp
    simp only [hpc] at hp
    change hd + 1 = enc (s.released + 1)
    rw [hp.2, h.head, enc_add_one]
  pcs u := by
    by_cases hu : u = t
    · subst hu
      simp [PcInv, State.setPc]
    · have ht : (s.pc t).holds := by rw [hpc]; rfl
      -- no other thread holds the lock, so no one relies on the release count or `head_`
      exact (h.pcs u).other (s.setPc_pc_ne t _ hu) rfl rfl (Nat.le_succ _)
        (fun hx => absurd (h.alone ht hx) hu)

end Inv

/-! ## Every step keeps the invariant -/

variable [DecidableEq τ]

theorem inv_step (hcard : Fintype.card τ < 2 ^ 16) {s s' : State τ} {t : τ} (hsh : ShortTries s)
    (h : Inv s) (hst : Step t s s') : Inv s' := by
  have hpi := h.pcs t
  unfold PcInv at hpi
  cases hst with
  | lockDraw hpc =>
    refine h.draw (by rw [hpc]; rfl) rfl (by rw [h.tail, enc_add_one]) ?_
    simp [PcInv, State.draw, h.tail]
  | lockAcquire hpc hh =>
    refine h.setPc (by rw [hpc]; rfl) ?_
    simpa [PcInv] using h.acquire_ticket hcard hpc hh
  | tryLockHead hpc =>
    refine h.quiet (by rw [hpc]; rfl) (fun u hu => Function.update_of_ne hu _ _) ?_
    simp [PcInv, State.setPc, h.head]
  | tryLockTail hpc =>
    refine h.setPc (by split <;> rw [hpc] <;> rfl) ?_
    simp only [hpc] at hpi
    split
    · rename_i heq
      simpa [PcInv, ← heq] using hpi
    · simp [PcInv]
  | tryLockCasOk hpc htl =>
    refine h.draw (by rw [hpc]; rfl) rfl (by rw [← htl, h.tail, enc_add_one]) ?_
    simpa [PcInv, State.draw] using h.cas_free hsh hpc htl
  | tryLockCasFail hpc _ => exact h.setPc (by rw [hpc]; rfl) (by simp [PcInv])
  | unlockLoad hpc =>
    refine h.setPc (by rw [hpc]; rfl) ?_
    simp only [hpc] at hpi
    simpa [PcInv] using hpi
  | unlockStore hpc => exact h.release hpc

theorem inv_reachable (hcard : Fintype.card τ < 2 ^ 16) {s : State τ}
    (h : Reachable (system.restrict ShortTries) s) : Inv s :=
  reachable_of_step (I := Inv) (fun _ hs => hs.restrict.2) (fun _ hs => hs.1 ▸ Inv.init)
    (fun _ _ _ _ hj hi hst => inv_step hcard hj hi hst.1) h

/-- With fewer than `2 ^ 16` threads and every `try_lock` ending within `2 ^ 16` draws of its
load of `head_`: at most one thread holds the lock; the holder's ticket is the number of
releases so far, so the lock is granted in the order the tickets were drawn, and every other
thread in play drew a later ticket; and a `try_lock` CAS succeeds only while no thread holds or
waits for the lock. -/
theorem ticket_lock_exclusion_and_order (hcard : Fintype.card τ < 2 ^ 16) {s : State τ}
    (h : Reachable (system.restrict ShortTries) s) :
    (∀ t u, (s.pc t).holds → (s.pc u).holds → u = t) ∧
    (∀ t, (s.pc t).holds → s.ticket t = s.released) ∧
    (∀ t u, (s.pc t).holds → (s.pc u).active → u ≠ t → s.ticket t < s.ticket u) ∧
    (∀ t tl, s.pc t = .tryLockCas tl → s.tail = tl → lockers s = ∅) := by
  have hi := inv_reachable hcard h
  refine ⟨fun t u ht hu => hi.alone ht hu, fun t ht => (hi.holds ht).2,
    fun t u ht hu hne => hi.holder_first ht hu hne, fun t tl hpc htl => ?_⟩
  exact hi.lockers_empty (hi.cas_free h.restrict.2 hpc htl)

/-- Two threads: thread `0` draws ticket `0` and takes the lock, then thread `1` draws ticket
`1` and waits behind it. -/
theorem ticket_lock_exclusion_and_order_queued :
    Fintype.card (Fin 2) < 2 ^ 16 ∧
      ∃ s : State (Fin 2), Reachable (system.restrict ShortTries) s ∧ (s.pc 0).holds ∧
        s.pc 1 = .lockWait 1 ∧
        ((∀ t u, (s.pc t).holds → (s.pc u).holds → u = t) ∧
          (∀ t, (s.pc t).holds → s.ticket t = s.released) ∧
          (∀ t u, (s.pc t).holds → (s.pc u).active → u ≠ t → s.ticket t < s.ticket u) ∧
          (∀ t tl, s.pc t = .tryLockCas tl → s.tail = tl → lockers s = ∅)) := by
  have h₀ : Reachable ((system : System (Fin 2) (State (Fin 2))).restrict ShortTries)
      State.init := .init ⟨rfl, by unfold ShortTries; decide⟩
  have h₁ := Reachable.step 0 h₀ ⟨Step.lockDraw rfl, by unfold ShortTries; decide⟩
  have h₂ := Reachable.step 0 h₁ ⟨Step.lockAcquire rfl rfl, by unfold ShortTries; decide⟩
  have h₃ := Reachable.step 1 h₂ ⟨Step.lockDraw rfl, by unfold ShortTries; decide⟩
  exact ⟨by decide, _, h₃, rfl, rfl, ticket_lock_exclusion_and_order (by decide) h₃⟩

end TicketLockExclusion
