import Evenk.SharedTicketLock

/-!
# Exclusion and ticket order of `shared_ticket_lock`

The words are the counts of tickets drawn and released, packed as `PackedCounter` does, and the
threads in play are the tickets of `SharedTickets`, so `Counting` carries over. This holds while
each mode has fewer than `2 ^ (w / 2)` tickets in play (`Bounded`) and every `try_lock` ends
within as many draws of its load of `head_` (`ShortTries`).
-/
namespace SharedTicketLockExclusion

open SharedTicketLock SharedTickets PackedCounter TransitionSystem

variable {w : ℕ}

/-- The counts packed into a word, as `head_` and `tail_` hold them. -/
def enc (c : Counts) : BitVec w := pack w (w / 2) c.exclusive c.shared

theorem enc_addExclusive (c : Counts) :
    (enc c : BitVec w) + exclusiveStep w = enc c.addExclusive := by
  unfold enc exclusiveStep
  exact pack_add_one _ _

theorem enc_addShared (c : Counts) :
    (enc c : BitVec w) + sharedStep w = enc c.addShared := by
  rw [sharedStep_eq]
  exact pack_add_step _ _

theorem half_lt (hw : 0 < w) : w / 2 < w := Nat.div_lt_self hw Nat.one_lt_two

/-! ## The tickets in play -/

variable {τ : Type} [Fintype τ]

@[simp] theorem mem_exclusiveThreads {s : State w τ} {t : τ} :
    t ∈ exclusiveThreads s ↔ (s.pc t).exclusiveActive := by
  simp [exclusiveThreads]

@[simp] theorem mem_sharedThreads {s : State w τ} {t : τ} :
    t ∈ sharedThreads s ↔ (s.pc t).sharedActive := by
  simp [sharedThreads]

section Update

variable [DecidableEq τ] {s s' : State w τ} {t : τ} {p : Pc w}
  (hpc : s'.pc = Function.update s.pc t p)
include hpc

theorem exclusiveThreads_insert (hp : p.exclusiveActive) :
    exclusiveThreads s' = insert t (exclusiveThreads s) := by
  unfold exclusiveThreads
  rw [hpc]
  exact filter_update_of_true _ s.pc t p hp

theorem exclusiveThreads_erase (hp : p.exclusiveActive = false) :
    exclusiveThreads s' = (exclusiveThreads s).erase t := by
  unfold exclusiveThreads
  rw [hpc]
  exact filter_update_of_false _ s.pc t p hp

theorem sharedThreads_insert (hp : p.sharedActive) :
    sharedThreads s' = insert t (sharedThreads s) := by
  unfold sharedThreads
  rw [hpc]
  exact filter_update_of_true _ s.pc t p hp

theorem sharedThreads_erase (hp : p.sharedActive = false) :
    sharedThreads s' = (sharedThreads s).erase t := by
  unfold sharedThreads
  rw [hpc]
  exact filter_update_of_false _ s.pc t p hp

theorem exclusiveThreads_same (hp : p.exclusiveActive = (s.pc t).exclusiveActive) :
    exclusiveThreads s' = exclusiveThreads s := by
  unfold exclusiveThreads
  rw [hpc]
  exact filter_update_of_eq _ s.pc t p hp

theorem sharedThreads_same (hp : p.sharedActive = (s.pc t).sharedActive) :
    sharedThreads s' = sharedThreads s := by
  unfold sharedThreads
  rw [hpc]
  exact filter_update_of_eq _ s.pc t p hp

end Update

def toTickets (s : State w τ) : Tickets τ :=
  ⟨exclusiveThreads s, sharedThreads s, s.ticket, s.drawn, s.released⟩

section Transfer

variable [DecidableEq τ] {s : State w τ} {t : τ} {p : Pc w}

theorem toTickets_setPc (hx : p.exclusiveActive = (s.pc t).exclusiveActive)
    (hs : p.sharedActive = (s.pc t).sharedActive) : toTickets (s.setPc t p) = toTickets s := by
  unfold toTickets
  rw [exclusiveThreads_same rfl hx, sharedThreads_same rfl hs]
  rfl

theorem toTickets_drawExclusive {tail : BitVec w} (hp : p.exclusiveActive)
    (hp' : p.sharedActive = false) (ht : (s.pc t).sharedActive = false) :
    toTickets (s.draw t tail p s.drawn.addExclusive) = (toTickets s).drawExclusive t := by
  unfold toTickets
  rw [exclusiveThreads_insert rfl hp, sharedThreads_same rfl (hp'.trans ht.symm)]
  rfl

theorem toTickets_drawShared {tail : BitVec w} (hp : p.sharedActive)
    (hp' : p.exclusiveActive = false) (ht : (s.pc t).exclusiveActive = false) :
    toTickets (s.draw t tail p s.drawn.addShared) = (toTickets s).drawShared t := by
  unfold toTickets
  rw [sharedThreads_insert rfl hp, exclusiveThreads_same rfl (hp'.trans ht.symm)]
  rfl

theorem toTickets_releaseExclusive {hd : BitVec w} (ht : (s.pc t).sharedActive = false) :
    toTickets { s.setPc t .idle with head := hd, released := s.released.addExclusive } =
      (toTickets s).releaseExclusive t := by
  unfold toTickets
  rw [exclusiveThreads_erase (p := .idle) rfl rfl, sharedThreads_same (p := .idle) rfl ht.symm]
  rfl

theorem toTickets_releaseShared {hd : BitVec w} (ht : (s.pc t).exclusiveActive = false) :
    toTickets { s.setPc t .idle with head := hd, released := s.released.addShared } =
      (toTickets s).releaseShared t := by
  unfold toTickets
  rw [sharedThreads_erase (p := .idle) rfl rfl, exclusiveThreads_same (p := .idle) rfl ht.symm]
  rfl

end Transfer

/-! ## What each thread's local values say -/

/-- A spinning locker's ticket is the one it drew; a holder's ticket is the one being served;
a `try_lock` holds the `head_` it loaded, and a `try_lock_shared` that has passed its test holds
a `tail_` whose exclusive count is the one it saw released. -/
def PcInv (s : State w τ) (t : τ) : Prop :=
  match s.pc t with
  | .idle => True
  | .lockWait tk => tk = enc (s.ticket t)
  | .tryLockTail hd => hd = enc (s.loaded t) ∧ s.loaded t ≤ s.released
  | .tryLockCas tl => tl = enc (s.loaded t) ∧ s.loaded t ≤ s.released
  | .exclusive => s.ticket t = s.released
  | .unlockStore hd => s.ticket t = s.released ∧ hd = s.head
  | .lockSharedWait tk => tk = enc (s.ticket t) &&& exclusiveMask w
  | .tryLockSharedTail hd => hd = enc (s.loaded t) ∧ s.loaded t ≤ s.released
  | .tryLockSharedCas tl => s.loaded t ≤ s.released ∧
      ∃ d, (s.loaded t).shared ≤ d ∧ d ≤ s.drawn.shared ∧ tl = enc ⟨(s.loaded t).exclusive, d⟩
  | .shared => (s.ticket t).exclusive = s.released.exclusive

omit [Fintype τ] in
theorem PcInv.other {s s' : State w τ} {u : τ} (h : PcInv s u) (hpc : s'.pc u = s.pc u)
    (ht : s'.ticket u = s.ticket u) (hl : s'.loaded u = s.loaded u)
    (hrel : s.released ≤ s'.released) (hdrawn : s.drawn.shared ≤ s'.drawn.shared)
    (hx : (s.pc u).holdsExclusive → s'.released = s.released ∧ s'.head = s.head)
    (hsh : (s.pc u).holdsShared → s'.released.exclusive = s.released.exclusive) :
    PcInv s' u := by
  unfold PcInv at h ⊢
  rw [hpc, ht, hl]
  cases hq : s.pc u with
  | idle => trivial
  | lockWait tk => simpa [hq] using h
  | tryLockTail hd =>
    simp only [hq] at h
    exact ⟨h.1, Counts.le_trans h.2 hrel⟩
  | tryLockCas tl =>
    simp only [hq] at h
    exact ⟨h.1, Counts.le_trans h.2 hrel⟩
  | exclusive =>
    simp only [hq] at h
    rw [(hx (by rw [hq]; rfl)).1]
    exact h
  | unlockStore hd =>
    simp only [hq] at h
    obtain ⟨hr, hh⟩ := hx (by rw [hq]; rfl)
    rw [hr, hh]
    exact h
  | lockSharedWait tk => simpa [hq] using h
  | tryLockSharedTail hd =>
    simp only [hq] at h
    exact ⟨h.1, Counts.le_trans h.2 hrel⟩
  | tryLockSharedCas tl =>
    simp only [hq] at h
    obtain ⟨hle, d, hd, hd', htl⟩ := h
    exact ⟨Counts.le_trans hle hrel, d, hd, hd'.trans hdrawn, htl⟩
  | shared =>
    simp only [hq] at h
    rw [hsh (by rw [hq]; rfl)]
    exact h

structure Inv (s : State w τ) : Prop where
  counting : Counting (toTickets s)
  tail : s.tail = enc s.drawn
  head : s.head = enc s.released
  pcs : ∀ t, PcInv s t

namespace Inv

variable {s : State w τ} {t u : τ}

theorem init : Inv (State.init : State w τ) where
  counting := by
    have hempty : toTickets (State.init : State w τ) = ⟨∅, ∅, fun _ => ⟨0, 0⟩, ⟨0, 0⟩, ⟨0, 0⟩⟩ := by
      unfold toTickets
      congr 1 <;> ext t <;> simp [State.init, Pc.exclusiveActive, Pc.sharedActive]
    rw [hempty]
    exact Counting.empty _
  tail := by simp [State.init, enc]
  head := by simp [State.init, enc]
  pcs _ := trivial

theorem holds_exclusive (h : Inv s) (ht : (s.pc t).holdsExclusive) :
    t ∈ exclusiveThreads s ∧ s.ticket t = s.released := by
  refine ⟨mem_exclusiveThreads.mpr (Pc.exclusiveActive_of_holds ht), ?_⟩
  have hp := h.pcs t
  unfold PcInv at hp
  rcases Pc.holdsExclusive_iff.mp ht with hq | ⟨hd, hq⟩
  · simpa [hq] using hp
  · simp only [hq] at hp
    exact hp.1

theorem holds_shared (h : Inv s) (ht : s.pc t = .shared) :
    t ∈ sharedThreads s ∧ (s.ticket t).exclusive = s.released.exclusive := by
  have hp := h.pcs t
  unfold PcInv at hp
  simp only [ht] at hp
  exact ⟨by simp [ht, Pc.sharedActive], hp⟩

theorem released_le_drawn (h : Inv s) : s.released ≤ s.drawn :=
  h.counting.released_le_drawn

theorem exclusive_alone (h : Inv s) (ht : (s.pc t).holdsExclusive)
    (hu : (s.pc u).holdsExclusive ∨ (s.pc u).holdsShared) : u = t := by
  by_contra hne
  obtain ⟨htm, hown⟩ := h.holds_exclusive ht
  rcases hu with hu | hu
  · obtain ⟨hum, hown'⟩ := h.holds_exclusive hu
    have hlt := h.counting.exclusive_after_holder htm hown hum hne
    simp only [toTickets] at hlt
    rw [hown, hown'] at hlt
    exact lt_irrefl _ hlt.1
  · obtain ⟨hum, hown'⟩ := h.holds_shared (Pc.holdsShared_iff.mp hu)
    have hlt := h.counting.shared_after_holder htm hown hum
    simp only [toTickets] at hlt
    rw [hown, hown'] at hlt
    exact lt_irrefl _ hlt.1

/-! ## Reading the packed words back -/

theorem acquire_ticket (h : Inv s) (hb : Bounded s) {tk : BitVec w}
    (hpc : s.pc t = .lockWait tk) (hh : s.head = tk) : s.ticket t = s.released := by
  have htm : t ∈ (toTickets s).excl := by simp [toTickets, hpc, Pc.exclusiveActive]
  have hp := h.pcs t
  unfold PcInv at hp
  simp only [hpc] at hp
  have hr := h.counting.exclRange t htm
  have hsb := h.counting.sharedBefore t htm
  have hgap := h.counting.exclusive_gap htm
  simp only [toTickets] at hr hsb hgap
  have heq : (enc s.released : BitVec w) = enc (s.ticket t) := by rw [← h.head, hh, hp]
  obtain ⟨he, hs⟩ := pack_inj (Nat.mul_div_le w 2) hr.1 (by have := hb.1; omega) (by omega)
    (by have := hb.2; omega) heq
  exact Counts.ext he.symm hs.symm

theorem acquire_shared_ticket (hw : 0 < w) (h : Inv s) (hb : Bounded s) {tk : BitVec w}
    (hpc : s.pc t = .lockSharedWait tk) (hh : (s.head &&& exclusiveMask w) = tk) :
    (s.ticket t).exclusive = s.released.exclusive := by
  have htm : t ∈ (toTickets s).shrd := by simp [toTickets, hpc, Pc.sharedActive]
  have hp := h.pcs t
  unfold PcInv at hp
  simp only [hpc] at hp
  have hr := h.counting.shrdRange t htm
  have hgap := h.counting.shared_gap htm
  simp only [toTickets] at hr hgap
  have heq : (enc s.released &&& exclusiveMask w) = (enc (s.ticket t) &&& exclusiveMask w) := by
    rw [← h.head, hh, hp]
  rw [exclusiveMask_eq] at heq
  exact (low_inj (half_lt hw) hr.1 (by have := hb.1; omega) heq).symm

theorem cas_free (h : Inv s) (hsh : ShortTries s) {tl : BitVec w}
    (hpc : s.pc t = .tryLockCas tl) (htl : s.tail = tl) : s.drawn = s.released := by
  have hp := h.pcs t
  unfold PcInv at hp
  simp only [hpc] at hp
  obtain ⟨hre, hrs⟩ := hp.2
  obtain ⟨hre', hrs'⟩ := h.released_le_drawn
  obtain ⟨hlt, hlt'⟩ := hsh t (by rw [hpc]; rfl)
  have heq : (enc (s.loaded t) : BitVec w) = enc s.drawn := by rw [← hp.1, ← htl, h.tail]
  obtain ⟨he, hs⟩ := pack_inj (Nat.mul_div_le w 2) (by omega) hlt (by omega) hlt' heq
  exact Counts.ext (by omega) (by omega)

theorem cas_shared_free (h : Inv s) (hsh : ShortTries s) {tl : BitVec w}
    (hpc : s.pc t = .tryLockSharedCas tl) (htl : s.tail = tl) :
    s.drawn.exclusive = s.released.exclusive := by
  have hp := h.pcs t
  unfold PcInv at hp
  simp only [hpc] at hp
  obtain ⟨⟨hre, -⟩, d, hd, hd', htl'⟩ := hp
  obtain ⟨hre', -⟩ := h.released_le_drawn
  obtain ⟨hlt, hlt'⟩ := hsh t (by rw [hpc]; rfl)
  have heq : pack w (w / 2) (s.loaded t).exclusive d = enc s.drawn := by
    rw [← h.tail, htl, htl']
    rfl
  obtain ⟨he, -⟩ := pack_inj (Nat.mul_div_le w 2) (by omega) hlt hd' (by omega) heq
  omega

/-- `try_lock_shared`'s test of the low halves means no exclusive ticket was drawn since its
load of `head_`. -/
theorem shared_tail_low (hw : 0 < w) (h : Inv s) (hsh : ShortTries s) {hd : BitVec w}
    (hpc : s.pc t = .tryLockSharedTail hd)
    (heq : (hd &&& exclusiveMask w) = (s.tail &&& exclusiveMask w)) :
    (s.loaded t).exclusive = s.drawn.exclusive := by
  have hp := h.pcs t
  unfold PcInv at hp
  simp only [hpc] at hp
  obtain ⟨hle, -⟩ := Counts.le_trans hp.2 h.released_le_drawn
  obtain ⟨hlt, -⟩ := hsh t (by rw [hpc]; rfl)
  rw [hp.1, h.tail, exclusiveMask_eq] at heq
  exact low_inj (half_lt hw) hle hlt heq

/-! ## Steps that keep the invariant -/

variable [DecidableEq τ]

theorem quiet (h : Inv s) {p : Pc w} {L : τ → Counts}
    (hx : p.exclusiveActive = (s.pc t).exclusiveActive)
    (hs : p.sharedActive = (s.pc t).sharedActive)
    (hL : ∀ u, u ≠ t → L u = s.loaded u) (hp : PcInv { s.setPc t p with loaded := L } t) :
    Inv { s.setPc t p with loaded := L } where
  counting := by
    have hsame : toTickets { s.setPc t p with loaded := L } = toTickets s := toTickets_setPc hx hs
    rw [hsame]
    exact h.counting
  tail := h.tail
  head := h.head
  pcs u := by
    by_cases hu : u = t
    · subst hu
      exact hp
    · exact (h.pcs u).other (s.setPc_pc_ne t p hu) rfl (hL u hu) (Counts.le_refl _) le_rfl
        (fun _ => ⟨rfl, rfl⟩) (fun _ => rfl)

theorem draw_other (h : Inv s) {tail : BitVec w} {p : Pc w} {d : Counts}
    (hd : s.drawn.shared ≤ d.shared) (hu : u ≠ t) : PcInv (s.draw t tail p d) u :=
  (h.pcs u).other (by simp [State.draw, hu]) (by simp [State.draw, hu]) rfl (Counts.le_refl _) hd
    (fun _ => ⟨rfl, rfl⟩) (fun _ => rfl)

theorem drawExclusive (h : Inv s) {tail : BitVec w} {p : Pc w}
    (ht : (s.pc t).exclusiveActive = false) (ht' : (s.pc t).sharedActive = false)
    (hp : p.exclusiveActive) (hp' : p.sharedActive = false)
    (htail : tail = enc s.drawn.addExclusive)
    (hpt : PcInv (s.draw t tail p s.drawn.addExclusive) t) :
    Inv (s.draw t tail p s.drawn.addExclusive) where
  counting := by
    rw [toTickets_drawExclusive hp hp' ht']
    exact h.counting.drawExclusive (by simp [toTickets, ht]) (by simp [toTickets, ht'])
  tail := htail
  head := h.head
  pcs u := by
    by_cases hu : u = t
    · subst hu
      exact hpt
    · exact h.draw_other le_rfl hu

theorem drawShared (h : Inv s) {tail : BitVec w} {p : Pc w}
    (ht : (s.pc t).exclusiveActive = false) (ht' : (s.pc t).sharedActive = false)
    (hp : p.sharedActive) (hp' : p.exclusiveActive = false)
    (htail : tail = enc s.drawn.addShared) (hpt : PcInv (s.draw t tail p s.drawn.addShared) t) :
    Inv (s.draw t tail p s.drawn.addShared) where
  counting := by
    rw [toTickets_drawShared hp hp' ht]
    exact h.counting.drawShared (by simp [toTickets, ht]) (by simp [toTickets, ht'])
  tail := htail
  head := h.head
  pcs u := by
    by_cases hu : u = t
    · subst hu
      exact hpt
    · exact h.draw_other (Nat.le_succ _) hu

theorem releaseExclusive (h : Inv s) {hd : BitVec w} (hpc : s.pc t = .unlockStore hd) :
    Inv { s.setPc t .idle with
      head := hd + exclusiveStep w, released := s.released.addExclusive } where
  counting := by
    have ht : (s.pc t).holdsExclusive := by rw [hpc]; rfl
    obtain ⟨htm, hown⟩ := h.holds_exclusive ht
    rw [toTickets_releaseExclusive (by rw [hpc]; rfl)]
    exact h.counting.releaseExclusive htm hown
  tail := h.tail
  head := by
    have hp := h.pcs t
    unfold PcInv at hp
    simp only [hpc] at hp
    change hd + exclusiveStep w = enc s.released.addExclusive
    rw [hp.2, h.head, enc_addExclusive]
  pcs u := by
    by_cases hu : u = t
    · subst hu
      simp [PcInv, State.setPc]
    · have ht : (s.pc t).holdsExclusive := by rw [hpc]; rfl
      -- no other thread holds the lock, so no one relies on the released counts or `head_`
      refine (h.pcs u).other (s.setPc_pc_ne t _ hu) rfl rfl (Counts.le_addExclusive _) le_rfl
        (fun hx => absurd (h.exclusive_alone ht (.inl hx)) hu)
        (fun hs => absurd (h.exclusive_alone ht (.inr hs)) hu)

theorem releaseShared (h : Inv s) (hpc : s.pc t = .shared) :
    Inv { s.setPc t .idle with
      head := s.head + sharedStep w, released := s.released.addShared } where
  counting := by
    obtain ⟨htm, hown⟩ := h.holds_shared hpc
    rw [toTickets_releaseShared (by rw [hpc]; rfl)]
    exact h.counting.releaseShared htm hown
  tail := h.tail
  head := by
    change s.head + sharedStep w = enc s.released.addShared
    rw [h.head, enc_addShared]
  pcs u := by
    by_cases hu : u = t
    · subst hu
      simp [PcInv, State.setPc]
    · have ht : (s.pc t).holdsShared := by rw [hpc]; rfl
      refine (h.pcs u).other (s.setPc_pc_ne t _ hu) rfl rfl (Counts.le_addShared _) le_rfl
        (fun hx => absurd (h.exclusive_alone hx (.inr ht)).symm hu) (fun _ => rfl)

theorem setPc (h : Inv s) {p : Pc w} (hx : p.exclusiveActive = (s.pc t).exclusiveActive)
    (hs : p.sharedActive = (s.pc t).sharedActive) (hp : PcInv (s.setPc t p) t) :
    Inv (s.setPc t p) :=
  h.quiet hx hs (fun _ _ => rfl) hp

end Inv

/-! ## Every step keeps the invariant -/

variable [DecidableEq τ]

theorem inv_step (hw : 0 < w) {s s' : State w τ} {t : τ} (hb : Bounded s) (hsh : ShortTries s)
    (h : Inv s) (hst : Step w t s s') : Inv s' := by
  have hpi := h.pcs t
  unfold PcInv at hpi
  cases hst with
  | lockDraw hpc =>
    refine h.drawExclusive (by rw [hpc]; rfl) (by rw [hpc]; rfl) rfl rfl
      (by rw [h.tail, enc_addExclusive]) ?_
    simp [PcInv, State.draw, h.tail]
  | lockAcquire hpc hh =>
    refine h.setPc (by rw [hpc]; rfl) (by rw [hpc]; rfl) ?_
    simpa [PcInv] using h.acquire_ticket hb hpc hh
  | tryLockHead hpc =>
    refine h.quiet (by rw [hpc]; rfl) (by rw [hpc]; rfl)
      (fun u hu => Function.update_of_ne hu _ _) ?_
    simp [PcInv, State.setPc, h.head, Counts.le_refl]
  | tryLockTail hpc =>
    refine h.setPc (by split <;> rw [hpc] <;> rfl) (by split <;> rw [hpc] <;> rfl) ?_
    simp only [hpc] at hpi
    split
    · rename_i heq
      simpa [PcInv, ← heq] using hpi
    · simp [PcInv]
  | tryLockCasOk hpc htl =>
    refine h.drawExclusive (by rw [hpc]; rfl) (by rw [hpc]; rfl) rfl rfl
      (by rw [← htl, h.tail, enc_addExclusive]) ?_
    simpa [PcInv, State.draw] using h.cas_free hsh hpc htl
  | tryLockCasFail hpc _ => exact h.setPc (by rw [hpc]; rfl) (by rw [hpc]; rfl) (by simp [PcInv])
  | unlockLoad hpc =>
    refine h.setPc (by rw [hpc]; rfl) (by rw [hpc]; rfl) ?_
    simp only [hpc] at hpi
    simpa [PcInv] using hpi
  | unlockStore hpc => exact h.releaseExclusive hpc
  | lockSharedDraw hpc =>
    refine h.drawShared (by rw [hpc]; rfl) (by rw [hpc]; rfl) rfl rfl
      (by rw [h.tail, enc_addShared]) ?_
    simp [PcInv, State.draw, h.tail]
  | lockSharedAcquire hpc hh =>
    refine h.setPc (by rw [hpc]; rfl) (by rw [hpc]; rfl) ?_
    simpa [PcInv] using h.acquire_shared_ticket hw hb hpc hh
  | tryLockSharedHead hpc =>
    refine h.quiet (by rw [hpc]; rfl) (by rw [hpc]; rfl)
      (fun u hu => Function.update_of_ne hu _ _) ?_
    simp [PcInv, State.setPc, h.head, Counts.le_refl]
  | tryLockSharedTail hpc =>
    refine h.setPc (by split <;> rw [hpc] <;> rfl) (by split <;> rw [hpc] <;> rfl) ?_
    simp only [hpc] at hpi
    split
    · rename_i heq
      have hlow := h.shared_tail_low hw hsh hpc heq
      simp only [PcInv, State.setPc_pc_self, State.setPc_loaded, State.setPc_released,
        State.setPc_drawn]
      refine ⟨hpi.2, s.drawn.shared, (Counts.le_trans hpi.2 h.released_le_drawn).2, le_rfl, ?_⟩
      rw [h.tail, hlow]
    · simp [PcInv]
  | tryLockSharedCasOk hpc htl =>
    refine h.drawShared (by rw [hpc]; rfl) (by rw [hpc]; rfl) rfl rfl
      (by rw [← htl, h.tail, enc_addShared]) ?_
    simpa [PcInv, State.draw] using h.cas_shared_free hsh hpc htl
  | tryLockSharedCasFail hpc _ =>
    exact h.setPc (by rw [hpc]; rfl) (by rw [hpc]; rfl) (by simp [PcInv])
  | unlockShared hpc => exact h.releaseShared hpc

theorem inv_reachable (hw : 0 < w) {s : State w τ}
    (h : Reachable ((system w).restrict fun s => Bounded s ∧ ShortTries s) s) : Inv s :=
  reachable_of_step (I := Inv) (fun _ hs => hs.restrict.2) (fun _ hs => hs.1 ▸ Inv.init)
    (fun _ _ _ _ hj hi hst => inv_step hw hj.1 hj.2 hi hst.1) h

/-- While each mode has fewer than `2 ^ (w / 2)` tickets in play and every `try_lock` and
`try_lock_shared` ends within `2 ^ (w / 2)` draws of each mode, an exclusive holder is the only
holder, and the lock is granted in ticket order: every other ticket in play was drawn after an
exclusive holder's, and every exclusive ticket in play after a shared holder's. -/
theorem shared_ticket_lock_exclusion_and_order (hw : 0 < w) {s : State w τ}
    (h : Reachable ((system w).restrict fun s => Bounded s ∧ ShortTries s) s) :
    (∀ t u, (s.pc t).holdsExclusive → (s.pc u).holdsExclusive ∨ (s.pc u).holdsShared → u = t) ∧
    (∀ t u, (s.pc t).holdsExclusive → u ≠ t → (s.pc u).exclusiveActive ∨ (s.pc u).sharedActive →
      (s.ticket t).Before (s.ticket u)) ∧
    (∀ t u, (s.pc t).holdsShared → (s.pc u).exclusiveActive →
      (s.ticket t).Before (s.ticket u)) := by
  have hi := inv_reachable hw h
  refine ⟨fun t u ht hu => hi.exclusive_alone ht hu, fun t u ht hne hu => ?_, fun t u ht hu => ?_⟩
  · obtain ⟨htm, hown⟩ := hi.holds_exclusive ht
    exact hi.counting.holder_before htm hown
      (hu.imp mem_exclusiveThreads.mpr mem_sharedThreads.mpr) hne
  · obtain ⟨htm, hown⟩ := hi.holds_shared (Pc.holdsShared_iff.mp ht)
    exact hi.counting.shared_holder_before htm hown (mem_exclusiveThreads.mpr hu)

/-- 32-bit words and two threads: thread `0` takes the lock shared, then thread `1` draws an
exclusive ticket and waits behind it. -/
theorem shared_ticket_lock_exclusion_and_order_queued :
    0 < 32 ∧ ∃ s : State 32 (Fin 2),
      Reachable ((system 32).restrict fun s => Bounded s ∧ ShortTries s) s ∧
      (s.pc 0).holdsShared ∧ (s.pc 1).exclusiveActive ∧
      ((∀ t u, (s.pc t).holdsExclusive → (s.pc u).holdsExclusive ∨ (s.pc u).holdsShared →
          u = t) ∧
        (∀ t u, (s.pc t).holdsExclusive → u ≠ t →
          (s.pc u).exclusiveActive ∨ (s.pc u).sharedActive → (s.ticket t).Before (s.ticket u)) ∧
        (∀ t u, (s.pc t).holdsShared → (s.pc u).exclusiveActive →
          (s.ticket t).Before (s.ticket u))) := by
  have h₀ : Reachable ((system 32 : System (Fin 2) (State 32 (Fin 2))).restrict
      fun s => Bounded s ∧ ShortTries s) State.init :=
    .init ⟨rfl, by unfold Bounded ShortTries; decide⟩
  have h₁ := Reachable.step 0 h₀
    ⟨Step.lockSharedDraw rfl, by unfold Bounded ShortTries; decide⟩
  have h₂ := Reachable.step 0 h₁
    ⟨Step.lockSharedAcquire rfl rfl, by unfold Bounded ShortTries; decide⟩
  have h₃ := Reachable.step 1 h₂ ⟨Step.lockDraw rfl, by unfold Bounded ShortTries; decide⟩
  exact ⟨by decide, _, h₃, rfl, rfl, shared_ticket_lock_exclusion_and_order (by decide) h₃⟩

end SharedTicketLockExclusion
