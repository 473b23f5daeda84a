import Evenk.BoundedQueueInvariant
import Evenk.BoundedQueueSequential

/-!
# The steps of the threaded ring that change shared state

A store into a slot is made by the thread that holds it, and no two threads hold the slot of one
residue, so every other thread's place carries over. A draw gives a fresh ticket, `close()` is
made by one thread, and a pop that passes its slot on moves its lap by the size.
-/
namespace BoundedQueueThreads.Pc

variable {V : Type}

/-- The places that hold the slot of their ticket. -/
def holding : Pc V → Bool
  | .pushPut .. | .pushWake .. | .popGet _ | .popWake .. => true
  | .idle | .pushLoad .. | .pushCheck .. | .pushWait .. | .popDraw | .popLoad _ | .popCheck ..
  | .popWait .. | .popStatusLoad _ | .popStatusCheck .. | .popStatusWait .. | .tryPopLoad _
  | .tryPopCheck _ | .tryPopCas .. | .closeReserve | .closeStore | .closeSlot _ => false

/-- The places past their ticket test, which read the lap of their slot. -/
def matched : Pc V → Bool
  | .pushPut .. | .pushWake .. | .popGet _ | .popWake .. | .popStatusLoad _ | .popStatusCheck ..
  | .popStatusWait .. => true
  | .idle | .pushLoad .. | .pushCheck .. | .pushWait .. | .popDraw | .popLoad _ | .popCheck ..
  | .popWait .. | .tryPopLoad _ | .tryPopCheck _ | .tryPopCas .. | .closeReserve | .closeStore
  | .closeSlot _ => false

theorem matched_holding_or_pop {p : Pc V} (h : p.matched) : p.holding ∨ p.role = .pop := by
  cases p <;> simp_all [matched, holding, role]

end BoundedQueueThreads.Pc

namespace BoundedQueueThreads.AfterWake

theorem pc_outside {V : Type} (n : AfterWake V) : n.pc = .idle ∨ n.pc = .popDraw := by
  cases n
  · exact .inl rfl
  · exact .inr rfl
  · exact .inl rfl
  · exact .inl rfl

end BoundedQueueThreads.AfterWake

namespace BoundedQueueSteps

open BoundedQueue BoundedQueueRing BoundedQueueRing.BoundedRing BoundedQueueThreads
open BoundedQueueInvariant TransitionSystem

variable {V τ : Type} {P : Policy} {throws : Bool}


section Transfer

variable {s s' : State V τ} {k : ℕ}

theorem placeInv_transfer {p : Pc V} (h : PlaceInv throws s k p)
    (hw : p.role = .push ∨ p.holding → s'.written k = s.written k)
    (hview : p.holding → SameView (s'.slotOf k) (s.slotOf k))
    (hlap : p.matched → s'.lapOf k = s.lapOf k)
    (hcas : ∀ c w, p = .tryPopCas c w → s'.headN = k →
      s.headN = k ∧ SameView (s'.slotOf k) (s.slotOf k) ∧ s'.lapOf k = s.lapOf k)
    (hclose : p.role = .close →
      s'.mem.closed = s.mem.closed ∧ s'.mem.last = s.mem.last ∧ s'.lastN = s.lastN) :
    PlaceInv throws s' k p := by
  cases p with
  | idle | popDraw | popLoad | popCheck | popWait | tryPopLoad | tryPopCheck | closeSlot =>
    trivial
  | pushLoad | pushCheck | pushWait =>
    show s'.written k = none
    rw [hw (.inl rfl)]
    exact h
  | pushPut =>
    obtain ⟨hn, hl, hs⟩ := h
    exact ⟨by rw [hw (.inl rfl)]; exact hn, by rw [hlap rfl]; exact hl,
      by rw [(hview rfl).2.1]; exact hs⟩
  | pushWake c st =>
    obtain ⟨⟨hl, hs⟩, hv⟩ := h
    refine ⟨⟨by rw [hlap rfl]; exact hl, by rw [(hview rfl).2.1]; exact hs⟩, ?_⟩
    rw [hw (.inl rfl), (hview rfl).2.2]
    exact hv
  | popStatusLoad | popStatusCheck | popStatusWait =>
    show s'.lapOf k = k
    rw [hlap rfl]
    exact h
  | popGet =>
    obtain ⟨hl, hv⟩ := h
    exact ⟨by rw [hlap rfl]; exact hl, by rw [(hview rfl).valid]; exact hv⟩
  | popWake c n =>
    obtain ⟨hl, hs, ho⟩ := h
    refine ⟨by rw [hlap rfl]; exact hl, by rw [(hview rfl).2.1]; exact hs, ?_⟩
    cases n with
    | success v =>
      show s'.written k = some v
      rw [hw (.inr rfl)]
      exact ho
    | retry | empty =>
      show (s'.slotOf k).word &&& statusValid = 0
      rw [(hview rfl).valid]
      exact ho
    | rethrow =>
      show throws = true ∧ s'.written k ≠ none
      rw [hw (.inr rfl)]
      exact ho
  | tryPopCas c w =>
    intro hh
    obtain ⟨hh', hv, hl⟩ := hcas c w rfl hh
    obtain ⟨hlk, hs, hw0⟩ := h hh'
    exact ⟨by rw [hl]; exact hlk, by rw [hv.2.1]; exact hs, hw0⟩
  | closeReserve =>
    show s'.mem.closed = .open
    rw [(hclose rfl).1]
    exact h
  | closeStore =>
    show s'.mem.last = UInt32.ofNat s'.lastN
    rw [(hclose rfl).2.1, (hclose rfl).2.2]
    exact h

end Transfer

/-! ## Threads other than the one that moves -/

section Others

variable {s s' : State V τ} {t : τ}

theorem role_update [DecidableEq τ] {f : τ → Pc V} {p : Pc V} {u : τ} {r : Role}
    (hr : r ≠ p.role) (hu : (Function.update f t p u).role = r) : u ≠ t ∧ (f u).role = r := by
  by_cases hut : u = t
  · subst hut
    rw [Function.update_self] at hu
    exact absurd hu.symm hr
  · rw [Function.update_of_ne hut] at hu
    exact ⟨hut, hu⟩

theorem threadInv_keep {u : τ} (hu : ThreadInv P throws s u) (hpc : s'.pc u = s.pc u)
    (htk : s'.ticket u = s.ticket u) (htail : s.tailN ≤ s'.tailN) (hhead : s'.headN = s.headN)
    (hfin : s'.outcomes = s.outcomes) (hslot : ∀ c, s'.slotOf c = s.slotOf c)
    (hlap : ∀ c, s'.lapOf c = s.lapOf c) (hw : s'.written = s.written)
    (hclose : (s.pc u).role = .close →
      s'.mem.closed = s.mem.closed ∧ s'.mem.last = s.mem.last ∧ s'.lastN = s.lastN) :
    ThreadInv P throws s' u :=
  hu.frame hpc htk htail hhead.ge (fun _ h => by rwa [State.Finished, hfin] at h)
    (fun _ _ => hhead)
    (placeInv_transfer hu.place (fun _ => by rw [hw]) (fun _ => by rw [hslot]; exact .rfl)
      (fun _ => hlap _) (fun _ _ _ hh => ⟨hhead ▸ hh, by rw [hslot]; exact .rfl, hlap _⟩) hclose)

theorem threadInv_closing {p : Pc V} (h : s'.pc t = p) (hp : p.role = .close)
    (hcount : p.count = none) (hplace : PlaceInv throws s' (s'.ticket t) p) :
    ThreadInv P throws s' t := by
  refine ⟨fun c hc => ?_, fun hr => ?_, fun hr => ?_, fun hr => ?_, by rw [h]; exact hplace⟩
  · rw [h, hcount] at hc
    cases hc
  all_goals
    rw [h, hp] at hr
    cases hr

end Others

/-! ## Holders of a slot -/

section Holders

variable {s : State V τ} (hinv : Inv P throws s)
include hinv

theorem holding_lap {t : τ} (ht : (s.pc t).holding) :
    s.lapOf (s.ticket t) = s.ticket t ∧
      ((s.pc t).role = .push ∧ (s.slotOf (s.ticket t)).word &&& statusMask = 0 ∨
        (s.pc t).role = .pop ∧ (s.slotOf (s.ticket t)).word &&& statusMask ≠ 0) := by
  have hplace := (hinv.threads t).place
  cases hp : s.pc t <;> rw [hp] at ht hplace <;> simp only [Pc.holding, Bool.false_eq_true] at ht
  · exact ⟨hplace.2.1, .inl ⟨rfl, hplace.2.2⟩⟩
  · exact ⟨hplace.1.1, .inl ⟨rfl, hplace.1.2⟩⟩
  · exact ⟨hplace.1, .inr ⟨rfl, statusMask_ne_zero hplace.2⟩⟩
  · exact ⟨hplace.1, .inr ⟨rfl, hplace.2.1⟩⟩

theorem holders_apart {t u : τ} (hut : u ≠ t) (ht : (s.pc t).holding) (hu : (s.pc u).holding) :
    s.ticket u % s.size ≠ s.ticket t % s.size := by
  intro hmod
  obtain ⟨hlt, ht'⟩ := holding_lap hinv ht
  obtain ⟨hlu, hu'⟩ := holding_lap hinv hu
  have hk : s.ticket u = s.ticket t := by
    rw [← hlu, ← hlt, State.lapOf_congr hmod]
  have hslot := State.slotOf_congr hinv.size_valid hmod
  rcases ht' with ⟨hrt, hst⟩ | ⟨hrt, hst⟩ <;> rcases hu' with ⟨hru, hsu⟩ | ⟨hru, hsu⟩
  · exact hut (hinv.push_unique u t hru hrt hk)
  · rw [hslot] at hsu
    exact hsu hst
  · rw [hslot] at hsu
    exact hst hsu
  · exact hut (hinv.pop_unique u t hru hrt hk)

theorem cas_apart {t u : τ} {c : CountT} {w : TokenT} (ht : (s.pc t).holding)
    (hu : s.pc u = .tryPopCas c w) (hhead : s.headN = s.ticket u) :
    s.ticket u % s.size ≠ s.ticket t % s.size := by
  intro hmod
  have hplace := (hinv.threads u).place
  rw [hu] at hplace
  obtain ⟨hlu, hsu, hw0⟩ := hplace hhead
  obtain ⟨hlt, ht'⟩ := holding_lap hinv ht
  have hk : s.ticket u = s.ticket t := by
    rw [← hlu, ← hlt, State.lapOf_congr hmod]
  rcases ht' with ⟨-, hst⟩ | ⟨hrt, -⟩
  · rw [State.slotOf_congr hinv.size_valid hmod, hst] at hsu
    exact hw0 hsu.symm
  · have := ((hinv.threads t).pop hrt).1
    omega

theorem matched_apart {t u : τ} (hut : u ≠ t) (ht : (s.pc t).role = .pop) (htl : (s.pc t).holding)
    (hu : (s.pc u).role = .pop) (hul : (s.pc u).matched) :
    s.ticket u % s.size ≠ s.ticket t % s.size := by
  intro hmod
  have hlt := (holding_lap hinv htl).1
  have hlu : s.lapOf (s.ticket u) = s.ticket u := by
    have hplace := (hinv.threads u).place
    cases hp : s.pc u <;> rw [hp] at hul hplace hu <;>
      simp only [Pc.matched, Bool.false_eq_true] at hul <;>
      first | exact hplace | exact hplace.1 | exact hplace.2.1 | exact hplace.1.1
  have hk : s.ticket u = s.ticket t := by
    rw [← hlu, ← hlt, State.lapOf_congr hmod]
  exact hut (hinv.pop_unique u t hu ht hk)

end Holders

/-! ## Flags: the waiting bit and `status_closed` -/

section Flags

variable [DecidableEq τ] {s : State V τ} {t : τ} (hinv : Inv P throws s)
include hinv

omit [DecidableEq τ] in
theorem inv_reword {i : CountT} {w : TokenT}
    (hT : w &&& ticketMask = (s.mem.ring (i &&& s.mem.mask)).word &&& ticketMask)
    (hS : w &&& statusMask = (s.mem.ring (i &&& s.mem.mask)).word &&& statusMask) :
    Inv P throws { s with mem := s.mem.setWord (i &&& s.mem.mask) w } := by
  have hview : ∀ c, SameView (({ s with mem := s.mem.setWord (i &&& s.mem.mask) w } :
      State V τ).slotOf c) (s.slotOf c) := by
    intro c
    have hring : ({ s with mem := s.mem.setWord (i &&& s.mem.mask) w } : State V τ).mem.ring =
        Function.update s.mem.ring (UInt32.ofNat i.toNat &&& s.mem.mask)
          { s.mem.ring (i &&& s.mem.mask) with word := w } := by
      rw [UInt32.ofNat_toNat]
      rfl
    by_cases hc : i.toNat % s.size = c % s.size
    · rw [State.slotOf_update_same hinv.size_valid hring rfl hc]
      have hslot : s.mem.ring (i &&& s.mem.mask) = s.slotOf c := by
        rw [← State.slotOf_congr hinv.size_valid hc, State.slotOf, UInt32.ofNat_toNat]
      rw [hslot] at hT hS ⊢
      exact ⟨hT, hS, rfl⟩
    · rw [State.slotOf_update_other hinv.size_valid hring rfl hc]
      exact .rfl
  refine { hinv with
    slots := fun c => (hinv.slots c).frame rfl (hview c) rfl le_rfl le_rfl rfl
      (fun hs u hu => ((hinv.slots c).filled hs).2 u hu) id
    threads := fun u => (hinv.threads u).frame rfl rfl le_rfl le_rfl (fun _ h => h)
      (fun _ _ => rfl) (placeInv_transfer (hinv.threads u).place (fun _ => rfl)
        (fun _ => hview _) (fun _ => rfl) (fun _ _ _ hh => ⟨hh, hview _, rfl⟩)
        (fun _ => ⟨rfl, rfl, rfl⟩)) }

omit [DecidableEq τ] in
theorem inv_waitFlag {c : CountT} {w : TokenT} (hw : s.word c = w) :
    Inv P throws { s with mem := s.mem.setWord (c &&& s.mem.mask) (w ||| statusWaiting) } := by
  subst hw
  exact inv_reword hinv (or_flag_and statusWaiting_ticket) (or_flag_and statusWaiting_status)

theorem inv_closeSlot {i : ℕ} (hpc : s.pc t = .closeSlot i) :
    Inv P throws { s.setPc t (.closeSlot (i + 1)) with
      mem := s.mem.closeSlot P.slot ((s.mem.last + UInt32.ofNat i) &&& s.mem.mask) } := by
  have hflag := inv_reword hinv (i := s.mem.last + UInt32.ofNat i)
    (BoundedQueueSequential.slotClose_and (k := P.slot) statusClosed_ticket)
    (BoundedQueueSequential.slotClose_and (k := P.slot) statusClosed_status)
  exact inv_move hflag (p := .closeSlot (i + 1)) (by show _ = (s.pc t).role; rw [hpc]; rfl)
    (by show _ = (s.pc t).count; rw [hpc]; rfl)
    (fun _ _ h => nomatch (show s.pc t = _ from h).symm.trans hpc) trivial

end Flags

/-! ## Draws: `fetch_add` on `tail_` and `head_`, `try_pop`'s load of `head_` -/

section Draws

variable [DecidableEq τ] {s : State V τ} {t : τ} (hinv : Inv P throws s)
include hinv

theorem inv_pushDraw (v : V) (hpc : s.pc t = .idle) :
    Inv P throws { s.setPc t (.pushLoad s.mem.tail v) with
      mem := { s.mem with tail := s.mem.tail + 1 }, tailN := s.tailN + 1,
      ticket := Function.update s.ticket t s.tailN } := by
  set s' : State V τ := { s.setPc t (.pushLoad s.mem.tail v) with
    mem := { s.mem with tail := s.mem.tail + 1 }, tailN := s.tailN + 1,
    ticket := Function.update s.ticket t s.tailN }
  have hself : s'.pc t = .pushLoad s.mem.tail v := State.setPc_pc_self s t _
  have htk : s'.ticket t = s.tailN := Function.update_self _ _ _
  have hne : ∀ u, u ≠ t → s'.pc u = s.pc u ∧ s'.ticket u = s.ticket u :=
    fun u hu => ⟨State.setPc_pc_ne s t _ hu, Function.update_of_ne hu _ _⟩
  have hback : ∀ u, (s'.pc u).role ≠ .push → u ≠ t := by
    rintro u hu rfl
    rw [hself] at hu
    exact hu rfl
  refine { hinv with
    tail := by
      show s.mem.tail + 1 = UInt32.ofNat (s.tailN + 1)
      rw [hinv.tail, ofNat_succ]
    unclosed := fun h0 => ⟨(hinv.unclosed h0).1, fun u hu => ?_⟩
    one_closer := fun u w hu hw => ?_
    slots := fun c => (hinv.slots c).frame rfl .rfl rfl le_rfl (Nat.le_succ _) rfl
      (fun hs u hu => ?_) (fun ⟨u, c', n, hu, hk⟩ => ?_)
    drawn := fun c hc => ?_
    unwritten := fun c hc => hinv.unwritten c (Nat.le_of_succ_le hc)
    threads := fun u => ?_
    push_unique := fun u w hu hw hk => ?_
    pop_unique := fun u w hu hw hk => ?_ }
  · have hut := hback u (by rw [hu]; decide)
    rw [(hne u hut).1] at hu
    exact (hinv.unclosed h0).2 u hu
  · have hut := hback u (by rw [hu]; decide)
    have hwt := hback w (by rw [hw]; decide)
    rw [(hne u hut).1] at hu
    rw [(hne w hwt).1] at hw
    exact hinv.one_closer u w hu hw
  · by_cases hut : u = t
    · subst hut
      rw [htk]
      exact Nat.ne_of_gt ((hinv.slots c).filled hs).1
    · rw [(hne u hut).1] at hu
      rw [(hne u hut).2]
      exact ((hinv.slots c).filled hs).2 u hu
  · have hut : u ≠ t := fun h => by rw [h, hpc] at hu; cases hu
    exact ⟨u, c', n, by rw [(hne u hut).1]; exact hu, by rw [(hne u hut).2]; exact hk⟩
  · rcases hinv.drawn c hc with ⟨u, hu, hk⟩ | hf | hl
    · have hut : u ≠ t := fun h => by rw [h, hpc] at hu; cases hu
      exact .inl ⟨u, by rw [(hne u hut).1]; exact hu, by rw [(hne u hut).2]; exact hk⟩
    · exact .inr (.inl hf)
    · exact .inr (.inr hl)
  · by_cases hut : u = t
    · subst hut
      refine ⟨fun c hc => ?_, fun _ => ?_, fun hr => ?_, fun hr => ?_, ?_⟩
      · rw [hself] at hc
        cases hc
        rw [htk, hinv.tail]
      · rw [htk]
        exact Nat.lt_succ_self _
      · rw [hself] at hr
        cases hr
      · rw [hself] at hr
        cases hr
      · rw [hself, htk]
        exact hinv.unwritten _ le_rfl
    · obtain ⟨hpu, htu⟩ := hne u hut
      exact threadInv_keep (hinv.threads u) hpu htu (Nat.le_succ _) rfl rfl (fun _ => rfl)
        (fun _ => rfl) rfl (fun _ => ⟨rfl, rfl, rfl⟩)
  · have hfresh : ∀ x, x ≠ t → (s'.pc x).role = .push → s'.ticket x < s.tailN := by
      intro x hxt hx
      rw [(hne x hxt).1] at hx
      rw [(hne x hxt).2]
      exact (hinv.threads x).push hx
    by_cases hut : u = t <;> by_cases hwt : w = t
    · rw [hut, hwt]
    · rw [hut, htk] at hk
      exact absurd hk (Nat.ne_of_gt (hfresh w hwt hw))
    · rw [hwt, htk] at hk
      exact absurd hk (Nat.ne_of_lt (hfresh u hut hu))
    · rw [(hne u hut).1] at hu
      rw [(hne w hwt).1] at hw
      rw [(hne u hut).2, (hne w hwt).2] at hk
      exact hinv.push_unique u w hu hw hk
  · have hut := hback u (by rw [hu]; decide)
    have hwt := hback w (by rw [hw]; decide)
    rw [(hne u hut).1] at hu
    rw [(hne w hwt).1] at hw
    rw [(hne u hut).2, (hne w hwt).2] at hk
    exact hinv.pop_unique u w hu hw hk

theorem inv_takeHead {s' : State V τ} {p : Pc V} (hsingle : SingleConsumer P s)
    (hcons : (s.pc t).role = .draw ∨ (s.pc t).role = .tryPop) (hp : p.role = .pop)
    (hpc : s'.pc = Function.update s.pc t p)
    (htk : s'.ticket = Function.update s.ticket t s.headN)
    (hmem : s'.mem = { s.mem with head := s.mem.head + 1 }) (hheadN : s'.headN = s.headN + 1)
    (htail : s'.tailN = s.tailN) (hlast : s'.lastN = s.lastN) (hlap : s'.lap = s.lap)
    (hwritten : s'.written = s.written) (hout : s'.outcomes = s.outcomes)
    (hcloses : s'.closes = s.closes) (ht : ThreadInv P throws s' t) : Inv P throws s' := by
  obtain ⟨mem, pc, headN, tailN, lastN, ticket, lap, written, outcomes, closes⟩ := s'
  simp only at hpc htk hmem hheadN htail hlast hlap hwritten hout hcloses
  subst hpc htk hmem hheadN htail hlast hlap hwritten hout hcloses
  have hself : Function.update s.pc t p t = p := Function.update_self _ _ _
  have hne : ∀ u, u ≠ t → Function.update s.pc t p u = s.pc u ∧
      Function.update s.ticket t s.headN u = s.ticket u :=
    fun u hu => ⟨Function.update_of_ne hu _ _, Function.update_of_ne hu _ _⟩
  have hnot : ∀ u, (s.pc u).role = .pop ∨ (s.pc u).role = .push → u ≠ t := by
    rintro u hu rfl
    rcases hcons with h | h <;> rcases hu with h' | h' <;> rw [h] at h' <;> cases h'
  have hrole : ∀ u r, r ≠ .pop → (Function.update s.pc t p u).role = r →
      u ≠ t ∧ (s.pc u).role = r :=
    fun u r hr hu => role_update (by rw [hp]; exact hr) hu
  refine { hinv with
    head := by
      show s.mem.head + 1 = UInt32.ofNat (s.headN + 1)
      rw [hinv.head, ofNat_succ]
    unclosed := fun h0 => ⟨(hinv.unclosed h0).1, fun u hu =>
      (hinv.unclosed h0).2 u (hrole u _ (by decide) hu).2⟩
    one_closer := fun u w hu hw =>
      hinv.one_closer u w (hrole u _ (by decide) hu).2 (hrole w _ (by decide) hw).2
    slots := fun c => (hinv.slots c).frame rfl .rfl rfl (Nat.le_succ _) le_rfl rfl
      (fun hs u hu hk => by
        obtain ⟨hut, hu'⟩ := hrole u _ (by decide) hu
        exact ((hinv.slots c).filled hs).2 u hu' ((hne u hut).2.symm.trans hk))
      (fun ⟨u, c', n, hu, hk⟩ => by
        have hut := hnot u (.inl (by rw [hu]; rfl))
        exact ⟨u, c', n, (hne u hut).1.trans hu, (hne u hut).2.trans hk⟩)
    finished_lt := fun c hc => Nat.lt_succ_of_lt (hinv.finished_lt c hc)
    drawn := fun c hc => ?_
    threads := fun u => ?_
    push_unique := fun u w hu hw hk => ?_
    pop_unique := fun u w hu hw hk => ?_ }
  · rcases Nat.lt_succ_iff_lt_or_eq.mp hc with hc | rfl
    · rcases hinv.drawn c hc with ⟨u, hu, hk⟩ | hf | hl
      · have hut := hnot u (.inl hu)
        exact .inl ⟨u, by dsimp only; rw [(hne u hut).1]; exact hu, (hne u hut).2.trans hk⟩
      · exact .inr (.inl hf)
      · exact .inr (.inr hl)
    · exact .inl ⟨t, by dsimp only; rw [hself]; exact hp, Function.update_self _ _ _⟩
  · by_cases hut : u = t
    · subst hut
      exact ht
    · obtain ⟨hpu, htu⟩ := hne u hut
      have hcounter : (s.pc u).role = .tryPop → P.consumer = .counter →
          s.headN + 1 = s.headN :=
        fun hr hc => absurd (hsingle hc t u (by rcases hcons with h | h; exacts [.inl h, .inr (.inr h)])
          (.inr (.inr hr))).symm hut
      exact (hinv.threads u).frame hpu htu le_rfl (Nat.le_succ _) (fun _ h => h) hcounter
        (placeInv_transfer (hinv.threads u).place (fun _ => rfl) (fun _ => .rfl) (fun _ => rfl)
          (fun c w hp hh => absurd hh (by
            have := ((hinv.threads u).tryPop (by rw [hp]; rfl)).1
            show s.headN + 1 ≠ s.ticket u
            omega))
          (fun _ => ⟨rfl, rfl, rfl⟩))
  · obtain ⟨hut, hu'⟩ := hrole u _ (by decide) hu
    obtain ⟨hwt, hw'⟩ := hrole w _ (by decide) hw
    exact hinv.push_unique u w hu' hw' ((hne u hut).2.symm.trans (hk.trans (hne w hwt).2))
  · dsimp only at hu hw hk
    have hfresh : ∀ x, x ≠ t → (Function.update s.pc t p x).role = .pop →
        Function.update s.ticket t s.headN x < s.headN := by
      intro x hxt hx
      rw [(hne x hxt).1] at hx
      rw [(hne x hxt).2]
      exact ((hinv.threads x).pop hx).1
    by_cases hut : u = t <;> by_cases hwt : w = t
    · rw [hut, hwt]
    · rw [hut, Function.update_self] at hk
      exact absurd hk (Nat.ne_of_gt (hfresh w hwt hw))
    · rw [hwt, Function.update_self] at hk
      exact absurd hk (Nat.ne_of_lt (hfresh u hut hu))
    · rw [(hne u hut).1] at hu
      rw [(hne w hwt).1] at hw
      rw [(hne u hut).2, (hne w hwt).2] at hk
      exact hinv.pop_unique u w hu hw hk

theorem inv_popDraw (hsingle : SingleConsumer P s) (hpc : s.pc t = .popDraw) :
    Inv P throws { s.setPc t (.popLoad s.mem.head) with
      mem := { s.mem with head := s.mem.head + 1 }, headN := s.headN + 1,
      ticket := Function.update s.ticket t s.headN } := by
  refine inv_takeHead hinv hsingle (.inl (by rw [hpc]; rfl)) rfl rfl rfl rfl rfl rfl rfl rfl rfl
    rfl rfl ⟨fun c hc => ?_, fun hr => ?_, fun _ => ?_, fun hr => ?_, ?_⟩
  · rw [State.setPc_pc_self] at hc
    cases hc
    show s.mem.head = UInt32.ofNat (Function.update s.ticket t s.headN t)
    rw [Function.update_self, hinv.head]
  · simp [Pc.role] at hr
  · show Function.update s.ticket t s.headN t < s.headN + 1 ∧
      ¬ s.Finished (Function.update s.ticket t s.headN t)
    rw [Function.update_self]
    exact ⟨Nat.lt_succ_self _, fun hf => Nat.lt_irrefl _ (hinv.finished_lt _ hf)⟩
  · simp [Pc.role] at hr
  · show PlaceInv throws _ _ ((s.setPc t (.popLoad s.mem.head)).pc t)
    rw [State.setPc_pc_self]
    trivial

theorem inv_tryPopHead (hpc : s.pc t = .idle) :
    Inv P throws { s.setPc t (.tryPopLoad s.mem.head) with
      ticket := Function.update s.ticket t s.headN } := by
  set s' : State V τ := { s.setPc t (.tryPopLoad s.mem.head) with
    ticket := Function.update s.ticket t s.headN }
  have hself : s'.pc t = .tryPopLoad s.mem.head := State.setPc_pc_self s t _
  have htk : s'.ticket t = s.headN := Function.update_self _ _ _
  have hne : ∀ u, u ≠ t → s'.pc u = s.pc u ∧ s'.ticket u = s.ticket u :=
    fun u hu => ⟨State.setPc_pc_ne s t _ hu, Function.update_of_ne hu _ _⟩
  have hnot : ∀ u, (s.pc u).role ≠ .none → u ≠ t := by
    rintro u hu rfl
    rw [hpc] at hu
    exact hu rfl
  have hrole : ∀ u r, r ≠ .tryPop → (s'.pc u).role = r → u ≠ t ∧ (s.pc u).role = r :=
    fun u r hr hu => role_update (f := s.pc) (p := .tryPopLoad s.mem.head) hr hu
  refine { hinv with
    unclosed := fun h0 => ⟨(hinv.unclosed h0).1, fun u hu =>
      (hinv.unclosed h0).2 u (hrole u _ (by decide) hu).2⟩
    one_closer := fun u w hu hw =>
      hinv.one_closer u w (hrole u _ (by decide) hu).2 (hrole w _ (by decide) hw).2
    slots := fun c => (hinv.slots c).frame rfl .rfl rfl le_rfl le_rfl rfl
      (fun hs u hu => by
        obtain ⟨hut, hu'⟩ := hrole u _ (by decide) hu
        rw [(hne u hut).2]
        exact ((hinv.slots c).filled hs).2 u hu')
      (fun ⟨u, c', n, hu, hk⟩ => by
        have hut := hnot u (by rw [hu]; exact fun h => nomatch h)
        exact ⟨u, c', n, by rw [(hne u hut).1]; exact hu, by rw [(hne u hut).2]; exact hk⟩)
    drawn := fun c hc => ?_
    threads := fun u => ?_
    push_unique := fun u w hu hw hk => ?_
    pop_unique := fun u w hu hw hk => ?_ }
  · rcases hinv.drawn c hc with ⟨u, hu, hk⟩ | hf | hl
    · have hut := hnot u (by rw [hu]; decide)
      exact .inl ⟨u, by rw [(hne u hut).1]; exact hu, by rw [(hne u hut).2]; exact hk⟩
    · exact .inr (.inl hf)
    · exact .inr (.inr hl)
  · by_cases hut : u = t
    · subst hut
      refine ⟨fun c hc => ?_, fun hr => ?_, fun hr => ?_, fun _ => ?_, ?_⟩
      · rw [hself] at hc
        cases hc
        rw [htk, hinv.head]
      · rw [hself] at hr
        cases hr
      · rw [hself] at hr
        cases hr
      · rw [htk]
        exact ⟨le_rfl, fun _ => rfl⟩
      · rw [hself]
        trivial
    · obtain ⟨hpu, htu⟩ := hne u hut
      exact threadInv_keep (hinv.threads u) hpu htu le_rfl rfl rfl (fun _ => rfl) (fun _ => rfl)
        rfl (fun _ => ⟨rfl, rfl, rfl⟩)
  · obtain ⟨hut, hu'⟩ := hrole u _ (by decide) hu
    obtain ⟨hwt, hw'⟩ := hrole w _ (by decide) hw
    rw [(hne u hut).2, (hne w hwt).2] at hk
    exact hinv.push_unique u w hu' hw' hk
  · obtain ⟨hut, hu'⟩ := hrole u _ (by decide) hu
    obtain ⟨hwt, hw'⟩ := hrole w _ (by decide) hw
    rw [(hne u hut).2, (hne w hwt).2] at hk
    exact hinv.pop_unique u w hu' hw' hk

theorem inv_tryPopCasOk (hwin : Window s) (hsingle : SingleConsumer P s) {c h : CountT}
    {w : TokenT} (hpc : s.pc t = .tryPopCas c w)
    (hinc : tryIncrement P.consumer s.mem.head c = some h) :
    Inv P throws { s.setPc t (if w &&& statusValid = 0 then .popWake c .empty else .popGet c) with
      mem := { s.mem with head := h }, headN := s.headN + 1 } := by
  have ht := hinv.threads t
  have hrole : (s.pc t).role = .tryPop := by rw [hpc]; rfl
  have hc : c = UInt32.ofNat (s.ticket t) := ht.count c (by rw [hpc]; rfl)
  subst hc
  obtain ⟨hk, hh⟩ := tryIncrement_some hinv hwin hrole hinc
  obtain ⟨hlap, hstatus, hw0⟩ : s.lapOf (s.ticket t) = s.ticket t ∧
      (s.slotOf (s.ticket t)).word &&& statusMask = w &&& statusMask ∧ w &&& statusMask ≠ 0 := by
    have hplace := ht.place
    rw [hpc] at hplace
    exact hplace hk.symm
  have hvalid : (s.slotOf (s.ticket t)).word &&& statusValid = w &&& statusValid := by
    rw [and_statusValid, hstatus, ← and_statusValid]
  have hh' : h = s.mem.head + 1 := by rw [hh, hinv.head, ofNat_succ]
  subst hh'
  refine inv_takeHead hinv hsingle (.inr hrole) (by split <;> rfl) rfl
    (Function.update_eq_self_iff.mpr hk.symm).symm rfl rfl rfl rfl rfl rfl rfl rfl
    ⟨fun c hc => ?_, fun hr => ?_, fun _ => ?_, fun hr => ?_, ?_⟩
  · rw [State.setPc_pc_self] at hc
    split at hc <;> cases hc <;> rfl
  · rw [State.setPc_pc_self] at hr
    split at hr <;> cases hr
  · show s.ticket t < s.headN + 1 ∧ ¬ s.Finished (s.ticket t)
    exact ⟨by omega, fun hf => by have := hinv.finished_lt _ hf; omega⟩
  · rw [State.setPc_pc_self] at hr
    split at hr <;> cases hr
  · show PlaceInv throws _ _ ((s.setPc t _).pc t)
    rw [State.setPc_pc_self]
    split
    · rename_i hv
      exact ⟨hlap, by show (s.slotOf (s.ticket t)).word &&& statusMask ≠ 0; rw [hstatus]; exact hw0,
        by show (s.slotOf (s.ticket t)).word &&& statusValid = 0; rw [hvalid]; exact hv⟩
    · rename_i hv
      exact ⟨hlap, by show (s.slotOf (s.ticket t)).word &&& statusValid ≠ 0; rw [hvalid]; exact hv⟩

end Draws

/-! ## `close()`: the CAS on `closed_`, the reservation of `tail_`, the store of `last_` -/

section Close

variable [DecidableEq τ] {s : State V τ} {t : τ}

variable (hinv : Inv P throws s)
include hinv

theorem inv_closeCall (hpc : s.pc t = .idle) (hone : s.closes + 1 ≤ 1) :
    Inv P throws { s.setPc t .closeReserve with closes := s.closes + 1 } := by
  obtain ⟨hopen, hnone⟩ := hinv.unclosed (by omega)
  set s' : State V τ := { s.setPc t .closeReserve with closes := s.closes + 1 }
  have hself : s'.pc t = .closeReserve := State.setPc_pc_self s t _
  have hne : ∀ u, u ≠ t → s'.pc u = s.pc u := fun u hu => State.setPc_pc_ne s t _ hu
  have hnot : ∀ u, (s.pc u).role ≠ .none → u ≠ t := by
    rintro u hu rfl
    rw [hpc] at hu
    exact hu rfl
  have hrole : ∀ u r, r ≠ .close → (s'.pc u).role = r → u ≠ t ∧ (s.pc u).role = r :=
    fun u r hr hu => role_update (f := s.pc) (p := .closeReserve) hr hu
  have hcloser : ∀ u, (s'.pc u).role = .close → u = t := by
    intro u hu
    by_contra hut
    rw [hne u hut] at hu
    exact hnone u hu
  refine { hinv with
    unclosed := fun h0 => absurd h0 (Nat.succ_ne_zero _)
    one_closer := fun u w hu hw => (hcloser u hu).trans (hcloser w hw).symm
    slots := fun c => (hinv.slots c).frame rfl .rfl rfl le_rfl le_rfl rfl
      (fun hs u hu => ((hinv.slots c).filled hs).2 u (hrole u _ (by decide) hu).2)
      (fun ⟨u, c', n, hu, hk⟩ => ⟨u, c', n,
        (hne u (hnot u (by rw [hu]; exact fun h => nomatch h))).trans hu, hk⟩)
    drawn := fun c hc => ?_
    threads := fun u => ?_
    push_unique := fun u w hu hw hk =>
      hinv.push_unique u w (hrole u _ (by decide) hu).2 (hrole w _ (by decide) hw).2 hk
    pop_unique := fun u w hu hw hk =>
      hinv.pop_unique u w (hrole u _ (by decide) hu).2 (hrole w _ (by decide) hw).2 hk }
  · rcases hinv.drawn c hc with ⟨u, hu, hk⟩ | hf | hl
    · exact .inl ⟨u, by rw [hne u (hnot u (by rw [hu]; decide))]; exact hu, hk⟩
    · exact .inr (.inl hf)
    · exact .inr (.inr hl)
  · by_cases hut : u = t
    · subst hut
      exact threadInv_closing hself rfl rfl hopen
    · exact threadInv_keep (hinv.threads u) (hne u hut) rfl le_rfl rfl rfl (fun _ => rfl)
        (fun _ => rfl) rfl (fun _ => ⟨rfl, rfl, rfl⟩)

omit [DecidableEq τ] in
theorem closer_eq (hclose : (s.pc t).role = .close) {f : τ → Pc V}
    (hf : ∀ u, u ≠ t → f u = s.pc u) {u : τ} (hu : (f u).role = .close) : u = t := by
  by_contra hut
  rw [hf u hut] at hu
  exact hut (hinv.one_closer u t hu hclose)

omit [DecidableEq τ] in
theorem threadInv_closer {s' : State V τ} {u : τ} (hclose : (s.pc t).role = .close) (hut : u ≠ t)
    (hpc : s'.pc u = s.pc u) (htk : s'.ticket u = s.ticket u) (htail : s.tailN ≤ s'.tailN)
    (hhead : s'.headN = s.headN) (hfin : s'.outcomes = s.outcomes)
    (hslot : ∀ c, s'.slotOf c = s.slotOf c) (hlap : ∀ c, s'.lapOf c = s.lapOf c)
    (hw : s'.written = s.written) : ThreadInv P throws s' u :=
  threadInv_keep (hinv.threads u) hpc htk htail hhead hfin hslot hlap hw
    (fun hu => absurd (hinv.one_closer u t hu hclose) hut)

theorem inv_closeReserve (hpc : s.pc t = .closeReserve) :
    Inv P throws { s.setPc t .closeStore with
      mem := { s.mem with last := s.mem.tail, tail := s.mem.tail + (s.mem.mask + 1) },
      lastN := s.tailN, tailN := s.tailN + s.size } := by
  have hclose : (s.pc t).role = .close := by rw [hpc]; rfl
  have hopen : s.mem.closed = .open := by
    have hplace := (hinv.threads t).place
    rwa [hpc] at hplace
  set s' : State V τ := { s.setPc t .closeStore with
      mem := { s.mem with last := s.mem.tail, tail := s.mem.tail + (s.mem.mask + 1) },
      lastN := s.tailN, tailN := s.tailN + s.size }
  have hself : s'.pc t = .closeStore := State.setPc_pc_self s t _
  have hne : ∀ u, u ≠ t → s'.pc u = s.pc u := fun u hu => State.setPc_pc_ne s t _ hu
  have hrole : ∀ u r, r ≠ .close → (s'.pc u).role = r → u ≠ t ∧ (s.pc u).role = r :=
    fun u r hr hu => role_update (f := s.pc) (p := .closeStore) hr hu
  have hcloser : ∀ u, (s'.pc u).role = .close → u = t := fun u hu => closer_eq hinv hclose hne hu
  have hnot : ∀ u, (s.pc u).role ≠ .close → u ≠ t := by
    rintro u hu rfl
    exact hu hclose
  refine { hinv with
    tail := by
      show s.mem.tail + (s.mem.mask + 1) = UInt32.ofNat (s.tailN + s.size)
      rw [hinv.tail, ofNat_add_size]
      rfl
    last := fun hc => nomatch hopen.symm.trans hc
    unclosed := fun h0 => absurd hclose ((hinv.unclosed h0).2 t)
    one_closer := fun u w hu hw => (hcloser u hu).trans (hcloser w hw).symm
    slots := fun c => (hinv.slots c).frame rfl .rfl rfl le_rfl (Nat.le_add_right _ _) rfl
      (fun hs u hu => ((hinv.slots c).filled hs).2 u (hrole u _ (by decide) hu).2)
      (fun ⟨u, c', n, hu, hk⟩ => ⟨u, c', n,
        by rw [hne u (hnot u (by rw [hu]; exact fun h => nomatch h))]; exact hu, hk⟩)
    drawn := fun c hc => ?_
    unwritten := fun c hc => hinv.unwritten c (le_trans (Nat.le_add_right _ _) hc)
    threads := fun u => ?_
    push_unique := fun u w hu hw hk =>
      hinv.push_unique u w (hrole u _ (by decide) hu).2 (hrole w _ (by decide) hw).2 hk
    pop_unique := fun u w hu hw hk =>
      hinv.pop_unique u w (hrole u _ (by decide) hu).2 (hrole w _ (by decide) hw).2 hk }
  · -- the ring was open, so every drawn ticket is held by a pop or passed on
    rcases hinv.drawn c hc with ⟨u, hu, hk⟩ | hf | ⟨hc', -⟩
    · exact .inl ⟨u, by rw [hne u (hnot u (by rw [hu]; decide))]; exact hu, hk⟩
    · exact .inr (.inl hf)
    · exact nomatch hopen.symm.trans hc'
  · by_cases hut : u = t
    · subst hut
      exact threadInv_closing hself rfl rfl hinv.tail
    · exact threadInv_closer hinv hclose hut (hne u hut) rfl (Nat.le_add_right _ _) rfl rfl
        (fun _ => rfl) (fun _ => rfl) rfl

theorem inv_closeStore (hpc : s.pc t = .closeStore) :
    Inv P throws { s.setPc t (.closeSlot 0) with mem := { s.mem with closed := .closed } } := by
  have hclose : (s.pc t).role = .close := by rw [hpc]; rfl
  have hlast : s.mem.last = UInt32.ofNat s.lastN := by
    have hplace := (hinv.threads t).place
    rwa [hpc] at hplace
  set s' : State V τ := { s.setPc t (.closeSlot 0) with mem := { s.mem with closed := .closed } }
  have hself : s'.pc t = .closeSlot 0 := State.setPc_pc_self s t _
  have hne : ∀ u, u ≠ t → s'.pc u = s.pc u := fun u hu => State.setPc_pc_ne s t _ hu
  have hrole : ∀ u r, r ≠ .close → (s'.pc u).role = r → u ≠ t ∧ (s.pc u).role = r :=
    fun u r hr hu => role_update (f := s.pc) (p := .closeSlot 0) hr hu
  have hcloser : ∀ u, (s'.pc u).role = .close → u = t := fun u hu => closer_eq hinv hclose hne hu
  have hnot : ∀ u, (s.pc u).role ≠ .close → u ≠ t := by
    rintro u hu rfl
    exact hu hclose
  refine { hinv with
    last := fun _ => hlast
    not_closing := fun h => nomatch h
    unclosed := fun h0 => absurd hclose ((hinv.unclosed h0).2 t)
    one_closer := fun u w hu hw => (hcloser u hu).trans (hcloser w hw).symm
    slots := fun c => (hinv.slots c).frame rfl .rfl rfl le_rfl le_rfl rfl
      (fun hs u hu => ((hinv.slots c).filled hs).2 u (hrole u _ (by decide) hu).2)
      (fun ⟨u, c', n, hu, hk⟩ => ⟨u, c', n,
        by rw [hne u (hnot u (by rw [hu]; exact fun h => nomatch h))]; exact hu, hk⟩)
    drawn := fun c hc => ?_
    threads := fun u => ?_
    push_unique := fun u w hu hw hk =>
      hinv.push_unique u w (hrole u _ (by decide) hu).2 (hrole w _ (by decide) hw).2 hk
    pop_unique := fun u w hu hw hk =>
      hinv.pop_unique u w (hrole u _ (by decide) hu).2 (hrole w _ (by decide) hw).2 hk }
  · rcases hinv.drawn c hc with ⟨u, hu, hk⟩ | hf | ⟨-, hl⟩
    · exact .inl ⟨u, by rw [hne u (hnot u (by rw [hu]; decide))]; exact hu, hk⟩
    · exact .inr (.inl hf)
    · exact .inr (.inr ⟨rfl, hl⟩)
  · by_cases hut : u = t
    · subst hut
      exact threadInv_closing hself rfl rfl trivial
    · exact threadInv_closer hinv hclose hut (hne u hut) rfl le_rfl rfl rfl
        (fun _ => rfl) (fun _ => rfl) rfl

end Close

/-! ## Stores into a held slot -/

section Store

variable [DecidableEq τ] {s : State V τ} {t : τ}

theorem valid_token_or (c : CountT) {st : TokenT} (hst : st.toNat < 2 ^ 4) :
    (token c ||| st) &&& statusValid = st &&& statusValid := by
  rw [and_statusValid, status_token_or c hst, ← and_statusValid]

omit [DecidableEq τ] in
theorem slotInv_of_token {c : ℕ} (hword : (s.slotOf c).word = token (UInt32.ofNat (s.lapOf c)))
    (hmod : s.lapOf c % s.size = c % s.size) (hlt : s.lapOf c < s.headN + s.size) :
    SlotInv s c := by
  have hstatus : (s.slotOf c).word &&& statusMask = 0 := by
    rw [hword]
    exact token_and_flag _ (by decide)
  refine ⟨hmod, ?_, hlt, fun hs => absurd hstatus hs,
    fun hv => absurd hstatus (statusMask_ne_zero hv), fun hs => absurd hstatus hs⟩
  rw [hword, token, UInt32.and_assoc, UInt32.and_self]

omit [DecidableEq τ] in
theorem slotInv_unfilled {s' : State V τ} {c : ℕ} (hc : SlotInv s c) (hsize : s'.size = s.size)
    (hT : (s'.slotOf c).word &&& ticketMask = (s.slotOf c).word &&& ticketMask)
    (hS : (s'.slotOf c).word &&& statusMask = 0) (hlap : s'.lapOf c = s.lapOf c)
    (hhead : s.headN ≤ s'.headN) : SlotInv s' c := by
  refine ⟨?_, ?_, ?_, fun hs => absurd hS hs, fun hv => absurd hS (statusMask_ne_zero hv),
    fun hs => absurd hS hs⟩
  · rw [hlap, hsize]
    exact hc.lap_mod
  · rw [hT, hlap]
    exact hc.ticket
  · rw [hlap, hsize]
    exact lt_of_lt_of_le hc.lap_lt (Nat.add_le_add_right hhead _)

variable (hinv : Inv P throws s)
include hinv

omit [DecidableEq τ] in
theorem ticket_ne_of_holding {u : τ} (hut : u ≠ t) (ht : (s.pc t).holding)
    (hu : (s.pc u).role = .push ∨ (s.pc u).holding) : s.ticket u ≠ s.ticket t := by
  intro hk
  rcases hu with hu | hu
  · obtain ⟨hlap, ⟨hrt, -⟩ | ⟨-, hst⟩⟩ := holding_lap hinv ht
    · exact hut (hinv.push_unique u t hu hrt hk)
    · exact ((hinv.slots (s.ticket t)).filled hst).2 u hu (hk.trans hlap.symm)
  · exact holders_apart hinv hut ht hu (by rw [hk])

omit [DecidableEq τ] in
theorem not_finished_of_holding (ht : (s.pc t).holding) : ¬ s.Finished (s.ticket t) := by
  intro hf
  have hle := (hinv.finished_iff _).mp hf
  rw [(holding_lap hinv ht).1] at hle
  have := hinv.size_pos
  omega

omit [DecidableEq τ] in
theorem slotInv_setValue {s' : State V τ} {c : ℕ} {v : V}
    (hs : (s.slotOf (s.ticket t)).word &&& statusMask = 0)
    (hc : c % s.size = s.ticket t % s.size)
    (hx : s'.slotOf c = { s.slotOf (s.ticket t) with value := v }) (hsize : s'.size = s.size)
    (hlap : s'.lapOf c = s.lapOf c) (hhead : s.headN ≤ s'.headN) : SlotInv s' c := by
  have hslot := State.slotOf_congr hinv.size_valid hc
  have hword : (s'.slotOf c).word = (s.slotOf c).word := by
    rw [hx, hslot]
  have hs' : (s'.slotOf c).word &&& statusMask = 0 := by
    rw [hword, hslot]
    exact hs
  exact slotInv_unfilled (hinv.slots c) hsize (by rw [hword]) hs' hlap hhead

omit [DecidableEq τ] in
theorem threadInv_store {s' : State V τ} {u : τ} (hut : u ≠ t) (ht : (s.pc t).holding)
    (hpc : s'.pc u = s.pc u) (htk : s'.ticket u = s.ticket u) (htail : s'.tailN = s.tailN)
    (hhead : s'.headN = s.headN)
    (hfin : ∀ c, s'.Finished c → s.Finished c ∨ (s.pc t).role = .pop ∧ c = s.ticket t)
    (hw : ∀ c, c ≠ s.ticket t → s'.written c = s.written c)
    (hslot : ∀ c, c % s.size ≠ s.ticket t % s.size → s'.slotOf c = s.slotOf c)
    (hlap : ∀ c, s'.lapOf c = s.lapOf c ∨
      (s.pc t).role = .pop ∧ c % s.size = s.ticket t % s.size)
    (hclose : s'.mem.closed = s.mem.closed ∧ s'.mem.last = s.mem.last ∧ s'.lastN = s.lastN) :
    ThreadInv P throws s' u := by
  have hu := hinv.threads u
  refine hu.frame hpc htk htail.ge hhead.ge (fun hr hf => ?_) (fun _ _ => hhead)
    (placeInv_transfer hu.place (fun hr => hw _ (ticket_ne_of_holding hinv hut ht hr))
      (fun hh => by rw [hslot _ (holders_apart hinv hut ht hh)]; exact .rfl) (fun hm => ?_)
      (fun c w hp hh => ?_) (fun _ => hclose))
  · rcases hfin _ hf with hf | ⟨hrt, hk⟩
    · exact hf
    · exact absurd (hinv.pop_unique u t hr hrt hk) hut
  · -- the lap of `u` moves only under a pop `t` of `u`'s residue, which `u` is not
    rcases hlap (s.ticket u) with hl | ⟨hrt, hmod⟩
    · exact hl
    · rcases Pc.matched_holding_or_pop hm with hh | hr
      · exact absurd hmod (holders_apart hinv hut ht hh)
      · exact absurd hmod (matched_apart hinv hut hrt ht hr hm)
  · have hh' : s.headN = s.ticket u := hhead.symm.trans hh
    have hapart := cas_apart hinv ht hp hh'
    exact ⟨hh', by rw [hslot _ hapart]; exact .rfl, (hlap _).resolve_right (fun h => hapart h.2)⟩

theorem inv_store {s' : State V τ} {p : Pc V} {x : RingSlot V} {wv : Option V}
    (ht : (s.pc t).holding) (hwake : ∀ c n, s.pc t ≠ .popWake c n)
    (hp : p.role = (s.pc t).role ∨ (s.pc t).role = .push ∧ p = .idle)
    (hpc : s'.pc = Function.update s.pc t p)
    (hmem : s'.mem = { s.mem with
      ring := Function.update s.mem.ring (UInt32.ofNat (s.ticket t) &&& s.mem.mask) x })
    (hwritten : s'.written = Function.update s.written (s.ticket t) wv)
    (hwv : (s.pc t).role = .pop → wv = s.written (s.ticket t))
    (hticket : s'.ticket = s.ticket) (hheadN : s'.headN = s.headN) (htail : s'.tailN = s.tailN)
    (hlastN : s'.lastN = s.lastN) (hlap : s'.lap = s.lap) (hout : s'.outcomes = s.outcomes)
    (hcloses : s'.closes = s.closes)
    (hslot : ∀ c, c % s.size = s.ticket t % s.size → s'.slotOf c = x → SlotInv s' c)
    (hself : ThreadInv P throws s' t) : Inv P throws s' := by
  have hsize : s'.size = s.size := by
    unfold State.size
    rw [hmem]
  have hsame : ∀ c, c % s.size = s.ticket t % s.size → s'.slotOf c = x := fun c hc =>
    State.slotOf_update_same hinv.size_valid (by rw [hmem]) (by rw [hmem]) hc.symm
  have hother : ∀ c, c % s.size ≠ s.ticket t % s.size → s'.slotOf c = s.slotOf c := fun c hc =>
    State.slotOf_update_other hinv.size_valid (by rw [hmem]) (by rw [hmem]) (Ne.symm hc)
  have hlapOf : ∀ c, s'.lapOf c = s.lapOf c := fun c => by
    unfold State.lapOf
    rw [hlap, hsize]
  obtain ⟨mem, pc, headN, tailN, lastN, ticket, lap, written, outcomes, closes⟩ := s'
  simp only at hpc hmem hwritten hticket hheadN htail hlastN hlap hout hcloses
  subst hpc hmem hwritten hticket hheadN htail hlastN hlap hout hcloses
  obtain ⟨-, hrt⟩ := holding_lap hinv ht
  have hnf := not_finished_of_holding hinv ht
  have hne : ∀ u, u ≠ t → Function.update s.pc t p u = s.pc u :=
    fun u hu => Function.update_of_ne hu _ _
  have hback : ∀ u r, r ≠ .none → (Function.update s.pc t p u).role = r → (s.pc u).role = r := by
    intro u r hr hu
    by_cases hut : u = t
    · subst hut
      rw [Function.update_self] at hu
      rcases hp with h | ⟨-, rfl⟩
      · rw [← h]
        exact hu
      · exact absurd hu.symm hr
    · rw [hne u hut] at hu
      exact hu
  have hw : ∀ c, c ≠ s.ticket t → Function.update s.written (s.ticket t) wv c = s.written c :=
    fun c hc => Function.update_of_ne hc _ _
  have hout : ∀ c n, (c, n) ∈ s.outcomes → c ≠ s.ticket t := fun c n hc h =>
    hnf (h ▸ State.finished_iff_exists.mpr ⟨n, hc⟩)
  refine { hinv with
    unclosed := fun h0 => ⟨(hinv.unclosed h0).1, fun u hu =>
      (hinv.unclosed h0).2 u (hback u _ (by decide) hu)⟩
    one_closer := fun u w hu hw =>
      hinv.one_closer u w (hback u _ (by decide) hu) (hback w _ (by decide) hw)
    slots := fun c => ?_
    drawn := fun c hc => ?_
    unwritten := fun c hc => ?_
    success := fun c v hc => by
      dsimp only
      rw [hw c (hout c _ hc)]
      exact hinv.success c v hc
    skipped := fun c hc => by
      dsimp only
      rw [hw c (by rcases hc with hc | hc <;> exact hout c _ hc)]
      exact hinv.skipped c hc
    rethrown := fun c hc => by
      dsimp only
      rw [hw c (hout c _ hc)]
      exact hinv.rethrown c hc
    threads := fun u => ?_
    push_unique := fun u w hu hw =>
      hinv.push_unique u w (hback u _ (by decide) hu) (hback w _ (by decide) hw)
    pop_unique := fun u w hu hw =>
      hinv.pop_unique u w (hback u _ (by decide) hu) (hback w _ (by decide) hw) }
  · by_cases hc : c % s.size = s.ticket t % s.size
    · exact hslot c hc (hsame c hc)
    · refine (hinv.slots c).frame hsize (by rw [hother c hc]; exact .rfl) (hlapOf c) le_rfl le_rfl
        (hw _ (fun h => hc (by rw [← (hinv.slots c).lap_mod, h])))
        (fun hs u hu => ((hinv.slots c).filled hs).2 u (hback u _ (by decide) hu))
        (fun ⟨u, c', n, hu, hk⟩ => ⟨u, c', n, ?_, hk⟩)
      have hut : u ≠ t := fun h => hwake c' n (by rw [← h]; exact hu)
      exact (hne u hut).trans hu
  · rcases hinv.drawn c hc with ⟨u, hu, hk⟩ | hf | hl
    · by_cases hut : u = t
      · subst hut
        rcases hp with h | ⟨h, -⟩
        · exact .inl ⟨u, by dsimp only; rw [Function.update_self, h]; exact hu, hk⟩
        · exact absurd (h.symm.trans hu) (by decide)
      · exact .inl ⟨u, by dsimp only; rw [hne u hut]; exact hu, hk⟩
    · exact .inr (.inl hf)
    · exact .inr (.inr hl)
  · -- past `tail_` no value was written: the holder's ticket is below it, or it is a pop's
    dsimp only
    by_cases hck : c = s.ticket t
    · subst hck
      rw [Function.update_self]
      rcases hrt with ⟨hr, -⟩ | ⟨hr, -⟩
      · exact absurd hc (Nat.not_le.mpr ((hinv.threads t).push hr))
      · rw [hwv hr]
        exact hinv.unwritten _ hc
    · rw [hw c hck]
      exact hinv.unwritten c hc
  · by_cases hut : u = t
    · subst hut
      exact hself
    · exact threadInv_store hinv hut ht (hne u hut) rfl rfl rfl (fun _ h => .inl h) hw hother
        (fun c => .inl (hlapOf c)) ⟨rfl, rfl, rfl⟩

theorem inv_pushPut {c : CountT} {v : V} (hpc : s.pc t = .pushPut c v) :
    Inv P throws { s.setPc t (.pushWake c statusValid) with
      mem := setValue s.mem (c &&& s.mem.mask) v,
      written := Function.update s.written (s.ticket t) (some v) } := by
  have ht := hinv.threads t
  have hc : c = UInt32.ofNat (s.ticket t) := ht.count c (by rw [hpc]; rfl)
  subst hc
  obtain ⟨hnone, hlap, hs⟩ : s.written (s.ticket t) = none ∧ Writing s (s.ticket t) := by
    have hplace := ht.place
    rwa [hpc] at hplace
  have hrole : (s.pc t).role = .push := by rw [hpc]; rfl
  set s' : State V τ := { s.setPc t (.pushWake (UInt32.ofNat (s.ticket t)) statusValid) with
      mem := setValue s.mem (UInt32.ofNat (s.ticket t) &&& s.mem.mask) v,
      written := Function.update s.written (s.ticket t) (some v) }
  have hx : s'.slotOf (s.ticket t) = { s.slotOf (s.ticket t) with value := v } :=
    State.slotOf_update_same hinv.size_valid rfl rfl rfl
  refine inv_store hinv (by rw [hpc]; rfl) (fun _ _ h => nomatch hpc.symm.trans h)
    (.inl (by rw [hpc]; rfl)) rfl rfl rfl (fun h => absurd (hrole.symm.trans h) (by decide))
    rfl rfl rfl rfl rfl rfl rfl (fun c' hc' hx' => ?_) ?_
  · -- the other tickets of the residue see the slot's word, which has no status
    exact slotInv_setValue hinv hs hc' hx' rfl rfl le_rfl
  · refine ht.step (State.setPc_pc_self s t _) (by rw [hpc]; rfl) (by rw [hpc]; rfl) rfl le_rfl
      le_rfl (fun _ h => h) (fun _ _ => rfl) ⟨⟨hlap, by rw [hx]; exact hs⟩, .inl ⟨rfl, ?_⟩⟩
    rw [hx]
    exact Function.update_self _ _ _

theorem inv_pushPutThrow {c : CountT} {v : V} (junk : V) (hthrows : throws = true)
    (hpc : s.pc t = .pushPut c v) :
    Inv P throws { s.setPc t (.pushWake c statusInvalid) with
      mem := setValue s.mem (c &&& s.mem.mask) junk } := by
  have ht := hinv.threads t
  have hc : c = UInt32.ofNat (s.ticket t) := ht.count c (by rw [hpc]; rfl)
  subst hc
  obtain ⟨hnone, hlap, hs⟩ : s.written (s.ticket t) = none ∧ Writing s (s.ticket t) := by
    have hplace := ht.place
    rwa [hpc] at hplace
  have hrole : (s.pc t).role = .push := by rw [hpc]; rfl
  set s' : State V τ := { s.setPc t (.pushWake (UInt32.ofNat (s.ticket t)) statusInvalid) with
      mem := setValue s.mem (UInt32.ofNat (s.ticket t) &&& s.mem.mask) junk }
  have hx : s'.slotOf (s.ticket t) = { s.slotOf (s.ticket t) with value := junk } :=
    State.slotOf_update_same hinv.size_valid rfl rfl rfl
  refine inv_store hinv (by rw [hpc]; rfl) (fun _ _ h => nomatch hpc.symm.trans h)
    (.inl (by rw [hpc]; rfl)) rfl rfl (Function.update_eq_self _ _).symm
    (fun h => absurd (hrole.symm.trans h) (by decide)) rfl rfl rfl rfl rfl rfl rfl
    (fun c' hc' hx' => ?_) ?_
  · exact slotInv_setValue hinv hs hc' hx' rfl rfl le_rfl
  · exact ht.step (State.setPc_pc_self s t _) (by rw [hpc]; rfl) (by rw [hpc]; rfl) rfl le_rfl
      le_rfl (fun _ h => h) (fun _ _ => rfl)
      ⟨⟨hlap, by rw [hx]; exact hs⟩, .inr ⟨rfl, hthrows, hnone⟩⟩

theorem inv_pushWake {c : CountT} {st : TokenT} (hpc : s.pc t = .pushWake c st) :
    Inv P throws { s.setPc t .idle with mem := s.mem.wake (c &&& s.mem.mask) (token c ||| st) } := by
  have ht := hinv.threads t
  have hc : c = UInt32.ofNat (s.ticket t) := ht.count c (by rw [hpc]; rfl)
  subst hc
  obtain ⟨⟨hlap, -⟩, hst⟩ : Writing s (s.ticket t) ∧
      (st = statusValid ∧ s.written (s.ticket t) = some (s.slotOf (s.ticket t)).value ∨
        st = statusInvalid ∧ throws = true ∧ s.written (s.ticket t) = none) := by
    have hplace := ht.place
    rwa [hpc] at hplace
  have hrole : (s.pc t).role = .push := by rw [hpc]; rfl
  have hsmall : st.toNat < 2 ^ 4 := by rcases hst with ⟨rfl, -⟩ | ⟨rfl, -⟩ <;> decide
  refine inv_store hinv (by rw [hpc]; rfl) (fun _ _ h => nomatch hpc.symm.trans h)
    (.inr ⟨hrole, rfl⟩) rfl rfl (Function.update_eq_self _ _).symm
    (fun h => absurd (hrole.symm.trans h) (by decide)) rfl rfl rfl rfl rfl rfl rfl
    (fun c' hc' hx => ?_) (threadInv_outside (State.setPc_pc_self s t _) (.inl rfl))
  have hL : s.lapOf c' = s.ticket t := (State.lapOf_congr hc').trans hlap
  have hslot := hinv.slots c'
  refine ⟨hslot.lap_mod, ?_, hslot.lap_lt, fun _ => ⟨?_, fun u hu hk => ?_⟩, fun hv _ => ?_,
    fun _ hv => ?_⟩
  · rw [hx]
    show (token (UInt32.ofNat (s.ticket t)) ||| st) &&& ticketMask =
      token (UInt32.ofNat (s.lapOf c'))
    rw [hL, ticket_token_or _ hsmall]
  · show s.lapOf c' < s.tailN
    rw [hL]
    exact ht.push hrole
  · obtain ⟨hut, hu'⟩ := role_update (f := s.pc) (p := .idle) (show Role.push ≠ Role.none by decide) hu
    exact hut (hinv.push_unique u t hu' hrole (hk.trans hL))
  · rw [hx, valid_token_or _ hsmall] at hv
    rw [hx]
    show s.written (s.lapOf c') = some (s.slotOf (s.ticket t)).value
    rw [hL]
    rcases hst with ⟨-, hw⟩ | ⟨rfl, -, -⟩
    · exact hw
    · exact absurd (by decide) hv
  · rw [hx, valid_token_or _ hsmall] at hv
    show s.written (s.lapOf c') = none
    rw [hL]
    rcases hst with ⟨rfl, -⟩ | ⟨-, -, hw⟩
    · exact absurd hv (by decide)
    · exact hw

theorem inv_popGetThrow {c : CountT} (junk : V) (hthrows : throws = true)
    (hpc : s.pc t = .popGet c) :
    Inv P throws { s.setPc t (.popWake c .rethrow) with
      mem := setValue s.mem (c &&& s.mem.mask) junk } := by
  have ht := hinv.threads t
  have hc : c = UInt32.ofNat (s.ticket t) := ht.count c (by rw [hpc]; rfl)
  subst hc
  obtain ⟨hlap, hvalid⟩ : s.lapOf (s.ticket t) = s.ticket t ∧
      (s.slotOf (s.ticket t)).word &&& statusValid ≠ 0 := by
    have hplace := ht.place
    rwa [hpc] at hplace
  set s' : State V τ := { s.setPc t (.popWake (UInt32.ofNat (s.ticket t)) .rethrow) with
      mem := setValue s.mem (UInt32.ofNat (s.ticket t) &&& s.mem.mask) junk }
  have hx : s'.slotOf (s.ticket t) = { s.slotOf (s.ticket t) with value := junk } :=
    State.slotOf_update_same hinv.size_valid rfl rfl rfl
  have hpass : Passing s' (s.ticket t) := ⟨t, _, _, State.setPc_pc_self s t _, rfl⟩
  refine inv_store hinv (by rw [hpc]; rfl) (fun _ _ h => nomatch hpc.symm.trans h)
    (.inl (by rw [hpc]; rfl)) rfl rfl (Function.update_eq_self _ _).symm (fun _ => rfl)
    rfl rfl rfl rfl rfl rfl rfl (fun c' hc' hx' => ?_) ?_
  · have hword : (s'.slotOf c').word = (s.slotOf c').word := by
      rw [hx', State.slotOf_congr hinv.size_valid hc']
      rfl
    have hL : s.lapOf c' = s.ticket t := (State.lapOf_congr hc').trans hlap
    have hslot := hinv.slots c'
    refine ⟨hslot.lap_mod, by rw [hword]; exact hslot.ticket, hslot.lap_lt, fun hs => ?_,
      fun _ hnp => absurd (by rw [show s'.lapOf c' = s.ticket t from hL]; exact hpass) hnp,
      fun hs hv => ?_⟩
    · rw [hword] at hs
      obtain ⟨hlt, hpush⟩ := hslot.filled hs
      exact ⟨hlt, fun u hu => hpush u (role_update (f := s.pc)
        (p := .popWake (UInt32.ofNat (s.ticket t)) .rethrow) (show Role.push ≠ Role.pop by decide)
          hu).2⟩
    · rw [hword] at hs hv
      exact hslot.invalid hs hv
  · exact ht.step (State.setPc_pc_self s t _) (by rw [hpc]; rfl) (by rw [hpc]; rfl) rfl le_rfl
      le_rfl (fun _ h => h) (fun _ _ => rfl)
      ⟨hlap, by rw [hx]; exact statusMask_ne_zero hvalid,
        hthrows, by
          show s.written (s.ticket t) ≠ none
          rw [popGet_written hinv hpc]
          exact Option.some_ne_none _⟩

end Store

/-! ## `get_value`'s wake: a pop passes its slot on to the next lap -/

section PassOn

variable [DecidableEq τ] {s : State V τ} {t : τ} (hinv : Inv P throws s)
include hinv

omit [DecidableEq τ] in
theorem finished_iff_passOn {s' : State V τ} {n : AfterWake V} (ht : (s.pc t).holding)
    (hout : s'.outcomes = s.outcomes ++ [(s.ticket t, n)])
    (hlap : s'.lap = Function.update s.lap (s.ticket t % s.size)
      (s.lap (s.ticket t % s.size) + s.size))
    (hsize : s'.size = s.size) (c : ℕ) : s'.Finished c ↔ c + s'.size ≤ s'.lapOf c := by
  have hk : s.lapOf (s.ticket t) = s.ticket t := (holding_lap hinv ht).1
  rw [State.finished_append hout, State.lapOf_update hlap hsize, hsize, hinv.finished_iff c]
  by_cases hc : s.ticket t % s.size = c % s.size
  · -- the residue waited for lap `k`, and now waits for `k + size`
    rw [if_pos hc, State.lapOf_congr hc.symm, hk, show s.lap (s.ticket t % s.size) = s.ticket t from hk]
    constructor
    · rintro (h | rfl) <;> omega
    · intro h
      rcases Nat.lt_or_ge c (s.ticket t) with hlt | hge
      · exact .inl (add_le_of_mod_eq hc.symm hlt)
      · exact .inr (by omega)
  · rw [if_neg hc]
    have hne : c ≠ s.ticket t := fun h => hc (by rw [h])
    simp only [hne, or_false]

theorem inv_popWake {c : CountT} {n : AfterWake V} (hpc : s.pc t = .popWake c n) :
    Inv P throws { s.setPc t n.pc with
      mem := s.mem.wake (c &&& s.mem.mask) (token c + s.mem.mask + 1),
      lap := Function.update s.lap (s.ticket t % s.size) (s.lap (s.ticket t % s.size) + s.size),
      outcomes := s.outcomes ++ [(s.ticket t, n)] } := by
  have ht := hinv.threads t
  have hc : c = UInt32.ofNat (s.ticket t) := ht.count c (by rw [hpc]; rfl)
  subst hc
  have hhold : (s.pc t).holding := by rw [hpc]; rfl
  have hrole : (s.pc t).role = .pop := by rw [hpc]; rfl
  obtain ⟨hlap, hstatus, houtcome⟩ : s.lapOf (s.ticket t) = s.ticket t ∧
      (s.slotOf (s.ticket t)).word &&& statusMask ≠ 0 ∧ Outcome throws s (s.ticket t) n := by
    have hplace := ht.place
    rwa [hpc] at hplace
  have hnf := not_finished_of_holding hinv hhold
  have hpop := (ht.pop hrole).1
  set s' : State V τ := { s.setPc t n.pc with
      mem := s.mem.wake (UInt32.ofNat (s.ticket t) &&& s.mem.mask)
        (token (UInt32.ofNat (s.ticket t)) + s.mem.mask + 1),
      lap := Function.update s.lap (s.ticket t % s.size) (s.lap (s.ticket t % s.size) + s.size),
      outcomes := s.outcomes ++ [(s.ticket t, n)] }
  have hsize : s'.size = s.size := rfl
  have hout : s'.outcomes = s.outcomes ++ [(s.ticket t, n)] := rfl
  have hlap' : s'.lap = Function.update s.lap (s.ticket t % s.size)
      (s.lap (s.ticket t % s.size) + s.size) := rfl
  have hring : s'.mem.ring = Function.update s.mem.ring
      (UInt32.ofNat (s.ticket t) &&& s.mem.mask) { s.slotOf (s.ticket t) with
        word := token (UInt32.ofNat (s.ticket t)) + s.mem.mask + 1 } := rfl
  have hself : s'.pc t = n.pc := State.setPc_pc_self s t _
  have hne : ∀ u, u ≠ t → s'.pc u = s.pc u := fun u hu => State.setPc_pc_ne s t _ hu
  have hrole' : ∀ u r, r ≠ .none → r ≠ .draw → (s'.pc u).role = r → u ≠ t ∧ (s.pc u).role = r :=
    fun u r hn hd hu => role_update (f := s.pc) (p := n.pc)
      (by rcases n.pc_outside with h | h <;> rw [h] <;> assumption) hu
  have hlapOf : ∀ c', s'.lapOf c' =
      if s.ticket t % s.size = c' % s.size then s.ticket t + s.size else s.lapOf c' := fun c' => by
    rw [State.lapOf_update hlap' hsize, show s.lap (s.ticket t % s.size) = s.ticket t from hlap]
  have hword : ∀ c', c' % s.size = s.ticket t % s.size →
      (s'.slotOf c').word = token (UInt32.ofNat (s.ticket t + s.size)) := fun c' hc' => by
    rw [State.slotOf_update_same hinv.size_valid hring rfl hc'.symm]
    exact token_ofNat_next hinv.size_valid _
  have hother : ∀ c', c' % s.size ≠ s.ticket t % s.size → s'.slotOf c' = s.slotOf c' :=
    fun c' hc' => State.slotOf_update_other hinv.size_valid hring rfl (Ne.symm hc')
  refine { hinv with
    unclosed := fun h0 => ⟨(hinv.unclosed h0).1, fun u hu =>
      (hinv.unclosed h0).2 u (hrole' u _ (by decide) (by decide) hu).2⟩
    one_closer := fun u w hu hw => hinv.one_closer u w (hrole' u _ (by decide) (by decide) hu).2
      (hrole' w _ (by decide) (by decide) hw).2
    slots := fun c' => ?_
    finished_iff := finished_iff_passOn hinv hhold hout hlap' hsize
    finished_lt := fun c' hc' => ?_
    drawn := fun c' hc' => ?_
    outcomes_nodup := ?_
    success := fun c' v hc' => ?_
    skipped := fun c' hc' => ?_
    rethrown := fun c' hc' => ?_
    threads := fun u => ?_
    push_unique := fun u w hu hw => hinv.push_unique u w (hrole' u _ (by decide) (by decide) hu).2
      (hrole' w _ (by decide) (by decide) hw).2
    pop_unique := fun u w hu hw => hinv.pop_unique u w (hrole' u _ (by decide) (by decide) hu).2
      (hrole' w _ (by decide) (by decide) hw).2 }
  · by_cases hc' : c' % s.size = s.ticket t % s.size
    · have hL : s'.lapOf c' = s.ticket t + s.size := by rw [hlapOf, if_pos hc'.symm]
      refine slotInv_of_token (by rw [hword c' hc', hL]) ?_ ?_
      · rw [hL, hsize, Nat.add_mod_right, hc']
      · rw [hL, hsize]
        show s.ticket t + s.size < s.headN + s.size
        omega
    · refine (hinv.slots c').frame hsize (by rw [hother c' hc']; exact .rfl)
        (by rw [hlapOf, if_neg (Ne.symm hc')]) le_rfl le_rfl rfl
        (fun hs u hu => ((hinv.slots c').filled hs).2 u (hrole' u _ (by decide) (by decide) hu).2)
        (fun ⟨u, c'', m, hu, hk⟩ => ⟨u, c'', m, ?_, hk⟩)
      have hut : u ≠ t := fun h => hc' (by rw [← (hinv.slots c').lap_mod, ← hk, h])
      exact (hne u hut).trans hu
  · rcases (State.finished_append hout c').mp hc' with h | rfl
    · exact hinv.finished_lt _ h
    · exact hpop
  · rcases hinv.drawn c' hc' with ⟨u, hu, hk⟩ | hf | hl
    · by_cases hut : u = t
      · subst hut
        exact .inr (.inl ((State.finished_append hout _).mpr (.inr hk.symm)))
      · exact .inl ⟨u, by rw [hne u hut]; exact hu, hk⟩
    · exact .inr (.inl ((State.finished_append hout _).mpr (.inl hf)))
    · exact .inr (.inr hl)
  · show ((s.outcomes ++ [(s.ticket t, n)]).map Prod.fst).Nodup
    rw [List.map_append]
    refine List.nodup_append.mpr ⟨hinv.outcomes_nodup, List.nodup_singleton _, fun a ha b hb => ?_⟩
    rw [List.mem_singleton.mp hb]
    rintro rfl
    exact hnf ha
  · rcases List.mem_append.mp hc' with h | h
    · exact hinv.success c' v h
    · obtain ⟨h1, h2⟩ := Prod.mk.inj (List.mem_singleton.mp h)
      rw [← h2] at houtcome
      rw [h1]
      exact houtcome
  · -- a pop that skips its slot found no valid value, so none was written for its ticket
    have hnew : ∀ m : AfterWake V, (m = .retry ∨ m = .empty) → (c', m) ∈ [(s.ticket t, n)] →
        s.written c' = none := by
      intro m hm hmem
      obtain ⟨h1, h2⟩ := Prod.mk.inj (List.mem_singleton.mp hmem)
      have hv : (s.slotOf (s.ticket t)).word &&& statusValid = 0 := by
        rcases hm with rfl | rfl <;> rw [← h2] at houtcome <;> exact houtcome
      have hnone := (hinv.slots _).invalid hstatus hv
      rw [hlap] at hnone
      rw [h1]
      exact hnone
    rcases hc' with h | h <;> rcases List.mem_append.mp h with h | h
    · exact hinv.skipped c' (.inl h)
    · exact hnew _ (.inl rfl) h
    · exact hinv.skipped c' (.inr h)
    · exact hnew _ (.inr rfl) h
  · rcases List.mem_append.mp hc' with h | h
    · exact hinv.rethrown c' h
    · obtain ⟨h1, h2⟩ := Prod.mk.inj (List.mem_singleton.mp h)
      rw [← h2] at houtcome
      rw [h1]
      exact houtcome
  · by_cases hut : u = t
    · subst hut
      exact threadInv_outside hself n.pc_outside
    · refine threadInv_store hinv hut hhold (hne u hut) rfl rfl rfl
        (fun c' hf => ((State.finished_append hout c').mp hf).imp id (fun h => ⟨hrole, h⟩))
        (fun _ _ => rfl) hother (fun c' => ?_) ⟨rfl, rfl, rfl⟩
      by_cases h : s.ticket t % s.size = c' % s.size
      · exact .inr ⟨hrole, h.symm⟩
      · exact .inl (by rw [hlapOf, if_neg h])

end PassOn

end BoundedQueueSteps
