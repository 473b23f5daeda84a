import Evenk.BoundedQueueSlots

/-!
# The invariant of the threaded ring

Every slot waits for one lap, whose token its word carries; the lap moves on by the size when
the pop of that ticket passes the slot on. A thread past its ticket test holds its own lap, and
no two threads hold one slot. The window of `2 ^ 31` tickets makes the slot test exact.
-/
namespace BoundedQueueInvariant

open BoundedQueue BoundedQueueRing BoundedQueueRing.BoundedRing BoundedQueueThreads
open TransitionSystem

variable {V τ : Type}

/-- The pop of ticket `L` is passing its slot on: the value it took may be gone. -/
def Passing (s : State V τ) (L : ℕ) : Prop := ∃ u c n, s.pc u = .popWake c n ∧ s.ticket u = L

/-- The push of ticket `k` holds its slot: the slot waits for it and has no status. -/
def Writing (s : State V τ) (k : ℕ) : Prop :=
  s.lapOf k = k ∧ (s.slotOf k).word &&& statusMask = 0

/-- Two slots the invariant does not tell apart: the same ticket bits, status bits and value.
The waiting and closed flags are what may differ. -/
def SameView (x y : RingSlot V) : Prop :=
  x.word &&& ticketMask = y.word &&& ticketMask ∧ x.word &&& statusMask = y.word &&& statusMask ∧
    x.value = y.value

theorem SameView.rfl {x : RingSlot V} : SameView x x := ⟨Eq.refl _, Eq.refl _, Eq.refl _⟩

theorem and_statusValid (w : TokenT) : w &&& statusValid = (w &&& statusMask) &&& statusValid := by
  rw [UInt32.and_assoc, show statusMask &&& statusValid = statusValid by decide]

theorem SameView.valid {x y : RingSlot V} (h : SameView x y) :
    x.word &&& statusValid = y.word &&& statusValid := by
  rw [and_statusValid, h.2.1, ← and_statusValid]

/-- What the slot of ticket `c` holds for its lap. -/
structure SlotInv (s : State V τ) (c : ℕ) : Prop where
  lap_mod : s.lapOf c % s.size = c % s.size
  ticket : (s.slotOf c).word &&& ticketMask = token (UInt32.ofNat (s.lapOf c))
  lap_lt : s.lapOf c < s.headN + s.size
  /-- A status is set by the push of the lap, and then no push holds that ticket. -/
  filled : (s.slotOf c).word &&& statusMask ≠ 0 →
    s.lapOf c < s.tailN ∧ ∀ u, (s.pc u).role = .push → s.ticket u ≠ s.lapOf c
  valid : (s.slotOf c).word &&& statusValid ≠ 0 → ¬ Passing s (s.lapOf c) →
    s.written (s.lapOf c) = some (s.slotOf c).value
  invalid : (s.slotOf c).word &&& statusMask ≠ 0 → (s.slotOf c).word &&& statusValid = 0 →
    s.written (s.lapOf c) = none

/-- What a pop passing its slot on has done with it. -/
def Outcome (throws : Bool) (s : State V τ) (k : ℕ) : AfterWake V → Prop
  | .success v => s.written k = some v
  | .retry | .empty => (s.slotOf k).word &&& statusValid = 0
  | .rethrow => throws = true ∧ s.written k ≠ none

/-- What a thread at place `p` with ticket `k` says about the slot of `k`. -/
def PlaceInv (throws : Bool) (s : State V τ) (k : ℕ) : Pc V → Prop
  | .idle | .popDraw | .popLoad _ | .popCheck .. | .popWait .. | .tryPopLoad _
  | .tryPopCheck _ | .closeSlot _ => True
  | .pushLoad .. | .pushCheck .. | .pushWait .. => s.written k = none
  | .pushPut .. => s.written k = none ∧ Writing s k
  | .pushWake _ st => Writing s k ∧
      (st = statusValid ∧ s.written k = some (s.slotOf k).value ∨
        st = statusInvalid ∧ throws = true ∧ s.written k = none)
  | .popStatusLoad _ | .popStatusCheck .. | .popStatusWait .. => s.lapOf k = k
  | .popGet _ => s.lapOf k = k ∧ (s.slotOf k).word &&& statusValid ≠ 0
  | .popWake _ n => s.lapOf k = k ∧ (s.slotOf k).word &&& statusMask ≠ 0 ∧ Outcome throws s k n
  | .tryPopCas _ w => s.headN = k → s.lapOf k = k ∧
      (s.slotOf k).word &&& statusMask = w &&& statusMask ∧ w &&& statusMask ≠ 0
  | .closeReserve => s.mem.closed = .open
  | .closeStore => s.mem.last = UInt32.ofNat s.lastN

/-- What thread `t` holds, by the part of the ring it is in. -/
structure ThreadInv (P : Policy) (throws : Bool) (s : State V τ) (t : τ) : Prop where
  count : ∀ c, (s.pc t).count = some c → c = UInt32.ofNat (s.ticket t)
  push : (s.pc t).role = .push → s.ticket t < s.tailN
  pop : (s.pc t).role = .pop → s.ticket t < s.headN ∧ ¬ s.Finished (s.ticket t)
  tryPop : (s.pc t).role = .tryPop →
    s.ticket t ≤ s.headN ∧ (P.consumer = .counter → s.ticket t = s.headN)
  place : PlaceInv throws s (s.ticket t) (s.pc t)

structure Inv (P : Policy) (throws : Bool) (s : State V τ) : Prop where
  size_valid : ValidSize (s.mem.mask + 1)
  head : s.mem.head = UInt32.ofNat s.headN
  tail : s.mem.tail = UInt32.ofNat s.tailN
  last : s.mem.closed = .closed → s.mem.last = UInt32.ofNat s.lastN
  not_closing : s.mem.closed ≠ .closing
  unclosed : s.closes = 0 → s.mem.closed = .open ∧ ∀ t, (s.pc t).role ≠ .close
  one_closer : ∀ t u, (s.pc t).role = .close → (s.pc u).role = .close → t = u
  slots : ∀ c, SlotInv s c
  finished_iff : ∀ c, s.Finished c ↔ c + s.size ≤ s.lapOf c
  finished_lt : ∀ c, s.Finished c → c < s.headN
  /-- Every ticket drawn from `head_` is held by a pop, passed on, or past `last_`. -/
  drawn : ∀ c, c < s.headN → (∃ t, (s.pc t).role = .pop ∧ s.ticket t = c) ∨ s.Finished c ∨
    (s.mem.closed = .closed ∧ s.lastN ≤ c)
  unwritten : ∀ c, s.tailN ≤ c → s.written c = none
  outcomes_nodup : (s.outcomes.map Prod.fst).Nodup
  success : ∀ c v, (c, .success v) ∈ s.outcomes → s.written c = some v
  skipped : ∀ c, (c, .retry) ∈ s.outcomes ∨ (c, .empty) ∈ s.outcomes → s.written c = none
  rethrown : ∀ c, (c, .rethrow) ∈ s.outcomes → throws = true ∧ s.written c ≠ none
  threads : ∀ t, ThreadInv P throws s t
  push_unique : ∀ t u, (s.pc t).role = .push → (s.pc u).role = .push →
    s.ticket t = s.ticket u → t = u
  pop_unique : ∀ t u, (s.pc t).role = .pop → (s.pc u).role = .pop →
    s.ticket t = s.ticket u → t = u

variable {P : Policy} {throws : Bool}

/-! ## The ring as `ring(size)` builds it -/

section Init

variable [Inhabited V] {size : CountT}

theorem init_size : (State.init size : State V τ).size = size.toNat := by
  simp [State.size, State.init, BoundedRing.init]

theorem init_lapOf (c : ℕ) : (State.init size : State V τ).lapOf c = c % size.toNat := by
  simp only [State.lapOf, init_size]
  rfl

@[simp] theorem init_pc (t : τ) : (State.init size : State V τ).pc t = .idle := rfl

theorem init_threadInv (t : τ) : ThreadInv P throws (State.init size : State V τ) t := by
  refine ⟨fun c hc => ?_, fun ht => ?_, fun ht => ?_, fun ht => ?_, trivial⟩
  · simp [Pc.count] at hc
  all_goals simp [Pc.role] at ht

variable (h : ValidSize size)
include h

theorem init_slotOf_word (c : ℕ) :
    ((State.init size : State V τ).slotOf c).word =
      UInt32.ofNat (c % size.toNat) &&& ticketMask := by
  have hv : ValidSize (size - 1 + 1) := by rw [UInt32.sub_add_cancel]; exact h
  have hidx : UInt32.ofNat c &&& (size - 1) = UInt32.ofNat (c % size.toNat) := by
    apply UInt32.toNat_inj.mp
    rw [hv.toNat_ofNat_mask, UInt32.sub_add_cancel, UInt32.toNat_ofNat',
      Nat.mod_eq_of_lt (lt_of_lt_of_le (Nat.mod_lt _ h.pos) size.toNat_lt.le)]
  simp only [State.slotOf, State.init, BoundedRing.init, hidx]

theorem init_slotInv (c : ℕ) : SlotInv (State.init size : State V τ) c := by
  have hw := init_slotOf_word (V := V) (τ := τ) h c
  have hstatus : ((State.init size : State V τ).slotOf c).word &&& statusMask = 0 := by
    rw [hw]
    exact token_and_flag _ (by decide)
  have hvalid : ((State.init size : State V τ).slotOf c).word &&& statusValid = 0 := by
    rw [hw]
    exact token_and_flag _ (by decide)
  refine ⟨?_, ?_, ?_, fun hs => absurd hstatus hs, fun hv => absurd hvalid hv,
    fun hs => absurd hstatus hs⟩
  · rw [init_lapOf, init_size, Nat.mod_mod]
  · rw [hw, init_lapOf, UInt32.and_assoc, UInt32.and_self]
    rfl
  · have := Nat.mod_lt c h.pos
    rw [init_lapOf, init_size]
    show c % size.toNat < 0 + size.toNat
    omega

theorem inv_init : Inv P throws (State.init size : State V τ) := by
  have hv : ValidSize (size - 1 + 1) := by rw [UInt32.sub_add_cancel]; exact h
  refine ⟨hv, rfl, rfl, fun hc => ?_, ?_, ?_, ?_, init_slotInv h, ?_, ?_, ?_, fun _ _ => rfl,
    List.nodup_nil, ?_, ?_, ?_, init_threadInv, ?_, ?_⟩
  · simp [State.init, BoundedRing.init] at hc
  · simp [State.init, BoundedRing.init]
  · intro _
    exact ⟨rfl, fun t => by simp [Pc.role]⟩
  · intro t _ ht
    simp [Pc.role] at ht
  · intro c
    have := Nat.mod_lt c h.pos
    rw [init_lapOf, init_size]
    simp only [State.Finished, State.init, List.map_nil, List.not_mem_nil, false_iff, not_le]
    omega
  · intro c hc
    simp [State.Finished, State.init] at hc
  · intro c hc
    exact absurd hc (Nat.not_lt_zero c)
  · intro c v hc
    simp [State.init] at hc
  · intro c hc
    simp [State.init] at hc
  · intro c hc
    simp [State.init] at hc
  · intro t u ht
    simp [Pc.role] at ht
  · intro t u ht
    simp [Pc.role] at ht

end Init

/-! ## The slot test within the window -/

section Window

variable {s : State V τ} (hinv : Inv P throws s) (hwin : Window s)

theorem Inv.size_pos (hinv : Inv P throws s) : 0 < s.size := hinv.size_valid.pos

theorem Inv.size_le (hinv : Inv P throws s) : s.size ≤ 2 ^ 31 := hinv.size_valid.le_two_pow

include hinv hwin

theorem ticket_lt_lap {t : τ} (ht : (s.pc t).role = .push ∨ (s.pc t).role = .pop ∨
    (s.pc t).role = .tryPop) : s.ticket t < s.lapOf (s.ticket t) + 2 ^ 32 := by
  obtain ⟨hnear, hnearLast⟩ := hwin t ht
  by_cases hL : s.headN ≤ s.lapOf (s.ticket t)
  · have := hnear.1
    omega
  · -- the lap has been drawn from `head_`: by a pop in the window, or past `last_`
    rcases hinv.drawn (s.lapOf (s.ticket t)) (by omega) with ⟨u, hu, hku⟩ | hfin | ⟨hclosed, hlast⟩
    · have := (hwin u (Or.inr (Or.inl hu))).1.2
      rw [hku] at this
      have := hnear.1
      omega
    · have hmove := (hinv.finished_iff _).mp hfin
      rw [State.lapOf_congr (hinv.slots (s.ticket t)).lap_mod] at hmove
      have := hinv.size_pos
      omega
    · have := (hnearLast hclosed).1
      omega

theorem lap_lt_ticket {t : τ} (ht : (s.pc t).role = .push ∨ (s.pc t).role = .pop ∨
    (s.pc t).role = .tryPop) : s.lapOf (s.ticket t) < s.ticket t + 2 ^ 32 := by
  have hlt := (hinv.slots (s.ticket t)).lap_lt
  have := (hwin t ht).1.2
  have := hinv.size_le
  omega

theorem match_iff_lap {t : τ} (ht : (s.pc t).role = .push ∨ (s.pc t).role = .pop ∨
    (s.pc t).role = .tryPop) :
    ticketMismatch (token (UInt32.ofNat (s.ticket t))) (s.slotOf (s.ticket t)).word = false ↔
      s.lapOf (s.ticket t) = s.ticket t := by
  have hslot := hinv.slots (s.ticket t)
  rw [ticketMismatch, decide_eq_false_iff_not, not_not, hslot.ticket]
  exact token_ofNat_inj hinv.size_valid hslot.lap_mod (lap_lt_ticket hinv hwin ht)
    (ticket_lt_lap hinv hwin ht)

theorem isPastLast_iff {t : τ} (ht : (s.pc t).role = .push ∨ (s.pc t).role = .pop ∨
    (s.pc t).role = .tryPop) :
    s.mem.isPastLast (UInt32.ofNat (s.ticket t)) = true ↔
      s.mem.closed = .closed ∧ s.lastN ≤ s.ticket t :=
  isPastLast_ofNat hinv.last (hwin t ht).2

theorem tryIncrement_some {t : τ} {h : CountT} (ht : (s.pc t).role = .tryPop)
    (hinc : tryIncrement P.consumer s.mem.head (UInt32.ofNat (s.ticket t)) = some h) :
    s.ticket t = s.headN ∧ h = UInt32.ofNat (s.headN + 1) := by
  have hk : s.ticket t = s.headN := by
    obtain ⟨hle, hcounter⟩ := (hinv.threads t).tryPop ht
    cases hP : P.consumer with
    | counter => exact hcounter hP
    | atomicCounter =>
      rw [hP, tryIncrement] at hinc
      have heq : s.mem.head = UInt32.ofNat (s.ticket t) := by
        by_contra hne
        rw [if_neg hne] at hinc
        cases hinc
      rw [hinv.head] at heq
      obtain ⟨h₁, h₂⟩ := (hwin t (Or.inr (Or.inr ht))).1
      exact (FixedWidth.ofNat_inj_of_near (by omega) (by omega) heq).symm
  refine ⟨hk, ?_⟩
  cases hP : P.consumer <;> rw [hP, tryIncrement] at hinc
  · cases hinc
    rw [hk, ofNat_succ]
  · split at hinc
    · cases hinc
      rw [hk, ofNat_succ]
    · cases hinc

end Window

/-! ## Frames -/

section Frame

variable {s s' : State V τ}

theorem ThreadInv.step {u : τ} {p : Pc V} (hu : ThreadInv P throws s u) (hpc : s'.pc u = p)
    (hrole : p.role = (s.pc u).role) (hcount : p.count = (s.pc u).count)
    (htk : s'.ticket u = s.ticket u) (htail : s.tailN ≤ s'.tailN) (hhead : s.headN ≤ s'.headN)
    (hfin : (s.pc u).role = .pop → s'.Finished (s.ticket u) → s.Finished (s.ticket u))
    (hcounter : (s.pc u).role = .tryPop → P.consumer = .counter → s'.headN = s.headN)
    (hplace : PlaceInv throws s' (s.ticket u) p) : ThreadInv P throws s' u := by
  refine ⟨fun c hc => ?_, fun hr => ?_, fun hr => ?_, fun hr => ?_, ?_⟩
  · rw [hpc, hcount] at hc
    rw [htk]
    exact hu.count c hc
  all_goals try rw [hpc, hrole] at hr
  all_goals rw [htk]
  · exact lt_of_lt_of_le (hu.push hr) htail
  · obtain ⟨hlt, hnf⟩ := hu.pop hr
    exact ⟨lt_of_lt_of_le hlt hhead, fun hf => hnf (hfin hr hf)⟩
  · obtain ⟨hle, hcnt⟩ := hu.tryPop hr
    exact ⟨hle.trans hhead, fun hc => (hcnt hc).trans (hcounter hr hc).symm⟩
  · rw [hpc]
    exact hplace

theorem ThreadInv.frame {u : τ} (hu : ThreadInv P throws s u)
    (hpc : s'.pc u = s.pc u) (htk : s'.ticket u = s.ticket u)
    (htail : s.tailN ≤ s'.tailN) (hhead : s.headN ≤ s'.headN)
    (hfin : (s.pc u).role = .pop → s'.Finished (s.ticket u) → s.Finished (s.ticket u))
    (hcounter : (s.pc u).role = .tryPop → P.consumer = .counter → s'.headN = s.headN)
    (hplace : PlaceInv throws s' (s.ticket u) (s.pc u)) : ThreadInv P throws s' u :=
  hu.step hpc rfl rfl htk htail hhead hfin hcounter hplace

theorem placeInv_congr {k : ℕ} (p : Pc V) (hw : s'.written k = s.written k)
    (hview : SameView (s'.slotOf k) (s.slotOf k))
    (hlap : s'.lapOf k = s.lapOf k) (hhead : s'.headN = s.headN)
    (hclosed : s'.mem.closed = s.mem.closed) (hlast : s'.mem.last = s.mem.last)
    (hlastN : s'.lastN = s.lastN) : PlaceInv throws s' k p ↔ PlaceInv throws s k p := by
  have hval := hview.valid
  cases p <;> simp only [PlaceInv, Outcome, Writing, hw, hview.2.1, hval, hview.2.2, hlap,
    hhead, hclosed, hlast, hlastN]

theorem SlotInv.frame {c : ℕ} (hc : SlotInv s c) (hsize : s'.size = s.size)
    (hview : SameView (s'.slotOf c) (s.slotOf c)) (hlap : s'.lapOf c = s.lapOf c)
    (hhead : s.headN ≤ s'.headN) (htail : s.tailN ≤ s'.tailN)
    (hw : s'.written (s.lapOf c) = s.written (s.lapOf c))
    (hpush : (s.slotOf c).word &&& statusMask ≠ 0 →
      ∀ u, (s'.pc u).role = .push → s'.ticket u ≠ s.lapOf c)
    (hpass : Passing s (s.lapOf c) → Passing s' (s.lapOf c)) : SlotInv s' c := by
  obtain ⟨hT, hS, hval⟩ := hview
  have hV := SameView.valid ⟨hT, hS, hval⟩
  refine ⟨?_, ?_, ?_, fun hs => ?_, fun hv hnp => ?_, fun hs hv => ?_⟩
  · rw [hlap, hsize]
    exact hc.lap_mod
  · rw [hT, hlap]
    exact hc.ticket
  · rw [hlap, hsize]
    exact lt_of_lt_of_le hc.lap_lt (Nat.add_le_add_right hhead _)
  · rw [hS] at hs
    rw [hlap]
    exact ⟨lt_of_lt_of_le (hc.filled hs).1 htail, hpush hs⟩
  · rw [hV] at hv
    rw [hlap] at hnp ⊢
    rw [hw, hval]
    exact hc.valid hv (fun hp => hnp (hpass hp))
  · rw [hS] at hs
    rw [hV] at hv
    rw [hlap, hw]
    exact hc.invalid hs hv

end Frame

/-! ## Steps that move one thread only -/

section SetPc

variable [DecidableEq τ] {s : State V τ} {t : τ} {p : Pc V}

theorem Inv.setPc (hinv : Inv P throws s)
    (hrole : p.role = (s.pc t).role ∨ p.role = .none ∨
      ((s.pc t).role = .none ∧ p.role = .draw))
    (hleave : (s.pc t).role = .pop → p.role ≠ .pop →
      s.Finished (s.ticket t) ∨ (s.mem.closed = .closed ∧ s.lastN ≤ s.ticket t))
    (hwake : ∀ c n, s.pc t ≠ .popWake c n)
    (ht : ThreadInv P throws (s.setPc t p) t) : Inv P throws (s.setPc t p) := by
  have hback : ∀ u r, r ≠ .none → r ≠ .draw → ((s.setPc t p).pc u).role = r →
      (s.pc u).role = r := by
    intro u r hn hd hr
    by_cases hu : u = t
    · subst hu
      rw [State.setPc_pc_self] at hr
      rcases hrole with h | h | ⟨-, h⟩
      · rwa [← h]
      · exact absurd (hr.symm.trans h) hn
      · exact absurd (hr.symm.trans h) hd
    · rwa [State.setPc_pc_ne _ _ _ hu] at hr
  have hother : ∀ u, u ≠ t → ThreadInv P throws (s.setPc t p) u := by
    intro u hu
    have hpc := State.setPc_pc_ne s t p hu
    exact (hinv.threads u).frame hpc rfl le_rfl le_rfl (fun _ h => h) (fun _ _ => rfl)
      ((placeInv_congr _ rfl .rfl rfl rfl rfl rfl rfl).mpr (hinv.threads u).place)
  refine { hinv with
    unclosed := fun h0 => ⟨(hinv.unclosed h0).1, fun u hu =>
      (hinv.unclosed h0).2 u (hback u .close (by decide) (by decide) hu)⟩
    one_closer := fun u v hu hv =>
      hinv.one_closer u v (hback u _ (by decide) (by decide) hu)
        (hback v _ (by decide) (by decide) hv)
    slots := fun c => (hinv.slots c).frame rfl .rfl rfl le_rfl le_rfl rfl
      (fun hs u hu => (hinv.slots c).filled hs |>.2 u (hback u _ (by decide) (by decide) hu))
      (fun ⟨u, c', n, hu, hk⟩ => ⟨u, c', n, by
        rw [State.setPc_pc_ne _ _ _ (fun h => hwake c' n (by rw [← h]; exact hu))]
        exact hu, hk⟩)
    drawn := fun c hc => ?_
    threads := fun u => ?_
    push_unique := fun u v hu hv =>
      hinv.push_unique u v (hback u _ (by decide) (by decide) hu)
        (hback v _ (by decide) (by decide) hv)
    pop_unique := fun u v hu hv =>
      hinv.pop_unique u v (hback u _ (by decide) (by decide) hu)
        (hback v _ (by decide) (by decide) hv) }
  · rcases hinv.drawn c hc with ⟨u, hu, hk⟩ | hf | hl
    · by_cases hut : u = t
      · subst hut
        by_cases hp : p.role = .pop
        · exact .inl ⟨u, by rw [State.setPc_pc_self]; exact hp, hk⟩
        · rw [← hk]
          exact .inr (hleave hu hp)
      · exact .inl ⟨u, by rw [State.setPc_pc_ne _ _ _ hut]; exact hu, hk⟩
    · exact .inr (.inl hf)
    · exact .inr (.inr hl)
  · by_cases hu : u = t
    · subst hu
      exact ht
    · exact hother u hu

end SetPc

/-! ## The steps that move one thread within its call -/

section Places

theorem popAfterStatus_role (c : CountT) (w : TokenT) : (popAfterStatus c w : Pc V).role = .pop := by
  unfold popAfterStatus
  split_ifs <;> rfl

theorem popAfterStatus_count (c : CountT) (w : TokenT) :
    (popAfterStatus c w : Pc V).count = some c := by
  unfold popAfterStatus
  split_ifs <;> rfl

theorem popAfterTicket_role (c : CountT) (w : TokenT) : (popAfterTicket c w : Pc V).role = .pop := by
  unfold popAfterTicket
  split_ifs
  · rfl
  · exact popAfterStatus_role c w

theorem popAfterTicket_count (c : CountT) (w : TokenT) :
    (popAfterTicket c w : Pc V).count = some c := by
  unfold popAfterTicket
  split_ifs
  · rfl
  · exact popAfterStatus_count c w

theorem afterWait_role (p : Pc V) : p.afterWait.role = p.role := by
  cases p <;> rfl

theorem afterWait_count (p : Pc V) : p.afterWait.count = p.count := by
  cases p <;> rfl

theorem statusMask_ne_zero {w : TokenT} (h : w &&& statusValid ≠ 0) : w &&& statusMask ≠ 0 := by
  intro h0
  rw [and_statusValid, h0] at h
  exact h rfl

variable {s : State V τ} {k : ℕ}

theorem placeInv_popAfterStatus (hlap : s.lapOf k = k) (c : CountT) :
    PlaceInv throws s k (popAfterStatus c (s.slotOf k).word) := by
  unfold popAfterStatus statusEmpty
  split_ifs with he hv
  · exact hlap
  · exact ⟨hlap, by simpa using he, hv⟩
  · exact ⟨hlap, hv⟩

theorem placeInv_afterWait {p : Pc V} (h : PlaceInv throws s k p) :
    PlaceInv throws s k p.afterWait := by
  cases p <;> exact h

end Places

section PcSteps

variable [DecidableEq τ] {s : State V τ} {t : τ}

theorem ThreadInv.move {p : Pc V} (ht : ThreadInv P throws s t) (hrole : p.role = (s.pc t).role)
    (hcount : p.count = (s.pc t).count) (hplace : PlaceInv throws s (s.ticket t) p) :
    ThreadInv P throws (s.setPc t p) t :=
  ht.step (State.setPc_pc_self s t p) hrole hcount rfl le_rfl le_rfl (fun _ h => h)
    (fun _ _ => rfl) hplace

omit [DecidableEq τ] in
theorem threadInv_outside {s' : State V τ} {p : Pc V} (h : s'.pc t = p)
    (hp : p = .idle ∨ p = .popDraw) : ThreadInv P throws s' t := by
  rcases hp with rfl | rfl <;>
    exact ⟨fun c hc => by simp [h, Pc.count] at hc, fun hr => by simp [h, Pc.role] at hr,
      fun hr => by simp [h, Pc.role] at hr, fun hr => by simp [h, Pc.role] at hr,
      by rw [h]; trivial⟩

variable (hinv : Inv P throws s) (hwin : Window s)
include hinv

theorem inv_leave {p : Pc V} (hp : p = .idle)
    (hleave : (s.pc t).role = .pop →
      s.Finished (s.ticket t) ∨ (s.mem.closed = .closed ∧ s.lastN ≤ s.ticket t))
    (hwake : ∀ c n, s.pc t ≠ .popWake c n) : Inv P throws (s.setPc t p) :=
  hinv.setPc (.inr (.inl (by rw [hp]; rfl))) (fun h _ => hleave h) hwake
    (threadInv_outside (State.setPc_pc_self s t p) (.inl hp))

theorem inv_move {p : Pc V} (hrole : p.role = (s.pc t).role) (hcount : p.count = (s.pc t).count)
    (hwake : ∀ c n, s.pc t ≠ .popWake c n) (hplace : PlaceInv throws s (s.ticket t) p) :
    Inv P throws (s.setPc t p) :=
  hinv.setPc (.inl hrole) (fun h hp => absurd (hrole.trans h) hp) hwake
    ((hinv.threads t).move hrole hcount hplace)

include hwin

theorem inv_pushLoad {c : CountT} {v : V} (hpc : s.pc t = .pushLoad c v) :
    Inv P throws (s.setPc t (if ticketMismatch (token c) (s.word c) then
      .pushCheck c v (s.word c) else .pushPut c v)) := by
  have ht := hinv.threads t
  have hc : c = UInt32.ofNat (s.ticket t) := ht.count c (by rw [hpc]; rfl)
  have hrole : (s.pc t).role = .push := by rw [hpc]; rfl
  have hw : s.written (s.ticket t) = none := by
    have := ht.place
    rwa [hpc] at this
  have hwake : ∀ c n, s.pc t ≠ .popWake c n := fun _ _ h => nomatch hpc.symm.trans h
  subst hc
  rw [State.word_ofNat]
  split
  · exact inv_move hinv (by rw [hpc]; rfl) (by rw [hpc]; rfl) hwake hw
  · rename_i hmatch
    have hlap := (match_iff_lap hinv hwin (Or.inl hrole)).mp (by simpa using hmatch)
    have hs : (s.slotOf (s.ticket t)).word &&& statusMask = 0 := by
      by_contra hs
      exact ((hinv.slots _).filled hs).2 t hrole hlap.symm
    exact inv_move hinv (by rw [hpc]; rfl) (by rw [hpc]; rfl) hwake ⟨hw, hlap, hs⟩

omit hwin in
theorem inv_pushCheck {c : CountT} {v : V} {w : TokenT} (hpc : s.pc t = .pushCheck c v w) :
    Inv P throws (s.setPc t (if s.mem.isPastLast c then .idle else .pushWait c v w)) := by
  have hwake : ∀ c n, s.pc t ≠ .popWake c n := fun _ _ h => nomatch hpc.symm.trans h
  split
  · exact inv_leave hinv rfl (fun h => by rw [hpc] at h; cases h) hwake
  · have hplace := (hinv.threads t).place
    rw [hpc] at hplace
    exact inv_move hinv (by rw [hpc]; rfl) (by rw [hpc]; rfl) hwake hplace

omit hwin in
theorem inv_popCall (hpc : s.pc t = .idle) : Inv P throws (s.setPc t .popDraw) :=
  hinv.setPc (.inr (.inr ⟨by rw [hpc]; rfl, rfl⟩)) (fun h => by rw [hpc] at h; cases h)
    (fun _ _ h => nomatch hpc.symm.trans h)
    (threadInv_outside (State.setPc_pc_self s t _) (.inr rfl))

theorem inv_popLoad {c : CountT} (hpc : s.pc t = .popLoad c) :
    Inv P throws (s.setPc t (popAfterTicket c (s.word c))) := by
  have ht := hinv.threads t
  have hc : c = UInt32.ofNat (s.ticket t) := ht.count c (by rw [hpc]; rfl)
  have hrole : (s.pc t).role = .pop := by rw [hpc]; rfl
  have hwake : ∀ c n, s.pc t ≠ .popWake c n := fun _ _ h => nomatch hpc.symm.trans h
  have hmove := inv_move hinv (p := popAfterTicket c (s.word c))
    (by rw [popAfterTicket_role, hrole]) (by rw [popAfterTicket_count, hpc]; rfl) hwake
  apply hmove
  subst hc
  rw [State.word_ofNat]
  unfold popAfterTicket
  split
  · trivial
  · rename_i hmatch
    exact placeInv_popAfterStatus
      ((match_iff_lap hinv hwin (Or.inr (Or.inl hrole))).mp (by simpa using hmatch)) _

theorem inv_popCheck {c : CountT} {w : TokenT} {p : Pc V}
    (hpc : s.pc t = .popCheck c w ∨ s.pc t = .popStatusCheck c w)
    (hp : p = .popWait c w ∨ p = .popStatusWait c w)
    (hwait : s.pc t = .popCheck c w ↔ p = .popWait c w) :
    Inv P throws (s.setPc t (if s.mem.isPastLast c then .idle else p)) := by
  have ht := hinv.threads t
  have hrole : (s.pc t).role = .pop := by rcases hpc with h | h <;> rw [h] <;> rfl
  have hc : c = UInt32.ofNat (s.ticket t) := ht.count c (by rcases hpc with h | h <;> rw [h] <;> rfl)
  have hwake : ∀ c n, s.pc t ≠ .popWake c n := fun _ _ h => by
    rcases hpc with h' | h' <;> exact nomatch h'.symm.trans h
  split
  · rename_i hpast
    subst hc
    exact inv_leave hinv rfl
      (fun _ => .inr ((isPastLast_iff hinv hwin (Or.inr (Or.inl hrole))).mp hpast)) hwake
  · have hplace := ht.place
    refine inv_move hinv ?_ ?_ hwake ?_
    · rcases hp with rfl | rfl <;> rw [hrole] <;> rfl
    · rcases hpc with h | h <;> rcases hp with rfl | rfl <;> rw [h] <;> rfl
    · rcases hpc with h | h
      · rw [hwait.mp h]
        trivial
      · rcases hp with rfl | rfl
        · exact absurd (hwait.mpr rfl) (fun h' => nomatch h.symm.trans h')
        · rw [h] at hplace
          exact hplace

omit hwin in
theorem inv_popStatusLoad {c : CountT} (hpc : s.pc t = .popStatusLoad c) :
    Inv P throws (s.setPc t (popAfterStatus c (s.word c))) := by
  have ht := hinv.threads t
  have hc : c = UInt32.ofNat (s.ticket t) := ht.count c (by rw [hpc]; rfl)
  have hlap : s.lapOf (s.ticket t) = s.ticket t := by
    have := ht.place
    rwa [hpc] at this
  refine inv_move hinv (by rw [popAfterStatus_role, hpc]; rfl)
    (by rw [popAfterStatus_count, hpc]; rfl) (fun _ _ h => nomatch hpc.symm.trans h) ?_
  subst hc
  rw [State.word_ofNat]
  exact placeInv_popAfterStatus hlap _

omit hwin in
theorem inv_waitReturn (hw : (s.pc t).waitingOn.isSome) :
    Inv P throws (s.setPc t (s.pc t).afterWait) := by
  refine inv_move hinv (afterWait_role _) (afterWait_count _) (fun c n h => ?_)
    (placeInv_afterWait (hinv.threads t).place)
  rw [h] at hw
  simp [Pc.waitingOn] at hw

omit hwin [DecidableEq τ] in
theorem popGet_written {c : CountT} (hpc : s.pc t = .popGet c) :
    s.written (s.ticket t) = some (s.slotOf (s.ticket t)).value := by
  have hrole : (s.pc t).role = .pop := by rw [hpc]; rfl
  obtain ⟨hlap, hvalid⟩ : s.lapOf (s.ticket t) = s.ticket t ∧
      (s.slotOf (s.ticket t)).word &&& statusValid ≠ 0 := by
    have := (hinv.threads t).place
    rwa [hpc] at this
  have hnp : ¬ Passing s (s.lapOf (s.ticket t)) := by
    rintro ⟨u, c', n, hu, hk⟩
    have hut := hinv.pop_unique u t (by rw [hu]; rfl) hrole (hk.trans hlap)
    rw [hut, hpc] at hu
    cases hu
  have hval := (hinv.slots (s.ticket t)).valid hvalid hnp
  rwa [hlap] at hval

omit hwin in
theorem inv_popGet {c : CountT} (hpc : s.pc t = .popGet c) :
    Inv P throws (s.setPc t (.popWake c (.success (s.value c)))) := by
  have ht := hinv.threads t
  have hc : c = UInt32.ofNat (s.ticket t) := ht.count c (by rw [hpc]; rfl)
  obtain ⟨hlap, hvalid⟩ : s.lapOf (s.ticket t) = s.ticket t ∧
      (s.slotOf (s.ticket t)).word &&& statusValid ≠ 0 := by
    have := ht.place
    rwa [hpc] at this
  refine inv_move hinv (by rw [hpc]; rfl) (by rw [hpc]; rfl)
    (fun _ _ h => nomatch hpc.symm.trans h) ⟨hlap, statusMask_ne_zero hvalid, ?_⟩
  subst hc
  exact popGet_written hinv hpc

theorem inv_tryPopLoad {c : CountT} (hpc : s.pc t = .tryPopLoad c) :
    Inv P throws (s.setPc t
      (if ticketMismatch (token c) (s.word c) || statusEmpty (s.word c) then .tryPopCheck c
       else .tryPopCas c (s.word c))) := by
  have ht := hinv.threads t
  have hc : c = UInt32.ofNat (s.ticket t) := ht.count c (by rw [hpc]; rfl)
  have hrole : (s.pc t).role = .tryPop := by rw [hpc]; rfl
  have hwake : ∀ c n, s.pc t ≠ .popWake c n := fun _ _ h => nomatch hpc.symm.trans h
  subst hc
  rw [State.word_ofNat]
  split
  · exact inv_move hinv (by rw [hpc]; rfl) (by rw [hpc]; rfl) hwake trivial
  · rename_i hload
    simp only [Bool.or_eq_true, not_or, Bool.not_eq_true] at hload
    obtain ⟨hmatch, hfull⟩ := hload
    have hlap := (match_iff_lap hinv hwin (Or.inr (Or.inr hrole))).mp hmatch
    exact inv_move hinv (by rw [hpc]; rfl) (by rw [hpc]; rfl) hwake
      (fun _ => ⟨hlap, rfl, by simpa [statusEmpty] using hfull⟩)

omit hwin in
theorem inv_return (hpc : (s.pc t).role = .tryPop ∨ (s.pc t).role = .close) :
    Inv P throws (s.setPc t .idle) :=
  inv_leave hinv rfl (fun h => by rcases hpc with h' | h' <;> rw [h'] at h <;> cases h)
    (fun _ _ h => by rcases hpc with h' | h' <;> rw [h] at h' <;> cases h')

end PcSteps

end BoundedQueueInvariant
