import Evenk.BoundedQueueSequential
import Evenk.BoundedQueueSlots

/-!
# The ring answers as the reference queue, one call at a time

With one thread, no `try_push` and at most one `close`, the ring answers every call as the
reference bounded queue does, and a waiting call returns exactly where the reference does not
block. The calls after `close` stay within `2 ^ 31` of `last_`, and `is_empty` and `is_full` are
left out once the ring is closed.
-/
namespace BoundedQueueRefinement

open BoundedQueue BoundedQueueRing QueueSpec BoundedQueueRing.BoundedRing BoundedQueueSequential

variable {V β : Type}

/-! ## Solo calls that leave at their first test -/

section Solo

variable {k : SlotKind} {r : BoundedRing V} {i count token : CountT} {bo : β → Bool × β}
  {backoff : Option β} {b₀ : β} {fuel : ℕ}

theorem waitLoop_blocked {stay : TokenT → Bool} {reload : Bool}
    (hs : stay (r.ring i).word = true) (hp : r.isPastLast count = false) (n : ℕ) :
    ∀ waiting b, waitLoop k r i count stay reload bo n waiting b (r.ring i).word = none := by
  induction n with
  | zero => intro _ _; rfl
  | succ n ih =>
    intro waiting b
    -- the word read again is the same word, or the thread sleeps with nobody to wake it
    rcases slotWait_self k (r.ring i).word with hw | hw <;>
      cases waiting <;> cases reload <;> simp [waitLoop, hs, hp, hw, ih]

theorem waitTail_of_ticket (hm : ticketMismatch token (r.ring i).word = false) (hf : 0 < fuel) :
    r.waitTail k i count token bo backoff b₀ fuel = some .success := by
  obtain ⟨n, rfl⟩ := Nat.exists_eq_add_of_lt hf
  simp [waitTail, waitLoop, hm]

theorem waitTail_of_past (hm : ticketMismatch token (r.ring i).word = true)
    (hp : r.isPastLast count = true) (hf : 0 < fuel) :
    r.waitTail k i count token bo backoff b₀ fuel = some .closed := by
  obtain ⟨n, rfl⟩ := Nat.exists_eq_add_of_lt hf
  simp [waitTail, waitLoop, hm, hp]

theorem waitTail_blocked (hm : ticketMismatch token (r.ring i).word = true)
    (hp : r.isPastLast count = false) : r.waitTail k i count token bo backoff b₀ fuel = none := by
  simp [waitTail, waitLoop_blocked hm hp]

theorem waitHead_of_value (hm : ticketMismatch token (r.ring i).word = false)
    (hs : statusEmpty (r.ring i).word = false) (hv : (r.ring i).word &&& statusValid ≠ 0)
    (hf : 0 < fuel) : r.waitHead k i count token bo backoff b₀ fuel = some .success := by
  obtain ⟨n, rfl⟩ := Nat.exists_eq_add_of_lt hf
  simp [waitHead, waitLoop, hm, hs, hv]

theorem waitHead_of_past (hs : statusEmpty (r.ring i).word = true)
    (hp : r.isPastLast count = true) (hf : 0 < fuel) :
    r.waitHead k i count token bo backoff b₀ fuel = some .closed := by
  obtain ⟨n, rfl⟩ := Nat.exists_eq_add_of_lt hf
  cases hm : ticketMismatch token (r.ring i).word <;> simp [waitHead, waitLoop, hm, hs, hp]

theorem waitHead_blocked (hm : ticketMismatch token (r.ring i).word = false)
    (hs : statusEmpty (r.ring i).word = true) (hp : r.isPastLast count = false) :
    r.waitHead k i count token bo backoff b₀ fuel = none := by
  cases fuel with
  | zero => rfl
  | succ n =>
    simp only [waitHead]
    rw [waitLoop_exit hm]
    simp [waitLoop_blocked hs hp]

end Solo

theorem isPastLast_of_open {r : BoundedRing V} (h : r.closed = .open) (c : CountT) :
    r.isPastLast c = false := by
  simp [isPastLast, h]

/-! ## Slots by position -/

/-- The slot that the count `c` maps to. -/
def slotAt (r : BoundedRing V) (c : ℕ) : RingSlot V := r.ring (UInt32.ofNat c &&& r.mask)

theorem offset_inj {N b j j' : ℕ} (hj : j < N) (hj' : j' < N)
    (h : (b + j) % N = (b + j') % N) : j = j' := by
  have hm : j ≡ j' [MOD N] := Nat.ModEq.add_left_cancel' b h
  rwa [Nat.ModEq, Nat.mod_eq_of_lt hj, Nat.mod_eq_of_lt hj'] at hm

theorem exists_offset {N b c : ℕ} (hN : 0 < N) (hc : b ≤ c) :
    ∃ j < N, (b + j) % N = c % N ∧ b + j ≤ c := by
  refine ⟨(c - b) % N, Nat.mod_lt _ hN, ?_, ?_⟩
  · rw [Nat.add_mod_mod, Nat.add_sub_cancel' hc]
  · have := Nat.mod_le (c - b) N
    omega

theorem slotAt_congr {r : BoundedRing V} (hv : ValidSize (r.mask + 1)) {c c' : ℕ}
    (h : c % (r.mask + 1).toNat = c' % (r.mask + 1).toNat) : slotAt r c = slotAt r c' := by
  unfold slotAt
  rw [BoundedQueueThreads.ofNat_mask_congr hv h]

theorem slotAt_of_update {r s : BoundedRing V} (hv : ValidSize (r.mask + 1)) {a : ℕ}
    {x : RingSlot V} (hmask : s.mask = r.mask)
    (hring : s.ring = Function.update r.ring (UInt32.ofNat a &&& r.mask) x) (c : ℕ) :
    slotAt s c = if a % (r.mask + 1).toNat = c % (r.mask + 1).toNat then x else slotAt r c := by
  unfold slotAt
  rw [hmask, hring, BoundedQueueThreads.update_ofNat_mask hv]

theorem putValue_ring (r : BoundedRing V) (i token : TokenT) (v : V) :
    (r.putValue i token v).ring = Function.update r.ring i ⟨token ||| statusValid, v⟩ := by
  simp [putValue, wake, setWord]

theorem wake_ring (r : BoundedRing V) (i t : TokenT) :
    (r.wake i t).ring = Function.update r.ring i ⟨t, (r.ring i).value⟩ := rfl

theorem close_value (k : SlotKind) (r : BoundedRing V) (j : CountT) :
    ((r.close k).ring j).value = (r.ring j).value := by
  unfold close
  split_ifs
  · rfl
  · apply foldl_closeSlot k (fun r' => (r'.ring j).value = (r.ring j).value)
    · intro r' i h
      by_cases hj : j = i
      · subst hj
        simpa [closeSlot, setWord] using h
      · rw [closeSlot, setWord_ring_ne _ _ hj]
        exact h
    · rfl

theorem token_and_ticketMask (c : CountT) : token c &&& ticketMask = token c := by
  rw [token, UInt32.and_assoc, UInt32.and_self]

theorem token_and_statusMask (c : CountT) : token c &&& statusMask = 0 :=
  token_and_flag c (by decide)

theorem size_toNat {m : CountT} (hv : ValidSize (m + 1)) : (m + 1).toNat = m.toNat + 1 := by
  have hpos := hv.pos
  rw [UInt32.toNat_add] at hpos ⊢
  have hm := m.toNat_lt
  have h1 : (1 : CountT).toNat = 1 := rfl
  rw [h1] at hpos ⊢
  omega

/-! ## The simulation -/

/-- Ghost counts of a ring: the tickets taken from `head_` and from `tail_`, and the position
after the last element. -/
structure Counts where
  head : ℕ
  last : ℕ
  tail : ℕ

/-- The ring `r` stands for the reference queue `q` at the counts `g`. -/
structure Sim (r : BoundedRing V) (q : BoundedFifo V) (g : Counts) : Prop where
  valid : ValidSize (r.mask + 1)
  capacity : q.capacity = (r.mask + 1).toNat
  head : r.head = UInt32.ofNat g.head
  tail : r.tail = UInt32.ofNat g.tail
  length : q.items.length = g.last - g.head
  room : g.last ≤ g.head + q.capacity
  state : (r.closed = .open ∧ q.closed = false ∧ g.head ≤ g.last ∧ g.tail = g.last) ∨
    (r.closed = .closed ∧ q.closed = true ∧ r.last = UInt32.ofNat g.last ∧
      g.last + q.capacity ≤ g.tail)
  ticket : ∀ j < q.capacity, (slotAt r (min g.head g.last + j)).word &&& ticketMask =
    token (UInt32.ofNat (min g.head g.last + j))
  status : ∀ j < q.capacity, (slotAt r (min g.head g.last + j)).word &&& statusMask =
    if min g.head g.last + j < g.last then statusValid else 0
  value : ∀ j < g.last - g.head, q.items[j]? = some (slotAt r (g.head + j)).value

theorem sim_init [Inhabited V] {size : CountT} (hv : ValidSize size) :
    Sim (init size : BoundedRing V) (BoundedFifo.empty size.toNat) ⟨0, 0, 0⟩ := by
  have hmask : size - 1 + 1 = size := UInt32.sub_add_cancel size 1
  have hv' : ValidSize ((init size : BoundedRing V).mask + 1) := by
    show ValidSize (size - 1 + 1)
    rwa [hmask]
  have hslot : ∀ j < size.toNat, UInt32.ofNat j &&& (size - 1) = UInt32.ofNat j := by
    intro j hj
    apply UInt32.toNat_inj.mp
    have h31 := hv.le_two_pow
    have h := hv'.toNat_ofNat_mask j
    simp only [init] at h
    rw [h, hmask, UInt32.toNat_ofNat', Nat.mod_eq_of_lt hj, Nat.mod_eq_of_lt (by omega)]
  refine ⟨hv', by simp [BoundedFifo.empty, init, hmask], rfl, rfl, rfl, Nat.zero_le _,
    .inl ⟨rfl, rfl, le_refl _, rfl⟩, fun j hj => ?_, fun j hj => ?_, fun j hj => absurd hj (by simp)⟩
  · simp only [BoundedFifo.empty] at hj
    simp only [slotAt, init, Nat.min_self, Nat.zero_add, hslot j hj]
    exact token_and_ticketMask _
  · simp only [BoundedFifo.empty] at hj
    simp only [slotAt, init, Nat.min_self, Nat.zero_add, hslot j hj]
    exact token_and_statusMask _

namespace Sim

variable {r : BoundedRing V} {q : BoundedFifo V} {g : Counts}

theorem capacity_pos (hs : Sim r q g) : 0 < q.capacity := hs.capacity ▸ hs.valid.pos

theorem capacity_le (hs : Sim r q g) : q.capacity ≤ 2 ^ 31 := hs.capacity ▸ hs.valid.le_two_pow

theorem open_iff (hs : Sim r q g) : r.closed = .open ↔ q.closed = false := by
  rcases hs.state with ⟨hr, hq, -⟩ | ⟨hr, hq, -⟩ <;> simp [hr, hq]

theorem of_open (hs : Sim r q g) (ho : q.closed = false) :
    r.closed = .open ∧ g.head ≤ g.last ∧ g.tail = g.last := by
  rcases hs.state with ⟨hr, -, hhl, htl⟩ | ⟨-, hq, -⟩
  · exact ⟨hr, hhl, htl⟩
  · rw [hq] at ho; cases ho

theorem of_closed (hs : Sim r q g) (hc : q.closed = true) :
    r.closed = .closed ∧ r.last = UInt32.ofNat g.last ∧ g.last + q.capacity ≤ g.tail := by
  rcases hs.state with ⟨-, hq, -⟩ | ⟨hr, -, hl, hlt⟩
  · rw [hq] at hc; cases hc
  · exact ⟨hr, hl, hlt⟩

theorem residue_iff (hs : Sim r q g) {b i j : ℕ} (hi : i < q.capacity) (hj : j < q.capacity) :
    (b + i) % (r.mask + 1).toNat = (b + j) % (r.mask + 1).toNat ↔ i = j := by
  rw [← hs.capacity]
  exact ⟨offset_inj hi hj, fun h => h ▸ rfl⟩

theorem slot_window (hs : Sim r q g) {c : ℕ} (hc : min g.head g.last ≤ c) :
    ∃ j < q.capacity, slotAt r c = slotAt r (min g.head g.last + j) ∧ min g.head g.last + j ≤ c ∧
      (min g.head g.last + j) % q.capacity = c % q.capacity := by
  obtain ⟨j, hj, hmod, hle⟩ := exists_offset hs.capacity_pos hc
  refine ⟨j, hj, slotAt_congr hs.valid ?_, hle, hmod⟩
  rw [← hs.capacity, hmod]

theorem mismatch_beyond (hs : Sim r q g) {c : ℕ} (h₁ : min g.head g.last + q.capacity ≤ c)
    (h₂ : c < min g.head g.last + 2 ^ 32) :
    ticketMismatch (token (UInt32.ofNat c)) (slotAt r c).word = true := by
  obtain ⟨j, hj, hslot, hle, hmod⟩ := hs.slot_window (c := c) (by omega)
  rw [hslot, ticketMismatch, hs.ticket j hj, decide_eq_true_iff]
  rw [hs.capacity] at hmod
  rw [Ne, token_ofNat_inj hs.valid hmod (by omega) (by omega)]
  omega

theorem slot_head (hs : Sim r q g) (hh : g.head < g.last) :
    (slotAt r g.head).word &&& ticketMask = token (UInt32.ofNat g.head) ∧
      (slotAt r g.head).word &&& statusMask = statusValid := by
  have hmin : min g.head g.last = g.head := Nat.min_eq_left hh.le
  have ht := hs.ticket 0 hs.capacity_pos
  have hst := hs.status 0 hs.capacity_pos
  simp only [hmin, Nat.add_zero, if_pos hh] at ht hst
  exact ⟨ht, hst⟩

theorem slot_drained (hs : Sim r q g) (hle : g.last ≤ g.head) :
    statusEmpty (slotAt r g.head).word = true := by
  have hmin : min g.head g.last = g.last := Nat.min_eq_right hle
  obtain ⟨j, hj, hslot, -, -⟩ := hs.slot_window (c := g.head) (by omega)
  have hst := hs.status j hj
  rw [hmin, if_neg (by omega)] at hst
  rw [hmin] at hslot
  rw [hslot, statusEmpty, hst]
  rfl

theorem slot_tail (hs : Sim r q g) (ho : q.closed = false) (hroom : g.last < g.head + q.capacity) :
    (slotAt r g.last).word &&& ticketMask = token (UInt32.ofNat g.last) ∧
      (slotAt r g.last).word &&& statusMask = 0 := by
  obtain ⟨-, hhl, -⟩ := hs.of_open ho
  have hmin : min g.head g.last = g.head := Nat.min_eq_left hhl
  have ht := hs.ticket (g.last - g.head) (by omega)
  have hst := hs.status (g.last - g.head) (by omega)
  rw [hmin, Nat.add_sub_cancel' hhl] at ht hst
  rw [if_neg (Nat.lt_irrefl _)] at hst
  exact ⟨ht, hst⟩

theorem isPastLast_eq (hs : Sim r q g) (hc : q.closed = true) {c : ℕ}
    (h₁ : c < g.last + 2 ^ 31) (h₂ : g.last < c + 2 ^ 31) :
    r.isPastLast (UInt32.ofNat c) = decide (g.last ≤ c) := by
  obtain ⟨hr, hl, -⟩ := hs.of_closed hc
  simp only [isPastLast, hr, hl, ne_eq, not_true_eq_false, if_false]
  exact decide_eq_decide.mpr (FixedWidth.toInt32_sub_nonpos_iff h₂ h₁)

/-! ### What each call does to the simulation -/

theorem push (hs : Sim r q g) (ho : q.closed = false) (hroom : g.last < g.head + q.capacity)
    (v : V) :
    Sim ({ r with tail := r.tail + 1 }.putValue (r.tail &&& r.mask) (token r.tail) v)
      { q with items := q.items ++ [v] } ⟨g.head, g.last + 1, g.tail + 1⟩ := by
  obtain ⟨hr, hhl, htl⟩ := hs.of_open ho
  have hmin : min g.head (g.last + 1) = g.head := Nat.min_eq_left (by omega)
  have hmin' : min g.head g.last = g.head := Nat.min_eq_left hhl
  have hslot := slotAt_of_update hs.valid (a := g.last)
    (s := { r with tail := r.tail + 1 }.putValue (r.tail &&& r.mask) (token r.tail) v)
    (x := ⟨token (UInt32.ofNat g.last) ||| statusValid, v⟩) rfl
    (by rw [putValue_ring, hs.tail, htl])
  have hat : ∀ j < q.capacity,
      g.last % (r.mask + 1).toNat = (g.head + j) % (r.mask + 1).toNat ↔ j = g.last - g.head := by
    intro j hj
    have h := hs.residue_iff (b := g.head) (i := g.last - g.head) (j := j) (by omega) hj
    rw [Nat.add_sub_cancel' hhl] at h
    exact h.trans eq_comm
  have hstatus : (token (UInt32.ofNat g.last) ||| statusValid) &&& statusMask = statusValid := by
    rw [status_token_or _ (by decide)]
    decide
  refine ⟨hs.valid, hs.capacity, hs.head, ?_, ?_, ?_, .inl ⟨hr, ho, by dsimp only; omega, by dsimp only; omega⟩,
    fun j hj => ?_, fun j hj => ?_, fun j hj => ?_⟩
  · show r.tail + 1 = _
    rw [hs.tail, BoundedQueueThreads.ofNat_succ]
  · show (q.items ++ [v]).length = g.last + 1 - g.head
    rw [List.length_append, hs.length, List.length_singleton]
    omega
  · show g.last + 1 ≤ g.head + q.capacity
    omega
  · dsimp only at hj
    show (slotAt _ (min g.head (g.last + 1) + j)).word &&& ticketMask = _
    rw [hmin, hslot]
    split_ifs with he
    · rw [(hat j hj).mp he, Nat.add_sub_cancel' hhl]
      exact ticket_token_or _ (by decide)
    · rw [← hmin']
      exact hs.ticket j hj
  · dsimp only at hj
    show (slotAt _ (min g.head (g.last + 1) + j)).word &&& statusMask =
      if min g.head (g.last + 1) + j < g.last + 1 then statusValid else 0
    rw [hmin, hslot]
    split_ifs with he hlt hlt
    · exact hstatus
    · rw [(hat j hj).mp he] at hlt
      omega
    · have hne : g.head + j ≠ g.last := fun h' => he (by rw [← h'])
      rw [← hmin', hs.status j hj, hmin', if_pos (by omega)]
    · rw [← hmin', hs.status j hj, hmin', if_neg (by omega)]
  · dsimp only at hj
    show (q.items ++ [v])[j]? = some (slotAt _ (g.head + j)).value
    rw [hslot]
    by_cases hjl : j = g.last - g.head
    · rw [if_pos ((hat j (by omega)).mpr hjl), List.getElem?_append_right (by rw [hs.length]; omega),
        hs.length,
        hjl, Nat.sub_self]
      rfl
    · rw [if_neg (fun he => hjl ((hat j (by omega)).mp he)),
        List.getElem?_append_left (by rw [hs.length]; omega)]
      exact hs.value j (by omega)

theorem pop (hs : Sim r q g) (hh : g.head < g.last) :
    Sim ({ r with head := r.head + 1 }.wake (r.head &&& r.mask) (token r.head + r.mask + 1))
      { q with items := q.items.tail } ⟨g.head + 1, g.last, g.tail⟩ := by
  have hroom := hs.room
  have hmin : min (g.head + 1) g.last = g.head + 1 := Nat.min_eq_left hh
  have hmin' : min g.head g.last = g.head := Nat.min_eq_left hh.le
  have hslot := slotAt_of_update hs.valid (a := g.head)
    (s := { r with head := r.head + 1 }.wake (r.head &&& r.mask) (token r.head + r.mask + 1))
    (x := ⟨token (UInt32.ofNat (g.head + (r.mask + 1).toNat)), (slotAt r g.head).value⟩) rfl
    (by rw [wake_ring, hs.head, token_ofNat_next hs.valid]; rfl)
  have hlap : ∀ j < q.capacity,
      g.head % (r.mask + 1).toNat = (g.head + 1 + j) % (r.mask + 1).toNat ↔ 1 + j = q.capacity := by
    intro j hj
    constructor
    · intro he
      by_contra hne
      have h := (hs.residue_iff (b := g.head) (i := 0) (j := 1 + j) hs.capacity_pos
        (by omega)).mp (by rw [Nat.add_zero, ← Nat.add_assoc]; exact he)
      omega
    · intro he
      rw [Nat.add_assoc, he, hs.capacity, Nat.add_mod_right]
  refine ⟨hs.valid, hs.capacity, ?_, hs.tail, ?_, ?_, ?_, fun j hj => ?_, fun j hj => ?_,
    fun j hj => ?_⟩
  · show r.head + 1 = _
    rw [hs.head, BoundedQueueThreads.ofNat_succ]
  · show q.items.tail.length = g.last - (g.head + 1)
    rw [List.length_tail, hs.length]
    omega
  · show g.last ≤ g.head + 1 + q.capacity
    omega
  · rcases hs.state with ⟨hr, hq, -, htl⟩ | hc
    · exact .inl ⟨hr, hq, hh, htl⟩
    · exact .inr hc
  · dsimp only at hj
    show (slotAt _ (min (g.head + 1) g.last + j)).word &&& ticketMask = _
    rw [hmin, hslot]
    split_ifs with he
    · rw [token_and_ticketMask, ← hs.capacity, ← (hlap j hj).mp he, Nat.add_assoc]
    · have h := hs.ticket (1 + j) (by have := (hlap j hj).not.mp he; omega)
      rwa [hmin', ← Nat.add_assoc] at h
  · dsimp only at hj
    show (slotAt _ (min (g.head + 1) g.last + j)).word &&& statusMask =
      if min (g.head + 1) g.last + j < g.last then statusValid else 0
    rw [hmin, hslot]
    split_ifs with he hlt hlt
    · have := (hlap j hj).mp he
      omega
    · exact token_and_statusMask _
    · have h := hs.status (1 + j) (by have := (hlap j hj).not.mp he; omega)
      rwa [hmin', ← Nat.add_assoc, if_pos hlt] at h
    · have h := hs.status (1 + j) (by have := (hlap j hj).not.mp he; omega)
      rwa [hmin', ← Nat.add_assoc, if_neg hlt] at h
  · dsimp only at hj
    show q.items.tail[j]? = some (slotAt _ (g.head + 1 + j)).value
    rw [hslot, if_neg (fun he => by have := (hlap j (by omega)).mp he; omega), List.getElem?_tail,
      hs.value (j + 1) (by omega)]
    rw [Nat.add_comm j 1, Nat.add_assoc]

theorem bumpTail (hs : Sim r q g) (hc : q.closed = true) :
    Sim { r with tail := r.tail + 1 } q ⟨g.head, g.last, g.tail + 1⟩ := by
  obtain ⟨hr, hl, hlt⟩ := hs.of_closed hc
  refine ⟨hs.valid, hs.capacity, hs.head, ?_, hs.length, hs.room, .inr ⟨hr, hc, hl, by dsimp only; omega⟩,
    hs.ticket, hs.status, hs.value⟩
  show r.tail + 1 = _
  rw [hs.tail, BoundedQueueThreads.ofNat_succ]

theorem bumpHead (hs : Sim r q g) (hc : q.closed = true) (hle : g.last ≤ g.head) :
    Sim { r with head := r.head + 1 } q ⟨g.head + 1, g.last, g.tail⟩ := by
  have hmin : min (g.head + 1) g.last = min g.head g.last := by omega
  refine ⟨hs.valid, hs.capacity, ?_, hs.tail, ?_, by have := hs.room; dsimp only; omega,
    ?_, ?_, ?_, fun j hj => absurd hj (by dsimp only; omega)⟩
  · show r.head + 1 = _
    rw [hs.head, BoundedQueueThreads.ofNat_succ]
  · show q.items.length = g.last - (g.head + 1)
    rw [hs.length]
    omega
  · obtain ⟨hr, hl, hlt⟩ := hs.of_closed hc
    exact .inr ⟨hr, hc, hl, hlt⟩
  · intro j hj
    show (slotAt r (min (g.head + 1) g.last + j)).word &&& ticketMask = _
    rw [hmin]
    exact hs.ticket j hj
  · intro j hj
    show (slotAt r (min (g.head + 1) g.last + j)).word &&& statusMask =
      if min (g.head + 1) g.last + j < g.last then statusValid else 0
    rw [hmin]
    exact hs.status j hj

theorem close (hs : Sim r q g) (ho : q.closed = false) (k : SlotKind) :
    Sim (r.close k) q.close ⟨g.head, g.last, g.last + q.capacity⟩ := by
  obtain ⟨hr, hhl, htl⟩ := hs.of_open ho
  obtain ⟨hlast, htail, hclosed, hhead, hmask⟩ := close_fields k (r := r) (by rw [hr]; decide)
  have hslot : ∀ c, slotAt (r.close k) c = (r.close k).ring (UInt32.ofNat c &&& r.mask) := by
    intro c
    rw [slotAt, hmask]
  refine ⟨by rw [hmask]; exact hs.valid, by rw [hmask]; exact hs.capacity, by rw [hhead]; exact hs.head,
    ?_, hs.length, hs.room, .inr ⟨hclosed, rfl, by rw [hlast, hs.tail, htl], le_refl _⟩,
    fun j hj => ?_, fun j hj => ?_, fun j hj => ?_⟩
  · rw [htail, hs.tail, BoundedQueueThreads.ofNat_add_size, htl, hs.capacity]
  · rw [hslot, (close_reads k r _).1]
    exact hs.ticket j hj
  · rw [hslot, (close_reads k r _).2]
    exact hs.status j hj
  · rw [hslot, close_value]
    exact hs.value j hj

end Sim

/-! ## Calls against the reference -/

/-- The ghost counts after a call that does not block: a waiting pop always takes a ticket from
`head_`, `try_pop` only when it finds an element; a push takes one from `tail_` and moves the
last position while the ring is open; `close` reserves a lap. -/
def Counts.next (g : Counts) (q : BoundedFifo V) : Op V β → Counts
  | .waitPush _ _ =>
    if q.closed then ⟨g.head, g.last, g.tail + 1⟩ else ⟨g.head, g.last + 1, g.tail + 1⟩
  | .waitPop _ => ⟨g.head + 1, g.last, g.tail⟩
  | .tryPop => if q.items.isEmpty then g else ⟨g.head + 1, g.last, g.tail⟩
  | .close => ⟨g.head, g.last, g.last + q.capacity⟩
  | .tryPush _ | .isEmpty | .isFull | .isClosed => g

/-- The positions taken past `last_` since `close`. -/
def Counts.past (g : Counts) : ℕ := g.tail - g.last + (g.head - g.last)

/-- The calls the ring answers as the reference: never `try_push`, and `close`, `is_empty` and
`is_full` only while the ring is open. -/
def Supported (closed : Bool) : Op V β → Prop
  | .tryPush _ => False
  | .close | .isEmpty | .isFull => closed = false
  | .waitPush _ _ | .waitPop _ | .tryPop | .isClosed => True

instance (closed : Bool) : (op : Op V β) → Decidable (Supported closed op)
  | .tryPush _ => inferInstanceAs (Decidable False)
  | .close | .isEmpty | .isFull => inferInstanceAs (Decidable (closed = false))
  | .waitPush _ _ | .waitPop _ | .tryPop | .isClosed => inferInstanceAs (Decidable True)

section Calls

variable {r : BoundedRing V} {q : BoundedFifo V} {g : Counts} {P : Policy} {v : V}
  {bo : β → Bool × β} {backoff : Option β} {b₀ : β} {fuel : ℕ}

theorem waitPush_sim (hs : Sim r q g) (hnb : ¬ q.Blocks (.waitPush v backoff : Op V β))
    (hwin : q.closed = true → g.tail < g.last + 2 ^ 31) (hf : 0 < fuel) :
    ∃ r', r.waitPush P v bo backoff b₀ fuel = some ((q.push v).1, r') ∧
      Sim r' (q.push v).2 (g.next q (.waitPush v backoff)) := by
  have hroom := hs.room
  by_cases hc : q.closed = false
  · -- open with room: the slot of `tail_` waits for this ticket
    obtain ⟨-, hhl, htl⟩ := hs.of_open hc
    have hfree : g.last < g.head + q.capacity := by
      simp only [BoundedFifo.Blocks, hc, true_and, hs.length] at hnb
      omega
    have hm : ticketMismatch (token r.tail) (r.ring (r.tail &&& r.mask)).word = false := by
      rw [hs.tail, htl, ticketMismatch, decide_eq_false_iff_not, not_not]
      exact (hs.slot_tail hc hfree).1
    have hpush : q.push v = (.success, { q with items := q.items ++ [v] }) := by
      simp only [BoundedFifo.push, hc, Bool.false_eq_true, if_false, hs.length]
      rw [if_neg (by omega)]
    refine ⟨{ r with tail := r.tail + 1 }.putValue (r.tail &&& r.mask) (token r.tail) v, ?_, ?_⟩
    · simp only [waitPush]
      rw [waitTail_of_ticket (r := { r with tail := r.tail + 1 }) hm hf, hpush]
    · rw [hpush]
      have h := hs.push hc hfree v
      rw [hc] at h
      simpa only [Counts.next, hc, Bool.false_eq_true, if_false] using h
  · -- closed: the slot waits for an earlier lap, and the ticket is past `last_`
    replace hc : q.closed = true := by simpa using hc
    obtain ⟨-, -, hlt⟩ := hs.of_closed hc
    have h31 := hs.capacity_le
    have hm : ticketMismatch (token r.tail) (r.ring (r.tail &&& r.mask)).word = true := by
      rw [hs.tail]
      exact hs.mismatch_beyond (by omega) (by have := hwin hc; omega)
    have hp : r.isPastLast r.tail = true := by
      rw [hs.tail, hs.isPastLast_eq hc (hwin hc) (by omega), decide_eq_true_iff]
      omega
    refine ⟨{ r with tail := r.tail + 1 }, ?_, ?_⟩
    · simp only [waitPush]
      rw [waitTail_of_past (r := { r with tail := r.tail + 1 }) hm hp hf]
      simp [BoundedFifo.push, hc]
    · simp only [BoundedFifo.push, hc, if_true, Counts.next]
      exact hs.bumpTail hc

theorem waitPush_blocks (hs : Sim r q g) (hb : q.Blocks (.waitPush v backoff : Op V β)) :
    r.waitPush P v bo backoff b₀ fuel = none := by
  obtain ⟨hc, hfull⟩ := hb
  obtain ⟨hr, hhl, htl⟩ := hs.of_open hc
  have h31 := hs.capacity_le
  rw [hs.length] at hfull
  -- a full ring's tail maps to the slot of its head, which waits for the head's ticket
  have hm : ticketMismatch (token r.tail) (r.ring (r.tail &&& r.mask)).word = true := by
    rw [hs.tail, htl]
    exact hs.mismatch_beyond (by omega) (by omega)
  simp only [waitPush]
  rw [waitTail_blocked (r := { r with tail := r.tail + 1 }) hm (isPastLast_of_open hr _)]

theorem valid_of_status {w : TokenT} (h : w &&& statusMask = statusValid) :
    w &&& statusValid ≠ 0 := by
  rw [show statusValid = statusMask &&& statusValid by decide, ← UInt32.and_assoc, h]
  decide

theorem pop_of_lt (hs : Sim r q g) (hh : g.head < g.last) :
    q.pop = (.success, some (slotAt r g.head).value, { q with items := q.items.tail }) := by
  obtain ⟨x, xs, hq⟩ := List.exists_cons_of_length_pos (show 0 < q.items.length by
    rw [hs.length]; omega)
  have hx := hs.value 0 (by omega)
  rw [hq, Nat.add_zero, List.getElem?_cons_zero, Option.some.injEq] at hx
  rw [BoundedFifo.pop_success hq, hq, hx]
  rfl

theorem pop_of_le (hs : Sim r q g) (hle : g.last ≤ g.head) :
    q.pop = (if q.closed then .closed else .empty, none, q) := by
  have hq : q.items = [] := List.eq_nil_of_length_eq_zero (by rw [hs.length]; omega)
  cases hc : q.closed <;> simp [BoundedFifo.pop, hq, hc]

theorem waitPop_sim (hs : Sim r q g) (hnb : ¬ q.Blocks (.waitPop backoff : Op V β))
    (hwin : q.closed = true → g.head < g.last + 2 ^ 31) (hf : 0 < fuel) :
    ∃ r', r.waitPop P bo backoff b₀ fuel = some (q.pop.1, q.pop.2.1, r') ∧
      Sim r' q.pop.2.2 (g.next q (.waitPop backoff)) := by
  obtain ⟨n, rfl⟩ : ∃ n, fuel = n + 1 := ⟨fuel - 1, by omega⟩
  by_cases hh : g.head < g.last
  · -- an element: the slot of `head_` holds this ticket with a value
    obtain ⟨ht, hst⟩ := hs.slot_head hh
    have hm : ticketMismatch (token r.head) (r.ring (r.head &&& r.mask)).word = false := by
      rw [hs.head, ticketMismatch, decide_eq_false_iff_not, not_not]
      exact ht
    have hse : statusEmpty (r.ring (r.head &&& r.mask)).word = false := by
      rw [hs.head, statusEmpty, decide_eq_false_iff_not]
      exact fun h => by rw [show (slotAt r g.head).word &&& statusMask = 0 from h] at hst; cases hst
    have hv : (r.ring (r.head &&& r.mask)).word &&& statusValid ≠ 0 := by
      rw [hs.head]
      exact valid_of_status hst
    refine ⟨{ r with head := r.head + 1 }.wake (r.head &&& r.mask) (token r.head + r.mask + 1),
      ?_, ?_⟩
    · simp only [waitPop, waitPopLoop]
      rw [waitHead_of_value (r := { r with head := r.head + 1 }) hm hse hv (Nat.succ_pos _),
        pop_of_lt hs hh]
      simp [getValue, hs.head, slotAt]
    · rw [pop_of_lt hs hh]
      exact hs.pop hh
  · -- no element: the ring is closed, and the ticket is past `last_`
    have hle : g.last ≤ g.head := by omega
    have hc : q.closed = true := by
      cases hc : q.closed
      · exact absurd ⟨hc, List.eq_nil_of_length_eq_zero (by rw [hs.length]; omega)⟩ hnb
      · rfl
    have hse : statusEmpty (r.ring (r.head &&& r.mask)).word = true := by
      rw [hs.head]
      exact hs.slot_drained hle
    have hp : r.isPastLast r.head = true := by
      rw [hs.head, hs.isPastLast_eq hc (hwin hc) (by omega), decide_eq_true_iff]
      exact hle
    refine ⟨{ r with head := r.head + 1 }, ?_, ?_⟩
    · simp only [waitPop, waitPopLoop]
      rw [waitHead_of_past (r := { r with head := r.head + 1 }) hse hp (Nat.succ_pos _),
        pop_of_le hs hle, hc]
      rfl
    · rw [pop_of_le hs hle]
      exact hs.bumpHead hc hle

theorem waitPop_blocks (hs : Sim r q g) (hb : q.Blocks (.waitPop backoff : Op V β)) :
    r.waitPop P bo backoff b₀ fuel = none := by
  obtain ⟨hc, hq⟩ := hb
  obtain ⟨hr, hhl, -⟩ := hs.of_open hc
  have hle : g.last ≤ g.head := by
    have := hs.length
    rw [hq, List.length_nil] at this
    omega
  have hm : ticketMismatch (token r.head) (r.ring (r.head &&& r.mask)).word = false := by
    have ht := hs.ticket 0 hs.capacity_pos
    rw [Nat.min_eq_left hhl, Nat.add_zero] at ht
    rw [hs.head, ticketMismatch, decide_eq_false_iff_not, not_not]
    exact ht
  have hse : statusEmpty (r.ring (r.head &&& r.mask)).word = true := by
    rw [hs.head]
    exact hs.slot_drained hle
  cases fuel with
  | zero => rfl
  | succ n =>
    simp only [waitPop, waitPopLoop]
    rw [waitHead_blocked (r := { r with head := r.head + 1 }) hm hse (isPastLast_of_open hr _)]

theorem tryPop_sim (hs : Sim r q g) (hwin : q.closed = true → g.head < g.last + 2 ^ 31) :
    ∃ r', r.tryPop P = (q.pop.1, q.pop.2.1, r') ∧
      Sim r' q.pop.2.2 (g.next q (.tryPop : Op V β)) := by
  by_cases hh : g.head < g.last
  · obtain ⟨ht, hst⟩ := hs.slot_head hh
    have hne : q.items.isEmpty = false := by
      rw [Bool.eq_false_iff, Ne, List.isEmpty_iff_length_eq_zero, hs.length]
      omega
    have hv := valid_of_status hst
    have hse : statusEmpty (slotAt r g.head).word = false := by
      rw [statusEmpty, decide_eq_false_iff_not, hst]
      decide
    refine ⟨{ r with head := r.head + 1 }.wake (r.head &&& r.mask) (token r.head + r.mask + 1),
      ?_, ?_⟩
    · rw [pop_of_lt hs hh]
      simp only [tryPop, hs.head]
      simp only [slotAt] at ht hse hv
      simp [ticketMismatch, ht, hse, hv, getValue]
      rfl
    · rw [pop_of_lt hs hh]
      simp only [Counts.next, hne, Bool.false_eq_true, if_false]
      exact hs.pop hh
  · have hle : g.last ≤ g.head := by omega
    have hse : statusEmpty (r.ring (r.head &&& r.mask)).word = true := by
      rw [hs.head]
      exact hs.slot_drained hle
    have he : q.items.isEmpty = true := by
      rw [List.isEmpty_iff_length_eq_zero, hs.length]
      omega
    have hp : r.isPastLast r.head = q.closed := by
      cases hc : q.closed with
      | false => exact isPastLast_of_open ((hs.open_iff).mpr hc) _
      | true =>
        rw [hs.head, hs.isPastLast_eq hc (hwin hc) (by omega), decide_eq_true_iff]
        exact hle
    refine ⟨r, ?_, ?_⟩
    · rw [pop_of_le hs hle]
      simp only [tryPop, hse, Bool.or_true, if_true, hp]
    · rw [pop_of_le hs hle]
      simp only [Counts.next, he, if_true]
      exact hs

theorem isClosed_eq (hs : Sim r q g) : r.isClosed = q.closed := by
  rcases hs.state with ⟨hr, hq, -⟩ | ⟨hr, hq, -⟩ <;> simp [isClosed, hr, hq]

theorem isEmpty_eq (hs : Sim r q g) (ho : q.closed = false) (hsmall : q.capacity < 2 ^ 31) :
    r.isEmpty = q.items.isEmpty := by
  obtain ⟨-, hhl, htl⟩ := hs.of_open ho
  have hroom := hs.room
  have hx : (UInt32.ofNat g.last - UInt32.ofNat g.head).toNat = g.last - g.head := by
    rw [UInt32.toNat_sub, UInt32.toNat_ofNat', UInt32.toNat_ofNat']
    omega
  rw [isEmpty, hs.tail, hs.head, htl, Bool.eq_iff_iff, decide_eq_true_iff,
    FixedWidth.toInt32_nonpos_iff, FixedWidth.toNat_eq_zero, hx,
    List.isEmpty_iff_length_eq_zero, hs.length]
  omega

theorem isFull_eq (hs : Sim r q g) (ho : q.closed = false) :
    r.isFull = (q.items.length == q.capacity) := by
  obtain ⟨-, hhl, htl⟩ := hs.of_open ho
  have hroom := hs.room
  have hcap := hs.capacity
  have hm := size_toNat hs.valid
  have hx : (UInt32.ofNat g.last - UInt32.ofNat g.head).toNat = g.last - g.head := by
    have h31 := hs.capacity_le
    rw [UInt32.toNat_sub, UInt32.toNat_ofNat', UInt32.toNat_ofNat']
    omega
  show decide (r.mask < r.tail - r.head) = _
  rw [hs.tail, hs.head, htl, Bool.eq_iff_iff, decide_eq_true_iff, beq_iff_eq,
    UInt32.lt_iff_toNat_lt, hx, hs.length]
  omega

/-- One call of the ring against the reference: it waits for good where the reference blocks,
and otherwise answers as the reference and reaches a state that stands for the reference's. -/
theorem apply_sim {op : Op V β} (hs : Sim r q g) (hop : Supported q.closed op) (hf : 0 < fuel)
    (hsmall : q.capacity < 2 ^ 31)
    (hwin : q.closed = true → g.tail < g.last + 2 ^ 31 ∧ g.head < g.last + 2 ^ 31) :
    (q.Blocks op → r.apply P bo b₀ fuel op = none) ∧
      (¬ q.Blocks op → ∃ r', r.apply P bo b₀ fuel op = some ((q.apply op).1, r') ∧
        Sim r' (q.apply op).2 (g.next q op)) := by
  cases op with
  | waitPush v backoff =>
    refine ⟨fun hb => ?_, fun hnb => ?_⟩
    · have h : r.waitPush P v bo backoff b₀ fuel = none := waitPush_blocks hs hb
      simp [apply, h]
    obtain ⟨r', h, hs'⟩ : ∃ r', r.waitPush P v bo backoff b₀ fuel = some ((q.push v).1, r') ∧ _ :=
      waitPush_sim hs hnb (fun hc => (hwin hc).1) hf
    exact ⟨r', by simp [apply, h, BoundedFifo.apply], hs'⟩
  | tryPush v => exact hop.elim
  | waitPop backoff =>
    refine ⟨fun hb => ?_, fun hnb => ?_⟩
    · have h : r.waitPop P bo backoff b₀ fuel = none := waitPop_blocks hs hb
      simp [apply, h]
    obtain ⟨r', h, hs'⟩ : ∃ r', r.waitPop P bo backoff b₀ fuel = some (q.pop.1, q.pop.2.1, r') ∧ _ :=
      waitPop_sim hs hnb (fun hc => (hwin hc).2) hf
    exact ⟨r', by simp [apply, h, BoundedFifo.apply], hs'⟩
  | tryPop =>
    refine ⟨False.elim, fun _ => ?_⟩
    obtain ⟨r', h, hs'⟩ := tryPop_sim (P := P) hs (fun hc => (hwin hc).2)
    exact ⟨r', by simp [apply, h, BoundedFifo.apply], hs'⟩
  | close => exact ⟨False.elim, fun _ => ⟨_, rfl, hs.close hop P.slot⟩⟩
  | isEmpty =>
    exact ⟨False.elim, fun _ => ⟨r, by simp [apply, BoundedFifo.apply, isEmpty_eq hs hop hsmall], hs⟩⟩
  | isFull =>
    exact ⟨False.elim, fun _ => ⟨r, by simp [apply, BoundedFifo.apply, isFull_eq hs hop], hs⟩⟩
  | isClosed =>
    exact ⟨False.elim, fun _ => ⟨r, by simp [apply, BoundedFifo.apply, isClosed_eq hs], hs⟩⟩

end Calls

/-! ## Runs -/

section Runs

variable {q : BoundedFifo V} {g : Counts}

theorem past_next (hc : q.closed = true) {op : Op V β} (hop : Supported true op) :
    (g.next q op).past ≤ g.past + 1 := by
  cases op <;> simp only [Counts.next, Counts.past, hc, if_true] <;> (try split_ifs) <;>
    first | ((try dsimp only); omega) | exact hop.elim | (simp only [Supported] at hop; cases hop)

theorem past_close {r : BoundedRing V} (hs : Sim r q g) (ho : q.closed = false) :
    (g.next q (.close : Op V β)).past = q.capacity := by
  obtain ⟨-, hhl, -⟩ := hs.of_open ho
  simp only [Counts.next, Counts.past]
  omega

/-- The ring's calls against the reference's over a whole list of calls, by induction on it: the
state relation carries from call to call, and the window after `close` holds because each call
takes at most one position past `last_`. -/
theorem run_sim {r : BoundedRing V} {P : Policy} {bo : β → Bool × β} {b₀ : β} {fuel : ℕ}
    (hs : Sim r q g) (hf : 0 < fuel) (hsmall : q.capacity < 2 ^ 31) (ops : List (Op V β))
    (hA : ∀ op ∈ ops, Supported q.closed op)
    (hC : ∀ pre post, ops = pre ++ .close :: post →
      (∀ op ∈ post, Supported true op) ∧ post.length + q.capacity < 2 ^ 31)
    (hW : q.closed = true → g.past + ops.length < 2 ^ 31) :
    (r.run P bo b₀ fuel ops).map Prod.fst = (q.waitRun ops).map Prod.fst := by
  induction ops generalizing r q g with
  | nil => rfl
  | cons op ops ih =>
    have hwin : q.closed = true → g.tail < g.last + 2 ^ 31 ∧ g.head < g.last + 2 ^ 31 := by
      intro hc
      have := hW hc
      simp only [Counts.past, List.length_cons] at this
      omega
    have hop := hA op List.mem_cons_self
    obtain ⟨hblock, hstep⟩ : (q.Blocks op → r.apply P bo b₀ fuel op = none) ∧ _ :=
      apply_sim hs hop hf hsmall hwin
    by_cases hb : q.Blocks op
    · simp [run, BoundedFifo.waitRun, hblock hb, hb]
    obtain ⟨r', hr', hs'⟩ := hstep hb
    simp only [run, hr', BoundedFifo.waitRun, if_neg hb]
    rw [map_fst_cons, map_fst_cons]
    congr 1
    refine ih hs' (by rwa [BoundedFifo.apply_capacity]) ?_ ?_ ?_
    · by_cases hcl : op = .close
      · -- the call is the close: what follows it is what may follow a close
        subst hcl
        exact (hC [] ops rfl).1
      · rw [BoundedFifo.apply_closed_of_ne q hcl]
        exact fun op' hop' => hA op' (List.mem_cons_of_mem _ hop')
    · intro pre post h
      rw [BoundedFifo.apply_capacity]
      by_cases hcl : op = .close
      · subst hcl
        have hclose := (hC [] ops rfl).1 .close (by rw [h]; simp)
        simp only [Supported] at hclose
        cases hclose
      · exact hC (op :: pre) post (by rw [h]; rfl)
    · intro hc'
      by_cases hcl : op = .close
      · subst hcl
        have ho : q.closed = false := hop
        rw [past_close hs ho]
        have := (hC [] ops rfl).2
        omega
      · rw [BoundedFifo.apply_closed_of_ne q hcl] at hc'
        have h1 := past_next (g := g) hc' (hc' ▸ hop)
        have h2 := hW hc'
        simp only [List.length_cons] at h2
        omega

end Runs

/-- The ring refines the reference bounded queue for one thread. Take any size that `create`
accepts below `2 ^ 31`, any slot class and counters, any back-off and any fuel, and any list of
calls with no `try_push` in which a `close` is followed only by `wait_push`, `wait_pop`,
`try_pop` and `is_closed`, fewer than `2 ^ 31` less the size of them. Then the constructor's ring
answers the calls as the reference queue does, and a waiting call returns exactly where the
reference does not block. -/
theorem ring_refines_reference [Inhabited V] {size : CountT} (hsize : create size = .ok ())
    (hsmall : size.toNat < 2 ^ 31) (P : Policy) (bo : β → Bool × β) (b₀ : β) {fuel : ℕ}
    (hfuel : 0 < fuel) {ops : List (Op V β)} (hops : ∀ op ∈ ops, Supported false op)
    (hclose : ∀ pre post, ops = pre ++ .close :: post →
      (∀ op ∈ post, Supported true op) ∧ post.length + size.toNat < 2 ^ 31) :
    ((init size : BoundedRing V).run P bo b₀ fuel ops).map Prod.fst =
      ((BoundedFifo.empty size.toNat : BoundedFifo V).waitRun ops).map Prod.fst :=
  run_sim (sim_init (create_ok_iff.mp hsize)) hfuel hsmall ops hops hclose
    (fun h => absurd h (by simp [BoundedFifo.empty]))

/-- A ring of 16 futex slots: a push, a close, then two waiting pops, the first of which gets
the value and the second `closed`. -/
theorem ring_refines_reference_close :
    create 16 = .ok () ∧ (16 : CountT).toNat < 2 ^ 31 ∧ 0 < 1 ∧
      (∀ op ∈ ([.waitPush 7 none, .close, .waitPop none, .waitPop none] : List (Op ℕ Unit)),
        Supported false op) ∧
      (∀ pre post, ([.waitPush 7 none, .close, .waitPop none, .waitPop none] : List (Op ℕ Unit)) =
        pre ++ .close :: post → (∀ op ∈ post, Supported true op) ∧ post.length + 16 < 2 ^ 31) ∧
      ((init 16 : BoundedRing ℕ).run ⟨.futex, .atomicCounter, .atomicCounter⟩
        (fun b : Unit => (true, b)) () 1
        [.waitPush 7 none, .close, .waitPop none, .waitPop none]).map Prod.fst =
        some [.status .success, .done, .popped .success (some 7), .popped .closed none] := by
  have hclose : ∀ pre post, ([.waitPush 7 none, .close, .waitPop none, .waitPop none] :
      List (Op ℕ Unit)) = pre ++ .close :: post →
      (∀ op ∈ post, Supported true op) ∧ post.length + 16 < 2 ^ 31 := by
    intro pre post h
    rcases pre with _ | ⟨a, _ | ⟨b, pre⟩⟩
    · simp at h
    · simp only [List.nil_append, List.cons_append, List.cons.injEq] at h
      rw [← h.2.2]
      decide
    · simp only [List.cons_append, List.cons.injEq] at h
      have hmem : Op.close ∈ ([.waitPop none, .waitPop none] : List (Op ℕ Unit)) := by
        rw [h.2.2]
        simp
      simp at hmem
  refine ⟨rfl, by decide, Nat.one_pos, by decide, hclose, ?_⟩
  rw [ring_refines_reference rfl (by decide) _ _ _ Nat.one_pos (by decide) hclose]
  decide

end BoundedQueueRefinement
