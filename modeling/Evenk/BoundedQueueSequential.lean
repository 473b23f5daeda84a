import Evenk.BoundedQueueRing

/-!
# The ring used one call at a time

`create` accepts exactly the powers of two from 16 to `2 ^ 31`. The guard of `close` compares
the flag with `closing`, a value it never holds, so every call of `close` moves `tail_` and
overwrites `last_`; after a second close a `wait_pop` that draws ticket `0` waits for good, where
the reference queue answers `closed`.
-/
namespace BoundedQueueSequential

open BoundedQueue BoundedQueueRing QueueSpec BoundedRing

variable {V β : Type}

theorem create_ok_iff {size : CountT} : create size = .ok () ↔ ValidSize size := by
  unfold create ValidSize
  by_cases h1 : size < minSize
  · have : ¬ minSize ≤ size := fun h => absurd h1 (UInt32.not_lt.mpr h)
    simp [h1, this]
  · have : minSize ≤ size := UInt32.not_lt.mp h1
    by_cases h2 : size &&& (size - 1) = 0 <;> simp [h1, h2, this]

/-- `create` accepts exactly the powers of two from `16` to `2 ^ 31`, and each refusal names the
check that failed. The first message is built as `"... at least" + std::to_string(min_size)`,
with no space before the number. -/
theorem create_refusals (size : CountT) :
    (create size = .ok () ↔ ∃ k, 4 ≤ k ∧ k < 32 ∧ size.toNat = 2 ^ k) ∧
      (size.toNat < 16 → create size = .error "bounded_queue size must be at least16") ∧
      (16 ≤ size.toNat → (∀ k, size.toNat ≠ 2 ^ k) →
        create size = .error "bounded_queue size must be a power of two") := by
  refine ⟨create_ok_iff.trans (validSize_iff_pow size), fun hlt => ?_, fun hle hpow => ?_⟩
  · rw [create, if_pos (UInt32.lt_iff_toNat_lt.mpr hlt)]
    rfl
  · have hmin : minSize ≤ size := UInt32.le_iff_toNat_le.mpr hle
    have hmask : size &&& (size - 1) ≠ 0 := fun h => by
      obtain ⟨k, -, -, hk⟩ := (validSize_iff_pow size).mp ⟨hmin, h⟩
      exact hpow k hk
    rw [create, if_neg (UInt32.not_lt.mpr hmin), if_pos hmask]

/-- Eight is refused as too small, with the number run into the text, and twenty-four as no
power of two. -/
theorem create_refusals_small :
    ((8 : CountT).toNat < 16 ∧ create 8 = .error "bounded_queue size must be at least16") ∧
      (16 ≤ (24 : CountT).toNat ∧ (∀ k, (24 : CountT).toNat ≠ 2 ^ k) ∧
        create 24 = .error "bounded_queue size must be a power of two") := by
  have h24 : ∀ k, (24 : CountT).toNat ≠ 2 ^ k := fun k hk =>
    absurd ((FixedWidth.and_pred_eq_zero_iff (x := 24) (by decide)).mpr ⟨k, hk⟩) (by decide)
  exact ⟨⟨by decide, (create_refusals 8).2.1 (by decide)⟩,
    ⟨by decide, h24, (create_refusals 24).2.2 (by decide) h24⟩⟩

theorem new_ok [Inhabited V] {size : CountT} {r : BoundedRing V}
    (h : BoundedRing.new size = .ok r) : ValidSize size ∧ r = init size := by
  unfold BoundedRing.new at h
  cases hc : create size with
  | error e => rw [hc] at h; cases h
  | ok u =>
    rw [hc] at h
    cases h
    exact ⟨create_ok_iff.mp hc, rfl⟩

@[simp] theorem tryIncrement_self (k : CounterKind) (c : CountT) :
    tryIncrement k c c = some (c + 1) := by
  cases k <;> simp [tryIncrement]

theorem tryIncrement_some {k : CounterKind} {current count c : CountT}
    (h : tryIncrement k current count = some c) : c = count + 1 := by
  cases k with
  | counter => simp only [tryIncrement, Option.some.injEq] at h; exact h.symm
  | atomicCounter =>
    simp only [tryIncrement] at h
    split_ifs at h
    exact (Option.some.inj h).symm

@[simp] theorem setWord_ring_ne (r : BoundedRing V) {i j : CountT} (t : TokenT) (h : j ≠ i) :
    (r.setWord i t).ring j = r.ring j := by
  simp [setWord, h]

@[simp] theorem setWord_tail (r : BoundedRing V) (i : CountT) (t : TokenT) :
    (r.setWord i t).tail = r.tail := rfl

@[simp] theorem setWord_head (r : BoundedRing V) (i : CountT) (t : TokenT) :
    (r.setWord i t).head = r.head := rfl

@[simp] theorem setWord_last (r : BoundedRing V) (i : CountT) (t : TokenT) :
    (r.setWord i t).last = r.last := rfl

@[simp] theorem setWord_closed (r : BoundedRing V) (i : CountT) (t : TokenT) :
    (r.setWord i t).closed = r.closed := rfl

@[simp] theorem setWord_mask (r : BoundedRing V) (i : CountT) (t : TokenT) :
    (r.setWord i t).mask = r.mask := rfl

theorem slot_zero {size : CountT} (h : ValidSize size) : (0 : CountT) &&& (size - 1) = 0 := by
  apply UInt32.toNat_inj.mp
  rw [h.toNat_slot]
  rfl

theorem slotClose_and {k : SlotKind} {w m : TokenT} (hm : statusClosed &&& m = 0) :
    slotClose k w &&& m = w &&& m := by
  cases k
  · rfl
  · rfl
  · exact or_flag_and hm
  · exact or_flag_and hm

theorem slotWait_self (k : SlotKind) (w : TokenT) :
    slotWait k w w = some w ∨ slotWait k w w = none := by
  cases k <;> simp [slotWait]

theorem foldl_closeSlot (k : SlotKind) (Q : BoundedRing V → Prop)
    (hQ : ∀ r i, Q r → Q (r.closeSlot k i)) (l : List ℕ) (r : BoundedRing V) (h : Q r) :
    Q (l.foldl (fun r i => r.closeSlot k ((r.last + UInt32.ofNat i) &&& r.mask)) r) := by
  induction l generalizing r with
  | nil => exact h
  | cons i l ih => exact ih _ (hQ _ _ h)

theorem close_fields {r : BoundedRing V} (k : SlotKind) (h : r.closed ≠ .closing) :
    (r.close k).last = r.tail ∧ (r.close k).tail = r.tail + (r.mask + 1) ∧
      (r.close k).closed = .closed ∧ (r.close k).head = r.head ∧ (r.close k).mask = r.mask := by
  simp only [close, h, if_false]
  apply foldl_closeSlot k (fun r' => r'.last = r.tail ∧ r'.tail = r.tail + (r.mask + 1) ∧
    r'.closed = .closed ∧ r'.head = r.head ∧ r'.mask = r.mask)
  · intro r' i h'
    exact h'
  · exact ⟨rfl, rfl, rfl, rfl, rfl⟩

theorem close_reads (k : SlotKind) (r : BoundedRing V) (j : CountT) :
    ((r.close k).ring j).word &&& ticketMask = (r.ring j).word &&& ticketMask ∧
      ((r.close k).ring j).word &&& statusMask = (r.ring j).word &&& statusMask := by
  unfold close
  split_ifs
  · exact ⟨rfl, rfl⟩
  · apply foldl_closeSlot k (fun r' => ((r'.ring j).word &&& ticketMask =
      (r.ring j).word &&& ticketMask ∧ (r'.ring j).word &&& statusMask =
      (r.ring j).word &&& statusMask))
    · intro r' i ⟨ht, hs⟩
      by_cases hj : j = i
      · subst hj
        simp only [closeSlot, setWord, Function.update_self]
        exact ⟨(slotClose_and statusClosed_ticket).trans ht,
          (slotClose_and statusClosed_status).trans hs⟩
      · simp only [closeSlot, setWord_ring_ne _ _ hj]
        exact ⟨ht, hs⟩
    · exact ⟨rfl, rfl⟩

theorem waitLoop_stuck {k : SlotKind} {r : BoundedRing V} {i count : CountT}
    {stay : TokenT → Bool} {reload : Bool} {bo : β → Bool × β} {b : β}
    (hs : stay (r.ring i).word = true) (hp : r.isPastLast count = false) (fuel : ℕ) :
    waitLoop k r i count stay reload bo fuel true b (r.ring i).word = none := by
  induction fuel with
  | zero => rfl
  | succ fuel ih =>
    simp only [waitLoop, hs, hp, Bool.not_true, Bool.false_eq_true, if_false, if_true]
    rcases slotWait_self k (r.ring i).word with h | h <;> rw [h]
    exact ih

/-- The fields that only `close` writes. -/
def Frame (r r' : BoundedRing V) : Prop :=
  r'.closed = r.closed ∧ r'.last = r.last ∧ r'.mask = r.mask

theorem Frame.trans {r r' r'' : BoundedRing V} (h : Frame r r') (h' : Frame r' r'') :
    Frame r r'' :=
  ⟨h'.1.trans h.1, h'.2.1.trans h.2.1, h'.2.2.trans h.2.2⟩

@[simp] theorem frame_counters (r : BoundedRing V) (h t : CountT) :
    Frame r { r with head := h, tail := t } := ⟨rfl, rfl, rfl⟩

@[simp] theorem frame_wake (r : BoundedRing V) (i t : TokenT) : Frame r (r.wake i t) :=
  ⟨rfl, rfl, rfl⟩

@[simp] theorem frame_putValue (r : BoundedRing V) (i t : TokenT) (v : V) :
    Frame r (r.putValue i t v) := ⟨rfl, rfl, rfl⟩

theorem tryPush_frame (P : Policy) (r : BoundedRing V) (v : V) : Frame r (r.tryPush P v).2 := by
  simp only [tryPush]
  split_ifs <;> (try split) <;> exact ⟨rfl, rfl, rfl⟩

theorem tryPop_frame (P : Policy) (r : BoundedRing V) : Frame r (r.tryPop P).2.2 := by
  simp only [tryPop]
  split_ifs <;> (try split) <;> exact ⟨rfl, rfl, rfl⟩

theorem waitPush_frame {P : Policy} {r r' : BoundedRing V} {v : V} {bo : β → Bool × β}
    {backoff : Option β} {b₀ : β} {fuel : ℕ} {s : QueueOpStatus}
    (h : r.waitPush P v bo backoff b₀ fuel = some (s, r')) : Frame r r' := by
  simp only [waitPush] at h
  split at h
  · cases h; exact ⟨rfl, rfl, rfl⟩
  · cases h; exact ⟨rfl, rfl, rfl⟩
  · cases h

theorem waitPopLoop_frame {P : Policy} {bo : β → Bool × β} {backoff : Option β} {b₀ : β}
    (fuel : ℕ) {r r' : BoundedRing V} {s : QueueOpStatus} {v : Option V}
    (h : waitPopLoop P bo backoff b₀ fuel r = some (s, v, r')) : Frame r r' := by
  induction fuel generalizing r with
  | zero => cases h
  | succ fuel ih =>
    simp only [waitPopLoop] at h
    split at h
    · cases h; exact ⟨rfl, rfl, rfl⟩
    · refine Frame.trans ?_ (ih h)
      exact ⟨rfl, rfl, rfl⟩
    · cases h; exact ⟨rfl, rfl, rfl⟩
    · cases h

theorem waitPop_frame {P : Policy} {bo : β → Bool × β} {backoff : Option β} {b₀ : β}
    (fuel : ℕ) {r r' : BoundedRing V} {s : QueueOpStatus} {v : Option V}
    (h : r.waitPop P bo backoff b₀ fuel = some (s, v, r')) : Frame r r' :=
  waitPopLoop_frame fuel h

theorem apply_closed_ne_closing {P : Policy} {bo : β → Bool × β} {b₀ : β} {fuel : ℕ}
    {r r' : BoundedRing V} {op : Op V β} {a : Answer V} (hc : r.closed ≠ .closing)
    (h : r.apply P bo b₀ fuel op = some (a, r')) : r'.closed ≠ .closing := by
  cases op with
  | waitPush v backoff =>
    simp only [apply, Option.map_eq_some_iff] at h
    obtain ⟨⟨s, r''⟩, hw, he⟩ := h
    cases he
    rw [(waitPush_frame hw).1]; exact hc
  | tryPush v =>
    simp only [apply, Option.some.injEq, Prod.mk.injEq] at h
    rw [← h.2, (tryPush_frame P r v).1]; exact hc
  | waitPop backoff =>
    simp only [apply, Option.map_eq_some_iff] at h
    obtain ⟨⟨s, v, r''⟩, hw, he⟩ := h
    cases he
    rw [(waitPop_frame fuel hw).1]; exact hc
  | tryPop =>
    simp only [apply, Option.some.injEq, Prod.mk.injEq] at h
    rw [← h.2, (tryPop_frame P r).1]; exact hc
  | close =>
    simp only [apply, Option.some.injEq, Prod.mk.injEq] at h
    rw [← h.2, (close_fields P.slot hc).2.2.1]; decide
  | isEmpty | isFull | isClosed =>
    simp only [apply, Option.some.injEq, Prod.mk.injEq] at h
    rw [← h.2]; exact hc

theorem run_closed_ne_closing {P : Policy} {bo : β → Bool × β} {b₀ : β} {fuel : ℕ}
    (ops : List (Op V β)) {r r' : BoundedRing V} {as : List (Answer V)}
    (hc : r.closed ≠ .closing) (h : r.run P bo b₀ fuel ops = some (as, r')) :
    r'.closed ≠ .closing := by
  induction ops generalizing r as with
  | nil => simp only [run, Option.some.injEq, Prod.mk.injEq] at h; rw [← h.2]; exact hc
  | cons op ops ih =>
    simp only [run] at h
    split at h
    · rename_i a r'' ha
      simp only [Option.map_eq_some_iff] at h
      obtain ⟨⟨as', r'''⟩, hr, he⟩ := h
      cases he
      exact ih (apply_closed_ne_closing hc ha) hr
    · cases h

/-- On a ring built by the constructor, after any calls, a call of `close` passes the guard
and moves `tail_` and `last_`: every call does, not only the first. -/
theorem every_close_reserves_lap [Inhabited V] {size : CountT} {r r' : BoundedRing V}
    (hr : BoundedRing.new size = .ok r) {P : Policy} {bo : β → Bool × β} {b₀ : β} {fuel : ℕ}
    {ops : List (Op V β)} {as : List (Answer V)} (h : r.run P bo b₀ fuel ops = some (as, r')) :
    (r'.close P.slot).last = r'.tail ∧ (r'.close P.slot).closed = .closed := by
  have hc : r.closed ≠ .closing := by rw [(new_ok hr).2]; simp [init]
  have hc' := run_closed_ne_closing ops hc h
  exact ⟨(close_fields P.slot hc').1, (close_fields P.slot hc').2.2.1⟩

theorem waitLoop_exit {k : SlotKind} {r : BoundedRing V} {i count : CountT}
    {stay : TokenT → Bool} {reload : Bool} {bo : β → Bool × β} {waiting : Bool} {b : β}
    {t : TokenT} (hs : stay t = false) (fuel : ℕ) :
    waitLoop k r i count stay reload bo (fuel + 1) waiting b t = some (.done waiting b t) := by
  simp [waitLoop, hs]

theorem waitHead_stuck {k : SlotKind} {r : BoundedRing V} {i count token : CountT}
    {bo : β → Bool × β} {b₀ : β} (ht : (r.ring i).word &&& ticketMask = token)
    (hs : statusEmpty (r.ring i).word = true) (hp : r.isPastLast count = false) (fuel : ℕ) :
    r.waitHead k i count token bo none b₀ fuel = none := by
  cases fuel with
  | zero => rfl
  | succ fuel =>
    have hm : ticketMismatch token (r.ring i).word = false := by simp [ticketMismatch, ht]
    simp only [waitHead, Option.isNone_none, Option.getD_none]
    rw [waitLoop_exit hm]
    simp only [waitLoop_stuck hs hp]

theorem waitPop_stuck {P : Policy} {bo : β → Bool × β} {b₀ : β} {r : BoundedRing V}
    (ht : (r.ring (r.head &&& r.mask)).word &&& ticketMask = token r.head)
    (hs : statusEmpty (r.ring (r.head &&& r.mask)).word = true)
    (hp : r.isPastLast r.head = false) (fuel : ℕ) :
    r.waitPop P bo none b₀ fuel = none := by
  cases fuel with
  | zero => rfl
  | succ fuel =>
    have h : ({ r with head := r.head + 1 } : BoundedRing V).waitHead P.slot (r.head &&& r.mask)
        r.head (token r.head) bo none b₀ (fuel + 1) = none :=
      waitHead_stuck (r := { r with head := r.head + 1 }) ht hs hp (fuel + 1)
    simp only [waitPop, waitPopLoop, h]

theorem close_close_init [Inhabited V] (k : SlotKind) (size : CountT) {r : BoundedRing V}
    (hr : r = ((init size : BoundedRing V).close k).close k) :
    r.last = size ∧ r.closed = .closed ∧ r.head = 0 ∧ r.mask = size - 1 ∧
      (r.ring 0).word &&& ticketMask = 0 ∧ (r.ring 0).word &&& statusMask = 0 := by
  have hc₀ : (init size : BoundedRing V).closed ≠ .closing := by simp [init]
  obtain ⟨-, ht₁, hcl₁, hh₁, hm₁⟩ := close_fields k hc₀
  obtain ⟨hl₂, -, hcl₂, hh₂, hm₂⟩ := close_fields k (by rw [hcl₁]; decide)
  obtain ⟨a₁, b₁⟩ := close_reads k (init size : BoundedRing V) 0
  obtain ⟨a₂, b₂⟩ := close_reads k ((init size : BoundedRing V).close k) 0
  subst hr
  refine ⟨?_, hcl₂, by rw [hh₂, hh₁]; rfl, by rw [hm₂, hm₁]; rfl, ?_, ?_⟩
  · rw [hl₂, ht₁]
    simp [init]
  · rw [a₂, a₁]; simp [init]
  · rw [b₂, b₁]; simp [init]

/-- After two calls of `close` on a fresh ring of fewer than `2 ^ 31` slots, a `wait_pop`
draws ticket `0`, which the second close has put before `last_`, and waits for good on its
empty slot. At `2 ^ 31` slots the signed difference wraps and the pop is answered `closed`. -/
theorem close_close_waitPop_stuck [Inhabited V] {size : CountT} (hv : ValidSize size)
    (hsmall : size.toNat < 2 ^ 31) (P : Policy) (bo : β → Bool × β) (b₀ : β) (fuel : ℕ) :
    (((init size : BoundedRing V).close P.slot).close P.slot).waitPop P bo none b₀ fuel = none := by
  obtain ⟨hlast, hcl, hhead, hmask, ht, hs⟩ := close_close_init (V := V) P.slot size rfl
  have hslot : (((init size : BoundedRing V).close P.slot).close P.slot).head &&&
      (((init size : BoundedRing V).close P.slot).close P.slot).mask = 0 := by
    rw [hhead, hmask]; exact slot_zero hv
  have hne : size ≠ 0 := fun h => absurd (h ▸ hv.pos) (by decide)
  apply waitPop_stuck
  · rw [hslot, ht, hhead]; rfl
  · simp only [statusEmpty, hslot, hs]; rfl
  · -- `last_ - 0` is the size, neither zero nor past `2 ^ 31`
    simp only [isPastLast, hcl, hlast, hhead, ne_eq, not_true_eq_false, if_false,
      UInt32.sub_zero, decide_eq_false_iff_not, FixedWidth.toInt32_nonpos_iff, not_or]
    exact ⟨hne, by omega⟩

/-- On a fresh ring of every size `create` accepts below `2 ^ 31`, with every slot class and
counter combination, `close(); close(); wait_pop()` does not return, while the reference
queue does not block on the pop and answers it `closed`. -/
theorem double_close_breaks_refinement [Inhabited V] {size : CountT}
    (hc : create size = .ok ()) (hsmall : size.toNat < 2 ^ 31) (P : Policy)
    (bo : β → Bool × β) (b₀ : β) (fuel : ℕ) :
    ∃ r : BoundedRing V, BoundedRing.new size = .ok r ∧
      r.run P bo b₀ fuel [.close, .close, .waitPop none] = none ∧
      (BoundedFifo.empty size.toNat : BoundedFifo V).waitRun
          ([.close, .close, .waitPop none] : List (Op V β)) =
        some ([.done, .done, .popped .closed none], (BoundedFifo.empty size.toNat).close.close) := by
  have hv := create_ok_iff.mp hc
  have hr : (BoundedRing.new size : Except String (BoundedRing V)) = .ok (init size) := by
    simp [BoundedRing.new, hc]
  refine ⟨init size, hr, ?_, ?_⟩
  · simp [run, apply, close_close_waitPop_stuck hv hsmall P bo b₀ fuel]
  · simp [BoundedFifo.waitRun, BoundedFifo.Blocks, BoundedFifo.apply, BoundedFifo.close,
      BoundedFifo.pop, BoundedFifo.empty]

theorem double_close_breaks_refinement_sixteen :
    create 16 = .ok () ∧ (16 : CountT).toNat < 2 ^ 31 ∧
      ∃ r : BoundedRing ℕ, BoundedRing.new 16 = .ok r ∧
        r.run ⟨.futex, .atomicCounter, .atomicCounter⟩ (fun b : Unit => (true, b)) () 100
          [.close, .close, .waitPop none] = none ∧
        (BoundedFifo.empty (16 : CountT).toNat : BoundedFifo ℕ).waitRun
            ([.close, .close, .waitPop none] : List (Op ℕ Unit)) =
          some ([.done, .done, .popped .closed none],
            (BoundedFifo.empty (16 : CountT).toNat).close.close) :=
  ⟨rfl, by decide, double_close_breaks_refinement rfl (by decide) _ _ () 100⟩

/-- The failing input of `close`: on a fresh ring of 16 slots, the first `close` records
`last_ = 0`, the second moves it to `16`, and a `wait_pop` after them, whose ticket `0` the
first close had placed past the last producer, waits for good; the reference answers
`closed`. -/
theorem second_close_strands_pop (P : Policy) (fuel : ℕ) :
    ∃ r : BoundedRing ℕ, BoundedRing.new 16 = .ok r ∧
      (r.run P (fun b : Unit => (true, b)) () fuel [.close]).map (fun x => x.2.last) = some 0 ∧
      (r.run P (fun b : Unit => (true, b)) () fuel [.close, .close]).map (fun x => x.2.last) =
        some 16 ∧
      r.run P (fun b : Unit => (true, b)) () fuel [.close, .close, .waitPop none] = none ∧
      ((BoundedFifo.empty 16 : BoundedFifo ℕ).run
        ([.close, .close, .waitPop none] : List (Op ℕ Unit))).1 =
        [.done, .done, .popped .closed none] := by
  have hr : (BoundedRing.new 16 : Except String (BoundedRing ℕ)) = .ok (init 16) := rfl
  have hl₁ := (close_fields P.slot (r := (init 16 : BoundedRing ℕ)) (by decide)).1
  have hl₂ := (close_close_init (V := ℕ) P.slot 16 rfl).1
  have hwait := close_close_waitPop_stuck (V := ℕ) (show ValidSize 16 by decide) (by decide) P
    (fun b : Unit => (true, b)) () fuel
  refine ⟨init 16, hr, ?_, ?_, ?_, ?_⟩
  · simp [run, apply, hl₁]; rfl
  · simp [run, apply, hl₂]
  · simp [run, apply, hwait]
  · simp [BoundedFifo.run, BoundedFifo.apply, BoundedFifo.close, BoundedFifo.pop,
      BoundedFifo.empty]

end BoundedQueueSequential
