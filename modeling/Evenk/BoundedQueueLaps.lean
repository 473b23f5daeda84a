import Evenk.BoundedQueueSequential

/-!
# The laps of a slot

For every size `create` accepts, `token + mask_ + 1` is the token one lap on, the constructor
starts each slot at its first lap, and within one slot a token names one count: the ticket test
of the waiting loops holds for the caller's own lap and no other.
-/
namespace BoundedQueueLaps

open BoundedQueue BoundedQueueRing BoundedQueueSequential

theorem ticket_test_iff {size : CountT} (h : ValidSize size) {c c' f : CountT}
    (hf : f.toNat < 2 ^ 4) (hslot : c &&& (size - 1) = c' &&& (size - 1)) :
    (token c' ||| f) &&& ticketMask = token c ↔ c' = c := by
  have hmod : c'.toNat % size.toNat = c.toNat % size.toNat := by
    rw [← h.toNat_slot, ← h.toNat_slot, hslot]
  rw [ticket_token_or c' hf]
  exact token_inj h hmod

theorem init_word {V : Type} [Inhabited V] (size i : CountT) :
    ((BoundedRing.init (V := V) size).ring i).word = token i := rfl

/-- For every size `create` accepts and all counts: a token has the four flag bits clear,
adding the size moves it one lap on, the constructor's words are the tokens of the first
lap, and two counts of one slot share a token only if they are equal, so that the slot test
matches the caller's own lap. -/
theorem token_encoding_sound {V : Type} [Inhabited V] {size : CountT}
    (hsize : create size = .ok ()) (c c' : CountT) :
    (token c &&& statusValid = 0 ∧ token c &&& statusInvalid = 0 ∧
      token c &&& statusWaiting = 0 ∧ token c &&& statusClosed = 0) ∧
    token c + size = token (c + size) ∧
    (∀ i, i < size → ((BoundedRing.init (V := V) size).ring i).word = token i) ∧
    (c.toNat % size.toNat = c'.toNat % size.toNat → (token c = token c' ↔ c = c')) ∧
    (∀ f : CountT, f.toNat < 2 ^ 4 → c &&& (size - 1) = c' &&& (size - 1) →
      ((token c' ||| f) &&& ticketMask = token c ↔ c' = c)) := by
  have h := create_ok_iff.mp hsize
  refine ⟨⟨?_, ?_, ?_, ?_⟩, token_add_size h c, fun i _ => init_word size i,
    token_inj h, fun f hf hslot => ticket_test_iff h hf hslot⟩
  all_goals exact token_and_flag c (by decide)

theorem token_encoding_sound_sixteen :
    create 16 = .ok () ∧
    (token 0 &&& statusValid = 0 ∧ token 0 &&& statusInvalid = 0 ∧
      token 0 &&& statusWaiting = 0 ∧ token 0 &&& statusClosed = 0) ∧
    token 0 + 16 = token (0 + 16) ∧
    (∀ i, i < 16 → ((BoundedRing.init (V := Unit) 16).ring i).word = token i) ∧
    ((0 : CountT).toNat % (16 : CountT).toNat = (16 : CountT).toNat % (16 : CountT).toNat →
      (token 0 = token 16 ↔ (0 : CountT) = 16)) ∧
    (∀ f : CountT, f.toNat < 2 ^ 4 → (0 : CountT) &&& (16 - 1) = 16 &&& (16 - 1) →
      ((token 16 ||| f) &&& ticketMask = token 0 ↔ (16 : CountT) = 0)) :=
  have hsize : create 16 = .ok () := rfl
  ⟨hsize, token_encoding_sound hsize 0 16⟩

end BoundedQueueLaps
