import Mathlib.Data.Finset.Card
import Mathlib.Logic.Function.Basic

/-!
# Admission by tickets in two modes

What `shared_ticket_lock` is for, without its words. Exclusive tickets are served in the order
drawn and each alone; a shared ticket is served once every exclusive ticket before it is
released. `Counting` keeps this order, so no earlier ticket is in play while one is served.
-/
namespace SharedTickets

/-- A number of exclusive and a number of shared tickets. -/
@[ext] structure Counts where
  exclusive : ℕ
  shared : ℕ
  deriving DecidableEq, Repr

namespace Counts

def addExclusive (c : Counts) : Counts := ⟨c.exclusive + 1, c.shared⟩

def addShared (c : Counts) : Counts := ⟨c.exclusive, c.shared + 1⟩

instance : LE Counts := ⟨fun a b => a.exclusive ≤ b.exclusive ∧ a.shared ≤ b.shared⟩

theorem le_refl (a : Counts) : a ≤ a := ⟨Nat.le_refl _, Nat.le_refl _⟩

theorem le_trans {a b c : Counts} (hab : a ≤ b) (hbc : b ≤ c) : a ≤ c :=
  ⟨hab.1.trans hbc.1, hab.2.trans hbc.2⟩

theorem le_addExclusive (a : Counts) : a ≤ a.addExclusive := ⟨Nat.le_succ _, Nat.le_refl _⟩

theorem le_addShared (a : Counts) : a ≤ a.addShared := ⟨Nat.le_refl _, Nat.le_succ _⟩

@[simp] theorem addExclusive_exclusive (c : Counts) : c.addExclusive.exclusive = c.exclusive + 1 :=
  rfl
@[simp] theorem addExclusive_shared (c : Counts) : c.addExclusive.shared = c.shared := rfl
@[simp] theorem addShared_exclusive (c : Counts) : c.addShared.exclusive = c.exclusive := rfl
@[simp] theorem addShared_shared (c : Counts) : c.addShared.shared = c.shared + 1 := rfl

/-- `a` was drawn before `b`: every draw adds one to one of the counts, so their sum numbers
the draws. -/
def Before (a b : Counts) : Prop := a.exclusive + a.shared < b.exclusive + b.shared

end Counts

/-- The tickets in play: the threads holding an exclusive and a shared ticket, the tickets they
hold, and the counts of tickets drawn and released so far. -/
structure Tickets (τ : Type) where
  excl : Finset τ
  shrd : Finset τ
  ticket : τ → Counts
  drawn : Counts
  released : Counts

variable {τ : Type} [DecidableEq τ]

namespace Tickets

variable (c : Tickets τ) (t : τ)

def drawExclusive : Tickets τ :=
  { c with
    excl := insert t c.excl, ticket := Function.update c.ticket t c.drawn,
    drawn := c.drawn.addExclusive }

def drawShared : Tickets τ :=
  { c with
    shrd := insert t c.shrd, ticket := Function.update c.ticket t c.drawn,
    drawn := c.drawn.addShared }

def releaseExclusive : Tickets τ :=
  { c with excl := c.excl.erase t, released := c.released.addExclusive }

def releaseShared : Tickets τ :=
  { c with shrd := c.shrd.erase t, released := c.released.addShared }

@[simp] theorem drawExclusive_excl : (c.drawExclusive t).excl = insert t c.excl := rfl
@[simp] theorem drawExclusive_shrd : (c.drawExclusive t).shrd = c.shrd := rfl
@[simp] theorem drawExclusive_ticket :
    (c.drawExclusive t).ticket = Function.update c.ticket t c.drawn := rfl
@[simp] theorem drawExclusive_drawn : (c.drawExclusive t).drawn = c.drawn.addExclusive := rfl
@[simp] theorem drawExclusive_released : (c.drawExclusive t).released = c.released := rfl
@[simp] theorem drawShared_excl : (c.drawShared t).excl = c.excl := rfl
@[simp] theorem drawShared_shrd : (c.drawShared t).shrd = insert t c.shrd := rfl
@[simp] theorem drawShared_ticket :
    (c.drawShared t).ticket = Function.update c.ticket t c.drawn := rfl
@[simp] theorem drawShared_drawn : (c.drawShared t).drawn = c.drawn.addShared := rfl
@[simp] theorem drawShared_released : (c.drawShared t).released = c.released := rfl
@[simp] theorem releaseExclusive_excl : (c.releaseExclusive t).excl = c.excl.erase t := rfl
@[simp] theorem releaseExclusive_shrd : (c.releaseExclusive t).shrd = c.shrd := rfl
@[simp] theorem releaseExclusive_ticket : (c.releaseExclusive t).ticket = c.ticket := rfl
@[simp] theorem releaseExclusive_drawn : (c.releaseExclusive t).drawn = c.drawn := rfl
@[simp] theorem releaseExclusive_released :
    (c.releaseExclusive t).released = c.released.addExclusive := rfl
@[simp] theorem releaseShared_excl : (c.releaseShared t).excl = c.excl := rfl
@[simp] theorem releaseShared_shrd : (c.releaseShared t).shrd = c.shrd.erase t := rfl
@[simp] theorem releaseShared_ticket : (c.releaseShared t).ticket = c.ticket := rfl
@[simp] theorem releaseShared_drawn : (c.releaseShared t).drawn = c.drawn := rfl
@[simp] theorem releaseShared_released :
    (c.releaseShared t).released = c.released.addShared := rfl

/-- The shared tickets in play drawn before the `n`-th shared ticket. -/
def sharedBelow (n : ℕ) : ℕ := (c.shrd.filter fun u => (c.ticket u).shared < n).card

end Tickets

open Tickets

structure Counting (c : Tickets τ) : Prop where
  exclCard : c.excl.card + c.released.exclusive = c.drawn.exclusive
  shrdCard : c.shrd.card + c.released.shared = c.drawn.shared
  exclRange : ∀ t ∈ c.excl, c.released.exclusive ≤ (c.ticket t).exclusive ∧
    (c.ticket t).exclusive < c.drawn.exclusive ∧ (c.ticket t).shared ≤ c.drawn.shared
  shrdRange : ∀ t ∈ c.shrd, c.released.exclusive ≤ (c.ticket t).exclusive ∧
    (c.ticket t).exclusive ≤ c.drawn.exclusive ∧ (c.ticket t).shared < c.drawn.shared
  exclDistinct : ∀ t ∈ c.excl, ∀ u ∈ c.excl,
    (c.ticket t).exclusive = (c.ticket u).exclusive → t = u
  exclOrder : ∀ t ∈ c.excl, ∀ u ∈ c.excl,
    (c.ticket t).exclusive < (c.ticket u).exclusive → (c.ticket t).shared ≤ (c.ticket u).shared
  /-- A shared ticket comes before an exclusive one exactly when it counts fewer exclusive
  tickets before it. -/
  mixedOrder : ∀ t ∈ c.excl, ∀ u ∈ c.shrd,
    ((c.ticket u).shared < (c.ticket t).shared ↔ (c.ticket u).exclusive ≤ (c.ticket t).exclusive)
  sharedBefore : ∀ t ∈ c.excl, c.sharedBelow (c.ticket t).shared + c.released.shared =
    (c.ticket t).shared

omit [DecidableEq τ] in
theorem Counting.empty (f : τ → Counts) : Counting ⟨∅, ∅, f, ⟨0, 0⟩, ⟨0, 0⟩⟩ where
  exclCard := rfl
  shrdCard := rfl
  exclRange t ht := absurd ht (Finset.notMem_empty t)
  shrdRange t ht := absurd ht (Finset.notMem_empty t)
  exclDistinct t ht := absurd ht (Finset.notMem_empty t)
  exclOrder t ht := absurd ht (Finset.notMem_empty t)
  mixedOrder t ht := absurd ht (Finset.notMem_empty t)
  sharedBefore t ht := absurd ht (Finset.notMem_empty t)

namespace Counting

variable {c : Tickets τ} {t u : τ}

/-! ## Who is served -/

omit [DecidableEq τ] in
theorem no_shared_before (h : Counting c) (ht : t ∈ c.excl) (hown : c.ticket t = c.released)
    (hu : u ∈ c.shrd) : ¬ (c.ticket u).shared < (c.ticket t).shared := by
  intro hlt
  have hzero : c.sharedBelow (c.ticket t).shared = 0 := by
    have hc := h.sharedBefore t ht
    rw [hown] at hc ⊢
    omega
  have hmem : u ∈ c.shrd.filter fun v => (c.ticket v).shared < (c.ticket t).shared :=
    Finset.mem_filter.mpr ⟨hu, hlt⟩
  rw [sharedBelow, Finset.card_eq_zero] at hzero
  rw [hzero] at hmem
  exact Finset.notMem_empty u hmem

omit [DecidableEq τ] in
theorem shared_after_holder (h : Counting c) (ht : t ∈ c.excl) (hown : c.ticket t = c.released)
    (hu : u ∈ c.shrd) :
    (c.ticket t).exclusive < (c.ticket u).exclusive ∧
      (c.ticket t).shared ≤ (c.ticket u).shared := by
  have hno := h.no_shared_before ht hown hu
  have hmix := h.mixedOrder t ht u hu
  constructor
  · by_contra hle
    exact hno (hmix.mpr (by omega))
  · omega

omit [DecidableEq τ] in
theorem exclusive_after_holder (h : Counting c) (ht : t ∈ c.excl) (hown : c.ticket t = c.released)
    (hu : u ∈ c.excl) (hne : u ≠ t) :
    (c.ticket t).exclusive < (c.ticket u).exclusive ∧
      (c.ticket t).shared ≤ (c.ticket u).shared := by
  have hlt : (c.ticket t).exclusive < (c.ticket u).exclusive := by
    have hle : (c.ticket t).exclusive ≤ (c.ticket u).exclusive := by
      rw [hown]
      exact (h.exclRange u hu).1
    have hne' : (c.ticket t).exclusive ≠ (c.ticket u).exclusive :=
      fun he => hne (h.exclDistinct t ht u hu he).symm
    omega
  exact ⟨hlt, h.exclOrder t ht u hu hlt⟩

omit [DecidableEq τ] in
theorem exclusive_after_shared_holder (h : Counting c) (ht : t ∈ c.shrd)
    (hown : (c.ticket t).exclusive = c.released.exclusive) (hu : u ∈ c.excl) :
    (c.ticket t).exclusive ≤ (c.ticket u).exclusive ∧
      (c.ticket t).shared < (c.ticket u).shared := by
  have hle : (c.ticket t).exclusive ≤ (c.ticket u).exclusive := by
    rw [hown]
    exact (h.exclRange u hu).1
  exact ⟨hle, (h.mixedOrder u hu t ht).mpr hle⟩

omit [DecidableEq τ] in
theorem holder_before (h : Counting c) (ht : t ∈ c.excl) (hown : c.ticket t = c.released)
    (hu : u ∈ c.excl ∨ u ∈ c.shrd) (hne : u ≠ t) : (c.ticket t).Before (c.ticket u) := by
  unfold Counts.Before
  rcases hu with hu | hu
  · have := h.exclusive_after_holder ht hown hu hne
    omega
  · have := h.shared_after_holder ht hown hu
    omega

omit [DecidableEq τ] in
theorem shared_holder_before (h : Counting c) (ht : t ∈ c.shrd)
    (hown : (c.ticket t).exclusive = c.released.exclusive) (hu : u ∈ c.excl) :
    (c.ticket t).Before (c.ticket u) := by
  have := h.exclusive_after_shared_holder ht hown hu
  unfold Counts.Before
  omega

omit [DecidableEq τ] in
theorem exclusive_gap (h : Counting c) (ht : t ∈ c.excl) :
    (c.ticket t).exclusive < c.released.exclusive + c.excl.card ∧
      (c.ticket t).shared ≤ c.released.shared + c.shrd.card := by
  have hr := h.exclRange t ht
  have hc := h.exclCard
  have hb := h.sharedBefore t ht
  have hf : c.sharedBelow (c.ticket t).shared ≤ c.shrd.card := Finset.card_filter_le _ _
  omega

omit [DecidableEq τ] in
theorem shared_gap (h : Counting c) (ht : t ∈ c.shrd) :
    (c.ticket t).exclusive ≤ c.released.exclusive + c.excl.card := by
  have := (h.shrdRange t ht).2.1
  have := h.exclCard
  omega

omit [DecidableEq τ] in
theorem released_le_drawn (h : Counting c) : c.released ≤ c.drawn := by
  have := h.exclCard
  have := h.shrdCard
  exact ⟨by omega, by omega⟩

/-! ## Draws and releases keep `Counting` -/

theorem drawExclusive (h : Counting c) (ht : t ∉ c.excl) (ht' : t ∉ c.shrd) :
    Counting (c.drawExclusive t) := by
  have hne : ∀ v ∈ c.excl, v ≠ t := fun v hv hvt => ht (hvt ▸ hv)
  have hne' : ∀ v ∈ c.shrd, v ≠ t := fun v hv hvt => ht' (hvt ▸ hv)
  have hrel := h.released_le_drawn
  have hbelow : ∀ n, (c.drawExclusive t).sharedBelow n = c.sharedBelow n := by
    intro n
    unfold sharedBelow
    congr 1
    apply Finset.filter_congr
    intro x hx
    simp [Function.update_of_ne (hne' x hx)]
  refine ⟨?_, h.shrdCard, fun v hv => ?_, fun v hv => ?_, fun v hv v' hv' => ?_,
    fun v hv v' hv' => ?_, fun v hv v' hv' => ?_, fun v hv => ?_⟩
  · simp only [drawExclusive_excl, drawExclusive_released, drawExclusive_drawn,
      Finset.card_insert_of_notMem ht, Counts.addExclusive_exclusive]
    have := h.exclCard
    omega
  · simp only [drawExclusive_excl, Finset.mem_insert] at hv
    simp only [drawExclusive_ticket, drawExclusive_released, drawExclusive_drawn,
      Counts.addExclusive_exclusive, Counts.addExclusive_shared]
    rcases hv with rfl | hv
    · rw [Function.update_self]
      exact ⟨hrel.1, by omega, le_rfl⟩
    · have := h.exclRange v hv
      rw [Function.update_of_ne (hne v hv)]
      omega
  · simp only [drawExclusive_shrd] at hv
    simp only [drawExclusive_ticket, drawExclusive_released, drawExclusive_drawn,
      Function.update_of_ne (hne' v hv), Counts.addExclusive_exclusive,
      Counts.addExclusive_shared]
    have := h.shrdRange v hv
    omega
  · simp only [drawExclusive_excl, Finset.mem_insert] at hv hv'
    simp only [drawExclusive_ticket]
    rcases hv with rfl | hv <;> rcases hv' with rfl | hv'
    · intro
      rfl
    · rw [Function.update_self, Function.update_of_ne (hne v' hv')]
      intro he
      have := (h.exclRange v' hv').2.1
      omega
    · rw [Function.update_self, Function.update_of_ne (hne v hv)]
      intro he
      have := (h.exclRange v hv).2.1
      omega
    · rw [Function.update_of_ne (hne v hv), Function.update_of_ne (hne v' hv')]
      exact h.exclDistinct v hv v' hv'
  · simp only [drawExclusive_excl, Finset.mem_insert] at hv hv'
    simp only [drawExclusive_ticket]
    rcases hv with rfl | hv <;> rcases hv' with rfl | hv'
    · intro
      exact le_rfl
    · rw [Function.update_self, Function.update_of_ne (hne v' hv')]
      intro hlt
      have := (h.exclRange v' hv').2.1
      omega
    · rw [Function.update_self, Function.update_of_ne (hne v hv)]
      intro
      exact (h.exclRange v hv).2.2
    · rw [Function.update_of_ne (hne v hv), Function.update_of_ne (hne v' hv')]
      exact h.exclOrder v hv v' hv'
  · simp only [drawExclusive_excl, Finset.mem_insert] at hv
    simp only [drawExclusive_shrd] at hv'
    simp only [drawExclusive_ticket, Function.update_of_ne (hne' v' hv')]
    have := h.shrdRange v' hv'
    rcases hv with rfl | hv
    · rw [Function.update_self]
      constructor <;> intro <;> omega
    · rw [Function.update_of_ne (hne v hv)]
      exact h.mixedOrder v hv v' hv'
  · simp only [drawExclusive_excl, Finset.mem_insert] at hv
    rw [hbelow]
    simp only [drawExclusive_ticket, drawExclusive_released]
    rcases hv with rfl | hv
    · have hall : c.sharedBelow c.drawn.shared = c.shrd.card := by
        unfold sharedBelow
        rw [Finset.filter_true_of_mem (fun x hx => (h.shrdRange x hx).2.2)]
      rw [Function.update_self, hall]
      exact h.shrdCard
    · rw [Function.update_of_ne (hne v hv)]
      exact h.sharedBefore v hv

theorem drawShared (h : Counting c) (ht : t ∉ c.excl) (ht' : t ∉ c.shrd) :
    Counting (c.drawShared t) := by
  have hne : ∀ v ∈ c.excl, v ≠ t := fun v hv hvt => ht (hvt ▸ hv)
  have hne' : ∀ v ∈ c.shrd, v ≠ t := fun v hv hvt => ht' (hvt ▸ hv)
  have hrel := h.released_le_drawn
  refine ⟨h.exclCard, ?_, fun v hv => ?_, fun v hv => ?_, fun v hv v' hv' => ?_,
    fun v hv v' hv' => ?_, fun v hv v' hv' => ?_, fun v hv => ?_⟩
  · simp only [drawShared_shrd, drawShared_released, drawShared_drawn,
      Finset.card_insert_of_notMem ht', Counts.addShared_shared]
    have := h.shrdCard
    omega
  · simp only [drawShared_excl] at hv
    simp only [drawShared_ticket, drawShared_released, drawShared_drawn,
      Function.update_of_ne (hne v hv), Counts.addShared_exclusive, Counts.addShared_shared]
    have := h.exclRange v hv
    omega
  · simp only [drawShared_shrd, Finset.mem_insert] at hv
    simp only [drawShared_ticket, drawShared_released, drawShared_drawn,
      Counts.addShared_exclusive, Counts.addShared_shared]
    rcases hv with rfl | hv
    · rw [Function.update_self]
      exact ⟨hrel.1, le_rfl, by omega⟩
    · have := h.shrdRange v hv
      rw [Function.update_of_ne (hne' v hv)]
      omega
  · simp only [drawShared_excl] at hv hv'
    simp only [drawShared_ticket, Function.update_of_ne (hne v hv),
      Function.update_of_ne (hne v' hv')]
    exact h.exclDistinct v hv v' hv'
  · simp only [drawShared_excl] at hv hv'
    simp only [drawShared_ticket, Function.update_of_ne (hne v hv),
      Function.update_of_ne (hne v' hv')]
    exact h.exclOrder v hv v' hv'
  · simp only [drawShared_excl] at hv
    simp only [drawShared_shrd, Finset.mem_insert] at hv'
    simp only [drawShared_ticket, Function.update_of_ne (hne v hv)]
    have := h.exclRange v hv
    rcases hv' with rfl | hv'
    · rw [Function.update_self]
      constructor <;> intro <;> omega
    · rw [Function.update_of_ne (hne' v' hv')]
      exact h.mixedOrder v hv v' hv'
  · simp only [drawShared_excl] at hv
    have hv' := h.exclRange v hv
    have hbelow : (c.drawShared t).sharedBelow (c.ticket v).shared =
        c.sharedBelow (c.ticket v).shared := by
      unfold sharedBelow
      rw [drawShared_shrd, Finset.filter_insert]
      simp only [drawShared_ticket, Function.update_self]
      rw [if_neg (by omega)]
      congr 1
      apply Finset.filter_congr
      intro x hx
      rw [Function.update_of_ne (hne' x hx)]
    simp only [drawShared_ticket, drawShared_released, Function.update_of_ne (hne v hv)]
    rw [hbelow]
    exact h.sharedBefore v hv

theorem releaseExclusive (h : Counting c) (ht : t ∈ c.excl) (hown : c.ticket t = c.released) :
    Counting (c.releaseExclusive t) := by
  have hcard : 0 < c.excl.card := Finset.card_pos.mpr ⟨t, ht⟩
  refine ⟨?_, h.shrdCard, fun v hv => ?_, fun v hv => ?_, fun v hv v' hv' => ?_,
    fun v hv v' hv' => ?_, fun v hv v' hv' => ?_, fun v hv => ?_⟩
  · simp only [releaseExclusive_excl, releaseExclusive_released, releaseExclusive_drawn,
      Finset.card_erase_of_mem ht, Counts.addExclusive_exclusive]
    have := h.exclCard
    omega
  · obtain ⟨hvt, hv⟩ := Finset.mem_erase.mp hv
    have := h.exclusive_after_holder ht hown hv hvt
    have := h.exclRange v hv
    have he : (c.ticket t).exclusive = c.released.exclusive := by rw [hown]
    simp only [releaseExclusive_ticket, releaseExclusive_released, releaseExclusive_drawn,
      Counts.addExclusive_exclusive]
    omega
  · have := h.shared_after_holder ht hown hv
    have := h.shrdRange v hv
    have he : (c.ticket t).exclusive = c.released.exclusive := by rw [hown]
    simp only [releaseExclusive_ticket, releaseExclusive_released, releaseExclusive_drawn,
      Counts.addExclusive_exclusive]
    omega
  · exact h.exclDistinct v (Finset.mem_of_mem_erase hv) v' (Finset.mem_of_mem_erase hv')
  · exact h.exclOrder v (Finset.mem_of_mem_erase hv) v' (Finset.mem_of_mem_erase hv')
  · exact h.mixedOrder v (Finset.mem_of_mem_erase hv) v' hv'
  · exact h.sharedBefore v (Finset.mem_of_mem_erase hv)

theorem releaseShared (h : Counting c) (ht : t ∈ c.shrd)
    (hown : (c.ticket t).exclusive = c.released.exclusive) : Counting (c.releaseShared t) := by
  have hcard : 0 < c.shrd.card := Finset.card_pos.mpr ⟨t, ht⟩
  refine ⟨h.exclCard, ?_, fun v hv => ?_, fun v hv => ?_, fun v hv v' hv' => ?_,
    fun v hv v' hv' => ?_, fun v hv v' hv' => ?_, fun v hv => ?_⟩
  · simp only [releaseShared_shrd, releaseShared_released, releaseShared_drawn,
      Finset.card_erase_of_mem ht, Counts.addShared_shared]
    have := h.shrdCard
    omega
  · simp only [releaseShared_excl] at hv
    have := h.exclRange v hv
    simpa using this
  · have := h.shrdRange v (Finset.mem_of_mem_erase hv)
    simpa using this
  · exact h.exclDistinct v hv v' hv'
  · exact h.exclOrder v hv v' hv'
  · exact h.mixedOrder v hv v' (Finset.mem_of_mem_erase hv')
  · simp only [releaseShared_excl] at hv
    have hlt := (h.exclusive_after_shared_holder ht hown hv).2
    have hmem : t ∈ c.shrd.filter fun u => (c.ticket u).shared < (c.ticket v).shared :=
      Finset.mem_filter.mpr ⟨ht, hlt⟩
    have hpos := Finset.card_pos.mpr ⟨t, hmem⟩
    have hbelow : (c.releaseShared t).sharedBelow (c.ticket v).shared + 1 =
        c.sharedBelow (c.ticket v).shared := by
      unfold sharedBelow
      rw [releaseShared_shrd, releaseShared_ticket, Finset.filter_erase,
        Finset.card_erase_of_mem hmem]
      omega
    have := h.sharedBefore v hv
    simp only [releaseShared_ticket, releaseShared_released, Counts.addShared_shared]
    omega

end Counting

end SharedTickets
