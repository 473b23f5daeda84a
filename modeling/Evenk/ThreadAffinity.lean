import Mathlib.Data.Finset.Basic
import Mathlib.Data.List.GetD
import Evenk.FixedWidth

/-!
# CPU affinity of a thread (`thread.h`)

`affinity(cpuset)` turns a `std::vector<bool>` into a `cpu_set_t` for `pthread_setaffinity_np`;
`affinity()` reads the mask back for each CPU below `hardware_concurrency()`. Each loop runs up
to an `int cpu_num` converted from an unsigned count, so wrapped modulo `2 ^ 32`, and capped at
`CPU_SETSIZE`. The kernel keeps the mask it is given; the return codes are left free.
-/
namespace ThreadAffinity

/-- `CPU_SETSIZE` of glibc. -/
def cpuSetSize : ℕ := 1024

/-- `EINVAL`. -/
def einval : ℕ := 22

/-- A `std::system_error` as `throw_system_error(err_num, what)` builds it. -/
structure SystemError where
  code : ℕ
  what : String
  deriving DecidableEq, Repr

/-- A `cpu_set_t`: the CPUs whose bit is set, each below `CPU_SETSIZE`. -/
structure CpuSet where
  bits : Finset ℕ
  lt : ∀ c ∈ bits, c < cpuSetSize

namespace CpuSet

/-- `CPU_ZERO`. -/
def zero : CpuSet := ⟨∅, by simp⟩

/-- `CPU_SET(cpu, set)`: glibc's macro ignores a CPU past the set's size. -/
def set (cpu : ℕ) (s : CpuSet) : CpuSet :=
  if h : cpu < cpuSetSize then
    ⟨insert cpu s.bits, by
      intro c hc
      rcases Finset.mem_insert.mp hc with rfl | hc
      · exact h
      · exact s.lt c hc⟩
  else s

/-- `CPU_ISSET(cpu, set)`. -/
def isSet (cpu : ℕ) (s : CpuSet) : Bool := decide (cpu ∈ s.bits)

theorem mem_set {cpu c : ℕ} {s : CpuSet} :
    c ∈ (s.set cpu).bits ↔ c ∈ s.bits ∨ (c = cpu ∧ cpu < cpuSetSize) := by
  unfold set
  split_ifs with h
  · simp [h, or_comm]
  · simp [h]

end CpuSet

/-- `evenk::thread`: the `std::thread` it is, by its native handle while it is joinable. -/
structure Thread where
  handle : Option ℕ
  deriving DecidableEq, Repr

/-- `int cpu_num = n` for an unsigned count `n`, then `if (cpu_num > CPU_SETSIZE) cpu_num =
CPU_SETSIZE`. -/
def cpuNum (n : ℕ) : ℤ :=
  let cpuNum : ℤ := (UInt32.ofNat n).toInt32.toInt
  if cpuNum > cpuSetSize then cpuSetSize else cpuNum

/-- One turn of the loop of `affinity(cpuset)`: `if (cpuset[cpu]) CPU_SET(cpu, &native_cpuset)`. -/
def setStep (cpuset : List Bool) (s : CpuSet) (cpu : ℕ) : CpuSet :=
  if cpuset.getD cpu false then s.set cpu else s

/-- The `cpu_set_t` that `affinity(cpuset)` builds: `for (int cpu = 0; cpu < cpu_num; cpu++)`
with `cpu_num` from `cpuset.size()`. -/
def toNative (cpuset : List Bool) : CpuSet :=
  (List.range (cpuNum cpuset.length).toNat).foldl (setStep cpuset) CpuSet.zero

/-- The vector that `affinity()` reads: `cpuset.push_back(CPU_ISSET(cpu, &native_cpuset))` for
each CPU below `cpuNum`. -/
def fromNative (cpuNum : ℕ) (s : CpuSet) : List Bool :=
  (List.range cpuNum).foldl (fun v cpu => v ++ [s.isSet cpu]) []

namespace Thread

/-- `affinity(cpuset)`, with `rc` the return code of `pthread_setaffinity_np`; on success the
kernel's mask of the thread is the set built. -/
def setAffinity (t : Thread) (rc : ℕ) (masks : ℕ → CpuSet) (cpuset : List Bool) :
    Except SystemError (ℕ → CpuSet) :=
  match t.handle with
  | none => .error ⟨einval, "affinity"⟩
  | some h =>
    if rc ≠ 0 then .error ⟨rc, "pthread_setaffinity_np"⟩
    else .ok (Function.update masks h (toNative cpuset))

/-- `affinity()`, with `hw` the `unsigned` that `hardware_concurrency()` answers and `rc` the
return code of `pthread_getaffinity_np`. -/
def getAffinity (t : Thread) (hw : UInt32) (rc : ℕ) (masks : ℕ → CpuSet) :
    Except SystemError (List Bool) :=
  match t.handle with
  | none => .error ⟨einval, "affinity"⟩
  | some h =>
    if rc ≠ 0 then .error ⟨rc, "pthread_getaffinity_np"⟩
    else .ok (fromNative (cpuNum hw.toNat).toNat (masks h))

end Thread

/-! ## The two conversions -/

/-- The loops run `n mod 2 ^ 32` times, capped at `CPU_SETSIZE`, and not at all once that
remainder reads as a negative `int`. -/
theorem toNat_cpuNum (n : ℕ) :
    (cpuNum n).toNat = if n % 2 ^ 32 < 2 ^ 31 then min (n % 2 ^ 32) cpuSetSize else 0 := by
  have h := FixedWidth.toInt_toInt32 (UInt32.ofNat n)
  rw [UInt32.toNat_ofNat'] at h
  have hs : cpuSetSize = 1024 := rfl
  unfold cpuNum
  dsimp only
  rw [h, hs]
  split_ifs <;> omega

theorem cpuNum_le (n : ℕ) : (cpuNum n).toNat ≤ cpuSetSize := by
  rw [toNat_cpuNum]
  split_ifs <;> omega

theorem cpuNum_of_le {n : ℕ} (h : n ≤ cpuSetSize) : (cpuNum n).toNat = n := by
  have hs : cpuSetSize = 1024 := rfl
  rw [toNat_cpuNum, Nat.mod_eq_of_lt (by omega)]
  split_ifs <;> omega

theorem mem_setStep {cpuset : List Bool} {s : CpuSet} {cpu c : ℕ} :
    c ∈ (setStep cpuset s cpu).bits ↔
      c ∈ s.bits ∨ (c = cpu ∧ c < cpuSetSize ∧ cpuset.getD c false = true) := by
  unfold setStep
  split_ifs with hv
  · rw [CpuSet.mem_set]
    constructor
    · rintro (h | ⟨rfl, hlt⟩)
      exacts [.inl h, .inr ⟨rfl, hlt, hv⟩]
    · rintro (h | ⟨rfl, hlt, -⟩)
      exacts [.inl h, .inr ⟨rfl, hlt⟩]
  · constructor
    · exact .inl
    · rintro (h | ⟨rfl, -, hc⟩)
      exacts [h, absurd hc hv]

theorem mem_foldl_setStep (cpuset : List Bool) (cpus : List ℕ) (s : CpuSet) (c : ℕ) :
    c ∈ (cpus.foldl (setStep cpuset) s).bits ↔
      c ∈ s.bits ∨ (c ∈ cpus ∧ c < cpuSetSize ∧ cpuset.getD c false = true) := by
  induction cpus generalizing s with
  | nil => simp
  | cons cpu cpus ih =>
    rw [List.foldl_cons, ih, mem_setStep, List.mem_cons, or_and_right, or_assoc]

theorem mem_toNative {cpuset : List Bool} {c : ℕ} :
    c ∈ (toNative cpuset).bits ↔
      c < (cpuNum cpuset.length).toNat ∧ cpuset.getD c false = true := by
  rw [toNative, mem_foldl_setStep, List.mem_range]
  simp only [CpuSet.zero, Finset.notMem_empty, false_or]
  constructor
  · rintro ⟨hm, -, hc⟩
    exact ⟨hm, hc⟩
  · rintro ⟨hm, hc⟩
    exact ⟨hm, lt_of_lt_of_le hm (cpuNum_le _), hc⟩

theorem isSet_toNative (cpuset : List Bool) (cpu : ℕ) :
    (toNative cpuset).isSet cpu =
      (decide (cpu < (cpuNum cpuset.length).toNat) && cpuset.getD cpu false) := by
  simp only [CpuSet.isSet, mem_toNative, Bool.decide_and, Bool.decide_eq_true]

theorem foldl_push_back {α β : Type*} (f : α → β) (xs : List α) (acc : List β) :
    xs.foldl (fun v x => v ++ [f x]) acc = acc ++ xs.map f := by
  induction xs generalizing acc with
  | nil => simp
  | cons x xs ih => simp [ih]

theorem fromNative_eq (cpuNum : ℕ) (s : CpuSet) :
    fromNative cpuNum s = (List.range cpuNum).map s.isSet := by
  rw [fromNative, foldl_push_back, List.nil_append]

theorem map_range_getD_eq_iff (cpuset : List Bool) (n : ℕ) :
    (List.range n).map (fun cpu => cpuset.getD cpu false) = cpuset ↔ cpuset.length = n := by
  constructor
  · intro h
    rw [← h, List.length_map, List.length_range]
  · intro h
    subst h
    apply List.ext_getElem (by simp)
    intro i hi _
    rw [List.getElem_map, List.getElem_range, List.getD_eq_getElem _ _ (by simpa using hi)]

/-! ## Setting and reading back -/

namespace Thread

theorem setAffinity_ok {t : Thread} {h : ℕ} (hj : t.handle = some h) (masks : ℕ → CpuSet)
    (cpuset : List Bool) :
    t.setAffinity 0 masks cpuset = .ok (Function.update masks h (toNative cpuset)) := by
  simp [setAffinity, hj]

/-- Both members refuse a thread that is not joinable, with `EINVAL` and `"affinity"`, before
any call into the kernel. -/
theorem affinity_not_joinable {t : Thread} (hj : t.handle = none) (hw : UInt32) (rc : ℕ)
    (masks : ℕ → CpuSet) (cpuset : List Bool) :
    t.setAffinity rc masks cpuset = .error ⟨einval, "affinity"⟩ ∧
      t.getAffinity hw rc masks = .error ⟨einval, "affinity"⟩ := by
  simp [setAffinity, getAffinity, hj]

end Thread

/-- On a joinable thread, when the kernel accepts both calls, setting a mask and reading it back
gives, for each CPU the read loop reaches, the vector's entry if the write loop reached it and
`false` otherwise; the vector comes back as it was exactly when its length is the read loop's
count. -/
theorem affinity_round_trip (t : Thread) {h : ℕ} (hj : t.handle = some h) (hw : UInt32)
    (masks : ℕ → CpuSet) (cpuset : List Bool) :
    (t.setAffinity 0 masks cpuset >>= t.getAffinity hw 0) =
        .ok ((List.range (cpuNum hw.toNat).toNat).map fun cpu =>
          decide (cpu < (cpuNum cpuset.length).toNat) && cpuset.getD cpu false) ∧
      ((List.range (cpuNum hw.toNat).toNat).map (fun cpu =>
          decide (cpu < (cpuNum cpuset.length).toNat) && cpuset.getD cpu false) = cpuset ↔
        cpuset.length = (cpuNum hw.toNat).toNat) := by
  constructor
  · rw [Thread.setAffinity_ok hj]
    simp only [bind, Except.bind, Thread.getAffinity, hj, ne_eq, not_true_eq_false, if_false,
      Function.update_self, fromNative_eq]
    exact congrArg Except.ok (List.map_congr_left fun cpu _ => isSet_toNative cpuset cpu)
  · constructor
    · intro heq
      rw [← heq, List.length_map, List.length_range]
    · intro hlen
      -- a vector of the read loop's length is below `CPU_SETSIZE`, so the write loop covers it
      have hcov : (cpuNum cpuset.length).toNat = cpuset.length :=
        cpuNum_of_le (hlen ▸ cpuNum_le _)
      refine (List.map_congr_left fun cpu hcpu => ?_).trans
        ((map_range_getD_eq_iff cpuset _).mpr hlen)
      rw [hcov, decide_eq_true ((List.mem_range.mp hcpu).trans_eq hlen.symm), Bool.true_and]

/-- Three entries set with `hardware_concurrency()` at four: the fourth reads back `false`. -/
theorem affinity_round_trip_padded :
    ((⟨some 5⟩ : Thread).setAffinity 0 (fun _ => CpuSet.zero) [true, false, true] >>=
        (⟨some 5⟩ : Thread).getAffinity 4 0) = .ok [true, false, true, false] :=
  (affinity_round_trip ⟨some 5⟩ rfl 4 (fun _ => CpuSet.zero) [true, false, true]).1.trans
    (by decide)

end ThreadAffinity
