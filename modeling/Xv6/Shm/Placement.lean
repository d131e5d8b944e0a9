import Xv6.Shm.System
import Xv6.Vm.Paging

/-! Where `open_shared_memory` places an attachment, and what its failure after `mappages`
leaves behind.

The placement search starts at `HEAPLIMIT` and steps past attachments, so a process that
attaches a one-page region again and again gets it on consecutive pages above `HEAPLIMIT`
(`placeSharedMemory_slotsOf`). Once its `NUM_SHARED_MEMORY` slots are taken, the next call
still maps a page and only then finds no free slot: it returns `-1` with that page mapped and
recorded in no slot (`open_shared_memory_fails_after_mapping`). The call after it chooses the
same page, and `mappages` panics with `remap` (`open_shared_memory_remap_panic`). -/

namespace Xv6.Shm

open Vm

def slotAddress (j : Nat) : Nat := heapLimit + j * pgSize

lemma slotAddress_succ (j : Nat) : slotAddress j + 1 * pgSize = slotAddress (j + 1) := by
  simp only [slotAddress]
  ring

lemma slotAddress_lt_slotAddress {i j : Nat} (h : i < j) : slotAddress i < slotAddress j := by
  simp only [slotAddress, pgSize]
  omega

lemma slotAddress_add_lt {j : Nat} (hj : j ≤ numSharedMemory) :
    slotAddress j + pgSize < kernBase := by
  simp only [slotAddress, heapLimit, pgSize, kernBase, numSharedMemory] at hj ⊢
  omega

lemma slotAddress_succ_below_kernBase {n : Nat} (hn : n ≤ numSharedMemory) :
    ¬ kernBase ≤ slotAddress (n + 1) := by
  have h := slotAddress_add_lt hn
  rw [← slotAddress_succ, one_mul]
  omega

lemma toUint_slotAddress_succ {j : Nat} (hj : j ≤ numSharedMemory) :
    CInt.toUint ((slotAddress j : Int) + (pgSize : Int)) = slotAddress (j + 1) := by
  have h := slotAddress_add_lt hj
  rw [← slotAddress_succ, one_mul, ← Nat.cast_add,
    CInt.toUint_of_range (by omega) (by simp only [kernBase] at h; omega), Int.toNat_natCast]

lemma toUint_slotAddress {j : Nat} (hj : j ≤ numSharedMemory) :
    CInt.toUint (slotAddress j : Int) = slotAddress j := by
  have h := slotAddress_add_lt hj
  rw [CInt.toUint_of_range (by omega) (by simp only [kernBase] at h; omega), Int.toNat_natCast]

lemma pdx_slotAddress {j : Nat} (hj : j < 1024) : pdx (slotAddress j) = pdx heapLimit := by
  have h : (0x7F000000 + j * 4096) / 2 ^ 22 = 0x1FC := by omega
  simp only [pdx, slotAddress, heapLimit, pgSize, pdxShift, Nat.shiftRight_eq_div_pow, h]

lemma ptx_slotAddress {j : Nat} (hj : j < 1024) : ptx (slotAddress j) = j := by
  have h : (0x7F000000 + j * 4096) / 2 ^ 12 = 0x7F000 + j := by omega
  have hmask : (0x3FF : Nat) = 2 ^ 10 - 1 := rfl
  simp only [ptx, slotAddress, heapLimit, pgSize, ptxShift, Nat.shiftRight_eq_div_pow, h, hmask,
    Nat.and_two_pow_sub_one_eq_mod]
  omega

lemma present_or_ptePresent (a : Nat) : present (a ||| ptePresent) = true := by
  simp [present, ptePresent]

lemma mappages_slotAddress {k : Kmem} {pd : Pgdir} {j pa : Nat} (hj : j ≤ numSharedMemory)
    (hpde : present (pd.pde (pdx heapLimit)) = true) :
    mappages k pd (slotAddress j) pgSize pa 6 =
      if present (pd.pte (pdx heapLimit) j) then none
      else some (k, pd.setPte (pdx heapLimit) j (pa ||| 6 ||| ptePresent), 0) := by
  have hj' : j < 1024 := by simp only [numSharedMemory] at hj; omega
  have hlt := slotAddress_add_lt hj
  have hdiv : slotAddress j / pgSize * pgSize = slotAddress j := by
    simp only [slotAddress, heapLimit, pgSize]
    omega
  have hfirst : pgrounddown (slotAddress j) = slotAddress j := by
    rw [pgrounddown_eq (by simp only [kernBase] at hlt; omega), hdiv]
  have hlast : pgrounddown (CInt.toUint ((slotAddress j : Int) + (pgSize : Int) - 1)) =
      slotAddress j := by
    have hsum : CInt.toUint ((slotAddress j : Int) + (pgSize : Int) - 1) = slotAddress j + 4095 := by
      have hps : (pgSize : Int) = 4096 := rfl
      rw [hps, CInt.toUint_of_range (by omega) (by simp only [kernBase, pgSize] at hlt; omega)]
      omega
    rw [hsum, pgrounddown_eq (by simp only [kernBase, pgSize] at hlt; omega)]
    simp only [slotAddress, heapLimit, pgSize]
    omega
  have hpde' : present (pd.pde (pdx (slotAddress j))) = true := by rwa [pdx_slotAddress hj']
  simp only [mappages, hfirst, hlast, sub_self, mapFrom, walkpgdir_present true hpde',
    pdx_slotAddress hj', ptx_slotAddress hj']
  split_ifs <;> simp_all [CInt.toUint]

def slotsOf (r : Int) (n : Nat) (i : Fin numSharedMemory) : SharedMemory :=
  if i.val < n then ⟨r, 0, 1, slotAddress i⟩ else .unused

@[simp] lemma unused_attached : SharedMemory.unused.attached = false := rfl

@[simp] lemma attached_of_key_zero (r : Int) (size va : Nat) :
    (⟨r, 0, size, va⟩ : SharedMemory).attached = true := rfl

lemma slotsOf_attached {r : Int} {n : Nat} {i : Fin numSharedMemory} :
    (slotsOf r n i).attached = decide (i.val < n) := by
  unfold slotsOf
  split_ifs with h
  · simp [h, SharedMemory.attached, CInt.toUint]
  · simp [h]

lemma slotsOf_of_lt {r : Int} {n : Nat} {i : Fin numSharedMemory} (h : i.val < n) :
    slotsOf r n i = ⟨r, 0, 1, slotAddress i⟩ := if_pos h

lemma getLeastIndex_slotsOf {r : Int} {n : Nat} {j : Fin numSharedMemory} (hj : j.val < n) :
    getLeastIndex (slotAddress j) (slotsOf r n) = some j := by
  unfold getLeastIndex
  have hend : ∀ c : Option (Fin numSharedMemory) × Nat,
      (c = if j.val < numSharedMemory then (some j, slotAddress j) else (none, kernBase - 1)) →
      c.1 = some j := fun c hc => by simp [hc, j.isLt]
  apply hend
  refine Table.loop_induction
    (fun k (acc : Option (Fin numSharedMemory) × Nat) =>
      acc = if j.val < k then (some j, slotAddress j) else (none, kernBase - 1))
    (by simp) (fun i c hc => ?_)
  · subst hc
    have hlt := slotAddress_add_lt (Nat.le_of_lt j.isLt)
    rcases lt_trichotomy i j with hij | rfl | hji
    · have hi : ¬ slotAddress j ≤ slotAddress i := not_le.mpr (slotAddress_lt_slotAddress hij)
      have hji : ¬ j.val < i.val := not_lt.mpr (le_of_lt hij)
      have hji' : ¬ j.val < i.val + 1 := by omega
      simp [hi, hji, hji', slotsOf_of_lt (lt_trans hij hj)]
    · have hle : slotAddress i ≤ kernBase - 1 := by omega
      simp [slotsOf_of_lt hj, hle]
    · have hkeep : j.val < i.val := hji
      by_cases hin : i.val < n
      · have hi : ¬ slotAddress i ≤ slotAddress j := not_le.mpr (slotAddress_lt_slotAddress hji)
        simp [hkeep, show j.val < i.val + 1 by omega, slotsOf_of_lt hin, hi]
      · simp [hkeep, show j.val < i.val + 1 by omega, slotsOf_attached, hin]

lemma getLeastIndex_slotsOf_self {r : Int} {n : Nat} :
    getLeastIndex (slotAddress n) (slotsOf r n) = none := by
  unfold getLeastIndex
  have hend : ∀ c : Option (Fin numSharedMemory) × Nat, c = (none, kernBase - 1) → c.1 = none :=
    fun c hc => by rw [hc]
  apply hend
  refine Table.loop_induction
    (fun _ (acc : Option (Fin numSharedMemory) × Nat) => acc = (none, kernBase - 1))
    rfl (fun i c hc => ?_)
  · subst hc
    by_cases hin : i.val < n
    · have hi : ¬ slotAddress n ≤ slotAddress i := not_le.mpr (slotAddress_lt_slotAddress hin)
      simp [slotsOf_of_lt hin, hi]
    · simp [slotsOf_attached, hin]

lemma placeSharedMemory_slotsOf_from {r : Int} {n : Nat} (hn : n ≤ numSharedMemory) :
    ∀ k fuel j, j + k = n → k ≤ fuel →
      placeSharedMemory (slotsOf r n) 1 fuel (slotAddress j) = slotAddress n := by
  intro k
  induction k with
  | zero =>
    intro fuel j hj _
    subst hj
    cases fuel with
    | zero => rfl
    | succ fuel => simp [placeSharedMemory, getLeastIndex_slotsOf_self]
  | succ k ih =>
    intro fuel j hj hfuel
    obtain ⟨fuel, rfl⟩ : ∃ f, fuel = f + 1 := ⟨fuel - 1, by omega⟩
    have hjn : j < numSharedMemory := by omega
    have hleast : getLeastIndex (slotAddress j) (slotsOf r n) = some ⟨j, hjn⟩ :=
      @getLeastIndex_slotsOf r n ⟨j, hjn⟩ (show j < n by omega)
    have hslot : slotsOf r n ⟨j, hjn⟩ = ⟨r, 0, 1, slotAddress j⟩ :=
      slotsOf_of_lt (show j < n by omega)
    have hstep := toUint_slotAddress_succ (show j ≤ numSharedMemory by omega)
    have hover : ¬ slotAddress (j + 1) ≤ slotAddress j :=
      not_le.mpr (slotAddress_lt_slotAddress (Nat.lt_succ_self j))
    simp only [placeSharedMemory, hleast, hslot, Nat.cast_one, one_mul, hstep, hover, if_false]
    exact ih fuel (j + 1) (by omega) (by omega)

lemma placeSharedMemory_slotsOf {r : Int} {n : Nat} (hn : n ≤ numSharedMemory) :
    placeSharedMemory (slotsOf r n) 1 numSharedMemory heapLimit = slotAddress n := by
  have h : placeSharedMemory (slotsOf r n) 1 numSharedMemory (slotAddress 0) = slotAddress n :=
    placeSharedMemory_slotsOf_from hn n numSharedMemory 0 (by omega) hn
  simpa [slotAddress] using h

lemma overlapsAttachment_slotsOf {r : Int} {n : Nat} :
    overlapsAttachment (slotsOf r n) (slotAddress n) = false := by
  unfold overlapsAttachment
  rw [Option.isSome_eq_false_iff, Option.isNone_iff_eq_none, Table.first?_eq_none]
  intro i
  by_cases hin : i.val < n
  · have hend := toUint_slotAddress_succ (show i.val ≤ numSharedMemory by omega)
    have hle : ¬ slotAddress n < slotAddress (i + 1) := by
      simp only [slotAddress, pgSize]
      omega
    simp [slotsOf_of_lt hin, hend, hle]
  · simp [slotsOf_attached, hin]

lemma slotsOf_succ {r : Int} {n : Nat} (hn : n < numSharedMemory) :
    Function.update (slotsOf r n) ⟨n, hn⟩ ⟨r, 0, 1, slotAddress n⟩ = slotsOf r (n + 1) := by
  funext i
  by_cases hi : i = ⟨n, hn⟩
  · subst hi
    simp [slotsOf]
  · have hi' : i.val ≠ n := fun h => hi (Fin.ext h)
    have hlt : i.val < n + 1 ↔ i.val < n := by omega
    simp [Function.update_of_ne hi, slotsOf, hlt]

lemma first?_free_slotsOf {r : Int} {n : Nat} (hn : n < numSharedMemory) :
    Table.first? (fun i => !(slotsOf r n i).attached) = some ⟨n, hn⟩ := by
  rw [Table.first?_eq_some]
  refine ⟨by simp [slotsOf_attached], fun i hi => ?_⟩
  have hin : i.val < n := hi
  simp [slotsOf_attached, hin]

lemma first?_free_slotsOf_full {r : Int} :
    Table.first? (fun i => !(slotsOf r numSharedMemory i).attached) = none := by
  rw [Table.first?_eq_none]
  intro i
  simp [slotsOf_attached, i.isLt]

lemma mapRegion_slotAddress {kend : Nat} {k : Kmem} {pd : Pgdir} {n : Nat}
    {reg : SharedMemoryRegion} (hn : n ≤ numSharedMemory)
    (hpde : present (pd.pde (pdx heapLimit)) = true) :
    mapRegion kend k pd (slotAddress n) reg [0] =
      if present (pd.pte (pdx heapLimit) n) then none
      else some (k, pd.setPte (pdx heapLimit) n (reg.physicalAddress 0 ||| 6 ||| ptePresent), true) := by
  have h0 : CArray.index? numSharedMemory 0 = some 0 := rfl
  simp only [mapRegion, Nat.cast_zero, zero_mul, add_zero, h0, toUint_slotAddress hn,
    mappages_slotAddress hn hpde]
  split_ifs <;> simp

structure Attached (p : Fin nproc) (r : Fin numSharedMemory) (pa n : Nat) (m : Machine) :
    Prop where
  alive : m.alive p = true
  memId : (m.shm.shaaredMem r).memId = r
  key : (m.shm.shaaredMem r).key = 0
  size : (m.shm.shaaredMem r).size = 1
  frame : (m.shm.shaaredMem r).physicalAddress 0 = pa
  pages : ∀ i, (m.shm.proc p).pages i = slotsOf r n i
  pde : present ((m.shm.proc p).pgdir.pde (pdx heapLimit)) = true

structure Filled (p : Fin nproc) (r : Fin numSharedMemory) (pa n : Nat) (m : Machine) : Prop
    extends Attached p r pa n m where
  unmapped : ∀ x < 1024, n ≤ x → present ((m.shm.proc p).pgdir.pte (pdx heapLimit) x) = false

section Attached

variable {kend : Nat} {p : Fin nproc} {r : Fin numSharedMemory} {pa n : Nat} {m : Machine}

lemma Attached.begin (h : Attached p r pa n m) :
    openSharedMemoryBegin m.shm r = some (.found r) := by
  have hr := r.isLt
  have hcond : ¬ ((r : Int) < 0 ∨ (numSharedMemory : Int) < r) := by omega
  have hne : ((r : Nat) : Int) ≠ -1 := by omega
  simp only [openSharedMemoryBegin, hcond, if_false, CArray.index?_fin, Option.map_some, h.memId,
    hne]

lemma Attached.pages_eq (h : Attached p r pa n m) : (m.shm.proc p).pages = slotsOf r n :=
  funext h.pages

lemma Attached.open_remap (h : Attached p r pa n m) (hn : n ≤ numSharedMemory)
    (hmapped : present ((m.shm.proc p).pgdir.pte (pdx heapLimit) n) = true) :
    step kend m (.openShm p r) = none := by
  simp [step, h.alive, openSharedMemory, h.begin, openSharedMemoryAttach, CArray.index?_fin,
    h.pages_eq, h.size, placeSharedMemory_slotsOf hn, toUint_slotAddress_succ hn,
    slotAddress_succ_below_kernBase hn, overlapsAttachment_slotsOf, mapRegion_slotAddress hn h.pde,
    hmapped]

lemma Attached.openSharedMemory_eq (h : Attached p r pa n m) (hn : n ≤ numSharedMemory)
    (hfree : present ((m.shm.proc p).pgdir.pte (pdx heapLimit) n) = false) :
    openSharedMemory kend m.shm p r =
      let s := m.shm.setPgdir p
        ((m.shm.proc p).pgdir.setPte (pdx heapLimit) n (pa ||| 6 ||| ptePresent))
      if hlt : n < numSharedMemory then
        some ((s.setRegion r { m.shm.shaaredMem r with
            sharedMemoryNattch := (m.shm.shaaredMem r).sharedMemoryNattch + 1 }).setPage
          p ⟨n, hlt⟩ ⟨r, 0, 1, slotAddress n⟩, slotAddress n)
      else some (s, CInt.toUint (-1)) := by
  by_cases hlt : n < numSharedMemory
  · simp [openSharedMemory, h.begin, openSharedMemoryAttach, CArray.index?_fin,
      h.pages_eq, h.size, placeSharedMemory_slotsOf hn, toUint_slotAddress_succ hn,
      slotAddress_succ_below_kernBase hn, overlapsAttachment_slotsOf, mapRegion_slotAddress hn h.pde,
      hfree, first?_free_slotsOf hlt, h.frame, hlt, h.key]
  · obtain rfl : n = numSharedMemory := by omega
    simp [openSharedMemory, h.begin, openSharedMemoryAttach, CArray.index?_fin,
      h.pages_eq, h.size, placeSharedMemory_slotsOf hn, toUint_slotAddress_succ hn,
      slotAddress_succ_below_kernBase hn, overlapsAttachment_slotsOf, mapRegion_slotAddress hn h.pde,
      hfree, first?_free_slotsOf_full, h.frame]

lemma Attached.open_free (h : Attached p r pa n m) (hn : n ≤ numSharedMemory)
    (hfree : present ((m.shm.proc p).pgdir.pte (pdx heapLimit) n) = false) :
    ∃ m', step kend m (.openShm p r) = some m' ∧ Attached p r pa (min (n + 1) numSharedMemory) m' ∧
      (m'.shm.proc p).pgdir.pte (pdx heapLimit) =
        Function.update ((m.shm.proc p).pgdir.pte (pdx heapLimit)) n (pa ||| 6 ||| ptePresent) := by
  have heq : openSharedMemory kend m.shm p r = _ := h.openSharedMemory_eq hn hfree
  have hrow : ∀ pd : Pgdir, (pd.setPte (pdx heapLimit) n (pa ||| 6 ||| ptePresent)).pte (pdx heapLimit) =
      Function.update (pd.pte (pdx heapLimit)) n (pa ||| 6 ||| ptePresent) := fun pd => by
    simp [Pgdir.setPte]
  simp only [step, h.alive, if_true, heq]
  by_cases hlt : n < numSharedMemory
  · rw [dif_pos hlt, show min (n + 1) numSharedMemory = n + 1 by omega]
    refine ⟨_, rfl, ⟨h.alive, by simp [h.memId], by simp [h.key], by simp [h.size],
      by simp [h.frame], fun i => ?_, by simpa using h.pde⟩, by simpa using hrow _⟩
    simp [h.key, h.size, h.pages_eq, slotsOf_succ hlt]
  · rw [dif_neg hlt, show min (n + 1) numSharedMemory = n by omega]
    exact ⟨_, rfl, ⟨h.alive, h.memId, h.key, h.size, h.frame, fun i => by simp [h.pages_eq],
      by simpa using h.pde⟩, by simpa using hrow _⟩

end Attached

namespace Filled

variable {kend : Nat} {p : Fin nproc} {r : Fin numSharedMemory} {pa n : Nat} {m : Machine}

lemma open_step (h : Filled p r pa n m) (hn : n < numSharedMemory) :
    ∃ m', step kend m (.openShm p r) = some m' ∧ Filled p r pa (n + 1) m' := by
  obtain ⟨m', hstep, hatt, hrow⟩ :=
    h.toAttached.open_free hn.le (h.unmapped n (by simp only [numSharedMemory] at hn; omega) le_rfl)
  rw [show min (n + 1) numSharedMemory = n + 1 by omega] at hatt
  refine ⟨m', hstep, ⟨hatt, fun x hx hnx => ?_⟩⟩
  rw [hrow, Function.update_of_ne (by omega)]
  exact h.unmapped x hx (by omega)

lemma exec_opens (h : Filled p r pa n m) (k : Nat) (hk : n + k ≤ numSharedMemory) :
    ∃ m', Run.exec (step kend) m (List.replicate k (.openShm p r)) = some m' ∧
      Filled p r pa (n + k) m' := by
  induction k generalizing n m with
  | zero => exact ⟨m, rfl, h⟩
  | succ k ih =>
    obtain ⟨m₁, hstep, h₁⟩ : ∃ m₁, step kend m (.openShm p r) = some m₁ ∧
        Filled p r pa (n + 1) m₁ := h.open_step (by omega)
    obtain ⟨m', hrun, h'⟩ := ih h₁ (by omega)
    refine ⟨m', ?_, by rwa [show n + (k + 1) = n + 1 + k by omega]⟩
    rw [List.replicate_succ, Run.exec_cons, hstep, Option.bind_some, hrun]

lemma open_full (h : Filled p r pa numSharedMemory m) :
    ∃ m', step kend m (.openShm p r) = some m' ∧ Attached p r pa numSharedMemory m' ∧
      (m'.shm.proc p).pgdir.pte (pdx heapLimit) numSharedMemory = pa ||| 6 ||| ptePresent := by
  obtain ⟨m', hstep, hatt, hrow⟩ :=
    h.toAttached.open_free le_rfl (h.unmapped numSharedMemory (by decide) le_rfl)
  rw [show min (numSharedMemory + 1) numSharedMemory = numSharedMemory by decide] at hatt
  exact ⟨m', hstep, hatt, by rw [hrow, Function.update_self]⟩

end Filled

lemma filled_first_open :
    ∃ m, Run.exec (step 0x80400000) (Machine.init ⟨[0x8dfff000, 0x8dffe000]⟩ fun p => p.val < 1)
        [.openShm 0 0] = some m ∧ Filled 0 0 (v2p 0x8dfff000) 1 m := by
  refine ⟨_, rfl, ⟨⟨?_, ?_, ?_, ?_, ?_, ?_, ?_⟩, ?_⟩⟩ <;> decide +kernel

lemma filled_after_opens :
    ∃ m, Run.exec (step 0x80400000) (Machine.init ⟨[0x8dfff000, 0x8dffe000]⟩ fun p => p.val < 1)
        (List.replicate numSharedMemory (.openShm 0 0)) = some m ∧
      Filled 0 0 (v2p 0x8dfff000) numSharedMemory m := by
  obtain ⟨m₁, h₁, hf₁⟩ := filled_first_open
  obtain ⟨m, h₂, hf⟩ : ∃ m, Run.exec (step 0x80400000) m₁
      (List.replicate (numSharedMemory - 1) (.openShm 0 0)) = some m ∧
      Filled 0 0 (v2p 0x8dfff000) (1 + (numSharedMemory - 1)) m :=
    hf₁.exec_opens (numSharedMemory - 1) (by decide)
  refine ⟨m, ?_, by rwa [show 1 + (numSharedMemory - 1) = numSharedMemory by decide] at hf⟩
  have hsplit : List.replicate numSharedMemory (Event.openShm 0 0) =
      [.openShm 0 0] ++ List.replicate (numSharedMemory - 1) (.openShm 0 0) := rfl
  rw [hsplit, Run.exec_append, h₁, Option.bind_some, h₂]

theorem open_shared_memory_remap_panic :
    ∃ m, Run.exec (step 0x80400000) (Machine.init ⟨[0x8dfff000, 0x8dffe000]⟩ fun p => p.val < 1)
        (List.replicate (numSharedMemory + 1) (.openShm 0 0)) = some m ∧
      (∀ i, ((m.shm.proc 0).pages i).attached = true) ∧
      (∀ i, ((m.shm.proc 0).pages i).virtualAddress ≠ slotAddress numSharedMemory) ∧
      (m.shm.proc 0).pgdir.translate (slotAddress numSharedMemory) = some (v2p 0x8dfff000) ∧
      placeSharedMemory (m.shm.proc 0).pages 1 numSharedMemory heapLimit =
        slotAddress numSharedMemory ∧
      mappages m.shm.kmem (m.shm.proc 0).pgdir (slotAddress numSharedMemory) pgSize
        (v2p 0x8dfff000) 6 = none ∧
      step 0x80400000 m (.openShm 0 0) = none := by
  obtain ⟨m₂, h₂, hf₂⟩ := filled_after_opens
  obtain ⟨m, h₃, hatt, hpte⟩ : ∃ m, step 0x80400000 m₂ (.openShm 0 0) = some m ∧
      Attached 0 0 (v2p 0x8dfff000) numSharedMemory m ∧
      (m.shm.proc 0).pgdir.pte (pdx heapLimit) numSharedMemory =
        v2p 0x8dfff000 ||| 6 ||| ptePresent := hf₂.open_full
  have hmapped : present ((m.shm.proc 0).pgdir.pte (pdx heapLimit) numSharedMemory) = true := by
    rw [hpte]
    exact present_or_ptePresent _
  have hlt : numSharedMemory < 1024 := by decide
  refine ⟨m, ?_, fun i => ?_, fun i => ?_, ?_, ?_, ?_, hatt.open_remap le_rfl hmapped⟩
  · rw [List.replicate_succ', Run.exec_append, h₂, Option.bind_some, Run.exec_cons, h₃,
      Option.bind_some, Run.exec_nil]
  · simp [hatt.pages_eq, slotsOf_attached, i.isLt]
  · rw [hatt.pages_eq, slotsOf_of_lt i.isLt]
    exact (slotAddress_lt_slotAddress i.isLt).ne
  · simp [Pgdir.translate, pdx_slotAddress hlt, ptx_slotAddress hlt, hatt.pde, hpte]
    decide
  · rw [hatt.pages_eq, placeSharedMemory_slotsOf le_rfl]
  · rw [mappages_slotAddress le_rfl hatt.pde, if_pos hmapped]

theorem open_shared_memory_fails_after_mapping :
    ∃ m, Run.exec (step 0x80400000) (Machine.init ⟨[0x8dfff000, 0x8dffe000]⟩ fun p => p.val < 1)
        (List.replicate numSharedMemory (.openShm 0 0)) = some m ∧
      (m.shm.proc 0).pgdir.translate (slotAddress numSharedMemory) = none ∧
      ∃ s', openSharedMemory 0x80400000 m.shm 0 0 = some (s', CInt.toUint (-1)) ∧
        (s'.proc 0).pages = (m.shm.proc 0).pages ∧
        (s'.proc 0).pgdir.translate (slotAddress numSharedMemory) = some (v2p 0x8dfff000) := by
  obtain ⟨m, hrun, hf⟩ := filled_after_opens
  have hlt : numSharedMemory < 1024 := by decide
  have hfree := hf.unmapped numSharedMemory hlt le_rfl
  have heq : openSharedMemory 0x80400000 m.shm 0 0 = _ := hf.openSharedMemory_eq le_rfl hfree
  rw [dif_neg (lt_irrefl _)] at heq
  refine ⟨m, hrun, ?_, _, heq, by simp [State.setPgdir], ?_⟩
  · simp [Pgdir.translate, pdx_slotAddress hlt, ptx_slotAddress hlt, hf.pde, hfree]
  · simp [State.setPgdir, Pgdir.translate, Pgdir.setPte, pdx_slotAddress hlt, ptx_slotAddress hlt,
      hf.pde]
    decide

end Xv6.Shm
