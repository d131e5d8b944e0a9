import Xv6.Shm.Region
import Xv6.Lib.Run

/-! The shared-memory subsystem as a transition system: processes open and close regions, fork
and exit, each call running to completion under `SharedMemoryTable.lock`.

Every region's `mem_id` is `-1` or its own index in every reachable state (`reachable_regionIds`),
so `open_shared_memory` always attaches to the region it was asked for. `close_shared_memory`
decrements the counter of the region its slot names but, when that counter reaches zero, frees
and resets the region numbered like the *slot* (`closeSharedMemory_frees_slot_region`). -/

namespace Xv6.Shm

open Vm Relation

structure Machine where
  shm : State
  alive : Fin nproc → Bool

inductive Event
  | openShm (p : Fin nproc) (memId : Int)
  | closeShm (p : Fin nproc) (addr : Nat)
  | fork (parent child : Fin nproc)
  | exit (p : Fin nproc)

def step (kend : Nat) (m : Machine) : Event → Option Machine
  | .openShm p memId =>
    if m.alive p then (openSharedMemory kend m.shm p memId).map fun r => { m with shm := r.1 }
    else none
  | .closeShm p addr =>
    if m.alive p then (closeSharedMemory kend m.shm p addr).map fun r => { m with shm := r.1 }
    else none
  | .fork p c =>
    if m.alive p ∧ !m.alive c then
      (forkSharedMemory kend { m.shm with proc := Function.update m.shm.proc c .fresh } p c).map
        fun s => ⟨s, Function.update m.alive c true⟩
    else none
  | .exit p =>
    if m.alive p then
      (exitSharedMemory kend m.shm p).map fun s => ⟨s, Function.update m.alive p false⟩
    else none

def Machine.init (k : Kmem) (alive : Fin nproc → Bool) : Machine :=
  ⟨⟨inithialSharedMemory, k, fun _ => .fresh⟩, alive⟩

def Reachable (kend : Nat) (k : Kmem) (alive : Fin nproc → Bool) (m : Machine) : Prop :=
  ReflTransGen (Run.Step (step kend)) (Machine.init k alive) m

def RegionIds (s : State) : Prop :=
  ∀ i : Fin numSharedMemory, (s.shaaredMem i).memId = -1 ∨ (s.shaaredMem i).memId = i

section RegionIds

variable {kend : Nat} {s s' : State}

lemma RegionIds.setRegion {i : Fin numSharedMemory} {r : SharedMemoryRegion} (h : RegionIds s)
    (hr : r.memId = -1 ∨ r.memId = i) : RegionIds (s.setRegion i r) := by
  intro j
  by_cases hj : j = i
  · subst hj
    simpa using hr
  · simpa [Function.update_of_ne hj] using h j

lemma RegionIds.keep {i : Fin numSharedMemory} {r : SharedMemoryRegion} (h : RegionIds s)
    (hr : r.memId = (s.shaaredMem i).memId) : RegionIds (s.setRegion i r) :=
  h.setRegion (hr ▸ h i)

lemma createPages_regionIds {g : Int} {l : List Nat} {b : Bool} (hs : RegionIds s)
    (h : createPages s g l = some (s', b)) : RegionIds s' := by
  induction l generalizing s with
  | nil =>
    simp only [createPages, Option.some.injEq, Prod.mk.injEq] at h
    exact h.1 ▸ hs
  | cons i is ih =>
    simp only [createPages] at h
    split at h
    · simp only [Option.some.injEq, Prod.mk.injEq] at h
      exact h.1 ▸ hs
    · simp only [Option.bind_eq_bind, Option.bind_eq_some_iff] at h
      obtain ⟨g', -, j, -, h⟩ := h
      refine ih (RegionIds.keep ?_ ?_) h
      · exact hs
      · rfl

lemma createSharedMemory_regionIds {size : Nat} {g r : Int} (hs : RegionIds s)
    (h : createSharedMemory s size g = some (s', r)) : RegionIds s' := by
  simp only [createSharedMemory] at h
  split at h
  · cases h
    exact hs
  · split at h
    · cases h
    · cases h
      exact createPages_regionIds hs (by assumption)
    · rename_i s'' hc
      split at h
      · cases h
      · rename_i gi hgi
        cases h
        exact (createPages_regionIds hs hc).setRegion (Or.inr (CArray.index?_eq_some.mp hgi).symm)

lemma mapPagesWrapperLoop_regionIds {p : Fin nproc} {memId : Int} {index : Fin numSharedMemory}
    {l : List Nat} (hs : RegionIds s) (h : mapPagesWrapperLoop kend p memId index s l = some s') :
    RegionIds s' := by
  induction l generalizing s with
  | nil =>
    simp only [mapPagesWrapperLoop, Option.some.injEq] at h
    exact h ▸ hs
  | cons i is ih =>
    simp only [mapPagesWrapperLoop, Option.bind_eq_bind, Option.bind_eq_some_iff] at h
    obtain ⟨m, -, j, -, ⟨k, pd, ret⟩, -, h⟩ := h
    split at h
    · obtain ⟨d, -, rfl⟩ := Option.map_eq_some_iff.mp h
      exact hs
    · refine ih (RegionIds.keep ?_ ?_) h
      · exact hs
      · rfl

lemma openSharedMemoryAttach_regionIds {p : Fin nproc} {memId index : Int} {v : Nat}
    (hs : RegionIds s) (h : openSharedMemoryAttach kend s p memId index = some (s', v)) :
    RegionIds s' := by
  simp only [openSharedMemoryAttach] at h
  split at h
  · cases h
    exact hs
  · split at h
    · cases h
    · split at h
      · cases h
        exact hs
      · split at h
        · cases h
          exact hs
        · split at h
          · cases h
          · cases h
            exact hs
          · split at h
            · cases h
              exact hs
            · cases h
              exact RegionIds.keep hs rfl

lemma openSharedMemory_regionIds {p : Fin nproc} {memId : Int} {v : Nat} (hs : RegionIds s)
    (h : openSharedMemory kend s p memId = some (s', v)) : RegionIds s' := by
  simp only [openSharedMemory] at h
  split at h
  · cases h
  · cases h
    exact hs
  · exact openSharedMemoryAttach_regionIds hs h
  · split at h
    · cases h
    · exact openSharedMemoryAttach_regionIds (createSharedMemory_regionIds hs (by assumption)) h

lemma freeRegionPages_regionIds {r : Fin numSharedMemory} {l : List Nat} (hs : RegionIds s)
    (h : freeRegionPages kend r s l = some s') : RegionIds s' := by
  obtain ⟨-, f, hf⟩ := freeRegionPages_frame h
  intro j
  rw [hf]
  by_cases hj : j = r
  · subst hj
    simpa using hs j
  · simpa [Function.update_of_ne hj] using hs j

lemma decrementNattch_regionIds {m : Fin numSharedMemory} (hs : RegionIds s) :
    RegionIds (decrementNattch s m) := by
  simp only [decrementNattch]
  split
  · exact RegionIds.keep hs rfl
  · exact hs

lemma releaseRegion_regionIds {index : Fin numSharedMemory} (hs : RegionIds s)
    (h : releaseRegion kend s index = some s') : RegionIds s' := by
  obtain ⟨s3, h3, rfl⟩ := Option.map_eq_some_iff.mp h
  exact (freeRegionPages_regionIds hs h3).setRegion (Or.inl rfl)

lemma closeSharedMemory_regionIds {p : Fin nproc} {a : Nat} {ret : Int} (hs : RegionIds s)
    (h : closeSharedMemory kend s p a = some (s', ret)) : RegionIds s' := by
  simp only [closeSharedMemory] at h
  split at h
  · cases h
    exact hs
  · split at h
    · cases h
      exact hs
    · split at h
      · cases h
        exact hs
      · simp only [Option.bind_eq_some_iff] at h
        obtain ⟨m, -, h⟩ := h
        split at h
        · obtain ⟨s3, h3, h⟩ := Option.map_eq_some_iff.mp h
          cases h
          refine releaseRegion_regionIds (decrementNattch_regionIds ?_) h3
          exact hs
        · cases h
          refine decrementNattch_regionIds ?_
          exact hs

lemma forkSharedMemory_regionIds {parent child : Fin nproc} (hs : RegionIds s)
    (h : forkSharedMemory kend s parent child = some s') : RegionIds s' := by
  refine Run.exec_invariant (fun t i t' ht hi => ?_) hs h
  dsimp only at hi
  split at hi
  · split at hi
    · cases hi
    · split at hi
      · refine mapPagesWrapperLoop_regionIds ?_ hi
        exact ht
      · cases hi
        exact ht
  · cases hi
    exact ht

lemma exitSharedMemory_regionIds {p : Fin nproc} (hs : RegionIds s)
    (h : exitSharedMemory kend s p = some s') : RegionIds s' := by
  refine Run.exec_invariant (fun t i t' ht hi => ?_) hs h
  dsimp only at hi
  split at hi
  · obtain ⟨r, hr, rfl⟩ := Option.map_eq_some_iff.mp hi
    exact closeSharedMemory_regionIds ht hr
  · cases hi
    exact ht

lemma step_regionIds {m m' : Machine} {e : Event} (hm : RegionIds m.shm)
    (h : step kend m e = some m') : RegionIds m'.shm := by
  cases e with
  | openShm p memId =>
    simp only [step] at h
    split at h
    · obtain ⟨r, hr, rfl⟩ := Option.map_eq_some_iff.mp h
      exact openSharedMemory_regionIds hm hr
    · cases h
  | closeShm p addr =>
    simp only [step] at h
    split at h
    · obtain ⟨r, hr, rfl⟩ := Option.map_eq_some_iff.mp h
      exact closeSharedMemory_regionIds hm hr
    · cases h
  | fork p c =>
    simp only [step] at h
    split at h
    · obtain ⟨r, hr, rfl⟩ := Option.map_eq_some_iff.mp h
      refine forkSharedMemory_regionIds ?_ hr
      exact hm
    · cases h
  | exit p =>
    simp only [step] at h
    split at h
    · obtain ⟨r, hr, rfl⟩ := Option.map_eq_some_iff.mp h
      exact exitSharedMemory_regionIds hm hr
    · cases h

theorem reachable_regionIds {k : Kmem} {alive : Fin nproc → Bool} {m : Machine}
    (h : Reachable kend k alive m) : RegionIds m.shm := by
  refine @Run.invariant _ _ (fun m : Machine => RegionIds m.shm)
    (fun a b ha hab => ?_) _ _ ?_ h
  · obtain ⟨e, he⟩ := hab
    exact step_regionIds ha he
  · intro i
    exact Or.inl rfl

lemma RegionIds.begin_found (h : RegionIds s) {memId index : Int}
    (hb : openSharedMemoryBegin s memId = some (.found index)) : index = memId := by
  simp only [openSharedMemoryBegin] at hb
  split at hb
  · cases hb
  · obtain ⟨m, hm, hb⟩ := Option.map_eq_some_iff.mp hb
    split at hb
    · cases hb
    · rename_i hne
      cases hb
      rcases h m with h1 | h1
      · exact absurd h1 hne
      · rw [h1]
        exact CArray.index?_eq_some.mp hm

theorem reachable_open_finds_asked_region {k : Kmem} {alive : Fin nproc → Bool} {m : Machine}
    (h : Reachable kend k alive m) :
    RegionIds m.shm ∧ ∀ memId index : Int,
      openSharedMemoryBegin m.shm memId = some (.found index) → index = memId := by
  have hids := reachable_regionIds h
  exact ⟨hids, fun _ _ hb => hids.begin_found hb⟩

theorem reachable_open_finds_asked_region_after_opens :
    ∃ m, Run.exec (step 0x80400000)
        (Machine.init ⟨[0x8dfff000, 0x8dffe000, 0x8dffd000, 0x8dffc000]⟩ fun p => p.val < 2)
        [.openShm 1 0, .openShm 0 5] = some m ∧
      openSharedMemoryBegin m.shm 5 = some (.found 5) ∧ RegionIds m.shm := by
  obtain ⟨m, hm, hb⟩ : ∃ m, Run.exec (step 0x80400000)
      (Machine.init ⟨[0x8dfff000, 0x8dffe000, 0x8dffd000, 0x8dffc000]⟩ fun p => p.val < 2)
      [.openShm 1 0, .openShm 0 5] = some m ∧ openSharedMemoryBegin m.shm 5 = some (.found 5) :=
    ⟨_, rfl, rfl⟩
  exact ⟨m, hm, hb, (reachable_open_finds_asked_region (Run.exec_reach hm)).1⟩

end RegionIds

section Close

variable {kend : Nat} {s s' : State}

lemma decrementNattch_of_pos {m : Fin numSharedMemory} (h : 0 < (s.shaaredMem m).sharedMemoryNattch) :
    decrementNattch s m = s.setRegion m { (s.shaaredMem m) with
      sharedMemoryNattch := (s.shaaredMem m).sharedMemoryNattch - 1 } := by
  simp only [decrementNattch, h, if_true]

lemma releaseRegion_spec {index : Fin numSharedMemory} (h : releaseRegion kend s index = some s') :
    s'.proc = s.proc ∧ (∀ j, j ≠ index → s'.shaaredMem j = s.shaaredMem j) ∧
      (s'.shaaredMem index).memId = -1 ∧ (s'.shaaredMem index).sharedMemoryNattch = 0 ∧
      (s'.shaaredMem index).size = 0 ∧
      ∃ freed : List Nat, s'.kmem.freelist = freed ++ s.kmem.freelist ∧
        ∀ v, v ∈ freed ↔ ∃ j : Fin numSharedMemory, (j : Nat) < (s.shaaredMem index).size ∧
          v = p2v ((s.shaaredMem index).physicalAddress j) := by
  obtain ⟨s3, h3, rfl⟩ := Option.map_eq_some_iff.mp h
  obtain ⟨hproc, f, hf⟩ := freeRegionPages_frame h3
  obtain ⟨freed, hfl, hfreed⟩ := freeRegionPages_freelist List.nodup_range h3
  refine ⟨by rw [setRegion_proc, hproc], fun j hj => ?_, by simp, by simp, by simp, freed, hfl,
    fun v => ?_⟩
  · simp [Function.update_of_ne hj, hf]
  · simp only [hfreed, List.mem_range]

theorem closeSharedMemory_frees_slot_region {p : Fin nproc} {a : Nat} {i m : Fin numSharedMemory}
    (hi : Table.first? (fun j => ((s.proc p).pages j).attached &&
      ((s.proc p).pages j).virtualAddress == a) = some i)
    (hm : ((s.proc p).pages i).memId = m) (hlast : (s.shaaredMem m).sharedMemoryNattch = 1)
    (hne : m ≠ i) (h : closeSharedMemory kend s p a = some (s', 0)) :
    (∀ q, q ≠ p → s'.proc q = s.proc q) ∧
      s'.shaaredMem m = { (s.shaaredMem m) with sharedMemoryNattch := 0 } ∧
      (s'.shaaredMem i).memId = -1 ∧ (s'.shaaredMem i).sharedMemoryNattch = 0 ∧
      ∃ freed : List Nat, s'.kmem.freelist = freed ++ s.kmem.freelist ∧
        ∀ v, v ∈ freed ↔ ∃ j : Fin numSharedMemory, (j : Nat) < (s.shaaredMem i).size ∧
          v = p2v ((s.shaaredMem i).physicalAddress j) := by
  simp only [closeSharedMemory, hi] at h
  split at h
  · cases h
  · split at h
    · cases h
    · rename_i pd _
      rw [hm, CArray.index?_fin] at h
      simp only [Option.bind_some] at h
      have hdec : decrementNattch ((s.setPgdir p pd).setPage p i .unused) m =
          ((s.setPgdir p pd).setPage p i .unused).setRegion m
            { (s.shaaredMem m) with sharedMemoryNattch := 0 } := by
        rw [decrementNattch_of_pos (by simp [hlast])]
        simp [hlast]
      rw [hdec] at h
      simp only [setRegion_shaaredMem, Function.update_self, if_true] at h
      obtain ⟨s3, h3, hs3⟩ := Option.map_eq_some_iff.mp h
      cases hs3
      obtain ⟨hproc, hother, hid, hn, -, freed, hfl, hfreed⟩ := releaseRegion_spec h3
      simp only [setRegion_shaaredMem, setPage_shaaredMem, setPgdir_shaaredMem,
        Function.update_of_ne hne.symm] at hfreed
      refine ⟨fun q hq => ?_, ?_, hid, hn, freed, hfl, hfreed⟩
      · rw [hproc]
        simp [hq]
      · rw [hother m hne]
        simp

theorem close_shared_memory_frees_other_region :
    ∃ m, Run.exec (step 0x80400000)
        (Machine.init ⟨[0x8dfff000, 0x8dffe000, 0x8dffd000, 0x8dffc000]⟩ fun p => p.val < 2)
        [.openShm 1 0, .openShm 0 5, .closeShm 0 heapLimit] = some m ∧
      ((m.shm.proc 1).pages 0).attached ∧ ((m.shm.proc 1).pages 0).memId = 0 ∧
      (m.shm.shaaredMem 0).sharedMemoryNattch = 0 ∧
      (m.shm.proc 1).pgdir.translate heapLimit = some (v2p 0x8dfff000) ∧
      0x8dfff000 ∈ m.shm.kmem.freelist ∧
      (m.shm.shaaredMem 5).sharedMemoryNattch = 0 ∧ (m.shm.shaaredMem 5).memId = 5 ∧
      (m.shm.shaaredMem 5).physicalAddress 0 = v2p 0x8dffd000 ∧ 0x8dffd000 ∉ m.shm.kmem.freelist := by
  obtain ⟨m2, s', h2, hclose, halive, hi, hm, hlast, hatt, hid1, htr, hid5, hpa5, hsize0, hpa0,
      hfree, hother⟩ :
      ∃ m2 s', Run.exec (step 0x80400000)
          (Machine.init ⟨[0x8dfff000, 0x8dffe000, 0x8dffd000, 0x8dffc000]⟩ fun p => p.val < 2)
          [.openShm 1 0, .openShm 0 5] = some m2 ∧
        closeSharedMemory 0x80400000 m2.shm 0 heapLimit = some (s', 0) ∧ m2.alive 0 = true ∧
        Table.first? (fun j => ((m2.shm.proc 0).pages j).attached &&
          ((m2.shm.proc 0).pages j).virtualAddress == heapLimit) = some 0 ∧
        ((m2.shm.proc 0).pages 0).memId = ((5 : Fin numSharedMemory) : Int) ∧
        (m2.shm.shaaredMem 5).sharedMemoryNattch = 1 ∧
        ((m2.shm.proc 1).pages 0).attached ∧ ((m2.shm.proc 1).pages 0).memId = 0 ∧
        (m2.shm.proc 1).pgdir.translate heapLimit = some (v2p 0x8dfff000) ∧
        (m2.shm.shaaredMem 5).memId = 5 ∧
        (m2.shm.shaaredMem 5).physicalAddress 0 = v2p 0x8dffd000 ∧
        0 < (m2.shm.shaaredMem 0).size ∧ p2v ((m2.shm.shaaredMem 0).physicalAddress 0) = 0x8dfff000 ∧
        0x8dffd000 ∉ m2.shm.kmem.freelist ∧
        ∀ j : Fin numSharedMemory, p2v ((m2.shm.shaaredMem 0).physicalAddress j) ≠ 0x8dffd000 :=
    ⟨_, _, rfl, rfl, by decide⟩
  obtain ⟨hframe, hreg5, -, hn0, freed, hfl, hfreed⟩ :=
    closeSharedMemory_frees_slot_region hi hm hlast (by decide) hclose
  have hproc1 : s'.proc 1 = m2.shm.proc 1 := hframe 1 (by decide)
  have hrun : Run.exec (step 0x80400000)
      (Machine.init ⟨[0x8dfff000, 0x8dffe000, 0x8dffd000, 0x8dffc000]⟩ fun p => p.val < 2)
      [.openShm 1 0, .openShm 0 5, .closeShm 0 heapLimit] = some { m2 with shm := s' } := by
    rw [show [Event.openShm 1 0, .openShm 0 5, .closeShm 0 heapLimit] =
      [.openShm 1 0, .openShm 0 5] ++ [.closeShm 0 heapLimit] from rfl, Run.exec_append, h2]
    simp [step, halive, hclose]
  refine ⟨_, hrun, ?_, ?_, hn0, ?_, ?_, ?_, ?_, ?_, ?_⟩
  · rw [hproc1]
    exact hatt
  · rw [hproc1]
    exact hid1
  · rw [hproc1]
    exact htr
  · rw [hfl]
    exact List.mem_append_left _ ((hfreed _).mpr ⟨0, hsize0, hpa0.symm⟩)
  · rw [hreg5]
  · rw [hreg5]
    exact hid5
  · rw [hreg5]
    exact hpa5
  · rw [hfl, List.mem_append, not_or]
    refine ⟨fun h => ?_, hfree⟩
    obtain ⟨j, -, hj⟩ := (hfreed _).mp h
    exact hother j hj.symm

end Close

end Xv6.Shm
