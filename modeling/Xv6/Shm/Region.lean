import Xv6.Vm.Memory
import Xv6.Lib.CArray
import Xv6.Lib.Table

/-! The shared-memory regions of `vm.c`: the global `SharedMemoryTable`, each process's
attachment slots `pages[]`, and the calls that create, attach and detach regions, with the
shared-memory parts of `fork` and `exit` from `proc.c`.

`SharedMemoryTable.lock` is held over each call except for the window that
`open_shared_memory` opens around `create_shared_memory`; `openSharedMemory` is therefore built
from the locked pieces on either side of that window, which `Xv6.Shm.Race` interleaves. The
`key` fields are `uint`s, so the source's `-1` is stored there as `0xFFFFFFFF`; a `void *`
result of `(void *)-1` is that value too. -/

namespace Xv6.Shm

open Vm

structure SharedMemory where
  memId : Int
  key : Nat
  size : Nat
  virtualAddress : Nat
deriving DecidableEq, Repr

def SharedMemory.unused : SharedMemory := ⟨-1, CInt.toUint (-1), 0, 0⟩

def SharedMemory.attached (m : SharedMemory) : Bool := m.key != CInt.toUint (-1)

structure SharedMemoryRegion where
  key : Nat
  size : Nat
  sharedMemoryPartSize : Nat
  memId : Int
  sharedMemoryNattch : Int
  physicalAddress : Fin numSharedMemory → Nat

def SharedMemoryRegion.init : SharedMemoryRegion := ⟨CInt.toUint (-1), 0, 0, -1, 0, fun _ => 0⟩

structure ShmProc where
  pages : Fin numSharedMemory → SharedMemory
  pgdir : Pgdir

def ShmProc.fresh : ShmProc := ⟨fun _ => .unused, .empty⟩

structure State where
  shaaredMem : Fin numSharedMemory → SharedMemoryRegion
  kmem : Kmem
  proc : Fin nproc → ShmProc

def State.setRegion (s : State) (i : Fin numSharedMemory) (r : SharedMemoryRegion) : State :=
  { s with shaaredMem := Function.update s.shaaredMem i r }

def State.setPgdir (s : State) (p : Fin nproc) (pd : Pgdir) : State :=
  { s with proc := Function.update s.proc p { (s.proc p) with pgdir := pd } }

def State.setPage (s : State) (p : Fin nproc) (i : Fin numSharedMemory) (m : SharedMemory) : State :=
  let q : ShmProc := { (s.proc p) with pages := Function.update (s.proc p).pages i m }
  { s with proc := Function.update s.proc p q }

def inithialSharedMemory : Fin numSharedMemory → SharedMemoryRegion := fun _ => .init

def createPages (s : State) (givenIndex : Int) : List Nat → Option (State × Bool)
  | [] => some (s, true)
  | i :: is =>
    match kalloc s.kmem with
    | none => some (s, false)
    | some (newPage, k) => do
      let g ← CArray.index? numSharedMemory givenIndex
      let j ← CArray.index? numSharedMemory i
      createPages ({ s with kmem := k }.setRegion g { (s.shaaredMem g) with
        physicalAddress := Function.update (s.shaaredMem g).physicalAddress j (v2p newPage) })
        givenIndex is

def createSharedMemory (s : State) (size : Nat) (givenIndex : Int) : Option (State × Int) :=
  let numOfPages := size / pgSize + 1
  if size = 0 ∨ numSharedMemory < numOfPages then some (s, -1)
  else
    match createPages s givenIndex (List.range numOfPages) with
    | none => none
    | some (s', false) => some (s', -1)
    | some (s', true) =>
      match CArray.index? numSharedMemory givenIndex with
      | none => none
      | some g =>
        some (s'.setRegion g { (s'.shaaredMem g) with
          key := 0
          memId := givenIndex
          size := numOfPages
          sharedMemoryPartSize := size }, givenIndex)

def getSharedMemoryIndex (s : State) (memId : Int) : Option Int :=
  if memId < 0 ∨ numSharedMemory < memId then some (-1)
  else (CArray.index? numSharedMemory memId).map fun m => (s.shaaredMem m).memId

def getLeastIndex (currentAddress : Nat) (pages : Fin numSharedMemory → SharedMemory) :
    Option (Fin numSharedMemory) :=
  (Table.loop (fun (acc : Option (Fin numSharedMemory) × Nat) i =>
    if (pages i).attached ∧ currentAddress ≤ (pages i).virtualAddress ∧
        (pages i).virtualAddress ≤ acc.2 then (some i, (pages i).virtualAddress)
    else acc) (none, kernBase - 1)).1

def placeSharedMemory (pages : Fin numSharedMemory → SharedMemory) (size : Nat) :
    Nat → Nat → Nat
  | 0, va => va
  | n + 1, va =>
    match getLeastIndex va pages with
    | none => va
    | some f =>
      if CInt.toUint (va + size * pgSize) ≤ (pages f).virtualAddress then va
      else placeSharedMemory pages size n
        (CInt.toUint ((pages f).virtualAddress + (pages f).size * pgSize))

def overlapsAttachment (pages : Fin numSharedMemory → SharedMemory) (va : Nat) : Bool :=
  (Table.first? fun i => (pages i).attached &&
    decide (va < CInt.toUint ((pages i).virtualAddress + (pages i).size * pgSize)) &&
    decide ((pages i).virtualAddress ≤ va)).isSome

def mapRegion (kend : Nat) (k : Kmem) (pd : Pgdir) (va : Nat) (r : SharedMemoryRegion) :
    List Nat → Option (Kmem × Pgdir × Bool)
  | [] => some (k, pd, true)
  | i :: is => do
    let j ← CArray.index? numSharedMemory i
    let (k', pd', ret) ← mappages k pd (CInt.toUint (va + i * pgSize)) pgSize (r.physicalAddress j) 6
    if ret < 0 then
      (deallocuvm kend k' pd' va (CInt.toUint (va + r.size))).map fun d => (d.1, d.2.1, false)
    else mapRegion kend k' pd' va r is

inductive OpenStart
  | invalid
  | found (index : Int)
  | missing
deriving DecidableEq, Repr

def openSharedMemoryBegin (s : State) (memId : Int) : Option OpenStart :=
  if memId < 0 ∨ numSharedMemory < memId then some .invalid
  else (CArray.index? numSharedMemory memId).map fun m =>
    if (s.shaaredMem m).memId = -1 then .missing else .found (s.shaaredMem m).memId

def openSharedMemoryAttach (kend : Nat) (s : State) (p : Fin nproc) (memId index : Int) :
    Option (State × Nat) :=
  if index = -1 then some (s, CInt.toUint (-1))
  else
    match CArray.index? numSharedMemory index with
    | none => none
    | some ri =>
      let r := s.shaaredMem ri
      let pages := (s.proc p).pages
      let va := placeSharedMemory pages r.size numSharedMemory heapLimit
      if kernBase ≤ CInt.toUint (va + r.size * pgSize) then some (s, CInt.toUint (-1))
      else if overlapsAttachment pages va then some (s, CInt.toUint (-1))
      else
        match mapRegion kend s.kmem (s.proc p).pgdir va r (List.range r.size) with
        | none => none
        | some (k, pd, false) => some ({ s with kmem := k }.setPgdir p pd, CInt.toUint (-1))
        | some (k, pd, true) =>
          let s' := { s with kmem := k }.setPgdir p pd
          match Table.first? fun i => !(pages i).attached with
          | none => some (s', CInt.toUint (-1))
          | some f =>
            some ((s'.setRegion ri { r with sharedMemoryNattch := r.sharedMemoryNattch + 1 }).setPage
              p f ⟨memId, r.key, r.size, va⟩, va)

def openSharedMemory (kend : Nat) (s : State) (p : Fin nproc) (memId : Int) : Option (State × Nat) :=
  match openSharedMemoryBegin s memId with
  | none => none
  | some .invalid => some (s, CInt.toUint (-1))
  | some (.found index) => openSharedMemoryAttach kend s p memId index
  | some .missing =>
    match createSharedMemory s 2565 memId with
    | none => none
    | some (s', index) => openSharedMemoryAttach kend s' p memId index

def mapPagesWrapperLoop (kend : Nat) (p : Fin nproc) (memId : Int) (index : Fin numSharedMemory)
    (s : State) : List Nat → Option State
  | [] => some s
  | i :: is => do
    let va := ((s.proc p).pages index).virtualAddress
    let m ← CArray.index? numSharedMemory memId
    let j ← CArray.index? numSharedMemory i
    let (k, pd, ret) ← mappages s.kmem (s.proc p).pgdir (CInt.toUint (va + i * pgSize)) pgSize
      ((s.shaaredMem m).physicalAddress j) 6
    if ret < 0 then
      (deallocuvm kend k pd va (CInt.toUint (va + (s.shaaredMem m).size))).map fun d =>
        { s with kmem := d.1 }.setPgdir p d.2.1
    else
      mapPagesWrapperLoop kend p memId index
        (({ s with kmem := k }.setPgdir p pd).setRegion m { (s.shaaredMem m) with
          sharedMemoryNattch := (s.shaaredMem m).sharedMemoryNattch + 1 }) is

def mapPagesWrapper (kend : Nat) (s : State) (p : Fin nproc) (memId : Int)
    (index : Fin numSharedMemory) : Option State :=
  mapPagesWrapperLoop kend p memId index s (List.range ((s.proc p).pages index).size)

def clearPtes (k : Kmem) (pd : Pgdir) (va : Nat) : List Nat → Pgdir × Bool
  | [] => (pd, true)
  | i :: is =>
    match walkpgdir k pd (CInt.toUint (va + i * pgSize)) false with
    | none => (pd, false)
    | some (_, _, d, x) => clearPtes k (pd.setPte d x 0) va is

def freeRegionPages (kend : Nat) (r : Fin numSharedMemory) (s : State) : List Nat → Option State
  | [] => some s
  | i :: is => do
    let j ← CArray.index? numSharedMemory i
    let k ← kfree kend s.kmem (p2v ((s.shaaredMem r).physicalAddress j))
    freeRegionPages kend r ({ s with kmem := k }.setRegion r { (s.shaaredMem r) with
      physicalAddress := Function.update (s.shaaredMem r).physicalAddress j 0 }) is

def decrementNattch (s : State) (m : Fin numSharedMemory) : State :=
  let n := (s.shaaredMem m).sharedMemoryNattch
  if 0 < n then s.setRegion m { (s.shaaredMem m) with sharedMemoryNattch := n - 1 } else s

def releaseRegion (kend : Nat) (s : State) (index : Fin numSharedMemory) : Option State :=
  (freeRegionPages kend index s (List.range (s.shaaredMem index).size)).map fun s' =>
    s'.setRegion index { (s'.shaaredMem index) with
      size := 0
      sharedMemoryNattch := 0
      sharedMemoryPartSize := 0
      key := CInt.toUint (-1)
      memId := -1 }

def closeSharedMemory (kend : Nat) (s : State) (p : Fin nproc) (shmaddr : Nat) : Option (State × Int) :=
  let pages := (s.proc p).pages
  match Table.first? fun i => (pages i).attached && (pages i).virtualAddress == shmaddr with
  | none => some (s, -1)
  | some index =>
    let slot := pages index
    if slot.virtualAddress = 0 then some (s, -1)
    else
      match clearPtes s.kmem (s.proc p).pgdir slot.virtualAddress (List.range slot.size) with
      | (pd, false) => some (s.setPgdir p pd, -1)
      | (pd, true) =>
        (CArray.index? numSharedMemory slot.memId).bind fun m =>
          let s' := decrementNattch ((s.setPgdir p pd).setPage p index .unused) m
          if (s'.shaaredMem m).sharedMemoryNattch = 0 then
            (releaseRegion kend s' index).map fun s'' => (s'', 0)
          else some (s', 0)

def forkSharedMemory (kend : Nat) (s : State) (parent child : Fin nproc) : Option State :=
  (List.finRange numSharedMemory).foldlM (fun s i =>
    let page := (s.proc parent).pages i
    if page.attached ∧ page.memId ≠ -1 then
      let s' := s.setPage child i page
      match getSharedMemoryIndex s' page.memId with
      | none => none
      | some index => if index ≠ -1 then mapPagesWrapper kend s' child index i else some s'
    else some s) s

def exitSharedMemory (kend : Nat) (s : State) (p : Fin nproc) : Option State :=
  (List.finRange numSharedMemory).foldlM (fun s i =>
    let page := (s.proc p).pages i
    if page.memId ≠ -1 ∧ page.attached then
      (closeSharedMemory kend s p page.virtualAddress).map Prod.fst
    else some s) s

@[simp] lemma setRegion_shaaredMem (s : State) (i : Fin numSharedMemory) (r : SharedMemoryRegion) :
    (s.setRegion i r).shaaredMem = Function.update s.shaaredMem i r := rfl

@[simp] lemma setRegion_proc (s : State) (i : Fin numSharedMemory) (r : SharedMemoryRegion) :
    (s.setRegion i r).proc = s.proc := rfl

@[simp] lemma setRegion_kmem (s : State) (i : Fin numSharedMemory) (r : SharedMemoryRegion) :
    (s.setRegion i r).kmem = s.kmem := rfl

@[simp] lemma setPgdir_shaaredMem (s : State) (p : Fin nproc) (pd : Pgdir) :
    (s.setPgdir p pd).shaaredMem = s.shaaredMem := rfl

@[simp] lemma setPgdir_kmem (s : State) (p : Fin nproc) (pd : Pgdir) :
    (s.setPgdir p pd).kmem = s.kmem := rfl

@[simp] lemma setPage_shaaredMem (s : State) (p : Fin nproc) (i : Fin numSharedMemory)
    (m : SharedMemory) : (s.setPage p i m).shaaredMem = s.shaaredMem := rfl

@[simp] lemma setPage_kmem (s : State) (p : Fin nproc) (i : Fin numSharedMemory) (m : SharedMemory) :
    (s.setPage p i m).kmem = s.kmem := rfl

@[simp] lemma setPgdir_proc_self (s : State) (p : Fin nproc) (pd : Pgdir) :
    (s.setPgdir p pd).proc p = { s.proc p with pgdir := pd } := by
  simp [State.setPgdir]

@[simp] lemma setPage_proc_self (s : State) (p : Fin nproc) (i : Fin numSharedMemory)
    (m : SharedMemory) :
    (s.setPage p i m).proc p = { s.proc p with pages := Function.update (s.proc p).pages i m } := by
  simp [State.setPage]

@[simp] lemma setPgdir_proc_of_ne (s : State) {p q : Fin nproc} (pd : Pgdir) (h : q ≠ p) :
    (s.setPgdir p pd).proc q = s.proc q := by
  simp [State.setPgdir, Function.update_of_ne h]

@[simp] lemma setPage_proc_of_ne (s : State) {p q : Fin nproc} (i : Fin numSharedMemory)
    (m : SharedMemory) (h : q ≠ p) : (s.setPage p i m).proc q = s.proc q := by
  simp [State.setPage, Function.update_of_ne h]

@[simp] lemma decrementNattch_proc (s : State) (m : Fin numSharedMemory) :
    (decrementNattch s m).proc = s.proc := by
  simp only [decrementNattch]
  split <;> rfl

@[simp] lemma decrementNattch_kmem (s : State) (m : Fin numSharedMemory) :
    (decrementNattch s m).kmem = s.kmem := by
  simp only [decrementNattch]
  split <;> rfl

lemma createPages_proc {s s' : State} {g : Int} {l : List Nat} {b : Bool}
    (h : createPages s g l = some (s', b)) : s'.proc = s.proc := by
  induction l generalizing s with
  | nil =>
    simp only [createPages, Option.some.injEq, Prod.mk.injEq] at h
    rw [h.1]
  | cons i is ih =>
    simp only [createPages] at h
    split at h
    · simp only [Option.some.injEq, Prod.mk.injEq] at h
      rw [h.1]
    · simp only [Option.bind_eq_bind, Option.bind_eq_some_iff] at h
      obtain ⟨g', -, j, -, h⟩ := h
      rw [ih h]
      rfl

lemma createSharedMemory_proc {s s' : State} {size : Nat} {g r : Int}
    (h : createSharedMemory s size g = some (s', r)) : s'.proc = s.proc := by
  simp only [createSharedMemory] at h
  split at h
  · cases h
    rfl
  · split at h
    · cases h
    · cases h
      exact createPages_proc (by assumption)
    · rename_i s'' hc
      split at h
      · cases h
      · cases h
        rw [setRegion_proc, createPages_proc hc]

lemma openSharedMemoryAttach_proc_of_ne {kend : Nat} {s s' : State} {p q : Fin nproc}
    {memId index : Int} {v : Nat} (hq : q ≠ p)
    (h : openSharedMemoryAttach kend s p memId index = some (s', v)) : s'.proc q = s.proc q := by
  simp only [openSharedMemoryAttach] at h
  split at h
  · cases h
    rfl
  · split at h
    · cases h
    · split at h
      · cases h
        rfl
      · split at h
        · cases h
          rfl
        · split at h
          · cases h
          · cases h
            simp [hq]
          · split at h
            · cases h
              simp [hq]
            · cases h
              simp [hq]

lemma freeRegionPages_cons {kend : Nat} {r : Fin numSharedMemory} {i : Nat} {is : List Nat}
    {s s' : State} (h : freeRegionPages kend r s (i :: is) = some s') :
    ∃ j k, CArray.index? numSharedMemory i = some j ∧
      kfree kend s.kmem (p2v ((s.shaaredMem r).physicalAddress j)) = some k ∧
      freeRegionPages kend r ({ s with kmem := k }.setRegion r { (s.shaaredMem r) with
        physicalAddress := Function.update (s.shaaredMem r).physicalAddress j 0 }) is = some s' := by
  simp only [freeRegionPages, Option.bind_eq_bind, Option.bind_eq_some_iff] at h
  obtain ⟨j, hj, k, hk, h⟩ := h
  exact ⟨j, k, hj, hk, h⟩

lemma freeRegionPages_frame {kend : Nat} {r : Fin numSharedMemory} {l : List Nat} {s s' : State}
    (h : freeRegionPages kend r s l = some s') :
    s'.proc = s.proc ∧ ∃ f, s'.shaaredMem = Function.update s.shaaredMem r
      { (s.shaaredMem r) with physicalAddress := f } := by
  induction l generalizing s with
  | nil =>
    simp only [freeRegionPages, Option.some.injEq] at h
    subst h
    exact ⟨rfl, (s.shaaredMem r).physicalAddress, by simp⟩
  | cons i is ih =>
    obtain ⟨j, k, -, -, h⟩ := freeRegionPages_cons h
    obtain ⟨hproc, f, hf⟩ := ih h
    refine ⟨hproc, f, ?_⟩
    rw [hf]
    simp

lemma freeRegionPages_freelist {kend : Nat} {r : Fin numSharedMemory} {l : List Nat} {s s' : State}
    (hnd : l.Nodup) (h : freeRegionPages kend r s l = some s') :
    ∃ freed : List Nat, s'.kmem.freelist = freed ++ s.kmem.freelist ∧
      ∀ v, v ∈ freed ↔ ∃ j : Fin numSharedMemory, (j : Nat) ∈ l ∧
        v = p2v ((s.shaaredMem r).physicalAddress j) := by
  induction l generalizing s with
  | nil =>
    simp only [freeRegionPages, Option.some.injEq] at h
    subst h
    exact ⟨[], rfl, by simp⟩
  | cons i is ih =>
    obtain ⟨j, k, hj, hk, h⟩ := freeRegionPages_cons h
    obtain ⟨hi, hnd'⟩ := List.nodup_cons.mp hnd
    obtain ⟨freed, hfl, hfreed⟩ := ih hnd' h
    have hji : (j : Nat) = i := by exact_mod_cast CArray.index?_eq_some.mp hj
    have hrest : ∀ j' : Fin numSharedMemory, (j' : Nat) ∈ is →
        Function.update (s.shaaredMem r).physicalAddress j 0 j' =
          (s.shaaredMem r).physicalAddress j' :=
      fun j' hj' => Function.update_of_ne (fun e => hi (by rw [← hji, ← e]; exact hj')) _ _
    refine ⟨freed ++ [p2v ((s.shaaredMem r).physicalAddress j)], ?_, fun v => ?_⟩
    · rw [hfl, setRegion_kmem, kfree_freelist hk, List.append_assoc]
      rfl
    · simp only [List.mem_append, hfreed, List.mem_singleton, setRegion_shaaredMem,
        Function.update_self]
      constructor
      · rintro (⟨j', hj', hv⟩ | hv)
        · exact ⟨j', List.mem_cons_of_mem i hj', by rw [hv, hrest j' hj']⟩
        · exact ⟨j, List.mem_cons.mpr (.inl hji), hv⟩
      · rintro ⟨j', hj', hv⟩
        rcases List.mem_cons.mp hj' with e | hj'
        · have hjj : j' = j := Fin.ext (by omega)
          exact .inr (by rw [hv, hjj])
        · exact .inl ⟨j', hj', by rw [hv, hrest j' hj']⟩

end Xv6.Shm
