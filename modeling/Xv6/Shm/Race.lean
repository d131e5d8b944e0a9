import Xv6.Shm.System

/-! Concurrent `open_shared_memory` calls. A call that finds its region missing releases
`SharedMemoryTable.lock`, runs `create_shared_memory` (which takes the lock itself) and takes the
lock again for the rest; other CPUs may run in both windows. Each process therefore goes
through three locked steps, `begin`, `create` and `attach`, which interleave with the other
processes' steps. Run back to back, with no other process between them, they are the sequential
`openSharedMemory` (`interleave_open_alone`); interleaved, two openers of a fresh region both
create it, and the first opener keeps a frame the region no longer records. -/

namespace Xv6.Shm

open Vm

inductive Phase
  | idle
  | creating (memId : Int)
  | attaching (memId index : Int)
deriving DecidableEq, Repr

structure Interleaving where
  shm : State
  phase : Fin nproc → Phase

inductive Action
  | begin (p : Fin nproc) (memId : Int)
  | create (p : Fin nproc)
  | attach (p : Fin nproc)

def interleave (kend : Nat) (c : Interleaving) : Action → Option Interleaving
  | .begin p memId =>
    match c.phase p with
    | .idle =>
      match openSharedMemoryBegin c.shm memId with
      | none => none
      | some .invalid => some c
      | some (.found index) =>
        (openSharedMemoryAttach kend c.shm p memId index).map fun r => { c with shm := r.1 }
      | some .missing => some { c with phase := Function.update c.phase p (.creating memId) }
    | _ => none
  | .create p =>
    match c.phase p with
    | .creating memId =>
      (createSharedMemory c.shm 2565 memId).map fun r =>
        ⟨r.1, Function.update c.phase p (.attaching memId r.2)⟩
    | _ => none
  | .attach p =>
    match c.phase p with
    | .attaching memId index =>
      (openSharedMemoryAttach kend c.shm p memId index).map fun r =>
        ⟨r.1, Function.update c.phase p .idle⟩
    | _ => none

def Interleaving.init (k : Kmem) : Interleaving :=
  ⟨⟨inithialSharedMemory, k, fun _ => .fresh⟩, fun _ => .idle⟩

lemma openSharedMemory_of_missing {kend : Nat} {s : State} {p : Fin nproc} {memId : Int}
    (hmissing : openSharedMemoryBegin s memId = some .missing) :
    openSharedMemory kend s p memId =
      (createSharedMemory s 2565 memId).bind fun r => openSharedMemoryAttach kend r.1 p memId r.2 := by
  simp only [openSharedMemory, hmissing]
  cases createSharedMemory s 2565 memId <;> rfl

lemma interleave_begin_missing {kend : Nat} {c : Interleaving} {p : Fin nproc} {memId : Int}
    (hidle : c.phase p = .idle) (hmissing : openSharedMemoryBegin c.shm memId = some .missing) :
    interleave kend c (.begin p memId) =
      some { c with phase := Function.update c.phase p (.creating memId) } := by
  simp only [interleave, hidle, hmissing]

lemma interleave_create_attach {kend : Nat} {c : Interleaving} {p : Fin nproc} {memId : Int}
    (hcreating : c.phase p = .creating memId) :
    Run.exec (interleave kend) c [.create p, .attach p] =
      ((createSharedMemory c.shm 2565 memId).bind fun r =>
        openSharedMemoryAttach kend r.1 p memId r.2).map
          fun r => ⟨r.1, Function.update c.phase p .idle⟩ := by
  simp only [Run.exec_cons, Run.exec_nil, interleave, hcreating]
  cases createSharedMemory c.shm 2565 memId with
  | none => rfl
  | some r =>
    simp only [Option.map_some, Option.bind_some, Function.update_self, Function.update_idem]
    cases openSharedMemoryAttach kend r.1 p memId r.2 <;> rfl

theorem open_shared_memory_race_splits_region :
    ∃ c, Run.exec (interleave 0x80400000)
        (Interleaving.init ⟨[0x8dfff000, 0x8dffe000, 0x8dffd000, 0x8dffc000]⟩)
        [.begin 0 0, .begin 1 0, .create 0, .attach 0, .create 1, .attach 1] = some c ∧
      c.phase 0 = .idle ∧ c.phase 1 = .idle ∧
      ((c.shm.proc 0).pages 0).attached ∧ ((c.shm.proc 0).pages 0).memId = 0 ∧
      ((c.shm.proc 1).pages 0).attached ∧ ((c.shm.proc 1).pages 0).memId = 0 ∧
      (c.shm.proc 0).pgdir.translate heapLimit = some (v2p 0x8dfff000) ∧
      (c.shm.proc 1).pgdir.translate heapLimit = some (v2p 0x8dffd000) ∧
      (c.shm.shaaredMem 0).physicalAddress 0 = v2p 0x8dffd000 ∧
      0x8dfff000 ∉ c.shm.kmem.freelist ∧
      ∀ r j : Fin numSharedMemory, (c.shm.shaaredMem r).physicalAddress j ≠ v2p 0x8dfff000 := by
  have hmissing : openSharedMemoryBegin
      (Interleaving.init ⟨[0x8dfff000, 0x8dffe000, 0x8dffd000, 0x8dffc000]⟩).shm 0 =
        some .missing := rfl
  have hbegins : Run.exec (interleave 0x80400000)
      (Interleaving.init ⟨[0x8dfff000, 0x8dffe000, 0x8dffd000, 0x8dffc000]⟩) [.begin 0 0, .begin 1 0] =
        some ⟨(Interleaving.init ⟨[0x8dfff000, 0x8dffe000, 0x8dffd000, 0x8dffc000]⟩).shm,
          Function.update (Function.update (fun _ => .idle) 0 (.creating 0)) 1 (.creating 0)⟩ := by
    rw [Run.exec_cons, interleave_begin_missing rfl hmissing, Option.bind_some, Run.exec_cons,
      interleave_begin_missing (c := ⟨_, Function.update
        (Interleaving.init ⟨[0x8dfff000, 0x8dffe000, 0x8dffd000, 0x8dffc000]⟩).phase 0 (.creating 0)⟩)
        (by decide) hmissing]
    rfl
  obtain ⟨s₀, s₁, h₀, h₁, hatt₀, hid₀, htr₀, hatt₁, hid₁, htr₁, hpa, hfree, hlost⟩ :
      ∃ s₀ s₁ : State, (openSharedMemory 0x80400000
          (Interleaving.init ⟨[0x8dfff000, 0x8dffe000, 0x8dffd000, 0x8dffc000]⟩).shm 0 0).map
            Prod.fst = some s₀ ∧
        (((createSharedMemory s₀ 2565 0).bind fun r =>
          openSharedMemoryAttach 0x80400000 r.1 1 0 r.2).map Prod.fst) = some s₁ ∧
        ((s₀.proc 0).pages 0).attached ∧ ((s₀.proc 0).pages 0).memId = 0 ∧
        (s₀.proc 0).pgdir.translate heapLimit = some (v2p 0x8dfff000) ∧
        ((s₁.proc 1).pages 0).attached ∧ ((s₁.proc 1).pages 0).memId = 0 ∧
        (s₁.proc 1).pgdir.translate heapLimit = some (v2p 0x8dffd000) ∧
        (s₁.shaaredMem 0).physicalAddress 0 = v2p 0x8dffd000 ∧
        0x8dfff000 ∉ s₁.kmem.freelist ∧
        ∀ r j : Fin numSharedMemory, (s₁.shaaredMem r).physicalAddress j ≠ v2p 0x8dfff000 :=
    ⟨_, _, rfl, rfl, by decide +kernel⟩
  obtain ⟨r₀, hr₀, rfl⟩ := Option.map_eq_some_iff.mp h₀
  obtain ⟨r₁, hr₁, rfl⟩ := Option.map_eq_some_iff.mp h₁
  have hproc₀ : r₁.1.proc 0 = r₀.1.proc 0 := by
    obtain ⟨r, hr, h⟩ := Option.bind_eq_some_iff.mp hr₁
    rw [openSharedMemoryAttach_proc_of_ne (by decide) h, createSharedMemory_proc hr]
  have hrun : Run.exec (interleave 0x80400000)
      (Interleaving.init ⟨[0x8dfff000, 0x8dffe000, 0x8dffd000, 0x8dffc000]⟩)
      [.begin 0 0, .begin 1 0, .create 0, .attach 0, .create 1, .attach 1] =
        some ⟨r₁.1, Function.update (Function.update
          (Function.update (Function.update (fun _ => .idle) 0 (.creating 0)) 1 (.creating 0))
            0 .idle) 1 .idle⟩ := by
    rw [show [Action.begin 0 0, .begin 1 0, .create 0, .attach 0, .create 1, .attach 1] =
        [.begin 0 0, .begin 1 0] ++ ([.create 0, .attach 0] ++ [.create 1, .attach 1]) from rfl,
      Run.exec_append, hbegins, Option.bind_some, Run.exec_append,
      interleave_create_attach rfl, ← openSharedMemory_of_missing hmissing, hr₀]
    rw [Option.map_some, Option.bind_some, interleave_create_attach rfl, hr₁]
    rfl
  refine ⟨_, hrun, rfl, rfl, ?_, ?_, hatt₁, hid₁, ?_, htr₁, hpa, hfree, hlost⟩
  · rw [hproc₀]
    exact hatt₀
  · rw [hproc₀]
    exact hid₀
  · rw [hproc₀]
    exact htr₀

end Xv6.Shm
