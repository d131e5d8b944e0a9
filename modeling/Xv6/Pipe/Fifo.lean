import Xv6.Lib.Ring
import Xv6.Lib.Run
import Xv6.Lib.CInt

/-! The pipe of `pipe.c`. A call of `pipewrite` or `piperead` runs under `p->lock` in segments:
from its start, or from a wakeup inside `sleep`, up to the next `sleep` or its return. Every
segment is one step of the system, so that any interleaving of the calls of any number of
processes, with ends closed and processes killed in between, is a run. The bytes `pipewrite`
stores and those `piperead` returns are recorded as they move; over every run the counters are
their counts modulo `2^32` and the `nwrite - nread` bytes in the ring are those stored and not
yet returned (`Pipe.Holds`), so what the readers return is a prefix of what the writers stored
(`pipe_fifo`). -/

namespace Xv6.Ipc

def pipeSize : Nat := 512

instance : NeZero pipeSize := ⟨by decide⟩

def uintMod : Nat := 2 ^ 32

lemma pipeSize_dvd_uintMod : pipeSize ∣ uintMod := ⟨2 ^ 23, rfl⟩

structure Pipe where
  data : Fin pipeSize → UInt8
  nread : Nat
  nwrite : Nat
  readopen : Bool
  writeopen : Bool

namespace Pipe

def full (p : Pipe) : Bool := p.nwrite == (p.nread + pipeSize) % uintMod

def empty (p : Pipe) : Bool := p.nread == p.nwrite

def put (p : Pipe) (b : UInt8) : Pipe :=
  { p with data := Function.update p.data (Ring.slot pipeSize p.nwrite) b,
           nwrite := (p.nwrite + 1) % uintMod }

def take (p : Pipe) : UInt8 × Pipe :=
  (p.data (Ring.slot pipeSize p.nread), { p with nread := (p.nread + 1) % uintMod })

end Pipe

inductive Outcome
  | sleep
  | ret (r : Int)
  deriving DecidableEq, Repr

def pipewriteLoop (killed : Bool) (n : Int) (p : Pipe) :
    List UInt8 → Pipe × List UInt8 × List UInt8 × Outcome
  | [] => (p, [], [], .ret n)
  | b :: bs =>
    if p.full then
      if !p.readopen || killed then (p, [], b :: bs, .ret (-1))
      else (p, [], b :: bs, .sleep)
    else
      let (p', stored, rest, o) := pipewriteLoop killed n (p.put b) bs
      (p', b :: stored, rest, o)

def pipereadCopy (p : Pipe) : Nat → Pipe × List UInt8
  | 0 => (p, [])
  | n + 1 =>
    if p.empty then (p, [])
    else
      let (b, p) := p.take
      let (p', out) := pipereadCopy p n
      (p', b :: out)

def piperead (killed : Bool) (n : Nat) (p : Pipe) : Pipe × List UInt8 × Outcome :=
  if p.empty && p.writeopen then
    if killed then (p, [], .ret (-1)) else (p, [], .sleep)
  else
    let (p', out) := pipereadCopy p n
    (p', out, .ret out.length)

def pipeclose (p : Pipe) (writable : Bool) : Pipe :=
  if writable then { p with writeopen := false } else { p with readopen := false }

def pipealloc (data : Fin pipeSize → UInt8) : Pipe := ⟨data, 0, 0, true, true⟩

inductive Call
  | idle
  | writing (rest : List UInt8) (n : Int)
  | reading (n : Nat)
  deriving DecidableEq, Repr

structure Sys (ι : Type) where
  pipe : Pipe
  call : ι → Call
  killed : ι → Bool
  stored : List UInt8
  returned : List UInt8

inductive Event (ι : Type)
  | write (pr : ι) (src : List UInt8)
  | read (pr : ι) (n : Nat)
  | wake (pr : ι)
  | close (writable : Bool)
  | kill (pr : ι)

variable {ι : Type} [DecidableEq ι]

namespace Sys

def after (o : Outcome) (c : Call) : Call :=
  match o with
  | .sleep => c
  | .ret _ => .idle

def runWrite (s : Sys ι) (pr : ι) (src : List UInt8) (n : Int) : Sys ι :=
  let (p, stored, rest, o) := pipewriteLoop (s.killed pr) n s.pipe src
  { s with pipe := p, stored := s.stored ++ stored,
           call := Function.update s.call pr (after o (.writing rest n)) }

def runRead (s : Sys ι) (pr : ι) (n : Nat) : Sys ι :=
  let (p, out, o) := piperead (s.killed pr) n s.pipe
  { s with pipe := p, returned := s.returned ++ out,
           call := Function.update s.call pr (after o (.reading n)) }

def init (data : Fin pipeSize → UInt8) : Sys ι :=
  ⟨pipealloc data, fun _ => .idle, fun _ => false, [], []⟩

end Sys

def step (s : Sys ι) : Event ι → Option (Sys ι)
  | .write pr src =>
    if s.call pr = .idle then some (s.runWrite pr src src.length) else none
  | .read pr n => if s.call pr = .idle then some (s.runRead pr n) else none
  | .wake pr =>
    match s.call pr with
    | .idle => none
    | .writing rest n => some (s.runWrite pr rest n)
    | .reading n => some (s.runRead pr n)
  | .close writable => some { s with pipe := pipeclose s.pipe writable }
  | .kill pr => some { s with killed := Function.update s.killed pr true }

namespace Pipe

structure Holds (p : Pipe) (returned stored : List UInt8) : Prop where
  nread : p.nread = returned.length % uintMod
  nwrite : p.nwrite = stored.length % uintMod
  room : stored.length ≤ returned.length + pipeSize
  fifo : returned ++
    Ring.window p.data returned.length (stored.length - returned.length) = stored

variable {p : Pipe} {returned stored : List UInt8}

lemma Holds.le (h : p.Holds returned stored) : returned.length ≤ stored.length := by
  have := congrArg List.length h.fifo
  simp only [List.length_append, Ring.window_length] at this
  omega

lemma Holds.isPrefix (h : p.Holds returned stored) : returned <+: stored :=
  ⟨_, h.fifo⟩

lemma uintMod_gt : pipeSize < uintMod := by decide

lemma Holds.full_iff (h : p.Holds returned stored) :
    p.full = true ↔ stored.length = returned.length + pipeSize := by
  have hgap : returned.length + pipeSize - stored.length < uintMod := by
    have := uintMod_gt
    have := h.le
    omega
  have hmod := Ring.mod_eq_mod_iff h.room hgap
  rw [full, beq_iff_eq, h.nread, h.nwrite, Nat.mod_add_mod]
  exact hmod

lemma Holds.empty_iff (h : p.Holds returned stored) :
    p.empty = true ↔ returned.length = stored.length := by
  have hgap : stored.length - returned.length < uintMod := by
    have := uintMod_gt
    have := h.room
    omega
  have hmod := Ring.mod_eq_mod_iff h.le hgap
  rw [empty, beq_iff_eq, h.nread, h.nwrite]
  exact hmod

lemma Holds.put (h : p.Holds returned stored) (hfull : p.full = false) (b : UInt8) :
    (p.put b).Holds returned (stored ++ [b]) := by
  have hlt : stored.length - returned.length < pipeSize := by
    have := h.le; have := h.room
    have : stored.length ≠ returned.length + pipeSize := fun he =>
      Bool.false_ne_true (hfull ▸ h.full_iff.mpr he)
    omega
  have hslot : Ring.slot pipeSize p.nwrite =
      Ring.slot pipeSize (returned.length + (stored.length - returned.length)) := by
    rw [h.nwrite, Ring.slot_mod pipeSize_dvd_uintMod, Nat.add_sub_cancel' h.le]
  refine ⟨h.nread, ?_, ?_, ?_⟩
  · simp [Pipe.put, h.nwrite, Nat.add_mod]
  · simp only [List.length_append, List.length_singleton]
    omega
  · rw [List.length_append, List.length_singleton, Nat.sub_add_comm h.le, Pipe.put, hslot,
      Ring.window_push _ _ _ _ hlt, ← List.append_assoc, h.fifo]

lemma Holds.take (h : p.Holds returned stored) (hempty : p.empty = false) :
    p.take.2.Holds (returned ++ [p.take.1]) stored := by
  have hlt : returned.length < stored.length := by
    have := h.le
    have : returned.length ≠ stored.length := fun he =>
      Bool.false_ne_true (hempty ▸ h.empty_iff.mpr he)
    omega
  obtain ⟨k, hk⟩ : ∃ k, stored.length - returned.length = k + 1 := ⟨_, (Nat.succ_pred_eq_of_pos
    (Nat.sub_pos_of_lt hlt)).symm⟩
  have hslot : Ring.slot pipeSize p.nread = Ring.slot pipeSize returned.length := by
    rw [h.nread, Ring.slot_mod pipeSize_dvd_uintMod]
  refine ⟨?_, h.nwrite, ?_, ?_⟩
  · simp [Pipe.take, h.nread, Nat.add_mod]
  · simp only [List.length_append, List.length_singleton]
    have := h.room
    omega
  · have hk' : stored.length - (returned ++ [p.take.1]).length = k := by
      simp only [List.length_append, List.length_singleton]
      omega
    have hfifo := h.fifo
    rw [hk, Ring.window_succ] at hfifo
    rw [hk', List.append_assoc, List.singleton_append, List.length_append,
      List.length_singleton]
    simpa [Pipe.take, hslot] using hfifo

lemma Holds.count (h : p.Holds returned stored) :
    CInt.toUint ((p.nwrite : Int) - p.nread) = stored.length - returned.length := by
  have hgap : stored.length - returned.length < uintMod := by
    have := uintMod_gt
    have := h.room
    omega
  have hsub := Ring.sub_mod_mod h.le hgap
  rw [CInt.toUint, h.nwrite, h.nread, show (4294967296 : Int) = (uintMod : Int) from rfl, hsub,
    Int.toNat_natCast]

end Pipe

section Segments

variable {p : Pipe} {returned stored : List UInt8}

lemma pipewriteLoop_holds (killed : Bool) (n : Int) (src : List UInt8)
    (h : p.Holds returned stored) :
    (pipewriteLoop killed n p src).1.Holds returned
      (stored ++ (pipewriteLoop killed n p src).2.1) := by
  induction src generalizing p stored with
  | nil => simpa [pipewriteLoop] using h
  | cons b bs ih =>
    cases hfull : p.full
    · have hput := ih (h.put hfull b)
      simp only [pipewriteLoop, hfull]
      simpa using hput
    · simp only [pipewriteLoop, hfull, if_true]
      split <;> simpa using h

lemma pipereadCopy_holds (n : Nat) (h : p.Holds returned stored) :
    (pipereadCopy p n).1.Holds (returned ++ (pipereadCopy p n).2) stored := by
  induction n generalizing p returned with
  | zero => simpa [pipereadCopy] using h
  | succ n ih =>
    cases hempty : p.empty
    · have htake := ih (h.take hempty)
      simp only [pipereadCopy, hempty]
      simpa using htake
    · simpa [pipereadCopy, hempty] using h

lemma piperead_holds (killed : Bool) (n : Nat) (h : p.Holds returned stored) :
    (piperead killed n p).1.Holds (returned ++ (piperead killed n p).2.1) stored := by
  unfold piperead
  split
  · split <;> simpa using h
  · exact pipereadCopy_holds n h

lemma pipeclose_holds (writable : Bool) (h : p.Holds returned stored) :
    (pipeclose p writable).Holds returned stored := by
  unfold pipeclose
  split
  · exact ⟨h.nread, h.nwrite, h.room, h.fifo⟩
  · exact ⟨h.nread, h.nwrite, h.room, h.fifo⟩

end Segments

namespace Sys

def Inv (s : Sys ι) : Prop := s.pipe.Holds s.returned s.stored

lemma runWrite_inv {s : Sys ι} (pr : ι) (src : List UInt8) (n : Int) (h : s.Inv) :
    (s.runWrite pr src n).Inv :=
  pipewriteLoop_holds (s.killed pr) n src h

lemma runRead_inv {s : Sys ι} (pr : ι) (n : Nat) (h : s.Inv) : (s.runRead pr n).Inv :=
  piperead_holds (s.killed pr) n h

omit [DecidableEq ι] in
lemma init_inv (data : Fin pipeSize → UInt8) : (init data : Sys ι).Inv :=
  ⟨rfl, rfl, Nat.zero_le _, rfl⟩

end Sys

lemma step_inv {s t : Sys ι} {e : Event ι} (h : s.Inv) (hstep : step s e = some t) : t.Inv := by
  cases e with
  | write pr src =>
    simp only [step, Option.ite_none_right_eq_some, Option.some.injEq] at hstep
    exact hstep.2 ▸ Sys.runWrite_inv pr src _ h
  | read pr n =>
    simp only [step, Option.ite_none_right_eq_some, Option.some.injEq] at hstep
    exact hstep.2 ▸ Sys.runRead_inv pr n h
  | wake pr =>
    simp only [step] at hstep
    split at hstep
    · cases hstep
    · exact Option.some.inj hstep ▸ Sys.runWrite_inv pr _ _ h
    · exact Option.some.inj hstep ▸ Sys.runRead_inv pr _ h
  | close writable =>
    cases hstep
    exact pipeclose_holds writable h
  | kill pr =>
    cases hstep
    exact h

theorem pipe_fifo (data : Fin pipeSize → UInt8) (evs : List (Event ι)) {s : Sys ι}
    (h : Run.exec step (Sys.init data) evs = some s) :
    s.returned <+: s.stored ∧ CInt.toUint ((s.pipe.nwrite : Int) - s.pipe.nread) ≤ pipeSize := by
  have hinv : s.Inv := Run.exec_invariant (fun _ _ _ => step_inv) (Sys.init_inv data) h
  refine ⟨hinv.isPrefix, ?_⟩
  rw [hinv.count]
  have := hinv.room
  omega

def twoWriters : List (Event (Fin 3)) :=
  [.write 0 [1, 2, 3], .read 2 2, .write 1 [4], .read 2 5, .close true, .read 2 1]

example : (Run.exec step (Sys.init fun _ => 0) twoWriters).map Sys.returned =
    some [1, 2, 3, 4] := by
  decide

theorem pipe_fifo_two_writers :
    ∃ s, Run.exec step (Sys.init fun _ => 0) twoWriters = some s ∧
      (s.returned <+: s.stored ∧ CInt.toUint ((s.pipe.nwrite : Int) - s.pipe.nread) ≤ pipeSize) := by
  obtain ⟨s, hs⟩ : ∃ s, Run.exec step (Sys.init fun _ => 0) twoWriters = some s := ⟨_, rfl⟩
  exact ⟨s, hs, pipe_fifo _ _ hs⟩

end Xv6.Ipc
