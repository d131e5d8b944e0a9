import Xv6.Process.PidOps
import Xv6.Lock.Spinlock
import Xv6.Lib.Sorting
import Xv6.Lib.CArray

/-! The per-process system-call statistics of `syscall.c` and `proc.c`: `record_syscall`, called
by `syscall()` for `0 < num < MAX_SYSCALLS`, and the calls `sort_syscalls`,
`get_most_invoked_syscall` and `list_all_processes`, which take `ptable.lock` once and release it
in their scan of the table at every slot whose pid matches. -/

namespace Xv6.Process

open Table

def syscallNames : List String :=
  ["fork", "exit", "wait", "pipe", "read", "kill", "exec", "fstat", "chdir", "dup",
   "getpid", "sbrk", "sleep", "uptime", "open", "write", "mknod", "unlink", "link",
   "mkdir", "close", "create_palindrome", "move_file", "sort_syscalls",
   "get_most_invoked_syscall", "list_all_processes"]

def recordSyscall (p : Proc) (num : Int) : Option (Proc × Int) :=
  let d := p.syscallData
  let found : Option (Fin maxSyscalls) :=
    match first? (fun i => decide ((d i).number = num ∨ (d i).count = 0)) with
    | some i => if (d i).number = num then some i else none
    | none => none
  match found with
  | some i =>
    some ({ p with
      syscallData := Function.update d i { (d i) with count := CInt.wrap ((d i).count + 1) }
      syscallCounts := CInt.wrap (p.syscallCounts + 1) }, 1)
  | none =>
    match first? (fun i => decide ((d i).count = 0)) with
    | none => some (p, -1)
    | some i => do
      let name ← CArray.listGet? syscallNames (num - 1)
      pure ({ p with
        syscallData := Function.update d i ⟨num, 1, some name⟩
        syscallCounts := CInt.wrap (p.syscallCounts + 1) }, 0)

def syscallEntries : Int := 34

def syscallRecord (p : Proc) (num : Int) : Option Proc :=
  if 0 < num ∧ num < syscallEntries ∧ num < maxSyscalls then (recordSyscall p num).map Prod.fst
  else some p

lemma recordSyscall_fresh_slot (p : Proc) (num : Int) (hnew : ∀ i, (p.syscallData i).number ≠ num)
    (i : Fin maxSyscalls) (hi : first? (fun i => decide ((p.syscallData i).count = 0)) = some i) :
    recordSyscall p num = (CArray.listGet? syscallNames (num - 1)).map (fun name =>
      ({ p with
        syscallData := Function.update p.syscallData i ⟨num, 1, some name⟩
        syscallCounts := CInt.wrap (p.syscallCounts + 1) }, 0)) := by
  have hfound : (match first? (fun i => decide ((p.syscallData i).number = num ∨ (p.syscallData i).count = 0)) with
      | some i => if (p.syscallData i).number = num then some i else none
      | none => none) = none := by
    split
    · simp [hnew]
    · rfl
  simp only [recordSyscall, hfound, hi]
  cases CArray.listGet? syscallNames (num - 1) <;> rfl

theorem recordSyscall_name_out_of_bounds (p : Proc) (num : Int) (hnum : 26 < num)
    (hnew : ∀ i, (p.syscallData i).number ≠ num) (hfree : ∃ i, (p.syscallData i).count = 0) :
    recordSyscall p num = none := by
  cases hi : first? (fun i => decide ((p.syscallData i).count = 0)) with
  | none =>
    obtain ⟨i, hc⟩ := hfree
    simp only [first?_eq_none, decide_eq_false_iff_not] at hi
    exact absurd hc (hi i)
  | some i =>
    rw [recordSyscall_fresh_slot p num hnew i hi, CArray.listGet?_eq_none (by simp [syscallNames]; omega)]
    rfl

theorem syscall_change_scheduling_queue_reads_past_names :
    syscallRecord (Proc.zero.alloc 1 0x8dfff000 0) 27 = none := by
  have h := recordSyscall_name_out_of_bounds (Proc.zero.alloc 1 0x8dfff000 0) 27 (by decide)
    (fun i => by simp [Proc.alloc, maxSyscalls]) ⟨0, rfl⟩
  simp [syscallRecord, syscallEntries, maxSyscalls, h]

def releaseStep {W : Type} (hit : W → Fin nproc → Bool) (work : W → Fin nproc → W)
    (acc : Bool × Bool × W) (i : Fin nproc) : Option (Bool × Bool × W) :=
  if hit acc.2.2 i then (Spinlock.release acc.1).map (fun h => (h, true, work acc.2.2 i))
  else some acc

def releaseScan {W : Type} (hit : W → Fin nproc → Bool) (work : W → Fin nproc → W)
    (held : Bool) (w : W) : Option (Bool × Bool × W) :=
  (List.finRange nproc).foldlM (releaseStep hit work) (held, false, w)

def sortSyscallData (p : Proc) : Proc :=
  { p with syscallData := Sorting.bubbleSort (fun a b => decide (a.number > b.number)) p.syscallData }

def sortSyscalls (t : Ptable) (pid : Int) : Option (Ptable × Int × Bool) :=
  if pid ≤ 0 then some (t, -1, false)
  else do
    let held ← Spinlock.acquire false
    let (held, flag, t) ← releaseScan (fun t i => decide ((t.proc i).pid = pid))
      (fun t i => t.set i (sortSyscallData (t.proc i))) held t
    if flag ∧ (findPid t pid).isSome then pure (t, 0, held)
    else do
      let held ← Spinlock.release held
      pure (t, -1, held)

def maxCount (p : Proc) (acc : Int × Fin maxSyscalls) : Int × Fin maxSyscalls :=
  (List.finRange (maxSyscalls - 1)).foldl (fun (acc : Int × Fin maxSyscalls) k =>
    let k := Fin.castLE (Nat.sub_le _ _) k
    if (p.syscallData k).count > acc.1 then ((p.syscallData k).count, k) else acc) acc

def getMostInvokedSyscall (t : Ptable) (pid : Int) : Option (Int × Bool) := do
  let held ← Spinlock.acquire false
  let (held, flag, mx, fi) ← releaseScan (fun _ i => decide ((t.proc i).pid = pid))
    (fun acc i => maxCount (t.proc i) acc) held ((0 : Int), (0 : Fin maxSyscalls))
  if flag then
    match findPid t pid with
    | some i => pure (if mx > 0 then ((t.proc i).syscallData fi).number else -1, held)
    | none => do
      let held ← Spinlock.release held
      pure (-1, held)
  else do
    let held ← Spinlock.release held
    pure (-1, held)

def listAllProcesses (t : Ptable) : Option (Int × Bool) := do
  let held ← Spinlock.acquire false
  let flag := decide (∃ i, (t.proc i).pid ≠ 0)
  let held ← Spinlock.release held
  pure (if flag then 0 else -1, held)

lemma foldlM_releaseStep {W : Type} {hit : W → Fin nproc → Bool} {work : W → Fin nproc → W}
    (hw : ∀ w i, hit (work w i) = hit w) (l : List (Fin nproc)) (held f : Bool) (w : W) :
    (l.foldlM (releaseStep hit work) (held, f, w)).map (fun r => (r.1, r.2.1)) =
      (Spinlock.releaseTimes held (l.countP (hit w))).map
        (fun h => (h, f || decide (0 < l.countP (hit w)))) := by
  induction l generalizing held f w with
  | nil => simp
  | cons i l ih =>
    rw [List.foldlM_cons, List.countP_cons]
    cases hi : hit w i with
    | false =>
      simp only [releaseStep, hi, Bool.false_eq_true, if_false, Option.bind_eq_bind,
        Option.bind_some, ih, Nat.add_zero]
    | true =>
      cases held with
      | false => simp [releaseStep, hi, Spinlock.release, Spinlock.releaseTimes]
      | true =>
        simp only [releaseStep, hi, if_true, Spinlock.release, Option.map_some, Option.bind_eq_bind,
          Option.bind_some]
        rw [ih, hw]
        simp [Spinlock.releaseTimes, Spinlock.release]

def pidCount (t : Ptable) (pid : Int) : Nat :=
  (List.finRange nproc).countP (fun i => decide ((t.proc i).pid = pid))

lemma releaseScan_true {W : Type} {hit : W → Fin nproc → Bool} {work : W → Fin nproc → W}
    (hw : ∀ w i, hit (work w i) = hit w) (w : W) :
    (releaseScan hit work true w).map (fun r => (r.1, r.2.1)) =
      match (List.finRange nproc).countP (hit w) with
      | 0 => some (true, false)
      | 1 => some (false, true)
      | _ + 2 => none := by
  rw [releaseScan, foldlM_releaseStep hw]
  generalize (List.finRange nproc).countP (hit w) = c
  rcases c with _ | _ | k
  · rfl
  · rfl
  · simp [Spinlock.releaseTimes_true_add_two]

lemma findPid_isSome {t : Ptable} {pid : Int} (h : 0 < pidCount t pid) : (findPid t pid).isSome := by
  obtain ⟨i, -, hi⟩ := List.countP_pos_iff.mp h
  cases hf : findPid t pid with
  | none =>
    simp only [findPid, first?_eq_none, decide_eq_false_iff_not] at hf
    exact absurd (of_decide_eq_true hi) (hf i)
  | some j => rfl

theorem getMostInvokedSyscall_lock (t : Ptable) (pid : Int) :
    (getMostInvokedSyscall t pid).map Prod.snd = if pidCount t pid ≤ 1 then some false else none := by
  have hs : (releaseScan (fun (_ : Int × Fin maxSyscalls) i => decide ((t.proc i).pid = pid))
      (fun acc i => maxCount (t.proc i) acc) true (0, 0)).map (fun r => (r.1, r.2.1)) =
      match pidCount t pid with
      | 0 => some (true, false)
      | 1 => some (false, true)
      | _ + 2 => none :=
    @releaseScan_true _ (fun (_ : Int × Fin maxSyscalls) i => decide ((t.proc i).pid = pid))
      (fun acc i => maxCount (t.proc i) acc) (fun _ _ => rfl) (0, 0)
  have hfind := @findPid_isSome t pid
  simp only [getMostInvokedSyscall, Spinlock.acquire, Bool.false_eq_true, if_false,
    Option.bind_eq_bind, Option.bind_some]
  rcases hr : releaseScan (fun (_ : Int × Fin maxSyscalls) i => decide ((t.proc i).pid = pid))
    (fun acc i => maxCount (t.proc i) acc) true (0, 0) with _ | ⟨held, flag, mx, fi⟩ <;>
    rw [hr] at hs <;> rcases hc : pidCount t pid with _ | _ | k <;> rw [hc] at hs hfind
  all_goals simp only [Option.map_none, Option.map_some, reduceCtorEq, Option.some.injEq,
    Prod.mk.injEq] at hs
  · simp
  · obtain ⟨rfl, rfl⟩ := hs
    simp [Spinlock.release]
  · obtain ⟨rfl, rfl⟩ := hs
    obtain ⟨i, hi⟩ := Option.isSome_iff_exists.mp (hfind Nat.one_pos)
    simp [hi]

lemma userinit_boot_pidCount_zero (t : Ptable) (ht : (t.proc 0).pid = 1)
    (hzero : ∀ j, j ≠ 0 → t.proc j = Proc.zero) : pidCount t 0 = 63 := by
  have hp : (fun i => decide ((t.proc i).pid = 0)) = fun i : Fin nproc => decide (i ≠ 0) := by
    funext i
    by_cases hi : i = 0
    · simp [hi, ht]
    · simp [hi, hzero i hi, Proc.zero]
  simp only [pidCount, hp]
  decide

theorem get_most_invoked_syscall_zero_panics :
    ∃ t, userinit Ptable.boot 0x8dfff000 0x8dffe000 0 = some t ∧
      getMostInvokedSyscall t 0 = none := by
  obtain ⟨t, ht, hpid0, -, hzero⟩ := userinit_boot 0x8dfff000 0x8dffe000 0 (by decide) (by decide)
  refine ⟨t, ht, ?_⟩
  have hl := getMostInvokedSyscall_lock t 0
  rw [userinit_boot_pidCount_zero t hpid0 hzero] at hl
  simpa using hl

end Xv6.Process