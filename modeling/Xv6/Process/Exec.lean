import Xv6.Process.PidOps
import Xv6.Lib.Run

/-! The queue `exec` leaves a process in. `exec` calls `change_queue(pid, UNSET)` right after
`namei` succeeds: before any check of the image can fail, and before the commit writes the
new name. `change_queue` keeps a process named "sh" or "init" in `ROUND_ROBIN`, and `fork`
copies the parent's name, so the queue a process gets is decided by the name it had before
the call (`exec_queue`), and a failing `exec` still moves the process to a queue and restamps
its arrival time. -/

namespace Xv6.Process

open Table

def shellName (name : String) : Bool :=
  compareString name.toList "sh".toList || compareString name.toList "init".toList

lemma changeQueue_unset_proc (t : Ptable) (pid : Int) (ticks : Int) (j : Fin nproc)
    (hpid : 2 < pid) (hj : (t.proc j).pid = pid) :
    (changeQueue t pid .unset ticks).1.proc j = { t.proc j with schedInfo :=
      { (t.proc j).schedInfo with
        queue := if shellName (t.proc j).name then .roundRobin else .fcfs
        arrivalQueueTime := ticks } } := by
  have hres : ¬ (pid = 1 ∨ pid = 2) := by omega
  simp only [changeQueue, if_true, hres, if_false, hpid]
  set upd : Proc := { t.proc j with schedInfo := { (t.proc j).schedInfo with
    queue := if shellName (t.proc j).name then .roundRobin else .fcfs
    arrivalQueueTime := ticks } }
  have hend : ∀ acc : Ptable × Int,
      acc.1.proc j = (if j.val < nproc then upd else t.proc j) → acc.1.proc j = upd := by
    intro acc h
    rwa [if_pos j.isLt] at h
  apply hend
  refine Table.loop_induction (fun k (acc : Ptable × Int) =>
    acc.1.proc j = if j.val < k then upd else t.proc j) (by simp) (fun i acc hacc => ?_)
  by_cases hij : j = i
  · subst hij
    rw [if_neg (lt_irrefl _)] at hacc
    simp [hacc, hj, upd, shellName]
  · have hlt : j.val < i.val + 1 ↔ j.val < i.val := by
      have : j.val ≠ i.val := fun h => hij (Fin.ext h)
      omega
    split
    · rw [Ptable.set_proc_of_ne _ _ hij, hacc]
      simp only [hlt]
    · rw [hacc]
      simp only [hlt]

theorem exec_queue (t : Ptable) (cur : Fin nproc) (path : List Char) (loaded : Bool)
    (pgdir : Nat) (ticks : Int) (hpid : 2 < (t.proc cur).pid) :
    let r := exec t cur path true loaded pgdir ticks
    (r.1.proc cur).schedInfo = { (t.proc cur).schedInfo with
        queue := if shellName (t.proc cur).name then .roundRobin else .fcfs
        arrivalQueueTime := ticks } ∧
      (r.1.proc cur).pid = (t.proc cur).pid ∧
      (r.1.proc cur).name =
        (if loaded then String.ofList (Bytes.safestrcpy (Bytes.lastAfter '/' path path) 16)
          else (t.proc cur).name) ∧
      r.2 = if loaded then 0 else -1 := by
  have hq := changeQueue_unset_proc t (t.proc cur).pid ticks cur hpid rfl
  cases loaded
  · simp [exec, hq]
  · simp [exec, hq]

theorem exec_classifies_by_inherited_name :
    ∃ t, Run.exec step Ptable.boot
        [.userinit 0x8dfff000 0x8dffe000 0, .exec 0 "/init".toList true true 0x8dffd000 1,
         .fork 0 0x8dffc000 0x8dffb000 2, .exec 1 "sh".toList true true 0x8dffa000 3,
         .fork 1 0x8dff9000 0x8dff8000 4, .exec 2 "ls".toList true true 0x8dff7000 5] = some t ∧
      (t.proc 2).pid = 3 ∧ (t.proc 2).name = "ls" ∧ (t.proc 2).schedInfo.queue = .roundRobin ∧
      (t.proc 2).schedInfo.arrivalQueueTime = 5 ∧
      (exec t 2 "cat".toList true false 0 6).2 = -1 ∧
      ((exec t 2 "cat".toList true false 0 6).1.proc 2).schedInfo.queue = .fcfs ∧
      ((exec t 2 "cat".toList true false 0 6).1.proc 2).schedInfo.arrivalQueueTime = 6 := by
  obtain ⟨t₅, h₅, hchild⟩ : ∃ t₅, Run.exec step Ptable.boot
      [.userinit 0x8dfff000 0x8dffe000 0, .exec 0 "/init".toList true true 0x8dffd000 1,
       .fork 0 0x8dffc000 0x8dffb000 2, .exec 1 "sh".toList true true 0x8dffa000 3,
       .fork 1 0x8dff9000 0x8dff8000 4] = some t₅ ∧
      ((t₅.proc 2).pid, (t₅.proc 2).name) = (3, "sh") := by
    apply Option.map_eq_some_iff.mp
    decide +kernel
  obtain ⟨hpid, hname⟩ := Prod.mk.inj hchild
  have hsh : shellName "sh" = true := by decide +kernel
  have hls : shellName "ls" = false := by decide +kernel
  obtain ⟨hq, hpid', hname', -⟩ :=
    exec_queue t₅ 2 "ls".toList true 0x8dff7000 5 (by rw [hpid]; decide)
  set t := (exec t₅ 2 "ls".toList true true 0x8dff7000 5).1
  have hnamet : (t.proc 2).name = "ls" := by
    rw [hname', if_pos rfl]
    decide +kernel
  obtain ⟨hq', -, -, hr⟩ := exec_queue t 2 "cat".toList false 0 6 (by rw [hpid', hpid]; decide)
  refine ⟨t, ?_, by rw [hpid', hpid], hnamet, ?_, by rw [hq], hr, ?_, by rw [hq']⟩
  · have hrun := Run.exec_append step Ptable.boot
      [.userinit 0x8dfff000 0x8dffe000 0, .exec 0 "/init".toList true true 0x8dffd000 1,
       .fork 0 0x8dffc000 0x8dffb000 2, .exec 1 "sh".toList true true 0x8dffa000 3,
       .fork 1 0x8dff9000 0x8dff8000 4] [.exec 2 "ls".toList true true 0x8dff7000 5]
    rw [h₅] at hrun
    exact hrun
  · rw [hq, hname, hsh, if_pos rfl]
  · rw [hq', hnamet, hls]
    rfl

end Xv6.Process
