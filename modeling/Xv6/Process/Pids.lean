import Xv6.Process.PidOps
import Xv6.Lib.Run

/-! `nextpid` over an unbounded run of the table. `allocproc` sets `p->pid = nextpid++` as soon
as it finds an UNUSED slot, before the `kalloc` of the kernel stack can fail, and nothing else
reads, resets or bounds `nextpid`. Every `fork`, failed or not, moves it on by one
(`failing_forks`); the `int` has room for `2^31 - 1` pids, so after `2^31 - 2` forks past
`userinit` the increment overflows and the next process gets a negative pid. -/

namespace Xv6.Process

open Table

lemma changeQueue_nextpid (t : Ptable) (pid : Int) (q : ScheduleQueue) (ticks : Int) :
    (changeQueue t pid q ticks).1.nextpid = t.nextpid := by
  simp only [changeQueue]
  split
  · rfl
  · refine @loop_induct _ _ _ (fun acc : Ptable × Int => acc.1.nextpid = t.nextpid) _ rfl ?_
    rintro ⟨t', r⟩ i h
    dsimp only
    split
    · exact h
    · exact h

lemma fork_child_pid (t : Ptable) (cur i : Fin nproc) (kstack pgdir : Nat) (ticks : Int)
    (hi : first? (fun i => decide ((t.proc i).state = .unused)) = some i)
    (hk : kstack ≠ 0) (hp : pgdir ≠ 0) :
    ((fork t cur kstack pgdir ticks).1.proc i).pid = t.nextpid := by
  simp only [fork, allocproc_found t kstack ticks i hi hk, hp, if_false]
  obtain ⟨si, h, -⟩ := changeQueue_proc _ _ .unset ticks i
  rw [h]
  simp [Proc.alloc]

lemma fork_kalloc_fails (t : Ptable) (cur i : Fin nproc) (pgdir : Nat) (ticks : Int)
    (hi : first? (fun i => decide ((t.proc i).state = .unused)) = some i) :
    fork t cur 0 pgdir ticks =
      ({ t with nextpid := CInt.wrap (t.nextpid + 1) }.set i
        { t.proc i with state := .unused, pid := t.nextpid, kstack := 0 }, -1) := by
  simp [fork, allocproc, hi]

lemma first_unused_of_fork_kalloc_fails {t : Ptable} {cur i : Fin nproc} {pgdir : Nat}
    {ticks : Int} (hi : first? (fun i => decide ((t.proc i).state = .unused)) = some i) :
    first? (fun j => decide (((fork t cur 0 pgdir ticks).1.proc j).state = .unused)) = some i := by
  rw [fork_kalloc_fails t cur i pgdir ticks hi]
  obtain ⟨-, hbefore⟩ := first?_eq_some.mp hi
  refine first?_eq_some.mpr ⟨by simp, fun j hj => ?_⟩
  rw [Ptable.set_proc_of_ne _ _ (Fin.ne_of_lt hj)]
  exact hbefore j hj

theorem failing_forks (cur i : Fin nproc) (pgdir : Nat) (ticks : Int) (n : Nat) {t : Ptable}
    (hi : first? (fun i => decide ((t.proc i).state = .unused)) = some i)
    (hrange : CInt.intMin ≤ t.nextpid ∧ t.nextpid ≤ CInt.intMax) :
    ∃ t', Run.exec step t (List.replicate n (.fork cur 0 pgdir ticks)) = some t' ∧
      t'.nextpid = CInt.wrap (t.nextpid + n) ∧ (∀ j, j ≠ i → t'.proc j = t.proc j) ∧
      first? (fun j => decide ((t'.proc j).state = .unused)) = some i := by
  induction n generalizing t with
  | zero =>
    refine ⟨t, rfl, ?_, fun _ _ => rfl, hi⟩
    rw [Nat.cast_zero, Int.add_zero, CInt.wrap_of_range hrange.1 hrange.2]
  | succ n ih =>
    have hnext : (fork t cur 0 pgdir ticks).1.nextpid = CInt.wrap (t.nextpid + 1) := by
      rw [fork_kalloc_fails t cur i pgdir ticks hi]
      rfl
    obtain ⟨t', hrun, hpid, hsame, hfirst⟩ :=
      ih (first_unused_of_fork_kalloc_fails hi) (hnext ▸ CInt.wrap_mem _)
    refine ⟨t', ?_, ?_, fun j hj => ?_, hfirst⟩
    · rw [List.replicate_succ, Run.exec_cons]
      exact hrun
    · rw [hpid, hnext, CInt.wrap_add]
      push_cast
      ring_nf
    · rw [hsame j hj, fork_kalloc_fails t cur i pgdir ticks hi, Ptable.set_proc_of_ne _ _ hj]

lemma userinit_boot_nextpid (kstack pgdir : Nat) (ticks : Int) (hk : kstack ≠ 0) (hp : pgdir ≠ 0) :
    ∃ t, userinit Ptable.boot kstack pgdir ticks = some t ∧ t.nextpid = 2 ∧
      (t.proc 0).state = .runnable ∧ ∀ j, j ≠ 0 → t.proc j = Proc.zero := by
  obtain ⟨t, ht, -, hrun, hzero⟩ := userinit_boot kstack pgdir ticks hk hp
  refine ⟨t, ht, ?_, hrun, hzero⟩
  simp only [userinit, allocproc_found _ _ _ 0 first_unused_boot hk, hp, if_false,
    Option.some.injEq] at ht
  rw [← ht, changeQueue_nextpid]
  rfl

theorem nextpid_overflow_gives_negative_pid :
    ∃ t, Run.exec step Ptable.boot (.userinit 0x8dfff000 0x8dffe000 0 ::
        (List.replicate (2 ^ 31 - 2) (.fork 0 0 0 1) ++ [.fork 0 0x8dffd000 0x8dffc000 1])) =
        some t ∧
      (t.proc 1).state = .runnable ∧ (t.proc 1).pid = CInt.intMin := by
  obtain ⟨t₁, ht₁, hnext₁, hrun₁, hzero₁⟩ :=
    userinit_boot_nextpid 0x8dfff000 0x8dffe000 0 (by decide) (by decide)
  have hfirst₁ : first? (fun i => decide ((t₁.proc i).state = .unused)) = some 1 := by
    refine first?_eq_some.mpr ⟨by simp [hzero₁ 1 (by decide), Proc.zero], fun j hj => ?_⟩
    have hj0 : j = 0 := Fin.ext (Nat.lt_one_iff.mp hj)
    rw [hj0, hrun₁]
    decide
  obtain ⟨t₂, hrun, hpid₂, -, hfirst₂⟩ := failing_forks 0 1 0 1 (2 ^ 31 - 2) hfirst₁
    (by rw [hnext₁]; decide)
  have hmin : t₂.nextpid = CInt.intMin := by
    rw [hpid₂, hnext₁]
    decide
  refine ⟨(fork t₂ 0 0x8dffd000 0x8dffc000 1).1, ?_, ?_, ?_⟩
  · have hstep : step Ptable.boot (.userinit 0x8dfff000 0x8dffe000 0) = some t₁ := ht₁
    rw [Run.exec_cons, hstep, Option.bind_some, Run.exec_append, hrun]
    rfl
  · exact (fork_child_killed t₂ 0 1 _ _ 1 hfirst₂ (by decide) (by decide)).2.2
  · rw [fork_child_pid t₂ 0 1 _ _ 1 hfirst₂ (by decide) (by decide), hmin]

end Xv6.Process
