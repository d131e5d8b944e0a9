import Xv6.Process.Table

/-! What the pid-addressed calls `kill`, `set_sjf_params` and `change_queue` touch. They select
slots by `pid` alone, whatever the slot's state, and `allocproc` initialises the scheduling
fields but not `killed`: so a call on a pid that only an UNUSED slot carries (pid 0 after boot
or after `wait`, a stale pid after a failed `fork`) marks the process that slot will hold. -/

namespace Xv6.Process

open Table

lemma loop_induct {n : Nat} {β : Type*} {f : β → Fin n → β} {P : β → Prop} {b : β}
    (h0 : P b) (hf : ∀ b i, P b → P (f b i)) : P (loop f b) :=
  Table.loop_induction (fun _ => P) h0 (fun i c hc => hf c i hc)

lemma findPid_eq_some {t : Ptable} {pid : Int} {i : Fin nproc} :
    findPid t pid = some i ↔ (t.proc i).pid = pid ∧ ∀ j, j < i → (t.proc j).pid ≠ pid := by
  simp [findPid, first?_eq_some]

lemma kill_proc_of_ne (t : Ptable) (pid : Int) (j : Fin nproc) (hj : findPid t pid ≠ some j) :
    (kill t pid).1.proc j = t.proc j := by
  simp only [kill]
  split
  · rfl
  · rename_i i hi
    exact Ptable.set_proc_of_ne _ _ (fun h => hj (h ▸ hi))

lemma kill_succeeds_iff (t : Ptable) (pid : Int) :
    (kill t pid).2 = 0 ↔ ∃ i, (t.proc i).pid = pid := by
  simp only [kill]
  split
  · rename_i hn
    simp only [findPid, first?_eq_none, decide_eq_false_iff_not] at hn
    simpa using hn
  · rename_i i hi
    exact ⟨fun _ => ⟨i, (findPid_eq_some.mp hi).1⟩, fun _ => rfl⟩

lemma kill_found (t : Ptable) (pid : Int) (i : Fin nproc) (hi : findPid t pid = some i) :
    (kill t pid).1.proc i = { (t.proc i) with
      killed := 1
      state := if (t.proc i).state = .sleeping then .runnable else (t.proc i).state } := by
  simp [kill, hi]

lemma changeQueue_proc (t : Ptable) (pid : Int) (q : ScheduleQueue) (ticks : Int) (j : Fin nproc) :
    ∃ si, (changeQueue t pid q ticks).1.proc j = { (t.proc j) with schedInfo := si } ∧
      ((t.proc j).pid ≠ pid → si = (t.proc j).schedInfo) := by
  simp only [changeQueue]
  split
  · exact ⟨(t.proc j).schedInfo, rfl, fun _ => rfl⟩
  · refine @loop_induct _ _ _ (fun acc : Ptable × Int => ∃ si, acc.1.proc j =
      { (t.proc j) with schedInfo := si } ∧ ((t.proc j).pid ≠ pid → si = (t.proc j).schedInfo)) _ ?_ ?_
    · exact ⟨(t.proc j).schedInfo, rfl, fun _ => rfl⟩
    · rintro ⟨t', r⟩ i ⟨si, hsi, hne⟩
      dsimp only
      split
      · rename_i hpid
        by_cases hij : j = i
        · subst hij
          rw [hsi] at hpid
          rw [Ptable.set_proc_self, hsi]
          exact ⟨_, rfl, fun h => absurd hpid h⟩
        · exact ⟨si, by simpa only [Ptable.set_proc_of_ne _ _ hij] using hsi, hne⟩
      · exact ⟨si, hsi, hne⟩

lemma changeQueue_killed (t : Ptable) (pid : Int) (q : ScheduleQueue) (ticks : Int) (j : Fin nproc) :
    ((changeQueue t pid q ticks).1.proc j).killed = (t.proc j).killed := by
  obtain ⟨si, h, -⟩ := changeQueue_proc t pid q ticks j
  rw [h]

lemma changeQueue_state (t : Ptable) (pid : Int) (q : ScheduleQueue) (ticks : Int) (j : Fin nproc) :
    ((changeQueue t pid q ticks).1.proc j).state = (t.proc j).state := by
  obtain ⟨si, h, -⟩ := changeQueue_proc t pid q ticks j
  rw [h]

lemma allocproc_found (t : Ptable) (kstack : Nat) (ticks : Int) (i : Fin nproc)
    (hi : first? (fun i => decide ((t.proc i).state = .unused)) = some i) (hk : kstack ≠ 0) :
    allocproc t kstack ticks =
      ({ t with nextpid := CInt.wrap (t.nextpid + 1) }.set i ((t.proc i).alloc t.nextpid kstack ticks), some i) := by
  simp [allocproc, hi, hk]

theorem fork_child_killed (t : Ptable) (cur i : Fin nproc) (kstack pgdir : Nat) (ticks : Int)
    (hi : first? (fun i => decide ((t.proc i).state = .unused)) = some i)
    (hk : kstack ≠ 0) (hp : pgdir ≠ 0) :
    (fork t cur kstack pgdir ticks).2 = t.nextpid ∧
      ((fork t cur kstack pgdir ticks).1.proc i).killed = (t.proc i).killed ∧
      ((fork t cur kstack pgdir ticks).1.proc i).state = .runnable := by
  simp only [fork, allocproc_found t kstack ticks i hi hk, hp, if_false]
  refine ⟨by simp [Proc.alloc], ?_, ?_⟩
  · rw [changeQueue_killed]
    simp [Proc.alloc]
  · rw [changeQueue_state]
    simp

theorem kill_then_fork (t : Ptable) (cur i : Fin nproc) (pid : Int) (kstack pgdir : Nat)
    (ticks : Int) (hfirst : first? (fun i => decide ((t.proc i).state = .unused)) = some i)
    (hpid : findPid t pid = some i) (hk : kstack ≠ 0) (hp : pgdir ≠ 0) :
    (kill t pid).2 = 0 ∧ ((fork (kill t pid).1 cur kstack pgdir ticks).1.proc i).killed = 1 := by
  have hunused : (t.proc i).state = .unused := by simpa using first?_spec hfirst
  have hkill := kill_found t pid i hpid
  have hsame : (fun j => decide (((kill t pid).1.proc j).state = .unused)) =
      (fun j => decide ((t.proc j).state = .unused)) := by
    funext j
    by_cases hj : findPid t pid = some j
    · rw [hpid, Option.some.injEq] at hj
      subst hj
      simp [hkill, hunused]
    · rw [kill_proc_of_ne t pid j hj]
  refine ⟨(kill_succeeds_iff t pid).mpr ⟨i, (findPid_eq_some.mp hpid).1⟩, ?_⟩
  obtain ⟨-, hkilled, -⟩ := fork_child_killed (kill t pid).1 cur i kstack pgdir ticks
    (by rw [hsame]; exact hfirst) hk hp
  rw [hkilled, hkill]

lemma first_unused_boot : first? (fun i => decide ((Ptable.boot.proc i).state = .unused)) = some 0 :=
  first?_eq_some.mpr ⟨by simp [Ptable.boot, Proc.zero], fun j hj => absurd hj (Fin.not_lt_zero j)⟩

lemma userinit_boot (kstack pgdir : Nat) (ticks : Int) (hk : kstack ≠ 0) (hp : pgdir ≠ 0) :
    ∃ t, userinit Ptable.boot kstack pgdir ticks = some t ∧ (t.proc 0).pid = 1 ∧
      (t.proc 0).state = .runnable ∧ ∀ j, j ≠ 0 → t.proc j = Proc.zero := by
  simp only [userinit, allocproc_found _ _ _ 0 first_unused_boot hk, hp, if_false]
  refine ⟨_, rfl, ?_, ?_, fun j hj => ?_⟩
  · obtain ⟨si, h, -⟩ := changeQueue_proc _ _ .unset ticks 0
    rw [h]
    simp [Ptable.boot, Proc.alloc]
  · rw [changeQueue_state]
    simp
  · obtain ⟨si, h, hne⟩ := changeQueue_proc _ _ .unset ticks j
    rw [h, hne (by simp [Ptable.set_proc_of_ne _ _ hj, Ptable.boot, Proc.zero, Proc.alloc])]
    simp [Ptable.set_proc_of_ne _ _ hj, Ptable.boot]

theorem kill_zero_marks_forked_child :
    ∃ t, userinit Ptable.boot 0x8dfff000 0x8dffe000 0 = some t ∧
      (∀ i, (t.proc i).state ≠ .unused → (t.proc i).pid ≠ 0) ∧
      (kill t 0).2 = 0 ∧ ((fork (kill t 0).1 0 0x8dffd000 0x8dffc000 1).1.proc 1).killed = 1 := by
  obtain ⟨t, ht, hpid0, hrun0, hzero⟩ := userinit_boot 0x8dfff000 0x8dffe000 0 (by decide) (by decide)
  have hone : t.proc 1 = Proc.zero := hzero 1 (by decide)
  have hbefore : ∀ j : Fin nproc, j < 1 → j = 0 := fun j hj => Fin.ext (by
    rw [Fin.lt_def] at hj
    exact Nat.lt_one_iff.mp hj)
  have hfirst : first? (fun i => decide ((t.proc i).state = .unused)) = some 1 := by
    refine first?_eq_some.mpr ⟨by simp [hone, Proc.zero], fun j hj => ?_⟩
    rw [hbefore j hj, hrun0]
    decide
  have hpid : findPid t 0 = some 1 := by
    refine findPid_eq_some.mpr ⟨by simp [hone, Proc.zero], fun j hj => ?_⟩
    rw [hbefore j hj, hpid0]
    decide
  refine ⟨t, ht, fun i hi => ?_, kill_then_fork t 0 1 0 _ _ 1 hfirst hpid (by decide) (by decide)⟩
  by_cases h0 : i = 0
  · rw [h0, hpid0]
    decide
  · exact absurd (by rw [hzero i h0]; rfl) hi

end Xv6.Process
