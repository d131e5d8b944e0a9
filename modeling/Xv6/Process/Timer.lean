import Xv6.Process.Scheduler
import Xv6.Lib.Run

/-! One CPU under the three-window policy: the iterations of its scheduler loop, the timer
interrupts `trap()` handles on it, the running process giving the CPU up, and whatever the
other CPUs and the aging on CPU 0 do to the process table meanwhile. The other CPUs leave the
process running here `RUNNING` with its `consecutive_time`; they may move it to another queue.
Three ghost fields record the queue of the running process at its dispatch, whether it is still
in that queue, and how many timer interrupts the CPU has taken since the dispatch. -/

namespace Xv6.Process

open Run

structure Cpu where
  cpuTicks : Int
  proc : Option (Fin nproc)
  lastRR : Fin nproc

structure CpuSystem where
  table : Ptable
  cpu : Cpu
  dispatchedIn : ScheduleQueue
  sameQueue : Bool
  ticksHere : Nat

def CpuSystem.init (t : Ptable) : CpuSystem :=
  ⟨t, ⟨0, none, ⟨nproc - 1, by decide⟩⟩, .unset, false, 0⟩

inductive CpuEvent
  | schedule (ticks : Int)
  | timer (ticks : Int)
  | leave (s : Procstate)
  | other (t : Ptable)

def timerTrap (s : CpuSystem) (p : Fin nproc) (ticks : Int) : CpuSystem :=
  let pr := s.table.proc p
  let pr := { pr with
    consecutiveTime := pr.consecutiveTime + 1
    schedInfo := { pr.schedInfo with lastRun := ticks } }
  let timePeriode := s.cpu.cpuTicks.tmod 60 + 1
  let cpu := { s.cpu with cpuTicks := s.cpu.cpuTicks + 1 }
  if (pr.schedInfo.queue = .roundRobin ∧ pr.consecutiveTime ≥ 5) ∨
      timePeriode = 30 ∨ timePeriode = 50 ∨ timePeriode = 60 then
    { s with table := s.table.set p { pr with state := .runnable }, cpu := { cpu with proc := none } }
  else { s with table := s.table.set p pr, cpu := cpu }

def Relies (s : CpuSystem) (t : Ptable) : Prop :=
  ∀ p, s.cpu.proc = some p →
    (t.proc p).state = .running ∧ (t.proc p).consecutiveTime = (s.table.proc p).consecutiveTime

instance (s : CpuSystem) (t : Ptable) : Decidable (Relies s t) :=
  inferInstanceAs (Decidable (∀ _, _ → _))

def cpuStep (s : CpuSystem) : CpuEvent → Option CpuSystem
  | .schedule ticks =>
    if s.cpu.proc = none then
      match schedulerChoice s.table s.cpu.lastRR s.cpu.cpuTicks with
      | .idle => some { s with cpu := { s.cpu with cpuTicks := 0 } }
      | .run p k l => some
          { table := s.table.dispatch p ticks
            cpu := ⟨k, some p, l⟩
            dispatchedIn := (s.table.proc p).schedInfo.queue
            sameQueue := true
            ticksHere := 0 }
    else none
  | .timer ticks =>
    match s.cpu.proc with
    | some p =>
      if (s.table.proc p).state = .running then
        some { timerTrap s p ticks with ticksHere := s.ticksHere + 1 }
      else some s
    | none => some s
  | .leave st =>
    match s.cpu.proc with
    | some p => some { s with
        table := s.table.set p { s.table.proc p with state := st }
        cpu := { s.cpu with proc := none } }
    | none => none
  | .other t =>
    if Relies s t then
      some { s with
        table := t
        sameQueue := s.sameQueue && match s.cpu.proc with
          | some p => decide ((t.proc p).schedInfo.queue = (s.table.proc p).schedInfo.queue)
          | none => true }
    else none

structure Windows (s : CpuSystem) : Prop where
  ticks_nonneg : 0 ≤ s.cpu.cpuTicks
  ticks_le : s.cpu.cpuTicks ≤ 60
  running : ∀ p, s.cpu.proc = some p → (s.table.proc p).state = .running
  in_window : ∀ p, s.cpu.proc = some p →
    s.cpu.cpuTicks < 60 ∧ window s.cpu.cpuTicks = s.dispatchedIn
  consecutive : ∀ p, s.cpu.proc = some p →
    0 ≤ (s.table.proc p).consecutiveTime ∧ (s.table.proc p).consecutiveTime ≤ s.cpu.cpuTicks
  same_queue : ∀ p, s.cpu.proc = some p → s.sameQueue = true →
    (s.table.proc p).schedInfo.queue = s.dispatchedIn
  quantum : ∀ p, s.cpu.proc = some p → s.sameQueue = true → s.dispatchedIn = .roundRobin →
    (s.table.proc p).consecutiveTime < 5
  counted : ∀ p, s.cpu.proc = some p → (s.table.proc p).consecutiveTime = s.ticksHere

lemma windows_of_idle {s : CpuSystem} (h0 : 0 ≤ s.cpu.cpuTicks) (h60 : s.cpu.cpuTicks ≤ 60)
    (hn : s.cpu.proc = none) : Windows s where
  ticks_nonneg := h0
  ticks_le := h60
  running _ h := by rw [hn] at h; cases h
  in_window _ h := by rw [hn] at h; cases h
  consecutive _ h := by rw [hn] at h; cases h
  same_queue _ h := by rw [hn] at h; cases h
  quantum _ h := by rw [hn] at h; cases h
  counted _ h := by rw [hn] at h; cases h

lemma windows_init (t : Ptable) : Windows (CpuSystem.init t) :=
  windows_of_idle (le_refl _) (by simp only [CpuSystem.init]; decide) rfl

lemma window_succ {k : Int} (h0 : 0 ≤ k) (h : k + 1 ≠ 30 ∧ k + 1 ≠ 50 ∧ k + 1 ≠ 60)
    (h60 : k < 60) : window (k + 1) = window k := by
  simp only [window]
  split_ifs <;> first | rfl | omega

lemma windows_schedule {s s' : CpuSystem} {ticks : Int} (hs : Windows s)
    (h : cpuStep s (.schedule ticks) = some s') : Windows s' := by
  simp only [cpuStep] at h
  split at h
  · rename_i hn
    split at h
    · cases h
      exact windows_of_idle (le_refl _) (by dsimp only; decide) hn
    · rename_i p k l hch
      cases h
      obtain ⟨hk0, hk60, hrun⟩ := schedulerChoice_run hs.ticks_nonneg hch
      have hq : (s.table.proc p).schedInfo.queue = window k := by
        simp only [Proc.runnableIn, decide_eq_true_eq] at hrun
        exact hrun.2
      refine ⟨hk0, by dsimp only; omega, fun q hq' => ?_, fun q hq' => ⟨hk60, hq.symm⟩,
        fun q hq' => ?_, fun q hq' _ => ?_, fun q hq' _ _ => ?_, fun q hq' => ?_⟩
      all_goals
        dsimp only at hq' ⊢
        obtain rfl := Option.some.inj hq'
        simp only [Ptable.dispatch, Ptable.set_proc_self]
      · exact ⟨le_refl _, hk0⟩
      · decide
      · rfl
  · cases h

lemma windows_timer {s s' : CpuSystem} {ticks : Int} (hs : Windows s)
    (h : cpuStep s (.timer ticks) = some s') : Windows s' := by
  simp only [cpuStep] at h
  split at h
  · rename_i p hp
    split at h
    · cases h
      obtain ⟨h60, hw⟩ := hs.in_window p hp
      obtain ⟨hc0, hcle⟩ := hs.consecutive p hp
      have h0 := hs.ticks_nonneg
      have hmod : s.cpu.cpuTicks.tmod 60 = s.cpu.cpuTicks := by
        rw [Int.tmod_eq_emod_of_nonneg h0]
        omega
      simp only [timerTrap, hmod]
      split
      · exact windows_of_idle (by dsimp only; omega) (by dsimp only; omega) rfl
      · rename_i hno
        simp only [not_or, not_and, not_le] at hno
        obtain ⟨hrr, h30, h50, h60'⟩ := hno
        have hw' : window (s.cpu.cpuTicks + 1) = s.dispatchedIn := by
          rw [window_succ h0 ⟨h30, h50, h60'⟩ h60, hw]
        refine ⟨by dsimp only; omega, by dsimp only; omega, fun q hq => ?_,
          fun _ _ => ⟨by dsimp only; omega, hw'⟩, fun q hq => ?_, fun q hq hsame => ?_,
          fun q hq hsame hdisp => ?_, fun q hq => ?_⟩
        all_goals
          dsimp only at hq ⊢
          rw [hp, Option.some.injEq] at hq
          subst hq
          simp only [Ptable.set_proc_self]
        · exact hs.running p hp
        · omega
        · exact hs.same_queue p hp hsame
        · have := hrr (by rw [hs.same_queue p hp hsame, hdisp])
          omega
        · have hc := hs.counted p hp
          push_cast
          omega
    · cases h
      exact hs
  · cases h
    exact hs

lemma windows_leave {s s' : CpuSystem} {st : Procstate} (hs : Windows s)
    (h : cpuStep s (.leave st) = some s') : Windows s' := by
  simp only [cpuStep] at h
  split at h
  · cases h
    exact windows_of_idle hs.ticks_nonneg hs.ticks_le rfl
  · cases h

lemma windows_other {s s' : CpuSystem} {t : Ptable} (hs : Windows s)
    (h : cpuStep s (.other t) = some s') : Windows s' := by
  simp only [cpuStep] at h
  by_cases hrely : Relies s t
  · rw [if_pos hrely] at h
    cases h
    refine ⟨hs.ticks_nonneg, hs.ticks_le, fun p hp => (hrely p hp).1, hs.in_window,
      fun p hp => ?_, fun p hp hsame => ?_, fun p hp hsame hdisp => ?_, fun p hp => ?_⟩
    · rw [(hrely p hp).2]
      exact hs.consecutive p hp
    · dsimp only at hp hsame ⊢
      simp only [hp, Bool.and_eq_true, decide_eq_true_eq] at hsame
      rw [hsame.2]
      exact hs.same_queue p hp hsame.1
    · dsimp only at hp hsame ⊢
      simp only [hp, Bool.and_eq_true, decide_eq_true_eq] at hsame
      rw [(hrely p hp).2]
      exact hs.quantum p hp hsame.1 hdisp
    · rw [(hrely p hp).2]
      exact hs.counted p hp
  · rw [if_neg hrely] at h
    cases h

lemma windows_step {s s' : CpuSystem} {e : CpuEvent} (hs : Windows s)
    (h : cpuStep s e = some s') : Windows s' := by
  cases e with
  | schedule ticks => exact windows_schedule hs h
  | timer ticks => exact windows_timer hs h
  | leave st => exact windows_leave hs h
  | other t => exact windows_other hs h

theorem cpu_respects_windows (t : Ptable) (evs : List CpuEvent) (s : CpuSystem)
    (h : Run.exec cpuStep (CpuSystem.init t) evs = some s) :
    0 ≤ s.cpu.cpuTicks ∧ s.cpu.cpuTicks ≤ 60 ∧
      (∀ p, s.cpu.proc = some p → (s.table.proc p).state = .running ∧
        window (s.cpu.cpuTicks % 60) = s.dispatchedIn ∧
        (s.table.proc p).consecutiveTime = s.ticksHere ∧ (s.ticksHere : Int) ≤ s.cpu.cpuTicks) ∧
      (∀ p, s.cpu.proc = some p → s.sameQueue = true →
        (s.table.proc p).schedInfo.queue = s.dispatchedIn ∧
        (s.dispatchedIn = .roundRobin → s.ticksHere < 5)) := by
  have hw : Windows s := exec_invariant (fun _ _ _ hs h => windows_step hs h) (windows_init t) h
  refine ⟨hw.ticks_nonneg, hw.ticks_le, fun p hp => ⟨hw.running p hp, ?_, hw.counted p hp, ?_⟩,
    fun p hp hsame => ⟨hw.same_queue p hp hsame, fun hrr => ?_⟩⟩
  · obtain ⟨h60, hwin⟩ := hw.in_window p hp
    rw [Int.emod_eq_of_lt hw.ticks_nonneg h60, hwin]
  · rw [← hw.counted p hp]
    exact (hw.consecutive p hp).2
  · have hq := hw.quantum p hp hsame hrr
    rw [hw.counted p hp] at hq
    exact_mod_cast hq

theorem cpu_respects_windows_two_ticks :
    ∃ s, Run.exec cpuStep (CpuSystem.init (Ptable.boot.set 3 { Proc.zero with
        state := .runnable
        schedInfo := { Proc.zero.schedInfo with queue := .roundRobin } }))
        [.schedule 0, .timer 1, .timer 2] = some s ∧
      s.cpu.proc = some 3 ∧ s.ticksHere = 2 ∧ window (s.cpu.cpuTicks % 60) = .roundRobin := by
  refine ⟨_, rfl, rfl, rfl, ?_⟩
  exact ((cpu_respects_windows (Ptable.boot.set 3 { Proc.zero with
    state := .runnable
    schedInfo := { Proc.zero.schedInfo with queue := .roundRobin } })
    [.schedule 0, .timer 1, .timer 2] _ rfl).2.2.1 3 rfl).2.1

end Xv6.Process
