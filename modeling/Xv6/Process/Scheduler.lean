import Xv6.Process.Table
import Xv6.Lib.Sorting

/-! One iteration of the loop of `scheduler()` in `proc.c`, under `ptable.lock`, and the three
queue pickers it calls: `round_robin` from the slot after the last round-robin choice,
`shortest_job_first` over the exchange-sorted SJF candidates with its seeded coin, and
`first_come_first_serve` for the least `arrival_queue_time`. The residue `cpu_ticks % 60`
picks the window, and so the queue tried first; an empty queue passes on to the next one by
overwriting `time_period` with `31` or `51`, and the value stored back in `cpu_ticks` is
`time_period - 1`. The loop's first call of `round_robin`, before `time_period` is computed, is
overwritten on every path and is left out; `c->proc` is always `0` at the `last_run` update,
since the loop clears it after every switch. -/

namespace Xv6.Process

open Table

def Proc.runnableIn (p : Proc) (q : ScheduleQueue) : Bool :=
  decide (p.state = .runnable ∧ p.schedInfo.queue = q)

def Ptable.HasRunnable (t : Ptable) (q : ScheduleQueue) : Prop := ∃ i, (t.proc i).runnableIn q

def nextSlot (p : Fin nproc) : Fin nproc :=
  if h : p.val + 1 < nproc then ⟨p.val + 1, h⟩ else ⟨0, by decide⟩

def roundRobinLoop (t : Ptable) (last p : Fin nproc) : Nat → Option (Option (Fin nproc))
  | 0 => none
  | n + 1 =>
    let p := nextSlot p
    if (t.proc p).runnableIn .roundRobin then some (some p)
    else if p = last then some none
    else roundRobinLoop t last p n

def roundRobin (t : Ptable) (last : Fin nproc) : Option (Fin nproc) :=
  (roundRobinLoop t last last nproc).join

def lastScheduledRR (ts : Nat → Ptable) (last : Fin nproc) : Nat → Fin nproc
  | 0 => last
  | m + 1 =>
    let l := lastScheduledRR ts last m
    (roundRobin (ts m) l).getD l

def sjfCandidates (t : Ptable) : List (Fin nproc) :=
  (List.finRange nproc).filter fun i => (t.proc i).runnableIn .sjf

def randFrom (s : Nat) : Int := (((1103515245 * s + 12345) % 4294967296) &&& 0x7fffffff : Nat)

def shortestJobFirst (t : Ptable) : Option (Fin nproc) :=
  let l := sjfCandidates t
  if h : l.length = 0 then none
  else
    let sorted := Sorting.exchangeSort (fun a b => decide
      ((t.proc a).schedInfo.sjf.burstTime > (t.proc b).schedInfo.sjf.burstTime)) l.get
    match (List.finRange l.length).find? (fun i => decide
        ((randFrom (i.val + 1)).tmod 100 < (t.proc (sorted i)).schedInfo.sjf.confidence)) with
    | some i => some (sorted i)
    | none => some (sorted ⟨l.length - 1, by omega⟩)

def sjfSorted (t : Ptable) : Fin (sjfCandidates t).length → Fin nproc :=
  Sorting.exchangeSort (fun a b => decide
    ((t.proc a).schedInfo.sjf.burstTime > (t.proc b).schedInfo.sjf.burstTime)) (sjfCandidates t).get

def firstComeFirstServe (t : Ptable) : Option (Fin nproc) :=
  loop (minStep (fun i => (t.proc i).runnableIn .fcfs)
    fun i => (t.proc i).schedInfo.arrivalQueueTime) none

inductive Dispatch
  | idle
  | run (p : Fin nproc) (cpuTicks : Int) (lastRR : Fin nproc)
  deriving DecidableEq, Repr

def schedulerChoice (t : Ptable) (lastRR : Fin nproc) (cpuTicks : Int) : Dispatch :=
  let timePeriod := cpuTicks.tmod 60 + 1
  let (p, timePeriod, lastRR) :=
    if timePeriod ≤ 30 then
      match roundRobin t lastRR with
      | some p => (some p, timePeriod, p)
      | none => (none, 31, lastRR)
    else (none, timePeriod, lastRR)
  let (p, timePeriod) :=
    if 31 ≤ timePeriod ∧ timePeriod ≤ 50 then
      match shortestJobFirst t with
      | some p => (some p, timePeriod)
      | none => (none, 51)
    else (p, timePeriod)
  let p := if 51 ≤ timePeriod then firstComeFirstServe t else p
  match p with
  | none => .idle
  | some p => .run p (timePeriod - 1) lastRR

def Dispatch.cpuTicks : Dispatch → Int
  | .idle => 0
  | .run _ k _ => k

def Ptable.dispatch (t : Ptable) (p : Fin nproc) (ticks : Int) : Ptable :=
  t.set p { t.proc p with
    state := .running
    consecutiveTime := 0
    schedInfo := { (t.proc p).schedInfo with getCpuTime := ticks } }

def window (k : Int) : ScheduleQueue :=
  if k < 30 then .roundRobin else if k < 50 then .sjf else .fcfs

def triedFrom : ScheduleQueue → List ScheduleQueue
  | .roundRobin => [.roundRobin, .sjf, .fcfs]
  | .sjf => [.sjf, .fcfs]
  | _ => [.fcfs]

def ThreeWindow (t : Ptable) (cpuTicks : Int) : Dispatch → Prop
  | .idle => ∀ q ∈ triedFrom (window (cpuTicks % 60)), ¬ t.HasRunnable q
  | .run p k _ => 0 ≤ k ∧ k < 60 ∧ (t.proc p).runnableIn (window k) ∧
      (∃ pre post, triedFrom (window (cpuTicks % 60)) = pre ++ window k :: post ∧
        ∀ q ∈ pre, ¬ t.HasRunnable q) ∧
      (window k = .fcfs → ∀ i, (t.proc i).runnableIn .fcfs →
        (t.proc p).schedInfo.arrivalQueueTime ≤ (t.proc i).schedInfo.arrivalQueueTime)

lemma nextSlot_val (p : Fin nproc) : (nextSlot p).val = (p.val + 1) % nproc := by
  have hp := p.isLt
  unfold nextSlot
  split
  · rename_i h
    exact (Nat.mod_eq_of_lt h).symm
  · rename_i h
    simp only [nproc] at h hp ⊢
    omega

lemma nextSlot_rotate (last : Fin nproc) (m : Nat) :
    nextSlot (rotate last m) = rotate last (m + 1) := by
  refine Fin.ext ?_
  rw [nextSlot_val]
  simp only [rotate, nproc]
  omega

lemma rotate_eq_self_iff (last : Fin nproc) {m : Nat} (h0 : 0 < m) (h1 : m ≤ nproc) :
    rotate last m = last ↔ m = nproc := by
  have hl := last.isLt
  rw [Fin.ext_iff]
  simp only [rotate, nproc] at hl h1 ⊢
  omega

lemma roundRobinLoop_rotate (t : Ptable) (last : Fin nproc) (k m : Nat) (hk : 0 < k)
    (hm : m + k = nproc) :
    roundRobinLoop t last (rotate last m) k =
      some (((List.range' m k).map fun j => rotate last (j + 1)).find?
        fun i => (t.proc i).runnableIn .roundRobin) := by
  induction k generalizing m with
  | zero => omega
  | succ k ih =>
    rw [List.range'_succ, List.map_cons, List.find?_cons, roundRobinLoop, nextSlot_rotate]
    cases hf : (t.proc (rotate last (m + 1))).runnableIn .roundRobin with
    | true => simp only [if_true]
    | false =>
      simp only [Bool.false_eq_true, if_false]
      by_cases hlast : m + 1 = nproc
      · have hk : k = 0 := by omega
        rw [if_pos ((rotate_eq_self_iff last (by omega) (by omega)).mpr hlast), hk]
        rfl
      · rw [if_neg (fun h => hlast ((rotate_eq_self_iff last (by omega) (by omega)).mp h)),
          ih (m + 1) (by omega) (by omega)]

lemma roundRobin_eq (t : Ptable) (last : Fin nproc) :
    roundRobin t last = cyclicFirst? (fun i => (t.proc i).runnableIn .roundRobin) last := by
  have h0 : rotate last 0 = last := Fin.ext (Nat.mod_eq_of_lt last.isLt)
  have hloop := roundRobinLoop_rotate t last nproc 0 (by decide) (by omega)
  rw [h0] at hloop
  rw [roundRobin, hloop, Option.join_some, List.range'_eq_map_range, cyclicFirst?, cyclicOrder]
  simp only [List.map_map, Function.comp_def, Nat.zero_add]

lemma roundRobin_eq_none {t : Ptable} {last : Fin nproc} :
    roundRobin t last = none ↔ ¬ t.HasRunnable .roundRobin := by
  rw [roundRobin_eq, cyclicFirst?_eq_none, Ptable.HasRunnable]
  simp

lemma roundRobin_spec {t : Ptable} {last p : Fin nproc} (h : roundRobin t last = some p) :
    (t.proc p).runnableIn .roundRobin := by
  rw [roundRobin_eq] at h
  exact cyclicFirst?_spec h

lemma roundRobinLoop_add (t : Ptable) (last : Fin nproc) (k m j : Nat) (hm : m + k = nproc)
    (hk : 1 ≤ k) :
    roundRobinLoop t last (rotate last m) (k + j) = roundRobinLoop t last (rotate last m) k := by
  induction k generalizing m with
  | zero => omega
  | succ k ih =>
    rw [show k + 1 + j = k + j + 1 by omega, roundRobinLoop, roundRobinLoop, nextSlot_rotate]
    split_ifs with hf hlast
    · rfl
    · rfl
    · have hk1 : 1 ≤ k := by
        by_contra h0
        exact hlast ((rotate_eq_self_iff last (by omega) (by omega)).mpr (by omega))
      exact ih (m + 1) (by omega) hk1

lemma roundRobinLoop_fuel (t : Ptable) (last : Fin nproc) {k : Nat} (hk : nproc ≤ k) :
    roundRobinLoop t last last k = some (roundRobin t last) := by
  have h0 : rotate last 0 = last := Fin.ext (Nat.mod_eq_of_lt last.isLt)
  have h := roundRobinLoop_add t last nproc 0 (k - nproc) (by omega) (by decide)
  have hret := roundRobinLoop_rotate t last nproc 0 (by decide) (by omega)
  rw [h0, Nat.add_sub_cancel' hk] at h
  rw [h0] at hret
  rw [h, roundRobin, hret, Option.join_some]

lemma lastScheduledRR_eq {t : Ptable} {ts : Nat → Ptable} (last : Fin nproc)
    (hts : ∀ m i, ((ts m).proc i).runnableIn .roundRobin = (t.proc i).runnableIn .roundRobin)
    (m : Nat) :
    lastScheduledRR ts last m = (cyclicNext fun i => (t.proc i).runnableIn .roundRobin)^[m] last := by
  induction m with
  | zero => rfl
  | succ m ih =>
    have hp : (fun i => ((ts m).proc i).runnableIn .roundRobin) =
        fun i => (t.proc i).runnableIn .roundRobin := funext (hts m)
    rw [lastScheduledRR, Function.iterate_succ_apply', ← ih, roundRobin_eq, hp]
    rfl

theorem round_robin_cyclic_fair (t : Ptable) (last : Fin nproc) :
    (∀ k, nproc ≤ k → roundRobinLoop t last last k = some (roundRobin t last)) ∧
      roundRobin t last = cyclicFirst? (fun i => (t.proc i).runnableIn .roundRobin) last ∧
      ∀ ts : Nat → Ptable,
        (∀ m i, ((ts m).proc i).runnableIn .roundRobin = (t.proc i).runnableIn .roundRobin) →
        ∀ k, ((List.range ((List.finRange nproc).filter fun i =>
            (t.proc i).runnableIn .roundRobin).length).map fun j =>
              lastScheduledRR ts last (k + j + 1)).Perm
          ((List.finRange nproc).filter fun i => (t.proc i).runnableIn .roundRobin) := by
  refine ⟨fun k hk => roundRobinLoop_fuel t last hk, roundRobin_eq t last, fun ts hts k => ?_⟩
  have hcalls : (fun j => lastScheduledRR ts last (k + j + 1)) = fun j =>
      (cyclicNext fun i => (t.proc i).runnableIn .roundRobin)^[j + 1]
        ((cyclicNext fun i => (t.proc i).runnableIn .roundRobin)^[k] last) := by
    funext j
    rw [lastScheduledRR_eq last hts, ← Function.iterate_add_apply]
    congr 1
    omega
  rw [hcalls]
  exact iterate_cyclicNext_perm _

theorem round_robin_cyclic_fair_two :
    let p : Proc := { Proc.zero with
      state := .runnable
      schedInfo := { Proc.zero.schedInfo with queue := .roundRobin } }
    let t := (Ptable.boot.set 3 p).set 5 p
    ((List.range ((List.finRange nproc).filter fun i => (t.proc i).runnableIn .roundRobin).length).map
        fun j => lastScheduledRR (fun _ => t) 63 (0 + j + 1)).Perm
      ((List.finRange nproc).filter fun i => (t.proc i).runnableIn .roundRobin) :=
  (round_robin_cyclic_fair _ 63).2.2 (fun _ => _) (fun _ _ => rfl) 0

lemma mem_sjfCandidates {t : Ptable} {i : Fin nproc} :
    i ∈ sjfCandidates t ↔ (t.proc i).runnableIn .sjf := by
  simp [sjfCandidates, List.mem_finRange]

lemma shortestJobFirst_eq_none {t : Ptable} :
    shortestJobFirst t = none ↔ ¬ t.HasRunnable .sjf := by
  rw [Ptable.HasRunnable, not_exists]
  simp only [shortestJobFirst]
  split
  · rename_i h
    rw [List.length_eq_zero_iff] at h
    simp only [true_iff]
    intro i hi
    rw [← mem_sjfCandidates, h] at hi
    cases hi
  · rename_i h
    obtain ⟨i, hi⟩ := List.exists_mem_of_length_pos (Nat.pos_of_ne_zero h)
    split <;> simpa using ⟨i, mem_sjfCandidates.mp hi⟩

lemma sjfSorted_perm (t : Ptable) : (List.ofFn (sjfSorted t)).Perm (sjfCandidates t) := by
  obtain ⟨σ, hσ⟩ := Sorting.exchangeSort_perm (fun a b => decide
    ((t.proc a).schedInfo.sjf.burstTime > (t.proc b).schedInfo.sjf.burstTime)) (sjfCandidates t).get
  have h := σ.ofFn_comp_perm (sjfCandidates t).get
  rw [List.ofFn_get] at h
  rw [sjfSorted, hσ]
  exact h

lemma sjfSorted_sorted (t : Ptable) {a b : Fin (sjfCandidates t).length} (hab : a < b) :
    (t.proc (sjfSorted t a)).schedInfo.sjf.burstTime ≤
      (t.proc (sjfSorted t b)).schedInfo.sjf.burstTime :=
  Sorting.exchangeSort_sorted (fun i => (t.proc i).schedInfo.sjf.burstTime) _ hab

lemma mem_sjfSorted {t : Ptable} {q : Fin nproc} (hq : (t.proc q).runnableIn .sjf) :
    ∃ j, sjfSorted t j = q :=
  List.mem_ofFn.mp ((sjfSorted_perm t).mem_iff.mpr (mem_sjfCandidates.mpr hq))

lemma sjfSorted_mem (t : Ptable) (k : Fin (sjfCandidates t).length) :
    sjfSorted t k ∈ sjfCandidates t :=
  (sjfSorted_perm t).mem_iff.mp (List.mem_ofFn.mpr ⟨k, rfl⟩)

lemma shortestJobFirst_spec {t : Ptable} {p : Fin nproc} (h : shortestJobFirst t = some p) :
    (t.proc p).runnableIn .sjf := by
  simp only [shortestJobFirst] at h
  split at h
  · cases h
  · split at h <;>
    · cases h
      exact mem_sjfCandidates.mp (sjfSorted_mem t _)

lemma randFrom_tmod_lt (s : Nat) : (randFrom s).tmod 100 < 100 := by
  have h0 : 0 ≤ randFrom s := Int.natCast_nonneg _
  rw [Int.tmod_eq_emod_of_nonneg h0]
  exact Int.emod_lt_of_pos _ (by decide)

lemma shortestJobFirst_le_certain {t : Ptable} {p q : Fin nproc} (h : shortestJobFirst t = some p)
    (hq : (t.proc q).runnableIn .sjf) (hc : 100 ≤ (t.proc q).schedInfo.sjf.confidence) :
    (t.proc p).schedInfo.sjf.burstTime ≤ (t.proc q).schedInfo.sjf.burstTime := by
  obtain ⟨j, rfl⟩ := mem_sjfSorted hq
  have hj : decide ((randFrom (j.val + 1)).tmod 100 <
      (t.proc (sjfSorted t j)).schedInfo.sjf.confidence) = true :=
    decide_eq_true (lt_of_lt_of_le (randFrom_tmod_lt _) hc)
  simp only [shortestJobFirst] at h
  split at h
  · cases h
  · split at h
    · rename_i i hi
      cases h
      have hij : i ≤ j := not_lt.mp fun hji =>
        Bool.false_ne_true (((first?_eq_some.mp hi).2 j hji).symm.trans hj)
      rcases hij.lt_or_eq with hlt | rfl
      · exact sjfSorted_sorted t hlt
      · exact le_rfl
    · rename_i hn
      exact absurd ((first?_eq_none.mp hn j).symm.trans hj) Bool.false_ne_true

theorem shortest_job_first_sorted_pick (t : Ptable) :
    (shortestJobFirst t = none ↔ ¬ t.HasRunnable .sjf) ∧
      (List.ofFn (sjfSorted t)).Perm (sjfCandidates t) ∧
      (∀ a b, a < b → (t.proc (sjfSorted t a)).schedInfo.sjf.burstTime ≤
        (t.proc (sjfSorted t b)).schedInfo.sjf.burstTime) ∧
      ∀ p, shortestJobFirst t = some p → (t.proc p).runnableIn .sjf ∧
        ∀ q, (t.proc q).runnableIn .sjf → 100 ≤ (t.proc q).schedInfo.sjf.confidence →
          (t.proc p).schedInfo.sjf.burstTime ≤ (t.proc q).schedInfo.sjf.burstTime :=
  ⟨shortestJobFirst_eq_none, sjfSorted_perm t, fun _ _ hab => sjfSorted_sorted t hab,
    fun _ hp => ⟨shortestJobFirst_spec hp, fun _ hq hc => shortestJobFirst_le_certain hp hq hc⟩⟩

theorem shortest_job_first_sorted_pick_two :
    let p : Proc := { Proc.zero with
      state := .runnable
      schedInfo := { Proc.zero.schedInfo with
        queue := .sjf
        sjf := { Proc.zero.schedInfo.sjf with confidence := 100, burstTime := 4 } } }
    let t := (Ptable.boot.set 3 p).set 5
      { p with schedInfo := { p.schedInfo with sjf := { p.schedInfo.sjf with burstTime := 2 } } }
    shortestJobFirst t = some 5 ∧
      (t.proc 5).schedInfo.sjf.burstTime ≤ (t.proc 3).schedInfo.sjf.burstTime :=
  ⟨by decide +kernel,
    ((shortest_job_first_sorted_pick _).2.2.2 5 (by decide +kernel)).2 3 (by decide +kernel)
      (by decide +kernel)⟩

lemma firstComeFirstServe_eq_none {t : Ptable} :
    firstComeFirstServe t = none ↔ ¬ t.HasRunnable .fcfs := by
  have hmin := minOf_foldl (fun i => (t.proc i).runnableIn .fcfs)
    (fun i => (t.proc i).schedInfo.arrivalQueueTime) (List.finRange nproc)
  rw [Ptable.HasRunnable, not_exists, firstComeFirstServe, loop]
  cases hr : (List.finRange nproc).foldl (minStep (fun i => (t.proc i).runnableIn .fcfs)
    fun i => (t.proc i).schedInfo.arrivalQueueTime) none with
  | none =>
    rw [hr] at hmin
    simpa using fun i => hmin i (List.mem_finRange i)
  | some m =>
    rw [hr] at hmin
    simpa using ⟨m, hmin.2.1⟩

lemma firstComeFirstServe_spec {t : Ptable} {p : Fin nproc} (h : firstComeFirstServe t = some p) :
    (t.proc p).runnableIn .fcfs ∧ ∀ i, (t.proc i).runnableIn .fcfs →
      (t.proc p).schedInfo.arrivalQueueTime ≤ (t.proc i).schedInfo.arrivalQueueTime := by
  have hmin := minOf_foldl (fun i => (t.proc i).runnableIn .fcfs)
    (fun i => (t.proc i).schedInfo.arrivalQueueTime) (List.finRange nproc)
  rw [firstComeFirstServe, loop] at h
  rw [h] at hmin
  exact ⟨hmin.2.1, fun i hi => hmin.2.2 i (List.mem_finRange i) hi⟩

lemma window_of_lt_30 {k : Int} (h : k < 30) : window k = .roundRobin := by
  simp [window, h]

lemma window_of_lt_50 {k : Int} (h₁ : 30 ≤ k) (h₂ : k < 50) : window k = .sjf := by
  simp [window, h₂, show ¬ k < 30 by omega]

lemma window_of_ge_50 {k : Int} (h : 50 ≤ k) : window k = .fcfs := by
  simp [window, show ¬ k < 30 by omega, show ¬ k < 50 by omega]

section Choice

variable {t : Ptable} {last p : Fin nproc} {c : Int}

lemma schedulerChoice_of_rr (hw : c.tmod 60 < 30) (h : roundRobin t last = some p) :
    schedulerChoice t last c = .run p (c.tmod 60) p := by
  simp only [schedulerChoice, show c.tmod 60 + 1 ≤ 30 by omega, if_true, h,
    show ¬ (31 ≤ c.tmod 60 + 1 ∧ c.tmod 60 + 1 ≤ 50) by omega, if_false,
    show ¬ (51 ≤ c.tmod 60 + 1) by omega, add_sub_cancel_right]

lemma schedulerChoice_of_sjf (hw : c.tmod 60 < 50) (hrr : c.tmod 60 < 30 → roundRobin t last = none)
    (h : shortestJobFirst t = some p) :
    schedulerChoice t last c = .run p (max (c.tmod 60) 30) last := by
  by_cases h30 : c.tmod 60 < 30
  · simp only [schedulerChoice, show c.tmod 60 + 1 ≤ 30 by omega, if_true, hrr h30, h,
      and_self, show 31 ≤ (31 : Int) ∧ (31 : Int) ≤ 50 by omega, show ¬ (51 ≤ (31 : Int)) by omega, if_false]
    congr 1
    omega
  · simp only [schedulerChoice, show ¬ (c.tmod 60 + 1 ≤ 30) by omega, if_false,
      show 31 ≤ c.tmod 60 + 1 ∧ c.tmod 60 + 1 ≤ 50 by omega, if_true, and_self, h,
      show ¬ (51 ≤ c.tmod 60 + 1) by omega]
    congr 1
    omega

lemma schedulerChoice_of_fcfs (h0 : 0 ≤ c.tmod 60) (h60 : c.tmod 60 < 60)
    (hrr : c.tmod 60 < 30 → roundRobin t last = none)
    (hsjf : c.tmod 60 < 50 → shortestJobFirst t = none) :
    schedulerChoice t last c = match firstComeFirstServe t with
      | none => .idle
      | some p => .run p (max (c.tmod 60) 50) last := by
  by_cases h30 : c.tmod 60 < 30
  · simp only [schedulerChoice, show c.tmod 60 + 1 ≤ 30 by omega, if_true, hrr h30,
      show 31 ≤ (31 : Int) ∧ (31 : Int) ≤ 50 by omega, and_self, hsjf (by omega),
      show 51 ≤ (51 : Int) by omega]
    cases firstComeFirstServe t with
    | none => rfl
    | some p =>
      dsimp only
      congr 1
      omega
  · by_cases h50 : c.tmod 60 < 50
    · simp only [schedulerChoice, show ¬ (c.tmod 60 + 1 ≤ 30) by omega, if_false,
        show 31 ≤ c.tmod 60 + 1 ∧ c.tmod 60 + 1 ≤ 50 by omega, if_true, and_self, hsjf h50,
        show 51 ≤ (51 : Int) by omega]
      cases firstComeFirstServe t with
      | none => rfl
      | some p =>
        dsimp only
        congr 1
        omega
    · simp only [schedulerChoice, show ¬ (c.tmod 60 + 1 ≤ 30) by omega, if_false,
        show ¬ (31 ≤ c.tmod 60 + 1 ∧ c.tmod 60 + 1 ≤ 50) by omega,
        show 51 ≤ c.tmod 60 + 1 by omega, if_true]
      cases firstComeFirstServe t with
      | none => rfl
      | some p =>
        dsimp only
        congr 1
        omega

lemma triedFrom_window_split {r s : Int} (h0 : 0 ≤ r)
    (hs : (s = 0 ∧ r < 30) ∨ (s = 30 ∧ r < 50) ∨ s = 50)
    (hrr : 0 < s → r < 30 → ¬ t.HasRunnable .roundRobin)
    (hsjf : 30 < s → r < 50 → ¬ t.HasRunnable .sjf) :
    ∃ pre post, triedFrom (window r) = pre ++ window (max r s) :: post ∧
      ∀ q ∈ pre, ¬ t.HasRunnable q := by
  rcases hs with ⟨rfl, h30⟩ | ⟨rfl, h50⟩ | rfl
  · rw [max_eq_left h0, window_of_lt_30 h30]
    exact ⟨[], _, rfl, by simp⟩
  · by_cases h30 : r < 30
    · rw [max_eq_right (by omega), window_of_lt_30 h30, window_of_lt_50 (by decide) (by decide)]
      exact ⟨[.roundRobin], _, rfl, by simpa using hrr (by decide) h30⟩
    · rw [max_eq_left (by omega), window_of_lt_50 (by omega) h50]
      exact ⟨[], _, rfl, by simp⟩
  · rw [window_of_ge_50 (le_max_right r 50)]
    by_cases h50 : r < 50
    · by_cases h30 : r < 30
      · rw [window_of_lt_30 h30]
        refine ⟨[.roundRobin, .sjf], _, rfl, ?_⟩
        simp only [List.mem_cons, List.not_mem_nil, or_false]
        rintro q (rfl | rfl)
        · exact hrr (by decide) h30
        · exact hsjf (by decide) h50
      · rw [window_of_lt_50 (by omega) h50]
        exact ⟨[.sjf], _, rfl, by simpa using hsjf (by decide) h50⟩
    · rw [window_of_ge_50 (by omega)]
      exact ⟨[], _, rfl, by simp⟩

lemma triedFrom_window_empty {r : Int} (hrr : r < 30 → ¬ t.HasRunnable .roundRobin)
    (hsjf : r < 50 → ¬ t.HasRunnable .sjf) (hf : ¬ t.HasRunnable .fcfs) :
    ∀ q ∈ triedFrom (window r), ¬ t.HasRunnable q := by
  unfold window
  split_ifs with h30 h50 <;> simp only [triedFrom, List.mem_cons, List.not_mem_nil, or_false]
  · rintro q (rfl | rfl | rfl)
    · exact hrr h30
    · exact hsjf (by omega)
    · exact hf
  · rintro q (rfl | rfl)
    · exact hsjf h50
    · exact hf
  · rintro q rfl
    exact hf

lemma schedulerChoice_cases (h0 : 0 ≤ c.tmod 60) (h60 : c.tmod 60 < 60) :
    (c.tmod 60 < 30 ∧ ∃ p, roundRobin t last = some p ∧
      schedulerChoice t last c = .run p (c.tmod 60) p) ∨
    (c.tmod 60 < 50 ∧ (c.tmod 60 < 30 → roundRobin t last = none) ∧ ∃ p,
      shortestJobFirst t = some p ∧ schedulerChoice t last c = .run p (max (c.tmod 60) 30) last) ∨
    ((c.tmod 60 < 30 → roundRobin t last = none) ∧ (c.tmod 60 < 50 → shortestJobFirst t = none) ∧
      schedulerChoice t last c = match firstComeFirstServe t with
        | none => .idle
        | some p => .run p (max (c.tmod 60) 50) last) := by
  have hrr : c.tmod 60 < 30 → (∃ p, roundRobin t last = some p) ∨ roundRobin t last = none :=
    fun _ => by cases roundRobin t last <;> simp
  by_cases h30 : c.tmod 60 < 30
  · rcases hrr h30 with ⟨p, hp⟩ | hnone
    · exact .inl ⟨h30, p, hp, schedulerChoice_of_rr h30 hp⟩
    · cases hs : shortestJobFirst t with
      | some p =>
        exact .inr (.inl ⟨by omega, fun _ => hnone, p, rfl,
          schedulerChoice_of_sjf (by omega) (fun _ => hnone) hs⟩)
      | none =>
        exact .inr (.inr ⟨fun _ => hnone, fun _ => rfl,
          schedulerChoice_of_fcfs h0 h60 (fun _ => hnone) (fun _ => hs)⟩)
  · have hnot : c.tmod 60 < 30 → roundRobin t last = none := fun h => absurd h h30
    by_cases h50 : c.tmod 60 < 50
    · cases hs : shortestJobFirst t with
      | some p => exact .inr (.inl ⟨h50, hnot, p, rfl, schedulerChoice_of_sjf h50 hnot hs⟩)
      | none =>
        exact .inr (.inr ⟨hnot, fun _ => rfl, schedulerChoice_of_fcfs h0 h60 hnot (fun _ => hs)⟩)
    · have hnot' : c.tmod 60 < 50 → shortestJobFirst t = none := fun h => absurd h h50
      exact .inr (.inr ⟨hnot, hnot', schedulerChoice_of_fcfs h0 h60 hnot hnot'⟩)

lemma schedulerChoice_run {k : Int} {l : Fin nproc} (hc : 0 ≤ c)
    (h : schedulerChoice t last c = .run p k l) :
    0 ≤ k ∧ k < 60 ∧ (t.proc p).runnableIn (window k) := by
  have hr := Int.tmod_eq_emod_of_nonneg (b := 60) hc
  have h0 : 0 ≤ c.tmod 60 := hr ▸ Int.emod_nonneg _ (by decide)
  have h60 : c.tmod 60 < 60 := hr ▸ Int.emod_lt_of_pos _ (by decide)
  rcases schedulerChoice_cases h0 h60 with ⟨h30, q, hq, hch⟩ | ⟨h50, -, q, hq, hch⟩ | ⟨-, -, hch⟩
  · rw [hch, Dispatch.run.injEq] at h
    obtain ⟨rfl, rfl, -⟩ := h
    rw [window_of_lt_30 h30]
    exact ⟨h0, h60, roundRobin_spec hq⟩
  · rw [hch, Dispatch.run.injEq] at h
    obtain ⟨rfl, rfl, -⟩ := h
    rw [window_of_lt_50 (le_max_right _ _) (by omega)]
    exact ⟨by omega, by omega, shortestJobFirst_spec hq⟩
  · rw [hch] at h
    cases hf : firstComeFirstServe t with
    | none =>
      rw [hf] at h
      cases h
    | some q =>
      rw [hf, Dispatch.run.injEq] at h
      obtain ⟨rfl, rfl, -⟩ := h
      rw [window_of_ge_50 (le_max_right _ _)]
      exact ⟨by omega, by omega, (firstComeFirstServe_spec hf).1⟩

end Choice

theorem scheduler_follows_three_windows (t : Ptable) (last : Fin nproc) (c : Int) (hc : 0 ≤ c) :
    ThreeWindow t c (schedulerChoice t last c) := by
  have hr := Int.tmod_eq_emod_of_nonneg (b := 60) hc
  have h0 : 0 ≤ c.tmod 60 := hr ▸ Int.emod_nonneg _ (by decide)
  have h60 : c.tmod 60 < 60 := hr ▸ Int.emod_lt_of_pos _ (by decide)
  rcases schedulerChoice_cases h0 h60 with
    ⟨h30, p, hp, hch⟩ | ⟨h50, hrr, p, hp, hch⟩ | ⟨hrr, hsjf, hch⟩
  · obtain ⟨pre, post, hsplit, hpre⟩ := triedFrom_window_split (s := 0) h0 (.inl ⟨rfl, h30⟩)
      (fun h => absurd h (lt_irrefl 0)) (fun h => absurd h (by decide))
    have hw := window_of_lt_30 h30
    rw [max_eq_left h0] at hsplit
    rw [hch]
    simp only [ThreeWindow, ← hr, hw]
    exact ⟨h0, h60, roundRobin_spec hp, ⟨pre, post, hw ▸ hsplit, hpre⟩, fun h => by cases h⟩
  · obtain ⟨pre, post, hsplit, hpre⟩ := triedFrom_window_split (s := 30) h0 (.inr (.inl ⟨rfl, h50⟩))
      (fun _ h => roundRobin_eq_none.mp (hrr h)) (fun h => absurd h (lt_irrefl 30))
    have hw : window (max (c.tmod 60) 30) = .sjf :=
      window_of_lt_50 (le_max_right _ _) (max_lt h50 (by decide))
    rw [hch]
    simp only [ThreeWindow, ← hr, hw]
    exact ⟨by omega, by omega, shortestJobFirst_spec hp, ⟨pre, post, hw ▸ hsplit, hpre⟩,
      fun h => by cases h⟩
  · rw [hch]
    cases hf : firstComeFirstServe t with
    | none =>
      simp only [ThreeWindow, ← hr]
      exact triedFrom_window_empty (fun h => roundRobin_eq_none.mp (hrr h))
        (fun h => shortestJobFirst_eq_none.mp (hsjf h)) (firstComeFirstServe_eq_none.mp hf)
    | some p =>
      obtain ⟨pre, post, hsplit, hpre⟩ := triedFrom_window_split (s := 50) h0 (.inr (.inr rfl))
        (fun _ h => roundRobin_eq_none.mp (hrr h)) (fun _ h => shortestJobFirst_eq_none.mp (hsjf h))
      have hw : window (max (c.tmod 60) 50) = .fcfs := window_of_ge_50 (le_max_right _ _)
      simp only [ThreeWindow, ← hr, hw]
      exact ⟨by omega, by omega, (firstComeFirstServe_spec hf).1, ⟨pre, post, hw ▸ hsplit, hpre⟩,
        fun _ => (firstComeFirstServe_spec hf).2⟩

theorem scheduler_follows_three_windows_each_queue :
    let p : Proc := { Proc.zero with state := .runnable }
    let t := ((Ptable.boot.set 3 { p with schedInfo := { p.schedInfo with queue := .roundRobin } }).set 5
      { p with schedInfo := { p.schedInfo with
        queue := .sjf
        sjf := { p.schedInfo.sjf with confidence := 100 } } }).set 7
      { p with schedInfo := { p.schedInfo with queue := .fcfs } }
    schedulerChoice t 63 10 = .run 3 10 3 ∧ ThreeWindow t 10 (schedulerChoice t 63 10) ∧
      schedulerChoice t 63 35 = .run 5 35 63 ∧ ThreeWindow t 35 (schedulerChoice t 63 35) ∧
      schedulerChoice t 63 55 = .run 7 55 63 ∧ ThreeWindow t 55 (schedulerChoice t 63 55) :=
  ⟨by decide +kernel, scheduler_follows_three_windows _ 63 10 (by decide),
    by decide +kernel, scheduler_follows_three_windows _ 63 35 (by decide),
    by decide +kernel, scheduler_follows_three_windows _ 63 55 (by decide)⟩

end Xv6.Process
