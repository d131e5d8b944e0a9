import Xv6.Lib.Run
import Xv6.Lib.Table
import Xv6.Lib.CInt
import Xv6.Param
import Mathlib.Algebra.BigOperators.Fin
import Mathlib.Algebra.BigOperators.Group.Finset.Piecewise
import Mathlib.Algebra.Order.BigOperators.Group.Finset
import Mathlib.Tactic.Ring

/-! The system-call counters of `syscall.c`. Each `syscall()` adds `get_coefficient(num)` to
its CPU's `syscall_count` between `pushcli` and `popcli`, then to `total_syscallcount.count`
under that counter's spinlock. The two updates are two atomic steps; between them the process
can be preempted and moved to another CPU, and the runs of `step` are all interleavings of all
processes. The spinlock is the zero of the kernel image, since `init_total_syscall_count` comes
after `mpmain`, which does not return; `acquire` and `release` behave on it as on an
initialised lock. The counters are `int`s and wrap as the compiled `add` does. `entries` is the
history of the numbers passed to `syscall()`, and `pending` the coefficient a process has added
to its CPU's counter and not yet to the global one. -/

namespace Xv6.Syscall

open CInt Table

variable {ncpu : Nat}

def getCoefficient (pid : Int) : Int := if pid = 15 then 3 else if pid = 16 then 2 else 1

structure Counters (ncpu : Nat) where
  syscallCount : Fin ncpu → Int
  totalSyscallcount : Int
  pending : Fin nproc → Option Int
  entries : List Int

def Counters.boot : Counters ncpu := ⟨fun _ => 0, 0, fun _ => none, []⟩

inductive Event (ncpu : Nat)
  | perCore (p : Fin nproc) (c : Fin ncpu) (num : Int)
  | global (p : Fin nproc)

def step (s : Counters ncpu) : Event ncpu → Option (Counters ncpu)
  | .perCore p c num =>
    if s.pending p = none then
      some { s with
        syscallCount := Function.update s.syscallCount c (wrap (s.syscallCount c + getCoefficient num))
        pending := Function.update s.pending p (some (getCoefficient num))
        entries := s.entries ++ [num] }
    else none
  | .global p =>
    match s.pending p with
    | some k => some { s with
        totalSyscallcount := wrap (s.totalSyscallcount + k)
        pending := Function.update s.pending p none }
    | none => none

def Reachable (s : Counters ncpu) : Prop := Relation.ReflTransGen (Run.Step step) Counters.boot s

def Quiescent (s : Counters ncpu) : Prop := ∀ p, s.pending p = none

def coeffSum (entries : List Int) : Int := (entries.map getCoefficient).sum

def pendingSum (pending : Fin nproc → Option Int) : Int := ∑ p, (pending p).getD 0

def syscallcount (s : Counters ncpu) (cpu : Int) : Int :=
  if h : 0 ≤ cpu ∧ cpu < ncpu then s.syscallCount ⟨cpu.toNat, by omega⟩ else -1

def sysGetsyscallcount (s : Counters ncpu) : Int × Int :=
  ((List.finRange ncpu).foldl (fun sum (i : Fin ncpu) =>
    if syscallcount s i.val ≥ 0 then wrap (sum + syscallcount s i.val) else sum) 0,
    s.totalSyscallcount)

structure Inv (s : Counters ncpu) : Prop where
  count_mem : ∀ c, intMin ≤ s.syscallCount c ∧ s.syscallCount c ≤ intMax
  total_mem : intMin ≤ s.totalSyscallcount ∧ s.totalSyscallcount ≤ intMax
  pending_pos : ∀ p k, s.pending p = some k → 0 < k
  count_sum : (∑ c, s.syscallCount c) % 4294967296 = coeffSum s.entries % 4294967296
  total_sum : (s.totalSyscallcount + pendingSum s.pending) % 4294967296 = coeffSum s.entries % 4294967296
  exact : coeffSum s.entries ≤ intMax →
    ∑ c, s.syscallCount c = coeffSum s.entries ∧
      s.totalSyscallcount + pendingSum s.pending = coeffSum s.entries ∧
      (∀ c, 0 ≤ s.syscallCount c) ∧ 0 ≤ s.totalSyscallcount

lemma getCoefficient_pos (num : Int) : 0 < getCoefficient num := by
  unfold getCoefficient
  split_ifs <;> omega

lemma pendingSum_nonneg_le {pending : Fin nproc → Option Int} (hpos : ∀ p k, pending p = some k → 0 < k)
    (p : Fin nproc) : 0 ≤ pendingSum pending ∧ (pending p).getD 0 ≤ pendingSum pending := by
  have hnn : ∀ q ∈ Finset.univ, 0 ≤ (pending q).getD 0 := by
    intro q _
    cases hq : pending q with
    | none => rfl
    | some k => exact (hpos q k hq).le
  exact ⟨Finset.sum_nonneg hnn, Finset.single_le_sum hnn (Finset.mem_univ p)⟩

lemma inv_boot : Inv (Counters.boot : Counters ncpu) where
  count_mem _ := by simp [Counters.boot, intMin, intMax]
  total_mem := by simp [Counters.boot, intMin, intMax]
  pending_pos _ _ h := by simp [Counters.boot] at h
  count_sum := by simp [Counters.boot, coeffSum]
  total_sum := by simp [Counters.boot, coeffSum, pendingSum]
  exact _ := by simp [Counters.boot, coeffSum, pendingSum]

lemma inv_perCore {s : Counters ncpu} (hi : Inv s) (p : Fin nproc) (c : Fin ncpu) (num : Int)
    (hp : s.pending p = none) :
    Inv { s with
      syscallCount := Function.update s.syscallCount c (wrap (s.syscallCount c + getCoefficient num))
      pending := Function.update s.pending p (some (getCoefficient num))
      entries := s.entries ++ [num] } := by
  have hk := getCoefficient_pos num
  have hS : coeffSum (s.entries ++ [num]) = coeffSum s.entries + getCoefficient num := by
    simp [coeffSum]
  have hpend : pendingSum (Function.update s.pending p (some (getCoefficient num))) =
      pendingSum s.pending + getCoefficient num := by
    simp only [pendingSum]
    have hu : (fun q => (Function.update s.pending p (some (getCoefficient num)) q).getD 0) =
        Function.update (fun q => (s.pending q).getD 0) p (getCoefficient num) := by
      funext q
      by_cases hq : q = p
      · subst hq
        simp
      · simp [hq]
    rw [hu, sum_update]
    simp [hp]
  have hsum : ∑ x, Function.update s.syscallCount c (wrap (s.syscallCount c + getCoefficient num)) x =
      ∑ x, s.syscallCount x - s.syscallCount c + wrap (s.syscallCount c + getCoefficient num) :=
    sum_update _ _ _
  have hw := wrap_emod (s.syscallCount c + getCoefficient num)
  refine ⟨fun c' => ?_, hi.total_mem, fun q k hq => ?_, ?_, ?_, fun hle => ?_⟩
  · by_cases hc : c' = c
    · subst hc
      simpa using wrap_mem _
    · simpa [hc] using hi.count_mem c'
  · by_cases hq' : q = p
    · subst hq'
      simp only [Function.update_self, Option.some.injEq] at hq
      exact hq ▸ hk
    · exact hi.pending_pos q k (by simpa [hq'] using hq)
  · dsimp only
    rw [hsum, hS]
    have := hi.count_sum
    omega
  · dsimp only
    rw [hpend, hS]
    have := hi.total_sum
    omega
  · dsimp only at hle ⊢
    rw [hS] at hle
    obtain ⟨hcs, hts, hnn, htn⟩ := hi.exact (by omega)
    have hcle : s.syscallCount c ≤ ∑ x, s.syscallCount x :=
      Finset.single_le_sum (fun x _ => hnn x) (Finset.mem_univ c)
    have hwid : wrap (s.syscallCount c + getCoefficient num) = s.syscallCount c + getCoefficient num :=
      wrap_of_range (by have := hnn c; unfold intMin; omega) (by omega)
    refine ⟨by rw [hsum, hwid, hS]; omega, by rw [hpend, hS]; omega, fun c' => ?_, htn⟩
    by_cases hc : c' = c
    · subst hc
      simp only [Function.update_self, hwid]
      have := hnn c'
      omega
    · simpa [hc] using hnn c'

lemma inv_global {s : Counters ncpu} (hi : Inv s) (p : Fin nproc) (k : Int)
    (hp : s.pending p = some k) :
    Inv { s with
      totalSyscallcount := wrap (s.totalSyscallcount + k)
      pending := Function.update s.pending p none } := by
  have hk := hi.pending_pos p k hp
  have hpend : pendingSum (Function.update s.pending p none) = pendingSum s.pending - k := by
    simp only [pendingSum]
    have hu : (fun q => (Function.update s.pending p none q).getD 0) =
        Function.update (fun q => (s.pending q).getD 0) p 0 := by
      funext q
      by_cases hq : q = p
      · subst hq
        simp
      · simp [hq]
    rw [hu, sum_update]
    simp [hp]
  have hw := wrap_emod (s.totalSyscallcount + k)
  refine ⟨hi.count_mem, wrap_mem _, fun q k' hq => ?_, hi.count_sum, ?_, fun hle => ?_⟩
  · by_cases hq' : q = p
    · subst hq'
      simp at hq
    · exact hi.pending_pos q k' (by simpa [hq'] using hq)
  · dsimp only
    rw [hpend]
    have := hi.total_sum
    omega
  · dsimp only at hle
    obtain ⟨hcs, hts, hnn, htn⟩ := hi.exact hle
    obtain ⟨-, hkle⟩ := pendingSum_nonneg_le hi.pending_pos p
    rw [hp] at hkle
    simp only [Option.getD_some] at hkle
    have hwid : wrap (s.totalSyscallcount + k) = s.totalSyscallcount + k :=
      wrap_of_range (by unfold intMin; omega) (by omega)
    dsimp only
    refine ⟨hcs, by rw [hpend, hwid]; omega, hnn, by rw [hwid]; omega⟩

lemma inv_step {s s' : Counters ncpu} (hi : Inv s) (h : Run.Step step s s') : Inv s' := by
  obtain ⟨e, he⟩ := h
  cases e with
  | perCore p c num =>
    simp only [step] at he
    split at he
    · rename_i hp
      exact Option.some.inj he ▸ inv_perCore hi p c num hp
    · exact absurd he (by simp)
  | global p =>
    simp only [step] at he
    split at he
    · rename_i k hp
      exact Option.some.inj he ▸ inv_global hi p k hp
    · exact absurd he (by simp)

theorem Reachable.inv {s : Counters ncpu} (h : Reachable s) : Inv s :=
  @Run.invariant _ _ Inv (fun _ _ hi hs => inv_step hi hs) _ _ inv_boot h

lemma foldl_count_sum {ι : Type*} (f : ι → Int) (l : List ι) (a : Int) (ha : 0 ≤ a)
    (hf : ∀ i ∈ l, 0 ≤ f i) (hb : a + (l.map f).sum ≤ intMax) :
    l.foldl (fun sum i => if f i ≥ 0 then wrap (sum + f i) else sum) a = a + (l.map f).sum := by
  induction l generalizing a with
  | nil => simp
  | cons i l ih =>
    have hi := hf i List.mem_cons_self
    have hl : 0 ≤ (l.map f).sum := List.sum_nonneg (by
      intro x hx
      obtain ⟨j, hj, rfl⟩ := List.mem_map.mp hx
      exact hf j (List.mem_cons_of_mem _ hj))
    simp only [List.map_cons, List.sum_cons] at hb
    have hwid : wrap (a + f i) = a + f i := wrap_of_range (by unfold intMin; omega) (by omega)
    rw [List.foldl_cons, if_pos hi, hwid, ih (a + f i) (by omega)
      (fun j hj => hf j (List.mem_cons_of_mem _ hj)) (by omega)]
    simp only [List.map_cons, List.sum_cons]
    ring

lemma sysGetsyscallcount_sum {s : Counters ncpu} (hnn : ∀ c, 0 ≤ s.syscallCount c)
    (hb : ∑ c, s.syscallCount c ≤ intMax) : (sysGetsyscallcount s).1 = ∑ c, s.syscallCount c := by
  have hc : ∀ c : Fin ncpu, syscallcount s c.val = s.syscallCount c := fun c => by
    simp [syscallcount, c.isLt]
  have hsum : ((List.finRange ncpu).map (fun c => syscallcount s c.val)).sum = ∑ c, s.syscallCount c := by
    rw [Fin.sum_univ_def]
    simp only [hc]
  rw [sysGetsyscallcount, foldl_count_sum (fun c : Fin ncpu => syscallcount s c.val) _ 0 le_rfl
    (fun c _ => (hc c).symm ▸ hnn c) (by rw [hsum]; simpa using hb), hsum, zero_add]

theorem counters_agree {s : Counters ncpu} (h : Reachable s) (hq : Quiescent s) :
    wrap (∑ c, s.syscallCount c) = s.totalSyscallcount ∧
      s.totalSyscallcount = wrap (coeffSum s.entries) ∧
      (coeffSum s.entries ≤ intMax →
        ∑ c, s.syscallCount c = s.totalSyscallcount ∧ s.totalSyscallcount = coeffSum s.entries ∧
          (sysGetsyscallcount s).1 = (sysGetsyscallcount s).2) := by
  have hi := h.inv
  have hp0 : pendingSum s.pending = 0 := by
    simp [pendingSum, show ∀ p, s.pending p = none from hq]
  have htot := hi.total_sum
  rw [hp0, add_zero] at htot
  have hwt : wrap (coeffSum s.entries) = s.totalSyscallcount := wrap_eq_of_emod hi.total_mem htot.symm
  refine ⟨wrap_eq_of_emod hi.total_mem (hi.count_sum.trans htot.symm), hwt.symm, fun hle => ?_⟩
  obtain ⟨hcs, hts, hnn, -⟩ := hi.exact hle
  rw [hp0, add_zero] at hts
  refine ⟨hcs.trans hts.symm, hts, ?_⟩
  rw [sysGetsyscallcount_sum hnn (hcs ▸ hle)]
  exact hcs.trans hts.symm

def unitRounds (k : Nat) : Counters 1 := ⟨fun _ => wrap k, wrap k, fun _ => none, List.replicate k 1⟩

lemma unitRounds_succ (k : Nat) :
    Relation.ReflTransGen (Run.Step step) (unitRounds k) (unitRounds (k + 1)) := by
  have h1 : step (unitRounds k) (.perCore 0 0 1) = some ⟨fun _ => wrap (k + 1), wrap k,
      Function.update (fun _ => none) 0 (some 1), List.replicate (k + 1) 1⟩ := by
    simp only [step, unitRounds, if_true]
    congr 2
    · funext c
      rw [Subsingleton.elim c 0, Function.update_self, wrap_add]
      rfl
    · rw [List.replicate_succ']
  have h2 : step ⟨fun _ => wrap (k + 1), wrap k, Function.update (fun _ => none) 0 (some 1),
      List.replicate (k + 1) 1⟩ (.global 0) = some (unitRounds (k + 1)) := by
    simp only [step, Function.update_self, unitRounds, wrap_add, Nat.cast_add, Nat.cast_one]
    congr 2
    funext p
    by_cases hp : p = 0
    · subst hp
      simp
    · simp [hp]
  exact Relation.ReflTransGen.head ⟨_, h1⟩ (Relation.ReflTransGen.single ⟨_, h2⟩)

lemma unitRounds_reachable (k : Nat) : Reachable (unitRounds k) := by
  induction k with
  | zero =>
    have h0 : unitRounds 0 = Counters.boot := rfl
    rw [h0]
    exact Relation.ReflTransGen.refl
  | succ k ih => exact ih.trans (unitRounds_succ k)

theorem counters_agree_three_calls :
    Reachable (unitRounds 3) ∧ Quiescent (unitRounds 3) ∧
      (wrap (∑ c, (unitRounds 3).syscallCount c) = (unitRounds 3).totalSyscallcount ∧
        (unitRounds 3).totalSyscallcount = wrap (coeffSum (unitRounds 3).entries) ∧
        (coeffSum (unitRounds 3).entries ≤ intMax →
          ∑ c, (unitRounds 3).syscallCount c = (unitRounds 3).totalSyscallcount ∧
            (unitRounds 3).totalSyscallcount = coeffSum (unitRounds 3).entries ∧
            (sysGetsyscallcount (unitRounds 3)).1 = (sysGetsyscallcount (unitRounds 3)).2)) :=
  ⟨unitRounds_reachable 3, fun _ => rfl, counters_agree (unitRounds_reachable 3) (fun _ => rfl)⟩

lemma coeffSum_replicate_one (n : Nat) : coeffSum (List.replicate n 1) = n := by
  simp [coeffSum, getCoefficient]

theorem total_syscallcount_wraps :
    Reachable (unitRounds 2147483648) ∧ Quiescent (unitRounds 2147483648) ∧
      (unitRounds 2147483648).totalSyscallcount ≠ coeffSum (unitRounds 2147483648).entries := by
  refine ⟨unitRounds_reachable _, fun _ => rfl, ?_⟩
  show wrap ((2147483648 : Nat) : Int) ≠ coeffSum (List.replicate 2147483648 1)
  rw [coeffSum_replicate_one]
  decide

end Xv6.Syscall
