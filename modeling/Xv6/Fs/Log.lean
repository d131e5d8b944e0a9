import Xv6.Param
import Xv6.Fs.Layout
import Xv6.Lib.Run
import Xv6.Lib.Table
import Mathlib.Algebra.Order.BigOperators.Group.Finset

/-! The file-system log of `log.c` under concurrent system calls. The log is its header
(`lh.block[0 .. lh.n)`), `outstanding`, `committing` and the on-disk `size`; each system call is
the sequence of `begin_op`, `log_write` and `end_op` calls it makes, with the blocks it writes
taken as given (which blocks a call writes depends on the file system's contents, not on the
log). A process whose next call is a `begin_op` that the log cannot admit sleeps.

`sys_move_file` wraps its whole copy in one transaction and calls `filewrite`, `fileclose` and
`remove_moved_file` inside it, each of which opens its own. The outer operation keeps
`outstanding` at one or more, so nothing commits, `lh.n` only grows, and once it passes
`LOGSIZE - 2 * MAXOPBLOCKS` the mover's next `begin_op` can never be admitted
(`blocked_forever`). Each round of the copy appends one `BSIZE` block to the destination, for
which `writei` logs the free-map block from `balloc`, the new block twice (`bzero`, then the
data) and the inode's block from `iupdate` (`appendRound`); the log absorbs a block it already
holds, so every round past the first adds one block to `lh.n`. -/

namespace Xv6.Fs

open Relation Table

inductive LogOp
  | beginOp
  | logWrite (blockno : Nat)
  | endOp
  | commit
deriving DecidableEq, Repr

structure Log where
  block : List Nat
  outstanding : Int
  committing : Bool
  size : Nat
deriving DecidableEq, Repr

def Log.n (l : Log) : Nat := l.block.length

def beginOp (l : Log) : Option Log :=
  if l.committing then none
  else if (logSize : Int) < l.n + (l.outstanding + 1) * maxOpBlocks then none
  else some { l with outstanding := l.outstanding + 1 }

def logWrite (l : Log) (blockno : Nat) : Option Log :=
  if logSize ≤ l.n ∨ l.size - 1 ≤ l.n then none
  else if l.outstanding < 1 then none
  else if blockno ∈ l.block then some l
  else some { l with block := l.block ++ [blockno] }

def endOp (l : Log) : Option (Log × Bool) :=
  if l.committing then none
  else if l.outstanding - 1 = 0 then some ({ l with outstanding := 0, committing := true }, true)
  else some ({ l with outstanding := l.outstanding - 1 }, false)

def commitDone (l : Log) : Log := { l with block := [], committing := false }

def bracket (blocks : List Nat) : List LogOp := .beginOp :: blocks.map .logWrite ++ [.endOp]

inductive Syscall
  | bracketed (blocks : List Nat)
  | filewrite (chunks : List (List Nat))
  | moveFileRefused
  | moveFile (create : List Nat) (chunks : List (List Nat)) (closeSrc closeDst remove : List Nat)

def filewrite (chunks : List (List Nat)) : List LogOp := (chunks.map bracket).flatten

def sysMoveFile (create : List Nat) (chunks : List (List Nat)) (closeSrc closeDst remove : List Nat) :
    List LogOp :=
  .beginOp :: create.map .logWrite ++ filewrite chunks ++ bracket closeSrc ++ bracket closeDst ++
    bracket remove ++ [.endOp]

def Syscall.ops : Syscall → List LogOp
  | .bracketed blocks => bracket blocks
  | .filewrite chunks => Xv6.Fs.filewrite chunks
  | .moveFileRefused => [.beginOp, .endOp]
  | .moveFile create chunks closeSrc closeDst remove => sysMoveFile create chunks closeSrc closeDst remove

structure Sys where
  log : Log
  prog : Fin nproc → List LogOp
  held : Fin nproc → Nat

def Sys.init (size : Nat) : Sys := ⟨⟨[], 0, false, size⟩, fun _ => [], fun _ => 0⟩

def run (s : Sys) (p : Fin nproc) : Option Sys :=
  match s.prog p with
  | [] => none
  | .beginOp :: rest =>
    (beginOp s.log).map fun l =>
      ⟨l, Function.update s.prog p rest, Function.update s.held p (s.held p + 1)⟩
  | .logWrite b :: rest =>
    (logWrite s.log b).map fun l => ⟨l, Function.update s.prog p rest, s.held⟩
  | .endOp :: rest =>
    (endOp s.log).map fun r =>
      ⟨r.1, Function.update s.prog p (if r.2 then .commit :: rest else rest),
        Function.update s.held p (s.held p - 1)⟩
  | .commit :: rest => some ⟨commitDone s.log, Function.update s.prog p rest, s.held⟩

inductive Event
  | start (p : Fin nproc) (c : Syscall)
  | run (p : Fin nproc)

def step (s : Sys) : Event → Option Sys
  | .start p c => if s.prog p = [] then some { s with prog := Function.update s.prog p c.ops } else none
  | .run p => run s p

def Blocked (s : Sys) (p : Fin nproc) : Prop :=
  (s.prog p).head? = some .beginOp ∧ beginOp s.log = none

def balanced : Nat → List LogOp → Bool
  | h, [] => h == 0
  | h, .beginOp :: r => balanced (h + 1) r
  | h, .logWrite _ :: r => balanced h r
  | h, .endOp :: r => 0 < h && balanced (h - 1) r
  | h, .commit :: r => balanced h r

structure Inv (s : Sys) : Prop where
  outstanding_eq : s.log.outstanding = ∑ q, (s.held q : Int)
  balanced_prog : ∀ q, balanced (s.held q) (s.prog q) = true

lemma sum_held_update (held : Fin nproc → Nat) (p : Fin nproc) (v : Nat) :
    ∑ q, (Function.update held p v q : Int) = ∑ q, (held q : Int) - held p + v := by
  have h : (fun q => (Function.update held p v q : Int)) =
      Function.update (fun q => (held q : Int)) p (v : Int) := by
    funext q
    by_cases hq : q = p
    · subst hq
      simp
    · simp [hq]
  rw [h, sum_update]

lemma balanced_map_logWrite (h : Nat) (bs : List Nat) (r : List LogOp) :
    balanced h (bs.map .logWrite ++ r) = balanced h r := by
  induction bs with
  | nil => rfl
  | cons b bs ih => simpa [balanced] using ih

lemma balanced_bracket (h : Nat) (bs : List Nat) (r : List LogOp) :
    balanced h (bracket bs ++ r) = balanced h r := by
  simp only [bracket, List.cons_append, List.append_assoc, balanced, balanced_map_logWrite]
  simp

lemma balanced_filewrite (h : Nat) (chunks : List (List Nat)) (r : List LogOp) :
    balanced h (filewrite chunks ++ r) = balanced h r := by
  induction chunks with
  | nil => rfl
  | cons c cs ih =>
    simp only [filewrite, List.map_cons, List.flatten_cons, List.append_assoc] at ih ⊢
    rw [balanced_bracket, ih]

lemma Syscall.balanced_ops (c : Syscall) : balanced 0 c.ops = true := by
  cases c with
  | bracketed bs => simpa [Syscall.ops, balanced] using balanced_bracket 0 bs []
  | filewrite chunks => simpa [Syscall.ops, balanced] using balanced_filewrite 0 chunks []
  | moveFileRefused => rfl
  | moveFile create chunks closeSrc closeDst remove =>
    simp only [Syscall.ops, sysMoveFile, List.cons_append, List.append_assoc, balanced,
      balanced_map_logWrite, balanced_filewrite, balanced_bracket]
    rfl

lemma inv_init (size : Nat) : Inv (Sys.init size) :=
  ⟨by simp [Sys.init], fun _ => rfl⟩

lemma beginOp_eq_some {l l' : Log} (h : beginOp l = some l') :
    l' = { l with outstanding := l.outstanding + 1 } := by
  unfold beginOp at h
  split_ifs at h
  cases h
  rfl

lemma logWrite_eq_some {l l' : Log} {b : Nat} (h : logWrite l b = some l') :
    l'.outstanding = l.outstanding ∧ l'.committing = l.committing ∧ l.n ≤ l'.n := by
  unfold logWrite at h
  split_ifs at h <;> cases h
  · exact ⟨rfl, rfl, le_rfl⟩
  · simp [Log.n]

lemma endOp_eq_some {l : Log} {r : Log × Bool} (h : endOp l = some r) :
    r.1.outstanding = l.outstanding - 1 := by
  unfold endOp at h
  split_ifs at h <;> cases h
  · simp only
    omega
  · rfl

lemma endOp_of_ne {l : Log} (hc : l.committing = false) (h1 : l.outstanding - 1 ≠ 0) :
    endOp l = some ({ l with outstanding := l.outstanding - 1 }, false) := by
  simp only [endOp, hc, Bool.false_eq_true, if_false, if_neg h1]

lemma Inv.balanced_update {s : Sys} (hs : Inv s) {p : Fin nproc} {held : Fin nproc → Nat}
    {rest : List LogOp} (hheld : ∀ q, q ≠ p → held q = s.held q) (hp : balanced (held p) rest = true) :
    ∀ q, balanced (held q) (Function.update s.prog p rest q) = true := by
  intro q
  by_cases hq : q = p
  · subst hq
    simpa using hp
  · rw [Function.update_of_ne hq, hheld q hq]
    exact hs.balanced_prog q

lemma inv_run {s t : Sys} {p : Fin nproc} (hs : Inv s) (h : run s p = some t) : Inv t := by
  have hb := hs.balanced_prog p
  have hupd : ∀ q, q ≠ p → ∀ v, Function.update s.held p v q = s.held q :=
    fun q hq _ => Function.update_of_ne hq _ _
  simp only [run] at h
  split at h
  · cases h
  · rename_i rest hp
    obtain ⟨l, hl, rfl⟩ := Option.map_eq_some_iff.mp h
    rw [beginOp_eq_some hl]
    rw [hp] at hb
    refine ⟨?_, hs.balanced_update (fun q hq => hupd q hq _) (by simpa [balanced] using hb)⟩
    rw [sum_held_update, ← hs.outstanding_eq]
    push_cast
    ring
  · rename_i b rest hp
    obtain ⟨l, hl, rfl⟩ := Option.map_eq_some_iff.mp h
    rw [hp] at hb
    exact ⟨(logWrite_eq_some hl).1.trans hs.outstanding_eq,
      hs.balanced_update (fun _ _ => rfl) (by simpa [balanced] using hb)⟩
  · rename_i rest hp
    obtain ⟨r, hr, rfl⟩ := Option.map_eq_some_iff.mp h
    rw [hp] at hb
    simp only [balanced, Bool.and_eq_true, decide_eq_true_eq] at hb
    refine ⟨?_, hs.balanced_update (fun q hq => hupd q hq _) ?_⟩
    · rw [endOp_eq_some hr, sum_held_update, ← hs.outstanding_eq]
      push_cast [Nat.one_le_iff_ne_zero.mpr (Nat.pos_iff_ne_zero.mp hb.1)]
      ring
    · split <;> simpa [balanced] using hb.2
  · rename_i rest hp
    cases h
    rw [hp] at hb
    exact ⟨hs.outstanding_eq, hs.balanced_update (fun _ _ => rfl) (by simpa [balanced] using hb)⟩

lemma inv_step {s t : Sys} {e : Event} (hs : Inv s) (h : step s e = some t) : Inv t := by
  cases e with
  | start p c =>
    simp only [step] at h
    split at h
    · rename_i hp
      cases h
      have h0 : s.held p = 0 := by
        have := hs.balanced_prog p
        rw [hp] at this
        simpa [balanced] using this
      exact ⟨hs.outstanding_eq, hs.balanced_update (fun _ _ => rfl) (h0 ▸ c.balanced_ops)⟩
    · cases h
  | run p => exact inv_run hs h

theorem reachable_inv {size : Nat} {s : Sys} (h : ReflTransGen (Run.Step step) (Sys.init size) s) :
    Inv s := by
  refine Run.invariant (fun a b ha hab => ?_) (inv_init size) h
  obtain ⟨e, he⟩ := hab
  exact inv_step ha he

lemma commit_not_mem_bracket (bs : List Nat) : LogOp.commit ∉ bracket bs := by
  simp [bracket]

lemma commit_not_mem_filewrite (chunks : List (List Nat)) : LogOp.commit ∉ filewrite chunks := by
  simp only [filewrite, List.mem_flatten, List.mem_map, not_exists, not_and]
  rintro l ⟨c, -, rfl⟩
  exact commit_not_mem_bracket c

lemma Syscall.commit_not_mem_ops (c : Syscall) : LogOp.commit ∉ c.ops := by
  cases c with
  | bracketed bs => exact commit_not_mem_bracket bs
  | filewrite chunks => exact commit_not_mem_filewrite chunks
  | moveFileRefused => simp [Syscall.ops]
  | moveFile create chunks closeSrc closeDst remove =>
    simp [Syscall.ops, sysMoveFile, commit_not_mem_filewrite, commit_not_mem_bracket]

lemma held_le_outstanding {s : Sys} (hs : Inv s) (p : Fin nproc) : (s.held p : Int) ≤ s.log.outstanding := by
  rw [hs.outstanding_eq]
  exact Finset.single_le_sum (fun q _ => Int.natCast_nonneg (s.held q)) (Finset.mem_univ p)

lemma held_add_le_outstanding {s : Sys} (hs : Inv s) {p q : Fin nproc} (hpq : p ≠ q) :
    (s.held p : Int) + s.held q ≤ s.log.outstanding := by
  rw [hs.outstanding_eq, ← (Finset.sum_pair hpq : ∑ i ∈ {p, q}, (s.held i : Int) = _)]
  exact Finset.sum_le_sum_of_subset_of_nonneg (Finset.subset_univ _)
    (fun i _ _ => Int.natCast_nonneg (s.held i))

structure Frozen (s₀ : Sys) (p : Fin nproc) (t : Sys) : Prop where
  inv : Inv t
  prog_eq : t.prog p = s₀.prog p
  held_eq : t.held p = s₀.held p
  not_committing : t.log.committing = false
  n_le : s₀.log.n ≤ t.log.n
  no_commit : ∀ q, LogOp.commit ∉ t.prog q

section Frozen

variable {s₀ t t' : Sys} {p : Fin nproc}

lemma Frozen.beginOp_none (hf : Frozen s₀ p t) (hheld : 1 ≤ s₀.held p)
    (hfull : (logSize : Int) < s₀.log.n + 2 * maxOpBlocks) : beginOp t.log = none := by
  have hout := held_le_outstanding hf.inv p
  rw [hf.held_eq] at hout
  have hn : (s₀.log.n : Int) ≤ t.log.n := by exact_mod_cast hf.n_le
  simp only [beginOp, hf.not_committing, Bool.false_eq_true, if_false]
  rw [if_pos]
  simp only [maxOpBlocks] at hfull ⊢
  omega

lemma Frozen.no_commit_tail (hf : Frozen s₀ p t) {q : Fin nproc} {o : LogOp} {rest : List LogOp}
    (hq : t.prog q = o :: rest) : LogOp.commit ∉ rest :=
  fun h => hf.no_commit q (hq ▸ List.mem_cons_of_mem o h)

lemma Frozen.of_update (hf : Frozen s₀ p t) (hinv : Inv t') {q : Fin nproc} (hqp : q ≠ p)
    {rest : List LogOp} (hprog : t'.prog = Function.update t.prog q rest)
    (hrest : LogOp.commit ∉ rest) (hheld : t'.held p = t.held p)
    (hc : t'.log.committing = false) (hn : t.log.n ≤ t'.log.n) : Frozen s₀ p t' := by
  refine ⟨hinv, ?_, hheld.trans hf.held_eq, hc, hf.n_le.trans hn, fun r => ?_⟩
  · rw [hprog, Function.update_of_ne hqp.symm, hf.prog_eq]
  · rw [hprog]
    by_cases hr : r = q
    · rw [hr, Function.update_self]
      exact hrest
    · rw [Function.update_of_ne hr]
      exact hf.no_commit r

lemma Frozen.of_step (hf : Frozen s₀ p t) (hheld : 1 ≤ s₀.held p)
    (hfull : (logSize : Int) < s₀.log.n + 2 * maxOpBlocks)
    (hhead : (s₀.prog p).head? = some .beginOp) {e : Event} (h : step t e = some t') :
    Frozen s₀ p t' := by
  have hinv' := inv_step hf.inv h
  cases e with
  | start q c =>
    simp only [step] at h
    split at h
    · rename_i hq
      cases h
      have hqp : q ≠ p := by
        rintro rfl
        rw [← hf.prog_eq, hq] at hhead
        cases hhead
      exact hf.of_update hinv' hqp rfl c.commit_not_mem_ops rfl hf.not_committing le_rfl
    · cases h
  | run q =>
    simp only [step] at h
    have hqp : q ≠ p := by
      rintro rfl
      obtain ⟨rest, hrest⟩ : ∃ rest, t.prog q = .beginOp :: rest := by
        rw [hf.prog_eq]
        cases hp : s₀.prog q with
        | nil => rw [hp] at hhead; cases hhead
        | cons o rest =>
          rw [hp] at hhead
          cases hhead
          exact ⟨rest, rfl⟩
      simp only [run, hrest, hf.beginOp_none hheld hfull, Option.map_none] at h
      cases h
    simp only [run] at h
    split at h
    · cases h
    · rename_i rest hq
      obtain ⟨l, hl, rfl⟩ := Option.map_eq_some_iff.mp h
      obtain rfl := beginOp_eq_some hl
      exact hf.of_update hinv' hqp rfl (hf.no_commit_tail hq) (Function.update_of_ne hqp.symm _ _)
        hf.not_committing le_rfl
    · rename_i b rest hq
      obtain ⟨l, hl, rfl⟩ := Option.map_eq_some_iff.mp h
      have hlog := logWrite_eq_some hl
      exact hf.of_update hinv' hqp rfl (hf.no_commit_tail hq) rfl
        (hlog.2.1.trans hf.not_committing) hlog.2.2
    · rename_i rest hq
      have hbq := hf.inv.balanced_prog q
      rw [hq] at hbq
      simp only [balanced, Bool.and_eq_true, decide_eq_true_eq] at hbq
      have hsum := held_add_le_outstanding hf.inv hqp
      rw [hf.held_eq] at hsum
      rw [endOp_of_ne hf.not_committing (by omega), Option.map_some, Option.some.injEq] at h
      subst h
      exact hf.of_update hinv' hqp rfl (hf.no_commit_tail hq) (Function.update_of_ne hqp.symm _ _)
        hf.not_committing le_rfl
    · rename_i rest hq
      exact absurd (hq ▸ List.mem_cons_self) (hf.no_commit q)

end Frozen

theorem blocked_forever {s t : Sys} {p : Fin nproc} (hs : Inv s)
    (hhead : (s.prog p).head? = some .beginOp) (hheld : 1 ≤ s.held p)
    (hcommitting : s.log.committing = false) (hnc : ∀ q, LogOp.commit ∉ s.prog q)
    (hfull : (logSize : Int) < s.log.n + 2 * maxOpBlocks)
    (h : ReflTransGen (Run.Step step) s t) : Blocked t p ∧ t.prog p = s.prog p := by
  have hf : Frozen s p t := by
    refine Run.invariant (fun a b ha hab => ?_) ⟨hs, rfl, rfl, hcommitting, le_rfl, hnc⟩ h
    obtain ⟨e, he⟩ := hab
    exact ha.of_step hheld hfull hhead he
  exact ⟨⟨hf.prog_eq ▸ hhead, hf.beginOp_none hheld hfull⟩, hf.prog_eq⟩

def appendRound (bitmap inodeBlock b : Nat) : List Nat := [bitmap, b, b, inodeBlock]

def moveChunks (bitmap inodeBlock fresh size : Nat) : List (List Nat) :=
  (List.range ((size + bsize - 1) / bsize)).map fun k => appendRound bitmap inodeBlock (fresh + k)

def bigMove : Syscall :=
  .moveFile [35, 35, 600, 35] (moveChunks 58 35 700 8192) [] [] [59, 33, 35]

theorem move_file_blocks_forever :
    ∃ s, Run.exec step (Sys.init logSize) (.start 0 bigMove :: List.replicate 53 (.run 0)) = some s ∧
      s.held 0 = 1 ∧ s.log.n = 11 ∧ Blocked s 0 ∧
      ∀ t, ReflTransGen (Run.Step step) s t → Blocked t 0 ∧ t.prog 0 = s.prog 0 := by
  have hr : Run.exec step (Sys.init logSize) (.start 0 bigMove :: List.replicate 53 (.run 0)) =
      some _ := rfl
  refine ⟨_, hr, by decide, by decide, ⟨by decide, by decide⟩, fun t ht => ?_⟩
  exact blocked_forever (reachable_inv (Run.exec_reach hr)) (by decide) (by decide) (by decide)
    (by decide +kernel) (by decide) ht

end Xv6.Fs
