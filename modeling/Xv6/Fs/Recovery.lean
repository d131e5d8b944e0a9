import Xv6.Lib.Bytes
import Xv6.Lib.Crash
import Xv6.Lib.CInt
import Xv6.Param
import Mathlib.Data.List.Nodup

/-! Crash recovery of the log of `log.c`. `commit` issues its block writes in four phases:
`write_log` copies each block of the transaction from the buffer cache to its slot in the log,
`write_head` writes the header that names the blocks (the commit point), `install_trans` copies
them from the log to their homes, and a last `write_head` clears the header. A crash after any
of those writes, followed by boots whose `recover_from_log` crashes in turn, ends, once a
recovery completes, with every block of the transaction as it was before it or every one as the
cache held it (`log_crash_atomic`). Recovery itself is idempotent on every disk. -/

namespace Xv6.Fs

open Crash

def setBlocks (b : Bytes.Buf) (i : Nat) : List Nat → Bytes.Buf
  | [] => b
  | x :: xs => setBlocks (Bytes.setU32 b (i + 1) x) (i + 1) xs

def encodeHeader (b : Bytes.Buf) (lh : List Nat) : Bytes.Buf :=
  setBlocks (Bytes.setU32 b 0 lh.length) 0 lh

def readHead (d : Nat → Bytes.Buf) (start : Nat) : List Nat :=
  (List.range (CInt.toInt (Bytes.getU32 (d start) 0)).toNat).map fun i =>
    Bytes.getU32 (d start) (i + 1)

def writeHead (start : Nat) (lh : List Nat) (t : Trace Bytes.Buf) : Trace Bytes.Buf :=
  t.bwrite start (encodeHeader (t.disk start) lh)

def logWrites (start : Nat) (cache : Nat → Bytes.Buf) (lh : List Nat) : List (Nat × Bytes.Buf) :=
  lh.mapIdx fun tail b => (start + tail + 1, cache b)

def writeLog (start : Nat) (cache : Nat → Bytes.Buf) (lh : List Nat) (t : Trace Bytes.Buf) :
    Trace Bytes.Buf :=
  t.bwriteAll (logWrites start cache lh)

def installTrans (start : Nat) : Nat → List Nat → Trace Bytes.Buf → Trace Bytes.Buf
  | _, [], t => t
  | tail, b :: bs, t => installTrans start (tail + 1) bs (t.bwrite b (t.disk (start + tail + 1)))

def recoverFromLog (start : Nat) (t : Trace Bytes.Buf) : Trace Bytes.Buf :=
  writeHead start [] (installTrans start 0 (readHead t.disk start) t)

def commit (start : Nat) (cache : Nat → Bytes.Buf) (lh : List Nat) (t : Trace Bytes.Buf) :
    Trace Bytes.Buf :=
  if lh.length > 0 then
    writeHead start [] (installTrans start 0 lh (writeHead start lh (writeLog start cache lh t)))
  else t

def recoverDisk (start : Nat) (d : Nat → Bytes.Buf) : Nat → Bytes.Buf :=
  (recoverFromLog start (Trace.start d)).disk

def interrupted (start : Nat) (d : Nat → Bytes.Buf) : List Nat → Nat → Bytes.Buf
  | [] => d
  | j :: js => interrupted start (after (recoverFromLog start) d j) js

section Header

lemma getU32_setBlocks_of_le (b : Bytes.Buf) {i j : Nat} (xs : List Nat) (h : j ≤ i) :
    Bytes.getU32 (setBlocks b i xs) j = Bytes.getU32 b j := by
  induction xs generalizing b i with
  | nil => rfl
  | cons x xs ih => rw [setBlocks, ih _ (by omega), Bytes.getU32_setU32_of_ne _ _ (by omega)]

lemma getU32_setBlocks (b : Bytes.Buf) (i : Nat) {xs : List Nat} (hxs : ∀ x ∈ xs, x < 2 ^ 32)
    {m : Nat} (hm : m < xs.length) : Bytes.getU32 (setBlocks b i xs) (i + 1 + m) = xs[m] := by
  induction xs generalizing b i m with
  | nil => cases hm
  | cons x xs ih =>
    cases m with
    | zero =>
      rw [setBlocks, getU32_setBlocks_of_le _ _ (by omega),
        Bytes.getU32_setU32_self _ _ (hxs x List.mem_cons_self)]
      rfl
    | succ m =>
      rw [setBlocks, show i + 1 + (m + 1) = i + 1 + 1 + m by omega,
        ih _ _ (fun y hy => hxs y (List.mem_cons_of_mem _ hy))]
      rfl

lemma readHead_congr {d₁ d₂ : Nat → Bytes.Buf} {start : Nat} (h : d₁ start = d₂ start) :
    readHead d₁ start = readHead d₂ start := by
  simp only [readHead, h]

lemma readHead_encodeHeader {d : Nat → Bytes.Buf} {start : Nat} {b : Bytes.Buf} {lh : List Nat}
    (hword : ∀ x ∈ lh, x < 2 ^ 32) (hlen : lh.length < 2 ^ 31)
    (hd : d start = encodeHeader b lh) : readHead d start = lh := by
  have hn : Bytes.getU32 (d start) 0 = lh.length := by
    rw [hd, encodeHeader, getU32_setBlocks_of_le _ _ (Nat.le_refl 0),
      Bytes.getU32_setU32_self _ _ (by omega)]
  have hcount : (CInt.toInt (Bytes.getU32 (d start) 0)).toNat = lh.length := by
    rw [hn, CInt.toInt_of_lt hlen, Int.toNat_natCast]
  apply List.ext_getElem
  · simp [readHead, hcount]
  · intro m h₁ h₂
    simp only [readHead, List.getElem_map, List.getElem_range]
    rw [hd, encodeHeader, show m + 1 = 0 + 1 + m by omega, getU32_setBlocks _ _ hword h₂]

lemma readHead_of_clean {d : Nat → Bytes.Buf} {start : Nat} (h : Bytes.getU32 (d start) 0 = 0) :
    readHead d start = [] := by
  simp only [readHead, h]
  rfl

lemma getU32_encodeHeader_nil (b : Bytes.Buf) : Bytes.getU32 (encodeHeader b []) 0 = 0 :=
  Bytes.getU32_setU32_self _ _ (by decide)

lemma encodeHeader_nil_self (b : Bytes.Buf) :
    encodeHeader (encodeHeader b []) [] = encodeHeader b [] :=
  Bytes.write_self _ _ _

end Header

section Writes

variable {start : Nat} {cache : Nat → Bytes.Buf}

def OutsideLog (start n b : Nat) : Prop := b < start ∨ start + n < b

instance (start n b : Nat) : Decidable (OutsideLog start n b) :=
  inferInstanceAs (Decidable (b < start ∨ start + n < b))

@[simp] lemma length_logWrites (lh : List Nat) : (logWrites start cache lh).length = lh.length :=
  List.length_mapIdx

lemma mem_logWrites {lh : List Nat} {w : Nat × Bytes.Buf} (h : w ∈ logWrites start cache lh) :
    start < w.1 ∧ w.1 ≤ start + lh.length := by
  obtain ⟨i, hi, rfl⟩ := List.mem_mapIdx.mp h
  exact ⟨by omega, by omega⟩

lemma put_logWrites_of_outside (d : Nat → Bytes.Buf) (lh : List Nat) {b : Nat}
    (hb : b ≤ start ∨ start + lh.length < b) : put d (logWrites start cache lh) b = d b :=
  put_of_not_mem fun w hw => by have := mem_logWrites hw; omega

lemma put_logWrites_slot (d : Nat → Bytes.Buf) (lh : List Nat) {i : Nat} (hi : i < lh.length) :
    put d (logWrites start cache lh) (start + i + 1) = cache lh[i] := by
  have hnd : ((logWrites start cache lh).map Prod.fst).Nodup := by
    have hmap : (logWrites start cache lh).map Prod.fst =
        (List.range lh.length).map fun i => start + i + 1 := by
      apply List.ext_getElem
      · simp [logWrites]
      · intro m _ _
        simp [logWrites]
    rw [hmap]
    exact List.Nodup.map (fun a b h => by simpa using h) List.nodup_range
  exact put_of_mem hnd (List.mem_mapIdx.mpr ⟨i, hi, rfl⟩)

lemma installTrans_of_log (tail : Nat) (bs : List Nat) (t : Trace Bytes.Buf)
    (hlog : ∀ i (h : i < bs.length), t.disk (start + tail + i + 1) = cache bs[i])
    (hout : ∀ b ∈ bs, b < start + tail + 1 ∨ start + tail + bs.length < b) :
    installTrans start tail bs t = t.bwriteAll (bs.map fun b => (b, cache b)) := by
  induction bs generalizing tail t with
  | nil => rfl
  | cons b bs ih =>
    have hb := hout b List.mem_cons_self
    have hlog' : ∀ i (h : i < bs.length),
        (t.bwrite b (cache b)).disk (start + (tail + 1) + i + 1) = cache bs[i] := by
      intro i hi
      have hne : start + (tail + 1) + i + 1 ≠ b := by
        simp only [List.length_cons] at hb
        omega
      rw [Trace.bwrite_disk, Function.update_of_ne hne, show start + (tail + 1) + i + 1 =
        start + tail + (i + 1) + 1 by omega, hlog (i + 1) (by simp; omega)]
      rfl
    have hout' : ∀ b' ∈ bs, b' < start + (tail + 1) + 1 ∨ start + (tail + 1) + bs.length < b' :=
      fun b' hb' => by
        have := hout b' (List.mem_cons_of_mem _ hb')
        simp only [List.length_cons] at this
        omega
    rw [installTrans, hlog 0 (by simp), show (b :: bs)[0] = b from rfl, ih _ _ hlog' hout']
    rfl

lemma mem_installs {lh : List Nat} (hout : ∀ b ∈ lh, OutsideLog start lh.length b)
    {w : Nat × Bytes.Buf} (hw : w ∈ lh.map fun b => (b, cache b)) :
    w.1 ∈ lh ∧ OutsideLog start lh.length w.1 := by
  obtain ⟨b, hb, rfl⟩ := List.mem_map.mp hw
  exact ⟨hb, hout b hb⟩

lemma installs_from_zero {lh : List Nat} (hout : ∀ b ∈ lh, OutsideLog start lh.length b) :
    ∀ b ∈ lh, b < start + 0 + 1 ∨ start + 0 + lh.length < b := fun b hb => by
  have := hout b hb
  unfold OutsideLog at this
  omega

lemma commit_eq (d : Nat → Bytes.Buf) {lh : List Nat} (hn : 0 < lh.length)
    (hout : ∀ b ∈ lh, OutsideLog start lh.length b) :
    commit start cache lh (Trace.start d) =
      ((((Trace.start d).bwriteAll (logWrites start cache lh)).bwrite start
        (encodeHeader (d start) lh)).bwriteAll (lh.map fun b => (b, cache b))).bwrite start
        (encodeHeader (encodeHeader (d start) lh) []) := by
  let t₁ := (Trace.start d).bwriteAll (logWrites start cache lh)
  let t₂ := t₁.bwrite start (encodeHeader (d start) lh)
  let t₃ := t₂.bwriteAll (lh.map fun b => (b, cache b))
  have h₂ : writeHead start lh (writeLog start cache lh (Trace.start d)) = t₂ := by
    rw [writeHead, writeLog, Trace.bwriteAll_disk, Trace.start_disk,
      put_logWrites_of_outside d lh (Or.inl (Nat.le_refl _))]
  have hlog : ∀ i (h : i < lh.length), t₂.disk (start + 0 + i + 1) = cache lh[i] := by
    intro i hi
    rw [Trace.bwrite_disk, Function.update_of_ne (by omega), Trace.bwriteAll_disk,
      Trace.start_disk, Nat.add_zero]
    exact put_logWrites_slot _ lh hi
  have hhome : ∀ w ∈ lh.map (fun b => (b, cache b)), w.1 ≠ start := fun w hw => by
    have := (mem_installs hout hw).2
    unfold OutsideLog at this
    omega
  have h₃ : t₃.disk start = encodeHeader (d start) lh := by
    rw [Trace.bwriteAll_disk, Trace.bwrite_disk, put_of_not_mem hhome, Function.update_self]
  rw [commit, if_pos hn, h₂, installTrans_of_log 0 lh t₂ hlog (installs_from_zero hout),
    writeHead, h₃]

lemma recoverFromLog_of_clean {d : Nat → Bytes.Buf} (h : Bytes.getU32 (d start) 0 = 0) :
    recoverFromLog start (Trace.start d) =
      (Trace.start d).bwrite start (encodeHeader (d start) []) := by
  rw [recoverFromLog, Trace.start_disk, readHead_of_clean h, installTrans, writeHead,
    Trace.start_disk]

lemma recoverFromLog_of_log {d : Nat → Bytes.Buf} {lh : List Nat}
    (hout : ∀ b ∈ lh, OutsideLog start lh.length b) (hhead : readHead d start = lh)
    (hlog : ∀ i (h : i < lh.length), d (start + i + 1) = cache lh[i]) :
    recoverFromLog start (Trace.start d) =
      ((Trace.start d).bwriteAll (lh.map fun b => (b, cache b))).bwrite start
        (encodeHeader (d start) []) := by
  have hhome : ∀ w ∈ lh.map (fun b => (b, cache b)), w.1 ≠ start := fun w hw => by
    have := (mem_installs hout hw).2
    unfold OutsideLog at this
    omega
  rw [recoverFromLog, Trace.start_disk, hhead,
    installTrans_of_log 0 lh _ (fun i hi => by rw [Trace.start_disk, Nat.add_zero]; exact hlog i hi)
      (installs_from_zero hout),
    writeHead, Trace.bwriteAll_disk, Trace.start_disk, put_of_not_mem hhome]

end Writes

section Atomic

variable (start : Nat) (cache : Nat → Bytes.Buf) (lh : List Nat)

structure Clean (home d : Nat → Bytes.Buf) : Prop where
  head : Bytes.getU32 (d start) 0 = 0
  home : ∀ b, OutsideLog start lh.length b → d b = home b

structure Committed (d₀ d : Nat → Bytes.Buf) : Prop where
  head : readHead d start = lh
  log : ∀ i (h : i < lh.length), d (start + i + 1) = cache lh[i]
  home : ∀ b, OutsideLog start lh.length b → b ∉ lh → d b = d₀ b

def installed (d₀ : Nat → Bytes.Buf) (b : Nat) : Bytes.Buf := if b ∈ lh then cache b else d₀ b

def Recoverable (d₀ d : Nat → Bytes.Buf) : Prop :=
  Clean start lh d₀ d ∨ Committed start cache lh d₀ d ∨ Clean start lh (installed cache lh d₀) d

variable {start cache lh}

lemma clean_of_update {home d : Nat → Bytes.Buf}
    (h : ∀ b, OutsideLog start lh.length b → d b = home b) (x : Bytes.Buf) :
    Clean start lh home (Function.update d start (encodeHeader x [])) := by
  refine ⟨by rw [Function.update_self]; exact getU32_encodeHeader_nil x, fun b hb => ?_⟩
  have hne : b ≠ start := by
    unfold OutsideLog at hb
    omega
  rw [Function.update_of_ne hne]
  exact h b hb

lemma Clean.after_recover {home d : Nat → Bytes.Buf} (h : Clean start lh home d) (j : Nat) :
    Clean start lh home (after (recoverFromLog start) d j) := by
  rw [after, recoverFromLog_of_clean h.head, Trace.bwrite_issued, Trace.start_issued,
    List.nil_append]
  cases j with
  | zero => exact h
  | succ j =>
    rw [List.take_succ_cons, List.take_nil, put_cons, put_nil]
    exact clean_of_update h.home _

lemma Clean.recover {home d : Nat → Bytes.Buf} (h : Clean start lh home d) :
    Clean start lh home (recoverDisk start d) := by
  rw [recoverDisk, recoverFromLog_of_clean h.head, Trace.bwrite_disk, Trace.start_disk]
  exact clean_of_update h.home _

section Committed

variable {d₀ d : Nat → Bytes.Buf} (hout : ∀ b ∈ lh, OutsideLog start lh.length b)
include hout

lemma Committed.recoverFromLog_eq (h : Committed start cache lh d₀ d) :
    recoverFromLog start (Trace.start d) =
      ((Trace.start d).bwriteAll (lh.map fun b => (b, cache b))).bwrite start
        (encodeHeader (d start) []) :=
  recoverFromLog_of_log hout h.head h.log

omit hout in
lemma Committed.put_installs (h : Committed start cache lh d₀ d) {b : Nat}
    (hb : OutsideLog start lh.length b) :
    put d (lh.map fun b => (b, cache b)) b = installed cache lh d₀ b := by
  rw [put_map_self, installed]
  split
  · rfl
  · exact h.home b hb ‹_›

lemma Committed.put_take (h : Committed start cache lh d₀ d) (j : Nat) :
    Committed start cache lh d₀ (put d ((lh.map fun b => (b, cache b)).take j)) := by
  have hmem : ∀ w ∈ (lh.map fun b => (b, cache b)).take j,
      w.1 ∈ lh ∧ OutsideLog start lh.length w.1 :=
    fun w hw => mem_installs hout (List.mem_of_mem_take hw)
  refine ⟨?_, fun i hi => ?_, fun b hb hnot => ?_⟩
  · rw [readHead_congr (put_of_not_mem fun w hw => ?_), h.head]
    have := (hmem w hw).2
    unfold OutsideLog at this
    omega
  · rw [put_of_not_mem fun w hw => ?_, h.log i hi]
    have := (hmem w hw).2
    unfold OutsideLog at this
    omega
  · rw [put_of_not_mem fun w hw hwb => hnot (by rw [← hwb]; exact (hmem w hw).1),
      h.home b hb hnot]

lemma Committed.after_recover (h : Committed start cache lh d₀ d) (j : Nat) :
    Recoverable start cache lh d₀ (after (recoverFromLog start) d j) := by
  rw [after, h.recoverFromLog_eq hout, Trace.bwrite_issued, Trace.bwriteAll_issued,
    Trace.start_issued, List.nil_append]
  by_cases hj : j ≤ lh.length
  · rw [List.take_append_of_le_length (by simpa using hj)]
    exact Or.inr (Or.inl (h.put_take hout j))
  · rw [List.take_of_length_le (by simp; omega), put_append, put_cons, put_nil]
    exact Or.inr (Or.inr (clean_of_update (fun b hb => h.put_installs hb) _))

lemma Committed.recover (h : Committed start cache lh d₀ d) :
    Clean start lh (installed cache lh d₀) (recoverDisk start d) := by
  rw [recoverDisk, h.recoverFromLog_eq hout, Trace.bwrite_disk, Trace.bwriteAll_disk,
    Trace.start_disk]
  exact clean_of_update (fun b hb => h.put_installs hb) _

lemma Recoverable.after_recover (h : Recoverable start cache lh d₀ d) (j : Nat) :
    Recoverable start cache lh d₀ (after (recoverFromLog start) d j) := by
  rcases h with h | h | h
  · exact Or.inl (h.after_recover j)
  · exact h.after_recover hout j
  · exact Or.inr (Or.inr (h.after_recover j))

omit hout in
lemma Recoverable.interrupted (hout : ∀ b ∈ lh, OutsideLog start lh.length b)
    (h : Recoverable start cache lh d₀ d) (js : List Nat) :
    Recoverable start cache lh d₀ (interrupted start d js) := by
  induction js generalizing d with
  | nil => exact h
  | cons j js ih => exact ih (h.after_recover hout j)

lemma Recoverable.recover (h : Recoverable start cache lh d₀ d) :
    Clean start lh d₀ (recoverDisk start d) ∨
      Clean start lh (installed cache lh d₀) (recoverDisk start d) := by
  rcases h with h | h | h
  · exact Or.inl h.recover
  · exact Or.inr (h.recover hout)
  · exact Or.inr h.recover

end Committed

lemma committed_of_writeHead {d₀ : Nat → Bytes.Buf} (hword : ∀ b ∈ lh, b < 2 ^ 32)
    (hlen : lh.length < 2 ^ 31) :
    Committed start cache lh d₀ (Function.update (put d₀ (logWrites start cache lh)) start
      (encodeHeader (d₀ start) lh)) := by
  refine ⟨readHead_encodeHeader hword hlen (Function.update_self _ _ _), fun i hi => ?_,
    fun b hb _ => ?_⟩
  · rw [Function.update_of_ne (by omega)]
    exact put_logWrites_slot d₀ lh hi
  · unfold OutsideLog at hb
    rw [Function.update_of_ne (by omega)]
    exact put_logWrites_of_outside d₀ lh (by omega)

theorem commit_after {d₀ : Nat → Bytes.Buf} (hclean : Bytes.getU32 (d₀ start) 0 = 0)
    (hout : ∀ b ∈ lh, OutsideLog start lh.length b) (hword : ∀ b ∈ lh, b < 2 ^ 32)
    (hlen : lh.length < 2 ^ 31) (k : Nat) :
    Recoverable start cache lh d₀ (after (commit start cache lh) d₀ k) := by
  rcases Nat.eq_zero_or_pos lh.length with hn | hn
  · rw [after, commit, if_neg (by omega), Trace.start_issued, List.take_nil, put_nil]
    exact Or.inl ⟨hclean, fun _ _ => rfl⟩
  have hD₁ : Committed start cache lh d₀ (Function.update (put d₀ (logWrites start cache lh))
      start (encodeHeader (d₀ start) lh)) := committed_of_writeHead hword hlen
  have hissued : (commit start cache lh (Trace.start d₀)).issued =
      logWrites start cache lh ++ (start, encodeHeader (d₀ start) lh) ::
        (recoverFromLog start (Trace.start (Function.update (put d₀ (logWrites start cache lh))
          start (encodeHeader (d₀ start) lh)))).issued := by
    rw [commit_eq d₀ hn hout, hD₁.recoverFromLog_eq hout, Function.update_self]
    simp
  rw [after, hissued]
  by_cases hk : k ≤ lh.length
  · rw [List.take_append_of_le_length (by simpa using hk)]
    have hlog : ∀ w ∈ (logWrites start cache lh).take k, start < w.1 ∧ w.1 ≤ start + lh.length :=
      fun w hw => mem_logWrites (List.mem_of_mem_take hw)
    refine Or.inl ⟨?_, fun b hb => ?_⟩
    · rw [put_of_not_mem fun w hw => by have := hlog w hw; omega]
      exact hclean
    · unfold OutsideLog at hb
      exact put_of_not_mem fun w hw => by have := hlog w hw; omega
  · obtain ⟨m, rfl⟩ : ∃ m, k = lh.length + 1 + m := ⟨k - lh.length - 1, by omega⟩
    rw [List.take_append, List.take_of_length_le (by simp; omega), length_logWrites,
      show lh.length + 1 + m - lh.length = m + 1 by omega, List.take_succ_cons, put_append,
      put_cons]
    exact hD₁.after_recover hout m

end Atomic

lemma recoverDisk_head (start : Nat) (d : Nat → Bytes.Buf) :
    recoverDisk start d start =
      encodeHeader ((installTrans start 0 (readHead d start) (Trace.start d)).disk start) [] := by
  rw [recoverDisk, recoverFromLog, writeHead, Trace.bwrite_disk, Function.update_self,
    Trace.start_disk]

theorem recoverDisk_idem (start : Nat) (d : Nat → Bytes.Buf) :
    recoverDisk start (recoverDisk start d) = recoverDisk start d := by
  have hx := recoverDisk_head start d
  have hclean : Bytes.getU32 (recoverDisk start d start) 0 = 0 := by
    rw [hx]
    exact getU32_encodeHeader_nil _
  rw [recoverDisk, recoverFromLog_of_clean hclean, Trace.bwrite_disk, Trace.start_disk, hx,
    encodeHeader_nil_self, ← hx, Function.update_eq_self]

theorem log_crash_atomic (start : Nat) (cache : Nat → Bytes.Buf) (lh : List Nat)
    (d : Nat → Bytes.Buf) (hclean : Bytes.getU32 (d start) 0 = 0)
    (hout : ∀ b ∈ lh, OutsideLog start lh.length b) (hword : ∀ b ∈ lh, b < 2 ^ 32)
    (hsize : lh.length ≤ logSize) (k : Nat) (js : List Nat) :
    ∃ r, r = recoverDisk start (interrupted start (after (commit start cache lh) d k) js) ∧
      ((∀ b ∈ lh, r b = d b) ∨ (∀ b ∈ lh, r b = cache b)) ∧
      (∀ b, b ∉ lh → OutsideLog start lh.length b → r b = d b) ∧
      Bytes.getU32 (r start) 0 = 0 ∧ recoverDisk start r = r := by
  have hlen : lh.length < 2 ^ 31 := by
    unfold logSize maxOpBlocks at hsize
    omega
  have hcrash : Recoverable start cache lh d (after (commit start cache lh) d k) :=
    commit_after hclean hout hword hlen k
  have hrec := (hcrash.interrupted hout js).recover hout
  refine ⟨_, rfl, ?_, fun b hnot hb => ?_, ?_, recoverDisk_idem start _⟩
  · rcases hrec with h | h
    · exact Or.inl fun b hb => h.home b (hout b hb)
    · exact Or.inr fun b hb => by rw [h.home b (hout b hb), installed, if_pos hb]
  · rcases hrec with h | h
    · exact h.home b hb
    · rw [h.home b hb, installed, if_neg hnot]
  · rcases hrec with h | h
    · exact h.head
    · exact h.head

example : recoverDisk 2 (after (commit 2 (fun _ _ => 1) [40, 41]) (fun _ => Bytes.zero) 2) 40 0 =
    0 := by
  decide

example : recoverDisk 2 (after (commit 2 (fun _ _ => 1) [40, 41]) (fun _ => Bytes.zero) 3) 41 0 =
    1 := by
  decide

theorem log_crash_atomic_two_blocks :
    ∃ r, r = recoverDisk 2 (interrupted 2
        (after (commit 2 (fun _ _ => 1) [40, 41]) (fun _ => Bytes.zero) 1) [1]) ∧
      ((∀ b ∈ [40, 41], r b = Bytes.zero) ∨ (∀ b ∈ [40, 41], r b = fun _ => 1)) ∧
      (∀ b, b ∉ [40, 41] → OutsideLog 2 2 b → r b = Bytes.zero) ∧
      Bytes.getU32 (r 2) 0 = 0 ∧ recoverDisk 2 r = r :=
  log_crash_atomic 2 (fun _ _ => 1) [40, 41] (fun _ => Bytes.zero) rfl (by decide) (by decide)
    (by decide) 1 [1]

end Xv6.Fs
