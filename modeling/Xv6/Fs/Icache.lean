import Xv6.Fs.Bcache
import Xv6.Fs.Layout
import Xv6.Lib.Run
import Xv6.Lib.Table

/-! `fs.c`'s inode cache, the table `icache.inode`. `iget` returns the entry that has references
and holds the inode, or else the first entry with none, set to the inode; `idup` and `iput`
count references, `ilock` reads the disk inode into an entry, and the last `iput` of an inode
with no links clears `valid`. Over every run of calls no two entries with references hold the
same inode (`distinct_exec`). -/

namespace Xv6.Fs

namespace Icache

variable {n : Nat}

structure Inode where
  dev : Nat
  inum : Nat
  ref : Nat
  valid : Bool
  nlink : Int
deriving DecidableEq, Repr

def igetLoop (inode : Fin n → Inode) (dev inum : Nat) :
    List (Fin n) → Option (Fin n) → Fin n ⊕ Option (Fin n)
  | [], empty => .inr empty
  | ip :: ips, empty =>
    if 0 < (inode ip).ref ∧ (inode ip).dev = dev ∧ (inode ip).inum = inum then .inl ip
    else igetLoop inode dev inum ips (if empty = none ∧ (inode ip).ref = 0 then some ip else empty)

def iget (inode : Fin n → Inode) (dev inum : Nat) : Option ((Fin n → Inode) × Fin n) :=
  match igetLoop inode dev inum (List.finRange n) none with
  | .inl ip => some (Function.update inode ip { inode ip with ref := (inode ip).ref + 1 }, ip)
  | .inr none => none
  | .inr (some ip) =>
    some (Function.update inode ip
      { inode ip with dev := dev, inum := inum, ref := 1, valid := false }, ip)

def idup (inode : Fin n → Inode) (ip : Fin n) : Fin n → Inode :=
  Function.update inode ip { inode ip with ref := (inode ip).ref + 1 }

def ilock (inode : Fin n → Inode) (ip : Fin n) (dip : Dinode) : Option (Fin n → Inode) :=
  if (inode ip).ref < 1 then none
  else if (inode ip).valid then some inode
  else if dip.type = .free then none
  else some (Function.update inode ip { inode ip with valid := true, nlink := dip.nlink })

def iput (inode : Fin n → Inode) (ip : Fin n) : Fin n → Inode :=
  let inode :=
    if (inode ip).valid ∧ (inode ip).nlink = 0 then
      if (inode ip).ref = 1 then Function.update inode ip { inode ip with valid := false }
      else inode
    else inode
  Function.update inode ip { inode ip with ref := (inode ip).ref - 1 }

def cached (inode : Fin n → Inode) (dev inum : Nat) (ip : Fin n) : Bool :=
  0 < (inode ip).ref && (inode ip).dev == dev && (inode ip).inum == inum

lemma igetLoop_eq (inode : Fin n → Inode) (dev inum : Nat) :
    ∀ (ips : List (Fin n)) (empty : Option (Fin n)),
      igetLoop inode dev inum ips empty =
        match ips.find? (cached inode dev inum) with
        | some ip => .inl ip
        | none => .inr (empty.or (ips.find? fun ip => (inode ip).ref == 0))
  | [], empty => by simp [igetLoop]
  | ip :: ips, empty => by
    rw [igetLoop, igetLoop_eq inode dev inum ips]
    by_cases hc : 0 < (inode ip).ref ∧ (inode ip).dev = dev ∧ (inode ip).inum = inum
    · rw [if_pos hc, List.find?_cons_of_pos (by simp [cached, hc])]
    · have hc' : cached inode dev inum ip = false := by simpa [cached, and_assoc] using hc
      rw [if_neg hc, List.find?_cons_of_neg (by simp [hc'])]
      cases hf : ips.find? (cached inode dev inum) with
      | some _ => rfl
      | none =>
        cases empty with
        | some e => simp
        | none => by_cases h0 : (inode ip).ref = 0 <;> simp [h0]

lemma iget_eq (inode : Fin n → Inode) (dev inum : Nat) :
    iget inode dev inum =
      match Table.first? (cached inode dev inum) with
      | some ip => some (Function.update inode ip { inode ip with ref := (inode ip).ref + 1 }, ip)
      | none =>
        match Table.first? fun ip => (inode ip).ref == 0 with
        | some ip =>
          some (Function.update inode ip
            { inode ip with dev := dev, inum := inum, ref := 1, valid := false }, ip)
        | none => none := by
  unfold iget Table.first?
  rw [igetLoop_eq]
  cases (List.finRange n).find? (cached inode dev inum) with
  | some _ => rfl
  | none =>
    cases (List.finRange n).find? fun ip => (inode ip).ref == 0 <;> rfl

def Distinct (inode : Fin n → Inode) : Prop :=
  ∀ i j, i ≠ j → 0 < (inode i).ref → 0 < (inode j).ref →
    ((inode i).dev, (inode i).inum) ≠ ((inode j).dev, (inode j).inum)

lemma Distinct.of_keys {inode inode' : Fin n → Inode} (h : Distinct inode)
    (hdev : ∀ i, (inode' i).dev = (inode i).dev) (hinum : ∀ i, (inode' i).inum = (inode i).inum)
    (href : ∀ i, 0 < (inode' i).ref → 0 < (inode i).ref) : Distinct inode' := by
  intro i j hij hi hj
  rw [hdev, hdev, hinum, hinum]
  exact h i j hij (href i hi) (href j hj)

lemma Distinct.update {inode : Fin n → Inode} (h : Distinct inode) {ip : Fin n} {v : Inode}
    (hdev : v.dev = (inode ip).dev) (hinum : v.inum = (inode ip).inum)
    (href : 0 < v.ref → 0 < (inode ip).ref) : Distinct (Function.update inode ip v) := by
  refine h.of_keys (fun i => ?_) (fun i => ?_) (fun i => ?_) <;>
  · by_cases hi : i = ip
    · subst hi
      simpa using (by assumption)
    · simp [Function.update_of_ne hi]

lemma Distinct.recycle {inode : Fin n → Inode} (h : Distinct inode) {dev inum : Nat} {ip : Fin n}
    (hfree : ∀ j, cached inode dev inum j = false) (v : Inode) (hv : v.dev = dev ∧ v.inum = inum) :
    Distinct (Function.update inode ip v) := by
  have hnot : ∀ j, 0 < (inode j).ref → ((inode j).dev, (inode j).inum) ≠ (dev, inum) := by
    intro j hj he
    simp only [Prod.mk.injEq] at he
    have hj' := hfree j
    simp [cached, hj, he.1, he.2] at hj'
  intro i j hij hi hj
  by_cases hip : i = ip
  · subst hip
    rw [Function.update_of_ne (Ne.symm hij)] at hj ⊢
    rw [Function.update_self, hv.1, hv.2]
    exact (hnot j (by simpa [Function.update_of_ne (Ne.symm hij)] using hj)).symm
  · rw [Function.update_of_ne hip] at hi ⊢
    by_cases hjp : j = ip
    · subst hjp
      rw [Function.update_self, hv.1, hv.2]
      exact hnot i hi
    · rw [Function.update_of_ne hjp] at hj ⊢
      exact h i j hij hi hj

lemma Distinct.iget {inode inode' : Fin n → Inode} (h : Distinct inode) {dev inum : Nat}
    {ip : Fin n} (hg : iget inode dev inum = some (inode', ip)) : Distinct inode' := by
  rw [iget_eq] at hg
  split at hg
  · rename_i ip' hhit
    obtain ⟨rfl, rfl⟩ := Prod.mk.inj (Option.some.inj hg)
    have hpos : 0 < (inode ip').ref := by
      have hc := Table.first?_spec hhit
      simp only [cached, Bool.and_eq_true, decide_eq_true_eq] at hc
      exact hc.1.1
    exact h.update rfl rfl fun _ => hpos
  · rename_i hmiss
    split at hg
    · obtain ⟨rfl, rfl⟩ := Prod.mk.inj (Option.some.inj hg)
      exact h.recycle (Table.first?_eq_none.mp hmiss) _ ⟨rfl, rfl⟩
    · cases hg

inductive Call (n : Nat)
  | iget (dev inum : Nat)
  | idup (ip : Fin n)
  | ilock (ip : Fin n) (dip : Dinode)
  | iput (ip : Fin n)

def step (inode : Fin n → Inode) : Call n → Option (Fin n → Inode)
  | .iget dev inum => (iget inode dev inum).map Prod.fst
  | .idup ip => if 0 < (inode ip).ref then some (idup inode ip) else none
  | .ilock ip dip => ilock inode ip dip
  | .iput ip => if 0 < (inode ip).ref then some (iput inode ip) else none

def init : Fin n → Inode := fun _ => ⟨0, 0, 0, false, 0⟩

lemma Distinct.step {inode inode' : Fin n → Inode} (h : Distinct inode) {a : Call n}
    (hs : step inode a = some inode') : Distinct inode' := by
  cases a with
  | iget dev inum =>
    obtain ⟨⟨t, ip⟩, hg, rfl⟩ := Option.map_eq_some_iff.mp hs
    exact h.iget hg
  | idup ip =>
    simp only [Icache.step, idup, Option.ite_none_right_eq_some, Option.some.injEq] at hs
    obtain ⟨hpos, rfl⟩ := hs
    exact h.update rfl rfl fun _ => hpos
  | ilock ip dip =>
    simp only [Icache.step, Icache.ilock] at hs
    split_ifs at hs with h1 h2 h3
    · cases hs
      exact h
    · cases hs
      exact h.update rfl rfl fun hv => by simpa using hv
  | iput ip =>
    simp only [Icache.step, Option.ite_none_right_eq_some, Option.some.injEq] at hs
    obtain ⟨hpos, rfl⟩ := hs
    have h₁ : Distinct (if (inode ip).valid ∧ (inode ip).nlink = 0 then
        if (inode ip).ref = 1 then Function.update inode ip { inode ip with valid := false }
        else inode else inode) := by
      split_ifs
      · exact h.update rfl rfl fun _ => hpos
      · exact h
      · exact h
    exact h₁.update rfl rfl fun _ => by split_ifs <;> simp_all

lemma distinct_exec {calls : List (Call n)} {inode : Fin n → Inode}
    (h : Run.exec step init calls = some inode) : Distinct inode :=
  Run.exec_invariant (fun _ _ _ hs ht => hs.step ht) (fun _ _ _ h0 => by simp [init] at h0) h

end Icache

theorem caches_keep_invariants (n : Nat) (calls : List (Bio.Call n)) (s : Bio.Sys n)
    (hrun : Run.exec Bio.step (Bio.Sys.init n) calls = some s)
    (m : Nat) (icalls : List (Icache.Call m)) (inode : Fin m → Icache.Inode)
    (hirun : Run.exec Icache.step Icache.init icalls = some inode) :
    (∃ order, Bio.Chain s.cache order ∧ Links.IsRing s.cache.prev (none :: (order.map some).reverse)) ∧
    (∀ b b', s.assigned b = true → b' ≠ b →
      ((s.cache.buf b').dev, (s.cache.buf b').blockno) ≠
        ((s.cache.buf b).dev, (s.cache.buf b).blockno)) ∧
    (∀ dev blockno c b, Bio.bget s.cache dev blockno = some (c, b) →
      ((s.cache.buf b).dev = dev ∧ (s.cache.buf b).blockno = blockno) ∨
        ((∀ x, ((s.cache.buf x).dev, (s.cache.buf x).blockno) ≠ (dev, blockno)) ∧
          (s.cache.buf b).refcnt = 0 ∧ (s.cache.buf b).dirty = false ∧
          ∀ b', (s.cache.buf b').refcnt = 0 → (s.cache.buf b').dirty = false →
            s.stamp b ≤ s.stamp b')) ∧
    (∀ dev blockno, Bio.bget s.cache dev blockno = none ↔
      (∀ x, ((s.cache.buf x).dev, (s.cache.buf x).blockno) ≠ (dev, blockno)) ∧
        ∀ b, (s.cache.buf b).refcnt = 0 → (s.cache.buf b).dirty = true) ∧
    Icache.Distinct inode := by
  have hinv := Bio.inv_exec hrun
  obtain ⟨order, hch, -⟩ := hinv.chain
  exact ⟨⟨order, hch, hch.dring.prev_ring⟩, hinv.alone,
    fun _ _ _ _ hg => hinv.bget_spec hg, hinv.bget_eq_none_iff, Icache.distinct_exec hirun⟩

theorem caches_keep_invariants_recycle :
    ∃ s inode, Run.exec Bio.step (Bio.Sys.init 3)
        [.bget 1 7, .bget 1 8, .brelse 0, .bget 1 9] = some s ∧
      Run.exec Icache.step (Icache.init : Fin 2 → Icache.Inode)
        [.iget 1 1, .iget 1 2, .iput 0] = some inode ∧
      (s.cache.buf 2).blockno = 9 ∧ (Bio.bget s.cache 1 10).isSome ∧ Icache.Distinct inode := by
  refine ⟨_, _, rfl, rfl, by decide, ?_⟩
  have h := caches_keep_invariants 3 [.bget 1 7, .bget 1 8, .brelse 0, .bget 1 9] _ rfl 2
    [.iget 1 1, .iget 1 2, .iput 0] _ rfl
  refine ⟨Option.isSome_iff_ne_none.mpr fun hn => ?_, h.2.2.2.2⟩
  obtain ⟨-, hall⟩ := (h.2.2.2.1 1 10).mp hn
  exact absurd (hall 0 (by decide)) (by decide)

end Xv6.Fs
