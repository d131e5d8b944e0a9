import Xv6.Exec.Load
import Xv6.Vm.Kvm
import Xv6.Vm.Copy

/-! What a run of `exec` does to the machine.

`exec` builds the new image in a directory of its own before it touches the process: the
directory from `setupkvm`, the segments, the stack, the arguments and the frame under them.
Until the commit every step keeps the free list and the pages the new directory owns, between
them, a permutation of the free list `exec` started from, and `goto bad` gives all of them back
through `freevm`.

The argument strings are pushed below `sp` with `uint` arithmetic, and nothing checks that
they fit in the stack page: an argument longer than the image wraps `sp` round to the top of
the address space. Between `P2V(PHYSTOP)` and `DEVSPACE` no directory slot is present, and
there `uva2ka` reads through the null pointer that `walkpgdir` returns. -/

namespace Xv6.Exec

open Vm

structure Building (k0 : Kmem) (dir sz : Nat) (s : Space) : Prop where
  pool : (s.kmem.freelist ++ s.pd.owned dir).Perm k0.freelist
  high : ∀ i, pagesBelow sz ≤ i → i < userTop → present (s.pd.entry i) = false
  bound : sz ≤ kernBase

section Building

variable {kend : Nat} {k0 : Kmem} {dir : Nat}

lemma owned_perm_of_pool {s s' : Space} (hp : s'.pool.Perm s.pool)
    (h : (s.kmem.freelist ++ s.pd.owned dir).Perm k0.freelist) :
    (s'.kmem.freelist ++ s'.pd.owned dir).Perm k0.freelist := by
  rw [Space.pool_owned] at h ⊢
  exact (hp.append_right _).trans h

lemma kfreeable_of_owned {s : Space} (hF0 : ∀ v ∈ k0.freelist, Kfreeable kend v)
    (h : (s.kmem.freelist ++ s.pd.owned dir).Perm k0.freelist) : ∀ v ∈ s.pool, Kfreeable kend v :=
  fun v hv => hF0 v (h.subset (by rw [Space.pool_owned]; exact List.mem_append_left _ hv))

lemma Building.of_frame {s s' : Space} {sz : Nat} (hb : Building k0 dir sz s)
    (hk : s'.kmem = s.kmem) (hpd : s'.pd = s.pd) : Building k0 dir sz s' :=
  ⟨by rw [hk, hpd]; exact hb.pool, fun i h₁ h₂ => by rw [hpd]; exact hb.high i h₁ h₂, hb.bound⟩

lemma Building.allocuvm (hk : kernBase < kend) (hF0 : ∀ v ∈ k0.freelist, Kfreeable kend v)
    {s s' : Space} {sz newsz r : Nat} (hb : Building k0 dir sz s)
    (h : allocuvm kend s sz newsz = some (s', r)) :
    (s'.kmem.freelist ++ s'.pd.owned dir).Perm k0.freelist ∧ (r ≠ 0 → Building k0 dir r s') := by
  by_cases hkern : kernBase ≤ newsz
  · rw [allocuvm_of_kernBase_le hkern] at h
    obtain ⟨rfl, rfl⟩ := Prod.mk.inj (Option.some.inj h)
    exact ⟨hb.pool, fun h0 => absurd rfl h0⟩
  by_cases hlt : newsz < sz
  · rw [allocuvm_of_lt (not_le.mp hkern) hlt] at h
    obtain ⟨rfl, rfl⟩ := Prod.mk.inj (Option.some.inj h)
    exact ⟨hb.pool, fun _ => hb⟩
  obtain ⟨s'', r'', heq, hres, -⟩ := allocuvm_spec hk (not_lt.mp hlt) (not_le.mp hkern) hb.high
    (kfreeable_of_owned hF0 hb.pool)
  rw [heq] at h
  obtain ⟨rfl, rfl⟩ := Prod.mk.inj (Option.some.inj h)
  rcases hres with ⟨rfl, hg⟩ | ⟨rfl, hg⟩
  · exact ⟨owned_perm_of_pool hg.pool hb.pool, fun _ =>
      ⟨owned_perm_of_pool hg.pool hb.pool, hg.high, (not_le.mp hkern).le⟩⟩
  · exact ⟨owned_perm_of_pool hg.pool hb.pool, fun h0 => absurd rfl h0⟩

lemma Building.roundup {s : Space} {sz : Nat} (hb : Building k0 dir sz s) :
    Building k0 dir (pgroundup sz) s := by
  have hsz := hb.bound
  simp only [kernBase] at hsz
  have hround : pgroundup sz = pagesBelow sz * pgSize := pgroundup_eq (by simp only [pgSize]; omega)
  have hpages : pagesBelow (pgroundup sz) = pagesBelow sz := by
    rw [hround]
    simp only [pagesBelow, pgSize]
    omega
  refine ⟨hb.pool, fun i h₁ h₂ => hb.high i (hpages ▸ h₁) h₂, ?_⟩
  rw [hround]
  simp only [pagesBelow, pgSize, kernBase]
  omega

lemma Building.clearpteu {s s' : Space} {sz uva : Nat} (hb : Building k0 dir sz s)
    (huva : uva < 2 ^ 32) (h : clearpteu s uva = some s') : Building k0 dir sz s' := by
  obtain ⟨hpde, rfl⟩ := clearpteu_eq_some h
  refine ⟨?_, fun i h₁ h₂ => ?_, hb.bound⟩
  · simpa only [Pgdir.owned, userPages_clearUser huva hpde, Pgdir.tablePages_setPte] using hb.pool
  · rw [present_entry_clearUser]
    exact hb.high i h₁ h₂

lemma loadSegments_building (hk : kernBase < kend) (hF0 : ∀ v ∈ k0.freelist, Kfreeable kend v)
    {content : List UInt8} :
    ∀ (n off sz : Nat) (s : Space) (res : Except Space (Space × Nat)), Building k0 dir sz s →
      loadSegments kend content s n off sz = some res →
      (∀ s', res = .error s' → (s'.kmem.freelist ++ s'.pd.owned dir).Perm k0.freelist) ∧
        ∀ s' sz', res = .ok (s', sz') → Building k0 dir sz' s'
  | 0, _, sz, s, res, hb, h => by
    obtain rfl := (Option.some.inj h).symm
    exact ⟨fun _ he => (nomatch he), fun s' sz' he => by cases he; exact hb⟩
  | n + 1, off, sz, s, res, hb, h => by
    have hbad : ∀ {t : Space}, (t.kmem.freelist ++ t.pd.owned dir).Perm k0.freelist →
        some (Except.error t) = some res →
        (∀ s', res = .error s' → (s'.kmem.freelist ++ s'.pd.owned dir).Perm k0.freelist) ∧
          ∀ s' sz', res = .ok (s', sz') → Building k0 dir sz' s' := fun hpool he => by
      obtain rfl := Option.some.inj he
      exact ⟨fun s' he' => by cases he'; exact hpool, fun _ _ he' => (nomatch he')⟩
    unfold loadSegments at h
    dsimp only at h
    generalize Proghdr.ofBytes (readi content off 32).2 = ph at h
    generalize (readi content off 32).1 = r at h
    by_cases h32 : r ≠ 32
    · rw [if_pos h32] at h
      exact hbad hb.pool h
    rw [if_neg h32] at h
    by_cases hload : ph.type ≠ elfProgLoad
    · rw [if_pos hload] at h
      exact loadSegments_building hk hF0 n _ sz s res hb h
    rw [if_neg hload] at h
    by_cases hfile : ph.memsz < ph.filesz
    · rw [if_pos hfile] at h
      exact hbad hb.pool h
    rw [if_neg hfile] at h
    by_cases hwrap : 2 ^ 32 ≤ ph.vaddr + ph.memsz
    · rw [if_pos hwrap] at h
      exact hbad hb.pool h
    rw [if_neg hwrap] at h
    rcases halloc : allocuvm kend s sz (ph.vaddr + ph.memsz) with _ | ⟨s₁, sz₁⟩
    · rw [halloc] at h
      cases h
    rw [halloc] at h
    dsimp only at h
    obtain ⟨hpool₁, hb₁⟩ := hb.allocuvm hk hF0 halloc
    by_cases hz : sz₁ = 0
    · rw [if_pos hz] at h
      exact hbad hpool₁ h
    rw [if_neg hz] at h
    by_cases halign : ph.vaddr % pgSize ≠ 0
    · rw [if_pos halign] at h
      exact hbad hpool₁ h
    rw [if_neg halign] at h
    rcases hfill : loaduvm s₁ ph.vaddr content ph.off ph.filesz with _ | ⟨s₂, r₂⟩
    · rw [hfill] at h
      cases h
    rw [hfill] at h
    dsimp only at h
    obtain ⟨hk₂, hpd₂⟩ := loaduvm_frame hfill
    have hb₂ := (hb₁ hz).of_frame hk₂ hpd₂
    by_cases hr : r₂ < 0
    · rw [if_pos hr] at h
      exact hbad hb₂.pool h
    rw [if_neg hr] at h
    exact loadSegments_building hk hF0 n _ sz₁ s₂ res hb₂ h

lemma bad_frees (hk : kernBase < kend) (hF0 : ∀ v ∈ k0.freelist, Kfreeable kend v) {s : Space}
    (hpool : (s.kmem.freelist ++ s.pd.owned dir).Perm k0.freelist) {m m' : Machine}
    {t : Process.Ptable} {r : Int}
    (h : (freevm kend s.kmem dir s.pd).map (fun k =>
      (({ m with shm := { m.shm with kmem := k }, mem := s.mem, table := t } : Machine),
        (-1 : Int))) = some (m', r)) :
    m'.image = m.image ∧ m'.table = t ∧ m'.shm.proc = m.shm.proc ∧
      m'.shm.shaaredMem = m.shm.shaaredMem ∧ m'.shm.kmem.freelist.Perm k0.freelist := by
  rw [freevm_eq hk fun v hv => hF0 v (hpool.subset (List.mem_append_right _ hv)), Option.map_some] at h
  obtain ⟨rfl, -⟩ := Prod.mk.inj (Option.some.inj h)
  exact ⟨rfl, rfl, rfl, rfl,
    ((List.reverse_perm _).append_right _).trans (List.perm_append_comm.trans hpool)⟩

end Building

lemma pushArgs_absent {s : Space} {sp : Nat} {a : List UInt8} {rest : List (List UInt8)}
    {us : List Nat}
    (h : present (s.pd.pde (pdx (pgrounddown (CInt.toUint ((sp : Int) - (a.length + 1)) &&& 0xFFFFFFFC)))) =
      false) :
    pushArgs s 0 sp (a :: rest) us = none := by
  rw [pushArgs, if_neg (by decide)]
  dsimp only
  rw [copyout_absent (by simp) h]

lemma pushArgs_frame : ∀ {args : List (List UInt8)} {s : Space} {argc sp : Nat} {us : List Nat}
    {res : Except Space (Space × Nat × List Nat)}, pushArgs s argc sp args us = some res →
      ∃ s', (res = .error s' ∨ ∃ sp' us', res = .ok (s', sp', us')) ∧ s'.kmem = s.kmem ∧ s'.pd = s.pd
  | [], s, _, sp, us, _, h => ⟨s, .inr ⟨sp, us, (Option.some.inj h).symm⟩, rfl, rfl⟩
  | a :: rest, s, argc, sp, us, res, h => by
    unfold pushArgs at h
    by_cases hmax : maxarg ≤ argc
    · rw [if_pos hmax] at h
      exact ⟨s, .inl (Option.some.inj h).symm, rfl, rfl⟩
    rw [if_neg hmax] at h
    dsimp only at h
    rcases hc : copyout s (CInt.toUint ((sp : Int) - (a.length + 1)) &&& 0xFFFFFFFC) (a ++ [0])
      with _ | ⟨s₁, r⟩
    · rw [hc] at h
      cases h
    rw [hc] at h
    dsimp only at h
    obtain ⟨hk₁, hpd₁⟩ := copyout_frame hc
    by_cases hr : r < 0
    · rw [if_pos hr] at h
      exact ⟨s₁, .inl (Option.some.inj h).symm, hk₁, hpd₁⟩
    rw [if_neg hr] at h
    obtain ⟨s', hres, hk, hpd⟩ := pushArgs_frame h
    exact ⟨s', hres, hk.trans hk₁, hpd.trans hpd₁⟩

lemma pdx_long_argument {len : Nat} (hlen : 2 ^ 25 + 2 ^ 13 ≤ len) (hlen' : len < 2 ^ 30) :
    0x300 ≤ pdx (pgrounddown (CInt.toUint (((8192 : Nat) : Int) - (len + 1)) &&& 0xFFFFFFFC)) ∧
      pdx (pgrounddown (CInt.toUint (((8192 : Nat) : Int) - (len + 1)) &&& 0xFFFFFFFC)) < 0x3F8 := by
  have hwrap : CInt.toUint (((8192 : Nat) : Int) - (len + 1)) = 2 ^ 32 + 8191 - len := by
    unfold CInt.toUint
    omega
  have hsp : (2 ^ 32 + 8191 - len) / 4 * 4 < 2 ^ 32 := by omega
  rw [hwrap, and_not_three (by omega), pgrounddown_eq hsp,
    pdx_eq (lt_of_le_of_lt (Nat.div_mul_le_self _ _) hsp)]
  simp only [pgSize]
  omega

def elfNoSegments : List UInt8 := [0x7F, 0x45, 0x4C, 0x46] ++ List.replicate 48 0

theorem exec_long_argument_null_pte {kend data : Nat} (hk : kernBase < kend)
    (hdata : data % pgSize = 0) (hlink : kernlink < data) (htop : data < kernBase + phystop)
    {m : Machine} (hF : ∀ v ∈ m.shm.kmem.freelist, Kfreeable kend v)
    (hfree : 72 ≤ m.shm.kmem.freelist.length) (p : Fin nproc) (path : List UInt8) {a : List UInt8}
    (ha : 2 ^ 25 + 2 ^ 13 ≤ a.length) (ha' : a.length < 2 ^ 30) (ticks : Int) :
    exec kend data m p path [a] (some elfNoSegments) ticks = none := by
  obtain ⟨k, r, hkvm, hdir, -, hsome⟩ := setupkvm_spec hdata hlink htop hk hF
  obtain ⟨⟨dir, pd⟩, rfl⟩ := Option.isSome_iff_exists.mp (hsome (by omega))
  obtain ⟨hpool, hlen, hentry, hslots⟩ := hdir dir pd rfl
  have hF' : ∀ v ∈ (⟨k, m.mem, pd⟩ : Space).pool, Kfreeable kend v := fun v hv =>
    hF v (hpool.subset (by rw [Space.pool_owned ⟨k, m.mem, pd⟩ dir]; exact List.mem_append_left _ hv))
  have habove : ∀ i, pagesBelow 0 ≤ i → i < userTop → present (pd.entry i) = false := by
    intro i _ hi
    rw [hentry i (by simp only [userTop, kernBase, pgSize] at hi; omega), kvmEntry_user data hi,
      present_zero]
  obtain ⟨s, r, halloc, hres, hfull⟩ :=
    @allocuvm_spec kend 0 8192 hk ⟨k, m.mem, pd⟩ (Nat.zero_le _) (by decide) habove hF'
  have hk4 : 2 * (pagesBelow 8192 - pagesBelow 0) ≤ k.freelist.length := by
    simp only [pagesBelow, pgSize]
    omega
  obtain rfl : r = 8192 := hfull hk4
  have hg : Grown ⟨k, m.mem, pd⟩ s 0 2 := by
    rcases hres with ⟨-, hg⟩ | ⟨h0, -⟩
    · exact hg
    · exact absurd h0 (by decide)
  have hpde0 : present (s.pd.pde (pdx 0)) = true := by
    have h0 := (hg.mid 0 le_rfl (by decide)).1
    have he : present (s.pd.entry 0) = true := (present_iff _).mpr (by simp only [pgSize] at h0; omega)
    have hp := Pgdir.pde_of_entry he
    rwa [show pdx 0 = 0 / 1024 by decide]
  obtain ⟨hlo, hhi⟩ := pdx_long_argument ha ha'
  have hnull := @pushArgs_absent { s with
      pd := s.pd.setPte (pdx 0) (ptx 0) (s.pd.pte (pdx 0) (ptx 0) &&& 0xFFFFFFFB) } 8192 a [] [] (by
      generalize hd : pdx _ = d at hlo hhi ⊢
      have hkern := (hg.kernel d (by simp only [userTop, kernBase, pgSize]; omega)).1
      simp only [setPte_pde, hkern]
      cases hp : present (pd.pde d)
      · rfl
      · rcases hslots d hp with h | h <;> omega)
  have hhdr : readi elfNoSegments 0 52 = (52, elfNoSegments) := by decide
  have hmagic : (Elfhdr.ofBytes elfNoSegments).magic = elfMagic := by decide
  have hphnum : (Elfhdr.ofBytes elfNoSegments).phnum = 0 := by decide
  have hbase : pgroundup 0 = 0 := by decide
  have hstack : 0 + 2 * pgSize = 8192 := rfl
  have hguard : 8192 - 2 * pgSize = 0 := rfl
  simp only [exec, hhdr, hkvm, hmagic, hphnum, loadSegments, hbase, hstack, halloc, ne_eq,
    not_true_eq_false, false_or, if_false, OfNat.ofNat_ne_zero, hguard, clearpteu_present hpde0, hnull]

theorem exec_long_argument_null_pte_64mb :
    exec 0x80400000 0x80108000
      ⟨⟨Shm.inithialSharedMemory, ⟨(List.range 72).map fun j => 0x80400000 + j * pgSize⟩,
        fun _ => .fresh⟩, Bytes.zero, fun _ => ⟨0, 0, 0, 0, []⟩, Process.Ptable.boot⟩
      ⟨0, by decide⟩ [0x2F, 0x61] [List.replicate (2 ^ 26) 0x41] (some elfNoSegments) 0 = none :=
  exec_long_argument_null_pte (by decide) (by decide) (by decide) (by decide) (by decide)
    (by simp) _ _ (by rw [List.length_replicate]; norm_num) (by rw [List.length_replicate]; norm_num)
    0

theorem exec_failure_frees_image {kend data : Nat} (hk : kernBase < kend)
    (hdata : data % pgSize = 0) (hlink : kernlink < data) (htop : data < kernBase + phystop)
    {m m' : Machine} (hF : ∀ v ∈ m.shm.kmem.freelist, Kfreeable kend v) {p : Fin nproc}
    {path : List UInt8} {argv : List (List UInt8)} {file : Option (List UInt8)} {ticks : Int}
    (h : exec kend data m p path argv file ticks = some (m', -1)) :
    m'.image = m.image ∧
      m'.table = file.elim m.table (fun _ =>
        (Process.changeQueue m.table (m.table.proc p).pid .unset ticks).1) ∧
      m'.shm.proc = m.shm.proc ∧ m'.shm.shaaredMem = m.shm.shaaredMem ∧
      m'.shm.kmem.freelist.Perm m.shm.kmem.freelist := by
  unfold exec at h
  rcases file with _ | content
  · obtain ⟨rfl, -⟩ := Prod.mk.inj (Option.some.inj h)
    exact ⟨rfl, rfl, rfl, rfl, .refl _⟩
  dsimp only at h
  generalize Elfhdr.ofBytes (readi content 0 52).2 = elf at h
  generalize (readi content 0 52).1 = r at h
  by_cases hhdr : r ≠ 52 ∨ elf.magic ≠ elfMagic
  · rw [if_pos hhdr] at h
    obtain ⟨rfl, -⟩ := Prod.mk.inj (Option.some.inj h)
    exact ⟨rfl, rfl, rfl, rfl, .refl _⟩
  rw [if_neg hhdr] at h
  obtain ⟨k, r', hkvm, hdir, hnone, -⟩ := setupkvm_spec hdata hlink htop hk hF
  rw [hkvm] at h
  rcases r' with _ | ⟨dir, pd⟩
  · obtain ⟨rfl, -⟩ := Prod.mk.inj (Option.some.inj h)
    exact ⟨rfl, rfl, rfl, rfl, hnone rfl⟩
  obtain ⟨hpool, -, hentry, -⟩ := hdir dir pd rfl
  dsimp only at h
  have hb₀ : Building m.shm.kmem dir 0 ⟨k, m.mem, pd⟩ :=
    ⟨hpool, fun i _ hi => by rw [hentry i (page_lt hi), kvmEntry_user data hi, present_zero],
      Nat.zero_le _⟩
  rcases hseg : loadSegments kend content ⟨k, m.mem, pd⟩ elf.phnum elf.phoff 0 with _ | res
  · rw [hseg] at h
    cases h
  rw [hseg] at h
  obtain ⟨herr, hok⟩ := loadSegments_building hk hF _ _ _ _ _ hb₀ hseg
  rcases res with s₁ | ⟨s₁, sz₁⟩
  · exact bad_frees hk hF (herr s₁ rfl) h
  dsimp only at h
  have hb₁ := (hok s₁ sz₁ rfl).roundup
  rcases hstk : allocuvm kend s₁ (pgroundup sz₁) (pgroundup sz₁ + 2 * pgSize) with _ | ⟨s₂, sz₂⟩
  · rw [hstk] at h
    cases h
  rw [hstk] at h
  dsimp only at h
  obtain ⟨hpool₂, hb₂⟩ := hb₁.allocuvm hk hF hstk
  by_cases hz : sz₂ = 0
  · rw [if_pos hz] at h
    exact bad_frees hk hF hpool₂ h
  rw [if_neg hz] at h
  have hsz₂ := (hb₂ hz).bound
  rcases hclr : clearpteu s₂ (sz₂ - 2 * pgSize) with _ | s₃
  · rw [hclr] at h
    cases h
  rw [hclr] at h
  dsimp only at h
  have hb₃ := (hb₂ hz).clearpteu (by simp only [kernBase] at hsz₂; omega) hclr
  rcases hpush : pushArgs s₃ 0 sz₂ argv [] with _ | res
  · rw [hpush] at h
    cases h
  rw [hpush] at h
  obtain ⟨s₄, hres, hk₄, hpd₄⟩ := pushArgs_frame hpush
  have hb₄ := hb₃.of_frame hk₄ hpd₄
  rcases hres with rfl | ⟨sp, us, rfl⟩
  · exact bad_frees hk hF hb₄.pool h
  dsimp only at h
  rcases hcp : copyout s₄ (CInt.toUint ((sp : Int) - (3 + us.length + 1) * 4))
      ((ustack sp us).flatMap Bytes.u32Bytes) with _ | ⟨s₅, r₅⟩
  · rw [hcp] at h
    cases h
  rw [hcp] at h
  dsimp only at h
  obtain ⟨hk₅, hpd₅⟩ := copyout_frame hcp
  by_cases hr : r₅ < 0
  · rw [if_pos hr] at h
    exact bad_frees hk hF (hb₄.of_frame hk₅ hpd₅).pool h
  rw [if_neg hr] at h
  split at h
  · cases h
  obtain ⟨_, -, h'⟩ := Option.map_eq_some_iff.mp h
  exact absurd (Prod.mk.inj h').2 (by decide)

def elfTruncatedSegment : List UInt8 :=
  [0x7F, 0x45, 0x4C, 0x46] ++ List.replicate 24 0 ++ [52, 0, 0, 0] ++ List.replicate 12 0 ++
    [1, 0] ++ List.replicate 6 0

lemma exec_truncated_segment {kend data : Nat} (hk : kernBase < kend)
    (hdata : data % pgSize = 0) (hlink : kernlink < data) (htop : data < kernBase + phystop)
    {m : Machine} (hF : ∀ v ∈ m.shm.kmem.freelist, Kfreeable kend v)
    (hfree : 72 ≤ m.shm.kmem.freelist.length) (p : Fin nproc) (path : List UInt8)
    (argv : List (List UInt8)) (ticks : Int) :
    ∃ m', exec kend data m p path argv (some elfTruncatedSegment) ticks = some (m', -1) := by
  obtain ⟨k, r, hkvm, hdir, -, hsome⟩ := setupkvm_spec hdata hlink htop hk hF
  obtain ⟨⟨dir, pd⟩, rfl⟩ := Option.isSome_iff_exists.mp (hsome (by omega))
  obtain ⟨hpool, -, -, -⟩ := hdir dir pd rfl
  have hhdr : readi elfTruncatedSegment 0 52 = (52, elfTruncatedSegment) := by decide
  have hmagic : (Elfhdr.ofBytes elfTruncatedSegment).magic = elfMagic := by decide
  have hphnum : (Elfhdr.ofBytes elfTruncatedSegment).phnum = 1 := by decide
  have hphoff : (Elfhdr.ofBytes elfTruncatedSegment).phoff = 52 := by decide
  have hph : (readi elfTruncatedSegment 52 32).1 = 0 := by decide
  simp only [exec, hhdr, hmagic, hkvm, hphnum, hphoff, loadSegments, hph, ne_eq,
    not_true_eq_false, false_or, if_false]
  rw [if_pos (show ¬(0 : Int) = 32 by decide)]
  simp only [freevm_eq hk fun v hv => hF v (hpool.subset (List.mem_append_right _ hv)),
    Option.map_some]
  exact ⟨_, rfl⟩

theorem exec_failure_frees_image_truncated_segment :
    ∃ m', exec 0x80400000 0x80108000
        ⟨⟨Shm.inithialSharedMemory, ⟨(List.range 72).map fun j => 0x80400000 + j * pgSize⟩,
          fun _ => .fresh⟩, Bytes.zero, fun _ => ⟨0, 0, 0, 0, []⟩, Process.Ptable.boot⟩
        ⟨0, by decide⟩ [0x2F, 0x61] [] (some elfTruncatedSegment) 0 = some (m', -1) ∧
      m'.shm.kmem.freelist.Perm ((List.range 72).map fun j => 0x80400000 + j * pgSize) := by
  have hF : ∀ v ∈ (List.range 72).map (fun j => 0x80400000 + j * pgSize),
      Kfreeable 0x80400000 v := by decide
  obtain ⟨m', h⟩ := exec_truncated_segment (by decide : kernBase < 0x80400000)
    (by decide : (0x80108000 : Nat) % pgSize = 0) (by decide : kernlink < 0x80108000)
    (by decide : (0x80108000 : Nat) < kernBase + phystop)
    (m := ⟨⟨Shm.inithialSharedMemory, ⟨(List.range 72).map fun j => 0x80400000 + j * pgSize⟩,
      fun _ => .fresh⟩, Bytes.zero, fun _ => ⟨0, 0, 0, 0, []⟩, Process.Ptable.boot⟩) hF (by simp)
    ⟨0, by decide⟩ [0x2F, 0x61] [] 0
  exact ⟨m', h, (exec_failure_frees_image (by decide) (by decide) (by decide) (by decide) hF h).2.2.2.2⟩

end Xv6.Exec
