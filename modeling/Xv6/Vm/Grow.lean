import Xv6.Vm.Owned

/-! How `allocuvm` grows a user image.

Each round of its loop takes a page off the free list, zeroes it, and maps it `PTE_W|PTE_U` at
the next page, taking a page-table page off the list too when the slot has none. Part way
through, the image is `Grown`: the pages mapped so far hold zeros, the entries below the old
size and in the kernel's slots are as they were, nothing is mapped above, and no page has been
gained or lost between the free list and the directory (`Space.pool`). When the free list runs
out, `deallocuvm` gives back the pages mapped so far, and the image is grown by nothing:
`Grown.undo`. -/

namespace Xv6.Vm

open Frames

def Space.pool (s : Space) : List Nat := s.kmem.freelist ++ s.pd.userPages ++ s.pd.tablePages

lemma Space.pool_owned (s : Space) (dir : Nat) :
    s.kmem.freelist ++ s.pd.owned dir = s.pool ++ [dir] := by
  simp [Space.pool, Pgdir.owned]

lemma Space.pool_empty (l : List Nat) (mem : Bytes.Buf) : Space.pool ⟨⟨l⟩, mem, Pgdir.empty⟩ = l := by
  rw [Space.pool, Pgdir.userPages_empty, Pgdir.tablePages_empty, List.append_nil, List.append_nil]

lemma userEntry_eq {pa : Nat} (h : pa % pgSize = 0) :
    pa ||| (pteWritable ||| pteUser) ||| ptePresent = pa + 7 := by
  rw [Nat.or_assoc, or_eq_add h (by decide)]
  rfl

structure Grown (s0 s : Space) (n0 n : Nat) : Prop where
  pool : s.pool.Perm s0.pool
  low : ∀ i, i < n0 → s.pd.entry i = s0.pd.entry i
  mid : ∀ i, n0 ≤ i → i < n → s.pd.entry i % pgSize = 7 ∧
    Bytes.read s.mem (p2v (pteAddr (s.pd.entry i))) pgSize = List.replicate pgSize 0
  high : ∀ i, n ≤ i → i < userTop → present (s.pd.entry i) = false
  kernel : ∀ d, userTop / 1024 ≤ d → s.pd.pde d = s0.pd.pde d ∧ s.pd.pte d = s0.pd.pte d

section Alloc

variable {kend oldsz newsz : Nat}

lemma Grown.start {s : Space} {n0 : Nat}
    (h : ∀ i, n0 ≤ i → i < userTop → present (s.pd.entry i) = false) : Grown s s n0 n0 :=
  ⟨List.Perm.refl _, fun _ _ => rfl, fun _ h₁ h₂ => absurd h₂ (by omega), h, fun _ _ => ⟨rfl, rfl⟩⟩

lemma Grown.kfreeable {s0 s : Space} {n0 n : Nat} (h : Grown s0 s n0 n)
    (hF : ∀ v ∈ s0.pool, Kfreeable kend v) : ∀ v ∈ s.pool, Kfreeable kend v :=
  fun v hv => hF v (h.pool.mem_iff.mp hv)

lemma Space.mem_pool_of_freelist {s : Space} {v : Nat} (h : v ∈ s.kmem.freelist) : v ∈ s.pool := by
  simp [Space.pool, h]

lemma Space.mem_pool_of_userPage {s : Space} {i v : Nat} (hi : i < userTop)
    (h : s.pd.userPage i = some v) : v ∈ s.pool := by
  simp only [Space.pool, List.mem_append]
  exact .inl (.inr (Pgdir.mem_userPages.mpr ⟨i, hi, h⟩))

lemma slot_lt {n : Nat} (hn : n < userTop) : n / 1024 < userTop / 1024 := by
  simp only [userTop, kernBase, pgSize] at hn ⊢
  omega

lemma slot_lt_nPdentries {n : Nat} (hn : n < userTop) : n / 1024 < nPdentries := by
  have := slot_lt hn
  simp only [nPdentries, userTop, kernBase, pgSize] at this ⊢
  omega

lemma Pgdir.entry_install_absent {pd : Pgdir} {d w : Nat} (h : present (pd.pde d) = false) (i : Nat) :
    (pd.install d w).entry i = pd.entry i := by
  rw [Pgdir.entry_install]
  split_ifs with hi
  · exact (Pgdir.entry_of_absent (by rwa [hi])).symm
  · rfl

lemma Space.pool_map {s : Space} {n page w : Nat} {rest : List Nat} (hn : n < userTop)
    (hs : s.kmem = ⟨page :: rest⟩) (hpde : present (s.pd.pde (n / 1024)) = true)
    (hentry : present (s.pd.entry n) = false) (hw : present w = true)
    (hback : p2v (pteAddr w) = page) :
    (rest ++ (s.pd.setPte (n / 1024) (n % 1024) w).userPages ++ s.pd.tablePages).Perm s.pool := by
  have hu := s.pd.userPages_setPte_map hn hpde hentry hw
  rw [hback] at hu
  rw [Space.pool, hs]
  refine ((hu.append_left rest).append_right _).trans ?_
  simp only [List.append_assoc]
  exact List.perm_middle.trans (by simp)

lemma Space.pool_install {s : Space} {d page t w : Nat} {rest : List Nat} (hd : d < nPdentries)
    (hs : s.kmem = ⟨page :: t :: rest⟩) (hpde : present (s.pd.pde d) = false)
    (hw : present w = true) (hback : p2v (pteAddr w) = t) :
    (page :: rest ++ (s.pd.install d w).userPages ++ (s.pd.install d w).tablePages).Perm s.pool := by
  have htp := s.pd.tablePages_install hd hpde hw
  rw [hback] at htp
  rw [Space.pool, hs, Pgdir.userPages_install hpde]
  refine (htp.append_left _).trans ?_
  simp only [List.cons_append, List.append_assoc]
  refine List.Perm.cons _ ?_
  rw [← List.append_assoc rest]
  exact List.perm_middle.trans (by rw [List.append_assoc])

lemma Grown.map {s0 s : Space} {n0 n page : Nat} {rest : List Nat} (h : Grown s0 s n0 n)
    (hk : kernBase < kend) (hF : ∀ v ∈ s0.pool, Kfreeable kend v) (hn0 : n0 ≤ n)
    (hn : n < userTop) (hs : s.kmem = ⟨page :: rest⟩)
    (hpde : present (s.pd.pde (n / 1024)) = true) :
    Grown s0 ⟨⟨rest⟩, Bytes.write s.mem page (List.replicate pgSize 0),
      s.pd.setPte (n / 1024) (n % 1024) (v2p page + 7)⟩ n0 (n + 1) := by
  have hpage : Kfreeable kend page := h.kfreeable hF page (Space.mem_pool_of_freelist (by simp [hs]))
  have hback : p2v (pteAddr (v2p page + 7)) = page := hpage.p2v_pteAddr hk (by decide)
  have hw : present (v2p page + 7) = true := by rw [present_add hpage.v2p_aligned]; rfl
  have hentry : present (s.pd.entry n) = false := h.high n le_rfl hn
  refine ⟨?_, fun i hi => ?_, fun i hi hi' => ?_, fun i hi hi' => ?_, fun d hd => ?_⟩
  · exact (Space.pool_map hn hs hpde hentry hw hback).trans h.pool
  · rw [Pgdir.entry_setPte_page, if_neg (fun h' => by omega)]
    exact h.low i hi
  · rw [Pgdir.entry_setPte_page]
    by_cases hin : i = n
    · subst hin
      rw [if_pos ⟨rfl, hpde⟩, hback]
      refine ⟨by rw [Nat.add_mod, hpage.v2p_aligned]; rfl, ?_⟩
      simpa using Bytes.read_write_self s.mem page (List.replicate pgSize 0)
    · rw [if_neg (fun h' => hin h'.1)]
      obtain ⟨h7, hz⟩ := h.mid i hi (by omega)
      exact ⟨h7, Bytes.read_write_zeros hz _ _⟩
  · rw [Pgdir.entry_setPte_page, if_neg (fun h' => by omega)]
    exact h.high i (by omega) hi'
  · have hne : d ≠ n / 1024 := by have := slot_lt hn; omega
    refine ⟨(h.kernel d hd).1, ?_⟩
    simp only [Pgdir.setPte, Function.update_of_ne hne]
    exact (h.kernel d hd).2

lemma Grown.install {s0 s : Space} {n0 n page t : Nat} {rest : List Nat} (h : Grown s0 s n0 n)
    (hk : kernBase < kend) (hF : ∀ v ∈ s0.pool, Kfreeable kend v) (hn0 : n0 ≤ n)
    (hn : n < userTop) (hs : s.kmem = ⟨page :: t :: rest⟩)
    (hpde : present (s.pd.pde (n / 1024)) = false) :
    Grown s0 ⟨⟨rest⟩, Bytes.write s.mem page (List.replicate pgSize 0),
      (s.pd.install (n / 1024) (v2p t + 7)).setPte (n / 1024) (n % 1024) (v2p page + 7)⟩
      n0 (n + 1) := by
  have hpage : Kfreeable kend page := h.kfreeable hF page (Space.mem_pool_of_freelist (by simp [hs]))
  have htab : Kfreeable kend t := h.kfreeable hF t (Space.mem_pool_of_freelist (by simp [hs]))
  let pd₁ := s.pd.install (n / 1024) (v2p t + 7)
  have hpde₁ : present (pd₁.pde (n / 1024)) = true := by
    simp [pd₁, present_add htab.v2p_aligned]
    rfl
  have hsame : ∀ i, pd₁.entry i = s.pd.entry i := Pgdir.entry_install_absent hpde
  have hinst : Grown s0 ⟨⟨page :: rest⟩, s.mem, pd₁⟩ n0 n := by
    refine ⟨?_, fun i hi => (hsame i).trans (h.low i hi), fun i hi hi' => ?_,
      fun i hi hi' => by rw [hsame i]; exact h.high i hi hi', fun d hd => ?_⟩
    · exact (Space.pool_install (slot_lt_nPdentries hn) hs hpde
        (by rw [present_add htab.v2p_aligned]; rfl) (htab.p2v_pteAddr hk (by decide))).trans h.pool
    · rw [hsame i]
      exact h.mid i hi hi'
    · have hne : d ≠ n / 1024 := by have := slot_lt hn; omega
      simp only [pd₁, Pgdir.install, Function.update_of_ne hne]
      exact h.kernel d hd
  exact hinst.map hk hF hn0 hn rfl hpde₁

lemma page_aligned (n : Nat) : n * pgSize % pgSize = 0 := Nat.mul_mod_left n pgSize

lemma page_add_le {n : Nat} (hn : n < userTop) : n * pgSize + pgSize ≤ 2 ^ 32 := by
  simp only [userTop, kernBase, pgSize] at hn ⊢
  omega

lemma allocuvmLoop_stop {s : Space} {n fuel : Nat} (hb : newsz ≤ n * pgSize) :
    allocuvmLoop kend oldsz newsz s (fuel + 1) (n * pgSize) = some (s, newsz) := by
  rw [allocuvmLoop, if_neg (not_lt.mpr hb)]

lemma allocuvmLoop_map {s : Space} {n fuel page : Nat} {rest : List Nat} (hs : s.kmem = ⟨page :: rest⟩)
    (hn : n < userTop) (ha : n * pgSize < newsz) (hpage : page % pgSize = 0)
    (hpde : present (s.pd.pde (n / 1024)) = true)
    (hpte : present (s.pd.pte (n / 1024) (n % 1024)) = false) :
    allocuvmLoop kend oldsz newsz s (fuel + 1) (n * pgSize) =
      allocuvmLoop kend oldsz newsz ⟨⟨rest⟩, Bytes.write s.mem page (List.replicate pgSize 0),
        s.pd.setPte (n / 1024) (n % 1024) (v2p page + 7)⟩ fuel ((n + 1) * pgSize) := by
  have hv : v2p page % pgSize = 0 := by
    simp only [v2p, kernBase, pgSize] at hpage ⊢
    omega
  have hpde' : present (s.pd.pde (pdx (n * pgSize))) = true := by rw [pdx_page (page_lt hn)]; exact hpde
  rw [allocuvmLoop, if_pos ha, hs]
  simp only [kalloc_cons]
  rw [mappages_page (page_aligned n) (page_add_le hn), walkpgdir_present true hpde']
  simp only [pdx_page (page_lt hn), ptx_page, hpte, Bool.false_eq_true, if_false, userEntry_eq hv,
    lt_self_iff_false, Nat.succ_mul]

lemma allocuvmLoop_install {s : Space} {n fuel page t : Nat} {rest : List Nat}
    (hs : s.kmem = ⟨page :: t :: rest⟩) (hn : n < userTop) (ha : n * pgSize < newsz)
    (hpage : page % pgSize = 0) (ht : t % pgSize = 0)
    (hpde : present (s.pd.pde (n / 1024)) = false) :
    allocuvmLoop kend oldsz newsz s (fuel + 1) (n * pgSize) =
      allocuvmLoop kend oldsz newsz ⟨⟨rest⟩, Bytes.write s.mem page (List.replicate pgSize 0),
        (s.pd.install (n / 1024) (v2p t + 7)).setPte (n / 1024) (n % 1024) (v2p page + 7)⟩
        fuel ((n + 1) * pgSize) := by
  have hv : v2p page % pgSize = 0 := by
    simp only [v2p, kernBase, pgSize] at hpage ⊢
    omega
  have hpde' : present (s.pd.pde (pdx (n * pgSize))) = false := by rw [pdx_page (page_lt hn)]; exact hpde
  rw [allocuvmLoop, if_pos ha, hs]
  simp only [kalloc_cons]
  rw [mappages_page (page_aligned n) (page_add_le hn), walkpgdir_alloc hpde']
  simp only [pdx_page (page_lt hn), ptx_page, tableEntry_eq ht, Pgdir.install, Function.update_self,
    present_zero, Bool.false_eq_true, if_false, userEntry_eq hv, lt_self_iff_false, Nat.succ_mul]

lemma allocuvmLoop_out {s : Space} {n fuel : Nat} (hs : s.kmem = ⟨[]⟩) (ha : n * pgSize < newsz) :
    allocuvmLoop kend oldsz newsz s (fuel + 1) (n * pgSize) =
      (deallocuvm kend ⟨[]⟩ s.pd newsz oldsz).map fun d => ({ s with kmem := d.1, pd := d.2.1 }, 0) := by
  rw [allocuvmLoop, if_pos ha, hs]
  rfl

lemma allocuvmLoop_noTable {s : Space} {n fuel page : Nat} (hs : s.kmem = ⟨[page]⟩)
    (hn : n < userTop) (ha : n * pgSize < newsz) (hpde : present (s.pd.pde (n / 1024)) = false) :
    allocuvmLoop kend oldsz newsz s (fuel + 1) (n * pgSize) =
      (deallocuvm kend ⟨[]⟩ s.pd newsz oldsz).bind fun d => (kfree kend d.1 page).bind fun k =>
        some (⟨k, Bytes.write s.mem page (List.replicate pgSize 0), d.2.1⟩, 0) := by
  have hpde' : present (s.pd.pde (pdx (n * pgSize))) = false := by rw [pdx_page (page_lt hn)]; exact hpde
  rw [allocuvmLoop, if_pos ha, hs]
  simp only [kalloc_cons]
  rw [mappages_page (page_aligned n) (page_add_le hn), walkpgdir_alloc_nil hpde']
  simp only [Int.reduceNeg, Left.neg_neg_iff, Int.reduceLT, if_true]
  rfl

lemma Grown.dealloc {s0 s : Space} {n0 n : Nat} (h : Grown s0 s n0 n) (hk : kernBase < kend)
    (hF : ∀ v ∈ s0.pool, Kfreeable kend v) (hn0 : n0 = pagesBelow oldsz) (hlt : oldsz < newsz)
    (hnew : newsz < kernBase) :
    deallocuvm kend ⟨[]⟩ s.pd newsz oldsz =
      some (⟨(s.pd.userPagesIn n0 (pagesBelow newsz)).reverse⟩,
        s.pd.unmapRange n0 (pagesBelow newsz), oldsz) := by
  have hm : pagesBelow newsz ≤ userTop := by
    simp only [pagesBelow, userTop, kernBase, pgSize] at hnew ⊢
    omega
  subst hn0
  rw [deallocuvm_eq hk hlt hnew.le fun i _ hi v hv =>
    h.kfreeable hF v (Space.mem_pool_of_userPage (by omega) hv), List.append_nil]

lemma Grown.dealloc_pool {s0 s : Space} {n0 n : Nat} (h : Grown s0 s n0 n) (hn0 : n0 ≤ n)
    {m : Nat} (hm : m ≤ userTop) (hnm : n ≤ m) :
    (s.kmem.freelist ++ (s.pd.userPagesIn n0 m).reverse ++ (s.pd.unmapRange n0 m).userPages ++
      s.pd.tablePages).Perm s0.pool := by
  have hperm : ((s.pd.userPagesIn n0 m).reverse ++ (s.pd.unmapRange n0 m).userPages).Perm
      s.pd.userPages :=
    (List.reverse_perm _).append_right _ |>.trans List.perm_append_comm |>.trans
      (s.pd.userPages_unmapRange (hn0.trans hnm) hm)
  refine List.Perm.trans ?_ h.pool
  simpa only [Space.pool, List.append_assoc] using
    (hperm.append_right s.pd.tablePages).append_left s.kmem.freelist

lemma Grown.undo {s0 s : Space} {n0 n m : Nat} (h : Grown s0 s n0 n) (hn0 : n0 ≤ n)
    (hm : m ≤ userTop) (hnm : n ≤ m) {fl : List Nat} (mem : Bytes.Buf)
    (hfl : fl.Perm (s.kmem.freelist ++ (s.pd.userPagesIn n0 m).reverse)) :
    Grown s0 ⟨⟨fl⟩, mem, s.pd.unmapRange n0 m⟩ n0 n0 where
  pool := by
    refine List.Perm.trans ?_ (h.dealloc_pool hn0 hm hnm)
    simp only [Space.pool, Pgdir.tablePages_unmapRange]
    exact (hfl.append_right _).append_right _
  low i hi := by
    rw [Pgdir.unmapRange_entry, if_neg (by omega)]
    exact h.low i hi
  mid i h₁ h₂ := absurd h₂ (by omega)
  high i h₁ h₂ := by
    rw [Pgdir.unmapRange_entry]
    split_ifs with hr
    · exact present_zero
    · by_cases him : i < m
      · simpa using fun hp => hr ⟨h₁, him, hp⟩
      · exact h.high i (by omega) h₂
  kernel d hd := ⟨(h.kernel d hd).1, by rw [Pgdir.unmapRange_pte_kernel _ _ hm hd]; exact (h.kernel d hd).2⟩

lemma allocuvmLoop_spec (hk : kernBase < kend) {s0 : Space} {n0 : Nat}
    (hF : ∀ v ∈ s0.pool, Kfreeable kend v) (hn0 : n0 = pagesBelow oldsz) (hnew : newsz < kernBase) :
    ∀ fuel n s, pagesBelow newsz - n < fuel → n0 ≤ n → n ≤ pagesBelow newsz → Grown s0 s n0 n →
      ∃ s' r, allocuvmLoop kend oldsz newsz s fuel (n * pgSize) = some (s', r) ∧
        (r = newsz ∧ Grown s0 s' n0 (pagesBelow newsz) ∨ r = 0 ∧ Grown s0 s' n0 n0) ∧
        (2 * (pagesBelow newsz - n) ≤ s.kmem.freelist.length → r = newsz) := by
  have hm : pagesBelow newsz ≤ userTop := by
    simp only [pagesBelow, userTop, kernBase, pgSize] at hnew ⊢
    omega
  intro fuel
  induction fuel with
  | zero => intro n s hfuel; omega
  | succ fuel ih =>
    intro n s hfuel hn0n hnm h
    by_cases hb : newsz ≤ n * pgSize
    · have hn : n = pagesBelow newsz := le_antisymm hnm (le_mul_pgSize_iff.mp hb)
      subst hn
      exact ⟨s, newsz, allocuvmLoop_stop hb, .inl ⟨rfl, h⟩, fun _ => rfl⟩
    have ha : n * pgSize < newsz := not_le.mp hb
    have hlt : n < pagesBelow newsz := by
      have := mt le_mul_pgSize_iff.mpr hb
      omega
    have hn : n < userTop := by omega
    have hold : oldsz < newsz := by
      have : pagesBelow oldsz ≤ n := hn0 ▸ hn0n
      have := le_mul_pgSize_iff.mpr this
      omega
    have hfail := h.dealloc hk hF hn0 hold hnew
    rcases hkm : s.kmem.freelist with _ | ⟨page, rest⟩
    · rw [allocuvmLoop_out (by rw [← hkm]) ha, hfail]
      exact ⟨_, 0, rfl, .inr ⟨rfl, h.undo hn0n hm hnm s.mem (by rw [hkm, List.nil_append])⟩,
        fun h2 => by simp at h2; omega⟩
    have hs : s.kmem = ⟨page :: rest⟩ := by rw [← hkm]
    have hpage : Kfreeable kend page := h.kfreeable hF page (Space.mem_pool_of_freelist (by simp [hkm]))
    by_cases hpde : present (s.pd.pde (n / 1024)) = true
    · have hpte : present (s.pd.pte (n / 1024) (n % 1024)) = false := by
        rw [← Pgdir.entry_of_present hpde]
        exact h.high n le_rfl hn
      obtain ⟨s', r, heq, hres, hfull⟩ :=
        ih (n + 1) _ (by omega) (by omega) hlt (h.map hk hF hn0n hn hs hpde)
      rw [allocuvmLoop_map hs hn ha hpage.1 hpde hpte]
      exact ⟨s', r, heq, hres, fun h2 => hfull (by simp at h2; simp; omega)⟩
    have hpde' : present (s.pd.pde (n / 1024)) = false := by simpa using hpde
    rcases rest with _ | ⟨t, rest⟩
    · rw [allocuvmLoop_noTable hs hn ha hpde', hfail]
      simp only [Option.bind_some, kfree_of_kfreeable _ hpage]
      exact ⟨_, 0, rfl, .inr ⟨rfl, h.undo hn0n hm hnm _ (by rw [hkm]; exact List.Perm.refl _)⟩,
        fun h2 => by simp at h2; omega⟩
    · have ht : Kfreeable kend t := h.kfreeable hF t (Space.mem_pool_of_freelist (by simp [hkm]))
      obtain ⟨s', r, heq, hres, hfull⟩ :=
        ih (n + 1) _ (by omega) (by omega) hlt (h.install hk hF hn0n hn hs hpde')
      rw [allocuvmLoop_install hs hn ha hpage.1 ht.1 hpde']
      exact ⟨s', r, heq, hres, fun h2 => hfull (by simp at h2; simp; omega)⟩

lemma allocuvm_of_kernBase_le {s : Space} (h : kernBase ≤ newsz) :
    allocuvm kend s oldsz newsz = some (s, 0) := by
  rw [allocuvm, if_pos h]

lemma allocuvm_of_lt {s : Space} (hnew : newsz < kernBase) (h : newsz < oldsz) :
    allocuvm kend s oldsz newsz = some (s, oldsz) := by
  rw [allocuvm, if_neg (not_le.mpr hnew), if_pos h]

theorem allocuvm_spec (hk : kernBase < kend) {s : Space} (hle : oldsz ≤ newsz)
    (hnew : newsz < kernBase)
    (habove : ∀ i, pagesBelow oldsz ≤ i → i < userTop → present (s.pd.entry i) = false)
    (hF : ∀ v ∈ s.pool, Kfreeable kend v) :
    ∃ s' r, allocuvm kend s oldsz newsz = some (s', r) ∧
      (r = newsz ∧ Grown s s' (pagesBelow oldsz) (pagesBelow newsz) ∨
        r = 0 ∧ Grown s s' (pagesBelow oldsz) (pagesBelow oldsz)) ∧
      (2 * (pagesBelow newsz - pagesBelow oldsz) ≤ s.kmem.freelist.length → r = newsz) := by
  have hround : pgroundup oldsz = pagesBelow oldsz * pgSize :=
    pgroundup_eq (by simp only [kernBase, pgSize] at hnew ⊢; omega)
  rw [allocuvm, if_neg (not_le.mpr hnew), if_neg (not_lt.mpr hle), hround]
  have hsize : pagesBelow oldsz ≤ pagesBelow newsz := by
    simp only [pagesBelow, pgSize]
    omega
  exact allocuvmLoop_spec hk hF rfl hnew _ _ _ (by simp only [pagesBelow, pgSize]; omega) le_rfl
    hsize (Grown.start habove)

theorem allocuvm_spec_first_page :
    ∃ s', allocuvm 0x80400000 ⟨⟨[0x80401000, 0x80402000]⟩, Bytes.zero, Pgdir.empty⟩ 0 4096 =
      some (s', 4096) ∧ Grown ⟨⟨[0x80401000, 0x80402000]⟩, Bytes.zero, Pgdir.empty⟩ s' 0 1 := by
  obtain ⟨s', r, heq, hres, hfull⟩ := @allocuvm_spec 0x80400000 0 4096 (by decide)
    ⟨⟨[0x80401000, 0x80402000]⟩, Bytes.zero, Pgdir.empty⟩ (by decide)
    (by decide) (fun i _ _ => by simp [present_zero]) (by rw [Space.pool_empty]; decide)
  have hr : r = 4096 := hfull (by decide)
  subst hr
  rcases hres with ⟨-, hg⟩ | ⟨h0, -⟩
  · exact ⟨s', heq, hg⟩
  · cases h0

end Alloc

end Xv6.Vm
