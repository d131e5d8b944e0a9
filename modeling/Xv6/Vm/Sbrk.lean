import Xv6.Vm.Grow
import Xv6.Lib.Run

/-! `sbrk`: `growproc` of `proc.c` and `sys_sbrk` of `sysproc.c`, over the process's directory,
its size `curproc->sz` and the allocator. `switchuvm` reloads the hardware's view of the same
directory and is left out.

`growproc(n)` grows the image with `allocuvm` or shrinks it with `deallocuvm`, and takes what
either returns as the new size; a `0` from either is a failure and leaves `sz` alone. Over any
run of calls the image stays a `Heap`: no page is gained or lost between the free list and the
directory, the kernel's page tables are not touched, and nothing is mapped from `sz` up to
`KERNBASE`; and no call panics.

The `0` of `deallocuvm` is also its answer to a shrink to size `0`: `sbrk(-sz)` frees every page
of the image and then reports failure with the size unchanged (`sbrk_minus_size_frees_image`). -/

namespace Xv6.Vm

open Frames

def growproc (kend : Nat) (s : Space) (sz : Nat) (n : Int) : Option (Space × Nat × Int) :=
  if 0 < n then
    match allocuvm kend s sz (CInt.toUint (sz + n)) with
    | none => none
    | some (s, sz') => if sz' = 0 then some (s, sz, -1) else some (s, sz', 0)
  else if n < 0 then
    match deallocuvm kend s.kmem s.pd sz (CInt.toUint (sz + n)) with
    | none => none
    | some (k, pd, sz') =>
      if sz' = 0 then some ({ s with kmem := k, pd := pd }, sz, -1)
      else some ({ s with kmem := k, pd := pd }, sz', 0)
  else some (s, sz, 0)

def sbrk (kend : Nat) (s : Space) (sz : Nat) (n : Int) : Option (Space × Nat × Int) :=
  (growproc kend s sz n).map fun (s', sz', r) => (s', sz', if r < 0 then -1 else CInt.toInt sz)

def sbrkStep (kend : Nat) (st : Space × Nat) (n : Int) : Option (Space × Nat) :=
  (sbrk kend st.1 st.2 n).map fun (s, sz, _) => (s, sz)

structure Heap (s0 s : Space) (sz : Nat) : Prop where
  pool : s.pool.Perm s0.pool
  high : ∀ i, pagesBelow sz ≤ i → i < userTop → present (s.pd.entry i) = false
  bound : sz < kernBase
  kernel : ∀ d, userTop / 1024 ≤ d → s.pd.pde d = s0.pd.pde d ∧ s.pd.pte d = s0.pd.pte d

section Heap

variable {kend : Nat} {s0 s : Space} {sz : Nat}

lemma Heap.start (hhigh : ∀ i, pagesBelow sz ≤ i → i < userTop → present (s.pd.entry i) = false)
    (hsz : sz < kernBase) : Heap s s sz :=
  ⟨List.Perm.refl _, hhigh, hsz, fun _ _ => ⟨rfl, rfl⟩⟩

lemma Heap.pages_le (h : Heap s0 s sz) : pagesBelow sz ≤ userTop := by
  have := h.bound
  simp only [pagesBelow, userTop, kernBase, pgSize] at this ⊢
  omega

lemma Heap.kfreeable (h : Heap s0 s sz) (hF : ∀ v ∈ s0.pool, Kfreeable kend v) :
    ∀ v ∈ s.pool, Kfreeable kend v :=
  fun v hv => hF v (h.pool.mem_iff.mp hv)

lemma Heap.grown {s' : Space} {sz' : Nat} (h : Heap s0 s sz)
    (hg : Grown s s' (pagesBelow sz) (pagesBelow sz')) (hsz' : sz' < kernBase) : Heap s0 s' sz' :=
  ⟨hg.pool.trans h.pool, hg.high, hsz', fun d hd =>
    ⟨(hg.kernel d hd).1.trans (h.kernel d hd).1, (hg.kernel d hd).2.trans (h.kernel d hd).2⟩⟩

lemma Heap.shrink {newsz : Nat} (h : Heap s0 s sz) (hlt : newsz < sz) :
    Heap s0 ⟨⟨(s.pd.userPagesIn (pagesBelow newsz) (pagesBelow sz)).reverse ++ s.kmem.freelist⟩,
      s.mem, s.pd.unmapRange (pagesBelow newsz) (pagesBelow sz)⟩ newsz := by
  have hm := h.pages_le
  have hnm : pagesBelow newsz ≤ pagesBelow sz := by
    simp only [pagesBelow, pgSize]
    omega
  refine ⟨?_, fun i h₁ h₂ => ?_, lt_trans hlt h.bound, fun d hd => ?_⟩
  · have hperm := s.pd.userPages_unmapRange hnm hm
    refine List.Perm.trans ?_ h.pool
    simp only [Space.pool, Pgdir.tablePages_unmapRange]
    refine List.Perm.append_right _ ?_
    refine (List.perm_append_comm.append_right _).trans ?_
    simp only [List.append_assoc]
    refine List.Perm.append_left _ ?_
    exact List.perm_append_comm.trans (((List.reverse_perm _).append_left _).trans hperm)
  · rw [Pgdir.unmapRange_entry]
    split_ifs with hr
    · exact present_zero
    · by_cases hi : i < pagesBelow sz
      · simpa using fun hp => hr ⟨h₁, hi, hp⟩
      · exact h.high i (by omega) h₂
  · exact ⟨(h.kernel d hd).1, by rw [Pgdir.unmapRange_pte_kernel _ _ hm hd]; exact (h.kernel d hd).2⟩

lemma Heap.mono {sz' : Nat} (h : Heap s0 s sz) (hle : sz ≤ sz') (hsz' : sz' < kernBase) :
    Heap s0 s sz' := by
  have hpages : pagesBelow sz ≤ pagesBelow sz' := by
    simp only [pagesBelow, pgSize]
    omega
  exact ⟨h.pool, fun i h₁ h₂ => h.high i (hpages.trans h₁) h₂, hsz', h.kernel⟩

lemma Heap.freeable (h : Heap s0 s sz) (hF : ∀ v ∈ s0.pool, Kfreeable kend v) (n : Nat) :
    s.pd.Freeable kend n (pagesBelow sz) :=
  fun i _ hi v hv => h.kfreeable hF v (Space.mem_pool_of_userPage (by have := h.pages_le; omega) hv)

lemma allocuvm_heap (hk : kernBase < kend) (hF : ∀ v ∈ s0.pool, Kfreeable kend v)
    (h : Heap s0 s sz) (newsz : Nat) :
    ∃ s' r, allocuvm kend s sz newsz = some (s', r) ∧
      (r = 0 ∧ Grown s s' (pagesBelow sz) (pagesBelow sz) ∨
        r ≠ 0 ∧ r < kernBase ∧ Grown s s' (pagesBelow sz) (pagesBelow r)) := by
  by_cases hkern : kernBase ≤ newsz
  · exact ⟨s, 0, allocuvm_of_kernBase_le hkern, .inl ⟨rfl, Grown.start h.high⟩⟩
  by_cases hlt : newsz < sz
  · exact ⟨s, sz, allocuvm_of_lt (not_le.mp hkern) hlt,
      .inr ⟨by omega, h.bound, Grown.start h.high⟩⟩
  obtain ⟨s', r, heq, hres, -⟩ :=
    allocuvm_spec hk (not_lt.mp hlt) (not_le.mp hkern) h.high (h.kfreeable hF)
  refine ⟨s', r, heq, ?_⟩
  rcases hres with ⟨hr, hg⟩ | ⟨rfl, hg⟩
  · subst hr
    by_cases h0 : r = 0
    · have hsz : sz = 0 := by omega
      subst h0 hsz
      exact .inl ⟨rfl, hg⟩
    · exact .inr ⟨h0, not_le.mp hkern, hg⟩
  · exact .inl ⟨rfl, hg⟩

lemma deallocuvm_heap (hk : kernBase < kend) (hF : ∀ v ∈ s0.pool, Kfreeable kend v)
    (h : Heap s0 s sz) (newsz : Nat) :
    ∃ k pd r, deallocuvm kend s.kmem s.pd sz newsz = some (k, pd, r) ∧
      Heap s0 ⟨k, s.mem, pd⟩ (if r = 0 then sz else r) := by
  by_cases hle : sz ≤ newsz
  · refine ⟨s.kmem, s.pd, sz, deallocuvm_of_le kend s.kmem s.pd hle, ?_⟩
    split_ifs <;> exact h
  have hlt : newsz < sz := not_le.mp hle
  refine ⟨_, _, newsz, deallocuvm_eq hk hlt h.bound.le (h.freeable hF _), ?_⟩
  split_ifs with h0
  · exact (h.shrink hlt).mono hlt.le h.bound
  · exact h.shrink hlt

lemma growproc_heap (hk : kernBase < kend) (hF : ∀ v ∈ s0.pool, Kfreeable kend v)
    (h : Heap s0 s sz) (n : Int) :
    ∃ s' sz' r, growproc kend s sz n = some (s', sz', r) ∧ Heap s0 s' sz' ∧
      (r = 0 ∨ r = -1 ∧ sz' = sz) := by
  unfold growproc
  by_cases hpos : 0 < n
  · rw [if_pos hpos]
    obtain ⟨s', r, heq, hres⟩ := allocuvm_heap hk hF h (CInt.toUint (sz + n))
    rw [heq]
    rcases hres with ⟨rfl, hg⟩ | ⟨hr, hb, hg⟩
    · exact ⟨s', sz, -1, rfl, h.grown hg h.bound, .inr ⟨rfl, rfl⟩⟩
    · exact ⟨s', r, 0, by simp [hr], h.grown hg hb, .inl rfl⟩
  rw [if_neg hpos]
  by_cases hneg : n < 0
  · rw [if_pos hneg]
    obtain ⟨k, pd, r, heq, hh⟩ := deallocuvm_heap hk hF h (CInt.toUint (sz + n))
    rw [heq]
    dsimp only
    split_ifs with h0
    · rw [if_pos h0] at hh
      exact ⟨_, sz, -1, rfl, hh, .inr ⟨rfl, rfl⟩⟩
    · rw [if_neg h0] at hh
      exact ⟨_, r, 0, rfl, hh, .inl rfl⟩
  · rw [if_neg hneg]
    exact ⟨s, sz, 0, rfl, h, .inl rfl⟩

lemma Grown.userPage_of_same {s' : Space} {n : Nat} (hg : Grown s s' n n)
    (hhigh : ∀ i, n ≤ i → i < userTop → present (s.pd.entry i) = false) :
    ∀ i, i < userTop → s'.pd.userPage i = s.pd.userPage i := by
  intro i hi
  by_cases hin : i < n
  · simp only [Pgdir.userPage, hg.low i hin]
  · rw [Pgdir.userPage_eq_none.mpr (hg.high i (by omega) hi),
      Pgdir.userPage_eq_none.mpr (hhigh i (by omega) hi)]

lemma Pgdir.userPages_congr {pd pd' : Pgdir} (h : ∀ i, i < userTop → pd'.userPage i = pd.userPage i) :
    pd'.userPages = pd.userPages :=
  held_congr fun i _ hi => h i (by omega)

lemma Space.perm_of_pool {s s' : Space} (hp : s'.pool.Perm s.pool)
    (hu : s'.pd.userPages = s.pd.userPages) :
    (s'.kmem.freelist ++ s'.pd.tablePages).Perm (s.kmem.freelist ++ s.pd.tablePages) := by
  have hsplit : ∀ t : Space, t.pool.Perm (t.pd.userPages ++ (t.kmem.freelist ++ t.pd.tablePages)) :=
    fun t => (List.perm_append_comm.append_right _).trans (by rw [List.append_assoc])
  have h := ((hsplit s').symm.trans hp).trans (hsplit s)
  rw [hu] at h
  exact (List.perm_append_left_iff _).mp h

end Heap

section Calls

variable {kend : Nat} {s : Space} {sz : Nat}

theorem sbrk_run_keeps_heap (hk : kernBase < kend) (hF : ∀ v ∈ s.pool, Kfreeable kend v)
    (hhigh : ∀ i, pagesBelow sz ≤ i → i < userTop → present (s.pd.entry i) = false)
    (hsz : sz < kernBase) (ns : List Int) :
    ∃ s' sz', Run.exec (sbrkStep kend) (s, sz) ns = some (s', sz') ∧ Heap s s' sz' := by
  have hstep : ∀ (st : Space × Nat) (n : Int), Heap s st.1 st.2 →
      ∃ t, sbrkStep kend st n = some t ∧ Heap s t.1 t.2 := by
    rintro ⟨s₁, sz₁⟩ n h
    obtain ⟨s', sz', r, heq, hh, -⟩ := growproc_heap hk hF h n
    exact ⟨(s', sz'), by simp [sbrkStep, sbrk, heq], hh⟩
  have h0 : Heap s (s, sz).1 (s, sz).2 := Heap.start hhigh hsz
  obtain ⟨⟨s', sz'⟩, hrun, hh⟩ := Run.exec_some_of_invariant hstep h0 ns
  exact ⟨s', sz', hrun, hh⟩

theorem sbrk_run_keeps_heap_two_calls :
    ∃ s' sz', Run.exec (sbrkStep 0x80400000) (⟨⟨[0x80400000, 0x80401000]⟩, Bytes.zero, Pgdir.empty⟩, 0)
      [4096, -4096] = some (s', sz') ∧ Heap ⟨⟨[0x80400000, 0x80401000]⟩, Bytes.zero, Pgdir.empty⟩ s' sz' := by
  exact sbrk_run_keeps_heap (by decide) (by rw [Space.pool_empty]; decide)
    (fun i _ _ => by simp [present_zero]) (by decide) [4096, -4096]

theorem sbrk_minus_size_frees_image (hk : kernBase < kend) (hF : ∀ v ∈ s.pool, Kfreeable kend v)
    (hhigh : ∀ i, pagesBelow sz ≤ i → i < userTop → present (s.pd.entry i) = false)
    (hsz : sz < kernBase) (hpos : 0 < sz) :
    ∃ s', sbrk kend s sz (-(sz : Int)) = some (s', sz, -1) ∧
      s'.kmem.freelist = s.pd.userPages.reverse ++ s.kmem.freelist ∧
      ∀ i, i < userTop → present (s'.pd.entry i) = false := by
  have h := Heap.start hhigh hsz
  have hzero : CInt.toUint ((sz : Int) + -(sz : Int)) = 0 := by simp [CInt.toUint]
  have hall : s.pd.userPagesIn 0 (pagesBelow sz) = s.pd.userPages := by
    have habove : s.pd.userPagesIn (pagesBelow sz) userTop = [] :=
      held_eq_nil fun i hi hi' => Pgdir.userPage_eq_none.mpr (hhigh i hi (by omega))
    rw [Pgdir.userPages, s.pd.userPagesIn_split (Nat.zero_le _) h.pages_le, habove, List.append_nil]
  let s' : Space := ⟨⟨(s.pd.userPagesIn 0 (pagesBelow sz)).reverse ++ s.kmem.freelist⟩, s.mem,
    s.pd.unmapRange 0 (pagesBelow sz)⟩
  have hgrow : growproc kend s sz (-(sz : Int)) = some (s', sz, -1) := by
    rw [growproc, if_neg (by omega), if_pos (by omega), hzero,
      deallocuvm_eq hk hpos hsz.le (h.freeable hF 0)]
    rfl
  refine ⟨s', by simp [sbrk, hgrow], by simp only [s', hall], fun i hi => ?_⟩
  exact (h.shrink hpos).high i (Nat.zero_le _) hi

theorem sbrk_minus_size_frees_image_one_page :
    ∃ s s', allocuvm 0x80400000 ⟨⟨[0x80401000, 0x80402000]⟩, Bytes.zero, Pgdir.empty⟩ 0 4096 =
        some (s, 4096) ∧ present (s.pd.entry 0) = true ∧
      sbrk 0x80400000 s 4096 (-(4096 : Nat)) = some (s', 4096, -1) ∧
      s'.kmem.freelist = s.pd.userPages.reverse ++ s.kmem.freelist ∧
      ∀ i, i < userTop → present (s'.pd.entry i) = false := by
  obtain ⟨s, hs, hg⟩ := allocuvm_spec_first_page
  have hF0 : ∀ v ∈ Space.pool ⟨⟨[0x80401000, 0x80402000]⟩, Bytes.zero, Pgdir.empty⟩,
      Kfreeable 0x80400000 v := by
    rw [Space.pool_empty]
    decide
  have hpres : present (s.pd.entry 0) = true := by
    rw [present_iff]
    have h7 := (hg.mid 0 le_rfl (by decide)).1
    simp only [pgSize] at h7
    omega
  obtain ⟨s', h⟩ := sbrk_minus_size_frees_image (s := s) (by decide)
    (fun v hv => hF0 v (hg.pool.mem_iff.mp hv))
    (fun i hi hu => hg.high i (by simp only [pagesBelow, pgSize] at hi; omega) hu)
    (by decide : (4096 : Nat) < kernBase) (by decide)
  exact ⟨s, s', hs, hpres, h⟩

theorem sbrk_grow_then_shrink (hk : kernBase < kend) (hF : ∀ v ∈ s.pool, Kfreeable kend v)
    (hhigh : ∀ i, pagesBelow sz ≤ i → i < userTop → present (s.pd.entry i) = false)
    (hpos : 0 < sz) {n : Nat} (hn : 0 < n) (hfit : sz + n < kernBase)
    (hfree : 2 * (pagesBelow (sz + n) - pagesBelow sz) ≤ s.kmem.freelist.length) :
    ∃ s₁ s₂ : Space, sbrk kend s sz n = some (s₁, sz + n, (sz : Int)) ∧
      sbrk kend s₁ (sz + n) (-(n : Int)) = some (s₂, sz, ((sz + n : Nat) : Int)) ∧
      (∀ i, i < userTop → s₂.pd.userPage i = s.pd.userPage i) ∧
      (s₂.kmem.freelist ++ s₂.pd.tablePages).Perm (s.kmem.freelist ++ s.pd.tablePages) := by
  have hsz : sz < kernBase := by omega
  have h := Heap.start hhigh hsz
  have hup : CInt.toUint ((sz : Int) + (n : Int)) = sz + n := by
    rw [CInt.toUint_of_range (by omega) (by simp only [kernBase] at hfit; omega)]
    omega
  have hdown : CInt.toUint (((sz + n : Nat) : Int) + -(n : Int)) = sz := by
    rw [CInt.toUint_of_range (by omega) (by simp only [kernBase] at hfit; omega)]
    omega
  obtain ⟨s₁, r, halloc, hres, hfull⟩ :=
    allocuvm_spec hk (Nat.le_add_right sz n) hfit hhigh hF
  have hr : r = sz + n := hfull hfree
  subst hr
  obtain ⟨-, hg⟩ := hres.resolve_right (fun h0 => by have := h0.1; omega)
  have h₁ := h.grown hg hfit
  have hgrow : growproc kend s sz n = some (s₁, sz + n, 0) := by
    rw [growproc, if_pos (by omega), hup, halloc]
    simp only [Nat.add_eq_zero_iff, hpos.ne', false_and, if_false]
  have hlt : sz < sz + n := by omega
  have hshrink : growproc kend s₁ (sz + n) (-(n : Int)) = some (⟨⟨(s₁.pd.userPagesIn (pagesBelow sz)
      (pagesBelow (sz + n))).reverse ++ s₁.kmem.freelist⟩, s₁.mem,
      s₁.pd.unmapRange (pagesBelow sz) (pagesBelow (sz + n))⟩, sz, 0) := by
    rw [growproc, if_neg (by omega), if_pos (by omega), hdown,
      deallocuvm_eq hk hlt hfit.le (h₁.freeable hF _)]
    simp only [hpos.ne', if_false]
  have hpages : pagesBelow sz ≤ pagesBelow (sz + n) := by
    simp only [pagesBelow, pgSize]
    omega
  have hg₂ := hg.undo hpages h₁.pages_le le_rfl s₁.mem List.perm_append_comm
  have hsame := hg₂.userPage_of_same hhigh
  refine ⟨s₁, _, by simp [sbrk, hgrow, CInt.toInt_of_lt (by simp only [kernBase] at hsz; omega : sz < 2147483648)],
    by simp [sbrk, hshrink, CInt.toInt_of_lt (by simp only [kernBase] at hfit; omega : sz + n < 2147483648)],
    hsame, Space.perm_of_pool hg₂.pool (Pgdir.userPages_congr hsame)⟩

theorem sbrk_grow_then_shrink_one_page :
    ∃ s₁ s₂ : Space, sbrk 0x80400000 ⟨⟨[0x80400000, 0x80401000]⟩, Bytes.zero, Pgdir.empty⟩ 1
        (4096 : Nat) = some (s₁, 1 + 4096, ((1 : Nat) : Int)) ∧
      sbrk 0x80400000 s₁ (1 + 4096) (-((4096 : Nat) : Int)) = some (s₂, 1, ((1 + 4096 : Nat) : Int)) ∧
      (∀ i, i < userTop → s₂.pd.userPage i = Pgdir.empty.userPage i) ∧
      (s₂.kmem.freelist ++ s₂.pd.tablePages).Perm ([0x80400000, 0x80401000] ++ Pgdir.empty.tablePages) := by
  exact sbrk_grow_then_shrink (by decide) (by rw [Space.pool_empty]; decide) (fun i _ _ => by simp [present_zero])
    (by decide) (by decide) (by decide) (by decide)

theorem sbrk_grow_failure_keeps_image (hk : kernBase < kend) (hF : ∀ v ∈ s.pool, Kfreeable kend v)
    (hhigh : ∀ i, pagesBelow sz ≤ i → i < userTop → present (s.pd.entry i) = false)
    (hsz : sz < kernBase) {n : Int} (hn : 0 < n) {s' : Space} {sz' : Nat}
    (h : sbrk kend s sz n = some (s', sz', -1)) :
    sz' = sz ∧ (∀ i, i < userTop → s'.pd.userPage i = s.pd.userPage i) ∧ s'.pool.Perm s.pool := by
  obtain ⟨s₁, r, halloc, hres⟩ := allocuvm_heap hk hF (Heap.start hhigh hsz) (CInt.toUint (sz + n))
  rw [sbrk, growproc, if_pos hn, halloc] at h
  rcases hres with ⟨rfl, hg⟩ | ⟨hr, -, -⟩
  · simp only [if_true, Option.map_some, Int.reduceNeg, Int.reduceLT, Option.some.injEq,
      Prod.mk.injEq] at h
    obtain ⟨rfl, rfl, -⟩ := h
    exact ⟨rfl, hg.userPage_of_same hhigh, hg.pool⟩
  · have hint : CInt.toInt sz = sz := CInt.toInt_of_lt (by simp only [kernBase] at hsz; omega)
    simp [hr, hint] at h

theorem sbrk_grow_failure_keeps_image_out_of_pages :
    ∃ s', sbrk 0x80400000 ⟨⟨[0x80401000, 0x80402000]⟩, Bytes.zero, Pgdir.empty⟩ 0 8192 =
        some (s', 0, -1) ∧
      (∀ i, i < userTop → s'.pd.userPage i = Pgdir.empty.userPage i) ∧
      s'.pool.Perm [0x80401000, 0x80402000] := by
  obtain ⟨s', h⟩ : ∃ s', sbrk 0x80400000 ⟨⟨[0x80401000, 0x80402000]⟩, Bytes.zero, Pgdir.empty⟩ 0
      8192 = some (s', 0, -1) := ⟨_, rfl⟩
  obtain ⟨-, hpage, hpool⟩ := sbrk_grow_failure_keeps_image (by decide)
    (by rw [Space.pool_empty]; decide) (fun i _ _ => by simp [present_zero]) (by decide)
    (by decide) h
  rw [Space.pool_empty] at hpool
  exact ⟨s', h, hpage, hpool⟩

end Calls

end Xv6.Vm
