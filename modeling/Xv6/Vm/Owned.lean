import Xv6.Vm.Uvm
import Xv6.Vm.Paging
import Xv6.Lib.Frames

/-! What a page directory owns, and how `deallocuvm` and `freevm` give it back.

A directory owns the pages its entries below `KERNBASE` map (`userPages`, in address order), the
page-table pages of its present directory entries (`tablePages`, in slot order), and its own
page. The loop of `deallocuvm` frees the user pages of a range, in address order, and clears
their entries (`freeFrom_eq`); `freevm` pushes everything the directory owns on the free list
(`freevm_eq`). Both need every page they free to be one that `kfree` takes (`Kfreeable`). -/

namespace Xv6.Vm

open Frames

def Kfreeable (kend v : Nat) : Prop := v % pgSize = 0 ∧ kend ≤ v ∧ v2p v < phystop ∧ v < 2 ^ 32

instance (kend v : Nat) : Decidable (Kfreeable kend v) :=
  inferInstanceAs (Decidable (_ ∧ _ ∧ _ ∧ _))

lemma kfree_of_kfreeable {kend v : Nat} (k : Kmem) (h : Kfreeable kend v) :
    kfree kend k v = some ⟨v :: k.freelist⟩ := by
  obtain ⟨h1, h2, h3, _⟩ := h
  simp [kfree, h1, not_lt.mpr h2, not_le.mpr h3]

lemma Kfreeable.p2v_pteAddr {kend v f : Nat} (hk : kernBase < kend) (h : Kfreeable kend v)
    (hf : f < pgSize) : p2v (pteAddr (v2p v + f)) = v := by
  obtain ⟨h1, h2, _, h4⟩ := h
  have hv : v2p v = v - kernBase := by
    simp only [v2p, kernBase] at hk h2 h4 ⊢
    omega
  rw [pteAddr_add (by simp only [hv, pgSize, kernBase] at h1 ⊢; omega)
    (by simp only [hv]; omega) hf, hv]
  simp only [p2v, kernBase] at hk h2 h4 ⊢
  omega

lemma Kfreeable.v2p_aligned {kend v : Nat} (h : Kfreeable kend v) : v2p v % pgSize = 0 := by
  obtain ⟨h1, -, -, h4⟩ := h
  simp only [v2p, kernBase, pgSize] at h1 h4 ⊢
  omega

def userTop : Nat := kernBase / pgSize

def pagesBelow (sz : Nat) : Nat := (sz + pgSize - 1) / pgSize

lemma le_mul_pgSize_iff {sz n : Nat} : sz ≤ n * pgSize ↔ pagesBelow sz ≤ n := by
  simp only [pagesBelow, pgSize]
  omega

lemma pgroundup_eq {sz : Nat} (h : sz + pgSize - 1 < 2 ^ 32) : pgroundup sz = pagesBelow sz * pgSize :=
  pgrounddown_eq h

def Pgdir.userPage (pd : Pgdir) (n : Nat) : Option Nat :=
  if present (pd.entry n) then some (p2v (pteAddr (pd.entry n))) else none

def Pgdir.tablePage (pd : Pgdir) (d : Nat) : Option Nat :=
  if present (pd.pde d) then some (p2v (pteAddr (pd.pde d))) else none

def Pgdir.userPagesIn (pd : Pgdir) (n m : Nat) : List Nat := held pd.userPage n (m - n)

def Pgdir.userPages (pd : Pgdir) : List Nat := pd.userPagesIn 0 userTop

def Pgdir.tablePages (pd : Pgdir) : List Nat := held pd.tablePage 0 nPdentries

def Pgdir.owned (pd : Pgdir) (dir : Nat) : List Nat := pd.userPages ++ pd.tablePages ++ [dir]

lemma Pgdir.userPage_eq_none {pd : Pgdir} {n : Nat} :
    pd.userPage n = none ↔ present (pd.entry n) = false := by
  simp [Pgdir.userPage]

lemma Pgdir.userPagesIn_of_le (pd : Pgdir) {n m : Nat} (h : m ≤ n) : pd.userPagesIn n m = [] := by
  simp [Pgdir.userPagesIn, Nat.sub_eq_zero_of_le h]

lemma Pgdir.userPagesIn_succ (pd : Pgdir) {n m : Nat} (h : n < m) :
    pd.userPagesIn n m = (pd.userPage n).toList ++ pd.userPagesIn (n + 1) m := by
  rw [Pgdir.userPagesIn, show m - n = m - (n + 1) + 1 by omega, held_succ]
  rfl

lemma Pgdir.userPagesIn_skip (pd : Pgdir) {n n' m : Nat} (hn : n ≤ n')
    (h : ∀ i, n ≤ i → i < n' → present (pd.entry i) = false) :
    pd.userPagesIn n m = pd.userPagesIn n' m := by
  by_cases hm : m ≤ n'
  · rw [pd.userPagesIn_of_le hm, Pgdir.userPagesIn]
    exact held_eq_nil fun i hi hi' => Pgdir.userPage_eq_none.mpr (h i hi (by omega))
  · rw [Pgdir.userPagesIn, show m - n = (n' - n) + (m - n') by omega, held_append,
      held_eq_nil fun i hi hi' => Pgdir.userPage_eq_none.mpr (h i hi (by omega)),
      List.nil_append, show n + (n' - n) = n' by omega]
    rfl

lemma Pgdir.userPage_setPte_of_ne (pd : Pgdir) {n i : Nat} (w : Nat) (hi : i ≠ n) :
    (pd.setPte (n / 1024) (n % 1024) w).userPage i = pd.userPage i := by
  have hne : ¬ (i / 1024 = n / 1024 ∧ i % 1024 = n % 1024 ∧ present (pd.pde (n / 1024)) = true) :=
    fun h => hi (by omega)
  simp only [Pgdir.userPage, Pgdir.entry_setPte, hne, if_false]

def Pgdir.unmapRange (pd : Pgdir) (n m : Nat) : Pgdir :=
  { pd with pte := fun d x =>
      if x < 1024 ∧ n ≤ d * 1024 + x ∧ d * 1024 + x < m ∧ present (pd.pde d) = true ∧
        present (pd.pte d x) = true then 0 else pd.pte d x }

@[simp] lemma Pgdir.unmapRange_pde (pd : Pgdir) (n m : Nat) : (pd.unmapRange n m).pde = pd.pde := rfl

@[simp] lemma Pgdir.tablePages_unmapRange (pd : Pgdir) (n m : Nat) :
    (pd.unmapRange n m).tablePages = pd.tablePages := rfl

lemma Pgdir.unmapRange_pte_kernel (pd : Pgdir) (n : Nat) {m d : Nat} (hm : m ≤ userTop)
    (hd : userTop / 1024 ≤ d) : (pd.unmapRange n m).pte d = pd.pte d := by
  funext x
  simp only [userTop, kernBase, pgSize] at hm hd
  simp only [Pgdir.unmapRange]
  rw [if_neg (by omega)]

lemma page_split (i : Nat) : i / 1024 * 1024 + i % 1024 = i := by omega

lemma Pgdir.unmapRange_entry (pd : Pgdir) (n m i : Nat) :
    (pd.unmapRange n m).entry i =
      if n ≤ i ∧ i < m ∧ present (pd.entry i) = true then 0 else pd.entry i := by
  by_cases hp : present (pd.pde (i / 1024)) = true
  · simp [Pgdir.entry, Pgdir.unmapRange, hp, page_split, Nat.mod_lt]
  · simp [Pgdir.entry, hp]

lemma Pgdir.unmapRange_of_le (pd : Pgdir) {n m : Nat} (h : m ≤ n) : pd.unmapRange n m = pd := by
  ext d x
  · rfl
  · simp only [Pgdir.unmapRange]
    rw [if_neg (by omega)]

lemma Pgdir.unmapRange_congr (pd : Pgdir) (n n' : Nat) {m : Nat}
    (h : ∀ i, min n n' ≤ i → i < max n n' → present (pd.entry i) = false) :
    pd.unmapRange n m = pd.unmapRange n' m := by
  ext d x
  · rfl
  · simp only [Pgdir.unmapRange]
    by_cases hx : x < 1024 ∧ d * 1024 + x < m ∧ present (pd.pde d) = true ∧
        present (pd.pte d x) = true
    · have hentry : present (pd.entry (d * 1024 + x)) = true := by
        rw [Pgdir.entry_of_present (by rw [show (d * 1024 + x) / 1024 = d by omega]; exact hx.2.2.1),
          show (d * 1024 + x) / 1024 = d by omega, show (d * 1024 + x) % 1024 = x by omega]
        exact hx.2.2.2
      have hside : (n ≤ d * 1024 + x ↔ n' ≤ d * 1024 + x) := by
        constructor <;> intro hle <;> by_contra hlt <;>
          simp [h (d * 1024 + x) (by omega) (by omega)] at hentry
      by_cases hn : n ≤ d * 1024 + x
      · rw [if_pos ⟨hx.1, hn, hx.2⟩, if_pos ⟨hx.1, hside.mp hn, hx.2⟩]
      · rw [if_neg (fun h' => hn h'.2.1), if_neg (fun h' => hn (hside.mpr h'.2.1))]
    · rw [if_neg (fun h' => hx ⟨h'.1, h'.2.2⟩), if_neg (fun h' => hx ⟨h'.1, h'.2.2⟩)]

lemma Pgdir.unmapRange_setPte (pd : Pgdir) {n m : Nat} (hnm : n < m)
    (hpde : present (pd.pde (n / 1024)) = true)
    (hpte : present (pd.pte (n / 1024) (n % 1024)) = true) :
    (pd.setPte (n / 1024) (n % 1024) 0).unmapRange (n + 1) m = pd.unmapRange n m := by
  ext d x
  · rfl
  · dsimp only [Pgdir.unmapRange, setPte_pde]
    by_cases hdx : (d, x) = (n / 1024, n % 1024)
    · obtain ⟨rfl, rfl⟩ := Prod.mk.inj hdx
      simp [hpde, hpte, present_zero, page_split, hnm, Nat.mod_lt]
    · rw [setPte_pte_of_ne pd 0 hdx]
      have hne : x < 1024 → d * 1024 + x ≠ n := fun hx he =>
        hdx (Prod.ext (by dsimp only; omega) (by dsimp only; omega))
      by_cases h1 : x < 1024 ∧ n + 1 ≤ d * 1024 + x ∧ d * 1024 + x < m ∧ present (pd.pde d) = true ∧
          present (pd.pte d x) = true
      · have h2 : x < 1024 ∧ n ≤ d * 1024 + x ∧ d * 1024 + x < m ∧ present (pd.pde d) = true ∧
            present (pd.pte d x) = true := ⟨h1.1, by omega, h1.2.2⟩
        simp only [h1, h2, and_self, if_true]
      · have h2 : ¬ (x < 1024 ∧ n ≤ d * 1024 + x ∧ d * 1024 + x < m ∧ present (pd.pde d) = true ∧
            present (pd.pte d x) = true) := fun h2 => h1 ⟨h2.1, by have := hne h2.1; omega, h2.2.2⟩
        simp only [h1, h2, if_false]

lemma Pgdir.userPage_unmapRange (pd : Pgdir) (n m i : Nat) :
    (pd.unmapRange n m).userPage i = if n ≤ i ∧ i < m then none else pd.userPage i := by
  simp only [Pgdir.userPage, Pgdir.unmapRange_entry]
  by_cases hi : n ≤ i ∧ i < m
  · by_cases hp : present (pd.entry i) = true
    · simp [hi, hp, present_zero]
    · simp [hi, hp]
  · have hin : ¬ (n ≤ i ∧ i < m ∧ present (pd.entry i) = true) := fun h => hi ⟨h.1, h.2.1⟩
    rw [if_neg hin, if_neg hi]

lemma Pgdir.userPagesIn_split (pd : Pgdir) {a b c : Nat} (hab : a ≤ b) (hbc : b ≤ c) :
    pd.userPagesIn a c = pd.userPagesIn a b ++ pd.userPagesIn b c := by
  rw [Pgdir.userPagesIn, Pgdir.userPagesIn, Pgdir.userPagesIn,
    show c - a = (b - a) + (c - b) by omega, held_append, show a + (b - a) = b by omega]

lemma Pgdir.userPages_unmapRange (pd : Pgdir) {n m : Nat} (hnm : n ≤ m) (hm : m ≤ userTop) :
    ((pd.unmapRange n m).userPages ++ pd.userPagesIn n m).Perm pd.userPages := by
  have hsplit : ∀ q : Pgdir,
      q.userPages = q.userPagesIn 0 n ++ q.userPagesIn n m ++ q.userPagesIn m userTop := by
    intro q
    rw [Pgdir.userPages, q.userPagesIn_split (Nat.zero_le n) (hnm.trans hm),
      q.userPagesIn_split hnm hm, List.append_assoc]
  have hlow : (pd.unmapRange n m).userPagesIn 0 n = pd.userPagesIn 0 n :=
    held_congr fun i _ hi => by rw [Pgdir.userPage_unmapRange, if_neg (by omega)]
  have hmid : (pd.unmapRange n m).userPagesIn n m = [] :=
    held_eq_nil fun i hi hi' => by rw [Pgdir.userPage_unmapRange, if_pos ⟨hi, by omega⟩]
  have hhigh : (pd.unmapRange n m).userPagesIn m userTop = pd.userPagesIn m userTop :=
    held_congr fun i hi _ => by rw [Pgdir.userPage_unmapRange, if_neg (by omega)]
  rw [hsplit, hsplit pd, hlow, hmid, hhigh, List.append_nil, List.append_assoc, List.append_assoc]
  exact List.perm_append_comm.append_left _

section Free

variable {kend : Nat}

def Pgdir.Freeable (kend : Nat) (pd : Pgdir) (n m : Nat) : Prop :=
  ∀ i, n ≤ i → i < m → ∀ v, pd.userPage i = some v → Kfreeable kend v

lemma page_lt {n : Nat} (hn : n < userTop) : n < 2 ^ 20 := by
  simp only [userTop, kernBase, pgSize] at hn
  omega

lemma freeFrom_absent {k : Kmem} {pd : Pgdir} {n b fuel : Nat} (hn : n < userTop)
    (hb : ¬ b ≤ n * pgSize) (hpde : present (pd.pde (n / 1024)) = false) :
    freeFrom kend k pd (n * pgSize) b (fuel + 1) =
      freeFrom kend k pd ((n / 1024 + 1) * 1024 * pgSize) b fuel := by
  have hslot : pdx (n * pgSize) + 1 < 1024 := by
    rw [pdx_page (page_lt hn)]
    simp only [userTop, kernBase, pgSize] at hn
    omega
  rw [freeFrom, if_neg hb, walkpgdir_absent (by rwa [pdx_page (page_lt hn)])]
  dsimp only
  rw [pgaddr_slot hslot, pdx_page (page_lt hn)]

lemma freeFrom_unmapped {k : Kmem} {pd : Pgdir} {n b fuel : Nat} (hn : n < userTop)
    (hb : ¬ b ≤ n * pgSize) (hpde : present (pd.pde (n / 1024)) = true)
    (hpte : present (pd.pte (n / 1024) (n % 1024)) = false) :
    freeFrom kend k pd (n * pgSize) b (fuel + 1) = freeFrom kend k pd ((n + 1) * pgSize) b fuel := by
  rw [freeFrom, if_neg hb, walkpgdir_present false (by rwa [pdx_page (page_lt hn)])]
  simp only [pdx_page (page_lt hn), ptx_page, hpte, Bool.false_eq_true, if_false]
  rw [Nat.succ_mul]

lemma freeFrom_mapped {k : Kmem} {pd : Pgdir} {n b fuel : Nat} (hk : kernBase < kend)
    (hn : n < userTop) (hb : ¬ b ≤ n * pgSize) (hpde : present (pd.pde (n / 1024)) = true)
    (hpte : present (pd.pte (n / 1024) (n % 1024)) = true)
    (hfree : Kfreeable kend (p2v (pteAddr (pd.pte (n / 1024) (n % 1024))))) :
    freeFrom kend k pd (n * pgSize) b (fuel + 1) =
      freeFrom kend ⟨p2v (pteAddr (pd.pte (n / 1024) (n % 1024))) :: k.freelist⟩
        (pd.setPte (n / 1024) (n % 1024) 0) ((n + 1) * pgSize) b fuel := by
  have hne : pteAddr (pd.pte (n / 1024) (n % 1024)) ≠ 0 := by
    intro h0
    rw [h0] at hfree
    have := hfree.2.1
    simp only [p2v, kernBase] at this hk
    omega
  rw [freeFrom, if_neg hb, walkpgdir_present false (by rwa [pdx_page (page_lt hn)])]
  simp only [pdx_page (page_lt hn), ptx_page, hpte, if_true, hne, if_false, kfree_of_kfreeable k hfree,
    Option.bind_some]
  rw [Nat.succ_mul]

lemma freeFrom_eq (hk : kernBase < kend) {sz : Nat} (hsz : sz ≤ kernBase) :
    ∀ (fuel n : Nat) (k : Kmem) (pd : Pgdir), pagesBelow sz - n ≤ fuel →
      pd.Freeable kend n (pagesBelow sz) →
      freeFrom kend k pd (n * pgSize) sz fuel =
        some (⟨(pd.userPagesIn n (pagesBelow sz)).reverse ++ k.freelist⟩,
          pd.unmapRange n (pagesBelow sz)) := by
  have htop : pagesBelow sz ≤ userTop := by
    simp only [pagesBelow, userTop, kernBase, pgSize] at hsz ⊢
    omega
  intro fuel
  induction fuel with
  | zero =>
    intro n k pd hfuel _
    have hle : pagesBelow sz ≤ n := by omega
    simp [freeFrom, pd.userPagesIn_of_le hle, pd.unmapRange_of_le hle]
  | succ fuel ih =>
    intro n k pd hfuel hfree
    by_cases hb : sz ≤ n * pgSize
    · have hle : pagesBelow sz ≤ n := le_mul_pgSize_iff.mp hb
      simp [freeFrom, hb, pd.userPagesIn_of_le hle, pd.unmapRange_of_le hle]
    have hlt : n < pagesBelow sz := by
      have := mt le_mul_pgSize_iff.mpr hb
      omega
    have hn : n < userTop := by omega
    by_cases hpde : present (pd.pde (n / 1024)) = true
    · by_cases hpte : present (pd.pte (n / 1024) (n % 1024)) = true
      · have hentry : pd.entry n = pd.pte (n / 1024) (n % 1024) := Pgdir.entry_of_present hpde
        have huser : pd.userPage n = some (p2v (pteAddr (pd.pte (n / 1024) (n % 1024)))) := by
          simp [Pgdir.userPage, hentry, hpte]
        have hkf := hfree n le_rfl hlt _ huser
        have hsame : ∀ i, n + 1 ≤ i →
            (pd.setPte (n / 1024) (n % 1024) 0).userPage i = pd.userPage i :=
          fun i hi => pd.userPage_setPte_of_ne 0 (by omega)
        have hfree' : (pd.setPte (n / 1024) (n % 1024) 0).Freeable kend (n + 1) (pagesBelow sz) :=
          fun i hi hi' v hv => hfree i (by omega) hi' v (by rwa [hsame i hi] at hv)
        rw [freeFrom_mapped hk hn hb hpde hpte hkf, ih _ _ _ (by omega) hfree',
          pd.userPagesIn_succ hlt, huser, pd.unmapRange_setPte hlt hpde hpte]
        have hrest : (pd.setPte (n / 1024) (n % 1024) 0).userPagesIn (n + 1) (pagesBelow sz) =
            pd.userPagesIn (n + 1) (pagesBelow sz) :=
          held_congr fun i hi _ => hsame i hi
        simp [hrest]
      · have hpte' : present (pd.pte (n / 1024) (n % 1024)) = false := by simpa using hpte
        have hentry : present (pd.entry n) = false := by rw [Pgdir.entry_of_present hpde]; exact hpte'
        rw [freeFrom_unmapped hn hb hpde hpte',
          ih _ _ _ (by omega) (fun i hi hi' => hfree i (by omega) hi'),
          pd.userPagesIn_skip (Nat.le_succ n) (fun i hi hi' => by rwa [show i = n by omega]),
          pd.unmapRange_congr n (n + 1)
            (fun i hi hi' => by rwa [show i = n by omega])]
    · have hpde' : present (pd.pde (n / 1024)) = false := by simpa using hpde
      have hnext : n < (n / 1024 + 1) * 1024 := by omega
      have hempty : ∀ i, n ≤ i → i < (n / 1024 + 1) * 1024 → present (pd.entry i) = false := by
        intro i hi hi'
        rw [Pgdir.entry_of_absent (by rwa [show i / 1024 = n / 1024 by omega]), present_zero]
      rw [freeFrom_absent hn hb hpde',
        ih _ _ _ (by omega) (fun i hi hi' => hfree i (by omega) hi'),
        ← pd.userPagesIn_skip hnext.le hempty,
        pd.unmapRange_congr n ((n / 1024 + 1) * 1024)
          (fun i hi hi' => hempty i (by omega) (by omega))]

lemma freeTables_eq {pd : Pgdir} : ∀ (k : Kmem) (ds : List Nat),
    (∀ d ∈ ds, ∀ v, pd.tablePage d = some v → Kfreeable kend v) →
    freeTables kend k pd ds = some ⟨(ds.filterMap pd.tablePage).reverse ++ k.freelist⟩
  | k, [], _ => rfl
  | k, d :: ds, h => by
    have hrest := fun k => freeTables_eq k ds (fun d' hd' => h d' (List.mem_cons_of_mem d hd'))
    by_cases hp : present (pd.pde d) = true
    · have hv : pd.tablePage d = some (p2v (pteAddr (pd.pde d))) := by simp [Pgdir.tablePage, hp]
      rw [freeTables, if_pos hp, kfree_of_kfreeable k (h d List.mem_cons_self _ hv), Option.bind_some,
        hrest, List.filterMap_cons, hv]
      simp
    · have hv : pd.tablePage d = none := by simp [Pgdir.tablePage, hp]
      rw [freeTables, if_neg hp, hrest, List.filterMap_cons, hv]

lemma Pgdir.mem_userPages {pd : Pgdir} {v : Nat} :
    v ∈ pd.userPages ↔ ∃ i, i < userTop ∧ pd.userPage i = some v := by
  simp [Pgdir.userPages, Pgdir.userPagesIn, mem_held]

lemma Pgdir.mem_tablePages {pd : Pgdir} {v : Nat} :
    v ∈ pd.tablePages ↔ ∃ d, d < nPdentries ∧ pd.tablePage d = some v := by
  simp [Pgdir.tablePages, mem_held]

lemma Kfreeable.ne_zero {v : Nat} (hk : kernBase < kend) (h : Kfreeable kend v) : v ≠ 0 := by
  have := h.2.1
  omega

theorem deallocuvm_eq (hk : kernBase < kend) {k : Kmem} {pd : Pgdir} {oldsz newsz : Nat}
    (hlt : newsz < oldsz) (hold : oldsz ≤ kernBase)
    (hfree : pd.Freeable kend (pagesBelow newsz) (pagesBelow oldsz)) :
    deallocuvm kend k pd oldsz newsz =
      some (⟨(pd.userPagesIn (pagesBelow newsz) (pagesBelow oldsz)).reverse ++ k.freelist⟩,
        pd.unmapRange (pagesBelow newsz) (pagesBelow oldsz), newsz) := by
  have hround : pgroundup newsz = pagesBelow newsz * pgSize :=
    pgroundup_eq (by simp only [kernBase, pgSize] at hold ⊢; omega)
  have hfuel : pagesBelow oldsz - pagesBelow newsz ≤ oldsz / pgSize + 1 := by
    simp only [pagesBelow, pgSize]
    omega
  rw [deallocuvm, if_neg (not_le.mpr hlt), hround, freeFrom_eq hk hold _ _ _ _ hfuel hfree]
  rfl

theorem freevm_eq (hk : kernBase < kend) {k : Kmem} {dir : Nat} {pd : Pgdir}
    (h : ∀ v ∈ pd.owned dir, Kfreeable kend v) :
    freevm kend k dir pd = some ⟨(pd.owned dir).reverse ++ k.freelist⟩ := by
  have hdir : Kfreeable kend dir := h dir (by simp [Pgdir.owned])
  have huser : pd.Freeable kend 0 userTop := fun i _ hi v hv =>
    h v (by simp only [Pgdir.owned, List.mem_append]; exact .inl (.inl (Pgdir.mem_userPages.mpr ⟨i, hi, hv⟩)))
  have htable : ∀ d ∈ List.range nPdentries, ∀ v, pd.tablePage d = some v → Kfreeable kend v :=
    fun d hd v hv => h v (by
      simp only [Pgdir.owned, List.mem_append]
      exact .inl (.inr (Pgdir.mem_tablePages.mpr ⟨d, List.mem_range.mp hd, hv⟩)))
  have hdealloc : deallocuvm kend k pd kernBase 0 =
      some (⟨pd.userPages.reverse ++ k.freelist⟩, pd.unmapRange 0 userTop, 0) :=
    deallocuvm_eq hk (by decide) le_rfl huser
  have htables : freeTables kend ⟨pd.userPages.reverse ++ k.freelist⟩ (pd.unmapRange 0 userTop)
      (List.range nPdentries) = some ⟨pd.tablePages.reverse ++ (pd.userPages.reverse ++ k.freelist)⟩ := by
    rw [@freeTables_eq kend (pd.unmapRange 0 userTop) _ _ htable, List.range_eq_range']
    rfl
  rw [freevm, if_neg (hdir.ne_zero hk)]
  simp only [hdealloc, htables, Option.bind_eq_bind, Option.bind_some, kfree_of_kfreeable _ hdir]
  simp [Pgdir.owned]

end Free

lemma Pgdir.userPages_install {pd : Pgdir} {d w : Nat} (h : present (pd.pde d) = false) :
    (pd.install d w).userPages = pd.userPages := by
  refine held_congr fun n _ _ => ?_
  simp only [Pgdir.userPage, Pgdir.entry_install]
  by_cases hn : n / 1024 = d
  · rw [if_pos hn, Pgdir.entry_of_absent (by rwa [hn])]
  · rw [if_neg hn]

lemma Pgdir.tablePages_install (pd : Pgdir) {d w : Nat} (hd : d < nPdentries)
    (h : present (pd.pde d) = false) (hw : present w = true) :
    (pd.install d w).tablePages.Perm (p2v (pteAddr w) :: pd.tablePages) := by
  refine held_perm_of_update (Nat.zero_le d) (by simpa using hd) (fun i hi => ?_) ?_ ?_
  · simp [Pgdir.tablePage, Function.update_of_ne hi]
  · simp [Pgdir.tablePage, h]
  · simp [Pgdir.tablePage, hw]

@[simp] lemma Pgdir.tablePages_setPte (pd : Pgdir) (d x w : Nat) :
    (pd.setPte d x w).tablePages = pd.tablePages := rfl

lemma Pgdir.userPages_setPte_map {pd : Pgdir} {n w : Nat} (hn : n < userTop)
    (hpde : present (pd.pde (n / 1024)) = true) (hentry : present (pd.entry n) = false)
    (hw : present w = true) :
    (pd.setPte (n / 1024) (n % 1024) w).userPages.Perm (p2v (pteAddr w) :: pd.userPages) := by
  refine held_perm_of_update (Nat.zero_le n) (by simpa using hn)
    (fun i hi => pd.userPage_setPte_of_ne w hi) (Pgdir.userPage_eq_none.mpr hentry) ?_
  simp [Pgdir.userPage, Pgdir.entry_setPte, hpde, hw]

lemma Pgdir.userPages_setPte_same {pd : Pgdir} {n w : Nat}
    (hpde : present (pd.pde (n / 1024)) = true)
    (hw : present w = present (pd.pte (n / 1024) (n % 1024)))
    (haddr : pteAddr w = pteAddr (pd.pte (n / 1024) (n % 1024))) :
    (pd.setPte (n / 1024) (n % 1024) w).userPages = pd.userPages := by
  refine held_congr fun i _ _ => ?_
  by_cases hi : i = n
  · subst hi
    simp [Pgdir.userPage, Pgdir.entry_setPte, Pgdir.entry_of_present hpde, hpde, hw, haddr]
  · exact pd.userPage_setPte_of_ne w hi

lemma Pgdir.userPages_empty : Pgdir.empty.userPages = [] :=
  held_eq_nil fun i _ _ => by simp [Pgdir.userPage, present_zero]

lemma Pgdir.tablePages_empty : Pgdir.empty.tablePages = [] :=
  held_eq_nil fun i _ _ => by simp [Pgdir.tablePage, Pgdir.empty, present_zero]

example :
    freevm 0x80400000 ⟨[]⟩ 0x80400000
      ((Pgdir.empty.install 0 (v2p 0x80401000 + 7)).setPte 0 0 (v2p 0x80402000 + 7)) =
      some ⟨[0x80400000, 0x80401000, 0x80402000]⟩ := by
  have hpde : present ((Pgdir.empty.install 0 (v2p 0x80401000 + 7)).pde 0) = true := by decide
  have hentry : present ((Pgdir.empty.install 0 (v2p 0x80401000 + 7)).entry 0) = false := by
    simp [Pgdir.entry_install, present_zero]
  have huser := Pgdir.userPages_setPte_map (n := 0) (w := v2p 0x80402000 + 7) (by decide) hpde hentry
    (by decide)
  rw [Pgdir.userPages_install (by decide), Pgdir.userPages_empty] at huser
  have htable := Pgdir.empty.tablePages_install (d := 0) (w := v2p 0x80401000 + 7)
    (by decide) (by decide) (by decide)
  rw [Pgdir.tablePages_empty] at htable
  have howned : ((Pgdir.empty.install 0 (v2p 0x80401000 + 7)).setPte 0 0 (v2p 0x80402000 + 7)).owned
      0x80400000 = [0x80402000, 0x80401000, 0x80400000] := by
    rw [Pgdir.owned, List.perm_singleton.mp huser, Pgdir.tablePages_setPte,
      List.perm_singleton.mp htable]
    rfl
  rw [freevm_eq (by decide) (by rw [howned]; decide), howned]
  rfl

end Xv6.Vm
