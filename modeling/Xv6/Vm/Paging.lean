import Xv6.Vm.Memory
import Mathlib.Data.Nat.Bitwise

/-! The arithmetic of addresses and page-table entries, and one step of the page-table code:
`walkpgdir`, and `mappages` of a single page.

`Pgdir.entry pd n` is the entry the hardware reads for the page numbered `n`: the one in its
page-table page when the directory entry is present, and `0` otherwise. Ownership and
translation are stated over it, page by page, so that the slot arithmetic of `PDX` and `PTX`
is done once, here. -/

namespace Xv6.Vm

lemma and_highMask {a : Nat} (b : Nat) (ha : a < 2 ^ 32) :
    a &&& ((2 ^ (32 - b) - 1) <<< b) = a / 2 ^ b * 2 ^ b := by
  have hround : a / 2 ^ b * 2 ^ b = (a >>> b) <<< b := by
    simp [Nat.shiftLeft_eq, Nat.shiftRight_eq_div_pow]
  rw [hround]
  apply Nat.eq_of_testBit_eq
  intro i
  simp only [Nat.testBit_and, Nat.testBit_shiftLeft, Nat.testBit_shiftRight,
    Nat.testBit_two_pow_sub_one]
  by_cases hi : b ≤ i
  · by_cases hlt : i < 32
    · simp [hi, show i - b < 32 - b by omega, show b + (i - b) = i by omega]
    · have hbit : a.testBit i = false :=
        Nat.testBit_eq_false_of_lt (lt_of_lt_of_le ha (Nat.pow_le_pow_right (by omega) (by omega)))
      simp [hi, show b + (i - b) = i by omega, hbit]
  · simp [hi]

lemma pgrounddown_eq {a : Nat} (ha : a < 2 ^ 32) : pgrounddown a = a / pgSize * pgSize :=
  and_highMask 12 ha

lemma and_not_three {a : Nat} (ha : a < 2 ^ 32) : a &&& 0xFFFFFFFC = a / 4 * 4 :=
  and_highMask 2 ha

lemma pteAddr_eq {w : Nat} (hw : w < 2 ^ 32) : pteAddr w = w / pgSize * pgSize :=
  pgrounddown_eq hw

lemma or_eq_add {pa f : Nat} (hpa : pa % pgSize = 0) (hf : f < pgSize) : pa ||| f = pa + f := by
  obtain ⟨q, rfl⟩ : ∃ q, pa = 2 ^ 12 * q := ⟨pa / 4096, by simp only [pgSize] at hpa; omega⟩
  exact (Nat.two_pow_add_eq_or_of_lt hf q).symm

lemma pteAddr_add {pa f : Nat} (hpa : pa % pgSize = 0) (hpa' : pa < 2 ^ 32) (hf : f < pgSize) :
    pteAddr (pa + f) = pa := by
  have hlt : pa + f < 2 ^ 32 := by simp only [pgSize] at hpa hf; omega
  rw [pteAddr_eq hlt]
  simp only [pgSize] at hpa hf ⊢
  omega

lemma present_iff (w : Nat) : present w = true ↔ w % 2 = 1 := by
  have h1 : (ptePresent : Nat) = 2 ^ 1 - 1 := rfl
  simp only [present, h1, Nat.and_two_pow_sub_one_eq_mod, bne_iff_ne, ne_eq]
  omega

lemma present_zero : present 0 = false := rfl

lemma present_add {pa f : Nat} (hpa : pa % pgSize = 0) : present (pa + f) = present f := by
  apply Bool.eq_iff_iff.mpr
  rw [present_iff, present_iff]
  simp only [pgSize] at hpa
  omega

lemma pteAddr_clearUser (w : Nat) : pteAddr (w &&& 0xFFFFFFFB) = pteAddr w := by
  simp only [pteAddr, Nat.land_assoc]
  rfl

lemma present_clearUser (w : Nat) : present (w &&& 0xFFFFFFFB) = present w := by
  simp only [present, ptePresent, Nat.land_assoc]
  rfl

lemma pdx_eq {va : Nat} (h : va < 2 ^ 32) : pdx va = va / pgSize / 1024 := by
  have hmask : (0x3FF : Nat) = 2 ^ 10 - 1 := rfl
  rw [pdx, pdxShift, Nat.shiftRight_eq_div_pow, hmask, Nat.and_two_pow_sub_one_eq_mod]
  simp only [pgSize]
  omega

lemma ptx_eq (va : Nat) : ptx va = va / pgSize % 1024 := by
  have hmask : (0x3FF : Nat) = 2 ^ 10 - 1 := rfl
  rw [ptx, ptxShift, Nat.shiftRight_eq_div_pow, hmask, Nat.and_two_pow_sub_one_eq_mod]
  rfl

lemma pdx_page {n : Nat} (hn : n < 2 ^ 20) : pdx (n * pgSize) = n / 1024 := by
  rw [pdx_eq (by simp only [pgSize]; omega)]
  simp [pgSize]

lemma ptx_page (n : Nat) : ptx (n * pgSize) = n % 1024 := by
  rw [ptx_eq]
  simp [pgSize]

lemma pgaddr_slot {d : Nat} (hd : d < 1024) : pgaddr d 0 0 = d * 1024 * pgSize := by
  have h : (d <<< pdxShift ||| 0 <<< ptxShift ||| 0) = d * 1024 * pgSize := by
    simp [Nat.shiftLeft_eq, pdxShift, pgSize]
    ring
  rw [pgaddr, h]
  simp only [pgSize]
  omega

attribute [ext] Pgdir

def Pgdir.entry (pd : Pgdir) (n : Nat) : Nat :=
  if present (pd.pde (n / 1024)) then pd.pte (n / 1024) (n % 1024) else 0

lemma Pgdir.entry_of_present {pd : Pgdir} {n : Nat} (h : present (pd.pde (n / 1024)) = true) :
    pd.entry n = pd.pte (n / 1024) (n % 1024) := by
  simp [Pgdir.entry, h]

lemma Pgdir.entry_of_absent {pd : Pgdir} {n : Nat} (h : present (pd.pde (n / 1024)) = false) :
    pd.entry n = 0 := by
  simp [Pgdir.entry, h]

lemma Pgdir.pde_of_entry {pd : Pgdir} {n : Nat} (h : present (pd.entry n) = true) :
    present (pd.pde (n / 1024)) = true := by
  by_contra hpde
  rw [Pgdir.entry_of_absent (Bool.eq_false_iff.mpr hpde), present_zero] at h
  exact Bool.false_ne_true h

@[simp] lemma Pgdir.entry_empty (n : Nat) : Pgdir.empty.entry n = 0 := by
  simp [Pgdir.entry, Pgdir.empty, present_zero]

lemma Pgdir.entry_setPte (pd : Pgdir) (d x w n : Nat) :
    (pd.setPte d x w).entry n =
      if n / 1024 = d ∧ n % 1024 = x ∧ present (pd.pde d) = true then w else pd.entry n := by
  by_cases hn : n / 1024 = d ∧ n % 1024 = x
  · obtain ⟨rfl, rfl⟩ := hn
    by_cases hp : present (pd.pde (n / 1024)) = true
    · simp [Pgdir.entry, hp]
    · simp [Pgdir.entry, hp]
  · have hne : (n / 1024, n % 1024) ≠ (d, x) := fun h => hn (Prod.mk.inj h)
    rw [if_neg (fun h => hn ⟨h.1, h.2.1⟩)]
    simp only [Pgdir.entry, setPte_pde, setPte_pte_of_ne pd w hne]

lemma Pgdir.entry_setPte_page (pd : Pgdir) (n w i : Nat) :
    (pd.setPte (n / 1024) (n % 1024) w).entry i =
      if i = n ∧ present (pd.pde (n / 1024)) = true then w else pd.entry i := by
  rw [Pgdir.entry_setPte]
  by_cases hi : i = n
  · subst hi
    simp
  · rw [if_neg (fun h => hi (by omega)), if_neg (fun h => hi h.1)]

lemma Pgdir.entry_install (pd : Pgdir) (d w n : Nat) :
    (pd.install d w).entry n = if n / 1024 = d then 0 else pd.entry n := by
  by_cases hn : n / 1024 = d
  · subst hn
    simp [Pgdir.entry, Pgdir.install]
  · simp [Pgdir.entry, Pgdir.install, hn]

@[simp] lemma Pgdir.install_pde (pd : Pgdir) (d w : Nat) :
    (pd.install d w).pde = Function.update pd.pde d w := rfl

lemma walkpgdir_alloc {pd : Pgdir} {va t : Nat} {rest : List Nat}
    (h : present (pd.pde (pdx va)) = false) :
    walkpgdir ⟨t :: rest⟩ pd va true =
      some (⟨rest⟩, pd.install (pdx va) (v2p t ||| ptePresent ||| pteWritable ||| pteUser),
        pdx va, ptx va) := by
  simp [walkpgdir, h]

lemma walkpgdir_alloc_nil {pd : Pgdir} {va : Nat} (h : present (pd.pde (pdx va)) = false) :
    walkpgdir ⟨[]⟩ pd va true = none := by
  simp [walkpgdir, h]

lemma tableEntry_eq {t : Nat} (ht : t % pgSize = 0) :
    v2p t ||| ptePresent ||| pteWritable ||| pteUser = v2p t + 7 := by
  have hv : v2p t % pgSize = 0 := by
    simp only [v2p, kernBase, pgSize] at ht ⊢
    omega
  rw [Nat.or_assoc, Nat.or_assoc, or_eq_add hv (by decide)]
  rfl

lemma mappages_page {k : Kmem} {pd : Pgdir} {a pa perm : Nat} (ha : a % pgSize = 0)
    (ha' : a + pgSize ≤ 2 ^ 32) :
    mappages k pd a pgSize pa perm =
      match walkpgdir k pd a true with
      | none => some (k, pd, -1)
      | some (k', pd', d, x) =>
        if present (pd'.pte d x) then none
        else some (k', pd'.setPte d x (pa ||| perm ||| ptePresent), 0) := by
  have hfirst : pgrounddown a = a := by
    rw [pgrounddown_eq (by simp only [pgSize] at ha'; omega)]
    simp only [pgSize] at ha ⊢
    omega
  have hsum : CInt.toUint ((a : Int) + (pgSize : Int) - 1) = a + 4095 := by
    have hps : (pgSize : Int) = 4096 := rfl
    rw [hps, CInt.toUint_of_range (by omega) (by simp only [pgSize] at ha'; omega)]
    omega
  have hlast : pgrounddown (CInt.toUint ((a : Int) + (pgSize : Int) - 1)) = a := by
    rw [hsum, pgrounddown_eq (by simp only [pgSize] at ha'; omega)]
    simp only [pgSize] at ha ⊢
    omega
  simp only [mappages, hfirst, hlast, sub_self, mapFrom]
  rcases walkpgdir k pd a true with _ | ⟨k', pd', d, x⟩
  · rfl
  · simp only [if_true]

end Xv6.Vm
