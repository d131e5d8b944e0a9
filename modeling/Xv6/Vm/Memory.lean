import Xv6.Param
import Xv6.Lib.CInt
import Mathlib.Logic.Function.Basic
import Mathlib.Tactic.TypeStar

/-! Physical pages and page tables, from `kalloc.c` and the page-table half of `vm.c`.

The allocator's free list is the list of free pages, head first: `kfree` pushes and `kalloc`
pops. A page directory keeps its directory entries and, for each directory slot, the entries of
that slot's page-table page; the words are the hardware's (`PTE_ADDR | flags`). Addresses are
`uint` values, so sums are reduced modulo `2 ^ 32` where the source adds. -/

namespace Xv6.Vm

structure Kmem where
  freelist : List Nat
deriving DecidableEq, Repr

def kalloc (k : Kmem) : Option (Nat × Kmem) :=
  match k.freelist with
  | [] => none
  | r :: rest => some (r, ⟨rest⟩)

def kfree (kend : Nat) (k : Kmem) (v : Nat) : Option Kmem :=
  if v % pgSize ≠ 0 ∨ v < kend ∨ phystop ≤ v2p v then none else some ⟨v :: k.freelist⟩

structure Pgdir where
  pde : Nat → Nat
  pte : Nat → Nat → Nat

def Pgdir.empty : Pgdir := ⟨fun _ => 0, fun _ _ => 0⟩

def Pgdir.setPte (pd : Pgdir) (d x w : Nat) : Pgdir :=
  { pd with pte := Function.update pd.pte d (Function.update (pd.pte d) x w) }

def Pgdir.install (pd : Pgdir) (d w : Nat) : Pgdir :=
  ⟨Function.update pd.pde d w, Function.update pd.pte d (fun _ => 0)⟩

def pdx (va : Nat) : Nat := (va >>> pdxShift) &&& 0x3FF
def ptx (va : Nat) : Nat := (va >>> ptxShift) &&& 0x3FF
def pgaddr (d t o : Nat) : Nat := ((d <<< pdxShift) ||| (t <<< ptxShift) ||| o) % 4294967296
def pgroundup (sz : Nat) : Nat := (sz + pgSize - 1) &&& 0xFFFFF000
def pgrounddown (a : Nat) : Nat := a &&& 0xFFFFF000
def pteAddr (w : Nat) : Nat := w &&& 0xFFFFF000

def present (w : Nat) : Bool := w &&& ptePresent != 0

def Pgdir.translate (pd : Pgdir) (va : Nat) : Option Nat :=
  if present (pd.pde (pdx va)) && present (pd.pte (pdx va) (ptx va)) then
    some (pteAddr (pd.pte (pdx va) (ptx va)))
  else none

def walkpgdir (k : Kmem) (pd : Pgdir) (va : Nat) (alloc : Bool) : Option (Kmem × Pgdir × Nat × Nat) :=
  if present (pd.pde (pdx va)) then some (k, pd, pdx va, ptx va)
  else if !alloc then none
  else
    match kalloc k with
    | none => none
    | some (pgtab, k') =>
      some (k', pd.install (pdx va) (v2p pgtab ||| ptePresent ||| pteWritable ||| pteUser), pdx va, ptx va)

def mapFrom (k : Kmem) (pd : Pgdir) (a last pa perm : Nat) : Nat → Option (Kmem × Pgdir × Int)
  | 0 => some (k, pd, 0)
  | n + 1 =>
    match walkpgdir k pd a true with
    | none => some (k, pd, -1)
    | some (k', pd', d, x) =>
      if present (pd'.pte d x) then none
      else
        let pd'' := pd'.setPte d x (pa ||| perm ||| ptePresent)
        if a = last then some (k', pd'', 0)
        else mapFrom k' pd'' ((a + pgSize) % 4294967296) last ((pa + pgSize) % 4294967296) perm n

def mappages (k : Kmem) (pd : Pgdir) (va size pa perm : Nat) : Option (Kmem × Pgdir × Int) :=
  let a := pgrounddown va
  let last := pgrounddown (CInt.toUint (va + size - 1))
  mapFrom k pd a last pa perm (CInt.toUint (last - a) / pgSize + 1)

def freeFrom (kend : Nat) (k : Kmem) (pd : Pgdir) (a oldsz : Nat) : Nat → Option (Kmem × Pgdir)
  | 0 => some (k, pd)
  | n + 1 =>
    if oldsz ≤ a then some (k, pd)
    else
      match walkpgdir k pd a false with
      | none => freeFrom kend k pd (pgaddr (pdx a + 1) 0 0) oldsz n
      | some (_, _, d, x) =>
        if present (pd.pte d x) then
          if pteAddr (pd.pte d x) = 0 then none
          else
            (kfree kend k (p2v (pteAddr (pd.pte d x)))).bind fun k' =>
              freeFrom kend k' (pd.setPte d x 0) (a + pgSize) oldsz n
        else freeFrom kend k pd (a + pgSize) oldsz n

def deallocuvm (kend : Nat) (k : Kmem) (pd : Pgdir) (oldsz newsz : Nat) : Option (Kmem × Pgdir × Nat) :=
  if oldsz ≤ newsz then some (k, pd, oldsz)
  else (freeFrom kend k pd (pgroundup newsz) oldsz (oldsz / pgSize + 1)).map fun r => (r.1, r.2, newsz)

@[simp] lemma kalloc_cons (r : Nat) (rest : List Nat) : kalloc ⟨r :: rest⟩ = some (r, ⟨rest⟩) := rfl

@[simp] lemma kalloc_nil : kalloc ⟨[]⟩ = none := rfl

lemma kfree_freelist {kend : Nat} {k k' : Kmem} {v : Nat} (h : kfree kend k v = some k') :
    k'.freelist = v :: k.freelist := by
  unfold kfree at h
  split at h
  · cases h
  · cases h
    rfl

lemma deallocuvm_of_le (kend : Nat) (k : Kmem) (pd : Pgdir) {oldsz newsz : Nat} (h : oldsz ≤ newsz) :
    deallocuvm kend k pd oldsz newsz = some (k, pd, oldsz) := by
  simp [deallocuvm, h]

@[simp] lemma setPte_pte (pd : Pgdir) (d x w : Nat) :
    (pd.setPte d x w).pte d x = w := by
  simp [Pgdir.setPte]

lemma setPte_pte_of_ne (pd : Pgdir) {d x d' x' : Nat} (w : Nat) (h : (d', x') ≠ (d, x)) :
    (pd.setPte d x w).pte d' x' = pd.pte d' x' := by
  unfold Pgdir.setPte
  by_cases hd : d' = d
  · subst hd
    have hx : x' ≠ x := fun hx => h (by rw [hx])
    simp [hx]
  · simp [hd]

@[simp] lemma setPte_pde (pd : Pgdir) (d x w : Nat) : (pd.setPte d x w).pde = pd.pde := rfl

lemma walkpgdir_present {k : Kmem} {pd : Pgdir} {va : Nat} (alloc : Bool)
    (h : present (pd.pde (pdx va)) = true) :
    walkpgdir k pd va alloc = some (k, pd, pdx va, ptx va) := by
  simp [walkpgdir, h]

lemma walkpgdir_absent {k : Kmem} {pd : Pgdir} {va : Nat}
    (h : present (pd.pde (pdx va)) = false) : walkpgdir k pd va false = none := by
  simp [walkpgdir, h]

end Xv6.Vm
