import Xv6.Vm.Memory
import Xv6.Lib.Bytes

/-! The user half of `vm.c` that `exec` drives: `setupkvm`, `allocuvm`, `loaduvm`, `clearpteu`,
`uva2ka`, `copyout` and `freevm`, over the allocator, the page directory they are handed and
memory as the kernel addresses it (`P2V` of each physical page).

A page directory is a page of its own, `dir`, with the entries of `Pgdir`; page-table pages and
the page directory are kept apart from `mem`, whose bytes are those of the data pages. `readi`
on the program's inode is `readi` on its bytes. `none` is a panic, or a read through the null
`pte` that `uva2ka` does not check for. -/

namespace Xv6.Vm

def extmem : Nat := 0x100000
def devspace : Nat := 0xFE000000
def kernlink : Nat := kernBase + extmem
def nPdentries : Nat := 1024

structure Space where
  kmem : Kmem
  mem : Bytes.Buf
  pd : Pgdir

def readi (content : List UInt8) (off n : Nat) : Int × List UInt8 :=
  if content.length < off ∨ 2 ^ 32 ≤ off + n then (-1, [])
  else
    let n := if content.length < off + n then content.length - off else n
    (n, (content.drop off).take n)

structure Kmap where
  virt : Nat
  physStart : Nat
  physEnd : Nat
  perm : Nat

def kmap (data : Nat) : List Kmap :=
  [⟨kernBase, 0, extmem, pteWritable⟩, ⟨kernlink, v2p kernlink, v2p data, 0⟩,
    ⟨data, v2p data, phystop, pteWritable⟩, ⟨devspace, devspace, 0, pteWritable⟩]

def mapKmap (k : Kmem) (pd : Pgdir) : List Kmap → Option (Kmem × Pgdir × Bool)
  | [] => some (k, pd, true)
  | e :: es => do
    let (k, pd, r) ← mappages k pd e.virt (CInt.toUint ((e.physEnd : Int) - e.physStart))
      e.physStart e.perm
    if r < 0 then some (k, pd, false) else mapKmap k pd es

def freeTables (kend : Nat) (k : Kmem) (pd : Pgdir) : List Nat → Option Kmem
  | [] => some k
  | i :: is =>
    if present (pd.pde i) then
      (kfree kend k (p2v (pteAddr (pd.pde i)))).bind fun k => freeTables kend k pd is
    else freeTables kend k pd is

def freevm (kend : Nat) (k : Kmem) (dir : Nat) (pd : Pgdir) : Option Kmem :=
  if dir = 0 then none
  else do
    let (k, pd, _) ← deallocuvm kend k pd kernBase 0
    let k ← freeTables kend k pd (List.range nPdentries)
    kfree kend k dir

def setupkvm (kend data : Nat) (k : Kmem) : Option (Kmem × Option (Nat × Pgdir)) :=
  match kalloc k with
  | none => some (k, none)
  | some (dir, k) =>
    if devspace < p2v phystop then none
    else do
      let (k, pd, ok) ← mapKmap k .empty (kmap data)
      if ok then some (k, some (dir, pd))
      else (freevm kend k dir pd).map fun k => (k, none)

def allocuvmLoop (kend oldsz newsz : Nat) (s : Space) : Nat → Nat → Option (Space × Nat)
  | 0, _ => none
  | fuel + 1, a =>
    if a < newsz then
      match kalloc s.kmem with
      | none => (deallocuvm kend s.kmem s.pd newsz oldsz).map fun d => ({ s with kmem := d.1, pd := d.2.1 }, 0)
      | some (page, k) =>
        let mem := Bytes.write s.mem page (List.replicate pgSize 0)
        match mappages k s.pd a pgSize (v2p page) (pteWritable ||| pteUser) with
        | none => none
        | some (k, pd, r) =>
          if r < 0 then do
            let (k, pd, _) ← deallocuvm kend k pd newsz oldsz
            let k ← kfree kend k page
            some (⟨k, mem, pd⟩, 0)
          else allocuvmLoop kend oldsz newsz ⟨k, mem, pd⟩ fuel (a + pgSize)
    else some (s, newsz)

def allocuvm (kend : Nat) (s : Space) (oldsz newsz : Nat) : Option (Space × Nat) :=
  if kernBase ≤ newsz then some (s, 0)
  else if newsz < oldsz then some (s, oldsz)
  else allocuvmLoop kend oldsz newsz s (newsz / pgSize + 2) (pgroundup oldsz)

def loaduvmLoop (content : List UInt8) (addr offset sz : Nat) (s : Space) : Nat → Nat → Option (Space × Int)
  | 0, _ => none
  | fuel + 1, i =>
    if i < sz then
      match walkpgdir s.kmem s.pd ((addr + i) % 2 ^ 32) false with
      | none => none
      | some (_, _, d, x) =>
        let pa := pteAddr (s.pd.pte d x)
        let n := if sz - i < pgSize then sz - i else pgSize
        let (r, bytes) := readi content ((offset + i) % 2 ^ 32) n
        let s := { s with mem := Bytes.write s.mem (p2v pa) bytes }
        if r ≠ n then some (s, -1)
        else loaduvmLoop content addr offset sz s fuel ((i + pgSize) % 2 ^ 32)
    else some (s, 0)

def loaduvm (s : Space) (addr : Nat) (content : List UInt8) (offset sz : Nat) : Option (Space × Int) :=
  if addr % pgSize ≠ 0 then none
  else loaduvmLoop content addr offset sz s (sz / pgSize + 2) 0

def clearpteu (s : Space) (uva : Nat) : Option Space :=
  match walkpgdir s.kmem s.pd uva false with
  | none => none
  | some (_, _, d, x) => some { s with pd := s.pd.setPte d x (s.pd.pte d x &&& 0xFFFFFFFB) }

def uva2ka (k : Kmem) (pd : Pgdir) (uva : Nat) : Option (Option Nat) :=
  match walkpgdir k pd uva false with
  | none => none
  | some (_, _, d, x) =>
    if pd.pte d x &&& ptePresent = 0 then some none
    else if pd.pte d x &&& pteUser = 0 then some none
    else some (some (p2v (pteAddr (pd.pte d x))))

def copyoutLoop (s : Space) : Nat → Nat → List UInt8 → Option (Space × Int)
  | _, _, [] => some (s, 0)
  | 0, _, _ :: _ => none
  | fuel + 1, va, buf@(_ :: _) =>
    let va0 := pgrounddown va
    match uva2ka s.kmem s.pd va0 with
    | none => none
    | some none => some (s, -1)
    | some (some pa0) =>
      let n := min (pgSize - (va - va0)) buf.length
      copyoutLoop { s with mem := Bytes.write s.mem (pa0 + (va - va0)) (buf.take n) } fuel
        ((va0 + pgSize) % 2 ^ 32) (buf.drop n)

def copyout (s : Space) (va : Nat) (p : List UInt8) : Option (Space × Int) :=
  copyoutLoop s p.length va p

end Xv6.Vm
