import Xv6.Vm.Uvm
import Xv6.Shm.Region
import Xv6.Process.Table

/-! `exec` of `exec.c`, from the moment `namei` has looked the path up: the ELF header, the loop
that loads each program segment, the stack of arguments, and the commit of the new image, with
the `goto bad` that frees a half-built one.

The program is given by the bytes of its inode, `none` when `namei` finds nothing. A process's
image is its page directory (the page `dir`, with the entries kept by `Shm.State`), its size, the
two registers of its trap frame that `exec` writes, and its name. -/

namespace Xv6.Exec

open Vm

def elfMagic : Nat := 0x464C457F
def elfProgLoad : Nat := 1
def maxarg : Nat := 32

def le16 (b : List UInt8) (o : Nat) : Nat := (b.getD o 0).toNat + 256 * (b.getD (o + 1) 0).toNat

def le32 (b : List UInt8) (o : Nat) : Nat := le16 b o + 65536 * le16 b (o + 2)

structure Elfhdr where
  magic : Nat
  entry : Nat
  phoff : Nat
  phnum : Nat

def Elfhdr.ofBytes (b : List UInt8) : Elfhdr := ⟨le32 b 0, le32 b 24, le32 b 28, le16 b 44⟩

structure Proghdr where
  type : Nat
  off : Nat
  vaddr : Nat
  filesz : Nat
  memsz : Nat

def Proghdr.ofBytes (b : List UInt8) : Proghdr := ⟨le32 b 0, le32 b 4, le32 b 8, le32 b 16, le32 b 20⟩

def loadSegments (kend : Nat) (content : List UInt8) (s : Space) :
    Nat → Nat → Nat → Option (Except Space (Space × Nat))
  | 0, _, sz => some (.ok (s, sz))
  | n + 1, off, sz =>
    let (r, bytes) := readi content off 32
    let ph := Proghdr.ofBytes bytes
    if r ≠ 32 then some (.error s)
    else if ph.type ≠ elfProgLoad then loadSegments kend content s n ((off + 32) % 2 ^ 32) sz
    else if ph.memsz < ph.filesz then some (.error s)
    -- `ph.vaddr + ph.memsz < ph.vaddr` on `uint`s
    else if 2 ^ 32 ≤ ph.vaddr + ph.memsz then some (.error s)
    else
      match allocuvm kend s sz (ph.vaddr + ph.memsz) with
      | none => none
      | some (s, sz) =>
        if sz = 0 then some (.error s)
        else if ph.vaddr % pgSize ≠ 0 then some (.error s)
        else
          match loaduvm s ph.vaddr content ph.off ph.filesz with
          | none => none
          | some (s, r) =>
            if r < 0 then some (.error s)
            else loadSegments kend content s n ((off + 32) % 2 ^ 32) sz

def pushArgs (s : Space) : Nat → Nat → List (List UInt8) → List Nat →
    Option (Except Space (Space × Nat × List Nat))
  | _, sp, [], us => some (.ok (s, sp, us))
  | argc, sp, a :: rest, us =>
    if maxarg ≤ argc then some (.error s)
    else
      let sp := CInt.toUint ((sp : Int) - (a.length + 1)) &&& 0xFFFFFFFC
      match copyout s sp (a ++ [0]) with
      | none => none
      | some (s, r) => if r < 0 then some (.error s) else pushArgs s (argc + 1) sp rest (us ++ [sp])

structure Image where
  dir : Nat
  sz : Nat
  eip : Nat
  esp : Nat
  name : List UInt8

structure Machine where
  shm : Shm.State
  mem : Bytes.Buf
  image : Fin nproc → Image
  table : Process.Ptable

def ustack (sp : Nat) (us : List Nat) : List Nat :=
  [0xFFFFFFFF, us.length, CInt.toUint ((sp : Int) - (us.length + 1) * 4)] ++ us ++ [0]

def exec (kend data : Nat) (m : Machine) (p : Fin nproc) (path : List UInt8)
    (argv : List (List UInt8)) (file : Option (List UInt8)) (ticks : Int) : Option (Machine × Int) :=
  match file with
  | none => some (m, -1)
  | some content =>
    -- `change_queue(myproc()->pid, UNSET)` after `ilock`, before the header is read
    let m := { m with table := (Process.changeQueue m.table (m.table.proc p).pid .unset ticks).1 }
    let (r, bytes) := readi content 0 52
    let elf := Elfhdr.ofBytes bytes
    if r ≠ 52 ∨ elf.magic ≠ elfMagic then some (m, -1)
    else
      match setupkvm kend data m.shm.kmem with
      | none => none
      | some (k, none) => some ({ m with shm := { m.shm with kmem := k } }, -1)
      | some (k, some (dir, pd)) =>
        let bad (s : Space) : Option (Machine × Int) :=
          (freevm kend s.kmem dir s.pd).map fun k =>
            ({ m with shm := { m.shm with kmem := k }, mem := s.mem }, -1)
        match loadSegments kend content ⟨k, m.mem, pd⟩ elf.phnum elf.phoff 0 with
        | none => none
        | some (.error s) => bad s
        | some (.ok (s, sz)) =>
          match allocuvm kend s (pgroundup sz) (pgroundup sz + 2 * pgSize) with
          | none => none
          | some (s, sz) =>
            if sz = 0 then bad s
            else
              match clearpteu s (sz - 2 * pgSize) with
              | none => none
              | some s =>
                match pushArgs s 0 sz argv [] with
                | none => none
                | some (.error s) => bad s
                | some (.ok (s, sp, us)) =>
                  let sp' := CInt.toUint ((sp : Int) - (3 + us.length + 1) * 4)
                  match copyout s sp' ((ustack sp us).flatMap Bytes.u32Bytes) with
                  | none => none
                  | some (s, r) =>
                    if r < 0 then bad s
                    else
                      let name := Bytes.safestrcpy (Bytes.lastAfter '/'.toUInt8 path path) 16
                      -- the loop over `curproc->pages` is the one `exit` runs
                      match Shm.exitSharedMemory kend { m.shm with kmem := s.kmem } p with
                      | none => none
                      | some shm =>
                        (freevm kend shm.kmem (m.image p).dir (shm.proc p).pgdir).map fun k =>
                          ({ shm := { shm.setPgdir p s.pd with kmem := k }, mem := s.mem,
                             image := Function.update m.image p ⟨dir, sz, elf.entry, sp', name⟩,
                             table := m.table }, 0)

end Xv6.Exec
