import Xv6.Fs.Inode
import Xv6.Fs.Lockfile

/-! Path lookup in `fs.c` and the branch of `sys_open` that opens an existing file: the inode
cache's `iget`, `idup`, `ilock` and `iput` (with `itrunc`, `bfree` and `iupdate` for an inode
that loses its last reference), `skipelem`, `dirlookup` and `namex`.

A lookup writes nothing but the blocks `bmap` allocates for holes below a directory's size;
the address of such a block goes into the inode's copy in the cache, which `iupdate` never
writes back on this path. On the image `mkfs` writes for 62 files, a lookup
of a name the root does not hold therefore leaves a block marked in the free map that no inode
on the disk refers to (`open_missing_name_leaks_block`). -/

namespace Xv6.Fs

namespace Namei

def bfree (d : Disk) (b : Nat) : Option Disk :=
  let bm := d.blocks (bblock b)
  let bi := b % bpb
  let m := Bytes.bit (bi % 8)
  if bm (bi / 8) &&& m = 0 then none
  else
    some { d with blocks :=
      Function.update d.blocks (bblock b) (Function.update bm (bi / 8) (bm (bi / 8) &&& ~~~m)) }

def iupdate (d : Disk) (inum : Nat) (ip : Dinode) : Disk :=
  { d with inodes := Function.update d.inodes inum ip }

def itruncDirect (d : Disk) (ip : Dinode) : List Nat → Option (Disk × Dinode)
  | [] => some (d, ip)
  | i :: is =>
    if ip.addrs i = 0 then itruncDirect d ip is
    else (bfree d (ip.addrs i)).bind fun d =>
      itruncDirect d { ip with addrs := Function.update ip.addrs i 0 } is

def bfreeIndirect (d : Disk) (ind : Nat) : List Nat → Option Disk
  | [] => some d
  | j :: js =>
    let a := Bytes.getU32 (d.blocks ind) j
    if a = 0 then bfreeIndirect d ind js
    else (bfree d a).bind fun d => bfreeIndirect d ind js

def itrunc (d : Disk) (inum : Nat) (ip : Dinode) : Option (Disk × Dinode) := do
  let (d, ip) ← itruncDirect d ip (List.range nDirect)
  let (d, ip) ←
    if ip.addrs nDirect = 0 then pure (d, ip)
    else do
      let d ← bfreeIndirect d (ip.addrs nDirect) (List.range nIndirect)
      let d ← bfree d (ip.addrs nDirect)
      pure (d, { ip with addrs := Function.update ip.addrs nDirect 0 })
  let ip := { ip with size := 0 }
  pure (iupdate d inum ip, ip)

structure Icache where
  ref : Nat → Nat
  valid : Nat → Option Dinode

def iget (c : Icache) (inum : Nat) : Icache :=
  if 0 < c.ref inum then { c with ref := Function.update c.ref inum (c.ref inum + 1) }
  else ⟨Function.update c.ref inum 1, Function.update c.valid inum none⟩

def idup (c : Icache) (inum : Nat) : Icache :=
  { c with ref := Function.update c.ref inum (c.ref inum + 1) }

def ilock (d : Disk) (c : Icache) (inum : Nat) : Option (Icache × Dinode) :=
  if c.ref inum < 1 then none
  else
    match c.valid inum with
    | some ip => some (c, ip)
    | none =>
      let ip := d.inodes inum
      if ip.type = .free then none
      else some ({ c with valid := Function.update c.valid inum (some ip) }, ip)

def iput (d : Disk) (c : Icache) (inum : Nat) : Option (Disk × Icache) := do
  let (d, c) ←
    match c.valid inum with
    | some ip =>
      if ip.nlink = 0 ∧ c.ref inum = 1 then do
        let (d, ip) ← itrunc d inum ip
        pure (iupdate d inum { ip with type := .free },
          { c with valid := Function.update c.valid inum none })
      else pure (d, c)
    | none => pure (d, c)
  pure (d, { c with ref := Function.update c.ref inum (c.ref inum - 1) })

def strncmp : Nat → List UInt8 → List UInt8 → Int
  | 0, _, _ => 0
  | n + 1, p, q =>
    if p.headD 0 ≠ 0 ∧ p.headD 0 = q.headD 0 then strncmp n p.tail q.tail
    else (p.headD 0).toNat - (q.headD 0).toNat

def namecmp (s t : List UInt8) : Int := strncmp dirsiz s t

def slash : UInt8 := '/'.toUInt8

def skipelem (path : List UInt8) : Option (List UInt8 × List UInt8) :=
  let path := path.dropWhile (· == slash)
  if path = [] then none
  else
    let elem := path.takeWhile (· != slash)
    let rest := (path.dropWhile (· != slash)).dropWhile (· == slash)
    some (rest, if dirsiz ≤ elem.length then elem.take dirsiz else elem)

def direntInum (de : List UInt8) : Nat := (de.getD 0 0).toNat + 256 * (de.getD 1 0).toNat

def direntName (de : List UInt8) : List UInt8 := (de.drop 2).take dirsiz

def dirlookupLoop : Nat → Disk → Dinode → List UInt8 → Nat →
    Option (Disk × Dinode × Option (Nat × Nat))
  | 0, _, _, _, _ => none
  | fuel + 1, d, dp, name, off =>
    if off < dp.size then
      match readi d dp off direntSize with
      | none => none
      | some (d, dp, r, de) =>
        if r ≠ direntSize then none
        else if direntInum de = 0 then dirlookupLoop fuel d dp name (off + direntSize)
        else if namecmp name (direntName de) = 0 then some (d, dp, some (direntInum de, off))
        else dirlookupLoop fuel d dp name (off + direntSize)
    else some (d, dp, none)

def dirlookup (d : Disk) (dp : Dinode) (name : List UInt8) :
    Option (Disk × Dinode × Option (Nat × Nat)) :=
  if dp.type ≠ .dir then none
  else dirlookupLoop (dp.size / direntSize + 1) d dp name 0

def namexLoop : Nat → Disk → Icache → Nat → List UInt8 → Bool →
    Option (Disk × Icache × Option Nat)
  | 0, _, _, _, _, _ => none
  | fuel + 1, d, c, ip, path, nameiparent =>
    match skipelem path with
    | none =>
      if nameiparent then (iput d c ip).map fun r => (r.1, r.2, none)
      else some (d, c, some ip)
    | some (rest, name) => do
      let (c, dp) ← ilock d c ip
      if dp.type ≠ .dir then
        let (d, c) ← iput d c ip
        pure (d, c, none)
      else if nameiparent ∧ rest = [] then pure (d, c, some ip)
      else
        let (d, dp, found) ← dirlookup d dp name
        -- `bmap` changed the cached copy in place
        let c := { c with valid := Function.update c.valid ip (some dp) }
        match found with
        | none =>
          let (d, c) ← iput d c ip
          pure (d, c, none)
        | some (inum, _) =>
          let (d, c) ← iput d (iget c inum) ip
          namexLoop fuel d c inum rest nameiparent

def namex (d : Disk) (c : Icache) (cwd : Nat) (path : List UInt8) (nameiparent : Bool) :
    Option (Disk × Icache × Option Nat) :=
  if path.head? = some slash then
    namexLoop (path.length + 1) d (iget c rootIno) rootIno path nameiparent
  else namexLoop (path.length + 1) d (idup c cwd) cwd path nameiparent

def namei (d : Disk) (c : Icache) (cwd : Nat) (path : List UInt8) :
    Option (Disk × Icache × Option Nat) :=
  namex d c cwd path false

def sysOpenNoCreate (d : Disk) (c : Icache) (cwd : Nat) (path : List UInt8) (omode : Nat)
    (fileOk : Bool) : Option (Disk × Icache × Option Nat) := do
  let (d, c, ip) ← namei d c cwd path
  match ip with
  | none => pure (d, c, none)
  | some ip =>
    let (c, dp) ← ilock d c ip
    if dp.type = .dir ∧ omode ≠ oRdonly then
      let (d, c) ← iput d c ip
      pure (d, c, none)
    else if fileOk then pure (d, c, some ip)
    else
      let (d, c) ← iput d c ip
      pure (d, c, none)

def moveFileDst (src destDir : List UInt8) : Option (List UInt8) := do
  let filename := Bytes.lastAfter slash src src
  let dst := Bytes.safestrcpy destDir 512
  let last ← dst.getLast?
  let dst := if last ≠ slash then dst ++ Bytes.safestrcpy [slash] (512 - dst.length) else dst
  pure (dst ++ Bytes.safestrcpy filename (512 - dst.length))

def sysMoveFileLookup (d : Disk) (c : Icache) (cwd : Nat) (src destDir : List UInt8) :
    Option (Disk × Icache × Option Nat) := do
  let dst ← moveFileDst src destDir
  let (d, c, ipsrc) ← namei d c cwd src
  match ipsrc with
  | none => pure (d, c, none)
  | some ipsrc =>
    -- an existing destination ends the call; neither inode is put
    let (d, c, ipdst) ← namei d c cwd dst
    match ipdst with
    | some _ => pure (d, c, none)
    | none => pure (d, c, some ipsrc)

def Referenced (d : Disk) (b : Nat) : Prop :=
  ∃ inum, inum < nInodes ∧ (d.inodes inum).type ≠ .free ∧
    ((∃ k, k < nDirect + 1 ∧ (d.inodes inum).addrs k = b) ∨
      ((d.inodes inum).addrs nDirect ≠ 0 ∧
        ∃ j, j < nIndirect ∧ Bytes.getU32 (d.blocks ((d.inodes inum).addrs nDirect)) j = b))

instance (d : Disk) (b : Nat) : Decidable (Referenced d b) := by
  unfold Referenced
  infer_instance

def bootCache : Icache := ⟨fun i => if i = rootIno then 1 else 0, fun _ => none⟩

theorem open_missing_name_leaks_block :
    ∃ s d c, Mkfs.main sixtyTwoFiles = some s ∧
      sysOpenNoCreate s.disk bootCache rootIno ['x'.toUInt8] oRdonly true = some (d, c, none) ∧
      nmeta ≤ 47 ∧ 47 < sb.size ∧
      bitSet s.disk 47 = false ∧ bitSet d 47 = true ∧ ¬ Referenced d 47 ∧
      (d.inodes rootIno).addrs 1 = 0 ∧ (c.valid rootIno).map (fun ip => ip.addrs 1) = some 47 := by
  have hrun : ((Mkfs.main sixtyTwoFiles).bind fun s =>
      (sysOpenNoCreate s.disk bootCache rootIno ['x'.toUInt8] oRdonly true).map fun r =>
        (r.2.2, bitSet s.disk 47, bitSet r.1 47, decide (Referenced r.1 47),
          (r.1.inodes rootIno).addrs 1, (r.2.1.valid rootIno).map fun ip => ip.addrs 1)) =
      some (none, false, true, false, 0, some 47) := by
    decide +kernel
  obtain ⟨s, hs, hopen⟩ := Option.bind_eq_some_iff.mp hrun
  obtain ⟨⟨d, c, ip⟩, hr, he⟩ := Option.map_eq_some_iff.mp hopen
  simp only [Prod.mk.injEq, decide_eq_false_iff_not] at he
  obtain ⟨rfl, hbefore, hafter, hnot, hdisk, hcache⟩ := he
  exact ⟨s, d, c, hs, hr, by decide, by decide, hbefore, hafter, hnot, hdisk, hcache⟩

theorem move_file_existing_dst_leaks_refs :
    ∃ s d c, Mkfs.main [(['a'.toUInt8], [])] = some s ∧
      sysMoveFileLookup s.disk bootCache rootIno ['a'.toUInt8] [slash] = some (d, c, none) ∧
      bootCache.ref 2 = 0 ∧ c.ref 2 = 2 ∧ c.ref rootIno = bootCache.ref rootIno := by
  have hrun : ((Mkfs.main [(['a'.toUInt8], [])]).bind fun s =>
      (sysMoveFileLookup s.disk bootCache rootIno ['a'.toUInt8] [slash]).map fun r =>
        (r.2.2, r.2.1.ref 2, r.2.1.ref rootIno)) = some (none, 2, 1) := by
    decide +kernel
  obtain ⟨s, hs, hmove⟩ := Option.bind_eq_some_iff.mp hrun
  obtain ⟨⟨d, c, ip⟩, hr, he⟩ := Option.map_eq_some_iff.mp hmove
  simp only [Prod.mk.injEq] at he
  obtain ⟨rfl, hsrc, hroot⟩ := he
  exact ⟨s, d, c, hs, hr, rfl, hsrc, hroot⟩

end Namei

end Xv6.Fs
