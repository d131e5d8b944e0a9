import Xv6.Fs.Mkfs

/-! The kernel's inode content in `fs.c`: `balloc`, `bmap`, `readi` and `writei` on an inode
locked into memory, as `dirlookup` calls `readi` for every entry below a directory's size. `bmap` allocates a
block for a file block with no address, so a read below the size of an inode whose blocks do not
cover it changes the disk (`readi_hole_allocates`). On the image `mkfs` writes for 62 files the
root directory is such an inode (`mkfs_root_read_allocates`). -/

namespace Xv6.Fs

def balloc (d : Disk) : Option (Disk × Nat) :=
  match (List.range sb.size).find? (fun b => !bitSet d b) with
  | none => none
  | some b =>
    let bm := d.blocks (bblock b)
    let bm := Function.update bm (b % bpb / 8) (bm (b % bpb / 8) ||| Bytes.bit (b % 8))
    let d := { d with blocks := Function.update d.blocks (bblock b) bm }
    some ({ d with blocks := Function.update d.blocks b Bytes.zero }, b)

def bmapAddr (d : Disk) (ip : Dinode) (k : Nat) : Option (Disk × Dinode) :=
  if ip.addrs k = 0 then do
    let (d, addr) ← balloc d
    pure (d, { ip with addrs := Function.update ip.addrs k addr })
  else some (d, ip)

def bmap (d : Disk) (ip : Dinode) (bn : Nat) : Option (Disk × Dinode × Nat) :=
  if bn < nDirect then do
    let (d, ip) ← bmapAddr d ip bn
    pure (d, ip, ip.addrs bn)
  else if bn - nDirect < nIndirect then do
    let (d, ip) ← bmapAddr d ip nDirect
    let a := d.blocks (ip.addrs nDirect)
    if Bytes.getU32 a (bn - nDirect) = 0 then do
      let (d, addr) ← balloc d
      let a := Bytes.setU32 a (bn - nDirect) addr
      pure ({ d with blocks := Function.update d.blocks (ip.addrs nDirect) a }, ip, addr)
    else pure (d, ip, Bytes.getU32 a (bn - nDirect))
  else none

def readiLoop : Nat → Disk → Dinode → Nat → Nat → Option (Disk × Dinode × List UInt8)
  | _, d, ip, _, 0 => some (d, ip, [])
  | 0, _, _, _, _ + 1 => none
  | fuel + 1, d, ip, off, n + 1 => do
    let (d, ip, addr) ← bmap d ip (off / bsize)
    let m := min (n + 1) (bsize - off % bsize)
    let bytes := Bytes.read (d.blocks addr) (off % bsize) m
    let (d, ip, rest) ← readiLoop fuel d ip (off + m) (n + 1 - m)
    pure (d, ip, bytes ++ rest)

def readi (d : Disk) (ip : Dinode) (off n : Nat) : Option (Disk × Dinode × Int × List UInt8) :=
  if ip.type = .dev then none
  else if off > ip.size ∨ off + n ≥ 2 ^ 32 then some (d, ip, -1, [])
  else
    let n := if off + n > ip.size then ip.size - off else n
    do
      let (d, ip, out) ← readiLoop n d ip off n
      pure (d, ip, n, out)

def writeBlock (d : Disk) (a pos : Nat) (p : List UInt8) : Disk :=
  { d with blocks := Function.update d.blocks a (Bytes.write (d.blocks a) pos p) }

def writeiLoop : Nat → Disk → Dinode → Nat → List UInt8 → Option (Disk × Dinode)
  | _, d, ip, _, [] => some (d, ip)
  | 0, _, _, _, _ :: _ => none
  | fuel + 1, d, ip, off, src@(_ :: _) => do
    let (d, ip, addr) ← bmap d ip (off / bsize)
    let m := min src.length (bsize - off % bsize)
    writeiLoop fuel (writeBlock d addr (off % bsize) (src.take m)) ip (off + m) (src.drop m)

def writei (d : Disk) (inum : Nat) (ip : Dinode) (src : List UInt8) (off : Nat) :
    Option (Disk × Dinode × Int) :=
  if ip.type = .dev then none
  else if off > ip.size ∨ off + src.length ≥ 2 ^ 32 then some (d, ip, -1)
  else if off + src.length > maxFile * bsize then some (d, ip, -1)
  else do
    let (d, ip) ← writeiLoop src.length d ip off src
    if src.length > 0 ∧ off + src.length > ip.size then
      let ip := { ip with size := off + src.length }
      pure ({ d with inodes := Function.update d.inodes inum ip }, ip, src.length)
    else pure (d, ip, src.length)

section Bmap

variable {d d' : Disk} {ip : Dinode} {bn b : Nat}

lemma bmap_of_addr (hbn : bn < nDirect) (h : ip.addrs bn ≠ 0) :
    bmap d ip bn = some (d, ip, ip.addrs bn) := by
  simp [bmap, bmapAddr, hbn, h]

lemma bmap_of_hole (hbn : bn < nDirect) (h : ip.addrs bn = 0) (hb : balloc d = some (d', b)) :
    bmap d ip bn = some (d', { ip with addrs := Function.update ip.addrs bn b }, b) := by
  simp [bmap, bmapAddr, hbn, h, hb]

lemma balloc_of_bitmap {f : Nat} (hfree : ∀ b, b < sb.size → bitSet d b = decide (b < f))
    (hf : f < sb.size) (hfb : bblock f ≠ f) :
    ∃ d', balloc d = some (d', f) ∧ bitSet d' f = true := by
  have hfind : (List.range sb.size).find? (fun b => !bitSet d b) = some f := by
    rw [List.find?_range_eq_some]
    refine ⟨by simp [hfree f hf], List.mem_range.mpr hf, fun j hj => ?_⟩
    simp [hfree j (Nat.lt_trans hj hf), hj]
  unfold balloc
  rw [hfind]
  refine ⟨_, rfl, ?_⟩
  simp only [bitSet, Function.update_of_ne hfb, Function.update_self]
  rw [Bytes.and_bit_ne_zero _ (Nat.mod_lt _ (by decide)),
    Bytes.testBit_or_bit _ (Nat.mod_lt _ (by decide))]
  simp

end Bmap

theorem readi_hole_allocates {d d' : Disk} {ip : Dinode} {off n b : Nat} (hdev : ip.type ≠ .dev)
    (hsize : off + n ≤ ip.size) (hn : 0 < n) (hblock : off % bsize + n ≤ bsize)
    (huint : off + n < 2 ^ 32) (hbn : off / bsize < nDirect) (hhole : ip.addrs (off / bsize) = 0)
    (hb : balloc d = some (d', b)) :
    readi d ip off n = some (d', { ip with addrs := Function.update ip.addrs (off / bsize) b },
      (n : Int), Bytes.read (d'.blocks b) (off % bsize) n) := by
  obtain ⟨k, rfl⟩ : ∃ k, n = k + 1 := ⟨n - 1, by omega⟩
  have hm : min (k + 1) (bsize - off % bsize) = k + 1 := by omega
  have hout : ¬(off > ip.size ∨ off + (k + 1) ≥ 2 ^ 32) := by omega
  simp only [readi, hdev, hout, if_false, Nat.not_lt.mpr hsize, readiLoop,
    bmap_of_hole hbn hhole hb, hm, Nat.sub_self]
  simp

def sixtyTwoFiles : List (List UInt8 × List UInt8) :=
  (List.range 62).map fun i => (['a'.toUInt8, (48 + i).toUInt8], [])

theorem mkfs_root_read_allocates :
    ∃ s, Mkfs.main sixtyTwoFiles = some s ∧
      (Mkfs.rinode s rootIno).size = 2 * bsize ∧ (Mkfs.rinode s rootIno).addrs 1 = 0 ∧
      ∃ (d : Disk) (ip : Dinode) (out : List UInt8),
        readi s.disk (Mkfs.rinode s rootIno) bsize direntSize =
          some (d, ip, (direntSize : Int), out) ∧
        ip.addrs 1 = s.freeblock ∧ bitSet s.disk s.freeblock = false ∧
        bitSet d s.freeblock = true := by
  have hrun : (Mkfs.main sixtyTwoFiles).map Mkfs.State.freeblock = some 47 := by decide
  obtain ⟨s, hs, hfree⟩ := Option.map_eq_some_iff.mp hrun
  have hk : sixtyTwoFiles.length + 1 < nInodes := by decide
  obtain ⟨htype, hsize, haddrs⟩ := Mkfs.main_root hk hs
  have hbits := Mkfs.main_bitmap hk hs
  have hsize' : (Mkfs.rinode s rootIno).size = 2 * bsize := by
    rw [hsize]
    decide
  have hhole : (Mkfs.rinode s rootIno).addrs 1 = 0 := by
    by_contra hne
    have := (haddrs 1 (by decide)).mp hne
    simp [sixtyTwoFiles, direntSize, dirsiz, bsize] at this
  obtain ⟨d', hb, hbit⟩ := balloc_of_bitmap
    (fun b hb => hbits b (Nat.lt_trans hb (by decide)))
    (by rw [hfree]; decide) (by rw [hfree]; decide)
  have hread : readi s.disk (Mkfs.rinode s rootIno) bsize direntSize = some _ :=
    readi_hole_allocates (by rw [htype]; decide) (by rw [hsize']; decide) (by decide) (by decide)
      (by decide) (by decide) hhole hb
  refine ⟨s, hs, hsize', hhole, d', _, _, hread, ?_, ?_, hbit⟩
  · simp [show bsize / bsize = 1 from rfl]
  · rw [hbits _ (by rw [hfree]; decide)]
    simp

end Xv6.Fs
