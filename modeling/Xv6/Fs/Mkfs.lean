import Xv6.Fs.Layout
import Xv6.Lib.Run
import Mathlib.Data.List.Defs

/-! `mkfs.c`: the image it writes for a list of input files, each given by its path and its
bytes. The globals `freeinode` and `freeblock` are fields of the state, and the image is kept
as a `Disk`. `main` ends by rounding the root directory's size up with
`((off / BSIZE) + 1) * BSIZE`; when the `2 + k` entries of the root end on a block boundary this
adds a block that `iappend` never allocated. -/

namespace Xv6.Fs.Mkfs

structure State where
  disk : Disk
  freeinode : Nat
  freeblock : Nat

def State.init : State := ⟨⟨fun _ => Bytes.zero, fun _ => Dinode.zero⟩, 1, nmeta⟩

def wsect (s : State) (sec : Nat) (buf : Bytes.Buf) : State :=
  { s with disk := { s.disk with blocks := Function.update s.disk.blocks sec buf } }

def rsect (s : State) (sec : Nat) : Bytes.Buf := s.disk.blocks sec

def winode (s : State) (inum : Nat) (din : Dinode) : State :=
  { s with disk := { s.disk with inodes := Function.update s.disk.inodes inum din } }

def rinode (s : State) (inum : Nat) : Dinode := s.disk.inodes inum

def ialloc (s : State) (type : IType) : State × Nat :=
  let inum := s.freeinode
  (winode { s with freeinode := inum + 1 } inum ⟨type, 1, 0, fun _ => 0⟩, inum)

def allocAddr (s : State) (din : Dinode) (k : Nat) : State × Dinode :=
  if din.addrs k = 0 then
    ({ s with freeblock := s.freeblock + 1 },
      { din with addrs := Function.update din.addrs k s.freeblock })
  else (s, din)

def blockOf (s : State) (din : Dinode) (fbn : Nat) : State × Dinode × Nat :=
  if fbn < nDirect then
    let (s, din) := allocAddr s din fbn
    (s, din, din.addrs fbn)
  else
    let (s, din) := allocAddr s din nDirect
    let indirect := rsect s (din.addrs nDirect)
    if Bytes.getU32 indirect (fbn - nDirect) = 0 then
      let indirect := Bytes.setU32 indirect (fbn - nDirect) s.freeblock
      let s := wsect { s with freeblock := s.freeblock + 1 } (din.addrs nDirect) indirect
      (s, din, Bytes.getU32 indirect (fbn - nDirect))
    else (s, din, Bytes.getU32 indirect (fbn - nDirect))

def iappendLoop : Nat → State → Dinode → Nat → List UInt8 → Option (State × Dinode × Nat)
  | _, s, din, off, [] => some (s, din, off)
  | 0, _, _, _, _ :: _ => none
  | fuel + 1, s, din, off, p@(_ :: _) =>
    let fbn := off / bsize
    if fbn < maxFile then
      let (s, din, x) := blockOf s din fbn
      let n1 := min p.length ((fbn + 1) * bsize - off)
      let s := wsect s x (Bytes.write (rsect s x) (off - fbn * bsize) (p.take n1))
      iappendLoop fuel s din (off + n1) (p.drop n1)
    else none

def iappend (s : State) (inum : Nat) (p : List UInt8) : Option State := do
  let din := rinode s inum
  let (s, din, off) ← iappendLoop p.length s din din.size p
  pure (winode s inum { din with size := off })

def dirent (inum : Nat) (name : List UInt8) : List UInt8 :=
  [inum.toUInt8, (inum / 256).toUInt8] ++ name.take dirsiz ++
    List.replicate (dirsiz - name.length) 0

def addFile (rootino : Nat) (s : State) (arg : List UInt8 × List UInt8) : Option State :=
  let (path, contents) := arg
  if '/'.toUInt8 ∈ path then none
  else
    let name := if path.head? = some '_'.toUInt8 then path.tail else path
    let (s, inum) := ialloc s .file
    do
      let s ← iappend s rootino (dirent inum name)
      (contents.toChunks bsize).foldlM (fun s buf => iappend s inum buf) s

def bitmap (used : Nat) : Bytes.Buf :=
  (List.range used).foldl
    (fun buf i => Function.update buf (i / 8) (buf (i / 8) ||| Bytes.bit (i % 8))) Bytes.zero

def balloc (s : State) (used : Nat) : Option State :=
  if used < bsize * 8 then some (wsect s sb.bmapstart (bitmap used)) else none

def main (args : List (List UInt8 × List UInt8)) : Option State := do
  let (s, rootino) := ialloc State.init .dir
  guard (rootino = rootIno)
  let s ← iappend s rootino (dirent rootino ['.'.toUInt8])
  let s ← iappend s rootino (dirent rootino ['.'.toUInt8, '.'.toUInt8])
  let s ← args.foldlM (addFile rootino) s
  let din := rinode s rootino
  let off := (din.size / bsize + 1) * bsize
  let s := winode s rootino { din with size := off }
  balloc s s.freeblock

@[simp] lemma rinode_winode_self (s : State) (inum : Nat) (din : Dinode) :
    rinode (winode s inum din) inum = din := by
  simp [rinode, winode]

@[simp] lemma rinode_winode_of_ne (s : State) {inum j : Nat} (din : Dinode) (h : j ≠ inum) :
    rinode (winode s inum din) j = rinode s j := by
  simp [rinode, winode, Function.update_of_ne h]

structure Keeps (s s' : State) : Prop where
  inodes : s'.disk.inodes = s.disk.inodes
  freeinode : s'.freeinode = s.freeinode
  freeblock : s.freeblock ≤ s'.freeblock

lemma Keeps.trans {s₁ s₂ s₃ : State} (h₁ : Keeps s₁ s₂) (h₂ : Keeps s₂ s₃) : Keeps s₁ s₃ :=
  ⟨h₂.inodes.trans h₁.inodes, h₂.freeinode.trans h₁.freeinode, Nat.le_trans h₁.freeblock h₂.freeblock⟩

lemma wsect_keeps (s : State) (x : Nat) (buf : Bytes.Buf) : Keeps s (wsect s x buf) :=
  ⟨rfl, rfl, Nat.le_refl _⟩

lemma allocAddr_keeps (s : State) (din : Dinode) (k : Nat) : Keeps s (allocAddr s din k).1 := by
  unfold allocAddr
  split_ifs
  · exact ⟨rfl, rfl, Nat.le_succ _⟩
  · exact ⟨rfl, rfl, Nat.le_refl _⟩

lemma allocAddr_addrs_ne_zero {s : State} (hf : 0 < s.freeblock) (din : Dinode) (k j : Nat) :
    (allocAddr s din k).2.addrs j ≠ 0 ↔ din.addrs j ≠ 0 ∨ j = k := by
  unfold allocAddr
  by_cases h0 : din.addrs k = 0
  · by_cases hj : j = k
    · subst hj
      simp [h0]
      omega
    · simp [h0, hj]
  · simp only [h0, if_false]
    constructor
    · exact Or.inl
    · rintro (h | rfl)
      · exact h
      · exact h0

lemma allocAddr_type (s : State) (din : Dinode) (k : Nat) : (allocAddr s din k).2.type = din.type := by
  unfold allocAddr
  split_ifs <;> rfl

lemma blockOf_direct {fbn : Nat} (s : State) (din : Dinode) (h : fbn < nDirect) :
    blockOf s din fbn =
      ((allocAddr s din fbn).1, (allocAddr s din fbn).2, (allocAddr s din fbn).2.addrs fbn) := by
  simp [blockOf, h]

lemma blockOf_keeps (s : State) (din : Dinode) (fbn : Nat) : Keeps s (blockOf s din fbn).1 := by
  by_cases h : fbn < nDirect
  · rw [blockOf_direct s din h]
    exact allocAddr_keeps s din fbn
  · have ha := allocAddr_keeps s din nDirect
    simp only [blockOf, h, if_false]
    split_ifs
    · exact ha.trans ⟨rfl, rfl, Nat.le_succ _⟩
    · exact ha

lemma iappendLoop_keeps {fuel : Nat} {s s' : State} {din din' : Dinode} {off off' : Nat}
    {p : List UInt8} (h : iappendLoop fuel s din off p = some (s', din', off')) : Keeps s s' := by
  induction fuel generalizing s din off p with
  | zero =>
    cases p with
    | nil =>
      simp only [iappendLoop, Option.some.injEq, Prod.mk.injEq] at h
      obtain ⟨rfl, -, -⟩ := h
      exact ⟨rfl, rfl, Nat.le_refl _⟩
    | cons _ _ => simp [iappendLoop] at h
  | succ fuel ih =>
    cases p with
    | nil =>
      simp only [iappendLoop, Option.some.injEq, Prod.mk.injEq] at h
      obtain ⟨rfl, -, -⟩ := h
      exact ⟨rfl, rfl, Nat.le_refl _⟩
    | cons b bs =>
      simp only [iappendLoop] at h
      split_ifs at h
      exact (blockOf_keeps s din _).trans ((wsect_keeps _ _ _).trans (ih h))

lemma iappend_spec {s s' : State} {inum : Nat} {p : List UInt8} (h : iappend s inum p = some s') :
    (∀ j, j ≠ inum → rinode s' j = rinode s j) ∧ s'.freeinode = s.freeinode ∧
      s.freeblock ≤ s'.freeblock := by
  simp only [iappend, Option.bind_eq_bind, Option.bind_eq_some_iff, Option.pure_def,
    Option.some.injEq] at h
  obtain ⟨⟨s₁, din₁, off₁⟩, hloop, rfl⟩ := h
  have hk := iappendLoop_keeps hloop
  refine ⟨fun j hj => ?_, hk.freeinode, hk.freeblock⟩
  rw [rinode_winode_of_ne _ _ hj]
  simp [rinode, hk.inodes]

lemma dirent_length (inum : Nat) (name : List UInt8) : (dirent inum name).length = direntSize := by
  simp only [dirent, List.length_append, List.length_cons, List.length_nil, List.length_take,
    List.length_replicate, direntSize, dirsiz]
  omega

structure RootShape (s : State) (m : Nat) : Prop where
  type : (rinode s rootIno).type = .dir
  size : (rinode s rootIno).size = direntSize * m
  addrs : ∀ j, j < nDirect → ((rinode s rootIno).addrs j ≠ 0 ↔ j * bsize < direntSize * m)
  freeblock : nmeta ≤ s.freeblock
  freeinode : rootIno < s.freeinode

lemma iappendLoop_entry (fuel : Nat) (s : State) (din : Dinode) {off : Nat} {p : List UInt8}
    (hp : p.length = direntSize) (hoff : off % direntSize = 0) (hfbn : off / bsize < nDirect) :
    ∃ s', iappendLoop (fuel + 1) s din off p =
      some (s', (allocAddr s din (off / bsize)).2, off + direntSize) ∧ Keeps s s' := by
  obtain _ | ⟨b, bs⟩ := p
  · simp [direntSize, dirsiz] at hp
  have hmax : off / bsize < maxFile := by
    simp only [maxFile, nIndirect, bsize, nDirect] at hfbn ⊢
    omega
  have hn1 : min (b :: bs).length ((off / bsize + 1) * bsize - off) = direntSize := by
    simp only [hp, direntSize, dirsiz, bsize] at hoff ⊢
    omega
  have hdrop : (b :: bs).drop direntSize = [] := List.drop_eq_nil_of_le (by omega)
  simp only [iappendLoop, hmax, if_true, blockOf_direct s din hfbn, hn1, hdrop]
  exact ⟨_, rfl, (allocAddr_keeps s din _).trans (wsect_keeps _ _ _)⟩

lemma entry_block_iff {m j : Nat} :
    j * bsize < direntSize * m ∨ j = direntSize * m / bsize ↔ j * bsize < direntSize * (m + 1) := by
  simp only [direntSize, dirsiz, bsize]
  omega

lemma iappend_entry {s s' : State} {m : Nat} {p : List UInt8} (hs : RootShape s m)
    (hm : direntSize * (m + 1) ≤ nDirect * bsize) (hp : p.length = direntSize)
    (h : iappend s rootIno p = some s') : RootShape s' (m + 1) := by
  have hoff : (rinode s rootIno).size % direntSize = 0 := by
    rw [hs.size, Nat.mul_mod_right]
  have hfbn : (rinode s rootIno).size / bsize < nDirect := by
    rw [hs.size]
    simp only [direntSize, dirsiz, bsize, nDirect] at hm ⊢
    omega
  obtain ⟨s₁, hloop, hk⟩ := iappendLoop_entry (direntSize - 1) s (rinode s rootIno) hp hoff hfbn
  have hf : 0 < s.freeblock := Nat.lt_of_lt_of_le (by decide) hs.freeblock
  simp only [iappend, hp, Option.bind_eq_bind] at h
  rw [show direntSize = direntSize - 1 + 1 from rfl, hloop] at h
  simp only [Option.bind_some, Option.pure_def, Option.some.injEq] at h
  subst h
  refine ⟨by simp [allocAddr_type, hs.type], by simp [hs.size, Nat.mul_succ], fun j hj => ?_, ?_, ?_⟩
  · rw [rinode_winode_self, allocAddr_addrs_ne_zero hf, hs.addrs j hj, hs.size]
    exact entry_block_iff
  · exact Nat.le_trans hs.freeblock hk.freeblock
  · change rootIno < s₁.freeinode
    rw [hk.freeinode]
    exact hs.freeinode

lemma iappend_other {s s' : State} {m inum : Nat} {p : List UInt8} (hs : RootShape s m)
    (hi : inum ≠ rootIno) (h : iappend s inum p = some s') : RootShape s' m := by
  obtain ⟨hr, hfi, hfb⟩ := iappend_spec h
  have hroot := hr rootIno hi.symm
  exact ⟨hroot ▸ hs.type, hroot ▸ hs.size, hroot ▸ hs.addrs, Nat.le_trans hs.freeblock hfb,
    hfi ▸ hs.freeinode⟩

lemma addFile_root {s s' : State} {m : Nat} {arg : List UInt8 × List UInt8} (hs : RootShape s m)
    (hm : direntSize * (m + 1) ≤ nDirect * bsize) (h : addFile rootIno s arg = some s') :
    RootShape s' (m + 1) := by
  obtain ⟨path, contents⟩ := arg
  by_cases hslash : '/'.toUInt8 ∈ path
  · simp [addFile, hslash] at h
  simp only [addFile, hslash, if_false] at h
  have hi : s.freeinode ≠ rootIno := Nat.ne_of_gt hs.freeinode
  have hs₁ : RootShape (ialloc s .file).1 m := by
    have hroot : rinode (ialloc s .file).1 rootIno = rinode s rootIno :=
      rinode_winode_of_ne _ _ hi.symm
    exact ⟨hroot ▸ hs.type, hroot ▸ hs.size, hroot ▸ hs.addrs, hs.freeblock,
      Nat.lt_succ_of_lt hs.freeinode⟩
  simp only [ialloc, Option.bind_eq_bind, Option.bind_eq_some_iff] at h hs₁
  obtain ⟨s₂, h₂, hfold⟩ := h
  have hs₂ := iappend_entry hs₁ hm (dirent_length _ _) h₂
  exact @Run.exec_invariant _ _ _ (RootShape · (m + 1))
    (fun _ _ _ ht hstep => iappend_other ht hi hstep) _ _ _ hs₂ hfold

lemma foldlM_addFile_root {s s' : State} {m : Nat} {args : List (List UInt8 × List UInt8)}
    (hs : RootShape s m) (hm : direntSize * (m + args.length) ≤ nDirect * bsize)
    (h : args.foldlM (addFile rootIno) s = some s') : RootShape s' (m + args.length) := by
  induction args generalizing s m with
  | nil =>
    simp only [List.foldlM_nil, Option.pure_def, Option.some.injEq] at h
    exact h ▸ hs
  | cons a as ih =>
    simp only [List.foldlM_cons, Option.bind_eq_bind, Option.bind_eq_some_iff] at h
    obtain ⟨s₁, h₁, hrest⟩ := h
    simp only [List.length_cons, direntSize, dirsiz, nDirect, bsize] at hm
    have hs₁ := addFile_root hs (by simp only [direntSize, dirsiz, nDirect, bsize]; omega) h₁
    have := ih hs₁ (by simp only [direntSize, dirsiz, nDirect, bsize]; omega) hrest
    simpa only [List.length_cons, Nat.add_assoc, Nat.add_comm 1] using this

lemma rootShape_init : RootShape (ialloc State.init .dir).1 0 where
  type := rfl
  size := rfl
  addrs j _ := by simp [ialloc, State.init, rootIno, rinode, winode]
  freeblock := Nat.le_refl _
  freeinode := by decide

lemma main_spec {args : List (List UInt8 × List UInt8)} {s : State} (hk : args.length + 1 < nInodes)
    (h : main args = some s) :
    ∃ s₃, RootShape s₃ (args.length + 2) ∧ s₃.freeblock < bsize * 8 ∧
      s = wsect (winode s₃ rootIno { rinode s₃ rootIno with
        size := ((rinode s₃ rootIno).size / bsize + 1) * bsize }) sb.bmapstart
        (bitmap s₃.freeblock) := by
  simp only [main, Option.bind_eq_bind, Option.bind_eq_some_iff] at h
  obtain ⟨_, -, s₁, h₁, s₂, h₂, s₃, h₃, h₄⟩ := h
  have hb : direntSize * (2 + args.length) ≤ nDirect * bsize := by
    simp only [nInodes, direntSize, dirsiz, nDirect, bsize] at hk ⊢
    omega
  have hs₁ := iappend_entry rootShape_init (by simp [direntSize, dirsiz, nDirect, bsize])
    (dirent_length _ _) h₁
  have hs₂ := iappend_entry hs₁ (by simp [direntSize, dirsiz, nDirect, bsize])
    (dirent_length _ _) h₂
  have hs₃ := foldlM_addFile_root hs₂ hb h₃
  simp only [balloc] at h₄
  split_ifs at h₄ with hfree
  simp only [Option.some.injEq] at h₄
  exact ⟨s₃, by simpa only [Nat.add_comm 2] using hs₃, hfree, h₄.symm⟩

theorem main_root {args : List (List UInt8 × List UInt8)} {s : State}
    (hk : args.length + 1 < nInodes) (h : main args = some s) :
    (rinode s rootIno).type = .dir ∧
      (rinode s rootIno).size = (direntSize * (args.length + 2) / bsize + 1) * bsize ∧
      ∀ j, j < nDirect →
        ((rinode s rootIno).addrs j ≠ 0 ↔ j * bsize < direntSize * (args.length + 2)) := by
  obtain ⟨s₃, hs, -, rfl⟩ := main_spec hk h
  have hroot : rinode (wsect (winode s₃ rootIno { rinode s₃ rootIno with
      size := ((rinode s₃ rootIno).size / bsize + 1) * bsize }) sb.bmapstart
      (bitmap s₃.freeblock)) rootIno =
      { rinode s₃ rootIno with size := ((rinode s₃ rootIno).size / bsize + 1) * bsize } := by
    simp [wsect, rinode, winode]
  rw [hroot]
  exact ⟨hs.type, by rw [hs.size], hs.addrs⟩

lemma bitmap_testBit (used i : Nat) :
    (bitmap used (i / 8)).toNat.testBit (i % 8) = decide (i < used) := by
  induction used with
  | zero => simp [bitmap, Bytes.zero]
  | succ u ih =>
    have hstep : bitmap (u + 1) =
        Function.update (bitmap u) (u / 8) (bitmap u (u / 8) ||| Bytes.bit (u % 8)) := by
      simp [bitmap, List.range_succ, List.foldl_append]
    rw [hstep]
    by_cases hq : i / 8 = u / 8
    · rw [hq, Function.update_self, Bytes.testBit_or_bit _ (Nat.mod_lt _ (by decide)), ← hq, ih]
      rw [Bool.eq_iff_iff]
      simp only [Bool.or_eq_true, decide_eq_true_eq]
      omega
    · rw [Function.update_of_ne hq, ih]
      rw [Bool.eq_iff_iff]
      simp only [decide_eq_true_eq]
      omega

theorem main_bitmap {args : List (List UInt8 × List UInt8)} {s : State}
    (hk : args.length + 1 < nInodes) (h : main args = some s) (b : Nat) (hb : b < bpb) :
    bitSet s.disk b = decide (b < s.freeblock) := by
  obtain ⟨s₃, -, -, rfl⟩ := main_spec hk h
  have hblock : bblock b = sb.bmapstart := by
    simp only [bblock, bpb, bsize] at hb ⊢
    omega
  have hmod : b % bpb = b := Nat.mod_eq_of_lt hb
  simp only [bitSet, wsect, winode, hblock, hmod, Function.update_self]
  rw [Bytes.and_bit_ne_zero _ (Nat.mod_lt _ (by decide)), bitmap_testBit]
  rfl

end Xv6.Fs.Mkfs
