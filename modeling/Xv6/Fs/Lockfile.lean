import Xv6.Fs.Layout
import Xv6.Lib.Run
import Xv6.Lib.Table
import Xv6.Lib.CInt

/-! The user-level lock of `factorial.c` and `count_syscall.c`: `acquire_user` loops on
`open("lockfile", O_CREATE | O_WRONLY)` until it returns a descriptor, and `release_user`
unlinks the file. Underneath are the parts of `sysfile.c` these calls reach for a name in the
working directory: `create` for a `T_FILE`, `sys_open` with `filealloc` and `fdalloc`, and the
success path of `sys_unlink`. The children of `test_shared_memory_with_factorial` run the
critical section between the two calls on the shared counters `num` and `fact`.

`create` hands back a `T_FILE` that already exists, so `open` with `O_CREATE` succeeds on the
lock file whoever holds it (`sysOpen_of_openable`), and two children both get past
`acquire_user` (`two_children_enter`). -/

namespace Xv6.Fs

open Table

def oRdonly : Nat := 0x000
def oWronly : Nat := 0x001
def oCreate : Nat := 0x200

structure Inode where
  type : IType
  nlink : Int
  deriving DecidableEq, Repr

structure Dir where
  entries : List (String × Nat)
  inodes : Nat → Inode
  ninodes : Nat

def dirlookup (d : Dir) (name : String) : Option Nat :=
  (d.entries.find? fun e => e.2 ≠ 0 ∧ e.1 = name).map Prod.snd

def dirlink (d : Dir) (name : String) (inum : Nat) : Dir :=
  match d.entries.findIdx? (fun e => e.2 = 0) with
  | some k => { d with entries := d.entries.set k (name, inum) }
  | none => { d with entries := d.entries ++ [(name, inum)] }

def ialloc (d : Dir) (type : IType) : Option (Dir × Nat) :=
  match (List.range' 1 (d.ninodes - 1)).find? (fun i => (d.inodes i).type = .free) with
  | some i => some ({ d with inodes := Function.update d.inodes i ⟨type, 0⟩ }, i)
  | none => none

def create (d : Dir) (name : String) : Option (Dir × Option Nat) :=
  match dirlookup d name with
  | some inum => if (d.inodes inum).type = .file then some (d, some inum) else some (d, none)
  | none =>
    match ialloc d .file with
    | none => none
    | some (d, inum) =>
      let d := { d with inodes := Function.update d.inodes inum ⟨.file, 1⟩ }
      some (dirlink d name inum, some inum)

def openInode (d : Dir) (name : String) (omode : Nat) : Option (Dir × Option Nat) :=
  if omode &&& oCreate ≠ 0 then create d name
  else
    match dirlookup d name with
    | none => some (d, none)
    | some inum =>
      if (d.inodes inum).type = .dir ∧ omode ≠ oRdonly then some (d, none) else some (d, some inum)

def filealloc (used : Nat) : Option Nat := if used < nFile then some (used + 1) else none

def fdalloc (ofile : Fin noFile → Bool) : Option ((Fin noFile → Bool) × Nat) :=
  match first? fun fd => !ofile fd with
  | some fd => some (Function.update ofile fd true, fd.val)
  | none => none

def sysOpen (d : Dir) (used : Nat) (ofile : Fin noFile → Bool) (name : String) (omode : Nat) :
    Option (Dir × Nat × (Fin noFile → Bool) × Int) :=
  match openInode d name omode with
  | none => none
  | some (d, none) => some (d, used, ofile, -1)
  | some (d, some _) =>
    match filealloc used with
    | none => some (d, used, ofile, -1)
    | some used' =>
      match fdalloc ofile with
      | none => some (d, used, ofile, -1)
      | some (ofile', fd) => some (d, used', ofile', fd)

def sysUnlink (d : Dir) (name : String) : Dir × Int :=
  match d.entries.findIdx? (fun e => e.2 ≠ 0 ∧ e.1 = name) with
  | some k =>
    let inum := (d.entries.getD k ("", 0)).2
    ({ d with
      entries := d.entries.set k ("", 0)
      inodes := Function.update d.inodes inum
        { d.inodes inum with nlink := (d.inodes inum).nlink - 1 } }, 0)
  | none => (d, -1)

inductive Pc
  | acquiring
  | critical
  | loaded (preNum preFact : Int)
  | incremented (preNum preFact : Int)
  | releasing
  | done
  deriving DecidableEq, Repr

def factUpdate (preNum preFact : Int) : Int :=
  if preFact = 0 then CInt.wrap (preNum + 1) else CInt.wrap (preFact * (preNum + 1))

structure Children (n : Nat) where
  dir : Dir
  used : Nat
  ofile : Fin n → Fin noFile → Bool
  pc : Fin n → Pc
  num : Int
  fact : Int

def lockName : String := "lockfile"

def childStep {n : Nat} (s : Children n) (i : Fin n) : Option (Children n) :=
  match s.pc i with
  | .acquiring => do
    let (d, used, of, fd) ← sysOpen s.dir s.used (s.ofile i) lockName (oCreate ||| oWronly)
    pure { s with
      dir := d
      used := used
      ofile := Function.update s.ofile i of
      pc := Function.update s.pc i (if fd < 0 then .acquiring else .critical) }
  | .critical => some { s with pc := Function.update s.pc i (.loaded s.num s.fact) }
  | .loaded preNum preFact =>
    some { s with
      num := CInt.wrap (s.num + 1)
      pc := Function.update s.pc i (.incremented preNum preFact) }
  | .incremented preNum preFact =>
    some { s with
      fact := factUpdate preNum preFact
      pc := Function.update s.pc i .releasing }
  | .releasing =>
    some { s with dir := (sysUnlink s.dir lockName).1, pc := Function.update s.pc i .done }
  | .done => none

def FileAt (d : Dir) (name : String) : Prop :=
  ∃ inum, dirlookup d name = some inum ∧ (d.inodes inum).type = .file

def Openable (d : Dir) (name : String) : Prop :=
  FileAt d name ∨ dirlookup d name = none ∧ ∃ d₁ inum, ialloc d .file = some (d₁, inum)

lemma find?_eq_of_unique {α : Type} {l : List α} {p : α → Bool} {x : α} (hx : x ∈ l)
    (hp : p x = true) (hu : ∀ y ∈ l, p y = true → y = x) : l.find? p = some x := by
  cases h : l.find? p with
  | none => exact absurd hp (List.find?_eq_none.mp h x hx)
  | some y => rw [hu y (List.mem_of_find?_eq_some h) (List.find?_some h)]

lemma dirlookup_eq_none {d : Dir} {name : String} :
    dirlookup d name = none ↔ ∀ e ∈ d.entries, e.2 = 0 ∨ e.1 ≠ name := by
  simp only [dirlookup, Option.map_eq_none_iff, List.find?_eq_none, decide_eq_true_eq]
  grind

lemma dirlookup_of_fresh {d d' : Dir} {name : String} {inum : Nat}
    (h : dirlookup d name = none) (hi : inum ≠ 0) (hmem : (name, inum) ∈ d'.entries)
    (hsub : ∀ e ∈ d'.entries, e ∈ d.entries ∨ e = (name, inum)) :
    dirlookup d' name = some inum := by
  have hold := dirlookup_eq_none.mp h
  have hfind : d'.entries.find? (fun e => e.2 ≠ 0 ∧ e.1 = name) = some (name, inum) := by
    apply find?_eq_of_unique hmem (by simp [hi])
    intro e he hp
    rcases hsub e he with hin | heq
    · simp only [decide_eq_true_eq] at hp
      rcases hold e hin with h0 | hn
      · exact absurd h0 hp.1
      · exact absurd hp.2 hn
    · exact heq
  rw [dirlookup, hfind]
  rfl

@[simp] lemma dirlink_inodes (d : Dir) (name : String) (inum : Nat) :
    (dirlink d name inum).inodes = d.inodes := by
  unfold dirlink
  split <;> rfl

lemma dirlookup_dirlink {d : Dir} {name : String} {inum : Nat} (h : dirlookup d name = none)
    (hi : inum ≠ 0) : dirlookup (dirlink d name inum) name = some inum := by
  unfold dirlink
  split
  case h_1 k hk =>
    obtain ⟨hlt, -⟩ := List.findIdx?_eq_some_iff_getElem.mp hk
    apply dirlookup_of_fresh h hi (List.mem_set hlt _)
    intro e he
    exact List.mem_or_eq_of_mem_set he
  case h_2 =>
    apply dirlookup_of_fresh h hi (by simp)
    intro e he
    simpa using he

lemma ialloc_spec {d d₁ : Dir} {t : IType} {inum : Nat} (h : ialloc d t = some (d₁, inum)) :
    inum ≠ 0 ∧ d₁ = { d with inodes := Function.update d.inodes inum ⟨t, 0⟩ } := by
  unfold ialloc at h
  split at h
  case h_1 i hi =>
    obtain ⟨-, hmem, -⟩ := List.find?_range'_eq_some.mp hi
    simp only [Option.some.injEq, Prod.mk.injEq] at h
    obtain ⟨rfl, rfl⟩ := h
    exact ⟨by simp [List.mem_range'_1] at hmem; omega, rfl⟩
  case h_2 => cases h

lemma create_of_openable {d : Dir} {name : String} (h : Openable d name) :
    ∃ d' inum, create d name = some (d', some inum) ∧ FileAt d' name := by
  rcases h with ⟨inum, hl, ht⟩ | ⟨hl, d₁, inum, ha⟩
  · exact ⟨d, inum, by simp [create, hl, ht], inum, hl, ht⟩
  · obtain ⟨hi, hd₁⟩ := ialloc_spec ha
    let d₂ : Dir := { d₁ with inodes := Function.update d₁.inodes inum ⟨.file, 1⟩ }
    have hl₂ : dirlookup d₂ name = none := by
      subst hd₁
      exact hl
    refine ⟨dirlink d₂ name inum, inum, by simp [create, hl, ha, d₂], inum, ?_, ?_⟩
    · exact dirlookup_dirlink hl₂ hi
    · simp [d₂]

lemma fdalloc_of_free {ofile : Fin noFile → Bool} (h : ∃ fd, ofile fd = false) :
    ∃ ofile' fd, fdalloc ofile = some (ofile', fd) := by
  obtain ⟨fd, hfd⟩ := h
  cases hf : first? fun fd => !ofile fd with
  | none => simpa [hfd] using first?_eq_none.mp hf fd
  | some k => exact ⟨Function.update ofile k true, k.val, by simp [fdalloc, hf]⟩

theorem sysOpen_of_openable {d : Dir} {used : Nat} {ofile : Fin noFile → Bool} {name : String}
    (ho : Openable d name) (hu : used < nFile) (hfd : ∃ fd, ofile fd = false) :
    ∃ (d' : Dir) (ofile' : Fin noFile → Bool) (fd : Int), sysOpen d used ofile name (oCreate ||| oWronly) =
      some (d', used + 1, ofile', fd) ∧ 0 ≤ fd ∧ FileAt d' name := by
  obtain ⟨d', inum, hc, hfile⟩ := create_of_openable ho
  obtain ⟨ofile', fd, hf⟩ := fdalloc_of_free hfd
  have hmode : (oCreate ||| oWronly) &&& oCreate ≠ 0 := by decide
  refine ⟨d', ofile', fd, ?_, by omega, hfile⟩
  simp [sysOpen, openInode, hmode, hc, filealloc, hu, hf]

section Children

variable {n : Nat} {s s' : Children n} {i j : Fin n}

lemma childStep_acquire (hpc : s.pc i = .acquiring) (ho : Openable s.dir lockName)
    (hu : s.used < nFile) (hfd : ∃ fd, s.ofile i fd = false) :
    ∃ s', childStep s i = some s' ∧ s'.pc = Function.update s.pc i .critical ∧
      s'.used = s.used + 1 ∧ FileAt s'.dir lockName ∧ ∀ j, j ≠ i → s'.ofile j = s.ofile j := by
  obtain ⟨d', ofile', fd, hopen, hfd0, hfile⟩ := sysOpen_of_openable ho hu hfd
  have hpc' : (if fd < 0 then Pc.acquiring else Pc.critical) = .critical := if_neg (by omega)
  refine ⟨_, by simp only [childStep, hpc, hopen]; rfl, ?_, rfl, hfile, ?_⟩
  · simp only [hpc']
  · intro j hj
    exact Function.update_of_ne hj _ _

theorem two_children_enter (hij : i ≠ j) (hi : s.pc i = .acquiring) (hj : s.pc j = .acquiring)
    (ho : Openable s.dir lockName) (hu : s.used + 1 < nFile)
    (hfi : ∃ fd, s.ofile i fd = false) (hfj : ∃ fd, s.ofile j fd = false) :
    ∃ s', Run.exec childStep s [i, j] = some s' ∧ s'.pc i = .critical ∧ s'.pc j = .critical := by
  obtain ⟨s₁, h₁, hpc₁, hu₁, hfile₁, hof₁⟩ := childStep_acquire hi ho (by omega) hfi
  have hj₁ : s₁.pc j = .acquiring := by rw [hpc₁, Function.update_of_ne hij.symm, hj]
  obtain ⟨s₂, h₂, hpc₂, -, -, -⟩ :=
    childStep_acquire hj₁ (Or.inl hfile₁) (by omega) (by rw [hof₁ j hij.symm]; exact hfj)
  refine ⟨s₂, by simp [Run.exec_cons, h₁, h₂], ?_, ?_⟩
  · rw [hpc₂, Function.update_of_ne hij, hpc₁, Function.update_self]
  · rw [hpc₂, Function.update_self]

end Children

def rootDir : Dir where
  entries := [(".", 1), ("..", 1)]
  inodes := fun i => if i = 1 then ⟨.dir, 1⟩ else ⟨.free, 0⟩
  ninodes := 200

def Children.start (n : Nat) (d : Dir) (used : Nat) : Children n where
  dir := d
  used := used
  ofile := fun _ fd => decide (fd.val < 3)
  pc := fun _ => .acquiring
  num := 0
  fact := 0

theorem lockfile_admits_two_children :
    ∃ s, Run.exec childStep (Children.start 2 rootDir 1) [0, 1] = some s ∧
      s.pc 0 = .critical ∧ s.pc 1 = .critical :=
  two_children_enter (by decide) rfl rfl (Or.inr ⟨by decide, _, _, rfl⟩) (by decide)
    ⟨⟨3, by decide⟩, rfl⟩ ⟨⟨3, by decide⟩, rfl⟩

end Xv6.Fs
