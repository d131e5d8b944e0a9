import Xv6.Param
import Xv6.Lib.Bytes

/-! The on-disk format of `fs.h` and `stat.h`, shared by `mkfs` and the kernel: the superblock
`mkfs` computes, the `struct dinode` records of the inode blocks, and the other blocks as bytes.
The inode blocks are kept as a table of records, since `mkfs`'s `winode` and the kernel's `ilock`
and `iupdate` cast the same block to the same `struct dinode` array at the same `IBLOCK`. -/

namespace Xv6.Fs

def rootIno : Nat := 1
def bsize : Nat := 1024
def nDirect : Nat := 12
def nIndirect : Nat := bsize / 4
def maxFile : Nat := nDirect + nIndirect
def bpb : Nat := bsize * 8
def dirsiz : Nat := 14
def direntSize : Nat := 2 + dirsiz

inductive IType
  | free | dir | file | dev
  deriving DecidableEq, Repr

structure Dinode where
  type : IType
  nlink : Int
  size : Nat
  addrs : Nat → Nat

def Dinode.zero : Dinode := ⟨.free, 0, 0, fun _ => 0⟩

structure Disk where
  blocks : Nat → Bytes.Buf
  inodes : Nat → Dinode

def nInodes : Nat := 200
def fsSize : Nat := 1000
def ipb : Nat := bsize / 64
def nlog : Nat := logSize
def ninodeblocks : Nat := nInodes / ipb + 1
def nbitmap : Nat := fsSize / bpb + 1
def nmeta : Nat := 2 + nlog + ninodeblocks + nbitmap

structure Superblock where
  size : Nat
  nblocks : Nat
  ninodes : Nat
  nlog : Nat
  logstart : Nat
  inodestart : Nat
  bmapstart : Nat

def sb : Superblock where
  size := fsSize
  nblocks := fsSize - nmeta
  ninodes := nInodes
  nlog := nlog
  logstart := 2
  inodestart := 2 + nlog
  bmapstart := 2 + nlog + ninodeblocks

def bblock (b : Nat) : Nat := b / bpb + sb.bmapstart

def bitSet (d : Disk) (b : Nat) : Bool :=
  (d.blocks (bblock b) (b % bpb / 8) &&& Bytes.bit (b % 8)) != 0

end Xv6.Fs
