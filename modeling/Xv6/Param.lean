import Mathlib

/-! The kernel's configuration constants, from `param.h`, `memlayout.h`, `mmu.h` and `proc.h`. -/

namespace Xv6

def nproc : Nat := 64
def ncpu : Nat := 8
def noFile : Nat := 16
def nFile : Nat := 100
def maxOpBlocks : Nat := 10
def logSize : Nat := maxOpBlocks * 3
def nbuf : Nat := maxOpBlocks * 3
def ninode : Nat := 50

def pgSize : Nat := 4096
def kernBase : Nat := 0x80000000
def heapLimit : Nat := 0x7F000000
def phystop : Nat := 0xE000000

def ptxShift : Nat := 12
def pdxShift : Nat := 22
def ptePresent : Nat := 0x001
def pteWritable : Nat := 0x002
def pteUser : Nat := 0x004

def maxSyscalls : Nat := 50
def numSharedMemory : Nat := 64

instance : NeZero nproc := ⟨by decide⟩
instance : NeZero maxSyscalls := ⟨by decide⟩
instance : NeZero numSharedMemory := ⟨by decide⟩

def v2p (a : Nat) : Nat := (a + 4294967296 - kernBase) % 4294967296
def p2v (a : Nat) : Nat := (a + kernBase) % 4294967296

end Xv6
