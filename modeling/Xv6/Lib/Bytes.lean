import Mathlib.Data.List.Basic
import Mathlib.Data.List.GetD
import Mathlib.Tactic.IntervalCases

/-! Byte buffers addressed from zero, as `memmove`, `bcopy` and a cast to `uint *` see a disk
block or a `char` array: copying a list of bytes in at an offset, reading bytes out, and the
little-endian 32-bit words of an x86 `uint` array. A C string is the list of its characters
before the terminating `NUL`. -/

namespace Bytes

abbrev Buf := Nat → UInt8

def zero : Buf := fun _ => 0

def write (b : Buf) (pos : Nat) (p : List UInt8) : Buf :=
  fun o => if pos ≤ o ∧ o < pos + p.length then p.getD (o - pos) 0 else b o

def read (b : Buf) (pos n : Nat) : List UInt8 := (List.range n).map fun k => b (pos + k)

def u32Bytes (v : Nat) : List UInt8 :=
  [v.toUInt8, (v / 256).toUInt8, (v / 65536).toUInt8, (v / 16777216).toUInt8]

def getU32 (b : Buf) (k : Nat) : Nat :=
  (b (4 * k)).toNat + 256 * (b (4 * k + 1)).toNat + 65536 * (b (4 * k + 2)).toNat +
    16777216 * (b (4 * k + 3)).toNat

def setU32 (b : Buf) (k v : Nat) : Buf := write b (4 * k) (u32Bytes v)

def safestrcpy {α : Type*} (t : List α) (n : Nat) : List α := t.take (n - 1)

def lastAfter {α : Type*} [DecidableEq α] (sep : α) : List α → List α → List α
  | last, [] => last
  | last, c :: s => lastAfter sep (if c = sep then s else last) s

def bit (k : Nat) : UInt8 := (1 <<< k).toUInt8

lemma toNat_bit {k : Nat} (hk : k < 8) : (bit k).toNat = 2 ^ k := by
  interval_cases k <;> decide

lemma and_bit_ne_zero (x : UInt8) {k : Nat} (hk : k < 8) :
    (x &&& bit k != 0) = x.toNat.testBit k := by
  have hnat : (x &&& bit k).toNat = x.toNat &&& 2 ^ k := by
    rw [UInt8.toNat_and, toNat_bit hk]
  have hbit : (x.toNat &&& 2 ^ k).testBit k = x.toNat.testBit k := by
    simp [Nat.testBit_and]
  cases h : x.toNat.testBit k
  · have h0 : x &&& bit k = 0 := by
      apply UInt8.toNat_inj.mp
      rw [hnat, UInt8.toNat_zero]
      apply Nat.eq_of_testBit_eq
      intro i
      rw [Nat.testBit_and, Nat.testBit_two_pow, Nat.zero_testBit]
      by_cases hi : k = i
      · subst hi
        simp [h]
      · simp [hi]
    simp [h0]
  · have hne : x &&& bit k ≠ 0 := by
      intro h0
      rw [h0, UInt8.toNat_zero] at hnat
      rw [← hnat, Nat.zero_testBit, h] at hbit
      exact Bool.false_ne_true hbit
    simp [hne]

lemma testBit_or_bit (x : UInt8) {j : Nat} (hj : j < 8) (k : Nat) :
    (x ||| bit j).toNat.testBit k = (x.toNat.testBit k || decide (j = k)) := by
  rw [UInt8.toNat_or, toNat_bit hj, Nat.testBit_or, Nat.testBit_two_pow]

@[simp] lemma write_of_lt {b : Buf} {pos o : Nat} (p : List UInt8) (h : o < pos) :
    write b pos p o = b o := by
  simp [write, Nat.not_le.mpr h]

@[simp] lemma write_of_ge {b : Buf} {pos o : Nat} {p : List UInt8} (h : pos + p.length ≤ o) :
    write b pos p o = b o := by
  simp only [write]
  rw [if_neg (by omega)]

lemma write_self (b : Buf) (pos : Nat) (p : List UInt8) :
    write (write b pos p) pos p = write b pos p := by
  funext o
  simp only [write]
  split <;> rfl

@[simp] lemma write_nil (b : Buf) (pos : Nat) : write b pos [] = b := by
  funext o
  simp [write]

lemma write_append (b : Buf) (pos : Nat) (p q : List UInt8) :
    write (write b pos p) (pos + p.length) q = write b pos (p ++ q) := by
  funext o
  simp only [write, List.length_append]
  by_cases hq : pos + p.length ≤ o ∧ o < pos + p.length + q.length
  · rw [if_pos hq, if_pos (by omega), List.getD_append_right _ _ _ _ (by omega)]
    congr 1
    omega
  · rw [if_neg hq]
    by_cases hp : pos ≤ o ∧ o < pos + p.length
    · rw [if_pos hp, if_pos (by omega), List.getD_append _ _ _ _ (by omega)]
    · rw [if_neg hp, if_neg (by omega)]

lemma read_add (b : Buf) (pos m k : Nat) : read b pos (m + k) = read b pos m ++ read b (pos + m) k := by
  simp only [read, List.range_add, List.map_append, List.map_map]
  congr 1
  apply List.map_congr_left
  intro i _
  simp [Nat.add_assoc]

@[simp] lemma length_read (b : Buf) (pos n : Nat) : (read b pos n).length = n := by
  simp [read]

lemma getElem_read (b : Buf) (pos n : Nat) {i : Nat} (h : i < (read b pos n).length) :
    (read b pos n)[i] = b (pos + i) := by
  simp [read]

lemma read_write_self (b : Buf) (pos : Nat) (p : List UInt8) :
    read (write b pos p) pos p.length = p := by
  apply List.ext_getElem (length_read _ _ _)
  intro i h1 h2
  rw [getElem_read, write, if_pos (by omega), Nat.add_sub_cancel_left, List.getD_eq_getElem _ _ h2]

lemma read_write_zeros {b : Buf} {q n : Nat} (h : read b q n = List.replicate n 0) (pos k : Nat) :
    read (write b pos (List.replicate k 0)) q n = List.replicate n 0 := by
  apply List.ext_getElem (by simp)
  intro i h1 h2
  have hi : i < (read b q n).length := by simpa using h2
  have hb : b (q + i) = 0 := by
    rw [← getElem_read b q n hi, List.getElem_of_eq h hi, List.getElem_replicate]
  rw [getElem_read, List.getElem_replicate, write]
  split
  · simp only [List.getD_eq_getElem?_getD, List.getElem?_replicate]
    split <;> rfl
  · exact hb

lemma getU32_setU32_self (b : Buf) (k : Nat) {v : Nat} (hv : v < 2 ^ 32) :
    getU32 (setU32 b k v) k = v := by
  simp [getU32, setU32, write, u32Bytes]
  omega

lemma getU32_setU32_of_ne (b : Buf) {j k : Nat} (v : Nat) (h : j ≠ k) :
    getU32 (setU32 b k v) j = getU32 b j := by
  have hlen : (u32Bytes v).length = 4 := rfl
  simp only [getU32, setU32]
  rcases Nat.lt_or_gt_of_ne h with hjk | hjk
  · rw [write_of_lt _ (by omega), write_of_lt _ (by omega), write_of_lt _ (by omega),
      write_of_lt _ (by omega)]
  · rw [write_of_ge (by omega), write_of_ge (by omega), write_of_ge (by omega),
      write_of_ge (by omega)]

end Bytes
