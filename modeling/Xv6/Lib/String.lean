import Mathlib.Logic.Function.Basic
import Mathlib.Tactic.Lemma

/-! `memmove` of `string.c`, on one address space `m : Nat → α` (bytes for the kernel, any cell
type for the proof). It copies down from the ends when `src` lies below `dst` within `n` bytes,
and up from the starts otherwise; either way it moves the `n` bytes as they were before the call
(`memmove_apply`). -/

namespace Xv6

variable {α : Type*}

def copyForward (m : Nat → α) (s d : Nat) : Nat → Nat → α
  | 0 => m
  | n + 1 => copyForward (Function.update m d (m s)) (s + 1) (d + 1) n

def copyBackward (m : Nat → α) (s d : Nat) : Nat → Nat → α
  | 0 => m
  | n + 1 => copyBackward (Function.update m (d - 1) (m (s - 1))) (s - 1) (d - 1) n

def memmove (m : Nat → α) (dst src n : Nat) : Nat → α :=
  if src < dst ∧ src + n > dst then copyBackward m (src + n) (dst + n) n
  else copyForward m src dst n

lemma copyForward_apply (m : Nat → α) (s d n : Nat)
    (hsafe : ∀ i j, i < j → j < n → d + i ≠ s + j) (a : Nat) :
    copyForward m s d n a = if d ≤ a ∧ a < d + n then m (s + (a - d)) else m a := by
  induction n generalizing m s d with
  | zero =>
    simp only [copyForward]
    rw [if_neg (by omega)]
  | succ n ih =>
    have hsafe' : ∀ i j, i < j → j < n → d + 1 + i ≠ s + 1 + j := fun i j hij hj => by
      have := hsafe (i + 1) (j + 1) (by omega) (by omega)
      omega
    rw [copyForward, ih _ _ _ hsafe']
    by_cases ha : d + 1 ≤ a ∧ a < d + 1 + n
    · have hne : s + 1 + (a - (d + 1)) ≠ d := fun h =>
        hsafe 0 (a - d) (by omega) (by omega) (by omega)
      rw [if_pos ha, Function.update_of_ne hne, if_pos (by omega)]
      congr 1
      omega
    · rw [if_neg ha]
      by_cases had : a = d
      · subst had
        rw [Function.update_self, if_pos (by omega), Nat.sub_self, Nat.add_zero]
      · rw [Function.update_of_ne had, if_neg (by omega)]

lemma copyBackward_apply (m : Nat → α) (s d n : Nat)
    (hsafe : ∀ i j, j < i → i < n → d + i ≠ s + j) (a : Nat) :
    copyBackward m (s + n) (d + n) n a = if d ≤ a ∧ a < d + n then m (s + (a - d)) else m a := by
  induction n generalizing m with
  | zero =>
    simp only [copyBackward]
    rw [if_neg (by omega)]
  | succ n ih =>
    have hsafe' : ∀ i j, j < i → i < n → d + i ≠ s + j := fun i j hji hi =>
      hsafe i j hji (by omega)
    rw [copyBackward, show s + (n + 1) - 1 = s + n by omega, show d + (n + 1) - 1 = d + n by omega,
      ih _ hsafe']
    by_cases ha : d ≤ a ∧ a < d + n
    · have hne : s + (a - d) ≠ d + n := fun h => hsafe n (a - d) (by omega) (by omega) h.symm
      rw [if_pos ha, Function.update_of_ne hne, if_pos (by omega)]
    · rw [if_neg ha]
      by_cases had : a = d + n
      · subst had
        rw [Function.update_self, if_pos (by omega), Nat.add_sub_cancel_left]
      · rw [Function.update_of_ne had, if_neg (by omega)]

lemma memmove_apply (m : Nat → α) (dst src n a : Nat) :
    memmove m dst src n a = if dst ≤ a ∧ a < dst + n then m (src + (a - dst)) else m a := by
  unfold memmove
  by_cases hback : src < dst ∧ src + n > dst
  · rw [if_pos hback, copyBackward_apply m src dst n (fun i j hji _ => by omega)]
  · rw [if_neg hback, copyForward_apply m src dst n (fun i j hij hj => by omega)]

lemma memmove_copied (m : Nat → α) (dst src n : Nat) {i : Nat} (hi : i < n) :
    memmove m dst src n (dst + i) = m (src + i) := by
  rw [memmove_apply, if_pos (by omega), Nat.add_sub_cancel_left]

lemma memmove_outside (m : Nat → α) (dst src n : Nat) {a : Nat} (ha : a < dst ∨ dst + n ≤ a) :
    memmove m dst src n a = m a := by
  rw [memmove_apply, if_neg (by omega)]

theorem memmove_overlap_safe (m : Nat → α) (dst src n : Nat) :
    (∀ i < n, memmove m dst src n (dst + i) = m (src + i)) ∧
      ∀ a, (a < dst ∨ dst + n ≤ a) → memmove m dst src n a = m a :=
  ⟨fun _ hi => memmove_copied m dst src n hi, fun _ ha => memmove_outside m dst src n ha⟩

end Xv6
