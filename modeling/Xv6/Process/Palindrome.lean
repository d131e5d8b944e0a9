import Xv6.Lib.CInt
import Mathlib.Data.Nat.Digits.Defs

/-! `create_palindrome` of `proc.c`, reached through `sys_create_palindrome` with the `int` the
user left in `ebx`. Its loop appends the digits of `num`, last first, to `answer = num`, so the
value is `num` written forwards then backwards (`mirror`). Every step of the loop only grows
`answer`, so the loop overflows `int` exactly when that value does (`createPalindrome_eq`); for
six or more digits it always does. -/

namespace Xv6.Process

open CInt

def palindromeLoop : Nat → Int → Int → Option Int
  | 0, _, _ => none
  | fuel + 1, temp, answer =>
    if temp ≠ 0 then do
      let a ← ofInt? (answer * 10)
      let a ← ofInt? (a + temp.tmod 10)
      palindromeLoop fuel (temp.tdiv 10) a
    else some answer

def createPalindrome (num : Int) : Option Int := palindromeLoop (num.natAbs + 1) num num

def mirror (n : Nat) : Nat := Nat.ofDigits 10 ((Nat.digits 10 n).reverse ++ Nat.digits 10 n)

lemma mirror_eq (n : Nat) :
    mirror n = Nat.ofDigits 10 (Nat.digits 10 n).reverse + 10 ^ (Nat.digits 10 n).length * n := by
  rw [mirror, Nat.ofDigits_append, List.length_reverse, Nat.ofDigits_digits]

lemma palindromeLoop_eq (fuel m : Nat) (a : Int) (ha : 0 ≤ a ∧ a ≤ intMax) (hfuel : m < fuel) :
    palindromeLoop fuel m a =
      let v := a * 10 ^ (Nat.digits 10 m).length + (Nat.ofDigits 10 (Nat.digits 10 m).reverse : Nat)
      if v ≤ intMax then some v else none := by
  induction fuel generalizing m a with
  | zero => omega
  | succ fuel ih =>
    by_cases hm : m = 0
    · subst hm
      simp only [palindromeLoop, Nat.cast_zero, ne_eq, not_true_eq_false, if_false, Nat.digits_zero,
        List.length_nil, pow_zero, mul_one, List.reverse_nil, Nat.ofDigits_nil, add_zero]
      rw [if_pos ha.2]
    · have hdig := Nat.digits_eq_cons_digits_div (by decide : 1 < 10) hm
      have hv : a * 10 ^ (Nat.digits 10 m).length + (Nat.ofDigits 10 (Nat.digits 10 m).reverse : Nat) =
          (a * 10 + (m % 10 : Nat)) * 10 ^ (Nat.digits 10 (m / 10)).length +
            (Nat.ofDigits 10 (Nat.digits 10 (m / 10)).reverse : Nat) := by
        rw [hdig, List.length_cons, Nat.ofDigits_reverse_cons, pow_succ]
        push_cast
        ring
      have hgrow : a * 10 + (m % 10 : Nat) ≤ (a * 10 + (m % 10 : Nat)) * 10 ^ (Nat.digits 10 (m / 10)).length :=
        le_mul_of_one_le_right (by omega) (one_le_pow₀ (by decide))
      have htemp : (m : Int) ≠ 0 := by exact_mod_cast hm
      have htmod : (m : Int).tmod 10 = (m % 10 : Nat) := by rw [Int.ofNat_tmod]; rfl
      have htdiv : (m : Int).tdiv 10 = ((m / 10 : Nat) : Int) := by rw [Int.ofNat_tdiv]; rfl
      simp only [palindromeLoop, ne_eq, htemp, not_false_eq_true, if_true, htmod, htdiv,
        Option.bind_eq_bind]
      rw [hv]
      by_cases h1 : a * 10 ≤ intMax
      · rw [(ofInt?_eq_some (y := a * 10)).mpr ⟨by simp only [intMin]; omega, h1, rfl⟩, Option.bind_some]
        by_cases h2 : a * 10 + (m % 10 : Nat) ≤ intMax
        · rw [(ofInt?_eq_some (y := a * 10 + (m % 10 : Nat))).mpr ⟨by simp only [intMin]; omega, h2, rfl⟩,
            Option.bind_some, ih (m / 10) (a * 10 + (m % 10 : Nat)) ⟨by omega, h2⟩ (by omega)]
        · have hnone : ofInt? (a * 10 + (m % 10 : Nat)) = none := by
            unfold ofInt?
            rw [if_neg (by omega)]
          rw [hnone, Option.bind_none, if_neg (by omega)]
      · have hnone : ofInt? (a * 10) = none := by
          unfold ofInt?
          rw [if_neg (by omega)]
        rw [hnone, Option.bind_none, if_neg (by omega)]

theorem createPalindrome_eq (n : Int) (hn : 0 < n) (hmax : n ≤ intMax) :
    createPalindrome n = if (mirror n.toNat : Int) ≤ intMax then some (mirror n.toNat : Int) else none := by
  obtain ⟨m, rfl⟩ := Int.eq_ofNat_of_zero_le hn.le
  rw [createPalindrome, Int.natAbs_natCast, palindromeLoop_eq (m + 1) m m ⟨hn.le, hmax⟩ (by omega),
    Int.toNat_natCast, mirror_eq]
  push_cast
  rw [add_comm (_ * _), mul_comm (m : Int)]

theorem create_palindrome_overflows :
    intMax < (mirror 100000 : Int) ∧ createPalindrome 100000 = none := by
  refine ⟨by decide, ?_⟩
  rw [createPalindrome_eq 100000 (by decide) (by decide), if_neg (by decide)]

end Xv6.Process
