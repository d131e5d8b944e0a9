import Mathlib.Tactic.Ring

/-! C integer arithmetic on a 32-bit target (`int` and `unsigned int` of the ILP32 ABI).
Unsigned arithmetic is reduction modulo `2 ^ 32` and the conversion of an unsigned value to
`int` is two's complement, as gcc defines it. Signed overflow, undefined in C, is either
reported (`add?`) or taken as the two's-complement wrap of the compiled `add` (`wrap`). -/

namespace CInt

def intMin : Int := -2147483648
def intMax : Int := 2147483647

def ofInt? (x : Int) : Option Int := if intMin ≤ x ∧ x ≤ intMax then some x else none

def add? (a b : Int) : Option Int := ofInt? (a + b)

def toUint (x : Int) : Nat := (x % 4294967296).toNat

def toInt (x : Nat) : Int :=
  if x % 4294967296 < 2147483648 then ((x % 4294967296 : Nat) : Int)
  else ((x % 4294967296 : Nat) : Int) - 4294967296

def wrap (x : Int) : Int := toInt (toUint x)

def toSchar (x : Int) : Int := (x + 128) % 256 - 128

lemma ofInt?_eq_some {x y : Int} : ofInt? x = some y ↔ intMin ≤ x ∧ x ≤ intMax ∧ x = y := by
  unfold ofInt?
  split_ifs with h
  · simp only [Option.some.injEq]
    exact ⟨fun e => ⟨h.1, h.2, e⟩, fun e => e.2.2⟩
  · simp only [false_iff]
    intro e
    exact h ⟨e.1, e.2.1⟩

lemma toUint_of_range {x : Int} (h0 : 0 ≤ x) (h1 : x < 4294967296) : toUint x = x.toNat := by
  unfold toUint
  omega

lemma toInt_of_lt {x : Nat} (h : x < 2147483648) : toInt x = x := by
  unfold toInt
  rw [if_pos (by omega), Nat.mod_eq_of_lt (by omega)]

lemma wrap_of_range {x : Int} (h0 : intMin ≤ x) (h1 : x ≤ intMax) : wrap x = x := by
  unfold wrap toInt toUint
  unfold intMin intMax at *
  split_ifs <;> omega

lemma wrap_add (x y : Int) : wrap (wrap x + y) = wrap (x + y) := by
  unfold wrap toInt toUint
  split_ifs <;> omega

lemma wrap_emod (x : Int) : wrap x % 4294967296 = x % 4294967296 := by
  unfold wrap toInt toUint
  split_ifs <;> omega

lemma wrap_mem (x : Int) : intMin ≤ wrap x ∧ wrap x ≤ intMax := by
  unfold wrap toInt toUint intMin intMax
  split_ifs <;> omega

lemma wrap_eq_of_emod {x y : Int} (hy : intMin ≤ y ∧ y ≤ intMax) (h : x % 4294967296 = y % 4294967296) :
    wrap x = y := by
  unfold wrap toInt toUint
  unfold intMin intMax at hy
  split_ifs <;> omega

end CInt
