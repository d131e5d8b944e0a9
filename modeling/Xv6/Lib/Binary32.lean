import Mathlib.Algebra.Order.Ring.Rat
import Mathlib.Algebra.Order.Floor.Defs
import Mathlib.Data.Rat.Floor

/-! IEEE 754 binary32 (`float`) with rounding to nearest, ties to even, at every operation.
A finite value is kept as the rational it denotes: a 24-bit significand times a power of two
from `2 ^ -149` on, so subnormals are included and overflow goes to an infinity. The sign of a
zero is not kept. -/

namespace Binary32

inductive F32
  | finite (x : ℚ)
  | inf (neg : Bool)
  | nan
deriving DecidableEq

def rne (num den : Nat) : Nat :=
  let f := num / den
  let r := num % den
  if 2 * r < den then f
  else if den < 2 * r then f + 1
  else if f % 2 = 0 then f else f + 1

def pow2 (k : Int) : ℚ := (2 : ℚ) ^ k

def floorLog2 (n d : Nat) : Int :=
  let k : Int := (Nat.log2 n : Int) - Nat.log2 d
  if ((n : ℚ) / d) < pow2 k then k - 1 else k

def roundPos (n d : Nat) : ℚ :=
  let s := max (floorLog2 n d - 23) (-149)
  let q : ℚ := (n : ℚ) / d / pow2 s
  (rne q.num.toNat q.den : ℚ) * pow2 s

def round (x : ℚ) : F32 :=
  if x = 0 then .finite 0
  else
    let r := roundPos |x|.num.toNat |x|.den
    if (2 : ℚ) ^ 128 ≤ r then .inf (decide (x < 0))
    else .finite (if x < 0 then -r else r)

def ofInt (n : Int) : F32 := round n

def neg : F32 → F32
  | .finite x => .finite (-x)
  | .inf s => .inf (!s)
  | .nan => .nan

def mul : F32 → F32 → F32
  | .finite a, .finite b => round (a * b)
  | .finite a, .inf s => if a = 0 then .nan else .inf (s != decide (a < 0))
  | .inf s, .finite b => if b = 0 then .nan else .inf (s != decide (b < 0))
  | .inf s, .inf t => .inf (s != t)
  | _, _ => .nan

def div : F32 → F32 → F32
  | .finite a, .finite b =>
    if b = 0 then (if a = 0 then .nan else .inf (decide (a < 0))) else round (a / b)
  | .finite _, .inf _ => .finite 0
  | .inf s, .finite b => .inf (s != decide (b < 0))
  | _, _ => .nan

def lt : F32 → F32 → Bool
  | .finite a, .finite b => decide (a < b)
  | .inf true, .finite _ => true
  | .finite _, .inf false => true
  | .inf true, .inf false => true
  | _, _ => false

def toInt? : F32 → Option Int
  | .finite x =>
    let t : Int := if 0 ≤ x then ⌊x⌋ else ⌈x⌉
    if -2147483648 ≤ t ∧ t ≤ 2147483647 then some t else none
  | _ => none

example : ofInt 16777217 = .finite 16777216 := by decide +kernel
example : ofInt 16777219 = .finite 16777220 := by decide +kernel
example : toInt? (mul (div (ofInt 7) (ofInt 2)) (ofInt 10)) = some 35 := by decide +kernel

end Binary32
