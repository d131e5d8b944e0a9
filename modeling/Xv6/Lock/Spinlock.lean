import Mathlib.Tactic.Lemma

/-! `acquire` and `release` of `spinlock.c` as seen by the CPU that runs the caller while no
other CPU holds the lock: the state is whether this CPU holds it, and each panic (`acquire`
of a held lock, `release` of one not held) is `none`. -/

namespace Xv6.Spinlock

def acquire (held : Bool) : Option Bool := if held then none else some true

def release (held : Bool) : Option Bool := if held then some false else none

def releaseTimes : Bool → Nat → Option Bool
  | held, 0 => some held
  | held, k + 1 => (release held).bind (releaseTimes · k)

@[simp] lemma releaseTimes_zero (held : Bool) : releaseTimes held 0 = some held := rfl

lemma releaseTimes_true_add_two (k : Nat) : releaseTimes true (k + 2) = none := rfl

end Xv6.Spinlock
