import Mathlib.Tactic.TypeStar
import Mathlib.Tactic.Lemma

/-! Accesses to a C array at an `int` index: an index outside the array is undefined
behaviour, `none` here. -/

namespace CArray

variable {α : Type*}

def listGet? (l : List α) (i : Int) : Option α := if 0 ≤ i then l[i.toNat]? else none

lemma listGet?_eq_none {l : List α} {i : Int} (h : l.length ≤ i) : listGet? l i = none := by
  unfold listGet?
  split
  · exact List.getElem?_eq_none (by omega)
  · rfl

def index? (n : Nat) : Int → Option (Fin n)
  | .ofNat k => if h : k < n then some ⟨k, h⟩ else none
  | .negSucc _ => none

lemma index?_eq_some {n : Nat} {i : Int} {j : Fin n} : index? n i = some j ↔ (j : Int) = i := by
  cases i with
  | ofNat k =>
    simp only [index?]
    split
    · rename_i h
      constructor
      · intro e
        cases e
        rfl
      · intro hj
        have hk : (j : Nat) = k := Int.ofNat.inj hj
        subst hk
        rfl
    · rename_i h
      constructor
      · intro e
        cases e
      · intro hj
        have hk : (j : Nat) = k := Int.ofNat.inj hj
        exact absurd (hk ▸ j.isLt) h
  | negSucc k =>
    simp only [index?]
    constructor
    · intro e
      cases e
    · intro hj
      have := Int.natCast_nonneg (j : Nat)
      omega

lemma index?_fin {n : Nat} (j : Fin n) : index? n j = some j := index?_eq_some.mpr rfl

end CArray
