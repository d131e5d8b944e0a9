import Mathlib

/-! A ring buffer over free-running counts. The buffer has `cap` slots, an element counted `k`
sits in slot `k % cap`, and the elements between the count `r` of those taken and the count
`w` of those put form the window. The counts themselves may be kept modulo any `M` that `cap`
divides: then the slot of `k % M` is the slot of `k`, and two counts less than `M` apart are
equal exactly when their residues are. -/

namespace Ring

variable {α : Type*} {cap : Nat} [NeZero cap]

def slot (cap : Nat) [NeZero cap] (k : Nat) : Fin cap :=
  ⟨k % cap, Nat.mod_lt _ (Nat.pos_of_neZero cap)⟩

def window (data : Fin cap → α) (r : Nat) : Nat → List α
  | 0 => []
  | count + 1 => data (slot cap r) :: window data (r + 1) count

@[simp] lemma window_zero (data : Fin cap → α) (r : Nat) : window data r 0 = [] := rfl

lemma window_succ (data : Fin cap → α) (r count : Nat) :
    window data r (count + 1) = data (slot cap r) :: window data (r + 1) count := rfl

@[simp] lemma window_length (data : Fin cap → α) (r count : Nat) :
    (window data r count).length = count := by
  induction count generalizing r with
  | zero => rfl
  | succ count ih => simp [window_succ, ih]

lemma window_concat (data : Fin cap → α) (r count : Nat) :
    window data r (count + 1) = window data r count ++ [data (slot cap (r + count))] := by
  induction count generalizing r with
  | zero => rfl
  | succ count ih =>
    rw [window_succ, ih, window_succ, List.cons_append,
      show r + 1 + count = r + (count + 1) by omega]

lemma slot_add_ne {r k c : Nat} (hk : k < c) (hc : c < cap) :
    slot cap (r + k) ≠ slot cap (r + c) := by
  intro h
  have hmod : (r + c - (r + k)) % cap = 0 :=
    Nat.sub_mod_eq_zero_of_mod_eq (congrArg Fin.val h).symm
  have hzero : c - k = 0 :=
    Nat.eq_zero_of_dvd_of_lt (Nat.dvd_of_mod_eq_zero (by rwa [Nat.add_sub_add_left] at hmod))
      (by omega)
  omega

lemma window_update_of_ne {data : Fin cap → α} {r count : Nat} {i : Fin cap} (x : α)
    (h : ∀ k, k < count → slot cap (r + k) ≠ i) :
    window (Function.update data i x) r count = window data r count := by
  induction count generalizing r with
  | zero => rfl
  | succ count ih =>
    have h' : ∀ k, k < count → slot cap (r + 1 + k) ≠ i := fun k hk => by
      rw [show r + 1 + k = r + (k + 1) by omega]
      exact h (k + 1) (by omega)
    rw [window_succ, window_succ, ih h', Function.update_of_ne (by simpa using h 0 (by omega))]

lemma window_push (data : Fin cap → α) (r count : Nat) (x : α) (hc : count < cap) :
    window (Function.update data (slot cap (r + count)) x) r (count + 1) =
      window data r count ++ [x] := by
  rw [window_concat, Function.update_self,
    window_update_of_ne x fun k hk => slot_add_ne hk hc]

variable {M : Nat}

lemma slot_mod (hM : cap ∣ M) (k : Nat) : slot cap (k % M) = slot cap k :=
  Fin.ext (Nat.mod_mod_of_dvd k hM)

lemma mod_eq_mod_iff {a b : Nat} (hab : a ≤ b) (hba : b - a < M) : a % M = b % M ↔ a = b := by
  refine ⟨fun h => ?_, fun h => h ▸ rfl⟩
  have hdvd : M ∣ b - a := Nat.dvd_of_mod_eq_zero (Nat.sub_mod_eq_zero_of_mod_eq h.symm)
  have := Nat.eq_zero_of_dvd_of_lt hdvd hba
  omega

lemma sub_mod_mod {a b : Nat} (hab : a ≤ b) (hba : b - a < M) :
    (((b % M : Nat) : Int) - ((a % M : Nat) : Int)) % (M : Int) = ((b - a : Nat) : Int) := by
  rw [Int.natCast_mod, Int.natCast_mod, ← Int.sub_emod, ← Int.ofNat_sub hab]
  exact Int.emod_eq_of_lt (Int.natCast_nonneg _) (by exact_mod_cast hba)

end Ring
