import Mathlib.Logic.Equiv.Defs
import Mathlib.Logic.Equiv.Basic
import Mathlib.Order.Fin.Basic
import Mathlib.Tactic.Set

/-! In-place sorting loops on an array `Fin n → α` with a comparison `gt`: the bubble sort
that swaps neighbours `j, j + 1` while `j < n - i - 1`, for `i < n - 1`, and the exchange sort
that swaps `i` and `j` for every `i < j`. A swap composes the array with a transposition, so
every run of the exchange sort is a permutation of its input. On a comparison of keys the exchange
sort leaves the keys in nondecreasing order: its pass for row `i` leaves a least key of the rows
from `i` on in row `i` (`PassInv`), and the rows above keep theirs (`SortedAbove`). -/

namespace Sorting

variable {n : Nat} {α : Type*}

def compareSwap (gt : α → α → Bool) (d : Fin n → α) (j : Nat) : Fin n → α :=
  if h : j + 1 < n then
    if gt (d ⟨j, by omega⟩) (d ⟨j + 1, h⟩) then d ∘ Equiv.swap ⟨j, by omega⟩ ⟨j + 1, h⟩ else d
  else d

def bubblePass (gt : α → α → Bool) (d : Fin n → α) (i : Nat) : Fin n → α :=
  (List.range (n - i - 1)).foldl (compareSwap gt) d

def bubbleSort (gt : α → α → Bool) (d : Fin n → α) : Fin n → α :=
  (List.range (n - 1)).foldl (bubblePass gt) d

lemma foldl_perm {β : Type*} (step : (Fin n → α) → β → Fin n → α)
    (hstep : ∀ d b, ∃ σ : Equiv.Perm (Fin n), step d b = d ∘ σ) (l : List β) (d : Fin n → α) :
    ∃ σ : Equiv.Perm (Fin n), l.foldl step d = d ∘ σ := by
  induction l generalizing d with
  | nil => exact ⟨Equiv.refl _, rfl⟩
  | cons b l ih =>
    obtain ⟨σ, hσ⟩ := hstep d b
    obtain ⟨τ, hτ⟩ := ih (step d b)
    refine ⟨τ.trans σ, ?_⟩
    rw [List.foldl_cons, hτ, hσ]
    rfl

def exchange (gt : α → α → Bool) (d : Fin n → α) (i j : Nat) : Fin n → α :=
  if h : i < n ∧ j < n then
    if gt (d ⟨i, h.1⟩) (d ⟨j, h.2⟩) then d ∘ Equiv.swap ⟨i, h.1⟩ ⟨j, h.2⟩ else d
  else d

def exchangePass (gt : α → α → Bool) (d : Fin n → α) (i : Nat) : Fin n → α :=
  (List.range' (i + 1) (n - (i + 1))).foldl (fun d j => exchange gt d i j) d

def exchangeSort (gt : α → α → Bool) (d : Fin n → α) : Fin n → α :=
  (List.range (n - 1)).foldl (exchangePass gt) d

lemma exchange_perm (gt : α → α → Bool) (d : Fin n → α) (i j : Nat) :
    ∃ σ : Equiv.Perm (Fin n), exchange gt d i j = d ∘ σ := by
  unfold exchange
  split_ifs
  · exact ⟨_, rfl⟩
  · exact ⟨Equiv.refl _, rfl⟩
  · exact ⟨Equiv.refl _, rfl⟩

lemma exchangeSort_perm (gt : α → α → Bool) (d : Fin n → α) :
    ∃ σ : Equiv.Perm (Fin n), exchangeSort gt d = d ∘ σ :=
  foldl_perm _ (fun d i => foldl_perm _ (fun d j => exchange_perm gt d i j) _ d) _ d

section Sorted

variable {β : Type*} [LinearOrder β] (key : α → β)

structure PassInv (d₀ : Fin n → α) (i : Fin n) (J : Nat) (d : Fin n → α) : Prop where
  above : ∀ m : Fin n, m < i → d m = d₀ m
  least : ∀ m : Fin n, i < m → m.val < J → key (d i) ≤ key (d m)
  from_tail : ∀ m : Fin n, i ≤ m → ∃ m' : Fin n, i ≤ m' ∧ d m = d₀ m'

lemma PassInv.step {d₀ d : Fin n → α} {i : Fin n} {j : Nat} (h : PassInv key d₀ i j d)
    (hij : i.val < j) (hj : j < n) :
    PassInv key d₀ i (j + 1) (exchange (fun a b => decide (key a > key b)) d i j) := by
  set jj : Fin n := ⟨j, hj⟩
  have hne : i ≠ jj := fun e => by simp [jj, Fin.ext_iff] at e; omega
  unfold exchange
  rw [dif_pos ⟨i.isLt, hj⟩]
  by_cases hgt : key (d jj) < key (d i)
  · rw [if_pos (by simpa using hgt)]
    refine ⟨fun m hm => ?_, fun m him hmJ => ?_, fun m him => ?_⟩
    · rw [Function.comp_apply, Equiv.swap_apply_of_ne_of_ne (ne_of_lt hm) (by
        intro e; rw [e] at hm; simp [Fin.lt_def] at hm; omega)]
      exact h.above m hm
    · simp only [Function.comp_apply, Equiv.swap_apply_left]
      by_cases hmj : m = jj
      · rw [hmj, Equiv.swap_apply_right]
        exact le_of_lt hgt
      · rw [Equiv.swap_apply_of_ne_of_ne (ne_of_gt him) hmj]
        have hmj' : m.val < j := by
          have : m.val ≠ j := fun e => hmj (Fin.ext e)
          omega
        exact le_trans (le_of_lt hgt) (h.least m him hmj')
    · simp only [Function.comp_apply]
      by_cases hmi : m = i
      · rw [hmi, Equiv.swap_apply_left]
        exact h.from_tail jj (by simp [jj, Fin.le_def]; omega)
      · by_cases hmj : m = jj
        · rw [hmj, Equiv.swap_apply_right]
          exact h.from_tail i le_rfl
        · rw [Equiv.swap_apply_of_ne_of_ne hmi hmj]
          exact h.from_tail m him
  · rw [if_neg (by simpa using hgt)]
    refine ⟨h.above, fun m him hmJ => ?_, h.from_tail⟩
    by_cases hmj : m = jj
    · rw [hmj]
      exact not_lt.mp hgt
    · have hmj' : m.val < j := by
        have : m.val ≠ j := fun e => hmj (Fin.ext e)
        omega
      exact h.least m him hmj'

lemma PassInv.foldl {d₀ d : Fin n → α} {i : Fin n} {a c : Nat} (h : PassInv key d₀ i a d)
    (ha : i.val < a) (hc : a + c ≤ n) :
    PassInv key d₀ i (a + c) ((List.range' a c).foldl
      (fun d j => exchange (fun a b => decide (key a > key b)) d i j) d) := by
  induction c generalizing a d with
  | zero => simpa using h
  | succ c ih =>
    rw [List.range'_succ, List.foldl_cons, show a + (c + 1) = a + 1 + c by omega]
    exact ih (h.step key ha (by omega)) (by omega) (by omega)

lemma exchangePass_inv (d : Fin n → α) (i : Fin n) :
    PassInv key d i n (exchangePass (fun a b => decide (key a > key b)) d i.val) := by
  have h0 : PassInv key d i (i.val + 1) d :=
    ⟨fun _ _ => rfl, fun m him hm => absurd hm (by rw [Fin.lt_def] at him; omega),
      fun m hm => ⟨m, hm, rfl⟩⟩
  have h := h0.foldl key (Nat.lt_succ_self _) (Nat.add_sub_of_le i.isLt).le
  rwa [Nat.add_sub_of_le i.isLt] at h

def SortedAbove (d : Fin n → α) (I : Nat) : Prop :=
  ∀ k m : Fin n, k.val < I → k < m → key (d k) ≤ key (d m)

lemma SortedAbove.pass {d : Fin n → α} {I : Nat} (h : SortedAbove key d I) (hI : I < n) :
    SortedAbove key (exchangePass (fun a b => decide (key a > key b)) d I) (I + 1) := by
  have hp := exchangePass_inv key d ⟨I, hI⟩
  intro k m hk hkm
  rcases Nat.lt_or_ge k.val I with hkI | hkI
  · rw [hp.above k (by rw [Fin.lt_def]; exact hkI)]
    rcases Nat.lt_or_ge m.val I with hmI | hmI
    · rw [hp.above m (by rw [Fin.lt_def]; exact hmI)]
      exact h k m hkI hkm
    · obtain ⟨m', hm', hd⟩ := hp.from_tail m (by rw [Fin.le_def]; exact hmI)
      rw [hd]
      have hm'' : I ≤ m'.val := hm'
      exact h k m' hkI (by rw [Fin.lt_def]; omega)
  · obtain rfl : k = ⟨I, hI⟩ := Fin.ext (show k.val = I by omega)
    exact hp.least m hkm m.isLt

theorem exchangeSort_sorted (d : Fin n → α) {k m : Fin n} (hkm : k < m) :
    key (exchangeSort (fun a b => decide (key a > key b)) d k) ≤
      key (exchangeSort (fun a b => decide (key a > key b)) d m) := by
  have hpasses : ∀ I, I ≤ n - 1 →
      SortedAbove key ((List.range I).foldl (exchangePass fun a b => decide (key a > key b)) d) I := by
    intro I
    induction I with
    | zero => exact fun _ k _ hk => absurd hk (Nat.not_lt_zero _)
    | succ I ih =>
      intro hI
      rw [List.range_succ, List.foldl_append, List.foldl_cons, List.foldl_nil]
      exact (ih (by omega)).pass key (by omega)
  exact hpasses (n - 1) le_rfl k m (by have := m.isLt; rw [Fin.lt_def] at hkm; omega) hkm

end Sorted

end Sorting
