import Mathlib.Data.Fintype.Basic
import Mathlib.Logic.Function.Basic
import Mathlib.Algebra.BigOperators.Group.Finset.Piecewise
import Mathlib.Tactic.Ring

/-! Fixed-size tables indexed by `Fin n`: the `for` loop that stops at the first entry
satisfying a test, the same search started after a given entry and wrapping around (the first
entry that passes is the nearest one after the start, and repeating the search from what it
found visits every entry that passes, each once, in as many searches), the loop that visits
every entry in order while threading a state, the scan that keeps the entry of least key, and
the sum over a table after one entry is updated. -/

namespace Table

variable {n : Nat} {α β : Type*}

def first? (p : Fin n → Bool) : Option (Fin n) := (List.finRange n).find? p

lemma first?_eq_none {p : Fin n → Bool} : first? p = none ↔ ∀ i, p i = false := by
  simp [first?, List.mem_finRange]

lemma first?_eq_some {p : Fin n → Bool} {i : Fin n} :
    first? p = some i ↔ p i = true ∧ ∀ j, j < i → p j = false := by
  unfold first?
  rw [List.find?_eq_some_iff_append]
  constructor
  · rintro ⟨hi, as, bs, hsplit, has⟩
    refine ⟨hi, fun j hj => ?_⟩
    have hpair := List.pairwise_lt_finRange n
    rw [hsplit, List.pairwise_append, List.pairwise_cons] at hpair
    have hj_mem : j ∈ as ++ i :: bs := hsplit ▸ List.mem_finRange j
    rcases List.mem_append.mp hj_mem with ha | hb
    · simpa using has j ha
    · rcases List.mem_cons.mp hb with rfl | hb
      · exact absurd hj (lt_irrefl _)
      · exact absurd (hpair.2.1.1 j hb) (not_lt.mpr hj.le)
  · rintro ⟨hi, hlt⟩
    obtain ⟨as, bs, hsplit⟩ := List.append_of_mem (List.mem_finRange i)
    refine ⟨hi, as, bs, hsplit, fun a ha => ?_⟩
    have hpair := List.pairwise_lt_finRange n
    rw [hsplit, List.pairwise_append] at hpair
    simpa using hlt a (hpair.2.2 a ha i List.mem_cons_self)

lemma first?_spec {p : Fin n → Bool} {i : Fin n} (h : first? p = some i) : p i = true :=
  (first?_eq_some.mp h).1

def rotate (start : Fin n) (k : Nat) : Fin n := ⟨(start.val + k) % n, Nat.mod_lt _ start.pos⟩

def cyclicOrder (start : Fin n) : List (Fin n) := (List.range n).map fun k => rotate start (k + 1)

def cyclicFirst? (p : Fin n → Bool) (start : Fin n) : Option (Fin n) := (cyclicOrder start).find? p

lemma mem_cyclicOrder (start i : Fin n) : i ∈ cyclicOrder start := by
  have hi := i.isLt
  have hs := start.isLt
  simp only [cyclicOrder, List.mem_map, List.mem_range]
  by_cases hlt : start.val < i.val
  · refine ⟨i.val - start.val - 1, by omega, Fin.ext ?_⟩
    simp only [rotate]
    rw [show start.val + (i.val - start.val - 1 + 1) = i.val by omega, Nat.mod_eq_of_lt hi]
  · refine ⟨i.val + n - start.val - 1, by omega, Fin.ext ?_⟩
    simp only [rotate]
    rw [show start.val + (i.val + n - start.val - 1 + 1) = i.val + n by omega, Nat.add_mod_right,
      Nat.mod_eq_of_lt hi]

lemma cyclicFirst?_eq_none {p : Fin n → Bool} {start : Fin n} :
    cyclicFirst? p start = none ↔ ∀ i, p i = false := by
  simp only [cyclicFirst?, List.find?_eq_none]
  exact ⟨fun h i => by simpa using h i (mem_cyclicOrder start i), fun h i _ => by simp [h i]⟩

lemma cyclicFirst?_spec {p : Fin n → Bool} {start i : Fin n} (h : cyclicFirst? p start = some i) :
    p i = true :=
  List.find?_some h

lemma rotate_val (start : Fin n) {k : Nat} (hk : k ≤ n) :
    (rotate start k).val = if start.val + k < n then start.val + k else start.val + k - n := by
  have hs := start.isLt
  simp only [rotate]
  split_ifs with h
  · exact Nat.mod_eq_of_lt h
  · rw [Nat.mod_eq_sub_mod (by omega), Nat.mod_eq_of_lt (by omega)]

def cyclicPos (start i : Fin n) : Nat :=
  if start.val < i.val then i.val - start.val else i.val + n - start.val

lemma cyclicPos_pos (start i : Fin n) : 1 ≤ cyclicPos start i := by
  have := i.isLt
  unfold cyclicPos
  split_ifs <;> omega

lemma cyclicPos_le (start i : Fin n) : cyclicPos start i ≤ n := by
  have := start.isLt
  unfold cyclicPos
  split_ifs <;> omega

lemma cyclicPos_rotate (start : Fin n) {k : Nat} (h1 : 1 ≤ k) (hk : k ≤ n) :
    cyclicPos start (rotate start k) = k := by
  have hs := start.isLt
  unfold cyclicPos
  rw [rotate_val start hk]
  split_ifs <;> omega

lemma rotate_cyclicPos (start i : Fin n) : rotate start (cyclicPos start i) = i := by
  have hs := start.isLt
  have hi := i.isLt
  refine Fin.ext ?_
  rw [rotate_val start (cyclicPos_le start i)]
  unfold cyclicPos
  split_ifs <;> omega

lemma cyclicPos_shift (x v y : Fin n) :
    cyclicPos v y = if cyclicPos x v < cyclicPos x y then cyclicPos x y - cyclicPos x v
      else n + cyclicPos x y - cyclicPos x v := by
  have := x.isLt
  have := v.isLt
  have := y.isLt
  unfold cyclicPos
  split_ifs <;> omega

lemma cyclicFirst?_eq_some_iff {p : Fin n → Bool} {start i : Fin n} :
    cyclicFirst? p start = some i ↔
      p i = true ∧ ∀ j, p j = true → cyclicPos start i ≤ cyclicPos start j := by
  simp only [cyclicFirst?, cyclicOrder, List.find?_map, Option.map_eq_some_iff,
    List.find?_range_eq_some, Function.comp_apply, List.mem_range]
  constructor
  · rintro ⟨k, ⟨hpk, hk, hbefore⟩, rfl⟩
    refine ⟨hpk, fun j hj => ?_⟩
    rw [cyclicPos_rotate start (by omega) (by omega)]
    by_contra hlt
    have hj1 := cyclicPos_pos start j
    have hnot := hbefore (cyclicPos start j - 1) (by omega)
    rw [Nat.sub_add_cancel hj1, rotate_cyclicPos, hj] at hnot
    exact absurd hnot (by decide)
  · rintro ⟨hpi, hmin⟩
    have hi1 := cyclicPos_pos start i
    have hin := cyclicPos_le start i
    refine ⟨cyclicPos start i - 1, ⟨?_, by omega, fun j hj => ?_⟩, ?_⟩
    · rwa [Nat.sub_add_cancel hi1, rotate_cyclicPos]
    · have hpos := cyclicPos_rotate start (k := j + 1) (by omega) (by omega)
      cases hpj : p (rotate start (j + 1))
      · rfl
      · have := hmin _ hpj
        omega
    · rw [Nat.sub_add_cancel hi1, rotate_cyclicPos]

lemma pairwise_cyclicOrder (start : Fin n) :
    (cyclicOrder start).Pairwise fun a b => cyclicPos start a < cyclicPos start b := by
  simp only [cyclicOrder, List.pairwise_map]
  refine List.Pairwise.imp_of_mem ?_ List.pairwise_lt_range
  intro a b ha hb hab
  rw [List.mem_range] at ha hb
  rw [cyclicPos_rotate start (by omega) (by omega), cyclicPos_rotate start (by omega) (by omega)]
  omega

lemma cyclicOrder_perm (start : Fin n) : (cyclicOrder start).Perm (List.finRange n) := by
  have hnodup : (cyclicOrder start).Nodup :=
    (pairwise_cyclicOrder start).imp fun h e => by rw [e] at h; exact lt_irrefl _ h
  exact (List.perm_ext_iff_of_nodup hnodup (List.nodup_finRange n)).mpr fun a =>
    ⟨fun _ => List.mem_finRange a, fun _ => mem_cyclicOrder start a⟩

def cyclicNext (p : Fin n → Bool) (x : Fin n) : Fin n := (cyclicFirst? p x).getD x

section Iterate

variable {p : Fin n → Bool} {x : Fin n}

lemma cyclicFirst?_filter_succ {k : Nat} (hk : k + 1 < ((cyclicOrder x).filter p).length) :
    cyclicFirst? p ((cyclicOrder x).filter p)[k] = some ((cyclicOrder x).filter p)[k + 1] := by
  set L := (cyclicOrder x).filter p
  have hsorted : L.Pairwise fun a b => cyclicPos x a < cyclicPos x b :=
    (pairwise_cyclicOrder x).sublist List.filter_sublist
  have hlt : ∀ i j (hi : i < L.length) (hj : j < L.length), i < j →
      cyclicPos x L[i] < cyclicPos x L[j] := fun i j hi hj hij =>
    List.pairwise_iff_getElem.mp hsorted i j hi hj hij
  have hp : ∀ i (hi : i < L.length), p L[i] = true := fun i hi =>
    (List.mem_filter.mp (List.getElem_mem hi)).2
  refine cyclicFirst?_eq_some_iff.mpr ⟨hp _ hk, fun z hz => ?_⟩
  obtain ⟨i, hi, rfl⟩ := List.getElem_of_mem (List.mem_filter.mpr ⟨mem_cyclicOrder x z, hz⟩)
  have hnext := hlt k (k + 1) (by omega) hk (by omega)
  rw [cyclicPos_shift x L[k] L[k + 1], cyclicPos_shift x L[k] L[i], if_pos hnext]
  have hle := cyclicPos_le x L[k + 1]
  rcases Nat.lt_or_ge k i with hki | hik
  · have hz : cyclicPos x L[k] < cyclicPos x L[i] := hlt k i (by omega) hi hki
    rw [if_pos hz]
    rcases Nat.lt_or_ge (k + 1) i with hki' | hki'
    · have := hlt (k + 1) i hk hi hki'
      omega
    · obtain rfl : i = k + 1 := by omega
      exact le_rfl
  · have hz : ¬ cyclicPos x L[k] < cyclicPos x L[i] := by
      rcases Nat.lt_or_ge i k with hik' | hik'
      · have := hlt i k hi (by omega) hik'
        omega
      · obtain rfl : i = k := by omega
        exact lt_irrefl _
    rw [if_neg hz]
    have := cyclicPos_pos x L[i]
    omega

lemma cyclicFirst?_filter_zero (h : 0 < ((cyclicOrder x).filter p).length) :
    cyclicFirst? p x = some ((cyclicOrder x).filter p)[0] := by
  rw [cyclicFirst?, ← List.head?_filter, List.head?_eq_getElem?, List.getElem?_eq_getElem h]

lemma iterate_cyclicNext {k : Nat} (hk : k < ((cyclicOrder x).filter p).length) :
    (cyclicNext p)^[k + 1] x = ((cyclicOrder x).filter p)[k] := by
  induction k with
  | zero =>
    rw [Function.iterate_one, cyclicNext, cyclicFirst?_filter_zero hk, Option.getD_some]
  | succ k ih =>
    rw [Function.iterate_succ_apply', ih (by omega), cyclicNext,
      cyclicFirst?_filter_succ hk, Option.getD_some]

theorem iterate_cyclicNext_perm (x : Fin n) :
    ((List.range ((List.finRange n).filter p).length).map fun k => (cyclicNext p)^[k + 1] x).Perm
      ((List.finRange n).filter p) := by
  have hperm : ((cyclicOrder x).filter p).Perm ((List.finRange n).filter p) :=
    (cyclicOrder_perm x).filter p
  have hvisits : ((List.range ((List.finRange n).filter p).length).map
      fun k => (cyclicNext p)^[k + 1] x) = (cyclicOrder x).filter p := by
    refine List.ext_getElem (by simp [hperm.length_eq]) fun k hk _ => ?_
    simp only [List.getElem_map, List.getElem_range]
    exact iterate_cyclicNext (by simpa [hperm.length_eq] using hk)
  rw [hvisits]
  exact hperm

end Iterate

def loop (f : β → Fin n → β) (b : β) : β := (List.finRange n).foldl f b

lemma loop_induction {f : β → Fin n → β} {b : β} (P : Nat → β → Prop) (h0 : P 0 b)
    (hstep : ∀ (i : Fin n) (c : β), P i c → P (i + 1) (f c i)) : P n (loop f b) := by
  have hprefix : ∀ k, k ≤ n → P k (((List.finRange n).take k).foldl f b) := by
    intro k
    induction k with
    | zero => intro _; simpa using h0
    | succ k ih =>
      intro hk
      have hget : (List.finRange n)[k]? = some ⟨k, hk⟩ := by
        rw [List.getElem?_eq_getElem (by simp; omega)]
        simp
      rw [List.take_add_one, hget, Option.toList_some, List.foldl_append, List.foldl_cons,
        List.foldl_nil]
      exact hstep ⟨k, hk⟩ _ (ih (by omega))
  have hall := hprefix n le_rfl
  rwa [List.take_of_length_le (by simp)] at hall

def minStep {ι : Type*} [LinearOrder β] (ok : ι → Bool) (key : ι → β) (r : Option ι) (i : ι) :
    Option ι :=
  if ok i then
    match r with
    | some r => if key r > key i then some i else some r
    | none => some i
  else r

def MinOf {ι : Type*} [LinearOrder β] (ok : ι → Bool) (key : ι → β) (l : List ι) :
    Option ι → Prop
  | none => ∀ i ∈ l, ok i = false
  | some m => m ∈ l ∧ ok m = true ∧ ∀ i ∈ l, ok i = true → key m ≤ key i

lemma minOf_minStep {ι : Type*} [LinearOrder β] {ok : ι → Bool} {key : ι → β} {l : List ι}
    {r : Option ι} (h : MinOf ok key l r) (x : ι) :
    MinOf ok key (l ++ [x]) (minStep ok key r x) := by
  by_cases hx : ok x = true
  · cases r with
    | none =>
      simp only [minStep, hx, if_true]
      refine ⟨by simp, hx, fun i hi hok => ?_⟩
      rcases List.mem_append.mp hi with hi | hi
      · rw [h i hi] at hok
        cases hok
      · rw [List.mem_singleton.mp hi]
    | some m =>
      obtain ⟨hm, hokm, hmin⟩ := h
      simp only [minStep, hx, if_true]
      split_ifs with hlt
      · refine ⟨by simp, hx, fun i hi hok => ?_⟩
        rcases List.mem_append.mp hi with hi | hi
        · exact le_trans (le_of_lt hlt) (hmin i hi hok)
        · rw [List.mem_singleton.mp hi]
      · refine ⟨List.mem_append_left _ hm, hokm, fun i hi hok => ?_⟩
        rcases List.mem_append.mp hi with hi | hi
        · exact hmin i hi hok
        · rw [List.mem_singleton.mp hi]
          exact not_lt.mp hlt
  · have hx' : ok x = false := by simpa using hx
    cases r with
    | none =>
      simp only [minStep, hx', Bool.false_eq_true, if_false]
      intro i hi
      rcases List.mem_append.mp hi with hi | hi
      · exact h i hi
      · rw [List.mem_singleton.mp hi]
        exact hx'
    | some m =>
      obtain ⟨hm, hokm, hmin⟩ := h
      simp only [minStep, hx', Bool.false_eq_true, if_false]
      refine ⟨List.mem_append_left _ hm, hokm, fun i hi hok => ?_⟩
      rcases List.mem_append.mp hi with hi | hi
      · exact hmin i hi hok
      · rw [List.mem_singleton.mp hi, hx'] at hok
        cases hok

lemma minOf_foldl {ι : Type*} [LinearOrder β] (ok : ι → Bool) (key : ι → β) (l : List ι) :
    MinOf ok key l (l.foldl (minStep ok key) none) := by
  induction l using List.reverseRecOn with
  | nil => intro i hi; cases hi
  | append_singleton l x ih =>
    rw [List.foldl_append, List.foldl_cons, List.foldl_nil]
    exact minOf_minStep ih x

lemma sum_update {ι : Type*} [Fintype ι] [DecidableEq ι] (f : ι → Int) (i : ι) (b : Int) :
    ∑ x, Function.update f i b x = ∑ x, f x - f i + b := by
  rw [Finset.sum_update_of_mem (Finset.mem_univ i), ← Finset.add_sum_erase _ f (Finset.mem_univ i),
    Finset.sdiff_singleton_eq_erase]
  ring

end Table
