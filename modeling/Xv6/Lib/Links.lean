import Mathlib.Data.List.Chain
import Mathlib.Logic.Function.Basic

/-! Nodes linked through a `next` map, as the cells of a singly-linked list in memory are.
`Path next x l y` says that following `next` from `x` visits the elements of `l` in turn and ends
at `y`; a circular list through the nodes `x :: l` is a path from `x` through `l` back to `x`
(`IsRing`), and with a second map `prev` that undoes `next` a doubly-linked ring (`IsDRing`). The
lemmas say how paths split and join, what a write to one node's link leaves of a path, how a node
is put into a ring or taken out of it, and where a search along the links stops. -/

namespace Links

variable {α : Type*}

inductive Path (next : α → α) : α → List α → α → Prop
  | nil (x : α) : Path next x [] x
  | cons {x y z : α} {l : List α} : next x = y → Path next y l z → Path next x (y :: l) z

variable {next : α → α}

@[simp] lemma path_nil_iff {x y : α} : Path next x [] y ↔ x = y := by
  constructor
  · rintro ⟨⟩
    rfl
  · rintro rfl
    exact .nil x

@[simp] lemma path_cons_iff {x y z : α} {l : List α} :
    Path next x (y :: l) z ↔ next x = y ∧ Path next y l z := by
  constructor
  · rintro (_ | ⟨h, hp⟩)
    exact ⟨h, hp⟩
  · rintro ⟨h, hp⟩
    exact .cons h hp

lemma path_append {x z : α} {l₁ l₂ : List α} :
    Path next x (l₁ ++ l₂) z ↔ ∃ y, Path next x l₁ y ∧ Path next y l₂ z := by
  induction l₁ generalizing x with
  | nil => simp
  | cons w l₁ ih => simp [ih, and_assoc]

lemma Path.next_mem {x y : α} {l : List α} (h : Path next x l y) :
    ∀ w ∈ (x :: l).dropLast, next w ∈ l := by
  induction h with
  | nil x => simp
  | @cons x w z l hx _ ih =>
    intro u hu
    rw [List.dropLast_cons_cons, List.mem_cons] at hu
    rcases hu with rfl | hu
    · rw [hx]
      exact List.mem_cons_self
    · exact List.mem_cons_of_mem _ (ih u hu)

lemma Path.exists_first (P : α → Prop) {x y : α} {l : List α} (h : Path next x l y)
    (hP : ∃ w ∈ (x :: l).dropLast, P w) :
    ∃ m w, Path next x m w ∧ m.length < l.length ∧ w ∈ (x :: l).dropLast ∧ P w ∧
      ∀ v ∈ (x :: m).dropLast, ¬ P v := by
  induction h with
  | nil x => simp at hP
  | @cons x w z l hx hp ih =>
    by_cases hPx : P x
    · exact ⟨[], x, .nil x, by simp, by simp, hPx, by simp⟩
    · obtain ⟨u, hu, hPu⟩ := hP
      rw [List.dropLast_cons_cons, List.mem_cons] at hu
      have hu' : u ∈ (w :: l).dropLast := hu.resolve_left fun h => hPx (h ▸ hPu)
      obtain ⟨m, v, hm, hlen, hv, hPv, hbefore⟩ := ih ⟨u, hu', hPu⟩
      refine ⟨w :: m, v, .cons hx hm, by simpa using hlen, ?_, hPv, ?_⟩
      · rw [List.dropLast_cons_cons]
        exact List.mem_cons_of_mem _ hv
      · intro t ht
        rw [List.dropLast_cons_cons, List.mem_cons] at ht
        rcases ht with rfl | ht
        · exact hPx
        · exact hbefore t ht

lemma Path.split_first (P : α → Prop) {x z : α} {l : List α} (h : Path next x l z)
    (hP : ∃ w ∈ l, P w) :
    ∃ pre u w post, l = pre ++ w :: post ∧ Path next x pre u ∧ next u = w ∧
      (∀ v ∈ pre, ¬ P v) ∧ P w := by
  induction h with
  | nil x => simp at hP
  | @cons x y z l hx _ ih =>
    by_cases hPy : P y
    · exact ⟨[], x, y, l, rfl, .nil x, hx, by simp, hPy⟩
    · obtain ⟨v, hv, hPv⟩ := hP
      have hv' : v ∈ l := (List.mem_cons.mp hv).resolve_left fun h => hPy (h ▸ hPv)
      obtain ⟨pre, u, w, post, rfl, hpre, hu, hnot, hw⟩ := ih ⟨v, hv', hPv⟩
      refine ⟨y :: pre, u, w, post, rfl, .cons hx hpre, hu, fun t ht => ?_, hw⟩
      rcases List.mem_cons.mp ht with rfl | ht
      · exact hPy
      · exact hnot t ht

lemma Path.end_mem {x y : α} {l : List α} (h : Path next x l y) : y ∈ x :: l := by
  induction h with
  | nil x => exact List.mem_cons_self
  | cons _ _ ih => exact List.mem_cons_of_mem _ ih

def IsRing (next : α → α) : List α → Prop
  | [] => False
  | x :: l => Path next x (l ++ [x]) x

lemma isRing_cons {x : α} {l : List α} : IsRing next (x :: l) ↔ Path next x (l ++ [x]) x := Iff.rfl

lemma IsRing.rotate {l₁ l₂ : List α} (h : IsRing next (l₁ ++ l₂)) (h₂ : l₂ ≠ []) :
    IsRing next (l₂ ++ l₁) := by
  obtain ⟨y, l₂, rfl⟩ := List.exists_cons_of_ne_nil h₂
  cases l₁ with
  | nil => simpa using h
  | cons x l₁ =>
    rw [List.cons_append, isRing_cons, List.append_assoc, path_append] at h
    obtain ⟨w, hxw, hw⟩ := h
    rw [List.cons_append, path_cons_iff, path_append] at hw
    obtain ⟨hwy, z, hyz, hz⟩ := hw
    rw [path_cons_iff, path_nil_iff] at hz
    rw [List.cons_append, isRing_cons, List.append_assoc, path_append]
    refine ⟨z, hyz, ?_⟩
    rw [List.cons_append, path_cons_iff, path_append]
    exact ⟨hz.1, w, hxw, by simpa using hwy⟩

lemma IsRing.next_mem {l : List α} (h : IsRing next l) : ∀ w ∈ l, next w ∈ l := by
  cases l with
  | nil => exact h.elim
  | cons x l =>
    intro w hw
    have := Path.next_mem (isRing_cons.mp h) w (by rwa [← List.cons_append, List.dropLast_concat])
    simp only [List.mem_append, List.mem_singleton] at this
    rcases this with h | h
    · exact List.mem_cons_of_mem _ h
    · rw [h]
      exact List.mem_cons_self

lemma IsRing.path_from {l : List α} (h : IsRing next l) {y : α} (hy : y ∈ l) :
    ∃ m, Path next y (m ++ [y]) y ∧ (y :: m).Perm l := by
  obtain ⟨A, B, rfl⟩ := List.append_of_mem hy
  have hr := h.rotate (List.cons_ne_nil y B)
  refine ⟨B ++ A, hr, ?_⟩
  rw [← List.cons_append]
  exact List.perm_append_comm

lemma IsRing.next_of_cons {A B : List α} {w v : α} (h : IsRing next (A ++ w :: v :: B)) :
    next w = v := by
  have hr := h.rotate (List.cons_ne_nil w _)
  simp only [List.cons_append, isRing_cons, path_cons_iff] at hr
  exact hr.1

lemma IsRing.next_last {A : List α} {x w : α} (h : IsRing next (x :: (A ++ [w]))) : next w = x := by
  have hr := @IsRing.rotate _ _ (x :: A) [w] h (List.cons_ne_nil w [])
  exact @IsRing.next_of_cons _ _ [] A w x hr

lemma IsRing.exists_split_next {x w : α} {l : List α} (h : IsRing next (x :: l)) (hw : w ∈ x :: l)
    (hx : next w ≠ x) : ∃ A B, x :: l = A ++ w :: next w :: B := by
  obtain ⟨A, B, hAB⟩ := List.append_of_mem hw
  cases B with
  | cons v B =>
    rw [hAB] at h
    exact ⟨A, B, by rw [hAB, h.next_of_cons]⟩
  | nil =>
    exfalso
    cases A with
    | nil =>
      simp only [List.nil_append, List.cons.injEq] at hAB
      obtain ⟨rfl, rfl⟩ := hAB
      exact hx (by simpa using isRing_cons.mp h)
    | cons y A =>
      simp only [List.cons_append, List.cons.injEq] at hAB
      obtain ⟨rfl, rfl⟩ := hAB
      exact hx h.next_last

lemma Path.congr {next' : α → α} {x y : α} {l : List α} (h : Path next x l y)
    (he : ∀ w ∈ (x :: l).dropLast, next' w = next w) : Path next' x l y := by
  induction h with
  | nil x => exact .nil x
  | @cons x w z l hx _ ih =>
    rw [List.dropLast_cons_cons] at he
    exact .cons (by rw [he x List.mem_cons_self, hx]) (ih fun u hu => he u (List.mem_cons_of_mem _ hu))

lemma IsRing.congr {next' : α → α} {l : List α} (h : IsRing next l) (he : ∀ w ∈ l, next' w = next w) :
    IsRing next' l := by
  cases l with
  | nil => exact h.elim
  | cons x l =>
    refine (isRing_cons.mp h).congr fun w hw => he w ?_
    rwa [← List.cons_append, List.dropLast_concat] at hw

lemma IsRing.remove [DecidableEq α] {A B : List α} {v w : α} (h : IsRing next (A ++ v :: w :: B))
    (hnd : (A ++ v :: w :: B).Nodup) :
    IsRing (Function.update next v (next w)) (A ++ v :: B) := by
  have hr := h.rotate (List.cons_ne_nil v _)
  simp only [List.cons_append, isRing_cons, path_cons_iff] at hr
  obtain ⟨-, hw⟩ := hr
  have hv : v ∉ B ++ A := fun hv =>
    (List.nodup_cons.mp (List.perm_append_comm.nodup_iff.mp hnd)).1 (List.mem_cons_of_mem _ hv)
  have hnew : IsRing (Function.update next v (next w)) (v :: B ++ A) := by
    rw [List.cons_append, isRing_cons]
    cases hBA : B ++ A with
    | nil =>
      rw [hBA, List.nil_append, path_cons_iff, path_nil_iff] at hw
      rw [List.nil_append, path_cons_iff, path_nil_iff, Function.update_self, hw.1]
      exact ⟨rfl, rfl⟩
    | cons u R =>
      rw [hBA, List.cons_append, path_cons_iff] at hw
      rw [List.cons_append, path_cons_iff, Function.update_self]
      refine ⟨hw.1, hw.2.congr fun t ht => Function.update_of_ne ?_ _ _⟩
      rintro rfl
      rw [← List.cons_append, List.dropLast_concat, ← hBA] at ht
      exact hv ht
  cases A with
  | nil => simpa using hnew
  | cons a A => simpa using @IsRing.rotate _ _ (v :: B) (a :: A) hnew (List.cons_ne_nil _ _)

lemma IsRing.insert [DecidableEq α] {A B : List α} {v n : α} (h : IsRing next (A ++ v :: B))
    (hnd : (A ++ v :: B).Nodup) (hn : n ∉ A ++ v :: B) :
    IsRing (Function.update (Function.update next n (next v)) v n) (A ++ v :: n :: B) := by
  have hr := h.rotate (List.cons_ne_nil v _)
  simp only [List.cons_append, isRing_cons] at hr
  have hv : v ∉ B ++ A :=
    (List.nodup_cons.mp (List.perm_append_comm.nodup_iff.mp hnd)).1
  have hnv : n ≠ v := fun h => hn (h ▸ List.mem_append_right _ List.mem_cons_self)
  have hnew : IsRing (Function.update (Function.update next n (next v)) v n) (v :: n :: B ++ A) := by
    simp only [List.cons_append, isRing_cons, path_cons_iff]
    refine ⟨Function.update_self _ _ _, ?_⟩
    cases hBA : B ++ A with
    | nil =>
      rw [hBA, List.nil_append, path_cons_iff, path_nil_iff] at hr
      rw [List.nil_append, path_cons_iff, path_nil_iff, Function.update_of_ne hnv, Function.update_self]
      exact ⟨hr.1, rfl⟩
    | cons u R =>
      rw [hBA, List.cons_append, path_cons_iff] at hr
      rw [List.cons_append, path_cons_iff, Function.update_of_ne hnv, Function.update_self]
      refine ⟨hr.1, hr.2.congr fun t ht => ?_⟩
      rw [← List.cons_append, List.dropLast_concat, ← hBA] at ht
      have htn : t ≠ n := fun h => hn (by
        rw [h] at ht
        simp only [List.mem_append, List.mem_cons] at ht ⊢
        tauto)
      have htv : t ≠ v := by
        rintro rfl
        exact hv ht
      rw [Function.update_of_ne htv, Function.update_of_ne htn]
  cases A with
  | nil => simpa using hnew
  | cons a A => simpa using @IsRing.rotate _ _ (v :: n :: B) (a :: A) hnew (List.cons_ne_nil _ _)

lemma IsRing.next_cases {x w : α} {l : List α} (h : IsRing next (x :: l)) (hnd : (x :: l).Nodup)
    (hw : w ∈ x :: l) :
    (∃ A B, x :: l = A ++ w :: next w :: B) ∨ (∃ A, x :: l = A ++ [w] ∧ next w = x) := by
  by_cases hx : next w = x
  · right
    obtain ⟨A, B, hAB⟩ := List.append_of_mem hw
    cases B with
    | nil => exact ⟨A, hAB, hx⟩
    | cons v B =>
      exfalso
      rw [hAB] at h
      have hv : x = v := hx ▸ h.next_of_cons
      subst hv
      cases A with
      | nil =>
        simp only [List.nil_append, List.cons.injEq] at hAB
        obtain ⟨rfl, rfl⟩ := hAB
        exact (List.nodup_cons.mp hnd).1 List.mem_cons_self
      | cons a A =>
        simp only [List.cons_append, List.cons.injEq] at hAB
        obtain ⟨rfl, rfl⟩ := hAB
        exact (List.nodup_cons.mp hnd).1 (by simp)
  · left
    exact h.exists_split_next hw hx

structure IsDRing (next prev : α → α) (l : List α) : Prop where
  ring : IsRing next l
  back : ∀ x ∈ l, prev (next x) = x

variable {prev : α → α}

lemma IsDRing.next_inj {l : List α} (h : IsDRing next prev l) {x y : α} (hx : x ∈ l)
    (hy : y ∈ l) (hxy : next x = next y) : x = y := by
  rw [← h.back x hx, hxy, h.back y hy]

lemma Path.reverse {x z : α} {l : List α} (h : Path next x l z)
    (hb : ∀ w ∈ (x :: l).dropLast, prev (next w) = w) :
    Path prev z (x :: l).dropLast.reverse x := by
  induction h with
  | nil x => exact .nil x
  | @cons x y z l hxy _ ih =>
    rw [List.dropLast_cons_cons] at hb ⊢
    have ih := ih fun w hw => hb w (List.mem_cons_of_mem _ hw)
    rw [List.reverse_cons, path_append]
    refine ⟨y, ih, ?_⟩
    rw [path_cons_iff, path_nil_iff, ← hxy]
    exact ⟨hb x List.mem_cons_self, rfl⟩

lemma IsDRing.prev_ring {x : α} {l : List α} (h : IsDRing next prev (x :: l)) :
    IsRing prev (x :: l.reverse) := by
  have hdrop : (x :: (l ++ [x])).dropLast = x :: l := by
    rw [← List.cons_append, List.dropLast_concat]
  have hp := (isRing_cons.mp h.ring).reverse fun w hw => h.back w (by rwa [hdrop] at hw)
  rw [hdrop, List.reverse_cons] at hp
  exact isRing_cons.mpr hp

lemma IsDRing.unlink [DecidableEq α] {A B : List α} {v w : α}
    (h : IsDRing next prev (A ++ v :: w :: B)) (hnd : (A ++ v :: w :: B).Nodup) :
    IsDRing (Function.update next v (next w)) (Function.update prev (next w) v) (A ++ v :: B) := by
  refine ⟨h.ring.remove hnd, fun x hx => ?_⟩
  have hxl : x ∈ A ++ v :: w :: B := by
    simp only [List.mem_append, List.mem_cons] at hx ⊢
    tauto
  have hwl : w ∈ A ++ v :: w :: B := by simp
  by_cases hxv : x = v
  · subst hxv
    rw [Function.update_self, Function.update_self]
  · have hwnot : w ∉ A ++ v :: B := by
      have hperm := @List.perm_middle _ w (A ++ [v]) B
      have := (List.nodup_cons.mp (hperm.nodup_iff.mp (by simpa using hnd))).1
      simpa using this
    have hxw : x ≠ w := fun he => hwnot (he ▸ hx)
    rw [Function.update_of_ne hxv, Function.update_of_ne fun he => hxw (h.next_inj hxl hwl he),
      h.back x hxl]

lemma IsDRing.insert [DecidableEq α] {A B : List α} {v n : α} (h : IsDRing next prev (A ++ v :: B))
    (hnd : (A ++ v :: B).Nodup) (hn : n ∉ A ++ v :: B) :
    IsDRing (Function.update (Function.update next n (next v)) v n)
      (Function.update (Function.update prev n v) (next v) n) (A ++ v :: n :: B) := by
  have hvl : v ∈ A ++ v :: B := by simp
  have hnv : n ≠ v := fun he => hn (he ▸ hvl)
  have hnext : ∀ x ∈ A ++ v :: B, next x ≠ n := fun x hx he => hn (he ▸ h.ring.next_mem x hx)
  refine ⟨h.ring.insert hnd hn, fun x hx => ?_⟩
  have hother : ∀ x ∈ A ++ v :: B, x ≠ v →
      Function.update (Function.update prev n v) (next v) n
        (Function.update (Function.update next n (next v)) v n x) = x := by
    intro x hx hxv
    have hxn : x ≠ n := fun he => hn (he ▸ hx)
    rw [Function.update_of_ne hxv, Function.update_of_ne hxn,
      Function.update_of_ne fun he => hxv (h.next_inj hx hvl he),
      Function.update_of_ne (hnext x hx), h.back x hx]
  have hvAB : v ∉ A ++ B := (List.nodup_cons.mp ((@List.perm_middle _ v A B).nodup_iff.mp hnd)).1
  rw [List.mem_append, List.mem_cons, List.mem_cons] at hx
  rcases hx with hx | rfl | rfl | hx
  · exact hother x (List.mem_append_left _ hx) fun he => hvAB (he ▸ List.mem_append_left _ hx)
  · rw [Function.update_self, Function.update_of_ne (hnext x hvl).symm, Function.update_self]
  · rw [Function.update_of_ne hnv, Function.update_self, Function.update_self]
  · exact hother x (by simp [hx]) fun he => hvAB (he ▸ List.mem_append_right _ hx)

def findFrom (next : α → α) (P : α → Prop) [DecidablePred P] : Nat → α → Option α
  | 0, _ => none
  | fuel + 1, x => if P x then some x else findFrom next P fuel (next x)

lemma findFrom_of_path {P : α → Prop} [DecidablePred P] {x y : α} {l : List α}
    (h : Path next x l y) (hn : ∀ v ∈ (x :: l).dropLast, ¬ P v) (hy : P y) {fuel : Nat}
    (hf : l.length < fuel) : findFrom next P fuel x = some y := by
  induction h generalizing fuel with
  | nil x =>
    obtain ⟨fuel, rfl⟩ := Nat.exists_eq_add_one_of_ne_zero (Nat.ne_zero_of_lt hf)
    simp [findFrom, hy]
  | @cons x w z l hx _ ih =>
    obtain ⟨fuel, rfl⟩ := Nat.exists_eq_add_one_of_ne_zero (Nat.ne_zero_of_lt hf)
    rw [List.dropLast_cons_cons] at hn
    rw [findFrom, if_neg (hn x List.mem_cons_self), hx]
    exact ih (fun v hv => hn v (List.mem_cons_of_mem _ hv)) hy (by simpa using hf)

lemma findFrom_ring {P : α → Prop} [DecidablePred P] {l : List α} (h : IsRing next l) {y t : α}
    (hy : y ∈ l) (ht : t ∈ l) (hP : ∀ w ∈ l, P w ↔ w = t) {fuel : Nat} (hf : l.length ≤ fuel) :
    findFrom next P fuel y = some t := by
  obtain ⟨m, hm, hperm⟩ := h.path_from hy
  have hdrop : (y :: (m ++ [y])).dropLast = y :: m := by
    rw [← List.cons_append, List.dropLast_concat]
  obtain ⟨m', w, hw, hlen', hwm, hPw, hbefore⟩ := hm.exists_first P
    ⟨t, by rw [hdrop, hperm.mem_iff]; exact ht, (hP t ht).mpr rfl⟩
  rw [hdrop, hperm.mem_iff] at hwm
  obtain rfl := (hP w hwm).mp hPw
  have hlen := hperm.length_eq
  exact findFrom_of_path hw hbefore hPw (by simp at hlen hlen'; omega)

lemma Path.findFrom_eq {P : α → Prop} [DecidablePred P] {y z : α} {l : List α}
    (h : Path next y l z) (hP : ∃ w ∈ y :: l, P w) {fuel : Nat} (hf : l.length < fuel) :
    findFrom next P fuel y = (y :: l).find? fun w => decide (P w) := by
  induction h generalizing fuel with
  | nil y =>
    obtain ⟨fuel, rfl⟩ := Nat.exists_eq_add_one_of_ne_zero (Nat.ne_zero_of_lt hf)
    obtain ⟨w, hw, hPw⟩ := hP
    rw [List.mem_singleton] at hw
    subst hw
    simp [findFrom, hPw]
  | @cons y u z l hyu _ ih =>
    obtain ⟨fuel, rfl⟩ := Nat.exists_eq_add_one_of_ne_zero (Nat.ne_zero_of_lt hf)
    by_cases hPy : P y
    · simp [findFrom, hPy]
    · obtain ⟨w, hw, hPw⟩ := hP
      have hw' : w ∈ u :: l := (List.mem_cons.mp hw).resolve_left fun he => hPy (he ▸ hPw)
      rw [findFrom, if_neg hPy, hyu, ih ⟨w, hw', hPw⟩ (by simpa using hf)]
      simp [hPy]

lemma IsRing.findFrom_next {P : α → Prop} [DecidablePred P] {x : α} {l : List α}
    (h : IsRing next (x :: l)) (hx : P x) {fuel : Nat} (hf : l.length < fuel) :
    findFrom next P fuel (next x) = (l ++ [x]).find? fun w => decide (P w) := by
  cases l with
  | nil =>
    have hxx : next x = x := by simpa using isRing_cons.mp h
    rw [hxx]
    exact (Path.nil x).findFrom_eq ⟨x, List.mem_singleton_self x, hx⟩ hf
  | cons u l =>
    rw [isRing_cons, List.cons_append, path_cons_iff] at h
    rw [h.1, List.cons_append]
    exact h.2.findFrom_eq ⟨x, by simp, hx⟩ (by simpa using hf)

end Links
