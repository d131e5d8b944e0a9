import Mathlib.Data.List.Pairwise
import Mathlib.Data.List.TakeWhile
import Mathlib.Tactic.Tauto

/-! Address ranges `(start, size)` of a heap, and a free list of them kept in address order with a
gap between any two, so that no two free ranges touch. Freeing a range puts it in its place and
joins it with the neighbours it touches (`release`); an allocation takes units off the end of a free
range (`carve`); a heap grows by a range above it. Each keeps the ranges of the heap tidy
(`Tidy`): the free list in order with gaps, every range nonempty and inside the heap, and no two
ranges, free or in use, overlapping. -/

namespace Blocks

abbrev Block := Nat × Nat

def Below (b c : Block) : Prop := b.1 + b.2 < c.1

def Apart (b c : Block) : Prop := b.1 + b.2 ≤ c.1 ∨ c.1 + c.2 ≤ b.1

def join (b c : Block) : Block := (b.1, b.2 + c.2)

def joinFront (b : Block) : List Block → List Block
  | [] => [b]
  | c :: U => if b.1 + b.2 = c.1 then join b c :: U else b :: c :: U

def joinBack : List Block → List Block → List Block
  | [], X => X
  | [l], [] => [l]
  | [l], x :: X => if l.1 + l.2 = x.1 then join l x :: X else l :: x :: X
  | l :: l' :: L, X => l :: joinBack (l' :: L) X

def release (b : Block) (fl : List Block) : List Block :=
  joinBack (fl.takeWhile (·.1 < b.1)) (joinFront b (fl.dropWhile (·.1 < b.1)))

def carve (c : Block) (n : Nat) : List Block → List Block
  | [] => []
  | d :: fl => if d = c then (if c.2 = n then fl else (c.1, c.2 - n) :: fl) else d :: carve c n fl

structure Tidy (lo hi : Nat) (fl live : List Block) : Prop where
  sorted : fl.Pairwise Below
  pos : ∀ c ∈ fl ++ live, 0 < c.2
  inside : ∀ c ∈ fl ++ live, lo ≤ c.1 ∧ c.1 + c.2 ≤ hi
  apart : (fl ++ live).Pairwise Apart

lemma apart_comm {b c : Block} : Apart b c ↔ Apart c b := Or.comm

instance : Std.Symm Apart := ⟨fun _ _ => apart_comm.mp⟩

lemma Below.apart {b c : Block} (h : Below b c) : Apart b c := .inl (Nat.le_of_lt h)

lemma mem_joinFront {b c : Block} {U : List Block} (h : c ∈ joinFront b U) :
    c = b ∨ c ∈ U ∨ ∃ u ∈ U, b.1 + b.2 = u.1 ∧ c = join b u := by
  cases U with
  | nil => simpa [joinFront] using h
  | cons u U =>
    simp only [joinFront] at h
    split_ifs at h with hu
    · rcases List.mem_cons.mp h with rfl | h
      · exact .inr (.inr ⟨u, List.mem_cons_self, hu, rfl⟩)
      · exact .inr (.inl (List.mem_cons_of_mem _ h))
    · simp only [List.mem_cons] at h
      rcases h with rfl | rfl | h
      · exact .inl rfl
      · exact .inr (.inl List.mem_cons_self)
      · exact .inr (.inl (List.mem_cons_of_mem _ h))

lemma mem_joinBack {c : Block} : ∀ {L X : List Block}, c ∈ joinBack L X →
    c ∈ L ∨ c ∈ X ∨ ∃ l ∈ L, ∃ x ∈ X, l.1 + l.2 = x.1 ∧ c = join l x
  | [], X, h => .inr (.inl h)
  | [l], [], h => .inl h
  | [l], x :: X, h => by
    simp only [joinBack] at h
    split_ifs at h with hx
    · rcases List.mem_cons.mp h with rfl | h
      · exact .inr (.inr ⟨l, List.mem_singleton_self l, x, List.mem_cons_self, hx, rfl⟩)
      · exact .inr (.inl (List.mem_cons_of_mem _ h))
    · simp only [List.mem_cons] at h
      rcases h with rfl | rfl | h
      · exact .inl (List.mem_singleton_self _)
      · exact .inr (.inl List.mem_cons_self)
      · exact .inr (.inl (List.mem_cons_of_mem _ h))
  | l :: l' :: L, X, h => by
    rcases List.mem_cons.mp h with rfl | h
    · exact .inl List.mem_cons_self
    · rcases mem_joinBack h with h | h | ⟨k, hk, x, hx, hkx, rfl⟩
      · exact .inl (List.mem_cons_of_mem _ h)
      · exact .inr (.inl h)
      · exact .inr (.inr ⟨k, List.mem_cons_of_mem _ hk, x, hx, hkx, rfl⟩)

lemma forall_mem_release (P : Block → Prop) (hjoin : ∀ p q, P p → P q → p.1 + p.2 = q.1 → P (join p q))
    {b : Block} {fl : List Block} (h : ∀ c ∈ b :: fl, P c) : ∀ c ∈ release b fl, P c := by
  have hfl : ∀ c ∈ fl, P c := fun c hc => h c (List.mem_cons_of_mem _ hc)
  have hfront : ∀ c ∈ joinFront b (fl.dropWhile (·.1 < b.1)), P c := by
    intro c hc
    rcases mem_joinFront hc with rfl | hc | ⟨u, hu, hbu, rfl⟩
    · exact h c List.mem_cons_self
    · exact hfl c ((List.dropWhile_suffix _).subset hc)
    · exact hjoin _ _ (h b List.mem_cons_self) (hfl u ((List.dropWhile_suffix _).subset hu)) hbu
  intro c hc
  rcases mem_joinBack hc with hc | hc | ⟨l, hl, x, hx, hlx, rfl⟩
  · exact hfl c ((List.takeWhile_prefix _).subset hc)
  · exact hfront c hc
  · exact hjoin _ _ (hfl l ((List.takeWhile_prefix _).subset hl)) (hfront x hx) hlx

lemma apart_join {p q d : Block} (hp : Apart p d) (hq : Apart q d) (hpq : p.1 + p.2 = q.1)
    (hd : 0 < d.2) : Apart (join p q) d := by
  unfold Apart join at *
  omega

lemma pairwise_joinFront {b : Block} {U : List Block} (hU : U.Pairwise Below)
    (hb : ∀ u ∈ U, b.1 + b.2 ≤ u.1) : (joinFront b U).Pairwise Below := by
  cases U with
  | nil => simp [joinFront]
  | cons u U =>
    rw [List.pairwise_cons] at hU
    simp only [joinFront]
    split_ifs with hu
    · refine List.pairwise_cons.mpr ⟨fun c hc => ?_, hU.2⟩
      have := hU.1 c hc
      unfold Below join at *
      omega
    · refine List.pairwise_cons.mpr ⟨fun c hc => ?_, List.pairwise_cons.mpr hU⟩
      have hbu := hb u List.mem_cons_self
      rcases List.mem_cons.mp hc with rfl | hc
      · unfold Below
        omega
      · have := hU.1 c hc
        unfold Below at *
        omega

lemma pairwise_joinBack : ∀ {L X : List Block}, L.Pairwise Below → X.Pairwise Below →
    (∀ l ∈ L, ∀ x ∈ X, l.1 + l.2 ≤ x.1) → (joinBack L X).Pairwise Below
  | [], X, _, hX, _ => hX
  | [l], [], _, _, _ => List.pairwise_singleton _ _
  | [l], x :: X, _, hX, hLX => by
    rw [List.pairwise_cons] at hX
    have hlx := hLX l (List.mem_singleton_self l) x List.mem_cons_self
    simp only [joinBack]
    split_ifs with h
    · refine List.pairwise_cons.mpr ⟨fun c hc => ?_, hX.2⟩
      have := hX.1 c hc
      unfold Below join at *
      omega
    · refine List.pairwise_cons.mpr ⟨fun c hc => ?_, List.pairwise_cons.mpr hX⟩
      rcases List.mem_cons.mp hc with rfl | hc
      · unfold Below
        omega
      · have := hX.1 c hc
        unfold Below at *
        omega
  | l :: l' :: L, X, hL, hX, hLX => by
    rw [List.pairwise_cons] at hL
    refine List.pairwise_cons.mpr ⟨fun c hc => ?_, pairwise_joinBack hL.2 hX
      (fun k hk x hx => hLX k (List.mem_cons_of_mem _ hk) x hx)⟩
    have hll' := hL.1 l' List.mem_cons_self
    rcases mem_joinBack hc with hc | hc | ⟨k, hk, x, hx, -, rfl⟩
    · exact hL.1 c hc
    · have := hLX l' (List.mem_cons_of_mem _ List.mem_cons_self) c hc
      unfold Below at *
      omega
    · have hlk := hL.1 k hk
      unfold Below join at *
      omega

lemma Apart.fst_ne {b c : Block} (h : Apart b c) (hb : 0 < b.2) (hc : 0 < c.2) : b.1 ≠ c.1 := by
  unfold Apart at h
  omega

lemma pairwise_lt_of_below {fl : List Block} (h : fl.Pairwise Below) :
    (fl.map Prod.fst).Pairwise (· < ·) :=
  List.pairwise_map.mpr (h.imp fun hbc => by unfold Below at hbc; omega)

lemma apart_of_mem_erase {live : List Block} (h : live.Pairwise Apart) {b d : Block} (hb : b ∈ live)
    (hd : d ∈ live.erase b) : Apart b d := by
  obtain ⟨A, B, -, rfl, herase⟩ := List.exists_erase_eq hb
  rw [herase, List.mem_append] at hd
  rw [List.pairwise_append, List.pairwise_cons] at h
  rcases hd with hd | hd
  · exact apart_comm.mp (h.2.2 d hd b List.mem_cons_self)
  · exact h.2.1.1 d hd

lemma joinBack_concat (X : List Block) (l : Block) :
    ∀ L : List Block, joinBack (L ++ [l]) X = L ++ joinBack [l] X
  | [] => rfl
  | [k] => by cases X <;> rfl
  | k :: k' :: L => by
    rw [List.cons_append, List.cons_append, joinBack, ← List.cons_append, joinBack_concat X l (k' :: L)]
    rfl

lemma joinBack_cons (b : Block) (X : List Block) (hb : ∀ x ∈ X.head?, b.1 + b.2 ≠ x.1) :
    ∀ L : List Block, joinBack (b :: L) X = b :: joinBack L X
  | [] => by
    cases X with
    | nil => rfl
    | cons x X => simp only [joinBack, if_neg (hb x rfl)]
  | l :: L => rfl

lemma joinFront_eq_cons (b : Block) (U : List Block) :
    ∃ x X, joinFront b U = x :: X ∧ x.1 = b.1 ∧ b.2 ≤ x.2 ∧ X.length ≤ U.length := by
  cases U with
  | nil => exact ⟨b, [], rfl, rfl, le_refl _, le_refl _⟩
  | cons u U =>
    simp only [joinFront]
    split_ifs
    · exact ⟨join b u, U, rfl, rfl, Nat.le_add_right _ _, Nat.le_succ _⟩
    · exact ⟨b, u :: U, rfl, rfl, le_refl _, le_refl _⟩

lemma exists_mem_joinBack_ge (x : Block) (X : List Block) :
    ∀ L : List Block, ∃ y ∈ joinBack L (x :: X), x.2 ≤ y.2
  | [] => ⟨x, List.mem_cons_self, le_refl _⟩
  | [l] => by
    simp only [joinBack]
    split_ifs
    · exact ⟨join l x, List.mem_cons_self, Nat.le_add_left _ _⟩
    · exact ⟨x, List.mem_cons_of_mem _ List.mem_cons_self, le_refl _⟩
  | l :: l' :: L => by
    obtain ⟨y, hy, hxy⟩ := exists_mem_joinBack_ge x X (l' :: L)
    exact ⟨y, List.mem_cons_of_mem _ hy, hxy⟩

lemma length_joinBack_le : ∀ L X : List Block, (joinBack L X).length ≤ L.length + X.length
  | [], X => by simp [joinBack]
  | [l], [] => by simp [joinBack]
  | [l], x :: X => by
    simp only [joinBack]
    split_ifs <;> simp only [List.length_cons] <;> omega
  | l :: l' :: L, X => by
    have := length_joinBack_le (l' :: L) X
    simp only [joinBack, List.length_cons] at this ⊢
    omega

lemma release_spec (b : Block) (fl : List Block) :
    (∃ c ∈ release b fl, b.2 ≤ c.2) ∧ (release b fl).length ≤ fl.length + 1 := by
  obtain ⟨x, X, hxX, -, hbx, hX⟩ := joinFront_eq_cons b (fl.dropWhile (·.1 < b.1))
  obtain ⟨y, hy, hxy⟩ := exists_mem_joinBack_ge x X (fl.takeWhile (·.1 < b.1))
  refine ⟨⟨y, by rw [release, hxX]; exact hy, le_trans hbx hxy⟩, ?_⟩
  have hlen := length_joinBack_le (fl.takeWhile (·.1 < b.1)) (x :: X)
  have hsplit := congrArg List.length (List.takeWhile_append_dropWhile (p := fun d : Block => d.1 < b.1) (l := fl))
  rw [List.length_append] at hsplit
  rw [release, hxX]
  simp only [List.length_cons] at hlen
  omega

lemma mem_joinBack_singleton (p : Block) (X : List Block) :
    ∃ p' ∈ joinBack [p] X, p'.1 = p.1 := by
  cases X with
  | nil => exact ⟨p, List.mem_singleton_self p, rfl⟩
  | cons x X =>
    simp only [joinBack]
    split_ifs
    · exact ⟨join p x, List.mem_cons_self, rfl⟩
    · exact ⟨p, List.mem_cons_self, rfl⟩

lemma carve_split {c : Block} {n : Nat} {B : List Block} :
    ∀ {A : List Block}, c ∉ A → carve c n (A ++ c :: B) = A ++ (if c.2 = n then B else (c.1, c.2 - n) :: B)
  | [], _ => by simp [carve]
  | d :: A, hA => by
    rw [List.mem_cons, not_or] at hA
    rw [List.cons_append, carve, if_neg (Ne.symm hA.1), carve_split hA.2, List.cons_append]

lemma sorted_next {A B : List Nat} {w v : Nat} (h : (A ++ w :: v :: B).Pairwise (· < ·)) :
    w < v ∧ ∀ e ∈ A ++ w :: v :: B, w < e → v ≤ e := by
  rw [List.pairwise_append, List.pairwise_cons, List.pairwise_cons] at h
  refine ⟨h.2.1.1 v List.mem_cons_self, fun e he hwe => ?_⟩
  rw [List.mem_append, List.mem_cons, List.mem_cons] at he
  rcases he with he | rfl | rfl | he
  · have := h.2.2 e he w List.mem_cons_self
    omega
  · omega
  · exact le_refl _
  · exact le_of_lt (h.2.1.2.1 e he)

lemma le_last_of_sorted {A : List Nat} {w e : Nat} (h : (A ++ [w]).Pairwise (· < ·))
    (he : e ∈ A ++ [w]) : e ≤ w := by
  rw [List.pairwise_append] at h
  rcases List.mem_append.mp he with he | he
  · exact le_of_lt (h.2.2 e he w (List.mem_singleton_self w))
  · exact le_of_eq (List.mem_singleton.mp he)

lemma length_le_of_sorted : ∀ {l : List Nat} {lo N : Nat}, l.Pairwise (· < ·) →
    (∀ e ∈ l, lo ≤ e ∧ e < N) → l.length ≤ N - lo
  | [], _, _, _, _ => Nat.zero_le _
  | a :: l, lo, N, h, hb => by
    rw [List.pairwise_cons] at h
    have ha := hb a List.mem_cons_self
    have ih := @length_le_of_sorted l (a + 1) N h.2
      fun e he => ⟨h.1 e he, (hb e (List.mem_cons_of_mem a he)).2⟩
    rw [List.length_cons]
    omega

section
variable {lo hi : Nat} {fl live : List Block}

lemma Tidy.apart_of_ne (h : Tidy lo hi fl live) {b c : Block} (hb : b ∈ fl ++ live)
    (hc : c ∈ fl ++ live) (hbc : b ≠ c) : Apart b c :=
  h.apart.forall hb hc hbc

lemma Tidy.split_at (h : Tidy lo hi fl live) {b : Block} (hb : b ∈ live) :
    (∀ d ∈ fl.takeWhile (·.1 < b.1), d.1 + d.2 ≤ b.1) ∧
      ∀ d ∈ fl.dropWhile (·.1 < b.1), b.1 + b.2 ≤ d.1 := by
  have hapart : ∀ d ∈ fl, Apart d b := fun d hd =>
    (List.pairwise_append.mp h.apart).2.2 d hd b hb
  have hpos : ∀ d ∈ fl, 0 < d.2 := fun d hd => h.pos d (List.mem_append_left _ hd)
  have hb0 : 0 < b.2 := h.pos b (List.mem_append_right _ hb)
  constructor
  · intro d hd
    have hlt := List.mem_takeWhile_imp hd
    have := hapart d ((List.takeWhile_prefix _).subset hd)
    simp only [decide_eq_true_eq] at hlt
    unfold Apart at this
    omega
  · have hsorted := h.sorted.sublist (List.dropWhile_suffix (fun d : Block => decide (d.1 < b.1))).sublist
    cases hU : fl.dropWhile (·.1 < b.1) with
    | nil => simp
    | cons u U =>
      have hu := List.head_dropWhile_not (fun d : Block => decide (d.1 < b.1)) (l := fl) (by simp [hU])
      simp only [hU, List.head_cons, decide_eq_false_iff_not, not_lt] at hu
      rw [hU, List.pairwise_cons] at hsorted
      have hmem : ∀ d ∈ u :: U, d ∈ fl := fun d hd => (List.dropWhile_suffix _).subset (hU ▸ hd)
      intro d hd
      have hge : b.1 ≤ d.1 := by
        rcases List.mem_cons.mp hd with rfl | hd
        · omega
        · have := hsorted.1 d hd
          unfold Below at this
          omega
      have := hapart d (hmem d hd)
      have := hpos d (hmem d hd)
      unfold Apart at *
      omega

theorem Tidy.release (h : Tidy lo hi fl live) {b : Block} (hb : b ∈ live) :
    Tidy lo hi (release b fl) (live.erase b) := by
  obtain ⟨hL, hU⟩ := h.split_at hb
  have hbfl : ∀ c ∈ b :: fl, c ∈ fl ++ live := by
    intro c hc
    rcases List.mem_cons.mp hc with rfl | hc
    · exact List.mem_append_right _ hb
    · exact List.mem_append_left _ hc
  have hsorted : (Blocks.release b fl).Pairwise Below := by
    refine pairwise_joinBack (h.sorted.sublist (List.takeWhile_prefix _).sublist)
      (pairwise_joinFront (h.sorted.sublist (List.dropWhile_suffix _).sublist) hU) ?_
    intro l hl x hx
    have hlb := hL l hl
    rcases mem_joinFront hx with rfl | hx | ⟨u, -, -, rfl⟩
    · exact hlb
    · have := hU x hx
      omega
    · exact hlb
  have herase : ∀ c ∈ live.erase b, c ∈ fl ++ live := fun c hc =>
    List.mem_append_right _ (List.mem_of_mem_erase hc)
  refine ⟨hsorted, ?_, ?_, ?_⟩
  · intro c hc
    rcases List.mem_append.mp hc with hc | hc
    · refine forall_mem_release (fun c => 0 < c.2) (fun p q _ hq _ => ?_)
        (fun c hc => h.pos c (hbfl c hc)) c hc
      simp only [join]
      omega
    · exact h.pos c (herase c hc)
  · intro c hc
    rcases List.mem_append.mp hc with hc | hc
    · refine forall_mem_release (fun c => lo ≤ c.1 ∧ c.1 + c.2 ≤ hi) (fun p q hp hq hpq => ?_)
        (fun c hc => h.inside c (hbfl c hc)) c hc
      simp only [join]
      omega
    · exact h.inside c (herase c hc)
  · rw [List.pairwise_append]
    have hlive := (List.pairwise_append.mp h.apart).2.1
    refine ⟨hsorted.imp Below.apart, hlive.sublist List.erase_sublist, fun c hc d hd => ?_⟩
    have hd0 : 0 < d.2 := h.pos d (herase d hd)
    refine forall_mem_release (fun c => Apart c d) (fun p q hp hq hpq => apart_join hp hq hpq hd0)
      (fun c hc => ?_) c hc
    rcases List.mem_cons.mp hc with rfl | hc
    · exact apart_of_mem_erase hlive hb hd
    · exact (List.pairwise_append.mp h.apart).2.2 c hc d (List.mem_of_mem_erase hd)

theorem Tidy.carve (h : Tidy lo hi fl live) {c : Block} (hc : c ∈ fl) {n : Nat} (hn : 0 < n)
    (hnc : n ≤ c.2) : Tidy lo hi (carve c n fl) ((c.1 + (c.2 - n), n) :: live) := by
  obtain ⟨A, B, hA, rfl, -⟩ := List.exists_erase_eq hc
  rw [carve_split hA]
  have hcin := h.inside c (List.mem_append_left _ hc)
  have hsymm : ∀ {x y : Block}, Apart x y → Apart y x := fun h => apart_comm.mp h
  have hold : ∀ x ∈ A ++ B ++ live, Apart c x ∧ x ∈ A ++ c :: B ++ live := by
    have hp := h.apart
    rw [List.append_assoc, List.cons_append, List.pairwise_middle hsymm, List.pairwise_cons] at hp
    intro x hx
    refine ⟨hp.1 x (by simpa using hx), ?_⟩
    simp only [List.mem_append, List.mem_cons] at hx ⊢
    tauto
  have hrest : (A ++ B ++ live).Pairwise Apart := by
    have hp := h.apart
    rw [List.append_assoc, List.cons_append, List.pairwise_middle hsymm, List.pairwise_cons,
      ← List.append_assoc] at hp
    exact hp.2
  by_cases hcn : c.2 = n
  · rw [if_pos hcn]
    have hc' : (c.1 + (c.2 - n), n) = c := Prod.ext (by simp only; omega) hcn.symm
    rw [hc']
    refine ⟨h.sorted.sublist (by simp), fun x hx => h.pos x ?_, fun x hx => h.inside x ?_, ?_⟩
    · simp only [List.mem_append, List.mem_cons] at hx ⊢
      tauto
    · simp only [List.mem_append, List.mem_cons] at hx ⊢
      tauto
    · rw [List.pairwise_middle hsymm, List.pairwise_cons]
      exact ⟨fun x hx => (hold x hx).1, hrest⟩
  · rw [if_neg hcn]
    have hlt : n < c.2 := lt_of_le_of_ne hnc (Ne.symm hcn)
    refine ⟨?_, ?_, ?_, ?_⟩
    · have hs := h.sorted
      rw [List.pairwise_append, List.pairwise_cons] at hs ⊢
      refine ⟨hs.1, ⟨fun y hy => ?_, hs.2.1.2⟩, fun a ha y hy => ?_⟩
      · have := hs.2.1.1 y hy
        unfold Below at *
        omega
      · rcases List.mem_cons.mp hy with rfl | hy
        · have := hs.2.2 a ha c List.mem_cons_self
          unfold Below at *
          exact this
        · exact hs.2.2 a ha y (List.mem_cons_of_mem _ hy)
    · intro x hx
      simp only [List.mem_append, List.mem_cons] at hx
      rcases hx with (hx | rfl | hx) | rfl | hx
      · exact h.pos x (by simp [hx])
      · simp only
        omega
      · exact h.pos x (by simp [hx])
      · exact hn
      · exact h.pos x (by simp [hx])
    · intro x hx
      simp only [List.mem_append, List.mem_cons] at hx
      rcases hx with (hx | rfl | hx) | rfl | hx
      · exact h.inside x (by simp [hx])
      · simp only
        omega
      · exact h.inside x (by simp [hx])
      · simp only
        omega
      · exact h.inside x (by simp [hx])
    · rw [List.pairwise_middle hsymm, List.pairwise_cons, List.append_assoc, List.cons_append,
        List.pairwise_middle hsymm, List.pairwise_cons, ← List.append_assoc]
      refine ⟨fun x hx => ?_, fun x hx => ?_, hrest⟩
      · simp only [List.mem_append, List.mem_cons] at hx
        rcases hx with hx | rfl | hx | hx
        · have := (hold x (by simp [hx])).1
          unfold Apart at *
          omega
        · unfold Apart
          omega
        · have := (hold x (by simp [hx])).1
          unfold Apart at *
          omega
        · have := (hold x (by simp [hx])).1
          unfold Apart at *
          omega
      · have := (hold x hx).1
        unfold Apart at *
        omega

theorem Tidy.grow (h : Tidy lo hi fl live) (hlo : lo ≤ hi) {k : Nat} (hk : 0 < k) :
    Tidy lo (hi + k) fl ((hi, k) :: live) := by
  have hsymm : ∀ {x y : Block}, Apart x y → Apart y x := fun h => apart_comm.mp h
  refine ⟨h.sorted, fun x hx => ?_, fun x hx => ?_, ?_⟩
  · rcases List.mem_append.mp hx with hx | hx
    · exact h.pos x (List.mem_append_left _ hx)
    · rcases List.mem_cons.mp hx with rfl | hx
      · exact hk
      · exact h.pos x (List.mem_append_right _ hx)
  · rcases List.mem_append.mp hx with hx | hx
    · have := h.inside x (List.mem_append_left _ hx)
      omega
    · rcases List.mem_cons.mp hx with rfl | hx
      · exact ⟨hlo, le_refl _⟩
      · have := h.inside x (List.mem_append_right _ hx)
        omega
  · rw [List.pairwise_middle hsymm, List.pairwise_cons]
    refine ⟨fun x hx => .inr (h.inside x hx).2, h.apart⟩

end

end Blocks
