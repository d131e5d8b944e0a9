import Xv6.Vm.Owned

/-! `setupkvm`: the kernel's half of every page directory.

`mappages` over a range writes one entry per page, taking a page-table page off the free list
for each slot it finds empty. Part way through, the range is `Mapped`: the pages done so far
hold their entries, every other entry is as it was, slots are only added, and the free list
with the page-table pages holds the pages it held. `setupkvm` runs it over the four ranges of
`kmap`, which lie one above the other, so that no page is mapped twice. -/

namespace Xv6.Vm

open Frames

lemma mapEntry_eq {pa perm : Nat} (hpa : pa % pgSize = 0) (hperm : perm < pgSize) :
    pa ||| perm ||| ptePresent = pa + (perm ||| ptePresent) := by
  have hperm' : perm < 2 ^ 12 := hperm
  have hf : perm ||| ptePresent < pgSize := Nat.or_lt_two_pow hperm' (by decide)
  rw [Nat.or_assoc, or_eq_add hpa hf]

lemma mapFrom_step {k k' : Kmem} {pd pd' : Pgdir} {n l pa perm fuel d x : Nat}
    (hw : walkpgdir k pd (n * pgSize) true = some (k', pd', d, x))
    (hpte : present (pd'.pte d x) = false) (hl : l < 2 ^ 20) (hnl : n ≤ l)
    (hpa : n < l → pa + pgSize < 2 ^ 32) :
    mapFrom k pd (n * pgSize) (l * pgSize) pa perm (fuel + 1) =
      if n = l then some (k', pd'.setPte d x (pa ||| perm ||| ptePresent), 0)
      else mapFrom k' (pd'.setPte d x (pa ||| perm ||| ptePresent)) ((n + 1) * pgSize)
        (l * pgSize) (pa + pgSize) perm fuel := by
  rw [mapFrom, hw]
  simp only [hpte, Bool.false_eq_true, if_false]
  by_cases hn : n = l
  · subst hn
    simp
  · have hne : n * pgSize ≠ l * pgSize := fun h => hn (Nat.eq_of_mul_eq_mul_right (by decide) h)
    have hnext : (n * pgSize + pgSize) % 4294967296 = (n + 1) * pgSize := by
      simp only [pgSize] at hl hnl ⊢
      omega
    rw [if_neg hne, if_neg hn, hnext,
      Nat.mod_eq_of_lt (show pa + pgSize < 4294967296 from hpa (by omega))]

lemma mapFrom_fail {k : Kmem} {pd : Pgdir} {n l pa perm fuel : Nat}
    (hw : walkpgdir k pd (n * pgSize) true = none) :
    mapFrom k pd (n * pgSize) (l * pgSize) pa perm (fuel + 1) = some (k, pd, -1) := by
  rw [mapFrom, hw]

structure Mapped (k0 : Kmem) (pd0 : Pgdir) (n0 pa0 f : Nat) (k : Kmem) (pd : Pgdir) (n : Nat) :
    Prop where
  pool : (k.freelist ++ pd.tablePages).Perm (k0.freelist ++ pd0.tablePages)
  done : ∀ i, n0 ≤ i → i < n → pd.entry i = pa0 + (i - n0) * pgSize + f
  other : ∀ i, i < n0 ∨ n ≤ i → pd.entry i = pd0.entry i
  kept : ∀ d, present (pd0.pde d) = true → present (pd.pde d) = true
  added : ∀ d, present (pd.pde d) = true → present (pd0.pde d) = true ∨ ∃ i, n0 ≤ i ∧ i < n ∧ i / 1024 = d

section Range

variable {kend : Nat} {k0 : Kmem} {pd0 : Pgdir} {n0 pa0 f : Nat}

lemma Mapped.start : Mapped k0 pd0 n0 pa0 f k0 pd0 n0 :=
  ⟨List.Perm.refl _, fun _ h₁ h₂ => absurd h₂ (by omega), fun _ _ => rfl, fun _ h => h,
    fun _ h => .inl h⟩

lemma Mapped.map {k : Kmem} {pd : Pgdir} {n : Nat} (h : Mapped k0 pd0 n0 pa0 f k pd n)
    (hn0 : n0 ≤ n) (hpde : present (pd.pde (n / 1024)) = true) :
    Mapped k0 pd0 n0 pa0 f k (pd.setPte (n / 1024) (n % 1024) (pa0 + (n - n0) * pgSize + f))
      (n + 1) := by
  refine ⟨h.pool, fun i hi hi' => ?_, fun i hi => ?_, fun d hd => h.kept d hd, fun d hd => ?_⟩
  · rw [Pgdir.entry_setPte_page]
    by_cases hin : i = n
    · rw [if_pos ⟨hin, hpde⟩, hin]
    · rw [if_neg (fun h' => hin h'.1)]
      exact h.done i hi (by omega)
  · rw [Pgdir.entry_setPte_page, if_neg (fun h' => by omega)]
    exact h.other i (by omega)
  · rcases h.added d hd with h0 | ⟨i, hi, hi', rfl⟩
    · exact .inl h0
    · exact .inr ⟨i, hi, by omega, rfl⟩

lemma Mapped.install {k : Kmem} {pd : Pgdir} {n t : Nat} {rest : List Nat}
    (h : Mapped k0 pd0 n0 pa0 f k pd n) (hk : kernBase < kend) (hn0 : n0 ≤ n)
    (hs : k.freelist = t :: rest) (ht : Kfreeable kend t)
    (hpde : present (pd.pde (n / 1024)) = false) (hn : n / 1024 < 1024) :
    Mapped k0 pd0 n0 pa0 f ⟨rest⟩ ((pd.install (n / 1024) (v2p t + 7)).setPte (n / 1024) (n % 1024)
      (pa0 + (n - n0) * pgSize + f)) (n + 1) := by
  have hw : present (v2p t + 7) = true := by rw [present_add ht.v2p_aligned]; rfl
  let pd₁ := pd.install (n / 1024) (v2p t + 7)
  have hpde₁ : present (pd₁.pde (n / 1024)) = true := by simp [pd₁, hw]
  have hsame : ∀ i, pd₁.entry i = pd.entry i := by
    intro i
    rw [Pgdir.entry_install]
    split_ifs with hi
    · exact (Pgdir.entry_of_absent (by rwa [hi])).symm
    · rfl
  have hpool : (rest ++ pd₁.tablePages).Perm (k0.freelist ++ pd0.tablePages) := by
    have htp := pd.tablePages_install (w := v2p t + 7) (by simpa [nPdentries] using hn) hpde hw
    rw [ht.p2v_pteAddr hk (by decide)] at htp
    refine List.Perm.trans ?_ h.pool
    rw [hs]
    exact (htp.append_left rest).trans List.perm_middle
  have hkept : ∀ d, present (pd0.pde d) = true → present (pd₁.pde d) = true := by
    intro d hd
    have hne : d ≠ n / 1024 := fun he => by
      have := h.kept d hd
      rw [he, hpde] at this
      cases this
    simp only [pd₁, Pgdir.install_pde, Function.update_of_ne hne]
    exact h.kept d hd
  refine ⟨hpool, fun i hi hi' => ?_, fun i hi => ?_, hkept, fun d hd => ?_⟩
  · rw [Pgdir.entry_setPte_page]
    by_cases hin : i = n
    · rw [if_pos ⟨hin, hpde₁⟩, hin]
    · rw [if_neg (fun h' => hin h'.1), hsame]
      exact h.done i hi (by omega)
  · rw [Pgdir.entry_setPte_page, if_neg (fun h' => by omega), hsame]
    exact h.other i (by omega)
  · by_cases hne : d = n / 1024
    · exact .inr ⟨n, hn0, Nat.lt_succ_self n, hne.symm⟩
    · have hd' : present (pd.pde d) = true := by
        simpa [pd₁, Function.update_of_ne hne] using hd
      rcases h.added d hd' with h0 | ⟨i, hi, hi', rfl⟩
      · exact .inl h0
      · exact .inr ⟨i, hi, by omega, rfl⟩

def slotsNeeded (pd : Pgdir) (n l : Nat) : Nat :=
  (if present (pd.pde (n / 1024)) then 0 else 1) + (l / 1024 - n / 1024)

lemma slotsNeeded_succ {pd : Pgdir} {n l : Nat} (hnl : n < l)
    (hpde : present (pd.pde (n / 1024)) = true) : slotsNeeded pd (n + 1) l ≤ slotsNeeded pd n l := by
  simp only [slotsNeeded, hpde, if_true]
  by_cases hsame : (n + 1) / 1024 = n / 1024
  · rw [hsame, if_pos hpde]
  · split_ifs <;> omega

lemma mapFrom_spec (hk : kernBase < kend) {l perm : Nat} (hl : l < 2 ^ 20)
    (hF : ∀ v ∈ k0.freelist ++ pd0.tablePages, Kfreeable kend v) (hpa0 : pa0 % pgSize = 0)
    (hpa : pa0 + (l - n0) * pgSize < 2 ^ 32) (hperm : perm < pgSize)
    (hf : f = perm ||| ptePresent)
    (hfree : ∀ i, n0 ≤ i → i ≤ l → present (pd0.entry i) = false) :
    ∀ fuel n k pd, l + 1 - n ≤ fuel → n0 ≤ n → n ≤ l → Mapped k0 pd0 n0 pa0 f k pd n →
      ∃ k' pd' r, mapFrom k pd (n * pgSize) (l * pgSize) (pa0 + (n - n0) * pgSize) perm fuel =
          some (k', pd', r) ∧
        (r = 0 ∧ Mapped k0 pd0 n0 pa0 f k' pd' (l + 1) ∨
          r = -1 ∧ ∃ m, n0 ≤ m ∧ m ≤ l ∧ Mapped k0 pd0 n0 pa0 f k' pd' m) ∧
        k.freelist.length ≤ k'.freelist.length + slotsNeeded pd n l ∧
        (slotsNeeded pd n l ≤ k.freelist.length → r = 0) := by
  intro fuel
  induction fuel with
  | zero => intro n k pd hfuel; omega
  | succ fuel ih =>
    intro n k pd hfuel hn0 hnl h
    have hn : n < 2 ^ 20 := by omega
    have hentry : present (pd.entry n) = false := by
      rw [h.other n (.inr le_rfl)]
      exact hfree n hn0 hnl
    have hw : pa0 + (n - n0) * pgSize ||| perm ||| ptePresent = pa0 + (n - n0) * pgSize + f := by
      rw [mapEntry_eq (by simp only [pgSize] at hpa0 ⊢; omega) hperm, hf]
    have hnext : n < l → pa0 + (n - n0) * pgSize + pgSize < 2 ^ 32 := by
      intro hlt
      have : (n - n0) * pgSize + pgSize ≤ (l - n0) * pgSize := by
        rw [← Nat.succ_mul]
        exact Nat.mul_le_mul_right _ (by omega)
      omega
    have hpa' : n < l → pa0 + (n - n0) * pgSize + pgSize = pa0 + (n + 1 - n0) * pgSize := by
      intro _
      rw [show n + 1 - n0 = (n - n0) + 1 by omega, Nat.succ_mul, Nat.add_assoc]
    by_cases hpde : present (pd.pde (n / 1024)) = true
    · have hpte : present (pd.pte (n / 1024) (n % 1024)) = false := by
        rwa [← Pgdir.entry_of_present hpde]
      have hwalk := walkpgdir_present (k := k) true (by rwa [pdx_page hn])
      rw [pdx_page hn, ptx_page] at hwalk
      rw [mapFrom_step hwalk hpte hl hnl hnext, hw]
      have hmap := h.map hn0 hpde
      by_cases hnl' : n = l
      · subst hnl'
        rw [if_pos rfl]
        exact ⟨_, _, 0, rfl, .inl ⟨rfl, hmap⟩, by omega, fun _ => rfl⟩
      · rw [if_neg hnl', hpa' (by omega)]
        obtain ⟨k', pd', r, heq, hres, hlen, hfull⟩ := ih (n + 1) k _ (by omega) (by omega) (by omega) hmap
        have hneed := slotsNeeded_succ (lt_of_le_of_ne hnl hnl') (by simpa using hpde)
        exact ⟨k', pd', r, heq, hres, hlen.trans (Nat.add_le_add_left hneed _),
          fun hle => hfull (hneed.trans hle)⟩
    have hpde' : present (pd.pde (n / 1024)) = false := by simpa using hpde
    have hneed0 : slotsNeeded pd n l = 1 + (l / 1024 - n / 1024) := by simp [slotsNeeded, hpde']
    obtain ⟨fl⟩ := k
    rcases fl with _ | ⟨t, rest⟩
    · rw [mapFrom_fail (walkpgdir_alloc_nil (by rwa [pdx_page hn]))]
      exact ⟨_, pd, -1, rfl, .inr ⟨rfl, n, hn0, hnl, h⟩, by simp, fun hle => by simp at hle; omega⟩
    · have ht : Kfreeable kend t := hF t (h.pool.mem_iff.mp (by simp))
      have hwalk := @walkpgdir_alloc pd (n * pgSize) t rest (by rwa [pdx_page hn])
      rw [pdx_page hn, ptx_page, tableEntry_eq ht.1] at hwalk
      have hpte : present ((pd.install (n / 1024) (v2p t + 7)).pte (n / 1024) (n % 1024)) = false := by
        simp [Pgdir.install, present_zero]
      rw [mapFrom_step hwalk hpte hl hnl hnext, hw]
      have hinst := h.install hk hn0 rfl ht hpde' (by omega)
      by_cases hnl' : n = l
      · subst hnl'
        rw [if_pos rfl]
        exact ⟨_, _, 0, rfl, .inl ⟨rfl, hinst⟩, by simp; omega, fun _ => rfl⟩
      · rw [if_neg hnl', hpa' (by omega)]
        obtain ⟨k', pd', r, heq, hres, hlen, hfull⟩ :=
          ih (n + 1) ⟨rest⟩ _ (by omega) (by omega) (by omega) hinst
        have hp : present (v2p t + 7) = true := by rw [present_add ht.v2p_aligned]; rfl
        have hneed := @slotsNeeded_succ ((pd.install (n / 1024) (v2p t + 7)).setPte (n / 1024)
          (n % 1024) (pa0 + (n - n0) * pgSize + f)) n l (lt_of_le_of_ne hnl hnl') (by simp [hp])
        have hneed' : slotsNeeded ((pd.install (n / 1024) (v2p t + 7)).setPte (n / 1024) (n % 1024)
            (pa0 + (n - n0) * pgSize + f)) n l = l / 1024 - n / 1024 := by
          simp [slotsNeeded, hp]
        simp only [List.length_cons] at hlen hfull ⊢
        exact ⟨k', pd', r, heq, hres, by omega, fun hle => hfull (by omega)⟩

lemma slotsNeeded_le (pd : Pgdir) (n l : Nat) : slotsNeeded pd n l ≤ l / 1024 - n / 1024 + 1 := by
  simp only [slotsNeeded]
  split_ifs <;> omega

lemma mappages_range {k : Kmem} {pd : Pgdir} {n size pa perm : Nat} (hsize : 0 < size)
    (hend : n * pgSize + size ≤ 2 ^ 32) :
    mappages k pd (n * pgSize) size pa perm =
      mapFrom k pd (n * pgSize) ((n * pgSize + size - 1) / pgSize * pgSize) pa perm
        ((n * pgSize + size - 1) / pgSize - n + 1) := by
  have hfirst : pgrounddown (n * pgSize) = n * pgSize := by
    rw [pgrounddown_eq (by omega), Nat.mul_div_cancel _ (by decide)]
  have hlast : CInt.toUint ((n * pgSize : Nat) + (size : Int) - 1) = n * pgSize + size - 1 := by
    rw [CInt.toUint_of_range (by omega) (by omega)]
    omega
  have hlastPage : pgrounddown (n * pgSize + size - 1) = (n * pgSize + size - 1) / pgSize * pgSize :=
    pgrounddown_eq (by omega)
  have hle : n * pgSize ≤ (n * pgSize + size - 1) / pgSize * pgSize := by
    apply Nat.mul_le_mul_right
    exact (Nat.le_div_iff_mul_le (by decide)).mpr (by omega)
  have hdown : (n * pgSize + size - 1) / pgSize * pgSize ≤ n * pgSize + size - 1 :=
    Nat.div_mul_le_self _ _
  have hfuel : CInt.toUint (((n * pgSize + size - 1) / pgSize * pgSize : Nat) - (n * pgSize : Nat) : Int) /
      pgSize + 1 = (n * pgSize + size - 1) / pgSize - n + 1 := by
    rw [← Nat.cast_sub hle, CInt.toUint_of_range (by omega) (by omega), Int.toNat_natCast,
      ← Nat.sub_mul, Nat.mul_div_cancel _ (by decide)]
  simp only [mappages, hfirst, hlast, hlastPage]
  rw [← hfuel]

lemma Mapped.entry_eq {k : Kmem} {pd : Pgdir} {n : Nat} (h : Mapped k0 pd0 n0 pa0 f k pd n) (i : Nat) :
    pd.entry i = if n0 ≤ i ∧ i < n then pa0 + (i - n0) * pgSize + f else pd0.entry i := by
  split_ifs with hi
  · exact h.done i hi.1 hi.2
  · exact h.other i (by omega)

lemma Mapped.slot {k : Kmem} {pd : Pgdir} {n d : Nat} (h : Mapped k0 pd0 n0 pa0 f k pd n)
    (hd : present (pd.pde d) = true) :
    present (pd0.pde d) = true ∨ n0 / 1024 ≤ d ∧ d ≤ (n - 1) / 1024 := by
  rcases h.added d hd with h0 | ⟨i, hi, hi', rfl⟩
  · exact .inl h0
  · exact .inr ⟨Nat.div_le_div_right hi, Nat.div_le_div_right (by omega)⟩

end Range

def Kmap.size (e : Kmap) : Nat := CInt.toUint ((e.physEnd : Int) - e.physStart)

def Kmap.first (e : Kmap) : Nat := e.virt / pgSize

def Kmap.last (e : Kmap) : Nat := (e.virt + e.size - 1) / pgSize

structure Kmap.Valid (e : Kmap) : Prop where
  aligned : e.virt % pgSize = 0
  pos : 0 < e.size
  fits : e.virt + e.size ≤ 2 ^ 32
  physAligned : e.physStart % pgSize = 0
  physFits : e.physStart + e.size ≤ 2 ^ 32
  perm : e.perm < pgSize

def kmapEntry : List Kmap → Nat → Option Nat
  | [], _ => none
  | e :: es, i =>
    if e.first ≤ i ∧ i ≤ e.last then some (e.physStart + (i - e.first) * pgSize + (e.perm ||| ptePresent))
    else kmapEntry es i

def kmapNeed (es : List Kmap) : Nat := (es.map fun e => e.last / 1024 - e.first / 1024 + 1).sum

lemma kmapEntry_of_lt {es : List Kmap} {i : Nat} (h : ∀ e ∈ es, i < e.first) : kmapEntry es i = none := by
  induction es with
  | nil => rfl
  | cons e es ih =>
    rw [kmapEntry, if_neg (by have := h e List.mem_cons_self; omega)]
    exact ih fun e' he' => h e' (List.mem_cons_of_mem e he')

lemma Kmap.Valid.virt_eq {e : Kmap} (h : e.Valid) : e.virt = e.first * pgSize :=
  (Nat.div_mul_cancel (Nat.dvd_of_mod_eq_zero h.aligned)).symm

lemma Kmap.Valid.last_lt {e : Kmap} (h : e.Valid) : e.last < 2 ^ 20 := by
  have := h.fits
  have := h.pos
  simp only [Kmap.last, pgSize] at *
  omega

lemma Kmap.Valid.first_le_last {e : Kmap} (h : e.Valid) : e.first ≤ e.last := by
  have := h.pos
  simp only [Kmap.first, Kmap.last]
  exact Nat.div_le_div_right (by omega)

lemma mappages_kmap {kend : Nat} (hk : kernBase < kend) {k : Kmem} {pd : Pgdir} {e : Kmap}
    (he : e.Valid) (hF : ∀ v ∈ k.freelist ++ pd.tablePages, Kfreeable kend v)
    (hfree : ∀ i, e.first ≤ i → i ≤ e.last → present (pd.entry i) = false) :
    ∃ k' pd' r, mappages k pd e.virt e.size e.physStart e.perm = some (k', pd', r) ∧
      (r = 0 ∧ Mapped k pd e.first e.physStart (e.perm ||| ptePresent) k' pd' (e.last + 1) ∨
        r = -1 ∧ ∃ m, e.first ≤ m ∧ m ≤ e.last ∧
          Mapped k pd e.first e.physStart (e.perm ||| ptePresent) k' pd' m) ∧
      k.freelist.length ≤ k'.freelist.length + (e.last / 1024 - e.first / 1024 + 1) ∧
      (e.last / 1024 - e.first / 1024 + 1 ≤ k.freelist.length → r = 0) := by
  have hvirt := he.virt_eq
  have hl : (e.first * pgSize + e.size - 1) / pgSize = e.last := by rw [Kmap.last, hvirt]
  have hpa : e.physStart + (e.last - e.first) * pgSize < 2 ^ 32 := by
    have := he.physFits
    have := he.pos
    have hlast : e.last * pgSize ≤ e.virt + e.size - 1 := Nat.div_mul_le_self _ _
    have : (e.last - e.first) * pgSize ≤ e.size - 1 := by rw [Nat.sub_mul]; omega
    omega
  rw [hvirt, mappages_range he.pos (hvirt ▸ he.fits), hl]
  obtain ⟨k', pd', r, heq, hres, hlen, hfull⟩ := mapFrom_spec hk he.last_lt hF he.physAligned hpa
    he.perm rfl hfree (e.last - e.first + 1) e.first k pd (by omega) le_rfl he.first_le_last Mapped.start
  rw [Nat.sub_self, Nat.zero_mul, Nat.add_zero] at heq
  exact ⟨k', pd', r, heq, hres, hlen.trans (Nat.add_le_add_left (slotsNeeded_le _ _ _) _),
    fun hle => hfull ((slotsNeeded_le _ _ _).trans hle)⟩

lemma kmapNeed_cons (e : Kmap) (es : List Kmap) :
    kmapNeed (e :: es) = e.last / 1024 - e.first / 1024 + 1 + kmapNeed es := by
  simp [kmapNeed]

lemma mapKmap_spec (hk : kernBase < kend) : ∀ (es : List Kmap) (k : Kmem) (pd : Pgdir) (lo : Nat),
    (∀ e ∈ es, e.Valid ∧ lo ≤ e.first) → es.Pairwise (fun e e' => e.last < e'.first) →
    (∀ i, lo ≤ i → present (pd.entry i) = false) →
    (∀ v ∈ k.freelist ++ pd.tablePages, Kfreeable kend v) →
    ∃ k' pd' ok, mapKmap k pd es = some (k', pd', ok) ∧
      (k'.freelist ++ pd'.tablePages).Perm (k.freelist ++ pd.tablePages) ∧
      (∀ i, i < lo → pd'.entry i = pd.entry i) ∧
      (∀ d, present (pd'.pde d) = true →
        present (pd.pde d) = true ∨ ∃ e ∈ es, e.first / 1024 ≤ d ∧ d ≤ e.last / 1024) ∧
      (ok = true → ∀ i, pd'.entry i = (kmapEntry es i).getD (pd.entry i)) ∧
      k.freelist.length ≤ k'.freelist.length + kmapNeed es ∧
      (kmapNeed es ≤ k.freelist.length → ok = true)
  | [], k, pd, _, _, _, _, _ =>
    ⟨k, pd, true, rfl, .refl _, fun _ _ => rfl, fun _ h => .inl h, fun _ _ => rfl, by simp [kmapNeed],
      fun _ => rfl⟩
  | e :: es, k, pd, lo, hes, hsorted, hfree, hF => by
    obtain ⟨he, hlo⟩ := hes e List.mem_cons_self
    obtain ⟨k₁, pd₁, r, heq, hres, hlen, hfull⟩ :=
      mappages_kmap hk he hF fun i hi _ => hfree i (hlo.trans hi)
    replace heq : mappages k pd e.virt (CInt.toUint ((e.physEnd : Int) - e.physStart)) e.physStart
        e.perm = some (k₁, pd₁, r) := heq
    rw [kmapNeed_cons]
    rcases hres with ⟨rfl, hm⟩ | ⟨rfl, m, hm0, hml, hm⟩
    · obtain ⟨hafter, hsorted'⟩ := List.pairwise_cons.mp hsorted
      obtain ⟨k', pd', ok, heq', hpool, hlow, hpde, hentry, hlen', hneed⟩ :=
        mapKmap_spec hk es k₁ pd₁ (e.last + 1)
          (fun e' he' => ⟨(hes e' (List.mem_cons_of_mem e he')).1, hafter e' he'⟩) hsorted'
          (fun i hi => by
            rw [hm.other i (.inr hi)]
            exact hfree i (by have := he.first_le_last; omega))
          (fun v hv => hF v (hm.pool.subset hv))
      refine ⟨k', pd', ok, ?_, hpool.trans hm.pool,
        fun i hi => (hlow i (by have := he.first_le_last; omega)).trans (hm.other i (.inl (by omega))),
        fun d hd => ?_, fun hok i => ?_, by omega, fun hneed' => hneed (by omega)⟩
      · simp only [mapKmap, heq]
        exact heq'
      · rcases hpde d hd with h | ⟨e', he', h⟩
        · exact (hm.slot h).imp id fun h' => ⟨e, List.mem_cons_self, h'.1, by simpa using h'.2⟩
        · exact .inr ⟨e', List.mem_cons_of_mem e he', h⟩
      · rw [hentry hok i, hm.entry_eq i, kmapEntry]
        by_cases hi : e.first ≤ i ∧ i ≤ e.last
        · rw [kmapEntry_of_lt fun e' he' => by have := hafter e' he'; omega, if_pos ⟨hi.1, by omega⟩,
            if_pos hi]
          rfl
        · rw [if_neg (by omega), if_neg hi]
    · refine ⟨k₁, pd₁, false, ?_, hm.pool, fun i hi => hm.other i (.inl (by omega)),
        fun d hd => ?_, fun h => absurd h Bool.false_ne_true, by omega, fun hneed => ?_⟩
      · simp only [mapKmap, heq]
        rfl
      · exact (hm.slot hd).imp id fun h => ⟨e, List.mem_cons_self, h.1, h.2.trans (by omega)⟩
      · exact absurd (hfull (by omega)) (by decide)

def kvmEntry (data i : Nat) : Nat :=
  if kernBase / pgSize ≤ i ∧ i < (kernBase + phystop) / pgSize then
    v2p (i * pgSize) + if kernlink / pgSize ≤ i ∧ i < data / pgSize then ptePresent else pteWritable ||| ptePresent
  else if devspace / pgSize ≤ i then i * pgSize + (pteWritable ||| ptePresent)
  else 0

lemma kvmEntry_user (data : Nat) {i : Nat} (hi : i < userTop) : kvmEntry data i = 0 := by
  have hkern : ¬(kernBase / pgSize ≤ i ∧ i < (kernBase + phystop) / pgSize) := fun h => by
    simp only [userTop] at hi
    omega
  have hdev : ¬devspace / pgSize ≤ i := by
    simp only [userTop, kernBase, devspace, pgSize] at hi ⊢
    omega
  rw [kvmEntry, if_neg hkern, if_neg hdev]

section Kernel

variable {data : Nat} (hdata : data % pgSize = 0) (hlink : kernlink < data)
  (htop : data < kernBase + phystop)
include hdata hlink htop

lemma kmap_valid : ∀ e ∈ kmap data, e.Valid ∧ userTop ≤ e.first := by
  simp only [kmap, List.mem_cons, List.not_mem_nil, or_false]
  rintro e (rfl | rfl | rfl | rfl) <;> refine ⟨⟨?_, ?_, ?_, ?_, ?_, ?_⟩, ?_⟩ <;>
    simp only [Kmap.first, Kmap.size, CInt.toUint, v2p, userTop, kernlink, kernBase, extmem,
      phystop, devspace, pgSize, pteWritable] at * <;> omega

lemma kmap_ranges : (kmap data).map (fun e => (e.first, e.last)) =
    [(0x80000, 0x800FF), (0x80100, data / pgSize - 1), (data / pgSize, 0x8DFFF), (0xFE000, 0xFFFFF)] := by
  simp only [kmap, List.map_cons, List.map_nil, List.cons.injEq, Prod.mk.injEq, and_true]
  refine ⟨⟨?_, ?_⟩, ⟨?_, ?_⟩, ⟨?_, ?_⟩, ?_, ?_⟩ <;>
    simp only [Kmap.first, Kmap.last, Kmap.size, CInt.toUint, v2p, kernlink, kernBase, extmem,
      phystop, devspace, pgSize] at * <;> omega

lemma kmap_sorted : (kmap data).Pairwise fun e e' => e.last < e'.first := by
  apply (List.pairwise_map (R := fun p q : Nat × Nat => p.2 < q.1)
    (f := fun e : Kmap => (e.first, e.last))).mp
  rw [kmap_ranges hdata hlink htop]
  simp only [kernlink, kernBase, extmem, phystop] at hlink htop
  simp only [List.pairwise_cons, List.mem_cons, List.not_mem_nil, or_false, forall_eq_or_imp,
    forall_eq, List.Pairwise.nil, and_true, false_implies, implies_true, pgSize]
  omega

lemma kmapNeed_kmap : kmapNeed (kmap data) ≤ 67 := by
  have h : kmapNeed (kmap data) =
      (((kmap data).map fun e => (e.first, e.last)).map fun p => p.2 / 1024 - p.1 / 1024 + 1).sum := by
    simp only [kmapNeed, List.map_map]
    rfl
  rw [h, kmap_ranges hdata hlink htop]
  simp only [kernlink, kernBase, extmem, phystop] at hlink htop
  simp only [List.map_cons, List.map_nil, List.sum_cons, List.sum_nil, pgSize]
  omega

lemma kmap_slots {e : Kmap} (he : e ∈ kmap data) {d : Nat} (h1 : e.first / 1024 ≤ d)
    (h2 : d ≤ e.last / 1024) : 0x200 ≤ d ∧ d < 0x238 ∨ 0x3F8 ≤ d ∧ d < 0x400 := by
  have hm := List.mem_map_of_mem (f := fun e : Kmap => (e.first, e.last)) he
  rw [kmap_ranges hdata hlink htop] at hm
  simp only [kernlink, kernBase, extmem, phystop] at hlink htop
  simp only [List.mem_cons, Prod.mk.injEq, List.not_mem_nil, or_false, pgSize] at hm
  rcases hm with ⟨h, h'⟩ | ⟨h, h'⟩ | ⟨h, h'⟩ | ⟨h, h'⟩ <;> rw [h] at h1 <;> rw [h'] at h2 <;> omega

lemma kmapEntry_kmap (i : Nat) (hi : i < 2 ^ 20) :
    (kmapEntry (kmap data) i).getD 0 = kvmEntry data i := by
  have h := kmap_ranges hdata hlink htop
  simp only [kmap, List.map_cons, List.map_nil, List.cons.injEq, Prod.mk.injEq, and_true] at h
  obtain ⟨⟨h1, h1'⟩, ⟨h2, h2'⟩, ⟨h3, h3'⟩, h4, h4'⟩ := h
  simp only [kmapEntry, kmap, h1, h1', h2, h2', h3, h3', h4, h4', kvmEntry]
  simp only [v2p, kernlink, kernBase, extmem, phystop, devspace, pteWritable, ptePresent]
  have h21 : (2 ||| 1 : Nat) = 3 := by decide
  simp only [kernlink, kernBase, extmem, phystop, pgSize] at hdata hlink htop
  simp only [pgSize, h21, Nat.reduceAdd, Nat.reduceDiv, Nat.zero_or, Nat.zero_add]
  split_ifs <;> simp only [Option.getD_some, Option.getD_none] <;> omega

theorem setupkvm_spec {kend : Nat} (hk : kernBase < kend) {k : Kmem}
    (hF : ∀ v ∈ k.freelist, Kfreeable kend v) :
    ∃ k' r, setupkvm kend data k = some (k', r) ∧
      (∀ dir pd, r = some (dir, pd) →
        (k'.freelist ++ pd.owned dir).Perm k.freelist ∧ k.freelist.length ≤ k'.freelist.length + 68 ∧
        (∀ i, i < 2 ^ 20 → pd.entry i = kvmEntry data i) ∧
        ∀ d, present (pd.pde d) = true → 0x200 ≤ d ∧ d < 0x238 ∨ 0x3F8 ≤ d ∧ d < 0x400) ∧
      (r = none → k'.freelist.Perm k.freelist) ∧
      (68 ≤ k.freelist.length → r.isSome) := by
  obtain ⟨fl⟩ := k
  rcases fl with _ | ⟨dir, rest⟩
  · exact ⟨⟨[]⟩, none, rfl, by simp, fun _ => .refl _, by simp⟩
  have hdir : Kfreeable kend dir := hF dir List.mem_cons_self
  have hrest : ∀ v ∈ rest ++ Pgdir.empty.tablePages, Kfreeable kend v := by
    rw [Pgdir.tablePages_empty, List.append_nil]
    exact fun v hv => hF v (List.mem_cons_of_mem dir hv)
  obtain ⟨k', pd, ok, heq, hpool, hlow, hpde, hentry, hlen, hneed⟩ :=
    mapKmap_spec hk (kmap data) ⟨rest⟩ .empty userTop (kmap_valid hdata hlink htop)
      (kmap_sorted hdata hlink htop) (fun i _ => by simp [present_zero]) hrest
  rw [Pgdir.tablePages_empty, List.append_nil] at hpool
  have huser : pd.userPages = [] :=
    held_eq_nil fun i _ hi => by simp [Pgdir.userPage, hlow i hi, present_zero]
  have howned : (k'.freelist ++ pd.owned dir).Perm (dir :: rest) := by
    rw [Pgdir.owned, huser, List.nil_append, ← List.append_assoc]
    exact (List.perm_append_singleton _ _).trans (hpool.cons dir)
  have hrun : setupkvm kend data ⟨dir :: rest⟩ =
      if ok then some (k', some (dir, pd)) else (freevm kend k' dir pd).map fun k => (k, none) := by
    simp only [setupkvm, kalloc, if_neg (show ¬devspace < p2v phystop by decide), heq]
    rfl
  cases ok
  · have hfree : freevm kend k' dir pd = some ⟨(pd.owned dir).reverse ++ k'.freelist⟩ :=
      freevm_eq hk fun v hv => hF v (howned.subset (List.mem_append_right _ hv))
    refine ⟨_, none, by rw [hrun, hfree]; rfl, by simp, fun _ => ?_, fun hlen => ?_⟩
    · exact (List.reverse_perm _).append_right _ |>.trans (List.perm_append_comm.trans howned)
    · exact absurd (hneed ((kmapNeed_kmap hdata hlink htop).trans (by simpa using hlen)))
        Bool.false_ne_true
  · refine ⟨k', some (dir, pd), by rw [hrun]; rfl, fun dir' pd' h => ?_, by simp, by simp⟩
    obtain ⟨rfl, rfl⟩ := Prod.mk.inj (Option.some.inj h)
    refine ⟨howned, ?_, fun i hi => ?_, fun d hd => ?_⟩
    · have hrest : rest.length ≤ k'.freelist.length + kmapNeed (kmap data) := hlen
      have := kmapNeed_kmap hdata hlink htop
      simp only [List.length_cons]
      omega
    · rw [hentry rfl i, Pgdir.entry_empty, kmapEntry_kmap hdata hlink htop i hi]
    · rcases hpde d hd with h0 | ⟨e, he, h1, h2⟩
      · simp [Pgdir.empty, present_zero] at h0
      · exact kmap_slots hdata hlink htop he h1 h2

end Kernel

example :
    ∃ k' dir pd, setupkvm 0x80400000 0x80108000 ⟨(List.range 68).map fun j => 0x80400000 + j * pgSize⟩ =
      some (k', some (dir, pd)) ∧
      (k'.freelist ++ pd.owned dir).Perm ((List.range 68).map fun j => 0x80400000 + j * pgSize) := by
  obtain ⟨k', r, heq, hdir, -, hsome⟩ := @setupkvm_spec 0x80108000 (by decide) (by decide) (by decide)
    0x80400000 (by decide) ⟨(List.range 68).map fun j => 0x80400000 + j * pgSize⟩ (by decide)
  obtain ⟨⟨dir, pd⟩, rfl⟩ := Option.isSome_iff_exists.mp (hsome (by simp))
  exact ⟨k', dir, pd, heq, (hdir dir pd rfl).1⟩

end Xv6.Vm
