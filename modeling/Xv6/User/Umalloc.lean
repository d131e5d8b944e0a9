import Xv6.Lib.Blocks
import Xv6.Lib.CInt
import Xv6.Lib.Links
import Xv6.Lib.Run
import Xv6.Param

/-! `umalloc.c`, the free-list allocator, over `sbrk` as `sys_sbrk` and `growproc`
move the end of the process. Memory is a run of `Header`-sized cells and the addresses below count
cells: the process size `sz` in bytes is eight times `brk` (it is page-aligned when a program
starts, and `morecore` only moves it by whole headers). The free list is circular through the
static `base`, whose cell lies below the heap.

The free list is a ring through `base` of the free ranges of an abstract heap (`Blocks.Tidy`), in
address order, each header holding its range's size (`Realizes`). `free` releases a range into the
abstract free list and `malloc` carves one out of it, so that along every run of calls the free
list stays ordered with gaps and every block in use is apart from the others and from the free
list (`Heap`). -/

namespace Xv6.User

open Blocks CInt

structure Header where
  ptr : Nat
  size : Nat
deriving DecidableEq, Repr

structure Umem where
  mem : Nat → Header
  freep : Nat
  brk : Nat

def sbrk (brk : Nat) (n : Int) (grant : Bool) : Option Nat :=
  let sz := 8 * brk
  if 0 < n then
    let newsz := toUint (sz + n)
    if kernBase ≤ newsz then none
    else if newsz < sz then some brk
    else if grant then some (newsz / 8) else none
  else if n < 0 then
    let newsz := toUint (sz + n)
    if sz ≤ newsz then (if sz = 0 then none else some brk)
    else if newsz = 0 then none else some (newsz / 8)
  else some brk

def freeSearch (mem : Nat → Header) (bp : Nat) : Nat → Nat → Option Nat :=
  Links.findFrom (fun p => (mem p).ptr)
    (fun p => (bp > p ∧ bp < (mem p).ptr) ∨ ((mem p).ptr ≤ p ∧ (bp > p ∨ bp < (mem p).ptr)))

def free (s : Umem) (ap : Nat) : Option Umem := do
  let bp := ap - 1
  let p ← freeSearch s.mem bp (s.brk + 2) s.freep
  let q := (s.mem p).ptr
  let mem := if bp + (s.mem bp).size = q then
      Function.update s.mem bp ⟨(s.mem q).ptr, (s.mem bp).size + (s.mem q).size⟩
    else Function.update s.mem bp ⟨q, (s.mem bp).size⟩
  let mem := if p + (mem p).size = bp then
      Function.update mem p ⟨(mem bp).ptr, (mem p).size + (mem bp).size⟩
    else Function.update mem p ⟨bp, (mem p).size⟩
  pure { s with mem := mem, freep := p }

def morecore (s : Umem) (nu : Nat) (grant : Bool) : Option (Nat × Umem) :=
  let nu := if nu < 4096 then 4096 else nu
  match sbrk s.brk (toInt (toUint (nu * 8 : Nat))) grant with
  | none => some (0, s)
  | some brk =>
    let hp := s.brk
    let s := { s with mem := Function.update s.mem hp { s.mem hp with size := nu }, brk := brk }
    (free s (hp + 1)).map fun s => (s.freep, s)

def mallocLoop (nunits : Nat) (grant : Bool) : Nat → Umem → Nat → Option (Nat × Umem)
  | 0, _, _ => none
  | fuel + 1, s, prevp =>
    let p := (s.mem prevp).ptr
    if nunits ≤ (s.mem p).size then
      if (s.mem p).size = nunits then
        some (p + 1, { s with
          mem := Function.update s.mem prevp { s.mem prevp with ptr := (s.mem p).ptr }
          freep := prevp })
      else
        let size := (s.mem p).size - nunits
        let mem := Function.update s.mem p { s.mem p with size := size }
        some (p + size + 1, { s with
          mem := Function.update mem (p + size) { mem (p + size) with size := nunits }
          freep := prevp })
    else if p = s.freep then
      match morecore s nunits grant with
      | none => none
      | some (0, s) => some (0, s)
      | some (p, s) => mallocLoop nunits grant fuel s p
    else mallocLoop nunits grant fuel s p

def malloc (base : Nat) (s : Umem) (nbytes : Nat) (grant : Bool) : Option (Nat × Umem) :=
  let nunits := toUint (nbytes + 8 - 1) / 8 + 1
  let s := if s.freep = 0 then
      { s with mem := Function.update s.mem base ⟨base, 0⟩, freep := base }
    else s
  mallocLoop nunits grant (2 * s.brk + 4) s s.freep

structure Realizes (mem : Nat → Header) (rs : List Block) : Prop where
  ring : Links.IsRing (fun a => (mem a).ptr) (rs.map Prod.fst)
  sizes : ∀ c ∈ rs, (mem c.1).size = c.2

lemma ptr_update (mem : Nat → Header) (a : Nat) (x : Header) :
    (fun b => (Function.update mem a x b).ptr) = Function.update (fun b => (mem b).ptr) a x.ptr :=
  Function.comp_update Header.ptr mem a x

lemma fst_ne_of_nodup {A B : List Block} {v : Block} (hnd : ((A ++ v :: B).map Prod.fst).Nodup) :
    ∀ c ∈ A ++ B, c.1 ≠ v.1 := by
  intro c hc heq
  have hv := (List.nodup_cons.mp ((List.perm_middle.map Prod.fst).nodup_iff.mp hnd)).1
  exact hv (List.mem_map.mpr ⟨c, hc, heq⟩)

section
variable {mem : Nat → Header}

lemma Realizes.insert {A B : List Block} {v n : Block} (h : Realizes mem (A ++ v :: B))
    (hnd : ((A ++ v :: B).map Prod.fst).Nodup) (hn : n.1 ∉ (A ++ v :: B).map Prod.fst) :
    Realizes (Function.update (Function.update mem n.1 ⟨(mem v.1).ptr, n.2⟩) v.1 ⟨n.1, v.2⟩)
      (A ++ v :: n :: B) := by
  have hnv : n.1 ≠ v.1 := fun h => hn (by simp [h])
  constructor
  · have hr := h.ring
    rw [ptr_update, ptr_update]
    simp only [List.map_append, List.map_cons] at hr hnd hn ⊢
    exact hr.insert hnd hn
  · intro c hc
    rw [List.mem_append, List.mem_cons, List.mem_cons] at hc
    rcases hc with hc | rfl | rfl | hc
    · have hcv := fst_ne_of_nodup hnd c (List.mem_append_left _ hc)
      have hcn : c.1 ≠ n.1 := fun h => hn (List.mem_map.mpr ⟨c, by simp [hc], h⟩)
      rw [Function.update_of_ne hcv, Function.update_of_ne hcn]
      exact h.sizes c (by simp [hc])
    · rw [Function.update_self]
    · rw [Function.update_of_ne hnv, Function.update_self]
    · have hcv := fst_ne_of_nodup hnd c (List.mem_append_right _ hc)
      have hcn : c.1 ≠ n.1 := fun h => hn (List.mem_map.mpr ⟨c, by simp [hc], h⟩)
      rw [Function.update_of_ne hcv, Function.update_of_ne hcn]
      exact h.sizes c (by simp [hc])

lemma Realizes.unlink {A B : List Block} {v w : Block} (h : Realizes mem (A ++ v :: w :: B))
    (hnd : ((A ++ v :: w :: B).map Prod.fst).Nodup) (k : Nat) :
    Realizes (Function.update mem v.1 ⟨(mem w.1).ptr, k⟩) (A ++ (v.1, k) :: B) := by
  constructor
  · have hr := h.ring
    rw [ptr_update]
    simp only [List.map_append, List.map_cons] at hr hnd ⊢
    exact hr.remove hnd
  · intro c hc
    rw [List.mem_append, List.mem_cons] at hc
    rcases hc with hc | rfl | hc
    · rw [Function.update_of_ne (fst_ne_of_nodup hnd c (List.mem_append_left _ hc))]
      exact h.sizes c (by simp [hc])
    · rw [Function.update_self]
    · rw [Function.update_of_ne (fst_ne_of_nodup hnd c (by simp [hc]))]
      exact h.sizes c (by simp [hc])

lemma Realizes.resize {A B : List Block} {v : Block} (h : Realizes mem (A ++ v :: B))
    (hnd : ((A ++ v :: B).map Prod.fst).Nodup) (k : Nat) :
    Realizes (Function.update mem v.1 ⟨(mem v.1).ptr, k⟩) (A ++ (v.1, k) :: B) := by
  constructor
  · have hr := h.ring
    rw [ptr_update, Function.update_eq_self]
    simpa using hr
  · intro c hc
    rw [List.mem_append, List.mem_cons] at hc
    rcases hc with hc | rfl | hc
    · rw [Function.update_of_ne (fst_ne_of_nodup hnd c (List.mem_append_left _ hc))]
      exact h.sizes c (by simp [hc])
    · rw [Function.update_self]
    · rw [Function.update_of_ne (fst_ne_of_nodup hnd c (List.mem_append_right _ hc))]
      exact h.sizes c (by simp [hc])

lemma Realizes.update_of_not_mem {rs : List Block} (h : Realizes mem rs) {a : Nat}
    (ha : a ∉ rs.map Prod.fst) (x : Header) : Realizes (Function.update mem a x) rs := by
  constructor
  · refine h.ring.congr fun w hw => ?_
    have hwa : w ≠ a := by
      rintro rfl
      exact ha hw
    rw [Function.update_of_ne hwa]
  · intro c hc
    rw [Function.update_of_ne (fun h => ha (List.mem_map.mpr ⟨c, hc, h⟩))]
    exact h.sizes c hc

lemma Realizes.free_front {A U : List Block} {p c : Block} {q : Nat}
    (h : Realizes mem (A ++ p :: U)) (hnd : ((A ++ p :: U).map Prod.fst).Nodup)
    (hc : c.1 ∉ (A ++ p :: U).map Prod.fst) (hsize : (mem c.1).size = c.2) (hq : (mem p.1).ptr = q)
    (hmerge : c.1 + c.2 = q ↔ ∃ u U', U = u :: U' ∧ c.1 + c.2 = u.1) :
    Realizes (Function.update
      (if c.1 + (mem c.1).size = q then
        Function.update mem c.1 ⟨(mem q).ptr, (mem c.1).size + (mem q).size⟩
      else Function.update mem c.1 ⟨q, (mem c.1).size⟩) p.1 ⟨c.1, p.2⟩) (A ++ p :: joinFront c U) := by
  have hins := h.insert hnd hc
  rw [hsize, ← hq]
  by_cases hm : c.1 + c.2 = q
  · obtain ⟨u, U', rfl, hu⟩ := hmerge.mp hm
    have hnd' : ((A ++ p :: c :: u :: U').map Prod.fst).Nodup := by
      have hperm := (@List.perm_middle _ c (A ++ [p]) (u :: U')).map Prod.fst
      have := hperm.nodup_iff.mpr (List.nodup_cons.mpr ⟨by simpa using hc, by simpa using hnd⟩)
      simpa using this
    have hun := @Realizes.unlink _ (A ++ [p]) U' c u (by simpa using hins) (by simpa using hnd')
      (c.2 + u.2)
    have hqu : q = u.1 := hm.symm.trans hu
    subst hqu
    have hpc : p.1 ≠ c.1 := fun h => hc (by simp [h])
    have huc : u.1 ≠ c.1 := fun h => hc (by simp [← h])
    have hup : u.1 ≠ p.1 := fst_ne_of_nodup hnd u (by simp)
    rw [if_pos (by rw [hq]; exact hm), hq, h.sizes u (by simp), joinFront, if_pos hu]
    convert hun using 1
    · rw [Function.update_of_ne hup, Function.update_of_ne huc, Function.update_comm hpc,
        Function.update_idem]
    · simp [join]
  · rw [if_neg (by rw [hq]; exact hm)]
    have hfront : joinFront c U = c :: U := by
      cases U with
      | nil => rfl
      | cons u U' =>
        rw [joinFront, if_neg fun hu => hm (hmerge.mpr ⟨u, U', rfl, hu⟩)]
    rw [hfront]
    exact hins

lemma link_other (a b : Nat) {d : Nat} (hd : d ≠ a) :
    (if a + (mem a).size = b then Function.update mem a ⟨(mem b).ptr, (mem a).size + (mem b).size⟩
      else Function.update mem a ⟨b, (mem a).size⟩) d = mem d := by
  split_ifs <;> exact Function.update_of_ne hd _ _

lemma Realizes.free_back {A X : List Block} {p x : Block}
    (h : Realizes (Function.update mem p.1 ⟨x.1, p.2⟩) (A ++ p :: x :: X))
    (hnd : ((A ++ p :: x :: X).map Prod.fst).Nodup) (hp : (mem p.1).size = p.2) :
    Realizes (if p.1 + (mem p.1).size = x.1 then
        Function.update mem p.1 ⟨(mem x.1).ptr, (mem p.1).size + (mem x.1).size⟩
      else Function.update mem p.1 ⟨x.1, (mem p.1).size⟩) (joinBack (A ++ [p]) (x :: X)) := by
  have hxp : x.1 ≠ p.1 := fst_ne_of_nodup hnd x (by simp)
  have hx : (mem x.1).size = x.2 := by
    have := h.sizes x (by simp)
    rwa [Function.update_of_ne hxp] at this
  rw [joinBack_concat, hp, hx]
  by_cases hpx : p.1 + p.2 = x.1
  · rw [if_pos hpx, joinBack, if_pos hpx]
    have hun := h.unlink hnd (p.2 + x.2)
    rw [Function.update_idem, Function.update_of_ne hxp] at hun
    exact hun
  · rw [if_neg hpx, joinBack, if_neg hpx]
    exact h

end

section
variable (base heapStart : Nat)

structure Shape (s : Umem) (live : List Nat) (fl used : List Block) : Prop where
  ring : Realizes s.mem ((base, 0) :: fl)
  freep : s.freep ∈ base :: fl.map Prod.fst
  sizes : ∀ c ∈ used, (s.mem c.1).size = c.2
  live_eq : live = used.map (·.1 + 1)
  start_le : heapStart ≤ s.brk
  below : 8 * s.brk < kernBase
  tidy : Tidy heapStart s.brk fl used

def Heap (s : Umem) (live : List Nat) : Prop :=
  (s.freep = 0 ∧ live = [] ∧ heapStart ≤ s.brk ∧ 8 * s.brk < kernBase) ∨
    ∃ fl used, Shape base heapStart s live fl used

end

section
variable {base heapStart : Nat} {s : Umem} {live : List Nat} {fl used : List Block}

lemma Shape.starts_sorted (hbase : base < heapStart) (h : Shape base heapStart s live fl used) :
    (base :: fl.map Prod.fst).Pairwise (· < ·) := by
  refine List.pairwise_cons.mpr ⟨fun e he => ?_, pairwise_lt_of_below h.tidy.sorted⟩
  obtain ⟨d, hd, rfl⟩ := List.mem_map.mp he
  exact lt_of_lt_of_le hbase (h.tidy.inside d (List.mem_append_left _ hd)).1

lemma Shape.length_le (hbase : base < heapStart) (h : Shape base heapStart s live fl used) :
    (base :: fl.map Prod.fst).length ≤ s.brk := by
  have hlt : ∀ e ∈ base :: fl.map Prod.fst, 0 ≤ e ∧ e < s.brk := by
    intro e he
    rcases List.mem_cons.mp he with rfl | he
    · exact ⟨Nat.zero_le _, lt_of_lt_of_le hbase h.start_le⟩
    · obtain ⟨d, hd, rfl⟩ := List.mem_map.mp he
      have hin := h.tidy.inside d (List.mem_append_left _ hd)
      have hpos := h.tidy.pos d (List.mem_append_left _ hd)
      exact ⟨Nat.zero_le _, by omega⟩
  simpa using length_le_of_sorted (h.starts_sorted hbase) hlt

lemma Shape.fst_ne_free (hbase : base < heapStart) (h : Shape base heapStart s live fl used)
    {c : Block} (hc : c ∈ used) : ∀ d ∈ (base, 0) :: fl, d.1 ≠ c.1 := by
  intro d hd
  have hc0 := h.tidy.pos c (List.mem_append_right _ hc)
  rcases List.mem_cons.mp hd with rfl | hd
  · have := (h.tidy.inside c (List.mem_append_right _ hc)).1
    simp only
    omega
  · exact ((List.pairwise_append.mp h.tidy.apart).2.2 d hd c hc).fst_ne
      (h.tidy.pos d (List.mem_append_left _ hd)) hc0

lemma Shape.fst_ne_of_mem_erase (h : Shape base heapStart s live fl used) {c d : Block}
    (hc : c ∈ used) (hd : d ∈ used.erase c) : d.1 ≠ c.1 := by
  have hdu := List.mem_of_mem_erase hd
  exact ((apart_of_mem_erase (List.pairwise_append.mp h.tidy.apart).2.1 hc hd).fst_ne
    (h.tidy.pos c (List.mem_append_right _ hc)) (h.tidy.pos d (List.mem_append_right _ hdu))).symm

lemma Shape.lt_of_mem_below (hbase : base < heapStart) (h : Shape base heapStart s live fl used)
    {c : Block} (hc : c ∈ used) : ∀ d ∈ (base, 0) :: fl.takeWhile (·.1 < c.1), d.1 < c.1 := by
  intro d hd
  rcases List.mem_cons.mp hd with rfl | hd
  · have := (h.tidy.inside c (List.mem_append_right _ hc)).1
    simp only
    omega
  · simpa using List.mem_takeWhile_imp hd

lemma Shape.freeSearch_eq (hbase : base < heapStart) (h : Shape base heapStart s live fl used)
    {c : Block} (hc : c ∈ used) {A : List Block} {p : Block}
    (hA : (base, 0) :: fl.takeWhile (·.1 < c.1) = A ++ [p]) :
    freeSearch s.mem c.1 (s.brk + 2) s.freep = some p.1 := by
  have hs := h.starts_sorted hbase
  have hring : Links.IsRing (fun a => (s.mem a).ptr) (base :: fl.map Prod.fst) := h.ring.ring
  have hcin := h.tidy.inside c (List.mem_append_right _ hc)
  have hc0 := h.tidy.pos c (List.mem_append_right _ hc)
  have hbelow : ∀ e ∈ (A ++ [p]).map Prod.fst, e < c.1 := by
    rw [← hA]
    intro e he
    obtain ⟨d, hd, rfl⟩ := List.mem_map.mp he
    exact h.lt_of_mem_below hbase hc d hd
  have habove := (h.tidy.split_at hc).2
  have hsplit : base :: fl.map Prod.fst =
      (A ++ [p]).map Prod.fst ++ (fl.dropWhile (·.1 < c.1)).map Prod.fst := by
    rw [← hA, List.map_cons, List.cons_append, ← List.map_append, List.takeWhile_append_dropWhile]
  have hsortedA : ((A ++ [p]).map Prod.fst).Pairwise (· < ·) := by
    rw [← hA, List.map_cons]
    exact hs.sublist (((List.takeWhile_prefix _).sublist.map Prod.fst).cons_cons base)
  have hnot : c.1 ∉ base :: fl.map Prod.fst := by
    rw [hsplit, List.mem_append]
    rintro (he | he)
    · exact lt_irrefl _ (hbelow _ he)
    · obtain ⟨u, hu, hu1⟩ := List.mem_map.mp he
      have := habove u hu
      omega
  have hmax : ∀ e ∈ base :: fl.map Prod.fst, e < c.1 → e ≤ p.1 := by
    intro e he hec
    rw [hsplit, List.mem_append] at he
    rcases he with he | he
    · exact le_last_of_sorted (by simpa using hsortedA) (by simpa using he)
    · obtain ⟨u, hu, rfl⟩ := List.mem_map.mp he
      have := habove u hu
      omega
  have hmin : ∀ e ∈ base :: fl.map Prod.fst, base ≤ e := by
    intro e he
    rcases List.mem_cons.mp he with rfl | he
    · exact le_refl _
    · exact le_of_lt (List.rel_of_pairwise_cons hs he)
  have hpl : p.1 ∈ base :: fl.map Prod.fst := by
    rw [hsplit]
    simp
  have hpc : p.1 < c.1 := hbelow p.1 (by simp)
  have hP : ∀ w ∈ base :: fl.map Prod.fst, ((c.1 > w ∧ c.1 < (s.mem w).ptr) ∨
      ((s.mem w).ptr ≤ w ∧ (c.1 > w ∨ c.1 < (s.mem w).ptr))) ↔ w = p.1 := by
    intro w hw
    have hnext := hring.next_mem w hw
    rcases hring.next_cases (hs.imp Nat.ne_of_lt) hw with ⟨A', B', hAB⟩ | ⟨A', hAB, hlast⟩
    · have hs' := hs
      rw [hAB] at hs'
      obtain ⟨hup, hleast⟩ := sorted_next hs'
      rw [← hAB] at hleast
      constructor
      · rintro (⟨h1, h2⟩ | ⟨h1, -⟩)
        · by_contra hne
          have := hleast p.1 hpl (lt_of_le_of_ne (hmax w hw h1) hne)
          omega
        · omega
      · rintro rfl
        refine .inl ⟨hpc, ?_⟩
        by_contra hle
        have hne : (s.mem p.1).ptr ≠ c.1 := fun he => hnot (he ▸ hnext)
        have := hmax _ hnext (by omega)
        omega
    · have hs' := hs
      rw [hAB] at hs'
      have hwmax : ∀ e ∈ base :: fl.map Prod.fst, e ≤ w := by
        rw [hAB]
        exact fun e he => le_last_of_sorted hs' he
      rw [hlast]
      constructor
      · rintro (⟨-, h2⟩ | ⟨-, h1 | h1⟩)
        · omega
        · exact le_antisymm (hmax w hw h1) (hwmax p.1 hpl)
        · omega
      · rintro rfl
        exact .inr ⟨hmin _ hw, .inl hpc⟩
  unfold freeSearch
  exact Links.findFrom_ring hring h.freep hpl hP (by have := h.length_le hbase; omega)

lemma erase_map_succ {c : Block} : ∀ {used : List Block}, c ∈ used →
    (∀ d ∈ used, d ≠ c → d.1 ≠ c.1) →
    (used.map (·.1 + 1)).erase (c.1 + 1) = (used.erase c).map (·.1 + 1)
  | d :: used, hc, hne => by
    by_cases hdc : d = c
    · subst hdc
      simp
    · have hd1 : d.1 + 1 ≠ c.1 + 1 := by
        have := hne d List.mem_cons_self hdc
        omega
      have hc' : c ∈ used := (List.mem_cons.mp hc).resolve_left (Ne.symm hdc)
      rw [List.map_cons, List.erase_cons_tail (by simpa using hd1),
        List.erase_cons_tail (by simpa using hdc), List.map_cons,
        erase_map_succ hc' fun e he => hne e (List.mem_cons_of_mem d he)]

theorem Shape.free (hbase : base < heapStart) (h : Shape base heapStart s live fl used)
    {c : Block} (hc : c ∈ used) :
    ∃ s', free s (c.1 + 1) = some s' ∧
      Shape base heapStart s' (live.erase (c.1 + 1)) (release c fl) (used.erase c) := by
  obtain ⟨A, p, hA⟩ : ∃ A p, (base, 0) :: fl.takeWhile (·.1 < c.1) = A ++ [p] := by
    rcases List.eq_nil_or_concat ((base, 0) :: fl.takeWhile (·.1 < c.1)) with hn | ⟨A, p, hAp⟩
    · exact absurd hn (List.cons_ne_nil _ _)
    · exact ⟨A, p, by rw [hAp, List.concat_eq_append]⟩
  have hsearch := h.freeSearch_eq hbase hc hA
  obtain ⟨U, hU⟩ : ∃ U, fl.dropWhile (·.1 < c.1) = U := ⟨_, rfl⟩
  have hsplit : (base, 0) :: fl = A ++ p :: U := by
    rw [List.append_cons A p U, ← hA, ← hU, List.cons_append, List.takeWhile_append_dropWhile]
  have habove : ∀ u ∈ U, c.1 + c.2 ≤ u.1 := hU ▸ (h.tidy.split_at hc).2
  have hbelow : ∀ d ∈ A ++ [p], d.1 < c.1 := hA ▸ h.lt_of_mem_below hbase hc
  have hcfree := h.fst_ne_free hbase hc
  have hs := h.starts_sorted hbase
  have hpmem : p ∈ (base, 0) :: fl := by
    rw [hsplit]
    simp
  have hnd : ((A ++ p :: U).map Prod.fst).Nodup := by
    rw [← hsplit]
    exact hs.imp Nat.ne_of_lt
  have hR : Realizes s.mem (A ++ p :: U) := hsplit ▸ h.ring
  have hcA : c.1 ∉ (A ++ p :: U).map Prod.fst := by
    rw [← hsplit]
    intro hmem
    obtain ⟨d, hd, hdc⟩ := List.mem_map.mp hmem
    exact hcfree d hd hdc
  have hpc : p.1 ≠ c.1 := hcfree p hpmem
  have hmerge : c.1 + c.2 = (s.mem p.1).ptr ↔ ∃ u U', U = u :: U' ∧ c.1 + c.2 = u.1 := by
    rcases U with _ | ⟨u, U'⟩
    · have hnext := hR.ring.next_mem p.1 (by simp)
      have hs' : ((A ++ [p]).map Prod.fst).Pairwise (· < ·) := by
        rw [← hsplit]
        exact hs
      simp only [List.map_append, List.map_cons, List.map_nil] at hs' hnext
      have hle := le_last_of_sorted hs' hnext
      have := hbelow p (by simp)
      constructor
      · intro he
        omega
      · rintro ⟨u, U', hUU, -⟩
        cases hUU
    · have hnext : (s.mem p.1).ptr = u.1 := by
        have hr := hR.ring
        simp only [List.map_append, List.map_cons] at hr
        exact hr.next_of_cons
      rw [hnext]
      constructor
      · exact fun he => ⟨u, U', rfl, he⟩
      · rintro ⟨u', U'', hUU, he⟩
        cases hUU
        exact he
  have h1 := hR.free_front hnd hcA (h.sizes c hc) rfl hmerge
  obtain ⟨⟨x1, x2⟩, X, hxX, hx1, -, -⟩ := joinFront_eq_cons c U
  simp only at hx1
  subst hx1
  rw [hxX] at h1
  have hnd2 : ((A ++ p :: (c.1, x2) :: X).map Prod.fst).Nodup := by
    have hfront : (joinFront c U).Pairwise Below :=
      pairwise_joinFront (hU ▸ h.tidy.sorted.sublist (List.dropWhile_suffix _).sublist) habove
    have hlow : ((A ++ [p]).map Prod.fst).Pairwise (· < ·) := by
      rw [← hA]
      exact hs.sublist (((List.takeWhile_prefix _).sublist.map Prod.fst).cons_cons base)
    have hcross : ∀ a ∈ (A ++ [p]).map Prod.fst, ∀ b ∈ ((c.1, x2) :: X).map Prod.fst, a < b := by
      intro a ha b hb
      obtain ⟨d, hd, rfl⟩ := List.mem_map.mp ha
      obtain ⟨y, hy, rfl⟩ := List.mem_map.mp hb
      have hdc := hbelow d hd
      rw [← hxX] at hy
      rcases mem_joinFront hy with rfl | hy | ⟨u, -, -, rfl⟩
      · exact hdc
      · have := habove y hy
        omega
      · exact hdc
    have := List.pairwise_append.mpr ⟨hlow, pairwise_lt_of_below (hxX ▸ hfront), hcross⟩
    rw [← List.map_append, List.append_assoc, List.singleton_append] at this
    exact this.imp Nat.ne_of_lt
  have hpsize := h.ring.sizes p hpmem
  have h2 := h1.free_back hnd2 (by rw [link_other _ _ hpc]; exact hpsize)
  have hlist : (base, 0) :: release c fl = joinBack (A ++ [p]) ((c.1, x2) :: X) := by
    have hb : ∀ y ∈ (joinFront c U).head?, base + 0 ≠ y.1 := by
      rw [hxX]
      intro y hy
      simp only [List.head?_cons, Option.mem_def, Option.some.injEq] at hy
      subst hy
      simpa using hcfree (base, 0) List.mem_cons_self
    rw [Blocks.release, hU, ← joinBack_cons (base, 0) _ hb, hA, hxX]
  simp only [Xv6.User.free, Nat.add_sub_cancel, hsearch, Option.bind_eq_bind, Option.bind_some,
    Option.pure_def, Option.some.injEq, exists_eq_left']
  refine ⟨hlist ▸ h2, ?_, ?_, ?_, h.start_le, h.below, h.tidy.release hc⟩
  · have hmem : p.1 ∈ ((base, 0) :: release c fl).map Prod.fst := by
      rw [hlist, joinBack_concat]
      obtain ⟨p', hp', hp1⟩ := mem_joinBack_singleton p ((c.1, x2) :: X)
      exact List.mem_map.mpr ⟨p', List.mem_append_right _ hp', hp1⟩
    exact hmem
  · intro d hd
    have hdu := List.mem_of_mem_erase hd
    have hdp : d.1 ≠ p.1 := (h.fst_ne_free hbase hdu p hpmem).symm
    dsimp only
    rw [link_other _ _ hdp, link_other _ _ (h.fst_ne_of_mem_erase hc hd)]
    exact h.sizes d hdu
  · rw [h.live_eq]
    exact erase_map_succ hc fun d hd hdc =>
      h.fst_ne_of_mem_erase hc ((List.mem_erase_of_ne hdc).mpr hd)

end

lemma sbrk_grow {brk k : Nat} (hb : 8 * brk < kernBase) (hk : 0 < k) (hk8 : k * 8 < 2147483648)
    (grant : Bool) :
    sbrk brk (toInt (toUint (k * 8 : Nat))) grant =
      if 8 * (brk + k) < kernBase ∧ grant = true then some (brk + k) else none := by
  have hu : toUint (k * 8 : Nat) = k * 8 := by
    rw [toUint_of_range (by omega) (by omega)]
    omega
  rw [hu, toInt_of_lt hk8]
  have hsum : toUint ((8 * brk : Nat) + ((k * 8 : Nat) : Int)) = 8 * (brk + k) := by
    rw [toUint_of_range (by omega) (by unfold kernBase at hb; omega)]
    omega
  unfold sbrk
  simp only [Nat.cast_mul, Nat.cast_ofNat] at hsum ⊢
  rw [hsum, if_pos (by omega), if_neg (show ¬ 8 * (brk + k) < 8 * brk by omega),
    Nat.mul_div_cancel_left _ (by norm_num : 0 < 8)]
  by_cases hlt : 8 * (brk + k) < kernBase
  · rw [if_neg (not_le.mpr hlt)]
    cases grant <;> simp [hlt]
  · rw [if_pos (not_lt.mp hlt), if_neg (fun h => hlt h.1)]

lemma mallocLoop_path {nunits : Nat} {grant : Bool} {s : Umem} {x z : Nat} {l : List Nat}
    (h : Links.Path (fun a => (s.mem a).ptr) x l z)
    (hskip : ∀ w ∈ l, (s.mem w).size < nunits ∧ w ≠ s.freep) (fuel : Nat) :
    mallocLoop nunits grant (fuel + l.length) s x = mallocLoop nunits grant fuel s z := by
  induction h with
  | nil x => rfl
  | @cons x y z l hxy _ ih =>
    obtain ⟨hsmall, hne⟩ := hskip y List.mem_cons_self
    rw [List.length_cons, ← Nat.add_assoc, mallocLoop]
    rw [hxy, if_neg (by omega), if_neg hne]
    exact ih fun w hw => hskip w (List.mem_cons_of_mem y hw)

lemma split_of_map_fst {L : List Block} {A' B' : List Nat} {u w : Nat}
    (h : L.map Prod.fst = A' ++ u :: w :: B') :
    ∃ A v c B, L = A ++ v :: c :: B ∧ v.1 = u ∧ c.1 = w := by
  obtain ⟨A, R, rfl, -, hR⟩ := List.map_eq_append_iff.mp h
  obtain ⟨v, R', rfl, hv, hR'⟩ := List.map_eq_cons_iff.mp hR
  obtain ⟨c, B, rfl, hc, -⟩ := List.map_eq_cons_iff.mp hR'
  exact ⟨A, v, c, B, rfl, hv, hc⟩

section
variable {base heapStart : Nat} {s : Umem} {live : List Nat} {fl used : List Block}

lemma Shape.fst_ne_inside (hbase : base < heapStart) (h : Shape base heapStart s live fl used)
    {c : Block} (hc : c ∈ fl) {a : Nat} (ha : c.1 < a) (ha' : a < c.1 + c.2) :
    ∀ d ∈ (base, 0) :: (fl ++ used), d.1 ≠ a := by
  intro d hd
  rcases List.mem_cons.mp hd with rfl | hd
  · have := (h.tidy.inside c (List.mem_append_left _ hc)).1
    simp only
    omega
  · by_cases hdc : d = c
    · subst hdc
      omega
    · have hap := h.tidy.apart_of_ne hd (List.mem_append_left _ hc) hdc
      have := h.tidy.pos d hd
      unfold Apart at hap
      omega

lemma Shape.mallocLoop_take (hbase : base < heapStart) (h : Shape base heapStart s live fl used)
    {nunits : Nat} (hn : 0 < nunits) {u : Nat} (hu : u ∈ base :: fl.map Prod.fst)
    (hfit : nunits ≤ (s.mem (s.mem u).ptr).size) (grant : Bool) (fuel : Nat) :
    ∃ r s' fl', mallocLoop nunits grant (fuel + 1) s u = some (r, s') ∧
      Shape base heapStart s' (r :: live) fl' ((r - 1, nunits) :: used) := by
  have hring : Links.IsRing (fun a => (s.mem a).ptr) (base :: fl.map Prod.fst) := h.ring.ring
  have hwb : (s.mem u).ptr ≠ base := by
    intro he
    rw [he, h.ring.sizes (base, 0) List.mem_cons_self] at hfit
    omega
  obtain ⟨A', B', hAB⟩ := hring.exists_split_next hu hwb
  obtain ⟨A, v, c, B, hsplit, rfl, hcw⟩ := split_of_map_fst (L := (base, 0) :: fl) hAB
  have hnd2 : (((A ++ [v]) ++ c :: B).map Prod.fst).Nodup := by
    rw [List.append_assoc, List.singleton_append, ← hsplit]
    exact (h.starts_sorted hbase).imp Nat.ne_of_lt
  have hvmem : v ∈ (base, 0) :: fl := by
    rw [hsplit]
    simp
  have hcfl : c ∈ fl := by
    have hc : c ∈ (base, 0) :: fl := by
      rw [hsplit]
      simp
    rcases List.mem_cons.mp hc with rfl | hc
    · exact absurd hcw.symm hwb
    · exact hc
  have hvc : v.1 ≠ c.1 := fst_ne_of_nodup hnd2 v (by simp)
  have hcsize : (s.mem c.1).size = c.2 := h.ring.sizes c (List.mem_cons_of_mem _ hcfl)
  rw [← hcw, hcsize] at hfit
  have hcarve : (base, 0) :: carve c nunits fl =
      A ++ v :: (if c.2 = nunits then B else (c.1, c.2 - nunits) :: B) := by
    have hc0 : (base, 0) ≠ c := fun he => hwb (by rw [← hcw, ← he])
    have hcA : c ∉ A ++ [v] := fun hc => fst_ne_of_nodup hnd2 c (List.mem_append_left _ hc) rfl
    have : carve c nunits ((base, 0) :: fl) = (base, 0) :: carve c nunits fl := by
      simp only [carve, if_neg hc0]
    rw [← this, hsplit, List.append_cons A v (c :: B), carve_split hcA, List.append_assoc,
      List.singleton_append]
  have hR : Realizes s.mem (A ++ v :: c :: B) := hsplit ▸ h.ring
  have hvfree : v.1 ∈ base :: (carve c nunits fl).map Prod.fst := by
    have : v ∈ (base, 0) :: carve c nunits fl := by
      rw [hcarve]
      simp
    exact List.mem_map_of_mem this
  have hused : ∀ d ∈ used, d.1 ≠ v.1 := fun d hd => (h.fst_ne_free hbase hd v hvmem).symm
  rw [mallocLoop]
  simp only [← hcw, hcsize]
  rw [if_pos hfit]
  by_cases hexact : c.2 = nunits
  · rw [if_pos hexact, h.ring.sizes v hvmem]
    refine ⟨_, _, carve c nunits fl, rfl, ?_, hvfree, ?_, ?_, h.start_le, h.below, ?_⟩
    · rw [hcarve, if_pos hexact]
      exact hR.unlink (by simpa using hnd2) v.2
    · intro d hd
      rcases List.mem_cons.mp hd with rfl | hd
      · simp only [Nat.add_sub_cancel]
        rw [Function.update_of_ne hvc.symm, hcsize, hexact]
      · dsimp only
        rw [Function.update_of_ne (hused d hd)]
        exact h.sizes d hd
    · simp [h.live_eq]
    · simpa [hexact] using h.tidy.carve hcfl hn hfit
  · rw [if_neg hexact]
    refine ⟨_, _, carve c nunits fl, rfl, ?_, hvfree, ?_, ?_, h.start_le, h.below, ?_⟩
    · have hk : 0 < c.2 - nunits := by omega
      have hin := h.fst_ne_inside hbase hcfl (a := c.1 + (c.2 - nunits)) (by omega) (by omega)
      have hnot : c.1 + (c.2 - nunits) ∉ (A ++ v :: (c.1, c.2 - nunits) :: B).map Prod.fst := by
        intro hmem
        obtain ⟨d, hd, hdeq⟩ := List.mem_map.mp hmem
        have hd' : d = (c.1, c.2 - nunits) ∨ d ∈ (base, 0) :: fl := by
          rw [hsplit]
          simp only [List.mem_append, List.mem_cons] at hd ⊢
          tauto
        rcases hd' with rfl | hd'
        · simp only at hdeq
          omega
        · exact hin d (List.mem_cons.mpr ((List.mem_cons.mp hd').imp id (List.mem_append_left _)))
            hdeq
      have hR2 : Realizes s.mem ((A ++ [v]) ++ c :: B) := by
        rw [List.append_assoc, List.singleton_append]
        exact hR
      have hres := hR2.resize hnd2 (c.2 - nunits)
      rw [List.append_assoc, List.singleton_append] at hres
      rw [hcarve, if_neg hexact]
      exact hres.update_of_not_mem hnot _
    · intro d hd
      rcases List.mem_cons.mp hd with rfl | hd
      · simp only [Nat.add_sub_cancel]
        rw [Function.update_self]
      · have hdc : d.1 ≠ c.1 := (h.fst_ne_free hbase hd c (List.mem_cons_of_mem _ hcfl)).symm
        have hin := h.fst_ne_inside hbase hcfl (a := c.1 + (c.2 - nunits)) (by omega) (by omega) d
          (List.mem_cons_of_mem _ (List.mem_append_right _ hd))
        dsimp only
        rw [Function.update_of_ne hin, Function.update_of_ne hdc]
        exact h.sizes d hd
    · simp [h.live_eq]
    · simpa using h.tidy.carve hcfl hn hfit

lemma Shape.morecore (hbase : base < heapStart) (h : Shape base heapStart s live fl used)
    {nunits : Nat} (hn : nunits < 268435456) (grant : Bool) :
    morecore s nunits grant = some (0, s) ∨
      ∃ s' fl', morecore s nunits grant = some (s'.freep, s') ∧
        Shape base heapStart s' live fl' used ∧ (∃ c ∈ fl', nunits ≤ c.2) ∧
        fl'.length ≤ fl.length + 1 := by
  obtain ⟨nu, hnu, hnu0, hnun, hnu8⟩ : ∃ nu, (if nunits < 4096 then 4096 else nunits) = nu ∧
      0 < nu ∧ nunits ≤ nu ∧ nu * 8 < 2147483648 := by
    refine ⟨_, rfl, ?_⟩
    split_ifs <;> omega
  simp only [Xv6.User.morecore, hnu]
  rw [sbrk_grow h.below hnu0 hnu8]
  by_cases hok : 8 * (s.brk + nu) < kernBase ∧ grant = true
  · rw [if_pos hok]
    dsimp only
    right
    have hstarts : ∀ d ∈ (base, 0) :: (fl ++ used), d.1 < s.brk := by
      intro d hd
      rcases List.mem_cons.mp hd with rfl | hd
      · exact lt_of_lt_of_le hbase h.start_le
      · have := h.tidy.inside d hd
        have := h.tidy.pos d hd
        omega
    have h1 : Shape base heapStart
        { s with mem := Function.update s.mem s.brk ⟨(s.mem s.brk).ptr, nu⟩, brk := s.brk + nu }
        ((s.brk + 1) :: live) fl ((s.brk, nu) :: used) := by
      refine ⟨h.ring.update_of_not_mem ?_ _, h.freep, ?_, by rw [h.live_eq]; rfl,
        le_trans h.start_le (Nat.le_add_right _ _), hok.1, h.tidy.grow h.start_le hnu0⟩
      · intro hmem
        obtain ⟨d, hd, hdb⟩ := List.mem_map.mp hmem
        have := hstarts d ((List.mem_cons.mp hd).imp id (List.mem_append_left _) |> List.mem_cons.mpr)
        omega
      · intro d hd
        rcases List.mem_cons.mp hd with rfl | hd
        · dsimp only
          rw [Function.update_self]
        · have := hstarts d (List.mem_cons_of_mem _ (List.mem_append_right _ hd))
          dsimp only
          rw [Function.update_of_ne (by omega)]
          exact h.sizes d hd
    obtain ⟨s2, hfree, h2⟩ := h1.free hbase (c := (s.brk, nu)) List.mem_cons_self
    dsimp only at hfree
    simp only [List.erase_cons_head] at h2
    obtain ⟨hfit, hlen⟩ := release_spec (s.brk, nu) fl
    obtain ⟨c, hc, hcnu⟩ := hfit
    exact ⟨s2, _, by rw [hfree]; rfl, h2, ⟨c, hc, le_trans hnun hcnu⟩, hlen⟩
  · rw [if_neg hok]
    left
    rfl

lemma Shape.mallocLoop_walk (hbase : base < heapStart) (h : Shape base heapStart s live fl used)
    {nunits : Nat} (hn : 0 < nunits) (grant : Bool) {fuel : Nat} (hf : fl.length + 1 ≤ fuel) :
    (∃ r s' fl', mallocLoop nunits grant fuel s s.freep = some (r, s') ∧
      Shape base heapStart s' (r :: live) fl' ((r - 1, nunits) :: used)) ∨
    ((∀ c ∈ fl, c.2 < nunits) ∧ ∃ u F, (s.mem u).ptr = s.freep ∧ F + fl.length + 1 = fuel ∧
      mallocLoop nunits grant fuel s s.freep = mallocLoop nunits grant (F + 1) s u) := by
  have hring : Links.IsRing (fun a => (s.mem a).ptr) (base :: fl.map Prod.fst) := h.ring.ring
  obtain ⟨m, hm, hperm⟩ := hring.path_from h.freep
  have hnd : (s.freep :: m).Nodup :=
    hperm.nodup_iff.mpr ((h.starts_sorted hbase).imp Nat.ne_of_lt)
  have hlen : m.length = fl.length := by simpa using hperm.length_eq
  obtain ⟨pre, u, w, post, hsplit, hpre, huw, hskip, hw⟩ := hm.split_first
    (fun w => nunits ≤ (s.mem w).size ∨ w = s.freep) ⟨s.freep, by simp, .inr rfl⟩
  have hpl : pre.length ≤ m.length := by
    have := congrArg List.length hsplit
    simp only [List.length_append, List.length_cons, List.length_nil] at this
    omega
  obtain ⟨F, rfl⟩ : ∃ F, fuel = F + 1 + pre.length := ⟨fuel - pre.length - 1, by omega⟩
  have hwalk := @mallocLoop_path nunits grant s s.freep u pre hpre
    (fun v hv => not_or.mp (hskip v hv) |>.imp Nat.lt_of_not_le id) (F + 1)
  have hu : u ∈ base :: fl.map Prod.fst := by
    rcases List.mem_cons.mp hpre.end_mem with he | he
    · rw [he]
      exact h.freep
    · have hu : u ∈ m ++ [s.freep] := by
        rw [hsplit]
        exact List.mem_append_left _ he
      rw [List.mem_append, List.mem_singleton] at hu
      exact hperm.mem_iff.mp (List.mem_cons.mpr hu.symm)
  by_cases hfit : nunits ≤ (s.mem w).size
  · left
    rw [hwalk]
    exact h.mallocLoop_take hbase hn hu (by rw [huw]; exact hfit) grant F
  · right
    have hwf := hw.resolve_left hfit
    subst hwf
    obtain rfl : post = [] := by
      rcases List.eq_nil_or_concat post with hp | ⟨post', z, rfl⟩
      · exact hp
      · exfalso
        have h' : m ++ [s.freep] = (pre ++ s.freep :: post') ++ [z] := by
          rw [hsplit]
          simp
        have hm' := List.append_inj_left' h' rfl
        exact (List.nodup_cons.mp hnd).1 (by rw [hm']; simp)
    obtain rfl : m = pre := List.append_inj_left' hsplit rfl
    refine ⟨fun c hc => ?_, u, F, huw, by omega, hwalk⟩
    have hcsize := h.ring.sizes c (List.mem_cons_of_mem _ hc)
    have hcR := hperm.mem_iff.mpr (List.mem_cons_of_mem _ (List.mem_map_of_mem hc))
    rcases List.mem_cons.mp hcR with he | he
    · rw [← he] at hfit
      omega
    · have := hskip c.1 he
      simp only [not_or] at this
      omega

lemma Shape.freep_pos (hbase0 : 0 < base) (hbase : base < heapStart)
    (h : Shape base heapStart s live fl used) : 0 < s.freep := by
  rcases List.mem_cons.mp h.freep with he | he
  · omega
  · obtain ⟨d, hd, hde⟩ := List.mem_map.mp he
    have hin := h.tidy.inside d (List.mem_append_left _ hd)
    omega

lemma Heap.exists_shape (hbase0 : 0 < base) (hbase : base < heapStart)
    (h : Heap base heapStart s live) :
    ∃ fl used, Shape base heapStart (if s.freep = 0 then
      { s with mem := Function.update s.mem base ⟨base, 0⟩, freep := base } else s) live fl used := by
  rcases h with ⟨h0, rfl, hst, hbk⟩ | ⟨fl, used, hs⟩
  · rw [if_pos h0]
    refine ⟨[], [], ⟨?_, by simp⟩, List.mem_cons_self, by simp, rfl, hst, hbk,
      ⟨.nil, by simp, by simp, .nil⟩⟩
    simp [Links.IsRing]
  · rw [if_neg (hs.freep_pos hbase0 hbase).ne']
    exact ⟨fl, used, hs⟩

theorem Heap.malloc (hbase0 : 0 < base) (hbase : base < heapStart) (h : Heap base heapStart s live)
    {nbytes : Nat} (hnb : nbytes ≤ 2 ^ 31 - 16) (grant : Bool) :
    ∃ r s', malloc base s nbytes grant = some (r, s') ∧
      ((r = 0 ∧ Heap base heapStart s' live) ∨
        ∃ fl used, Shape base heapStart s' (r :: live) fl
          ((r - 1, toUint (nbytes + 8 - 1) / 8 + 1) :: used)) := by
  obtain ⟨nunits, hnu, hn0, hn⟩ : ∃ nunits, toUint (nbytes + 8 - 1) / 8 + 1 = nunits ∧
      0 < nunits ∧ nunits < 268435456 := by
    refine ⟨_, rfl, by omega, ?_⟩
    rw [toUint_of_range (by omega) (by omega)]
    omega
  obtain ⟨fl, used, hs⟩ := h.exists_shape hbase0 hbase
  simp only [Xv6.User.malloc, hnu]
  generalize (if s.freep = 0 then
    { s with mem := Function.update s.mem base ⟨base, 0⟩, freep := base } else s) = s0 at hs ⊢
  have hlen := hs.length_le hbase
  simp only [List.length_cons, List.length_map] at hlen
  rcases hs.mallocLoop_walk hbase hn0 grant (show fl.length + 1 ≤ 2 * s0.brk + 4 by omega) with
    ⟨r, s', fl', hloop, hs'⟩ | ⟨hsmall, u, F, huw, hF, hloop⟩
  · exact ⟨r, s', hloop, .inr ⟨fl', used, hs'⟩⟩
  have hfsmall : (s0.mem s0.freep).size < nunits := by
    rcases List.mem_cons.mp hs.freep with he | he
    · rw [he, hs.ring.sizes (base, 0) List.mem_cons_self]
      exact hn0
    · obtain ⟨c, hc, hce⟩ := List.mem_map.mp he
      rw [← hce, hs.ring.sizes c (List.mem_cons_of_mem _ hc)]
      exact hsmall c hc
  rw [hloop, mallocLoop, huw, if_neg (not_le.mpr hfsmall), if_pos rfl]
  rcases hs.morecore hbase hn grant with hmc | ⟨s2, fl2, hmc, hs2, hfit, hlen2⟩
  · rw [hmc]
    exact ⟨0, s0, rfl, .inl ⟨rfl, .inr ⟨fl, used, hs⟩⟩⟩
  obtain ⟨k, hk⟩ : ∃ k, s2.freep = k + 1 :=
    ⟨s2.freep - 1, by have := hs2.freep_pos hbase0 hbase; omega⟩
  rw [hmc, hk]
  show ∃ r s', mallocLoop nunits grant F s2 (k + 1) = some (r, s') ∧ _
  rw [← hk]
  rcases hs2.mallocLoop_walk hbase hn0 grant (show fl2.length + 1 ≤ F by omega) with
    ⟨r, s', fl', hloop, hs'⟩ | ⟨hsmall2, -⟩
  · exact ⟨r, s', hloop, .inr ⟨fl', used, hs'⟩⟩
  · obtain ⟨c, hc, hcn⟩ := hfit
    have := hsmall2 c hc
    omega

theorem Heap.free (hbase : base < heapStart) (h : Heap base heapStart s live) {ap : Nat}
    (hap : ap ∈ live) : ∃ s', free s ap = some s' ∧ Heap base heapStart s' (live.erase ap) := by
  rcases h with ⟨-, rfl, -⟩ | ⟨fl, used, hs⟩
  · exact absurd hap List.not_mem_nil
  · rw [hs.live_eq] at hap
    obtain ⟨c, hc, rfl⟩ := List.mem_map.mp hap
    obtain ⟨s', hfree, hs'⟩ := hs.free hbase hc
    exact ⟨s', hfree, .inr ⟨_, _, hs'⟩⟩

end

inductive Call
  | malloc (nbytes : Nat) (grant : Bool)
  | free (ap : Nat)

structure Alloc where
  heap : Umem
  live : List Nat

def step (base : Nat) (a : Alloc) : Call → Option Alloc
  | .malloc nbytes grant =>
    (malloc base a.heap nbytes grant).map fun (r, s) => ⟨s, if r = 0 then a.live else r :: a.live⟩
  | .free ap => if ap ∈ a.live then (free a.heap ap).map fun s => ⟨s, a.live.erase ap⟩ else none

section
variable {base heapStart : Nat}

lemma Heap.step (hbase0 : 0 < base) (hbase : base < heapStart) {a : Alloc}
    (h : Heap base heapStart a.heap a.live) {c : Call}
    (hc : ∀ n g, c = .malloc n g → n ≤ 2 ^ 31 - 16) {a' : Alloc} (hs : step base a c = some a') :
    Heap base heapStart a'.heap a'.live := by
  cases c with
  | malloc nbytes grant =>
    obtain ⟨r, s', hm, hr⟩ := h.malloc hbase0 hbase (hc nbytes grant rfl) grant
    simp only [Xv6.User.step, hm, Option.map_some, Option.some.injEq] at hs
    subst hs
    rcases hr with ⟨rfl, h'⟩ | ⟨fl, used, h'⟩
    · simpa using h'
    · have hr0 : r ≠ 0 := by
        have := h'.live_eq
        simp only [List.map_cons, List.cons.injEq] at this
        omega
      show Heap base heapStart s' (if r = 0 then a.live else r :: a.live)
      rw [if_neg hr0]
      exact .inr ⟨fl, _, h'⟩
  | free ap =>
    simp only [Xv6.User.step] at hs
    split_ifs at hs with hap
    obtain ⟨s', hf, h'⟩ := h.free hbase hap
    simp only [hf, Option.map_some, Option.some.injEq] at hs
    subst hs
    exact h'

end

theorem umalloc_heap_invariant (base heapStart : Nat) (hbase0 : 0 < base)
    (hbase : base < heapStart) (s₀ : Umem) (h0 : s₀.freep = 0) (hstart : heapStart ≤ s₀.brk)
    (hkern : 8 * s₀.brk < kernBase) (calls : List Call)
    (hsmall : ∀ n g, Call.malloc n g ∈ calls → n ≤ 2 ^ 31 - 16) (a : Alloc)
    (hrun : Run.exec (step base) ⟨s₀, []⟩ calls = some a) :
    Heap base heapStart a.heap a.live ∧
      (∀ nbytes grant, nbytes ≤ 2 ^ 31 - 16 → ∃ r s', malloc base a.heap nbytes grant = some (r, s') ∧
        ((r = 0 ∧ Heap base heapStart s' a.live) ∨
          ∃ fl used size, Shape base heapStart s' (r :: a.live) fl ((r - 1, size) :: used) ∧
            nbytes ≤ 8 * (size - 1))) ∧
      ∀ ap ∈ a.live, ∃ s', free a.heap ap = some s' ∧ Heap base heapStart s' (a.live.erase ap) := by
  have hinv : Heap base heapStart a.heap a.live :=
    Run.exec_invariant_on (P := fun a => Heap base heapStart a.heap a.live)
      (Q := fun c => ∀ n g, c = .malloc n g → n ≤ 2 ^ 31 - 16)
      (fun _ _ _ hc ha hs => ha.step hbase0 hbase hc hs)
      (fun _ hc n g he => by subst he; exact hsmall n g hc) (.inl ⟨h0, rfl, hstart, hkern⟩) hrun
  refine ⟨hinv, fun nbytes grant hnb => ?_, fun ap hap => hinv.free hbase hap⟩
  obtain ⟨r, s', hm, hr⟩ := hinv.malloc hbase0 hbase hnb grant
  refine ⟨r, s', hm, hr.imp id fun ⟨fl, used, h'⟩ => ⟨fl, used, _, h', ?_⟩⟩
  rw [toUint_of_range (by omega) (by omega)]
  omega

theorem umalloc_heap_invariant_two_mallocs :
    ∃ a, Run.exec (step 1) ⟨⟨fun _ => ⟨0, 0⟩, 0, 2⟩, []⟩
        [.malloc 10 true, .malloc 20 true, .free 4096] = some a ∧
      a.live = [4092] ∧ ∃ s', free a.heap 4092 = some s' ∧ Heap 1 2 s' [] := by
  refine ⟨_, rfl, rfl, ?_⟩
  have hsmall : ∀ n g, Call.malloc n g ∈ [.malloc 10 true, .malloc 20 true, .free 4096] →
      n ≤ 2 ^ 31 - 16 := by
    intro n g h
    simp only [List.mem_cons, Call.malloc.injEq, reduceCtorEq, List.not_mem_nil, or_false] at h
    omega
  exact (umalloc_heap_invariant 1 2 (by decide) (by decide) ⟨fun _ => ⟨0, 0⟩, 0, 2⟩ rfl
    (le_refl _) (by decide) _ hsmall _ rfl).2.2 4092 (by decide)

theorem malloc_wraps_large_request :
    (malloc 1 ⟨fun _ => ⟨0, 0⟩, 0, 2⟩ 4294967295 true).map
      (fun p => (p.1, (p.2.mem (p.1 - 1)).size)) = some (4098, 1) := by
  decide

end Xv6.User
