import Mathlib.Data.Fintype.Card
import Xv6.Lib.Links
import Xv6.Lib.Run
import Xv6.Param

/-! `bio.c`: the buffer cache, a list through `bcache.head` of its buffers linked both ways
through `next` and `prev`, most recently released first. `bget` looks a block up from the front
and otherwise recycles the first buffer from the back with `refcnt == 0` and `B_DIRTY` clear;
`brelse` moves a buffer whose last reference it drops to the front.

From `binit` on, over every run of calls, the list is a doubly-linked ring holding each buffer
once, in the order of their last release (`Inv`). So `bget` recycles, of the free clean buffers,
the one released longest ago (`Inv.bget_recycles_lru`), and a buffer that `bget` gave a block to
is the only one holding it (`Inv.alone`). -/

namespace Xv6.Fs

namespace Bio

open Links

structure Buf where
  valid : Bool
  dirty : Bool
  dev : Nat
  blockno : Nat
  refcnt : Nat
deriving DecidableEq, Repr

structure Bcache (n : Nat) where
  buf : Fin n → Buf
  next : Option (Fin n) → Option (Fin n)
  prev : Option (Fin n) → Option (Fin n)

variable {n : Nat}

def linkFront (c : Bcache n) (b : Fin n) : Bcache n :=
  let c := { c with next := Function.update c.next (some b) (c.next none) }
  let c := { c with prev := Function.update c.prev (some b) none }
  let c := { c with prev := Function.update c.prev (c.next none) (some b) }
  { c with next := Function.update c.next none (some b) }

def binit : Bcache n :=
  let c : Bcache n := ⟨fun _ => ⟨false, false, 0, 0, 0⟩, fun _ => none, fun _ => none⟩
  let c := { c with prev := Function.update c.prev none none }
  let c := { c with next := Function.update c.next none none }
  (List.finRange n).foldl linkFront c

def unlink (c : Bcache n) (b : Fin n) : Bcache n :=
  let c := { c with prev := Function.update c.prev (c.next (some b)) (c.prev (some b)) }
  { c with next := Function.update c.next (c.prev (some b)) (c.next (some b)) }

def brelse (c : Bcache n) (b : Fin n) : Bcache n :=
  let c := { c with buf := Function.update c.buf b { c.buf b with refcnt := (c.buf b).refcnt - 1 } }
  if (c.buf b).refcnt = 0 then linkFront (unlink c b) b else c

def cachedAt (c : Bcache n) (dev blockno : Nat) : Option (Fin n) → Bool
  | none => true
  | some b => (c.buf b).dev == dev && (c.buf b).blockno == blockno

def recyclableAt (c : Bcache n) : Option (Fin n) → Bool
  | none => true
  | some b => (c.buf b).refcnt == 0 && !(c.buf b).dirty

def bgetHit (c : Bcache n) (dev blockno : Nat) : Option (Option (Fin n)) :=
  findFrom c.next (fun v => cachedAt c dev blockno v = true) (n + 1) (c.next none)

def bgetVictim (c : Bcache n) : Option (Option (Fin n)) :=
  findFrom c.prev (fun v => recyclableAt c v = true) (n + 1) (c.prev none)

def bget (c : Bcache n) (dev blockno : Nat) : Option (Bcache n × Fin n) :=
  match bgetHit c dev blockno with
  | some (some b) =>
    some ({ c with buf := Function.update c.buf b { c.buf b with refcnt := (c.buf b).refcnt + 1 } },
      b)
  | some none =>
    match bgetVictim c with
    | some (some b) => some ({ c with buf := Function.update c.buf b ⟨false, false, dev, blockno, 1⟩ }, b)
    | _ => none
  | none => none

def iderw (c : Bcache n) (b : Fin n) : Option (Bcache n) :=
  if (c.buf b).valid = true ∧ (c.buf b).dirty = false then none
  else some { c with buf := Function.update c.buf b { c.buf b with valid := true, dirty := false } }

def bread (c : Bcache n) (dev blockno : Nat) : Option (Bcache n × Fin n) := do
  let (c, b) ← bget c dev blockno
  if (c.buf b).valid then pure (c, b)
  else do
    let c ← iderw c b
    pure (c, b)

def bwrite (c : Bcache n) (b : Fin n) : Option (Bcache n) :=
  iderw { c with buf := Function.update c.buf b { c.buf b with dirty := true } } b

def logWrite (c : Bcache n) (b : Fin n) : Bcache n :=
  { c with buf := Function.update c.buf b { c.buf b with dirty := true } }

structure Chain (c : Bcache n) (order : List (Fin n)) : Prop where
  dring : IsDRing c.next c.prev (none :: order.map some)
  nodup : order.Nodup
  all : ∀ b, b ∈ order

lemma nodup_nodes {L : List (Fin n)} (h : L.Nodup) : (none :: L.map some).Nodup :=
  List.nodup_cons.mpr ⟨by simp, h.map (Option.some_injective _)⟩

lemma update_self_val {α β : Type*} [DecidableEq α] (f : α → β) (a x : α) :
    Function.update f a (f x) x = f x := by
  by_cases h : x = a
  · subst h
    exact Function.update_self _ _ _
  · exact Function.update_of_ne h _ _

lemma dring_linkFront {c : Bcache n} {L : List (Fin n)} (h : IsDRing c.next c.prev (none :: L.map some))
    (hnd : L.Nodup) {b : Fin n} (hb : b ∉ L) :
    IsDRing (linkFront c b).next (linkFront c b).prev (none :: (b :: L).map some) := by
  have hins := IsDRing.insert (A := []) (v := none) (n := some b) h (nodup_nodes hnd)
    (by simpa using hb)
  have hhead : Function.update c.next (some b) (c.next none) none = c.next none :=
    Function.update_of_ne (by simp) _ _
  simp only [linkFront, hhead]
  exact hins

lemma dring_unlink {c : Bcache n} {A B : List (Fin n)} {b : Fin n}
    (h : IsDRing c.next c.prev (none :: (A ++ b :: B).map some)) (hnd : (A ++ b :: B).Nodup) :
    IsDRing (unlink c b).next (unlink c b).prev (none :: (A ++ B).map some) := by
  obtain ⟨P, v, hPv⟩ : ∃ P v, none :: A.map some = P ++ [v] := by
    rcases List.eq_nil_or_concat (none :: A.map some) with he | ⟨P, v, he⟩
    · exact absurd he (List.cons_ne_nil _ _)
    · exact ⟨P, v, by rw [he, List.concat_eq_append]⟩
  have hsplit : ∀ X : List (Fin n), none :: (A ++ X).map some = P ++ v :: X.map some := by
    intro X
    rw [List.map_append, ← List.cons_append, hPv, List.append_assoc, List.singleton_append]
  rw [hsplit (b :: B), List.map_cons] at h
  have hnd' := nodup_nodes hnd
  rw [hsplit (b :: B), List.map_cons] at hnd'
  have hv : c.prev (some b) = v := by
    rw [← h.ring.next_of_cons]
    exact h.back v (by simp)
  have hun := h.unlink hnd'
  rw [← hsplit B, ← hv] at hun
  simp only [unlink, update_self_val]
  exact hun

lemma dring_foldl_linkFront :
    ∀ (L : List (Fin n)) {c : Bcache n} {M : List (Fin n)},
      IsDRing c.next c.prev (none :: M.map some) → (L.reverse ++ M).Nodup →
      IsDRing (L.foldl linkFront c).next (L.foldl linkFront c).prev
        (none :: (L.reverse ++ M).map some)
  | [], _, _, h, _ => by simpa using h
  | b :: L, c, M, h, hnd => by
    have hshift : (b :: L).reverse ++ M = L.reverse ++ b :: M := by simp
    rw [hshift] at hnd ⊢
    obtain ⟨hb, hM⟩ := List.nodup_cons.mp (hnd.sublist (List.sublist_append_right _ _))
    exact dring_foldl_linkFront L (dring_linkFront h hM hb) hnd

lemma Chain.length_lt {c : Bcache n} {order : List (Fin n)} (h : Chain c order) :
    order.length < n + 1 := by
  have := h.nodup.length_le_card
  rw [Fintype.card_fin] at this
  omega

lemma chain_binit : Chain (binit : Bcache n) (List.finRange n).reverse := by
  refine ⟨?_, List.nodup_reverse.mpr (List.nodup_finRange n), fun b => by simp⟩
  let c0 : Bcache n := ⟨fun _ => ⟨false, false, 0, 0, 0⟩, fun _ => none, fun _ => none⟩
  have h0 : IsDRing c0.next c0.prev (none :: ([] : List (Fin n)).map some) :=
    ⟨.cons rfl (.nil _), by simp [c0]⟩
  have := dring_foldl_linkFront (List.finRange n) (c := c0) (M := []) h0
    (by simpa using List.nodup_finRange n)
  simpa [binit] using this

lemma Chain.unlink_linkFront {c : Bcache n} {order : List (Fin n)} (h : Chain c order)
    (b : Fin n) : Chain (linkFront (unlink c b) b) (b :: order.erase b) := by
  obtain ⟨A, B, -, hord, her⟩ := List.exists_erase_eq (h.all b)
  subst hord
  rw [her]
  have hnd := List.perm_middle.nodup_iff.mp h.nodup
  obtain ⟨hb, hAB⟩ := List.nodup_cons.mp hnd
  refine ⟨dring_linkFront (dring_unlink h.dring h.nodup) hAB hb, hnd, fun x => ?_⟩
  exact List.perm_middle.subset (h.all x)

lemma find?_nodes {α : Type*} (L : List α) {q : Option α → Bool} (hq : q none = true) :
    (L.map some ++ [none]).find? q = some (L.find? fun b => q (some b)) := by
  induction L with
  | nil => simp [hq]
  | cons b L ih =>
    by_cases hb : q (some b) = true
    · simp [hb]
    · simp [hb, ih]

lemma Chain.bgetHit {c : Bcache n} {order : List (Fin n)} (h : Chain c order) (dev blockno : Nat) :
    bgetHit c dev blockno = some (order.find? fun b => cachedAt c dev blockno (some b)) := by
  have hf := h.dring.ring.findFrom_next (P := fun v => cachedAt c dev blockno v = true) rfl
    (by simp only [List.length_map]; exact h.length_lt)
  rw [Bio.bgetHit, hf, find?_nodes _ (by simp [cachedAt])]
  simp

lemma Chain.bgetVictim {c : Bcache n} {order : List (Fin n)} (h : Chain c order) :
    bgetVictim c = some (order.reverse.find? fun b => recyclableAt c (some b)) := by
  have hf := h.dring.prev_ring.findFrom_next (P := fun v => recyclableAt c v = true) rfl
    (by simp only [List.length_map, List.length_reverse]; exact h.length_lt)
  rw [Bio.bgetVictim, hf, ← List.map_reverse, find?_nodes _ (by simp [recyclableAt])]
  simp

lemma find?_first {α : Type*} {R : α → α → Prop} {l : List α} {p : α → Bool} {b : α}
    (hl : l.Pairwise R) (h : l.find? p = some b) {b' : α} (hb' : b' ∈ l) (hp : p b' = true) :
    b' = b ∨ R b b' := by
  obtain ⟨-, A, B, rfl, hA⟩ := List.find?_eq_some_iff_append.mp h
  rw [List.pairwise_append, List.pairwise_cons] at hl
  rcases List.mem_append.mp hb' with hb' | hb'
  · exact absurd hp (by simpa using hA b' hb')
  · rcases List.mem_cons.mp hb' with rfl | hb'
    · exact Or.inl rfl
    · exact Or.inr (hl.2.1.1 b' hb')

lemma Chain.congr {c c' : Bcache n} {order : List (Fin n)} (h : Chain c order)
    (hnext : c'.next = c.next) (hprev : c'.prev = c.prev) : Chain c' order :=
  ⟨hnext ▸ hprev ▸ h.dring, h.nodup, h.all⟩

structure SameBlocks (c c' : Bcache n) : Prop where
  next : c'.next = c.next
  prev : c'.prev = c.prev
  dev : ∀ b, (c'.buf b).dev = (c.buf b).dev
  blockno : ∀ b, (c'.buf b).blockno = (c.buf b).blockno

lemma SameBlocks.refl (c : Bcache n) : SameBlocks c c := ⟨rfl, rfl, fun _ => rfl, fun _ => rfl⟩

lemma SameBlocks.trans {c₁ c₂ c₃ : Bcache n} (h₁ : SameBlocks c₁ c₂) (h₂ : SameBlocks c₂ c₃) :
    SameBlocks c₁ c₃ :=
  ⟨h₂.next.trans h₁.next, h₂.prev.trans h₁.prev, fun b => (h₂.dev b).trans (h₁.dev b),
    fun b => (h₂.blockno b).trans (h₁.blockno b)⟩

lemma sameBlocks_update (c : Bcache n) (b : Fin n) {v : Buf} (hdev : v.dev = (c.buf b).dev)
    (hblockno : v.blockno = (c.buf b).blockno) :
    SameBlocks c { c with buf := Function.update c.buf b v } := by
  refine ⟨rfl, rfl, fun b' => ?_, fun b' => ?_⟩ <;>
  · by_cases hb : b' = b
    · subst hb
      simpa
    · simp [Function.update_of_ne hb]

lemma sameBlocks_iderw {c c' : Bcache n} {b : Fin n} (h : iderw c b = some c') : SameBlocks c c' := by
  unfold iderw at h
  split at h
  · cases h
  · cases h
    exact sameBlocks_update c b rfl rfl

lemma sameBlocks_bwrite {c c' : Bcache n} {b : Fin n} (h : bwrite c b = some c') :
    SameBlocks c c' :=
  (sameBlocks_update c b (v := { c.buf b with dirty := true }) rfl rfl).trans (sameBlocks_iderw h)

lemma sameBlocks_logWrite (c : Bcache n) (b : Fin n) : SameBlocks c (logWrite c b) :=
  sameBlocks_update c b rfl rfl

@[simp] lemma brelse_buf (c : Bcache n) (b : Fin n) :
    (brelse c b).buf = Function.update c.buf b { c.buf b with refcnt := (c.buf b).refcnt - 1 } := by
  unfold brelse
  dsimp only
  split <;> rfl

lemma brelse_dev (c : Bcache n) (b x : Fin n) : ((brelse c b).buf x).dev = (c.buf x).dev := by
  rw [brelse_buf]
  exact (sameBlocks_update c b (v := { c.buf b with refcnt := (c.buf b).refcnt - 1 }) rfl rfl).dev x

lemma brelse_blockno (c : Bcache n) (b x : Fin n) :
    ((brelse c b).buf x).blockno = (c.buf x).blockno := by
  rw [brelse_buf]
  exact
    (sameBlocks_update c b (v := { c.buf b with refcnt := (c.buf b).refcnt - 1 }) rfl rfl).blockno x

lemma sameBlocks_brelse {c : Bcache n} {b : Fin n} (hb : 1 < (c.buf b).refcnt) :
    SameBlocks c (brelse c b) := by
  have hpos : (c.buf b).refcnt - 1 ≠ 0 := by omega
  unfold brelse
  rw [if_neg (by simpa using hpos)]
  exact sameBlocks_update c b rfl rfl

lemma brelse_last {c : Bcache n} {b : Fin n} (hb : (c.buf b).refcnt = 1) :
    brelse c b = linkFront (unlink
      { c with buf := Function.update c.buf b { c.buf b with refcnt := (c.buf b).refcnt - 1 } } b) b := by
  unfold brelse
  rw [if_pos (by simp [hb])]

lemma bget_cases {c c' : Bcache n} {dev blockno : Nat} {b : Fin n}
    (h : bget c dev blockno = some (c', b)) :
    (bgetHit c dev blockno = some (some b) ∧ SameBlocks c c') ∨
      (bgetHit c dev blockno = some none ∧ bgetVictim c = some (some b) ∧
        c' = { c with buf := Function.update c.buf b ⟨false, false, dev, blockno, 1⟩ }) := by
  unfold bget at h
  split at h
  · rename_i b₀ hhit
    obtain ⟨rfl, rfl⟩ := Prod.mk.inj (Option.some.inj h)
    exact Or.inl ⟨hhit, sameBlocks_update c b₀ rfl rfl⟩
  · rename_i hhit
    split at h
    · rename_i b₀ hvic
      obtain ⟨rfl, rfl⟩ := Prod.mk.inj (Option.some.inj h)
      exact Or.inr ⟨hhit, hvic, rfl⟩
    · cases h
  · cases h

lemma bread_cases {c c' : Bcache n} {dev blockno : Nat} {b : Fin n}
    (h : bread c dev blockno = some (c', b)) :
    ∃ c₁, bget c dev blockno = some (c₁, b) ∧ SameBlocks c₁ c' := by
  simp only [bread, Option.bind_eq_bind, Option.bind_eq_some_iff] at h
  obtain ⟨⟨c₁, b₁⟩, hg, h⟩ := h
  refine ⟨c₁, ?_⟩
  split at h
  · obtain ⟨rfl, rfl⟩ := Prod.mk.inj (Option.some.inj h)
    exact ⟨hg, SameBlocks.refl _⟩
  · simp only [Option.pure_def, Option.bind_eq_some_iff, Option.some.injEq, Prod.mk.injEq] at h
    obtain ⟨c₂, hd, rfl, rfl⟩ := h
    exact ⟨hg, sameBlocks_iderw hd⟩

inductive Call (n : Nat)
  | bget (dev blockno : Nat)
  | bread (dev blockno : Nat)
  | bwrite (b : Fin n)
  | brelse (b : Fin n)
  | logWrite (b : Fin n)

structure Sys (n : Nat) where
  cache : Bcache n
  stamp : Fin n → Nat
  clock : Nat
  assigned : Fin n → Bool

def Sys.init (n : Nat) : Sys n := ⟨binit, fun b => b.val, n, fun _ => false⟩

def Sys.assign (s : Sys n) (dev blockno : Nat) (b : Fin n) : Fin n → Bool :=
  if bgetHit s.cache dev blockno = some none then Function.update s.assigned b true else s.assigned

def step (s : Sys n) : Call n → Option (Sys n)
  | .bget dev blockno =>
    (bget s.cache dev blockno).map fun (c, b) =>
      { s with cache := c, assigned := s.assign dev blockno b }
  | .bread dev blockno =>
    (bread s.cache dev blockno).map fun (c, b) =>
      { s with cache := c, assigned := s.assign dev blockno b }
  | .bwrite b =>
    if 0 < (s.cache.buf b).refcnt then (bwrite s.cache b).map fun c => { s with cache := c }
    else none
  | .brelse b =>
    if 0 < (s.cache.buf b).refcnt then
      some (if (s.cache.buf b).refcnt = 1 then
        ⟨brelse s.cache b, Function.update s.stamp b s.clock, s.clock + 1, s.assigned⟩
      else { s with cache := brelse s.cache b })
    else none
  | .logWrite b =>
    if 0 < (s.cache.buf b).refcnt then some { s with cache := logWrite s.cache b } else none

structure Inv (s : Sys n) : Prop where
  chain : ∃ order, Chain s.cache order ∧ order.Pairwise fun a b => s.stamp b < s.stamp a
  stamp_lt : ∀ b, s.stamp b < s.clock
  alone : ∀ b b', s.assigned b = true → b' ≠ b →
    ((s.cache.buf b').dev, (s.cache.buf b').blockno) ≠ ((s.cache.buf b).dev, (s.cache.buf b).blockno)

lemma inv_init : Inv (Sys.init n) := by
  refine ⟨⟨_, chain_binit, ?_⟩, fun b => b.isLt, fun _ _ h => by simp [Sys.init] at h⟩
  rw [List.pairwise_reverse]
  exact List.pairwise_lt_finRange n

lemma Inv.sameBlocks {s : Sys n} (h : Inv s) {c : Bcache n} (hc : SameBlocks s.cache c) :
    Inv { s with cache := c } := by
  obtain ⟨order, hch, hsort⟩ := h.chain
  refine ⟨⟨order, hch.congr hc.next hc.prev, hsort⟩, h.stamp_lt, fun b b' hb hne => ?_⟩
  simpa [hc.dev, hc.blockno] using h.alone b b' hb hne

lemma Chain.not_held {c : Bcache n} {order : List (Fin n)} (h : Chain c order) {dev blockno : Nat}
    (hhit : Bio.bgetHit c dev blockno = some none) (x : Fin n) :
    ((c.buf x).dev, (c.buf x).blockno) ≠ (dev, blockno) := by
  rw [h.bgetHit, Option.some.injEq, List.find?_eq_none] at hhit
  intro hx
  simp only [Prod.mk.injEq] at hx
  exact hhit x (h.all x) (by simp [cachedAt, hx.1, hx.2])

lemma Inv.get {s : Sys n} (h : Inv s) {dev blockno : Nat} {c c' : Bcache n} {b : Fin n}
    (hg : bget s.cache dev blockno = some (c, b)) (hc : SameBlocks c c') :
    Inv { s with cache := c', assigned := s.assign dev blockno b } := by
  obtain ⟨order, hch, hsort⟩ := h.chain
  rcases bget_cases hg with ⟨hhit, hsame⟩ | ⟨hhit, -, rfl⟩
  · have hassign : s.assign dev blockno b = s.assigned := by simp [Sys.assign, hhit]
    rw [hassign]
    exact h.sameBlocks (hsame.trans hc)
  · have hkey : ∀ y, ((c'.buf y).dev, (c'.buf y).blockno) =
        if y = b then (dev, blockno) else ((s.cache.buf y).dev, (s.cache.buf y).blockno) := by
      intro y
      rw [hc.dev, hc.blockno]
      by_cases hy : y = b
      · subst hy
        simp
      · simp [hy]
    refine ⟨⟨order, hch.congr hc.next hc.prev, hsort⟩, h.stamp_lt, fun x x' hx hne => ?_⟩
    simp only [Sys.assign, hhit, if_true] at hx
    simp only [hkey x, hkey x']
    by_cases hxb : x = b
    · rw [if_pos hxb, if_neg (hxb ▸ hne)]
      exact hch.not_held hhit x'
    · rw [Function.update_of_ne hxb] at hx
      rw [if_neg hxb]
      by_cases hx'b : x' = b
      · rw [if_pos hx'b]
        exact (hch.not_held hhit x).symm
      · rw [if_neg hx'b]
        exact h.alone x x' hx hne

lemma Inv.brelse_last {s : Sys n} (h : Inv s) {b : Fin n} (hb : (s.cache.buf b).refcnt = 1) :
    Inv ⟨brelse s.cache b, Function.update s.stamp b s.clock, s.clock + 1, s.assigned⟩ := by
  obtain ⟨order, hch, hsort⟩ := h.chain
  have hne : ∀ x ∈ order.erase b, x ≠ b := fun x hx => (hch.nodup.mem_erase_iff.mp hx).1
  refine ⟨⟨b :: order.erase b, ?_, ?_⟩, fun x => ?_, fun x x' hx hne' => ?_⟩
  · rw [Bio.brelse_last hb]
    refine Chain.unlink_linkFront ?_ b
    exact hch.congr rfl rfl
  · dsimp only
    refine List.pairwise_cons.mpr ⟨fun x hx => ?_, ?_⟩
    · rw [Function.update_of_ne (hne x hx), Function.update_self]
      exact h.stamp_lt x
    · refine (hsort.sublist (List.erase_sublist ..)).imp_of_mem fun hx hy hxy => ?_
      rwa [Function.update_of_ne (hne _ hx), Function.update_of_ne (hne _ hy)]
  · by_cases hx : x = b
    · subst hx
      simp
    · simpa [Function.update_of_ne hx] using Nat.lt_succ_of_lt (h.stamp_lt x)
  · dsimp only
    rw [brelse_dev, brelse_dev, brelse_blockno, brelse_blockno]
    exact h.alone x x' hx hne'

lemma Inv.step {s t : Sys n} (h : Inv s) {a : Call n} (hs : step s a = some t) : Inv t := by
  cases a with
  | bget dev blockno =>
    obtain ⟨⟨c, b⟩, hg, rfl⟩ := Option.map_eq_some_iff.mp hs
    exact h.get hg (SameBlocks.refl c)
  | bread dev blockno =>
    obtain ⟨⟨c, b⟩, hr, rfl⟩ := Option.map_eq_some_iff.mp hs
    obtain ⟨c₁, hg, hsame⟩ := bread_cases hr
    exact h.get hg hsame
  | bwrite b =>
    simp only [Bio.step] at hs
    split at hs
    · obtain ⟨c, hw, rfl⟩ := Option.map_eq_some_iff.mp hs
      exact h.sameBlocks (sameBlocks_bwrite hw)
    · cases hs
  | brelse b =>
    simp only [Bio.step] at hs
    split at hs
    · rename_i hpos
      cases hs
      split
      · exact h.brelse_last (by assumption)
      · exact h.sameBlocks (sameBlocks_brelse (by omega))
    · cases hs
  | logWrite b =>
    simp only [Bio.step] at hs
    split at hs
    · cases hs
      exact h.sameBlocks (sameBlocks_logWrite s.cache b)
    · cases hs

lemma inv_exec {calls : List (Call n)} {s : Sys n} (h : Run.exec step (Sys.init n) calls = some s) :
    Inv s :=
  Run.exec_invariant (fun _ _ _ hs ht => hs.step ht) inv_init h

theorem Inv.bget_recycles_lru {s : Sys n} (h : Inv s) {dev blockno : Nat} {c : Bcache n}
    {b : Fin n} (hg : bget s.cache dev blockno = some (c, b))
    (hhit : bgetHit s.cache dev blockno = some none) :
    (s.cache.buf b).refcnt = 0 ∧ (s.cache.buf b).dirty = false ∧
      ∀ b', (s.cache.buf b').refcnt = 0 → (s.cache.buf b').dirty = false →
        s.stamp b ≤ s.stamp b' := by
  obtain ⟨order, hch, hsort⟩ := h.chain
  have hvic : bgetVictim s.cache = some (some b) := by
    rcases bget_cases hg with ⟨hhit', -⟩ | ⟨-, hvic, -⟩
    · rw [hhit] at hhit'
      cases hhit'
    · exact hvic
  rw [hch.bgetVictim, Option.some.injEq] at hvic
  have hrec := List.find?_some hvic
  simp only [recyclableAt, Bool.and_eq_true, beq_iff_eq, Bool.not_eq_eq_eq_not, Bool.not_true]
    at hrec
  refine ⟨hrec.1, hrec.2, fun b' h0 hclean => ?_⟩
  have hb' : recyclableAt s.cache (some b') = true := by simp [recyclableAt, h0, hclean]
  rcases find?_first (List.pairwise_reverse.mpr hsort) hvic
    (List.mem_reverse.mpr (hch.all b')) hb' with rfl | hlt
  · exact le_rfl
  · exact hlt.le

lemma Chain.hit_holds {c : Bcache n} {order : List (Fin n)} (h : Chain c order) {dev blockno : Nat}
    {b : Fin n} (hhit : Bio.bgetHit c dev blockno = some (some b)) :
    (c.buf b).dev = dev ∧ (c.buf b).blockno = blockno := by
  rw [h.bgetHit, Option.some.injEq] at hhit
  simpa [cachedAt] using List.find?_some hhit

theorem Inv.bget_spec {s : Sys n} (h : Inv s) {dev blockno : Nat} {c : Bcache n} {b : Fin n}
    (hg : bget s.cache dev blockno = some (c, b)) :
    ((s.cache.buf b).dev = dev ∧ (s.cache.buf b).blockno = blockno) ∨
      ((∀ x, ((s.cache.buf x).dev, (s.cache.buf x).blockno) ≠ (dev, blockno)) ∧
        (s.cache.buf b).refcnt = 0 ∧ (s.cache.buf b).dirty = false ∧
        ∀ b', (s.cache.buf b').refcnt = 0 → (s.cache.buf b').dirty = false →
          s.stamp b ≤ s.stamp b') := by
  obtain ⟨order, hch, -⟩ := h.chain
  rcases bget_cases hg with ⟨hhit, -⟩ | ⟨hhit, -, -⟩
  · exact Or.inl (hch.hit_holds hhit)
  · exact Or.inr ⟨hch.not_held hhit, h.bget_recycles_lru hg hhit⟩

lemma Inv.bget_eq_none_iff {s : Sys n} (h : Inv s) (dev blockno : Nat) :
    bget s.cache dev blockno = none ↔
      (∀ x, ((s.cache.buf x).dev, (s.cache.buf x).blockno) ≠ (dev, blockno)) ∧
        ∀ b, (s.cache.buf b).refcnt = 0 → (s.cache.buf b).dirty = true := by
  obtain ⟨order, hch, -⟩ := h.chain
  cases hhit : order.find? (fun b => cachedAt s.cache dev blockno (some b)) with
  | some b =>
    have hb := hch.hit_holds (by rw [hch.bgetHit, hhit])
    simp only [bget, hch.bgetHit, hhit, reduceCtorEq, false_iff, not_and]
    exact fun hno => absurd (by rw [hb.1, hb.2]) (hno b)
  | none =>
    have hno := hch.not_held (by rw [hch.bgetHit, hhit])
    cases hvic : order.reverse.find? (fun b => recyclableAt s.cache (some b)) with
    | some b =>
      have hrec := List.find?_some hvic
      simp only [recyclableAt, Bool.and_eq_true, beq_iff_eq, Bool.not_eq_eq_eq_not,
        Bool.not_true] at hrec
      simp only [bget, hch.bgetHit, hhit, hch.bgetVictim, hvic, reduceCtorEq, false_iff, not_and]
      exact fun _ hd => absurd (hd b hrec.1) (by rw [hrec.2]; decide)
    | none =>
      have hall : ∀ b, (s.cache.buf b).refcnt = 0 → (s.cache.buf b).dirty = true := by
        intro b h0
        have hb := List.find?_eq_none.mp hvic b (List.mem_reverse.mpr (hch.all b))
        simpa [recyclableAt, h0] using hb
      simp only [bget, hch.bgetHit, hhit, hch.bgetVictim, hvic, true_iff]
      exact ⟨hno, hall⟩

end Bio

end Xv6.Fs
