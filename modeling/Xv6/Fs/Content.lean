import Xv6.Fs.Inode
import Mathlib.Data.Finset.Card

/-! What `writei` and `readi` do to the contents of a file. The content is `byteAt`: the bytes
of file block `bn` are those of the block `bmap` finds for it, zeros where there is none. On an
inode whose blocks the free map owns (`Owned`: the metadata marked, the inode's blocks handed
out, distinct, and none of them its indirect block) `bmap` keeps the content and the ownership
and takes from the free map exactly the blocks `allocations` counts (`bmap_spec`). So `writei`
overwrites the content at `off` and `readi` reads it back (`writei_read_after_write`), for every
count whose end does not wrap a `uint`: `readi` refuses one whose end does
(`readi_after_write_wraps`). -/

namespace Xv6.Fs

def blockAddr (d : Disk) (ip : Dinode) (bn : Nat) : Nat :=
  if bn < nDirect then ip.addrs bn
  else if ip.addrs nDirect = 0 then 0
  else Bytes.getU32 (d.blocks (ip.addrs nDirect)) (bn - nDirect)

def byteAt (d : Disk) (ip : Dinode) (x : Nat) : UInt8 :=
  if x / bsize < maxFile ∧ blockAddr d ip (x / bsize) ≠ 0 then
    d.blocks (blockAddr d ip (x / bsize)) (x % bsize)
  else 0

def freeBlocks (d : Disk) : Finset Nat := (Finset.range sb.size).filter fun b => bitSet d b = false

def Used (d : Disk) (a : Nat) : Prop := nmeta ≤ a ∧ a < sb.size ∧ bitSet d a = true

lemma bblock_of_lt_size {c : Nat} (hc : c < sb.size) : bblock c = sb.bmapstart := by
  simp only [bblock, bpb, bsize, sb, fsSize] at hc ⊢
  omega

lemma bmapstart_lt_nmeta : sb.bmapstart < nmeta := by decide

lemma nmeta_lt_size : nmeta < sb.size := by decide

lemma ne_zero_of_nmeta_le {b : Nat} (h : nmeta ≤ b) : b ≠ 0 := by
  have : 0 < nmeta := by decide
  omega

lemma bitSet_update {d : Disk} {x : Nat} (hx : nmeta ≤ x) (v : Bytes.Buf) {c : Nat}
    (hc : c < sb.size) : bitSet ⟨Function.update d.blocks x v, d.inodes⟩ c = bitSet d c := by
  have hne : bblock c ≠ x := by
    rw [bblock_of_lt_size hc]
    have := bmapstart_lt_nmeta
    omega
  simp only [bitSet, Function.update_of_ne hne]

lemma freeBlocks_of_bits {d d' : Disk} {b : Nat}
    (hbits : ∀ c, c < sb.size → bitSet d' c = (bitSet d c || decide (c = b))) :
    freeBlocks d' = (freeBlocks d).erase b := by
  ext c
  simp only [freeBlocks, Finset.mem_erase, Finset.mem_filter, Finset.mem_range]
  constructor
  · rintro ⟨hc, hfree⟩
    rw [hbits c hc, Bool.or_eq_false_iff, decide_eq_false_iff_not] at hfree
    exact ⟨hfree.2, hc, hfree.1⟩
  · rintro ⟨hne, hc, hfree⟩
    refine ⟨hc, ?_⟩
    rw [hbits c hc, hfree]
    simp [hne]

lemma card_freeBlocks_of_bits {d d' : Disk} {b : Nat}
    (hbits : ∀ c, c < sb.size → bitSet d' c = (bitSet d c || decide (c = b)))
    (hb : b < sb.size) (hfree : bitSet d b = false) :
    (freeBlocks d).card = (freeBlocks d').card + 1 := by
  have hmem : b ∈ freeBlocks d := by
    simp only [freeBlocks, Finset.mem_filter, Finset.mem_range]
    exact ⟨hb, hfree⟩
  rw [freeBlocks_of_bits hbits, Finset.card_erase_add_one hmem]

lemma Used.ne_of_free {d : Disk} {a b : Nat} (hu : Used d a) (hb : bitSet d b = false) : a ≠ b := by
  rintro rfl
  rw [hu.2.2] at hb
  cases hb

lemma Used.of_bits {d d' : Disk} {a b : Nat} (hu : Used d a)
    (hbits : ∀ c, c < sb.size → bitSet d' c = (bitSet d c || decide (c = b))) : Used d' a :=
  ⟨hu.1, hu.2.1, by rw [hbits a hu.2.1, hu.2.2, Bool.true_or]⟩

section Balloc

variable {d d' : Disk} {b : Nat}

lemma balloc_eq_some (h : balloc d = some (d', b)) :
    (List.range sb.size).find? (fun b => !bitSet d b) = some b ∧
      d' = ⟨Function.update (Function.update d.blocks (bblock b) (Function.update
        (d.blocks (bblock b)) (b % bpb / 8) (d.blocks (bblock b) (b % bpb / 8) ||| Bytes.bit (b % 8))))
        b Bytes.zero, d.inodes⟩ := by
  unfold balloc at h
  split at h
  · cases h
  · rename_i b' hb'
    cases h
    exact ⟨hb', rfl⟩

lemma balloc_free (h : balloc d = some (d', b)) : b < sb.size ∧ bitSet d b = false := by
  have hf := (balloc_eq_some h).1
  rw [List.find?_range_eq_some] at hf
  exact ⟨List.mem_range.mp hf.2.1, by simpa using hf.1⟩

lemma balloc_of_card_pos (h : 0 < (freeBlocks d).card) : ∃ d' b, balloc d = some (d', b) := by
  obtain ⟨b, hb⟩ := Finset.card_pos.mp h
  simp only [freeBlocks, Finset.mem_filter, Finset.mem_range] at hb
  cases hf : (List.range sb.size).find? (fun b => !bitSet d b) with
  | none =>
    rw [List.find?_eq_none] at hf
    have := hf b (List.mem_range.mpr hb.1)
    simp [hb.2] at this
  | some b' => exact ⟨_, b', by unfold balloc; rw [hf]⟩

lemma blocks_balloc (h : balloc d = some (d', b)) {c : Nat} (hc : nmeta ≤ c) :
    d'.blocks c = if c = b then Bytes.zero else d.blocks c := by
  have hne : c ≠ bblock b := by
    rw [bblock_of_lt_size (balloc_free h).1]
    have := bmapstart_lt_nmeta
    omega
  rw [(balloc_eq_some h).2]
  simp only [Function.update_apply, if_neg hne]

lemma Used.blocks_balloc {a : Nat} (ha : Used d a) (h : balloc d = some (d', b)) :
    d'.blocks a = d.blocks a := by
  rw [Fs.blocks_balloc h ha.1, if_neg (ha.ne_of_free (balloc_free h).2)]

variable (hmeta : ∀ c, c < nmeta → bitSet d c = true)
include hmeta

lemma balloc_past_meta (h : balloc d = some (d', b)) : nmeta ≤ b := by
  by_contra hlt
  have hset := hmeta b (by omega)
  rw [(balloc_free h).2] at hset
  cases hset

lemma blocks_balloc_self (h : balloc d = some (d', b)) : d'.blocks b = Bytes.zero := by
  rw [blocks_balloc h (balloc_past_meta hmeta h), if_pos rfl]

lemma bitSet_balloc (h : balloc d = some (d', b)) {c : Nat} (hc : c < sb.size) :
    bitSet d' c = (bitSet d c || decide (c = b)) := by
  have hb := (balloc_free h).1
  have hbc : bblock c = bblock b := by rw [bblock_of_lt_size hc, bblock_of_lt_size hb]
  have hne : bblock b ≠ b := by
    have := balloc_past_meta hmeta h
    rw [bblock_of_lt_size hb]
    have := bmapstart_lt_nmeta
    omega
  have hcb : c % bpb = c ∧ b % bpb = b := by
    simp only [bpb, bsize, sb, fsSize] at hb hc ⊢
    omega
  rw [(balloc_eq_some h).2]
  simp only [bitSet, hbc]
  rw [Function.update_of_ne hne, Function.update_self]
  by_cases hbyte : c % bpb / 8 = b % bpb / 8
  · rw [hbyte, Function.update_self, Bytes.and_bit_ne_zero _ (Nat.mod_lt _ (by decide)),
      Bytes.and_bit_ne_zero _ (Nat.mod_lt _ (by decide)),
      Bytes.testBit_or_bit _ (Nat.mod_lt _ (by decide))]
    have hiff : b % 8 = c % 8 ↔ c = b := by omega
    simp only [decide_eq_decide.mpr hiff]
  · have hcb' : c ≠ b := fun e => hbyte (by rw [e])
    rw [Function.update_of_ne hbyte]
    simp [hcb']

lemma card_freeBlocks_balloc (h : balloc d = some (d', b)) :
    (freeBlocks d).card = (freeBlocks d').card + 1 :=
  card_freeBlocks_of_bits (fun _ hc => bitSet_balloc hmeta h hc) (balloc_free h).1
    (balloc_free h).2

end Balloc

lemma getU32_zero (k : Nat) : Bytes.getU32 Bytes.zero k = 0 := by
  simp [Bytes.getU32, Bytes.zero]

structure Owned (d : Disk) (ip : Dinode) : Prop where
  metaUsed : ∀ c, c < nmeta → bitSet d c = true
  size_le : ip.size ≤ maxFile * bsize
  indirect : ip.addrs nDirect ≠ 0 → Used d (ip.addrs nDirect)
  data : ∀ bn, bn < maxFile → blockAddr d ip bn ≠ 0 → Used d (blockAddr d ip bn)
  data_ne : ∀ bn, bn < maxFile → blockAddr d ip bn ≠ 0 → blockAddr d ip bn ≠ ip.addrs nDirect
  inj : ∀ bn bn', bn < maxFile → bn' < maxFile → blockAddr d ip bn ≠ 0 →
    blockAddr d ip bn = blockAddr d ip bn' → bn = bn'

section Owned

variable {d d' : Disk} {ip ip' : Dinode} {bn b : Nat}

lemma Owned.past_meta (h : Owned d ip) (hb : bitSet d b = false) : nmeta ≤ b := by
  by_contra hlt
  rw [h.metaUsed b (by omega)] at hb
  cases hb

lemma Owned.transfer (h : Owned d ip) (hmeta : ∀ c, c < nmeta → bitSet d' c = true)
    (hsize : ip'.size ≤ maxFile * bsize) (hmap : ∀ bn', blockAddr d' ip' bn' = blockAddr d ip bn')
    (hused : ∀ a, Used d a → Used d' a) (hind : ip'.addrs nDirect ≠ 0 → Used d' (ip'.addrs nDirect))
    (hne : ∀ bn', bn' < maxFile → blockAddr d ip bn' ≠ 0 → blockAddr d ip bn' ≠ ip'.addrs nDirect) :
    Owned d' ip' := by
  refine ⟨hmeta, hsize, hind, fun bn' hbn' hz => ?_, fun bn' hbn' hz => ?_,
    fun bn' bn'' hbn' hbn'' hz heq => ?_⟩
  · rw [hmap] at hz ⊢
    exact hused _ (h.data bn' hbn' hz)
  · rw [hmap] at hz ⊢
    exact hne bn' hbn' hz
  · rw [hmap, hmap] at heq
    rw [hmap] at hz
    exact h.inj bn' bn'' hbn' hbn'' hz heq

lemma Owned.fill (h : Owned d ip) (hhole : blockAddr d ip bn = 0) (hb : b < sb.size)
    (hfree : bitSet d b = false)
    (hbits : ∀ c, c < sb.size → bitSet d' c = (bitSet d c || decide (c = b)))
    (hzero : d'.blocks b = Bytes.zero)
    (hblocks : ∀ a, Used d a → a ≠ ip.addrs nDirect → d'.blocks a = d.blocks a)
    (hsize : ip'.size = ip.size) (hind : ip'.addrs nDirect = ip.addrs nDirect)
    (hmap : ∀ bn', blockAddr d' ip' bn' = if bn' = bn then b else blockAddr d ip bn') :
    Owned d' ip' ∧ byteAt d' ip' = byteAt d ip := by
  have hbm := h.past_meta hfree
  have hused : Used d' b := ⟨hbm, hb, by simp [hbits b hb]⟩
  have hbind : b ≠ ip.addrs nDirect := by
    by_cases hI : ip.addrs nDirect = 0
    · rw [hI]
      exact ne_zero_of_nmeta_le hbm
    · exact ((h.indirect hI).ne_of_free hfree).symm
  refine ⟨⟨fun c hc => ?_, hsize ▸ h.size_le, fun hI => ?_, fun bn' hbn' hne => ?_,
    fun bn' hbn' hne => ?_, fun bn' bn'' hbn' hbn'' hne heq => ?_⟩, ?_⟩
  · rw [hbits c (lt_trans hc nmeta_lt_size), h.metaUsed c hc, Bool.true_or]
  · rw [hind] at hI ⊢
    exact (h.indirect hI).of_bits hbits
  · rw [hmap] at hne ⊢
    split_ifs at hne ⊢
    · exact hused
    · exact (h.data bn' hbn' hne).of_bits hbits
  · rw [hmap] at hne
    rw [hmap, hind]
    split_ifs at hne ⊢
    · exact hbind
    · exact h.data_ne bn' hbn' hne
  · rw [hmap, hmap] at heq
    rw [hmap] at hne
    split_ifs at heq hne with h₁ h₂ h₂
    · rw [h₁, h₂]
    · exact absurd heq ((h.data bn'' hbn'' (heq ▸ hne)).ne_of_free hfree).symm
    · exact absurd heq ((h.data bn' hbn' hne).ne_of_free hfree)
    · exact h.inj bn' bn'' hbn' hbn'' hne heq
  · funext x
    simp only [byteAt, hmap]
    by_cases hx : x / bsize = bn
    · simp only [hx, if_true, hhole, ne_eq, not_true_eq_false, and_false, if_false, hzero]
      split_ifs <;> rfl
    · simp only [hx, if_false]
      split_ifs with hin
      · rw [hblocks _ (h.data _ hin.1 hin.2) (h.data_ne _ hin.1 hin.2)]
      · rfl

lemma Owned.allocIndirect {d₁ : Disk} (h : Owned d ip) (hI : ip.addrs nDirect = 0)
    (hb : balloc d = some (d₁, b)) :
    Owned d₁ { ip with addrs := Function.update ip.addrs nDirect b } ∧
      (∀ bn', blockAddr d₁ { ip with addrs := Function.update ip.addrs nDirect b } bn' =
        blockAddr d ip bn') ∧
      byteAt d₁ { ip with addrs := Function.update ip.addrs nDirect b } = byteAt d ip := by
  have hbm := balloc_past_meta h.metaUsed hb
  have hbits := fun c (hc : c < sb.size) => bitSet_balloc h.metaUsed hb hc
  have hmap : ∀ bn', blockAddr d₁ { ip with addrs := Function.update ip.addrs nDirect b } bn' =
      blockAddr d ip bn' := by
    intro bn'
    unfold blockAddr
    dsimp only
    by_cases hlt : bn' < nDirect
    · rw [if_pos hlt, if_pos hlt, Function.update_of_ne (by omega)]
    · simp only [if_neg hlt, Function.update_self, ne_zero_of_nmeta_le hbm, hI, if_false, if_true,
        blocks_balloc_self h.metaUsed hb, getU32_zero]
  refine ⟨h.transfer (fun c hc => ?_) h.size_le hmap (fun a ha => ha.of_bits hbits)
    (fun _ => ?_) (fun bn' hbn' hne => ?_), hmap, ?_⟩
  · rw [hbits c (lt_trans hc nmeta_lt_size), h.metaUsed c hc, Bool.true_or]
  · exact ⟨hbm, (balloc_free hb).1, by simp [hbits b (balloc_free hb).1]⟩
  · simp only [Function.update_self]
    exact (h.data bn' hbn' hne).ne_of_free (balloc_free hb).2
  · funext x
    simp only [byteAt, hmap]
    split_ifs with hin
    · rw [(h.data _ hin.1 hin.2).blocks_balloc hb]
    · rfl

end Owned

def allocations (d : Disk) (ip : Dinode) (bns : List Nat) : Nat :=
  bns.countP (fun bn => blockAddr d ip bn = 0) +
    if bns.any (fun bn => nDirect ≤ bn) ∧ ip.addrs nDirect = 0 then 1 else 0

section Bmap

variable {d d' d₁ : Disk} {ip ip' ip₁ : Dinode} {bn b a : Nat}

lemma blockAddr_of_indirect (hbn : nDirect ≤ bn) (hI : ip.addrs nDirect ≠ 0) :
    blockAddr d ip bn = Bytes.getU32 (d.blocks (ip.addrs nDirect)) (bn - nDirect) := by
  simp [blockAddr, Nat.not_lt.mpr hbn, hI]

lemma sub_nDirect_lt (hbn : bn < maxFile) : bn - nDirect < nIndirect := by
  simp only [maxFile, nIndirect, bsize] at hbn ⊢
  omega

lemma bmap_of_bmapAddr (hbn : nDirect ≤ bn) (hbn' : bn < maxFile)
    (hA : bmapAddr d ip nDirect = some (d₁, ip₁)) (hI : ip₁.addrs nDirect ≠ 0) :
    bmap d ip bn = bmap d₁ ip₁ bn := by
  have hA₁ : bmapAddr d₁ ip₁ nDirect = some (d₁, ip₁) := by simp [bmapAddr, hI]
  simp only [bmap, if_neg (Nat.not_lt.mpr hbn), if_pos (sub_nDirect_lt hbn'), hA, hA₁]

lemma bmap_of_entry (hbn : nDirect ≤ bn) (hbn' : bn < maxFile) (hI : ip.addrs nDirect ≠ 0)
    (he : blockAddr d ip bn ≠ 0) : bmap d ip bn = some (d, ip, blockAddr d ip bn) := by
  rw [blockAddr_of_indirect hbn hI] at he ⊢
  simp [bmap, bmapAddr, Nat.not_lt.mpr hbn, sub_nDirect_lt hbn', hI, he]

lemma bmap_of_entry_hole (hbn : nDirect ≤ bn) (hbn' : bn < maxFile) (hI : ip.addrs nDirect ≠ 0)
    (he : blockAddr d ip bn = 0) (hb : balloc d = some (d₁, b)) :
    bmap d ip bn = some (⟨Function.update d₁.blocks (ip.addrs nDirect)
      (Bytes.setU32 (d.blocks (ip.addrs nDirect)) (bn - nDirect) b), d₁.inodes⟩, ip, b) := by
  rw [blockAddr_of_indirect hbn hI] at he
  simp [bmap, bmapAddr, Nat.not_lt.mpr hbn, sub_nDirect_lt hbn', hI, he, hb]

lemma allocations_single (d : Disk) (ip : Dinode) (bn : Nat) :
    allocations d ip [bn] = (if blockAddr d ip bn = 0 then 1 else 0) +
      if nDirect ≤ bn ∧ ip.addrs nDirect = 0 then 1 else 0 := by
  simp [allocations, List.countP_cons]

structure BmapResult (d : Disk) (ip : Dinode) (bn : Nat) (d' : Disk) (ip' : Dinode) (a : Nat) :
    Prop where
  owned : Owned d' ip'
  addr_ne : a ≠ 0
  addr : blockAddr d' ip' bn = a
  other : ∀ bn', bn' ≠ bn → blockAddr d' ip' bn' = blockAddr d ip bn'
  content : byteAt d' ip' = byteAt d ip
  size : ip'.size = ip.size
  type : ip'.type = ip.type
  indirect : ip'.addrs nDirect = 0 ↔ ip.addrs nDirect = 0 ∧ bn < nDirect
  free : (freeBlocks d).card = (freeBlocks d').card + allocations d ip [bn]

lemma BmapResult.present (h : Owned d ip) (hne : blockAddr d ip bn ≠ 0) :
    BmapResult d ip bn d ip (blockAddr d ip bn) := by
  have hflag : ¬(nDirect ≤ bn ∧ ip.addrs nDirect = 0) := by
    rintro ⟨hbn, hI⟩
    simp [blockAddr, Nat.not_lt.mpr hbn, hI] at hne
  refine ⟨h, hne, rfl, fun _ _ => rfl, rfl, rfl, rfl, ?_, ?_⟩
  · constructor
    · intro hI
      exact ⟨hI, Nat.lt_of_not_le fun hbn => hflag ⟨hbn, hI⟩⟩
    · exact fun h => h.1
  · rw [allocations_single, if_neg hne, if_neg hflag, Nat.add_zero]

lemma BmapResult.fill (h : Owned d ip) (hhole : blockAddr d ip bn = 0)
    (hflag : bn < nDirect ∨ ip.addrs nDirect ≠ 0) (hb : b < sb.size) (hfree : bitSet d b = false)
    (hbits : ∀ c, c < sb.size → bitSet d' c = (bitSet d c || decide (c = b)))
    (hzero : d'.blocks b = Bytes.zero)
    (hblocks : ∀ a, Used d a → a ≠ ip.addrs nDirect → d'.blocks a = d.blocks a)
    (hsize : ip'.size = ip.size) (htype : ip'.type = ip.type)
    (hind : ip'.addrs nDirect = ip.addrs nDirect)
    (hmap : ∀ bn', blockAddr d' ip' bn' = if bn' = bn then b else blockAddr d ip bn') :
    BmapResult d ip bn d' ip' b := by
  obtain ⟨howned, hcontent⟩ := h.fill hhole hb hfree hbits hzero hblocks hsize hind hmap
  refine ⟨howned, ne_zero_of_nmeta_le (h.past_meta hfree), by rw [hmap, if_pos rfl],
    fun bn' hne => by rw [hmap, if_neg hne], hcontent, hsize, htype, ?_, ?_⟩
  · rw [hind]
    constructor
    · intro hI
      exact ⟨hI, hflag.resolve_right (not_not.mpr hI)⟩
    · exact fun h => h.1
  · have hflag' : ¬(nDirect ≤ bn ∧ ip.addrs nDirect = 0) := by
      rintro ⟨hbn, hI⟩
      rcases hflag with hlt | hne
      · omega
      · exact hne hI
    rw [card_freeBlocks_of_bits hbits hb hfree, allocations_single, if_pos hhole, if_neg hflag']

lemma BmapResult.afterIndirect (h : Owned d ip) (hI : ip.addrs nDirect = 0) (hbn : nDirect ≤ bn)
    (hb : balloc d = some (d₁, b))
    (hr : BmapResult d₁ { ip with addrs := Function.update ip.addrs nDirect b } bn d' ip' a) :
    BmapResult d ip bn d' ip' a := by
  obtain ⟨-, hmap, hcontent⟩ := h.allocIndirect hI hb
  have hhole : blockAddr d ip bn = 0 := by simp [blockAddr, Nat.not_lt.mpr hbn, hI]
  refine ⟨hr.owned, hr.addr_ne, hr.addr, fun bn' hne => by rw [hr.other bn' hne, hmap],
    hr.content.trans hcontent, hr.size, hr.type, ?_, ?_⟩
  · rw [hr.indirect]
    simp [Nat.not_lt.mpr hbn]
  · rw [card_freeBlocks_balloc h.metaUsed hb, hr.free, allocations_single, allocations_single,
      hmap, hhole]
    simp [hI, hbn, ne_zero_of_nmeta_le (balloc_past_meta h.metaUsed hb)]

lemma bmap_spec_of_indirect (h : Owned d ip) (hbn : nDirect ≤ bn) (hbn' : bn < maxFile)
    (hI : ip.addrs nDirect ≠ 0) (hfree : allocations d ip [bn] ≤ (freeBlocks d).card) :
    ∃ d' ip' a, bmap d ip bn = some (d', ip', a) ∧ BmapResult d ip bn d' ip' a := by
  by_cases he : blockAddr d ip bn = 0
  · rw [allocations_single, if_pos he] at hfree
    obtain ⟨d₁, b, hb⟩ := balloc_of_card_pos (d := d) (by omega)
    have hIu := h.indirect hI
    have hbI : b ≠ ip.addrs nDirect := (hIu.ne_of_free (balloc_free hb).2).symm
    refine ⟨_, _, _, bmap_of_entry_hole hbn hbn' hI he hb,
      BmapResult.fill h he (Or.inr hI) (balloc_free hb).1 (balloc_free hb).2 (fun c hc => ?_) ?_
        (fun a ha haI => ?_) rfl rfl rfl (fun bn' => ?_)⟩
    · rw [bitSet_update hIu.1 _ hc, bitSet_balloc h.metaUsed hb hc]
    · simp only [Function.update_of_ne hbI]
      exact blocks_balloc_self h.metaUsed hb
    · simp only [Function.update_of_ne haI]
      exact ha.blocks_balloc hb
    · have hb32 : b < 2 ^ 32 := by
        have := (balloc_free hb).1
        simp only [sb, fsSize] at this
        omega
      by_cases hlt : bn' < nDirect
      · have hne : bn' ≠ bn := by omega
        simp [blockAddr, hlt, hne]
      · rw [blockAddr_of_indirect (Nat.le_of_not_lt hlt) hI,
          blockAddr_of_indirect (Nat.le_of_not_lt hlt) hI]
        simp only [Function.update_self]
        by_cases hbb : bn' = bn
        · rw [if_pos hbb, hbb, Bytes.getU32_setU32_self _ _ hb32]
        · rw [if_neg hbb, Bytes.getU32_setU32_of_ne _ _ (by omega)]
  · exact ⟨d, ip, _, bmap_of_entry hbn hbn' hI he, BmapResult.present h he⟩

theorem bmap_spec (h : Owned d ip) (hbn : bn < maxFile)
    (hfree : allocations d ip [bn] ≤ (freeBlocks d).card) :
    ∃ d' ip' a, bmap d ip bn = some (d', ip', a) ∧ BmapResult d ip bn d' ip' a := by
  rcases Nat.lt_or_ge bn nDirect with hdir | hind
  · have haddr : blockAddr d ip bn = ip.addrs bn := by simp [blockAddr, hdir]
    by_cases he : ip.addrs bn = 0
    · have hhole : blockAddr d ip bn = 0 := haddr.trans he
      rw [allocations_single, if_pos hhole] at hfree
      obtain ⟨d₁, b, hb⟩ := balloc_of_card_pos (d := d) (by omega)
      refine ⟨_, _, _, bmap_of_hole hdir he hb,
        BmapResult.fill h hhole (Or.inl hdir) (balloc_free hb).1 (balloc_free hb).2
          (fun c hc => bitSet_balloc h.metaUsed hb hc) (blocks_balloc_self h.metaUsed hb)
          (fun a ha _ => ha.blocks_balloc hb) rfl rfl
          (by simp [Function.update_of_ne (show nDirect ≠ bn by omega)]) (fun bn' => ?_)⟩
      by_cases hlt : bn' < nDirect
      · simp [blockAddr, hlt, Function.update_apply]
      · have hne : bn' ≠ bn := by omega
        simp only [blockAddr, hlt, if_false, hne, Function.update_of_ne (show nDirect ≠ bn by omega)]
        split_ifs with hI
        · rfl
        · rw [(h.indirect hI).blocks_balloc hb]
    · exact ⟨d, ip, _, bmap_of_addr hdir he, haddr ▸ BmapResult.present h (haddr ▸ he)⟩
  · by_cases hI : ip.addrs nDirect = 0
    · have hhole : blockAddr d ip bn = 0 := by simp [blockAddr, Nat.not_lt.mpr hind, hI]
      rw [allocations_single, if_pos hhole, if_pos ⟨hind, hI⟩] at hfree
      obtain ⟨d₁, b, hb⟩ := balloc_of_card_pos (d := d) (by omega)
      obtain ⟨h₁, hmap₁, -⟩ := h.allocIndirect hI hb
      have hA : bmapAddr d ip nDirect =
          some (d₁, { ip with addrs := Function.update ip.addrs nDirect b }) := by
        simp [bmapAddr, hI, hb]
      have hI₁ : ({ ip with addrs := Function.update ip.addrs nDirect b } : Dinode).addrs nDirect ≠ 0 := by
        simpa using ne_zero_of_nmeta_le (balloc_past_meta h.metaUsed hb)
      have hfree₁ : allocations d₁ { ip with addrs := Function.update ip.addrs nDirect b } [bn] ≤
          (freeBlocks d₁).card := by
        have hcard := card_freeBlocks_balloc h.metaUsed hb
        rw [allocations_single, hmap₁, if_pos hhole, if_neg (fun hc => hI₁ hc.2)]
        omega
      obtain ⟨d', ip', a, hbm, hr⟩ := bmap_spec_of_indirect h₁ hind hbn hI₁ hfree₁
      exact ⟨d', ip', a, (bmap_of_bmapAddr hind hbn hA hI₁).trans hbm, hr.afterIndirect h hI hind hb⟩
    · exact bmap_spec_of_indirect h hind hbn hI hfree

lemma BmapResult.allocations_cons (hr : BmapResult d ip bn d' ip' a) {rest : List Nat}
    (hrest : bn ∉ rest) :
    allocations d ip (bn :: rest) = allocations d ip [bn] + allocations d' ip' rest := by
  have hcount : rest.countP (fun bn' => blockAddr d' ip' bn' = 0) =
      rest.countP (fun bn' => blockAddr d ip bn' = 0) :=
    List.countP_congr fun x hx => by rw [hr.other x (fun e => hrest (e ▸ hx))]
  simp only [allocations, List.countP_cons, List.countP_nil, List.any_cons, List.any_nil, hcount]
  by_cases hI : ip.addrs nDirect = 0
  · by_cases hbn : nDirect ≤ bn
    · simp [hI, hbn, hr.indirect, Nat.not_lt.mpr hbn]
      omega
    · simp [hI, hbn, hr.indirect, Nat.lt_of_not_le hbn]
      omega
  · simp [hI, hr.indirect]
    omega

end Bmap

def touched (off n : Nat) : List Nat :=
  if n = 0 then [] else List.range' (off / bsize) ((off + n - 1) / bsize + 1 - off / bsize)

section Touched

variable {off n : Nat}

lemma touched_cons (hn : 0 < n) :
    touched off n = off / bsize ::
      touched (off + min n (bsize - off % bsize)) (n - min n (bsize - off % bsize)) := by
  unfold touched
  rw [if_neg (by omega)]
  by_cases hlast : n ≤ bsize - off % bsize
  · have hK : (off + n - 1) / bsize + 1 - off / bsize = 1 := by
      simp only [bsize] at hlast ⊢
      omega
    rw [hK, Nat.min_eq_left hlast, Nat.sub_self, if_pos rfl]
    rfl
  · have hpos : 0 < (off + n - 1) / bsize + 1 - off / bsize := by
      simp only [bsize] at hlast ⊢
      omega
    obtain ⟨c, hc⟩ : ∃ c, (off + n - 1) / bsize + 1 - off / bsize = c + 1 :=
      ⟨_, (Nat.succ_pred_eq_of_pos hpos).symm⟩
    have hm : min n (bsize - off % bsize) = bsize - off % bsize := Nat.min_eq_right (by omega)
    have hnext : (off + (bsize - off % bsize)) / bsize = off / bsize + 1 := by
      simp only [bsize]
      omega
    have hc' : (off + (bsize - off % bsize) + (n - (bsize - off % bsize)) - 1) / bsize + 1 -
        (off / bsize + 1) = c := by
      simp only [bsize] at hlast hc ⊢
      omega
    rw [hc, List.range'_succ, hm, if_neg (by omega), hnext, hc']

lemma mem_touched {bn : Nat} :
    bn ∈ touched off n ↔ 0 < n ∧ off / bsize ≤ bn ∧ bn ≤ (off + n - 1) / bsize := by
  unfold touched
  split_ifs with hn
  · simp [hn]
  · rw [List.mem_range'_1]
    have : off / bsize ≤ (off + n - 1) / bsize := Nat.div_le_div_right (by omega)
    omega

lemma touched_lt_maxFile (hmax : off + n ≤ maxFile * bsize) {bn : Nat} (h : bn ∈ touched off n) :
    bn < maxFile := by
  obtain ⟨hn, -, hle⟩ := mem_touched.mp h
  have : (off + n - 1) / bsize < maxFile := by
    rw [Nat.div_lt_iff_lt_mul (by decide)]
    omega
  omega

lemma not_mem_touched_rest :
    off / bsize ∉ touched (off + min n (bsize - off % bsize)) (n - min n (bsize - off % bsize)) := by
  intro h
  obtain ⟨hn, hle, -⟩ := mem_touched.mp h
  have hm : min n (bsize - off % bsize) = bsize - off % bsize := Nat.min_eq_right (by omega)
  rw [hm] at hle
  simp only [bsize] at hle
  omega

end Touched

section WriteBlock

variable {d : Disk} {ip : Dinode} {bn pos : Nat} {p : List UInt8}

lemma blockAddr_writeBlock (d : Disk) {x : Nat} (pos : Nat) (p : List UInt8)
    (hx : x ≠ ip.addrs nDirect) (bn' : Nat) :
    blockAddr (writeBlock d x pos p) ip bn' = blockAddr d ip bn' := by
  simp [blockAddr, writeBlock, Function.update_of_ne hx.symm]

lemma Owned.onWriteBlock (h : Owned d ip) (hbn : bn < maxFile) (ha : blockAddr d ip bn ≠ 0)
    (hpos : pos + p.length ≤ bsize) :
    Owned (writeBlock d (blockAddr d ip bn) pos p) ip ∧
      (∀ bn', blockAddr (writeBlock d (blockAddr d ip bn) pos p) ip bn' = blockAddr d ip bn') ∧
      freeBlocks (writeBlock d (blockAddr d ip bn) pos p) = freeBlocks d ∧
      byteAt (writeBlock d (blockAddr d ip bn) pos p) ip =
        Bytes.write (byteAt d ip) (bn * bsize + pos) p := by
  have hmap := blockAddr_writeBlock d pos p (h.data_ne bn hbn ha)
  have hbits : ∀ c, c < sb.size → bitSet (writeBlock d (blockAddr d ip bn) pos p) c = bitSet d c :=
    fun _ hc => bitSet_update (h.data bn hbn ha).1 _ hc
  have hused : ∀ a, Used d a → Used (writeBlock d (blockAddr d ip bn) pos p) a :=
    fun a ha => ⟨ha.1, ha.2.1, by rw [hbits a ha.2.1, ha.2.2]⟩
  refine ⟨h.transfer (fun c hc => by rw [hbits c (lt_trans hc nmeta_lt_size)]; exact h.metaUsed c hc)
    h.size_le hmap hused (fun hI => hused _ (h.indirect hI)) h.data_ne, hmap, ?_, ?_⟩
  · ext c
    simp only [freeBlocks, Finset.mem_filter, Finset.mem_range]
    constructor
    · rintro ⟨hc, hb⟩
      exact ⟨hc, (hbits c hc) ▸ hb⟩
    · rintro ⟨hc, hb⟩
      exact ⟨hc, (hbits c hc).symm ▸ hb⟩
  · funext y
    simp only [byteAt, hmap]
    by_cases hy : y / bsize = bn
    · have hsplit : y = bn * bsize + y % bsize := by
        rw [← hy]
        exact (Nat.div_add_mod' y bsize).symm
      simp only [hy, hbn, ha, ne_eq, not_false_eq_true, and_self, if_true, writeBlock,
        Function.update_self, Bytes.write]
      by_cases hin : pos ≤ y % bsize ∧ y % bsize < pos + p.length
      · rw [if_pos hin, if_pos (by omega)]
        congr 1
        omega
      · rw [if_neg hin, if_neg (by omega)]
        simp [byteAt, hy, hbn, ha]
    · have hout : ¬(bn * bsize + pos ≤ y ∧ y < bn * bsize + pos + p.length) := by
        intro hin
        apply hy
        apply Nat.div_eq_of_lt_le
        · omega
        · rw [Nat.add_mul, Nat.one_mul]
          omega
      simp only [Bytes.write, if_neg hout, byteAt]
      split_ifs with hin
      · have hne : blockAddr d ip (y / bsize) ≠ blockAddr d ip bn := fun e =>
          hy (h.inj _ _ hin.1 hbn hin.2 e)
        simp [writeBlock, Function.update_of_ne hne]
      · rfl

end WriteBlock

section Loops

variable {d : Disk} {ip : Dinode}

lemma allocations_congr {d' : Disk} (hmap : ∀ bn, blockAddr d' ip bn = blockAddr d ip bn)
    (bns : List Nat) : allocations d' ip bns = allocations d ip bns := by
  simp only [allocations, hmap]

lemma allocations_single_le (bn : Nat) (rest : List Nat) :
    allocations d ip [bn] ≤ allocations d ip (bn :: rest) := by
  simp only [allocations, List.countP_cons, List.countP_nil, List.any_cons, List.any_nil]
  by_cases hI : ip.addrs nDirect = 0 <;> by_cases hb : nDirect ≤ bn <;> simp [hI, hb]
  all_goals omega

lemma round_bmap {off n : Nat} (h : Owned d ip) (hn : 0 < n) (hmax : off + n ≤ maxFile * bsize)
    (hfree : allocations d ip (touched off n) ≤ (freeBlocks d).card) :
    off / bsize < maxFile ∧ ∃ d₁ ip₁ a, bmap d ip (off / bsize) = some (d₁, ip₁, a) ∧
      BmapResult d ip (off / bsize) d₁ ip₁ a ∧
      allocations d₁ ip₁ (touched (off + min n (bsize - off % bsize)) (n - min n (bsize - off % bsize)))
        ≤ (freeBlocks d₁).card := by
  rw [touched_cons hn] at hfree
  have hbn : off / bsize < maxFile :=
    touched_lt_maxFile hmax (by rw [touched_cons hn]; exact List.mem_cons_self)
  obtain ⟨d₁, ip₁, a, hb, hr⟩ := bmap_spec h hbn (le_trans (allocations_single_le _ _) hfree)
  refine ⟨hbn, d₁, ip₁, a, hb, hr, ?_⟩
  have hsplit := hr.allocations_cons (@not_mem_touched_rest off n)
  have hcard := hr.free
  omega

theorem writeiLoop_spec {fuel off : Nat} {src : List UInt8} (h : Owned d ip)
    (hfuel : src.length ≤ fuel) (hmax : off + src.length ≤ maxFile * bsize)
    (hfree : allocations d ip (touched off src.length) ≤ (freeBlocks d).card) :
    ∃ d' ip', writeiLoop fuel d ip off src = some (d', ip') ∧ Owned d' ip' ∧
      byteAt d' ip' = Bytes.write (byteAt d ip) off src ∧ ip'.size = ip.size ∧
      ip'.type = ip.type := by
  induction fuel generalizing d ip off src with
  | zero =>
    rw [List.length_eq_zero_iff.mp (Nat.le_zero.mp hfuel)]
    exact ⟨d, ip, rfl, h, (Bytes.write_nil _ _).symm, rfl, rfl⟩
  | succ fuel ih =>
    cases src with
    | nil => exact ⟨d, ip, rfl, h, (Bytes.write_nil _ _).symm, rfl, rfl⟩
    | cons c cs =>
      have hn : 0 < (c :: cs).length := by simp
      obtain ⟨hbn, d₁, ip₁, a, hb, hr, hfree₁⟩ := round_bmap h hn hmax hfree
      set m := min (c :: cs).length (bsize - off % bsize) with hm
      have htake : ((c :: cs).take m).length = m := by
        rw [List.length_take]
        omega
      have hmod : off % bsize < bsize := Nat.mod_lt _ (by decide)
      have hfit : off % bsize + ((c :: cs).take m).length ≤ bsize := by
        omega
      have ha : blockAddr d₁ ip₁ (off / bsize) ≠ 0 := hr.addr ▸ hr.addr_ne
      obtain ⟨h₂, hmap₂, hfree₂, hcontent₂⟩ := hr.owned.onWriteBlock hbn ha hfit
      rw [hr.addr, Nat.div_add_mod', hr.content] at hcontent₂
      rw [hr.addr] at h₂ hmap₂ hfree₂
      have hdrop : ((c :: cs).drop m).length = (c :: cs).length - m := List.length_drop
      have hfuel' : ((c :: cs).drop m).length ≤ fuel := by
        omega
      have hmax' : off + m + ((c :: cs).drop m).length ≤ maxFile * bsize := by
        rw [hdrop]
        omega
      have hfree' : allocations (writeBlock d₁ a (off % bsize) ((c :: cs).take m)) ip₁
          (touched (off + m) ((c :: cs).drop m).length) ≤
          (freeBlocks (writeBlock d₁ a (off % bsize) ((c :: cs).take m))).card := by
        rw [allocations_congr hmap₂, hfree₂, hdrop]
        exact hfree₁
      obtain ⟨d', ip', hloop, h', hcontent, hsize, htype⟩ := ih h₂ hfuel' hmax' hfree'
      refine ⟨d', ip', ?_, h', ?_, hsize.trans hr.size, htype.trans hr.type⟩
      · simp only [writeiLoop, hb]
        exact hloop
      · have hjoin := Bytes.write_append (byteAt d ip) off ((c :: cs).take m) ((c :: cs).drop m)
        rw [htake, List.take_append_drop] at hjoin
        rw [hcontent, hcontent₂, hjoin]

lemma read_block {off m a : Nat} (hbn : off / bsize < maxFile)
    (ha : blockAddr d ip (off / bsize) = a) (ha0 : a ≠ 0) (hfit : off % bsize + m ≤ bsize) :
    Bytes.read (d.blocks a) (off % bsize) m = Bytes.read (byteAt d ip) off m := by
  unfold Bytes.read
  apply List.map_congr_left
  intro k hk
  rw [List.mem_range] at hk
  have hdiv : (off + k) / bsize = off / bsize := by
    simp only [bsize] at hfit ⊢
    omega
  have hmod : (off + k) % bsize = off % bsize + k := by
    simp only [bsize] at hfit ⊢
    omega
  simp [byteAt, hdiv, hmod, hbn, ha, ha0]

theorem readiLoop_spec {fuel off n : Nat} (h : Owned d ip) (hfuel : n ≤ fuel)
    (hmax : off + n ≤ maxFile * bsize)
    (hfree : allocations d ip (touched off n) ≤ (freeBlocks d).card) :
    ∃ d' ip', readiLoop fuel d ip off n = some (d', ip', Bytes.read (byteAt d ip) off n) := by
  induction fuel generalizing d ip off n with
  | zero =>
    rw [Nat.le_zero.mp hfuel]
    exact ⟨d, ip, rfl⟩
  | succ fuel ih =>
    cases n with
    | zero => exact ⟨d, ip, rfl⟩
    | succ n =>
      obtain ⟨hbn, d₁, ip₁, a, hb, hr, hfree₁⟩ := round_bmap h (Nat.succ_pos n) hmax hfree
      set m := min (n + 1) (bsize - off % bsize) with hm
      have hmod : off % bsize < bsize := Nat.mod_lt _ (by decide)
      obtain ⟨d', ip', hloop⟩ := ih hr.owned (by omega) (by omega) hfree₁
      have hbytes : Bytes.read (d₁.blocks a) (off % bsize) m = Bytes.read (byteAt d ip) off m := by
        rw [read_block hbn hr.addr hr.addr_ne (by omega), hr.content]
      rw [hr.content] at hloop
      have hjoin : Bytes.read (byteAt d ip) off m ++ Bytes.read (byteAt d ip) (off + m) (n + 1 - m) =
          Bytes.read (byteAt d ip) off (n + 1) := by
        rw [← Bytes.read_add, Nat.add_sub_cancel' (by omega)]
      refine ⟨d', ip', ?_⟩
      simp only [readiLoop, hb, Option.bind_eq_bind, Option.bind_some]
      rw [← hm, hloop, Option.bind_some, hbytes, hjoin]
      rfl

end Loops

section Transfer

variable {d : Disk} {ip : Dinode}

lemma Owned.setSize (h : Owned d ip) {s : Nat} (hs : s ≤ maxFile * bsize)
    (inodes : Nat → Dinode) : Owned ⟨d.blocks, inodes⟩ { ip with size := s } :=
  ⟨h.metaUsed, hs, h.indirect, h.data, h.data_ne, h.inj⟩

lemma owned_of_no_blocks (hmeta : ∀ c, c < nmeta → bitSet d c = true) (t : IType) (nlink : Int) :
    Owned d ⟨t, nlink, 0, fun _ => 0⟩ := by
  have hzero : ∀ bn, blockAddr d ⟨t, nlink, 0, fun _ => 0⟩ bn = 0 := by
    intro bn
    simp [blockAddr]
  refine ⟨hmeta, Nat.zero_le _, fun hI => absurd rfl hI, fun bn _ hne => absurd (hzero bn) hne,
    fun bn _ hne => absurd (hzero bn) hne, fun bn _ _ _ hne => absurd (hzero bn) hne⟩

theorem writei_spec {inum off : Nat} {src : List UInt8} (h : Owned d ip) (htype : ip.type ≠ .dev)
    (hoff : off ≤ ip.size) (hmax : off + src.length ≤ maxFile * bsize)
    (hfree : allocations d ip (touched off src.length) ≤ (freeBlocks d).card) :
    ∃ d' ip', writei d inum ip src off = some (d', ip', (src.length : Int)) ∧ Owned d' ip' ∧
      ip'.size = max ip.size (off + src.length) ∧ ip'.type = ip.type ∧
      byteAt d' ip' = Bytes.write (byteAt d ip) off src := by
  obtain ⟨d₁, ip₁, hloop, h₁, hcontent, hsize, htype₁⟩ := writeiLoop_spec h le_rfl hmax hfree
  have hmaxu : maxFile * bsize < 2 ^ 32 := by decide
  have hchecks : ¬(off > ip.size ∨ off + src.length ≥ 2 ^ 32) := by omega
  have hchecks' : ¬(off + src.length > maxFile * bsize) := by omega
  by_cases hgrow : src.length > 0 ∧ off + src.length > ip₁.size
  · refine ⟨⟨d₁.blocks, Function.update d₁.inodes inum { ip₁ with size := off + src.length }⟩,
      { ip₁ with size := off + src.length }, ?_, h₁.setSize hmax _, ?_, htype₁, hcontent⟩
    · unfold writei
      rw [if_neg htype, if_neg hchecks, if_neg hchecks', hloop]
      simp only [Option.bind_eq_bind, Option.bind_some, if_pos hgrow]
      rfl
    · rw [hsize] at hgrow
      exact (max_eq_right (le_of_lt hgrow.2)).symm
  · refine ⟨d₁, ip₁, ?_, h₁, ?_, htype₁, hcontent⟩
    · unfold writei
      rw [if_neg htype, if_neg hchecks, if_neg hchecks', hloop]
      simp only [Option.bind_eq_bind, Option.bind_some, if_neg hgrow]
      rfl
    · rw [hsize] at hgrow ⊢
      by_cases hn : src.length = 0
      · rw [hn, Nat.add_zero, max_eq_left hoff]
      · exact (max_eq_left (by omega)).symm

theorem readi_spec {o m : Nat} (h : Owned d ip) (htype : ip.type ≠ .dev) (ho : o ≤ ip.size)
    (hwrap : o + m < 2 ^ 32)
    (hfree : allocations d ip (touched o (min m (ip.size - o))) ≤ (freeBlocks d).card) :
    ∃ d' ip', readi d ip o m = some (d', ip', ((min m (ip.size - o) : Nat) : Int),
      Bytes.read (byteAt d ip) o (min m (ip.size - o))) := by
  have hn : (if o + m > ip.size then ip.size - o else m) = min m (ip.size - o) := by
    split_ifs <;> omega
  have hchecks : ¬(o > ip.size ∨ o + m ≥ 2 ^ 32) := by omega
  obtain ⟨d', ip', hloop⟩ := readiLoop_spec h le_rfl (by have := h.size_le; omega) hfree
  refine ⟨d', ip', ?_⟩
  simp only [readi, htype, hchecks, if_false, hn]
  rw [hloop]
  rfl

end Transfer

theorem writei_read_after_write (d : Disk) (inum : Nat) (ip : Dinode) (src : List UInt8)
    (off : Nat) (htype : ip.type = .file ∨ ip.type = .dir) (h : Owned d ip) :
    (off ≤ ip.size → off + src.length ≤ maxFile * bsize →
      allocations d ip (touched off src.length) ≤ (freeBlocks d).card →
      ∃ d' ip', writei d inum ip src off = some (d', ip', (src.length : Int)) ∧
        ip'.size = max ip.size (off + src.length) ∧
        ∀ o m, o ≤ ip'.size → o + m < 2 ^ 32 →
          allocations d' ip' (touched o (min m (ip'.size - o))) ≤ (freeBlocks d').card →
          ∃ d'' ip'', readi d' ip' o m = some (d'', ip'', ((min m (ip'.size - o) : Nat) : Int),
            Bytes.read (Bytes.write (byteAt d ip) off src) o (min m (ip'.size - o)))) ∧
    (off > ip.size ∨ off + src.length ≥ 2 ^ 32 → writei d inum ip src off = some (d, ip, -1)) := by
  have hdev : ip.type ≠ .dev := by
    rcases htype with h | h <;> rw [h] <;> decide
  refine ⟨fun hoff hmax hfree => ?_, fun hbad => by unfold writei; rw [if_neg hdev, if_pos hbad]⟩
  obtain ⟨d', ip', hw, h', hsize, htype', hcontent⟩ :=
    @writei_spec d ip inum off src h hdev hoff hmax hfree
  refine ⟨d', ip', hw, hsize, fun o m ho hwrap hfree' => ?_⟩
  rw [← hcontent]
  exact readi_spec h' (htype' ▸ hdev) ho hwrap hfree'

lemma mkfs_empty_image :
    ∃ s, Mkfs.main [] = some s ∧ (∀ c, c < nmeta → bitSet s.disk c = true) ∧
      0 < (freeBlocks s.disk).card := by
  have hrun : (Mkfs.main []).map Mkfs.State.freeblock = some 47 := by decide
  obtain ⟨s, hs, hfree⟩ := Option.map_eq_some_iff.mp hrun
  have hbits := Mkfs.main_bitmap (by decide) hs
  refine ⟨s, hs, fun c hc => ?_, Finset.card_pos.mpr ⟨999, ?_⟩⟩
  · rw [hbits c (lt_trans (lt_trans hc nmeta_lt_size) (by decide)), hfree, decide_eq_true_iff]
    exact lt_trans hc (by decide)
  · simp only [freeBlocks, Finset.mem_filter, Finset.mem_range]
    rw [hbits 999 (by decide), hfree]
    decide

theorem writei_read_after_write_new_file :
    ∃ s, Mkfs.main [] = some s ∧ ∃ d' ip',
      writei s.disk 2 ⟨.file, 1, 0, fun _ => 0⟩ [1, 2, 3] 0 = some (d', ip', 3) ∧ ip'.size = 3 ∧
      ∃ d'' ip'', readi d' ip' 0 3 = some (d'', ip'', 3, [1, 2, 3]) := by
  obtain ⟨s, hs, hmeta, hcard⟩ := mkfs_empty_image
  have halloc : allocations s.disk ⟨.file, 1, 0, fun _ => 0⟩
      (touched 0 ([1, 2, 3] : List UInt8).length) = 1 := by
    simp [allocations, touched, blockAddr, bsize, nDirect]
  obtain ⟨hw, -⟩ := writei_read_after_write s.disk 2 ⟨.file, 1, 0, fun _ => 0⟩ [1, 2, 3] 0
    (Or.inl rfl) (owned_of_no_blocks hmeta .file 1)
  obtain ⟨d', ip', hwr, hsize, hread⟩ := hw (Nat.zero_le _) (by decide) (by rw [halloc]; exact hcard)
  have hsize' : ip'.size = 3 := by
    rw [hsize]
    rfl
  have hrun : (Mkfs.main []).bind (fun s => (writei s.disk 2 ⟨.file, 1, 0, fun _ => 0⟩ [1, 2, 3] 0).map
      fun r => allocations r.1 r.2.1 (touched 0 3)) = some 0 := by decide +kernel
  rw [hs, Option.bind_some, hwr, Option.map_some] at hrun
  obtain ⟨d'', ip'', hr⟩ := hread 0 3 (Nat.zero_le _) (by decide)
    (by rw [hsize', show min 3 (3 - 0) = 3 from rfl, Option.some_inj.mp hrun]; exact Nat.zero_le _)
  refine ⟨s, hs, d', ip', hwr, hsize', d'', ip'', ?_⟩
  rw [hr, hsize']
  rfl

theorem readi_after_write_wraps :
    ∃ s, Mkfs.main [] = some s ∧ ∃ d' ip',
      writei s.disk 2 ⟨.file, 1, 0, fun _ => 0⟩ [1, 2, 3] 0 = some (d', ip', 3) ∧ ip'.size = 3 ∧
      ∃ d'' ip'' out, readi d' ip' 1 (2 ^ 32 - 1) = some (d'', ip'', -1, out) := by
  obtain ⟨s, hs, hmeta, hcard⟩ := mkfs_empty_image
  have halloc : allocations s.disk ⟨.file, 1, 0, fun _ => 0⟩
      (touched 0 ([1, 2, 3] : List UInt8).length) = 1 := by
    simp [allocations, touched, blockAddr, bsize, nDirect]
  obtain ⟨d', ip', hwr, -, hsize, htype, -⟩ := @writei_spec s.disk ⟨.file, 1, 0, fun _ => 0⟩ 2 0
    [1, 2, 3] (owned_of_no_blocks hmeta .file 1) (by decide) (Nat.zero_le _) (by decide)
    (by rw [halloc]; exact hcard)
  have hsize' : ip'.size = 3 := by
    rw [hsize]
    rfl
  refine ⟨s, hs, d', ip', hwr, hsize', d', ip', [], ?_⟩
  have htype' : ip'.type ≠ .dev := by
    rw [htype]
    decide
  unfold readi
  rw [if_neg htype', if_pos (Or.inr (by decide))]

end Xv6.Fs
