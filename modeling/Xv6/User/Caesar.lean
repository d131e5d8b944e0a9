import Xv6.Lib.CInt
import Mathlib

/-! `CalculateEncode` of `encode.c` and `CalculateDecode` of `decode.c`: one loop over a C string
of signed `char`s that writes each character, mapped, into `result`, then the terminator. The two
programs differ only in the map of a letter: `(c - base + KEY) % 26 + base` against
`(c - base - KEY + 26) % 26 + base`. With `KEY = 1` the first turns a letter into the next one
and the second into the previous one, each wrapping within its case (`encodeLetter_eq`,
`decodeLetter_eq`), so each undoes the other on every string that fits `result`. -/

namespace Xv6.User

open CInt

def chr (c : Char) : Int := c.toNat

def key : Int := 1

def encodeLetter (base c : Int) : Int := toSchar ((c - base + key).tmod 26 + base)

def decodeLetter (base c : Int) : Int := toSchar ((c - base - key + 26).tmod 26 + base)

def caesarChar (letter : Int → Int → Int) (c : Int) : Int :=
  if c ≥ chr 'a' ∧ c ≤ chr 'z' then letter (chr 'a') c
  else if c ≥ chr 'A' ∧ c ≤ chr 'Z' then letter (chr 'A') c
  else c

def caesarLoop (ch : Int → Int) (n : Nat) : Nat → List Int → Option (List Int)
  | _, [] => none
  | i, c :: w =>
    if i < n then
      if c = 0 then some [0]
      else (caesarLoop ch n (i + 1) w).map (ch c :: ·)
    else none

def calculateEncode (word1 : List Int) (n : Nat) : Option (List Int) :=
  caesarLoop (caesarChar encodeLetter) n 0 word1

def calculateDecode (word1 : List Int) (n : Nat) : Option (List Int) :=
  caesarLoop (caesarChar decodeLetter) n 0 word1

def resultSize : Nat := 512

def IsChars (s : List Int) : Prop := ∀ c ∈ s, c ≠ 0 ∧ -128 ≤ c ∧ c < 128

instance : DecidablePred IsChars := fun s => inferInstanceAs (Decidable (∀ c ∈ s, _))

section Letter

variable {base c : Int}

lemma encodeLetter_eq (hb : 0 ≤ base ∧ base + 26 ≤ 128) (hc : base ≤ c ∧ c ≤ base + 25) :
    encodeLetter base c = if c = base + 25 then base else c + 1 := by
  unfold encodeLetter toSchar key
  rw [Int.tmod_eq_emod_of_nonneg (by omega)]
  split_ifs <;> omega

lemma decodeLetter_eq (hb : 0 ≤ base ∧ base + 26 ≤ 128) (hc : base ≤ c ∧ c ≤ base + 25) :
    decodeLetter base c = if c = base then base + 25 else c - 1 := by
  unfold decodeLetter toSchar key
  rw [Int.tmod_eq_emod_of_nonneg (by omega)]
  split_ifs <;> omega

end Letter

lemma chr_a : chr 'a' = 97 := rfl
lemma chr_z : chr 'z' = 122 := rfl
lemma chr_A : chr 'A' = 65 := rfl
lemma chr_Z : chr 'Z' = 90 := rfl

lemma encodeChar_lower {c : Int} (hc : chr 'a' ≤ c ∧ c ≤ chr 'z') :
    caesarChar encodeLetter c = if c = chr 'z' then chr 'a' else c + 1 := by
  rw [caesarChar, if_pos ⟨hc.1, hc.2⟩, encodeLetter_eq (by simp only [chr_a]; omega)
    (by simp only [chr_a, chr_z] at hc ⊢; omega)]
  rfl

lemma encodeChar_upper {c : Int} (hc : chr 'A' ≤ c ∧ c ≤ chr 'Z') :
    caesarChar encodeLetter c = if c = chr 'Z' then chr 'A' else c + 1 := by
  simp only [chr_A, chr_Z] at hc
  rw [caesarChar, if_neg (by simp only [chr_a]; omega), if_pos ⟨hc.1, hc.2⟩,
    encodeLetter_eq (by simp only [chr_A]; omega) (by simp only [chr_A]; omega)]
  rfl

lemma decodeChar_lower {c : Int} (hc : chr 'a' ≤ c ∧ c ≤ chr 'z') :
    caesarChar decodeLetter c = if c = chr 'a' then chr 'z' else c - 1 := by
  rw [caesarChar, if_pos ⟨hc.1, hc.2⟩, decodeLetter_eq (by simp only [chr_a]; omega)
    (by simp only [chr_a, chr_z] at hc ⊢; omega)]
  rfl

lemma decodeChar_upper {c : Int} (hc : chr 'A' ≤ c ∧ c ≤ chr 'Z') :
    caesarChar decodeLetter c = if c = chr 'A' then chr 'Z' else c - 1 := by
  simp only [chr_A, chr_Z] at hc
  rw [caesarChar, if_neg (by simp only [chr_a]; omega), if_pos ⟨hc.1, hc.2⟩,
    decodeLetter_eq (by simp only [chr_A]; omega) (by simp only [chr_A]; omega)]
  rfl

lemma caesarChar_other (letter : Int → Int → Int) {c : Int}
    (hc : ¬ (chr 'a' ≤ c ∧ c ≤ chr 'z') ∧ ¬ (chr 'A' ≤ c ∧ c ≤ chr 'Z')) :
    caesarChar letter c = c := by
  rw [caesarChar, if_neg hc.1, if_neg hc.2]

lemma decode_encodeChar (c : Int) :
    caesarChar decodeLetter (caesarChar encodeLetter c) = c := by
  by_cases hl : chr 'a' ≤ c ∧ c ≤ chr 'z'
  · have he := encodeChar_lower hl
    simp only [chr_a, chr_z] at hl he
    rw [he, decodeChar_lower (by simp only [chr_a, chr_z]; split_ifs <;> omega)]
    simp only [chr_a, chr_z]
    split_ifs <;> omega
  · by_cases hu : chr 'A' ≤ c ∧ c ≤ chr 'Z'
    · have he := encodeChar_upper hu
      simp only [chr_A, chr_Z] at hu he
      rw [he, decodeChar_upper (by simp only [chr_A, chr_Z]; split_ifs <;> omega)]
      simp only [chr_A, chr_Z]
      split_ifs <;> omega
    · rw [caesarChar_other _ ⟨hl, hu⟩, caesarChar_other _ ⟨hl, hu⟩]

lemma encode_decodeChar (c : Int) :
    caesarChar encodeLetter (caesarChar decodeLetter c) = c := by
  by_cases hl : chr 'a' ≤ c ∧ c ≤ chr 'z'
  · have hd := decodeChar_lower hl
    simp only [chr_a, chr_z] at hl hd
    rw [hd, encodeChar_lower (by simp only [chr_a, chr_z]; split_ifs <;> omega)]
    simp only [chr_a, chr_z]
    split_ifs <;> omega
  · by_cases hu : chr 'A' ≤ c ∧ c ≤ chr 'Z'
    · have hd := decodeChar_upper hu
      simp only [chr_A, chr_Z] at hu hd
      rw [hd, encodeChar_upper (by simp only [chr_A, chr_Z]; split_ifs <;> omega)]
      simp only [chr_A, chr_Z]
      split_ifs <;> omega
    · rw [caesarChar_other _ ⟨hl, hu⟩, caesarChar_other _ ⟨hl, hu⟩]

lemma isChars_map {ch : Int → Int} {s : List Int} (hs : IsChars s)
    (hch : ∀ c, -128 ≤ c → c < 128 → c ≠ 0 → ch c ≠ 0 ∧ -128 ≤ ch c ∧ ch c < 128) :
    IsChars (s.map ch) := by
  intro d hd
  obtain ⟨c, hc, rfl⟩ := List.mem_map.mp hd
  obtain ⟨h0, hlo, hhi⟩ := hs c hc
  exact hch c hlo hhi h0

lemma caesarChar_range (letter : Int → Int → Int)
    (hlow : ∀ c, chr 'a' ≤ c → c ≤ chr 'z' → chr 'a' ≤ letter (chr 'a') c ∧ letter (chr 'a') c ≤ chr 'z')
    (hup : ∀ c, chr 'A' ≤ c → c ≤ chr 'Z' → chr 'A' ≤ letter (chr 'A') c ∧ letter (chr 'A') c ≤ chr 'Z')
    (c : Int) (hlo : -128 ≤ c) (hhi : c < 128) (h0 : c ≠ 0) :
    caesarChar letter c ≠ 0 ∧ -128 ≤ caesarChar letter c ∧ caesarChar letter c < 128 := by
  unfold caesarChar
  split_ifs with hl hu
  · have := hlow c hl.1 hl.2
    simp only [chr_a, chr_z] at this hl ⊢
    omega
  · have := hup c hu.1 hu.2
    simp only [chr_A, chr_Z] at this hu ⊢
    omega
  · exact ⟨h0, hlo, hhi⟩

lemma encodeChar_range (c : Int) (hlo : -128 ≤ c) (hhi : c < 128) (h0 : c ≠ 0) :
    caesarChar encodeLetter c ≠ 0 ∧ -128 ≤ caesarChar encodeLetter c ∧
      caesarChar encodeLetter c < 128 := by
  refine caesarChar_range _ (fun c h1 h2 => ?_) (fun c h1 h2 => ?_) c hlo hhi h0
  · rw [encodeLetter_eq (by simp only [chr_a]; omega) (by simp only [chr_a, chr_z] at h1 h2 ⊢; omega)]
    simp only [chr_a, chr_z] at h1 h2 ⊢
    split_ifs <;> omega
  · rw [encodeLetter_eq (by simp only [chr_A]; omega) (by simp only [chr_A, chr_Z] at h1 h2 ⊢; omega)]
    simp only [chr_A, chr_Z] at h1 h2 ⊢
    split_ifs <;> omega

lemma decodeChar_range (c : Int) (hlo : -128 ≤ c) (hhi : c < 128) (h0 : c ≠ 0) :
    caesarChar decodeLetter c ≠ 0 ∧ -128 ≤ caesarChar decodeLetter c ∧
      caesarChar decodeLetter c < 128 := by
  refine caesarChar_range _ (fun c h1 h2 => ?_) (fun c h1 h2 => ?_) c hlo hhi h0
  · rw [decodeLetter_eq (by simp only [chr_a]; omega) (by simp only [chr_a, chr_z] at h1 h2 ⊢; omega)]
    simp only [chr_a, chr_z] at h1 h2 ⊢
    split_ifs <;> omega
  · rw [decodeLetter_eq (by simp only [chr_A]; omega) (by simp only [chr_A, chr_Z] at h1 h2 ⊢; omega)]
    simp only [chr_A, chr_Z] at h1 h2 ⊢
    split_ifs <;> omega

lemma caesarLoop_eq (ch : Int → Int) {n i : Nat} {s : List Int} (hs : IsChars s)
    (hfit : i + s.length < n) : caesarLoop ch n i (s ++ [0]) = some (s.map ch ++ [0]) := by
  induction s generalizing i with
  | nil =>
    rw [List.nil_append, caesarLoop, if_pos (by simpa using hfit), if_pos rfl]
    rfl
  | cons c s ih =>
    have hc := hs c List.mem_cons_self
    have hs' : IsChars s := fun d hd => hs d (List.mem_cons_of_mem c hd)
    rw [List.cons_append, caesarLoop, if_pos (by simp only [List.length_cons] at hfit; omega),
      if_neg hc.1, ih hs' (by simp only [List.length_cons] at hfit; omega)]
    rfl

theorem caesar_round_trip (s : List Int) (hs : IsChars s) (hlen : s.length < resultSize) :
    calculateEncode (s ++ [0]) resultSize = some (s.map (caesarChar encodeLetter) ++ [0]) ∧
      calculateDecode (s ++ [0]) resultSize = some (s.map (caesarChar decodeLetter) ++ [0]) ∧
      (calculateEncode (s ++ [0]) resultSize).bind (calculateDecode · resultSize) = some (s ++ [0]) ∧
      (calculateDecode (s ++ [0]) resultSize).bind (calculateEncode · resultSize) = some (s ++ [0]) ∧
      (∀ c, chr 'a' ≤ c ∧ c ≤ chr 'z' →
        caesarChar encodeLetter c = (if c = chr 'z' then chr 'a' else c + 1) ∧
        caesarChar decodeLetter c = (if c = chr 'a' then chr 'z' else c - 1)) ∧
      (∀ c, chr 'A' ≤ c ∧ c ≤ chr 'Z' →
        caesarChar encodeLetter c = (if c = chr 'Z' then chr 'A' else c + 1) ∧
        caesarChar decodeLetter c = (if c = chr 'A' then chr 'Z' else c - 1)) ∧
      Set.BijOn (caesarChar encodeLetter) (Set.Icc (chr 'a') (chr 'z')) (Set.Icc (chr 'a') (chr 'z')) ∧
      Set.BijOn (caesarChar encodeLetter) (Set.Icc (chr 'A') (chr 'Z')) (Set.Icc (chr 'A') (chr 'Z')) ∧
      (∀ c, ¬ (chr 'a' ≤ c ∧ c ≤ chr 'z') → ¬ (chr 'A' ≤ c ∧ c ≤ chr 'Z') →
        caesarChar encodeLetter c = c ∧ caesarChar decodeLetter c = c) := by
  have henc := caesarLoop_eq (caesarChar encodeLetter) hs (i := 0) (by simpa using hlen)
  have hdec := caesarLoop_eq (caesarChar decodeLetter) hs (i := 0) (by simpa using hlen)
  have hs_enc := isChars_map hs encodeChar_range
  have hs_dec := isChars_map hs decodeChar_range
  have hmaps : ∀ lo hi : Int, (lo = chr 'a' ∧ hi = chr 'z') ∨ (lo = chr 'A' ∧ hi = chr 'Z') →
      Set.MapsTo (caesarChar encodeLetter) (Set.Icc lo hi) (Set.Icc lo hi) ∧
        Set.MapsTo (caesarChar decodeLetter) (Set.Icc lo hi) (Set.Icc lo hi) := by
    rintro lo hi (⟨rfl, rfl⟩ | ⟨rfl, rfl⟩)
    · refine ⟨fun c hc => ?_, fun c hc => ?_⟩
      · rw [encodeChar_lower hc]
        simp only [Set.mem_Icc, chr_a, chr_z] at hc ⊢
        split_ifs <;> omega
      · rw [decodeChar_lower hc]
        simp only [Set.mem_Icc, chr_a, chr_z] at hc ⊢
        split_ifs <;> omega
    · refine ⟨fun c hc => ?_, fun c hc => ?_⟩
      · rw [encodeChar_upper hc]
        simp only [Set.mem_Icc, chr_A, chr_Z] at hc ⊢
        split_ifs <;> omega
      · rw [decodeChar_upper hc]
        simp only [Set.mem_Icc, chr_A, chr_Z] at hc ⊢
        split_ifs <;> omega
  have hinv : ∀ lo hi : Int, Set.InvOn (caesarChar decodeLetter) (caesarChar encodeLetter)
      (Set.Icc lo hi) (Set.Icc lo hi) :=
    fun lo hi => ⟨fun c _ => decode_encodeChar c, fun c _ => encode_decodeChar c⟩
  have hlower := hmaps _ _ (.inl ⟨rfl, rfl⟩)
  have hupper := hmaps _ _ (.inr ⟨rfl, rfl⟩)
  refine ⟨henc, hdec, ?_, ?_, fun c hc => ⟨encodeChar_lower hc, decodeChar_lower hc⟩,
    fun c hc => ⟨encodeChar_upper hc, decodeChar_upper hc⟩,
    (hinv _ _).bijOn hlower.1 hlower.2, (hinv _ _).bijOn hupper.1 hupper.2,
    fun c hl hu => ⟨caesarChar_other _ ⟨hl, hu⟩, caesarChar_other _ ⟨hl, hu⟩⟩⟩
  · rw [calculateEncode, henc, Option.bind_some, calculateDecode,
      caesarLoop_eq _ hs_enc (by simpa using hlen), List.map_map]
    simp only [Function.comp_def, decode_encodeChar, List.map_id']
  · rw [calculateDecode, hdec, Option.bind_some, calculateEncode,
      caesarLoop_eq _ hs_dec (by simpa using hlen), List.map_map]
    simp only [Function.comp_def, encode_decodeChar, List.map_id']

theorem caesar_round_trip_zA :
    IsChars [122, 65, -5] ∧ [122, 65, -5].length < resultSize ∧
      (calculateEncode ([122, 65, -5] ++ [0]) resultSize).bind (calculateDecode · resultSize) =
        some ([122, 65, -5] ++ [0]) :=
  have hs : IsChars [122, 65, -5] := by decide
  have hlen : [122, 65, -5].length < resultSize := by decide
  ⟨hs, hlen, (caesar_round_trip _ hs hlen).2.2.1⟩

end Xv6.User
