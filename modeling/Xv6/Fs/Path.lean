import Xv6.Fs.Namei
import Xv6.Lib.String
import Mathlib.Data.List.TakeWhile

/-! What `skipelem` and `namex` make of a path. The elements of a path are its maximal non-empty
runs of bytes other than `/` (`pathElems`). `skipelem` returns the first of them, cut to `DIRSIZ`
bytes, and the rest of the path with its leading slashes gone, so that called again and again it
returns every element in order and then `0` (`skipelemNames_eq`); the bytes it leaves in `name`
are those of the element, `NUL`-terminated when shorter than `DIRSIZ` (`skipelemName_read`).

`namex` is then one round per element (`namexRound`) from the root for an absolute path and
from the working directory otherwise (`namex_eq_walk`); with `nameiparent` set the last round
stops before looking its element up (`namexWalk_parent`). -/

namespace Xv6.Fs

namespace Namei

def pathElems (path : List UInt8) : List (List UInt8) :=
  (path.splitOnP (· == slash)).filter (· != [])

section Elems

lemma pathElems_nil : pathElems [] = [] := by
  simp [pathElems, List.splitOnP_nil]

lemma pathElems_slash (p : List UInt8) : pathElems (slash :: p) = pathElems p := by
  rw [pathElems, List.splitOnP_cons_eq_if_modifyHead, if_pos (beq_self_eq_true _), List.filter_cons]
  rfl

lemma pathElems_dropWhile (p : List UInt8) : pathElems (p.dropWhile (· == slash)) = pathElems p := by
  induction p with
  | nil => rfl
  | cons x p ih =>
    rw [List.dropWhile_cons]
    split
    · rename_i hx
      rw [ih, (beq_iff_eq.mp hx : x = slash), pathElems_slash]
    · rfl

lemma pathElems_append {e rest : List UInt8} (he : e ≠ []) (hno : ∀ x ∈ e, (x == slash) = false)
    (hrest : ∀ x, rest.head? = some x → x = slash) :
    pathElems (e ++ rest) = e :: pathElems rest := by
  cases rest with
  | nil =>
    rw [List.append_nil, pathElems, List.splitOnP_eq_singleton hno, List.filter_singleton,
      show (e != []) = true from bne_iff_ne.mpr he, pathElems_nil]
    rfl
  | cons x r =>
    obtain rfl := hrest x rfl
    rw [pathElems, List.splitOnP_append_cons_of_forall_mem hno slash (beq_self_eq_true _),
      List.filter_cons, if_pos (by simpa using he), pathElems_slash]
    rfl

lemma pathElems_first {q : List UInt8} (hq : q ≠ []) (hhead : (q.head hq == slash) = false) :
    q.takeWhile (· != slash) ≠ [] ∧
      pathElems q = q.takeWhile (· != slash) ::
        pathElems ((q.dropWhile (· != slash)).dropWhile (· == slash)) := by
  obtain ⟨x, q', rfl⟩ := List.exists_cons_of_ne_nil hq
  have hx : (x != slash) = true := by simpa using hhead
  have hne : (x :: q').takeWhile (· != slash) ≠ [] := by
    rw [List.takeWhile_cons, if_pos hx]
    exact List.cons_ne_nil _ _
  refine ⟨hne, ?_⟩
  conv_lhs => rw [← List.takeWhile_append_dropWhile (p := (· != slash)) (l := x :: q')]
  rw [pathElems_append hne (fun y hy => by simpa using List.mem_takeWhile_imp hy), pathElems_dropWhile]
  intro y hy
  have hw : (x :: q').dropWhile (· != slash) ≠ [] := by
    intro h
    rw [h] at hy
    cases hy
  have := List.head_dropWhile_not (· != slash) hw
  rw [List.head?_eq_some_head hw] at hy
  cases hy
  simpa using this

end Elems

section Skipelem

lemma skipelem_eq_none {path : List UInt8} : skipelem path = none ↔ pathElems path = [] := by
  rw [← pathElems_dropWhile]
  unfold skipelem
  dsimp only
  split
  · rename_i h
    rw [h, pathElems_nil]
    simp
  · rename_i h
    have hhead := List.head_dropWhile_not (· == slash) h
    rw [(pathElems_first h hhead).2]
    simp

lemma skipelem_eq_some {path rest name : List UInt8} (h : skipelem path = some (rest, name)) :
    ∃ e, pathElems path = e :: pathElems rest ∧ name = e.take dirsiz ∧
      (∀ x, rest.head? = some x → x ≠ slash) ∧ rest.length < path.length := by
  unfold skipelem at h
  dsimp only at h
  split at h
  · cases h
  · rename_i hq
    simp only [Option.some.injEq, Prod.mk.injEq] at h
    obtain ⟨rfl, rfl⟩ := h
    set q := path.dropWhile (· == slash)
    obtain ⟨hne, helems⟩ := pathElems_first hq (List.head_dropWhile_not (· == slash) hq)
    refine ⟨q.takeWhile (· != slash), by rw [← pathElems_dropWhile path, helems], ?_, ?_, ?_⟩
    · split
      · rfl
      · rw [List.take_of_length_le (by omega)]
    · intro x hx
      have hw : (q.dropWhile (· != slash)).dropWhile (· == slash) ≠ [] := by
        intro h
        rw [h] at hx
        cases hx
      have := List.head_dropWhile_not (· == slash) hw
      rw [List.head?_eq_some_head hw] at hx
      cases hx
      simpa using this
    · have hsplit := congrArg List.length
        (List.takeWhile_append_dropWhile (p := (· != slash)) (l := q))
      rw [List.length_append] at hsplit
      have hlen : 0 < (q.takeWhile (· != slash)).length := List.length_pos_iff.mpr hne
      have h1 := List.length_dropWhile_le (· == slash) (q.dropWhile (· != slash))
      have h2 : q.length ≤ path.length := List.length_dropWhile_le (· == slash) path
      omega

example : skipelem ("///a//bb".toList.map Char.toUInt8) =
    some ("bb".toList.map Char.toUInt8, "a".toList.map Char.toUInt8) := by decide
example : skipelem ("////".toList.map Char.toUInt8) = none := by decide

def skipelemNames : Nat → List UInt8 → List (List UInt8)
  | 0, _ => []
  | fuel + 1, path =>
    match skipelem path with
    | none => []
    | some (rest, name) => name :: skipelemNames fuel rest

lemma skipelemNames_eq {fuel : Nat} {path : List UInt8} (hfuel : path.length < fuel) :
    skipelemNames fuel path = (pathElems path).map (List.take dirsiz) := by
  induction fuel generalizing path with
  | zero => omega
  | succ fuel ih =>
    rw [skipelemNames]
    cases hs : skipelem path with
    | none => rw [skipelem_eq_none.mp hs, List.map_nil]
    | some r =>
      obtain ⟨rest, name⟩ := r
      obtain ⟨e, helems, rfl, -, hlen⟩ := skipelem_eq_some hs
      rw [helems, List.map_cons]
      dsimp only
      rw [@ih rest (by omega)]

def skipelemName (mem : Nat → UInt8) (nm s len : Nat) : Nat → UInt8 :=
  if len ≥ dirsiz then memmove mem nm s dirsiz
  else Function.update (memmove mem nm s len) (nm + len) 0

lemma skipelemName_read (mem : Nat → UInt8) (nm s : Nat) (e : List UInt8)
    (he : ∀ i (h : i < e.length), mem (s + i) = e.get ⟨i, h⟩) :
    Bytes.read (skipelemName mem nm s e.length) nm (min e.length dirsiz) = e.take dirsiz ∧
      (e.length < dirsiz → skipelemName mem nm s e.length (nm + e.length) = 0) ∧
      ∀ a, (a < nm ∨ nm + dirsiz ≤ a) → skipelemName mem nm s e.length a = mem a := by
  have hcopy : ∀ i < min e.length dirsiz, skipelemName mem nm s e.length (nm + i) = mem (s + i) := by
    intro i hi
    unfold skipelemName
    split_ifs with hlen
    · exact memmove_copied mem nm s dirsiz (by omega)
    · rw [Function.update_of_ne (by omega)]
      exact memmove_copied mem nm s e.length (by omega)
  refine ⟨?_, fun hlt => ?_, fun a ha => ?_⟩
  · apply List.ext_get
    · simp [Bytes.read, Nat.min_comm]
    · intro i h1 h2
      simp only [Bytes.read, List.length_map, List.length_range] at h1
      simp only [Bytes.read, List.get_eq_getElem, List.getElem_map, List.getElem_range,
        List.getElem_take]
      rw [hcopy i h1, he i (by omega)]
      rfl
  · unfold skipelemName
    rw [if_neg (by omega), Function.update_self]
  · unfold skipelemName
    split_ifs with hlen
    · exact memmove_outside mem nm s dirsiz ha
    · rw [Function.update_of_ne (by omega)]
      exact memmove_outside mem nm s e.length (by omega)

end Skipelem

def namexRound (d : Disk) (c : Icache) (ip : Nat) (name : List UInt8) (last : Prop) [Decidable last]
    (nameiparent : Bool) (next : Disk → Icache → Nat → Option (Disk × Icache × Option Nat)) :
    Option (Disk × Icache × Option Nat) := do
  let (c, dp) ← ilock d c ip
  if dp.type ≠ .dir then
    let (d, c) ← iput d c ip
    pure (d, c, none)
  else if nameiparent ∧ last then pure (d, c, some ip)
  else
    let (d, dp, found) ← dirlookup d dp name
    let c := { c with valid := Function.update c.valid ip (some dp) }
    match found with
    | none =>
      let (d, c) ← iput d c ip
      pure (d, c, none)
    | some (inum, _) =>
      let (d, c) ← iput d (iget c inum) ip
      next d c inum

def namexWalk (nameiparent : Bool) :
    List (List UInt8) → Disk → Icache → Nat → Option (Disk × Icache × Option Nat)
  | [], d, c, ip =>
    if nameiparent then (iput d c ip).map fun r => (r.1, r.2, none)
    else some (d, c, some ip)
  | name :: names, d, c, ip =>
    namexRound d c ip name (names = []) nameiparent (namexWalk nameiparent names)

lemma namexRound_congr (d : Disk) (c : Icache) (ip : Nat) (name : List UInt8) {last last' : Prop}
    [Decidable last] [Decidable last'] (nameiparent : Bool)
    {next next' : Disk → Icache → Nat → Option (Disk × Icache × Option Nat)}
    (hlast : last ↔ last') (hnext : next = next') :
    namexRound d c ip name last nameiparent next = namexRound d c ip name last' nameiparent next' := by
  subst hnext
  obtain rfl := propext hlast
  congr

lemma namexLoop_round (fuel : Nat) (d : Disk) (c : Icache) (ip : Nat) {path rest name : List UInt8}
    (nameiparent : Bool) (h : skipelem path = some (rest, name)) :
    namexLoop (fuel + 1) d c ip path nameiparent =
      namexRound d c ip name (rest = []) nameiparent
        (fun d c ip => namexLoop fuel d c ip rest nameiparent) := by
  rw [namexLoop, h]
  rfl

lemma rest_eq_nil_iff {rest : List UInt8} (hrest : ∀ x, rest.head? = some x → x ≠ slash) :
    rest = [] ↔ (pathElems rest).map (List.take dirsiz) = [] := by
  cases rest with
  | nil => simp [pathElems_nil]
  | cons x r =>
    have hx : (x == slash) = false := by simpa using hrest x rfl
    rw [(pathElems_first (List.cons_ne_nil x r) hx).2]
    simp

lemma namexLoop_eq_walk {fuel : Nat} {path : List UInt8} (hfuel : path.length < fuel)
    (d : Disk) (c : Icache) (ip : Nat) (nameiparent : Bool) :
    namexLoop fuel d c ip path nameiparent =
      namexWalk nameiparent ((pathElems path).map (List.take dirsiz)) d c ip := by
  induction fuel generalizing path d c ip with
  | zero => omega
  | succ fuel ih =>
    cases hs : skipelem path with
    | none =>
      rw [namexLoop, hs, skipelem_eq_none.mp hs, List.map_nil, namexWalk]
    | some r =>
      obtain ⟨rest, name⟩ := r
      obtain ⟨e, helems, rfl, hhead, hlen⟩ := skipelem_eq_some hs
      rw [namexLoop_round fuel d c ip nameiparent hs, helems, List.map_cons, namexWalk]
      refine namexRound_congr _ _ _ _ _ (rest_eq_nil_iff hhead) (funext fun d => funext fun c =>
        funext fun ip => @ih rest (by omega) d c ip)

theorem namex_eq_walk (d : Disk) (c : Icache) (cwd : Nat) (path : List UInt8) (nameiparent : Bool) :
    namex d c cwd path nameiparent =
      if path.head? = some slash then
        namexWalk nameiparent ((pathElems path).map (List.take dirsiz)) d (iget c rootIno) rootIno
      else namexWalk nameiparent ((pathElems path).map (List.take dirsiz)) d (idup c cwd) cwd := by
  unfold namex
  split
  · exact namexLoop_eq_walk (by omega) _ _ _ _
  · exact namexLoop_eq_walk (by omega) _ _ _ _

lemma namexRound_bind (d : Disk) (c : Icache) (ip : Nat) (name : List UInt8) {last last' : Prop}
    [Decidable last] [Decidable last'] {np np' : Bool} (hstop : ¬ (np = true ∧ last))
    (hstop' : ¬ (np' = true ∧ last'))
    (next : Disk → Icache → Nat → Option (Disk × Icache × Option Nat))
    (F : Disk × Icache × Option Nat → Option (Disk × Icache × Option Nat))
    (hF : ∀ r, r.2.2 = none → F r = some r) :
    (namexRound d c ip name last np next).bind F =
      namexRound d c ip name last' np' fun d c ip => (next d c ip).bind F := by
  unfold namexRound
  simp only [if_neg hstop, if_neg hstop']
  cases ilock d c ip with
  | none => rfl
  | some l =>
    obtain ⟨c1, dp⟩ := l
    dsimp only [bind, Option.bind]
    split_ifs with hdir
    · cases iput d c1 ip with
      | none => rfl
      | some r => exact hF _ rfl
    · cases dirlookup d dp name with
      | none => rfl
      | some r =>
        obtain ⟨d2, dp2, found⟩ := r
        cases found with
        | none =>
          dsimp only
          cases iput d2 { c1 with valid := Function.update c1.valid ip (some dp2) } ip with
          | none => rfl
          | some r => exact hF _ rfl
        | some f =>
          obtain ⟨inum, off⟩ := f
          dsimp only
          cases iput d2 (iget { c1 with valid := Function.update c1.valid ip (some dp2) } inum) ip with
          | none => rfl
          | some r => rfl

lemma namexRound_stop (d : Disk) (c : Icache) (ip : Nat) (name : List UInt8) {last : Prop}
    [Decidable last] (hlast : last) (next : Disk → Icache → Nat → Option (Disk × Icache × Option Nat)) :
    namexRound d c ip name last true next =
      (ilock d c ip).bind fun l =>
        if l.2.type ≠ .dir then (iput d l.1 ip).map fun x => (x.1, x.2, none)
        else some (d, l.1, some ip) := by
  unfold namexRound
  cases ilock d c ip with
  | none => rfl
  | some l =>
    obtain ⟨c1, dp⟩ := l
    dsimp only [bind, Option.bind]
    split_ifs with hdir hstop
    · cases iput d c1 ip <;> rfl
    · rfl
    · exact absurd ⟨rfl, hlast⟩ hstop

lemma namexWalk_parent (pre : List (List UInt8)) (last : List UInt8) (d : Disk) (c : Icache)
    (ip : Nat) :
    namexWalk true (pre ++ [last]) d c ip =
      (namexWalk false pre d c ip).bind fun r =>
        match r.2.2 with
        | none => some r
        | some dir => (ilock r.1 r.2.1 dir).bind fun l =>
          if l.2.type ≠ .dir then (iput r.1 l.1 dir).map fun x => (x.1, x.2, none)
          else some (r.1, l.1, some dir) := by
  induction pre generalizing d c ip with
  | nil =>
    simp only [List.nil_append, namexWalk]
    rw [namexRound_stop _ _ _ _ trivial]
    rfl
  | cons name pre ih =>
    simp only [List.cons_append, namexWalk]
    rw [@namexRound_bind d c ip name _ _ _ _ false _
      (by simp) (show ¬ (true = true ∧ pre ++ [last] = []) by simp) _ _ (fun r hr => by rw [hr])]
    exact congrArg _ (funext fun d => funext fun c => funext fun ip => ih d c ip)

theorem path_parsing_components (path : List UInt8) :
    skipelemNames (path.length + 1) path = (pathElems path).map (List.take dirsiz) ∧
      (skipelem path = none ↔ pathElems path = []) ∧
      (∀ (mem : Nat → UInt8) (nm s : Nat) (e : List UInt8),
        (∀ i (h : i < e.length), mem (s + i) = e.get ⟨i, h⟩) →
        Bytes.read (skipelemName mem nm s e.length) nm (min e.length dirsiz) = e.take dirsiz ∧
          (e.length < dirsiz → skipelemName mem nm s e.length (nm + e.length) = 0)) ∧
      (∀ d c cwd nameiparent, namex d c cwd path nameiparent =
        if path.head? = some slash then
          namexWalk nameiparent ((pathElems path).map (List.take dirsiz)) d (iget c rootIno) rootIno
        else namexWalk nameiparent ((pathElems path).map (List.take dirsiz)) d (idup c cwd) cwd) ∧
      ∀ pre last, pathElems path = pre ++ [last] → ∀ d c ip,
        namexWalk true ((pathElems path).map (List.take dirsiz)) d c ip =
          (namexWalk false (pre.map (List.take dirsiz)) d c ip).bind fun r =>
            match r.2.2 with
            | none => some r
            | some dir => (ilock r.1 r.2.1 dir).bind fun l =>
              if l.2.type ≠ .dir then (iput r.1 l.1 dir).map fun x => (x.1, x.2, none)
              else some (r.1, l.1, some dir) := by
  refine ⟨skipelemNames_eq (Nat.lt_succ_self _), skipelem_eq_none,
    fun mem nm s e he => ⟨(skipelemName_read mem nm s e he).1, (skipelemName_read mem nm s e he).2.1⟩,
    fun d c cwd nameiparent => namex_eq_walk d c cwd path nameiparent, fun pre last h d c ip => ?_⟩
  rw [h, List.map_append, List.map_singleton]
  exact namexWalk_parent _ _ d c ip

end Namei

end Xv6.Fs
