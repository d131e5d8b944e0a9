import Xv6.Lib.CInt
import Xv6.Lib.CArray
import Xv6.Lib.Except
import Mathlib.Logic.Function.Basic

/-! The console's line editor state from `console.c`: the `input` ring buffer with its read,
write and edit counters, the copy buffer `saved_input`, the command history `inputs`, and the
helpers that shift, clear, display and recall lines, with `consoleread`.

The counters `r`, `w` and `e` are `uint`s that only ever grow; `buf` is indexed with them
reduced modulo `INPUT_BUF` in some places and raw in others. Every array access checks its
index: an index outside the array is undefined behaviour, reported as a `Fault` naming the
array and the index. Where the source mixes `int` and `uint` operands, the usual arithmetic
conversions are applied as written (`CInt.toUint`, `CInt.toInt`), and `%` on `int` truncates
toward zero (`Int.tmod`). Characters are stored as `char`, which is signed on this target. -/

namespace Xv6.Console

open CInt

def inputBuf : Nat := 128
def historySize : Nat := 11

inductive Buffer
  | input
  | savedInput
  | history
  | historyCmd
deriving DecidableEq, Repr

inductive Fault
  | outOfBounds (b : Buffer) (index : Int)
  | overflow
  | divideByZero
  | floatToInt
deriving DecidableEq, Repr

structure Input where
  buf : Fin inputBuf → Int
  r : Nat
  w : Nat
  e : Nat

def Input.zero : Input := ⟨fun _ => 0, 0, 0, 0⟩

def Input.get (x : Input) (b : Buffer) (i : Int) : Except Fault Int :=
  match CArray.index? inputBuf i with
  | some j => .ok (x.buf j)
  | none => .error (.outOfBounds b i)

def Input.set (x : Input) (b : Buffer) (i : Int) (v : Int) : Except Fault Input :=
  match CArray.index? inputBuf i with
  | some j => .ok { x with buf := Function.update x.buf j v }
  | none => .error (.outOfBounds b i)

def Input.slot (k : Nat) : Fin inputBuf := ⟨k % inputBuf, Nat.mod_lt _ (by decide)⟩

def Input.line (x : Input) : List Int :=
  (List.range (x.e - x.w)).map fun k => x.buf (Input.slot (x.w + k))

@[simp] lemma Input.line_length (x : Input) : x.line.length = x.e - x.w := by
  simp only [Input.line, List.length_map, List.length_range]

def Input.counters (x : Input) : Nat × Nat × Nat := (x.r, x.w, x.e)

lemma Input.get_of_lt (x : Input) (b : Buffer) {i : Int} (h0 : 0 ≤ i) (h : i < inputBuf) :
    x.get b i = .ok (x.buf ⟨i.toNat, by omega⟩) := by
  have hi : CArray.index? inputBuf i = some ⟨i.toNat, by omega⟩ :=
    CArray.index?_eq_some.mpr (by simp only [Int.toNat_of_nonneg h0])
  simp only [Input.get, hi]

lemma Input.get_of_out (x : Input) (b : Buffer) {i : Int} (h : i < 0 ∨ inputBuf ≤ i) :
    x.get b i = .error (.outOfBounds b i) := by
  have hi : CArray.index? inputBuf i = none := by
    cases hj : CArray.index? inputBuf i with
    | none => rfl
    | some j =>
      have := CArray.index?_eq_some.mp hj
      have := j.isLt
      omega
  simp only [Input.get, hi]

lemma Input.set_counters {x y : Input} {b : Buffer} {i v : Int} (h : x.set b i v = .ok y) :
    y.counters = x.counters := by
  simp only [Input.set] at h
  split at h
  · cases h
    rfl
  · cases h

structure State where
  input : Input
  savedInput : Input
  history : Fin historySize → Input
  curent : Int
  end_ : Int
  size : Int
  numOfBacks : Int
  numOfBacksSaved : Int
  matchHistory : Int
  isCopy : Int
  copyIsEnd : Int

def State.zero : State := ⟨.zero, .zero, fun _ => .zero, 0, 0, 0, 0, 0, 0, 0, 0⟩

def State.readWrite (s : State) : Nat × Nat := (s.input.r, s.input.w)

def State.getHistory (s : State) (k : Int) : Except Fault Input :=
  match CArray.index? historySize k with
  | some j => .ok (s.history j)
  | none => .error (.outOfBounds .history k)

def State.setHistory (s : State) (k : Int) (x : Input) : Except Fault State :=
  match CArray.index? historySize k with
  | some j => .ok { s with history := Function.update s.history j x }
  | none => .error (.outOfBounds .history k)

lemma State.setHistory_input {s s' : State} {k : Int} {x : Input} (h : s.setHistory k x = .ok s') :
    s'.input = s.input := by
  simp only [State.setHistory] at h
  split at h
  · cases h
    rfl
  · cases h

def shiftRightLoop (b : Buffer) (bound : Nat) (x : Input) (i : Int) : Nat → Except Fault Input
  | 0 => .ok x
  | n + 1 =>
    if bound < toUint i then do
      let v ← x.get b ((i - 1).tmod inputBuf)
      let x' ← x.set b (i.tmod inputBuf) v
      shiftRightLoop b bound x' (i - 1) n
    else .ok x

def shiftLeftLoop (b : Buffer) (e : Nat) (x : Input) (i : Int) : Nat → Except Fault Input
  | 0 => .ok x
  | n + 1 =>
    if toUint i < e then do
      let v ← x.get b ((i + 1).tmod inputBuf)
      let x' ← x.set b (i.tmod inputBuf) v
      shiftLeftLoop b e x' (i + 1) n
    else .ok x

def shiftRight (x : Input) (b : Buffer) (nb : Int) : Except Fault Input :=
  shiftRightLoop b (toUint (x.e - nb)) x (toInt x.e) (x.e + 1)

def shiftLeft (x : Input) (b : Buffer) (nb : Int) : Except Fault Input := do
  let x' ← shiftLeftLoop b x.e x (toInt (toUint (x.e - nb - 1))) (x.e + 1)
  x'.set b x.e 32

lemma shiftRightLoop_counters {b : Buffer} {bound : Nat} {x y : Input} {i : Int} {n : Nat}
    (h : shiftRightLoop b bound x i n = .ok y) : y.counters = x.counters := by
  induction n generalizing x i with
  | zero =>
    cases h
    rfl
  | succ n ih =>
    simp only [shiftRightLoop] at h
    split at h
    · obtain ⟨v, -, h⟩ := Except.bind_eq_ok.mp h
      obtain ⟨x', hx', h⟩ := Except.bind_eq_ok.mp h
      rw [ih h, Input.set_counters hx']
    · cases h
      rfl

lemma shiftLeftLoop_counters {b : Buffer} {e : Nat} {x y : Input} {i : Int} {n : Nat}
    (h : shiftLeftLoop b e x i n = .ok y) : y.counters = x.counters := by
  induction n generalizing x i with
  | zero =>
    cases h
    rfl
  | succ n ih =>
    simp only [shiftLeftLoop] at h
    split at h
    · obtain ⟨v, -, h⟩ := Except.bind_eq_ok.mp h
      obtain ⟨x', hx', h⟩ := Except.bind_eq_ok.mp h
      rw [ih h, Input.set_counters hx']
    · cases h
      rfl

lemma Input.get_nat (x : Input) (b : Buffer) {i : Nat} (h : i < inputBuf) :
    x.get b (i : Int) = .ok (x.buf ⟨i, h⟩) := by
  rw [Input.get_of_lt _ _ (by omega) (by omega)]
  rfl

lemma Input.set_nat (x : Input) (b : Buffer) {i : Nat} (h : i < inputBuf) (v : Int) :
    x.set b (i : Int) v = .ok { x with buf := Function.update x.buf ⟨i, h⟩ v } := by
  have hi : CArray.index? inputBuf (i : Int) = some ⟨i, h⟩ := CArray.index?_fin ⟨i, h⟩
  simp only [Input.set, hi]

lemma tmod_inputBuf {i : Nat} (h : i < inputBuf) : ((i : Int)).tmod inputBuf = i := by
  rw [Int.tmod_eq_emod_of_nonneg (by omega), Int.emod_eq_of_lt (by omega) (by omega)]

lemma Input.slot_of_lt {k : Nat} (h : k < inputBuf) : Input.slot k = ⟨k, h⟩ :=
  Fin.ext (Nat.mod_eq_of_lt h)

def Input.movedUp (x : Input) (lo hi : Nat) : Input :=
  { x with buf := fun j => if lo < j.val ∧ j.val ≤ hi then x.buf (Input.slot (j.val - 1)) else x.buf j }

def Input.movedDown (x : Input) (lo hi : Nat) : Input :=
  { x with buf := fun j => if lo ≤ j.val ∧ j.val < hi then x.buf (Input.slot (j.val + 1)) else x.buf j }

lemma shiftLeftLoop_eq (b : Buffer) (x : Input) {e i n : Nat} (hie : i ≤ e) (he : e < inputBuf)
    (hn : e - i < n) : shiftLeftLoop b e x i n = .ok (x.movedDown i e) := by
  induction n generalizing x i with
  | zero => omega
  | succ n ih =>
    have hu : toUint (i : Int) = i := by
      rw [toUint_of_range (by omega) (by simp only [inputBuf] at he; omega)]
      simp
    simp only [shiftLeftLoop, hu]
    split
    · rename_i hlt
      have hi : i < inputBuf := by omega
      have hsucc : ((i : Int) + 1) = ((i + 1 : Nat) : Int) := by omega
      rw [hsucc, tmod_inputBuf (by omega), Input.get_nat _ _ (by omega), Except.ok_bind,
        tmod_inputBuf hi, Input.set_nat _ _ hi, Except.ok_bind, ih _ (by omega) (by omega)]
      simp only [Input.movedDown, Except.ok.injEq, Input.mk.injEq, and_true]
      funext j
      by_cases hj : j.val = i
      · have hji : j = ⟨i, hi⟩ := Fin.ext hj
        subst hji
        simp only [Function.update_self, le_refl, true_and, hlt, if_true,
          Input.slot_of_lt (show i + 1 < inputBuf by omega)]
        rw [if_neg (by omega)]
      · have hne : j ≠ ⟨i, hi⟩ := fun h => hj (congrArg Fin.val h)
        rw [Function.update_of_ne hne]
        by_cases hr : i + 1 ≤ j.val ∧ j.val < e
        · have hne' : Input.slot (j.val + 1) ≠ ⟨i, hi⟩ := by
            rw [Input.slot_of_lt (by omega)]
            intro h
            have := congrArg Fin.val h
            simp only at this
            omega
          rw [if_pos hr, if_pos ⟨by omega, hr.2⟩, Function.update_of_ne hne']
        · rw [if_neg hr, if_neg (by omega)]
    · have hie' : i = e := by omega
      subst hie'
      have hbuf : (fun j : Fin inputBuf => if i ≤ j.val ∧ j.val < i then
          x.buf (Input.slot (j.val + 1)) else x.buf j) = x.buf := funext fun j => if_neg (by omega)
      simp only [Input.movedDown, hbuf]

lemma shiftLeft_eq (x : Input) (b : Buffer) {nb : Int} (h0 : 0 < nb) (h1 : nb < x.e)
    (he : x.e < inputBuf) :
    shiftLeft x b nb =
      .ok { x with buf := Function.update (x.movedDown (x.e - nb.toNat - 1) x.e).buf ⟨x.e, he⟩ 32 } := by
  have hstart : toInt (toUint ((x.e : Int) - nb - 1)) = ((x.e - nb.toNat - 1 : Nat) : Int) := by
    rw [toUint_of_range (by omega) (by simp only [inputBuf] at he; omega),
      toInt_of_lt (by simp only [inputBuf] at he; omega)]
    omega
  rw [shiftLeft, hstart, shiftLeftLoop_eq b x (by omega) he (by omega), Except.ok_bind]
  exact Input.set_nat _ _ he 32

lemma shiftRight_counters {x y : Input} {b : Buffer} {nb : Int} (h : shiftRight x b nb = .ok y) :
    y.counters = x.counters :=
  shiftRightLoop_counters h

lemma shiftLeft_counters {x y : Input} {b : Buffer} {nb : Int} (h : shiftLeft x b nb = .ok y) :
    y.counters = x.counters := by
  obtain ⟨x', hx', h⟩ := Except.bind_eq_ok.mp h
  rw [Input.set_counters h, shiftLeftLoop_counters hx']

def clearLineLoop (x : Input) (end_ : Int) : Nat → Except Fault Unit
  | 0 => .ok ()
  | n + 1 =>
    if toUint end_ ≠ x.w then do
      let v ← x.get .input ((end_ - 1).tmod inputBuf)
      if v ≠ 10 then clearLineLoop x (end_ - 1) n else .ok ()
    else .ok ()

def clearLine (s : State) : Except Fault State := do
  clearLineLoop s.input (toInt s.input.e) (s.input.e + 2)
  pure { s with numOfBacks := 0 }

def displayLoop (x : Input) (b : Buffer) (i : Int) : Nat → Except Fault Unit
  | 0 => .ok ()
  | n + 1 =>
    if toUint i < x.e then do
      let _ ← x.get b i
      displayLoop x b (i + 1) n
    else .ok ()

def displayCommand (x : Input) : Except Fault Unit := displayLoop x .input (toInt x.w) (x.e + 1)

def displaySavedCommand (x : Input) : Except Fault Unit :=
  displayLoop x .savedInput (toInt x.w) (x.e + 1)

def arrowUp (s : State) : Except Fault State := do
  let s ← (if s.curent = s.end_ then s.setHistory (s.end_.tmod historySize) s.input else pure s)
  let s ← clearLine s
  let curent := s.curent - 1
  let x ← s.getHistory (curent.tmod historySize)
  let e := toUint (x.e - 1)
  let x ← { x with e := e }.set .input e 0
  displayCommand x
  pure { s with curent := curent, input := x }

def arrowDown (s : State) : Except Fault State :=
  if s.curent < s.end_ then do
    let s ← clearLine s
    let curent := s.curent + 1
    let x ← s.getHistory (curent.tmod historySize)
    let x ← (if x.e ≠ x.w ∧ curent ≠ s.end_ then
        let e := toUint (x.e - 1)
        { x with e := e }.set .input e 0
      else pure x)
    displayCommand x
    pure { s with curent := curent, input := x }
  else pure s

def consolereadLoop (target : Nat) (x : Input) (got : List Int) : Nat → Input × List Int × Bool
  | 0 => (x, got, true)
  | n + 1 =>
    if x.r = x.w then (x, got, false)
    else
      let c := x.buf (Input.slot x.r)
      if c = 4 then ((if n + 1 < target then x else { x with r := toUint (x.r + 1) }), got, true)
      else if c = 10 then ({ x with r := toUint (x.r + 1) }, got ++ [c], true)
      else consolereadLoop target { x with r := toUint (x.r + 1) } (got ++ [c]) n

def Input.pending (x : Input) : List Int :=
  (List.range (x.w - x.r)).map fun k => x.buf (Input.slot (x.r + k))

lemma Input.pending_congr {x y : Input} (hr : y.r = x.r) (hw : y.w = x.w)
    (hbuf : ∀ k, k < x.w - x.r → y.buf (Input.slot (x.r + k)) = x.buf (Input.slot (x.r + k))) :
    y.pending = x.pending := by
  simp only [Input.pending, hr, hw]
  refine List.map_congr_left fun k hk => hbuf k (List.mem_range.mp hk)

lemma Input.pending_cons {x : Input} (h : x.r < x.w) :
    x.pending = x.buf (Input.slot x.r) :: { x with r := x.r + 1 }.pending := by
  obtain ⟨m, hm⟩ : ∃ m, x.w - x.r = m + 1 := ⟨x.w - x.r - 1, by omega⟩
  simp only [Input.pending, hm, show x.w - (x.r + 1) = m by omega, List.range_succ_eq_map,
    List.map_cons, List.map_map, Nat.add_zero]
  congr 1
  refine List.map_congr_left fun k _ => ?_
  simp only [Function.comp_apply]
  congr 2
  omega

lemma Input.pending_commit (x : Input) (hrw : x.r ≤ x.w) (hwe : x.w ≤ x.e) :
    { x with w := x.e }.pending = x.pending ++ x.line := by
  simp only [Input.pending, Input.line, show x.e - x.r = (x.w - x.r) + (x.e - x.w) by omega,
    List.range_add, List.map_append, List.map_map]
  congr 1
  refine List.map_congr_left fun k _ => ?_
  simp only [Function.comp_apply]
  congr 2
  omega

lemma consolereadLoop_pending (target : Nat) (x : Input) (got : List Int) (n : Nat)
    (hrw : x.r ≤ x.w) (hw : x.w < 4294967296) {x' : Input} {got' : List Int} {done : Bool}
    (h : consolereadLoop target x got n = (x', got', done)) :
    ∃ taken, x.pending = taken ++ x'.pending ∧ got' = got ++ taken.filter (· != 4) ∧
      x.r ≤ x'.r ∧ x'.r ≤ x'.w ∧ x'.w = x.w ∧ x'.e = x.e ∧ x'.buf = x.buf := by
  induction n generalizing x got with
  | zero =>
    cases h
    exact ⟨[], rfl, by simp, le_refl _, hrw, rfl, rfl, rfl⟩
  | succ n ih =>
    simp only [consolereadLoop] at h
    split at h
    · cases h
      exact ⟨[], by simp, by simp, le_refl _, hrw, rfl, rfl, rfl⟩
    · rename_i hne
      have hlt : x.r < x.w := by omega
      have hu : toUint ((x.r : Int) + 1) = x.r + 1 := by
        rw [toUint_of_range (by omega) (by omega)]
        omega
      split at h
      · rename_i h4
        split at h
        · cases h
          exact ⟨[], by simp, by simp, le_refl _, hrw, rfl, rfl, rfl⟩
        · cases h
          refine ⟨[x.buf (Input.slot x.r)], ?_, by simp [h4], by simp only [hu]; omega,
            by simp only [hu]; omega, rfl, rfl, rfl⟩
          rw [Input.pending_cons hlt, hu]
          rfl
      · split at h
        · rename_i h4 h10
          cases h
          refine ⟨[x.buf (Input.slot x.r)], ?_, by simp [h4], by simp only [hu]; omega,
            by simp only [hu]; omega, rfl, rfl, rfl⟩
          rw [Input.pending_cons hlt, hu]
          rfl
        · rename_i h4 h10
          obtain ⟨taken, hp, hg, hrr, hrw', hw', he', hb'⟩ :=
            ih { x with r := toUint (x.r + 1) } (got ++ [x.buf (Input.slot x.r)])
              (by simp only [hu]; omega) hw h
          refine ⟨x.buf (Input.slot x.r) :: taken, ?_, ?_, by simp only [hu] at hrr; omega, hrw',
            hw', he', hb'⟩
          · rw [Input.pending_cons hlt, ← hu, hp]
            rfl
          · rw [hg]
            simp [h4]

def consoleread (s : State) (n : Nat) : State × List Int × Bool :=
  let (x, got, done) := consolereadLoop n s.input [] n
  ({ s with input := x }, got, done)

end Xv6.Console
