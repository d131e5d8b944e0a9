import Xv6.Console.Calculator

/-! `consoleintr`: the keyboard handler of the line editor, one key at a time. The arrow keys
recall history lines or move the cursor (`num_of_backs` counts the characters right of it),
`C('S')` and `C('F')` copy and paste, `C('U')` kills the line, backspace deletes left of the
cursor, and any other key first runs the calculator and then inserts the key at the cursor,
committing the line on newline, `C('D')` or a full buffer. Screen output (`consputc`, the CGA
cursor) and `procdump` are not modelled. -/

namespace Xv6.Console

open CInt

def keyUp : Int := 0xE2
def keyDn : Int := 0xE3
def keyLf : Int := 0xE4
def keyRt : Int := 0xE5

def ctrl (x : Int) : Int := x - 64

def keyLeft (s : State) : Except Fault State := do
  let s ← (if s.input.w < toUint (s.input.e - s.numOfBacks) then do
      let nb ← checkedInt (s.numOfBacks + 1)
      pure { s with numOfBacks := nb }
    else pure s)
  if s.savedInput.w < toUint (s.savedInput.e - s.numOfBacksSaved) ∧ s.isCopy = 1 then do
    let nbs ← checkedInt (s.numOfBacksSaved + 1)
    pure { s with numOfBacksSaved := nbs }
  else pure s

def keyRight (s : State) : State :=
  let s := if 0 < s.numOfBacks then { s with numOfBacks := s.numOfBacks - 1 } else s
  if 0 < s.numOfBacksSaved ∧ s.isCopy = 1 then { s with numOfBacksSaved := s.numOfBacksSaved - 1 }
  else s

def copyStart (s : State) : State :=
  { s with
    savedInput := { s.savedInput with e := s.savedInput.w }
    numOfBacksSaved := 0
    isCopy := 1
    copyIsEnd := 0 }

def pasteLoop (sv : Input) (nb : Int) (x : Input) (i : Int) : Nat → Except Fault Input
  | 0 => .ok x
  | n + 1 =>
    if toUint i < sv.e then do
      let v ← sv.get .savedInput i
      pasteLoop sv nb { x with
        buf := Function.update x.buf (Input.slot (toUint (x.e - nb))) v
        e := toUint (x.e + 1) } (i + 1) n
    else .ok x

def paste (s : State) : Except Fault State :=
  if s.copyIsEnd = 0 then .ok { s with copyIsEnd := 1, isCopy := 0 }
  else do
    displaySavedCommand s.savedInput
    let x ← pasteLoop s.savedInput s.numOfBacks s.input (toInt s.savedInput.w)
      (s.savedInput.e + 1)
    pure { s with isCopy := 0, input := x }

def killLineLoop (x : Input) : Nat → Input
  | 0 => x
  | n + 1 =>
    if x.e ≠ x.w ∧ x.buf (Input.slot (toUint (x.e - 1))) ≠ 10 then
      killLineLoop { x with e := toUint (x.e - 1) } n
    else x

def killLine (x : Input) : Input := killLineLoop x (toUint (x.e - x.w) + 1)

def historyCmd : List Int := [104, 105, 115, 116, 111, 114, 121, 0]

def matchHistoryLoop (x : Input) (mh i : Int) (j : Nat) : Nat → Except Fault Int
  | 0 => .ok mh
  | n + 1 =>
    if toUint i < x.e then do
      let v ← x.get .input i
      let hc ← match CArray.listGet? historyCmd j with
        | some c => .ok c
        | none => .error (.outOfBounds .historyCmd j)
      let mh := if v ≠ hc ∧ j ≤ 6 then 0 else if 7 ≤ j ∧ v ≠ 32 then 0 else mh
      matchHistoryLoop x mh (i + 1) (j + 1) n
    else .ok mh

def listHistoryLoop (s : State) (i : Int) : Nat → Except Fault Unit
  | 0 => .ok ()
  | n + 1 =>
    if i < s.size then do
      let x ← s.getHistory ((s.end_ - s.size + i).tmod historySize)
      let e := toUint (x.e - 1)
      let x ← { x with e := e }.set .input e 0
      displayCommand x
      listHistoryLoop s (i + 1) n
    else .ok ()

def enterLine (s : State) : Except Fault State := do
  let s := { s with numOfBacks := 0, numOfBacksSaved := 0, matchHistory := 0 }
  if 7 ≤ toUint (s.input.e - s.input.w) then do
    let mh ← matchHistoryLoop s.input 1 (toInt s.input.w) 0 (s.input.e + 1)
    if mh = 1 then listHistoryLoop s 0 s.size.toNat
    pure { s with matchHistory := mh }
  else pure s

def commitLine (s : State) : Except Fault State := do
  let s ← s.setHistory (s.end_.tmod historySize) s.input
  let end_ := s.end_ + 1
  pure { s with
    end_ := end_
    curent := end_
    size := if s.size < 10 then s.size + 1 else s.size
    input := { s.input with w := s.input.e } }

def insertKey (s : State) (c : Int) : Except Fault State := do
  let s ← (if c = 10 then enterLine s else pure s)
  let s ← printChar s (toSchar c)
  if c = 10 ∨ c = 4 ∨ s.input.e = toUint (s.input.r + inputBuf) then commitLine s
  else pure s

def defaultKey (s : State) (c : Int) : Except Fault State := do
  let s ← calculate s
  if c ≠ 0 ∧ toUint (s.input.e - s.input.r) < inputBuf then insertKey s (if c = 13 then 10 else c)
  else pure s

def consoleintrKey (s : State) (c : Int) : Except Fault State :=
  if c = keyUp then
    if s.size ≠ 0 ∧ s.end_ - s.curent < s.size then arrowUp s else .ok s
  else if c = keyDn then arrowDown s
  else if c = keyLf then keyLeft s
  else if c = keyRt then .ok (keyRight s)
  else if c = ctrl 80 then .ok { s with numOfBacks := 0, numOfBacksSaved := 0 }
  else if c = ctrl 83 then .ok (copyStart s)
  else if c = ctrl 70 then paste s
  else if c = ctrl 85 then .ok { s with input := killLine s.input }
  else if c = ctrl 72 ∨ c = 127 then backspace s
  else defaultKey s c

def consoleintr (s : State) (keys : List Int) : Except Fault State :=
  keys.foldlM consoleintrKey s

lemma enterLine_input {s s' : State} (h : enterLine s = .ok s') : s'.input = s.input := by
  simp only [enterLine] at h
  split at h
  · obtain ⟨_, -, h⟩ := Except.bind_eq_ok.mp h
    split at h
    · obtain ⟨_, -, h⟩ := Except.bind_eq_ok.mp h
      cases h
      rfl
    · cases h
      rfl
  · cases h
    rfl

theorem defaultKey_reads_past_input (s : State) (c : Int) (hlo : 131 ≤ s.input.e)
    (hhi : s.input.e ≤ intMax) (hnb : s.numOfBacks = 0) :
    defaultKey s c = .error (.outOfBounds .input (s.input.e - 3)) := by
  have hep : toInt (toUint (s.input.e - s.numOfBacks)) = s.input.e := by
    rw [hnb, Int.sub_zero]
    exact wrap_of_range (by simp only [intMin]; omega) hhi
  have hchk : checkedInt (s.input.e - 3) = .ok (s.input.e - 3) :=
    checkedInt_of_range (by simp only [intMin]; omega) (by simp only [intMax] at hhi ⊢; omega)
  have hget : s.input.get .input (s.input.e - 3) = .error (.outOfBounds .input (s.input.e - 3)) :=
    Input.get_of_out _ _ (.inr (by simp only [inputBuf]; omega))
  have hcalc : calculate s = .error (.outOfBounds .input (s.input.e - 3)) := by
    have h5 : 5 ≤ s.input.e := by omega
    simp only [calculate, h5, if_true, hep, findEquation, hchk, Except.ok_bind, hget,
      Except.error_bind]
  simp only [defaultKey, hcalc, Except.error_bind]

example : defaultKey { State.zero with input := { Input.zero with e := 131 } } 97 =
    .error (.outOfBounds .input 128) :=
  defaultKey_reads_past_input _ 97 (by decide) (by decide) rfl

theorem consoleintr_reads_before_input :
    consoleintr State.zero [97, 98, 99, 100, 101, keyLf, keyLf, keyLf, 102] =
        .error (.outOfBounds .input (-1)) ∧
      consoleintr State.zero [49, 43, 50, 61, 63, 10] = .error (.outOfBounds .input (-1)) := by
  constructor
  · rfl
  · rfl

theorem calculator_faults_on_zero_and_long_operands :
    consoleintr State.zero [120, 55, 37, 48, 61, 63, 32] = .error .divideByZero ∧
      consoleintr State.zero [120, 55, 47, 48, 61, 63, 32] = .error .floatToInt ∧
      consoleintr State.zero ([120] ++ List.replicate 10 57 ++ [43, 49, 61, 63, 32]) =
        .error .overflow := by
  refine ⟨rfl, Except.eq_error_of_error? ?_, rfl⟩
  -- the `float` division does not reduce by `rfl`: the kernel evaluates it
  decide +kernel

end Xv6.Console
