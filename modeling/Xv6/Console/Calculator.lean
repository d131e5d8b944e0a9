import Xv6.Console.State
import Xv6.Lib.Binary32

/-! The in-line calculator of `consoleintr`: when the text left of the cursor ends in
`a op b=?`, the expression is evaluated (`get_num`, `get_answer`, in `int` and `float`),
erased (`remove_equation`) and replaced by the answer (`print_answer`, `print_number`,
`print_char`). The probe and the scan that recognise the expression read `input.buf` at raw
`int` indices counted back from the cursor, and the scan's `i >= input.w` compares `i` as an
`unsigned int`. Signed overflow, division by zero and out-of-range `float` to `int` conversions
are undefined behaviour and reported as faults. -/

namespace Xv6.Console

open CInt Binary32

def isDigitNumber (c : Int) : Bool := decide (48 ≤ c ∧ c ≤ 57)

def isOperator (c : Int) : Bool := decide (c = 43 ∨ c = 45 ∨ c = 42 ∨ c = 47 ∨ c = 37)

def checkedInt (x : Int) : Except Fault Int :=
  match ofInt? x with
  | some v => .ok v
  | none => .error .overflow

lemma checkedInt_of_range {x : Int} (h0 : intMin ≤ x) (h1 : x ≤ intMax) : checkedInt x = .ok x := by
  have hx : ofInt? x = some x := ofInt?_eq_some.mpr ⟨h0, h1, rfl⟩
  simp only [checkedInt, hx]

def getNumLoop (x : Input) (indexEnd : Int) (num i : Int) : Nat → Except Fault Int
  | 0 => .ok num
  | n + 1 =>
    if i ≤ indexEnd then do
      let num ← checkedInt (num * 10)
      let d ← x.get .input i
      let num ← checkedInt (num + (d - 48))
      getNumLoop x indexEnd num (i + 1) n
    else .ok num

def getNum (x : Input) (indexNum indexEnd : Int) : Except Fault Int :=
  getNumLoop x indexEnd 0 indexNum ((indexEnd - indexNum + 1).toNat)

def getAnswer (x : Input) (indexNum1 indexNum2 editPlace isNum1Neg : Int) : Except Fault F32 := do
  let num1 ← getNum x indexNum1 (indexNum2 - 2)
  let num2 ← getNum x indexNum2 (editPlace - 3)
  let num1 ← (if isNum1Neg = 1 then checkedInt (0 - num1) else pure num1)
  let op ← x.get .input (indexNum2 - 1)
  if op = 43 then return ofInt (← checkedInt (num1 + num2))
  else if op = 45 then return ofInt (← checkedInt (num1 - num2))
  else if op = 42 then return ofInt (← checkedInt (num1 * num2))
  else if op = 37 then
    -- `INT_MIN % -1` traps like the division it is computed with
    if num2 = 0 then throw .divideByZero
    else if num1 = intMin ∧ num2 = -1 then throw .overflow
    else return ofInt (num1.tmod num2)
  else if op = 47 then return div (ofInt num1) (ofInt num2)
  else return .finite 0

def printChar (s : State) (inpAns : Int) : Except Fault State := do
  let x ← shiftRight s.input .input s.numOfBacks
  let sv ← shiftRight s.savedInput .savedInput s.numOfBacksSaved
  let x := { x with
    buf := Function.update x.buf (Input.slot (toUint (x.e - s.numOfBacks))) inpAns
    e := toUint (x.e + 1) }
  let sv := if s.isCopy = 1 then { sv with
      buf := Function.update sv.buf (Input.slot (toUint (sv.e - s.numOfBacksSaved))) inpAns
      e := toUint (sv.e + 1) }
    else sv
  pure { s with input := x, savedInput := sv }

def printNumber (s : State) (ans : Int) : Nat → Except Fault State
  | 0 => .ok s
  | n + 1 =>
    if ans ≤ 0 then .ok s
    else do
      let s ← printNumber s (ans.tdiv 10) n
      printChar s (toSchar (48 + ans.tmod 10))

def printAnswer (s : State) (floatAns : F32) (indexNum2 : Int) : Except Fault State := do
  let (s, floatAns) ← (if lt floatAns (.finite 0) then do
      let s ← printChar s 45
      pure (s, neg floatAns)
    else pure (s, floatAns))
  let op ← s.input.get .input (indexNum2 - 1)
  let floatPart ← (if op = 47 then do
      let temp ← match toInt? (mul floatAns (ofInt 10)) with
        | some t => pure t
        | none => throw .floatToInt
      pure (toSchar (48 + temp.tmod 10))
    else pure 48)
  let s ← (if lt floatAns (.finite 1) then printChar s 48
    else match toInt? floatAns with
      | some n => printNumber s n 10
      | none => throw .floatToInt)
  let op ← s.input.get .input (indexNum2 - 1)
  if op = 47 then do
    let s ← printChar s 46
    printChar s floatPart
  else pure s

def backspace (s : State) : Except Fault State := do
  let s ← (if s.input.e ≠ s.input.w ∧ toUint s.numOfBacks < toUint (s.input.e - s.input.w) then do
      let x ← (if 0 < s.numOfBacks then shiftLeft s.input .input s.numOfBacks else pure s.input)
      pure { s with input := { x with e := toUint (x.e - 1) } }
    else pure s)
  if s.savedInput.e ≠ s.savedInput.w ∧
      toUint s.numOfBacksSaved < toUint (s.savedInput.e - s.savedInput.w) ∧ s.isCopy = 1 then do
    let sv ← (if 0 < s.numOfBacksSaved then shiftLeft s.savedInput .savedInput s.numOfBacksSaved
      else pure s.savedInput)
    pure { s with savedInput := { sv with e := toUint (sv.e - 1) } }
  else pure s

def removeEquation (s : State) (removeNum : Int) : Except Fault State :=
  (List.range removeNum.toNat).foldlM (fun s _ => backspace s) s

structure Scan where
  stateMachine : Int
  matchEquation : Int
  indexNum1 : Int
  indexNum2 : Int
  isNum1Neg : Int

def scanLoop (x : Input) (sc : Scan) (i : Int) : Nat → Except Fault Scan
  | 0 => .ok sc
  | n + 1 =>
    if toUint i < x.w then .ok sc
    else
      let next (sc : Scan) : Except Fault Scan :=
        if i = intMin then .error .overflow else scanLoop x sc (i - 1) n
      if sc.stateMachine = 0 then do
        let v ← x.get .input i
        if isDigitNumber v then next sc
        else if isOperator v then next { sc with stateMachine := 1, indexNum2 := i + 1 }
        else .ok sc
      else if sc.stateMachine = 1 then do
        let v2 ← x.get .input (sc.indexNum2 - 2)
        if isDigitNumber v2 then do
          let sc := { sc with matchEquation := 1, indexNum1 := i }
          let v ← x.get .input i
          if isDigitNumber v then next sc
          else if v = 45 then .ok { sc with indexNum1 := i + 1, isNum1Neg := 1 }
          else .ok { sc with indexNum1 := i + 1 }
        else next sc
      else next sc

def findEquation (x : Input) (editPlace : Int) : Except Fault Scan := do
  let start : Scan := ⟨0, 0, 0, 0, 0⟩
  let i ← checkedInt (editPlace - 3)
  let d ← x.get .input i
  if isDigitNumber d then do
    let q ← x.get .input (editPlace - 2)
    if q = 61 then do
      let m ← x.get .input (editPlace - 1)
      if m = 63 then scanLoop x start i ((i - intMin).toNat + 1)
      else pure start
    else pure start
  else pure start

def probeMatches (x : Input) (ep : Nat) : Bool :=
  isDigitNumber (x.buf (Input.slot (ep - 3))) && x.buf (Input.slot (ep - 2)) == 61 &&
    x.buf (Input.slot (ep - 1)) == 63

def calculate (s : State) : Except Fault State :=
  if 5 ≤ s.input.e then do
    let editPlace := toInt (toUint (s.input.e - s.numOfBacks))
    let sc ← findEquation s.input editPlace
    if sc.matchEquation = 1 then do
      let floatAns ← getAnswer s.input sc.indexNum1 sc.indexNum2 editPlace sc.isNum1Neg
      let numRemove ← checkedInt (editPlace - sc.indexNum1)
      let numRemove ← checkedInt (numRemove + sc.isNum1Neg)
      let s ← removeEquation s numRemove
      printAnswer s floatAns sc.indexNum2
    else pure s
  else pure s

end Xv6.Console

namespace Xv6.Console

open CInt Binary32

section Frame

variable {β : Type} (f : State → β)
  (hpc : ∀ {s s' : State} {c : Int}, printChar s c = .ok s' → f s' = f s)
include hpc

lemma printNumber_frame {s s' : State} {ans : Int} {n : Nat} (h : printNumber s ans n = .ok s') :
    f s' = f s := by
  induction n generalizing s' ans with
  | zero =>
    cases h
    rfl
  | succ n ih =>
    simp only [printNumber] at h
    split at h
    · cases h
      rfl
    · obtain ⟨t, ht, h⟩ := Except.bind_eq_ok.mp h
      rw [hpc h, ih ht]

lemma printAnswer_frame {s s' : State} {fa : F32} {indexNum2 : Int}
    (h : printAnswer s fa indexNum2 = .ok s') : f s' = f s := by
  rw [printAnswer] at h
  obtain ⟨⟨s₁, f₁⟩, h₁, h⟩ := Except.bind_eq_ok.mp h
  have e₁ : f s₁ = f s := by
    split at h₁
    · obtain ⟨t, ht, h₁⟩ := Except.bind_eq_ok.mp h₁
      cases h₁
      exact hpc ht
    · cases h₁
      rfl
  obtain ⟨_, -, h⟩ := Except.bind_eq_ok.mp h
  obtain ⟨_, -, h⟩ := Except.bind_eq_ok.mp h
  obtain ⟨s₂, h₂, h⟩ := Except.bind_eq_ok.mp h
  have e₂ : f s₂ = f s₁ := by
    split at h₂
    · exact hpc h₂
    · split at h₂
      · exact printNumber_frame f hpc h₂
      · cases h₂
  obtain ⟨_, -, h⟩ := Except.bind_eq_ok.mp h
  rw [← e₁, ← e₂]
  split at h
  · obtain ⟨s₃, h₃, h⟩ := Except.bind_eq_ok.mp h
    rw [hpc h, hpc h₃]
  · cases h
    rfl

variable (hbs : ∀ {s s' : State}, backspace s = .ok s' → f s' = f s)
include hbs

lemma calculate_frame {s s' : State} (h : calculate s = .ok s') : f s' = f s := by
  simp only [calculate] at h
  split at h
  · obtain ⟨sc, -, h⟩ := Except.bind_eq_ok.mp h
    split at h
    · obtain ⟨_, -, h⟩ := Except.bind_eq_ok.mp h
      obtain ⟨_, -, h⟩ := Except.bind_eq_ok.mp h
      obtain ⟨_, -, h⟩ := Except.bind_eq_ok.mp h
      obtain ⟨t, ht, h⟩ := Except.bind_eq_ok.mp h
      have e : f t = f s := Except.foldlM_invariant (fun u _ u' hu h' => (hbs h').trans hu) rfl ht
      rw [printAnswer_frame f hpc h, e]
    · cases h
      rfl
  · cases h
    rfl

end Frame

lemma printChar_readWrite {s s' : State} {c : Int} (h : printChar s c = .ok s') :
    s'.readWrite = s.readWrite := by
  obtain ⟨x, hx, h⟩ := Except.bind_eq_ok.mp h
  obtain ⟨sv, -, h⟩ := Except.bind_eq_ok.mp h
  obtain rfl := Except.pure_eq_ok.mp h
  have hc := shiftRight_counters hx
  simp only [Input.counters, Prod.mk.injEq] at hc
  simp only [State.readWrite, hc]

lemma backspace_readWrite {s s' : State} (h : backspace s = .ok s') :
    s'.readWrite = s.readWrite := by
  rw [backspace] at h
  obtain ⟨s₁, h₁, h⟩ := Except.bind_eq_ok.mp h
  have e₁ : s₁.readWrite = s.readWrite := by
    split at h₁
    · obtain ⟨x, hx, h₁⟩ := Except.bind_eq_ok.mp h₁
      cases h₁
      have hc : x.counters = s.input.counters := by
        split at hx
        · exact shiftLeft_counters hx
        · cases hx
          rfl
      simp only [Input.counters, Prod.mk.injEq] at hc
      simp only [State.readWrite, hc]
    · cases h₁
      rfl
  rw [← e₁]
  split at h
  · obtain ⟨_, -, h⟩ := Except.bind_eq_ok.mp h
    cases h
    rfl
  · cases h
    rfl

lemma calculate_readWrite {s s' : State} (h : calculate s = .ok s') :
    s'.readWrite = s.readWrite :=
  calculate_frame State.readWrite printChar_readWrite backspace_readWrite h

end Xv6.Console
