import Xv6.Console.Intr
import Xv6.Lib.Run

/-! The console as a producer and a consumer of one buffer: key presses run `consoleintr`, and
a reader runs `consoleread`, which sleeps while nothing is committed and is woken by a commit.
Two ghost fields record what crosses the buffer: the lines `consoleintr` committed, each read
from the history entry the commit saved, and the bytes `consoleread` copied out. Delivery is
correct when the delivered bytes are a prefix of the committed lines with their `C('D')`
markers removed; recalling a history line breaks it, because the recall loads the old `r` and
`w` back into `input`. -/

namespace Xv6.Console

open CInt

structure Machine where
  con : State
  reader : Option (Nat × Nat)
  delivered : List Int
  committed : List Int

def Machine.init : Machine := ⟨State.zero, none, [], []⟩

inductive Event
  | key (c : Int)
  | read (n : Nat)
  | wake

def committedBy (s s' : State) : List Int :=
  if s'.end_ = s.end_ then []
  else
    match s'.getHistory (s.end_.tmod historySize) with
    | .ok x => x.line
    | .error _ => []

def readerRun (m : Machine) (target n : Nat) : Machine :=
  let (x, got, done) := consolereadLoop target m.con.input [] n
  { m with
    con := { m.con with input := x }
    delivered := m.delivered ++ got
    reader := if done then none else some (target, n - got.length) }

def step (m : Machine) : Event → Option Machine
  | .key c =>
    match consoleintrKey m.con c with
    | .ok s => some { m with con := s, committed := m.committed ++ committedBy m.con s }
    | .error _ => none
  | .read n => if m.reader = none then some (readerRun m n n) else none
  | .wake =>
    match m.reader with
    | some (target, n) => some (readerRun m target n)
    | none => none

def Delivered (m : Machine) : Prop := m.delivered <+: m.committed.filter (· != 4)

instance (m : Machine) : Decidable (Delivered m) := inferInstanceAs (Decidable (_ <+: _))

theorem history_recall_loses_committed_line :
    ∃ m₁ m₂ m, Run.exec step Machine.init [.key 97, .key 10, .key 98, .key 10] = some m₁ ∧
      step m₁ (.key keyUp) = some m₂ ∧
      Run.exec step m₂ [.key 99, .key 10, .read 128, .read 128] = some m ∧
      m₁.con.input.w = 4 ∧ m₂.con.input.w = 2 ∧
      m.committed = [97, 10, 98, 10, 98, 99, 10] ∧ m.delivered = [97, 10, 98, 99, 10] ∧
      ¬ Delivered m := by
  refine ⟨_, _, _, rfl, rfl, rfl, ?_⟩
  decide

end Xv6.Console
