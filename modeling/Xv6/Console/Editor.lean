import Xv6.Console.Intr

/-! The line editor the console is meant to be, stated on its own: a line and a cursor inside
it. The console's state is read as such an editor through `State.view`, the line `buf[w..e)`
with the cursor `(e - num_of_backs) - w`, and the faults below are stated against it. -/

namespace Xv6.Console

open CInt

structure Editor where
  line : List Int
  cursor : Nat
  cursor_le : cursor ≤ line.length

namespace Editor

def kill (_ : Editor) : Editor := ⟨[], 0, le_refl _⟩

def insert (ed : Editor) (c : Int) : Editor :=
  ⟨ed.line.take ed.cursor ++ c :: ed.line.drop ed.cursor, ed.cursor + 1, by
    have := ed.cursor_le
    simp only [List.length_append, List.length_take, List.length_cons, List.length_drop]
    omega⟩

def view (ed : Editor) : List Int × Int := (ed.line, ed.cursor)

end Editor

def State.view (s : State) : List Int × Int :=
  (s.input.line, (s.input.e : Int) - s.numOfBacks - s.input.w)

theorem kill_line_puts_cursor_before_line :
    ∃ s s' s'', consoleintr State.zero [97, 98, keyLf] = .ok s ∧
      consoleintrKey s (ctrl 85) = .ok s' ∧ consoleintrKey s' 99 = .ok s'' ∧
      s.view = ([97, 98], 1) ∧
      s'.view = ([], -1) ∧ s'.numOfBacks = 1 ∧ s'.input.e = s'.input.w ∧
      s''.view = ([97], 0) ∧
      (Editor.kill ⟨[97, 98], 1, by decide⟩).view = ([], 0) ∧
      ((Editor.kill ⟨[97, 98], 1, by decide⟩).insert 99).view = ([99], 1) := by
  refine ⟨_, _, _, rfl, rfl, rfl, ?_⟩
  decide

theorem calculator_answer_reads_shifted_operator :
    (consoleintr State.zero [47, keyLf, 45, 55, 43, 50, 61, 63]).toOption.map State.view =
        some ([45, 55, 43, 50, 61, 63, 47], 6) ∧
      (consoleintr State.zero [47, keyLf, 45, 55, 43, 50, 61, 63, 32]).toOption.map State.view =
        some ([45, 53, 46, 48, 32, 47], 5) ∧
      ((((⟨[47], 0, by decide⟩ : Editor).insert 45).insert 53).insert 32).view =
        ([45, 53, 32, 47], 3) := by
  refine ⟨?_, ?_, rfl⟩ <;> decide +kernel

theorem paste_after_copy_inserts_shifted_text :
    (consoleintr State.zero [ctrl 83, 97, 98, keyLf, keyLf, ctrl 70]).toOption.map
        (fun s => s.savedInput.line) = some [97, 98] ∧
      (consoleintr State.zero [ctrl 83, 97, 98, keyLf, keyLf, ctrl 70, keyRt, keyRt, 99]).toOption.map
        (fun s => (s.view, s.savedInput.line)) = some (([97, 98, 99], 3), [97, 97]) ∧
      (consoleintr State.zero [ctrl 83, 97, 98, keyLf, keyLf, ctrl 70, keyRt, keyRt, 99,
        ctrl 70]).toOption.map State.view = some ([97, 98, 99, 97, 97], 5) ∧
      (((⟨[97, 98, 99], 3, by decide⟩ : Editor).insert 97).insert 98).view =
        ([97, 98, 99, 97, 98], 5) ∧
      (consoleintr State.zero [ctrl 83, 97, ctrl 70, keyLf, ctrl 70]).toOption.map State.view =
        some ([97, 0], 1) ∧
      ((⟨[97], 0, by decide⟩ : Editor).insert 97).view = ([97, 97], 1) := by
  refine ⟨?_, ?_, ?_, rfl, ?_, rfl⟩ <;> decide +kernel

end Xv6.Console
