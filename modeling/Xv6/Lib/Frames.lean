import Mathlib.Data.List.Perm.Basic
import Mathlib.Data.List.Range

/-! The frames a table of slots holds. A table maps each slot to the frame it holds, if any, and
`held f s c` reads the slots `s, s + 1, ..., s + c - 1` in order. Reading splits where the
slots split (`held_append`), does not see a change at a slot it does not read (`held_congr`),
and a slot that gains a frame adds it to what is held, up to order (`held_perm_of_update`); read
backwards, a slot that gives its frame up takes it away. -/

namespace Frames

variable {α : Type*} {f g : Nat → Option α} {s c : Nat}

def held (f : Nat → Option α) (s c : Nat) : List α := (List.range' s c).filterMap f

@[simp] lemma held_zero (f : Nat → Option α) (s : Nat) : held f s 0 = [] := rfl

lemma held_succ (f : Nat → Option α) (s c : Nat) :
    held f s (c + 1) = (f s).toList ++ held f (s + 1) c := by
  simp only [held, List.range'_succ, List.filterMap_cons]
  cases f s <;> simp

lemma held_append (f : Nat → Option α) (s a b : Nat) :
    held f s (a + b) = held f s a ++ held f (s + a) b := by
  have h := @List.range'_append s a b 1
  rw [Nat.one_mul] at h
  simp only [held, ← h, List.filterMap_append]

lemma held_congr (h : ∀ i, s ≤ i → i < s + c → f i = g i) : held f s c = held g s c := by
  apply List.filterMap_congr
  intro i hi
  rw [List.mem_range'_1] at hi
  exact h i hi.1 hi.2

lemma mem_held {v : α} : v ∈ held f s c ↔ ∃ i, s ≤ i ∧ i < s + c ∧ f i = some v := by
  simp only [held, List.mem_filterMap, List.mem_range'_1]
  constructor
  · rintro ⟨i, ⟨hs, hc⟩, hi⟩
    exact ⟨i, hs, hc, hi⟩
  · rintro ⟨i, hs, hc, hi⟩
    exact ⟨i, ⟨hs, hc⟩, hi⟩

lemma held_eq_nil (h : ∀ i, s ≤ i → i < s + c → f i = none) : held f s c = [] := by
  rw [held_congr (g := fun _ => none) h]
  simp [held]

lemma held_perm_of_update {n : Nat} {v : α} (hn : s ≤ n) (hn' : n < s + c)
    (hother : ∀ i, i ≠ n → g i = f i) (hf : f n = none) (hg : g n = some v) :
    (held g s c).Perm (v :: held f s c) := by
  obtain ⟨a, rfl⟩ : ∃ a, n = s + a := ⟨n - s, by omega⟩
  obtain ⟨b, rfl⟩ : ∃ b, c = a + (1 + b) := ⟨c - a - 1, by omega⟩
  have hlow : held g s a = held f s a :=
    held_congr fun i _ hi => hother i (by omega)
  have hhigh : held g (s + a + 1) b = held f (s + a + 1) b :=
    held_congr fun i hi _ => hother i (by omega)
  have split : ∀ h : Nat → Option α,
      held h s (a + (1 + b)) = held h s a ++ ((h (s + a)).toList ++ held h (s + a + 1) b) := by
    intro h
    rw [held_append, held_append, held_succ, held_zero, List.append_nil]
  rw [split, split, hlow, hhigh, hf, hg]
  exact List.perm_middle

end Frames
