import Mathlib.Tactic.TypeStar
import Mathlib.Tactic.Lemma

/-! Computations in `Except ε` that fail with an error value. A bind that succeeds is inverted
once (`bind_eq_ok`), so a proof peels a `do` block apart with `obtain`; a loop written as a
`foldlM` keeps any property every pass keeps (`foldlM_invariant`). -/

namespace Except

universe u v

variable {ε : Type u} {α β σ : Type v}

@[simp] lemma ok_bind (a : α) (f : α → Except ε β) : (Except.ok a >>= f) = f a := rfl

@[simp] lemma error_bind (e : ε) (f : α → Except ε β) : (Except.error e >>= f) = .error e := rfl

@[simp] lemma pure_eq_ok {a b : α} : (pure a : Except ε α) = .ok b ↔ a = b := by
  simp only [pure, Except.pure, Except.ok.injEq]

lemma bind_eq_ok {x : Except ε α} {f : α → Except ε β} {b : β} :
    x >>= f = .ok b ↔ ∃ a, x = .ok a ∧ f a = .ok b := by
  cases x with
  | error e => simp
  | ok a => simp

lemma bind_eq_self {x : Except ε α} {f : α → Except ε α} (h : ∀ a, x = .ok a → f a = .ok a) :
    x >>= f = x := by
  cases x with
  | error e => rfl
  | ok a => exact h a rfl

def error? : Except ε α → Option ε
  | .error e => some e
  | .ok _ => none

lemma eq_error_of_error? {x : Except ε α} {e : ε} (h : x.error? = some e) : x = .error e := by
  cases x with
  | error e' =>
    cases h
    rfl
  | ok a => cases h

lemma foldlM_invariant {f : σ → α → Except ε σ} {P : σ → Prop}
    (hstep : ∀ s a t, P s → f s a = .ok t → P t) {s t : σ} {l : List α} (hs : P s)
    (h : l.foldlM f s = .ok t) : P t := by
  induction l generalizing s with
  | nil =>
    simp only [List.foldlM_nil, pure, Except.pure, Except.ok.injEq] at h
    exact h ▸ hs
  | cons a l ih =>
    rw [List.foldlM_cons, bind_eq_ok] at h
    obtain ⟨u, hu, hrest⟩ := h
    exact ih (hstep s a u hs hu) hrest

end Except
