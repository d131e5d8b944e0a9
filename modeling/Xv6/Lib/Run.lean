import Mathlib.Logic.Relation

/-! Runs of a transition system. A system is either a relation on states or a partial step
function on labelled actions; its reachable states are the reflexive-transitive closure of
one step, and an invariant is proved once: it holds at the start and every step keeps it. -/

namespace Run

open Relation

variable {σ α : Type*}

def Step (step : σ → α → Option σ) (s t : σ) : Prop := ∃ a, step s a = some t

def exec (step : σ → α → Option σ) (s : σ) (as : List α) : Option σ := as.foldlM step s

@[simp] lemma exec_nil (step : σ → α → Option σ) (s : σ) : exec step s [] = some s := rfl

@[simp] lemma exec_cons (step : σ → α → Option σ) (s : σ) (a : α) (as : List α) :
    exec step s (a :: as) = (step s a).bind (fun t => exec step t as) := rfl

lemma exec_append (step : σ → α → Option σ) (s : σ) (as bs : List α) :
    exec step s (as ++ bs) = (exec step s as).bind (fun t => exec step t bs) := by
  simp [exec, List.foldlM_append]

lemma exec_reach {step : σ → α → Option σ} {s t : σ} {as : List α}
    (h : exec step s as = some t) : ReflTransGen (Step step) s t := by
  induction as generalizing s with
  | nil =>
    simp only [exec_nil, Option.some.injEq] at h
    exact h ▸ ReflTransGen.refl
  | cons a as ih =>
    simp only [exec_cons, Option.bind_eq_some_iff] at h
    obtain ⟨u, hu, hrest⟩ := h
    exact ReflTransGen.head ⟨a, hu⟩ (ih hrest)

theorem exec_invariant_on {step : σ → α → Option σ} {P : σ → Prop} {Q : α → Prop}
    (hstep : ∀ s a t, Q a → P s → step s a = some t → P t) {s t : σ} {as : List α}
    (has : ∀ a ∈ as, Q a) (hs : P s) (h : exec step s as = some t) : P t := by
  induction as generalizing s with
  | nil =>
    simp only [exec_nil, Option.some.injEq] at h
    exact h ▸ hs
  | cons a as ih =>
    simp only [exec_cons, Option.bind_eq_some_iff] at h
    obtain ⟨u, hu, hrest⟩ := h
    exact ih (fun b hb => has b (List.mem_cons_of_mem a hb))
      (hstep s a u (has a List.mem_cons_self) hs hu) hrest

theorem exec_invariant {step : σ → α → Option σ} {P : σ → Prop}
    (hstep : ∀ s a t, P s → step s a = some t → P t) {s t : σ} {as : List α} (hs : P s)
    (h : exec step s as = some t) : P t :=
  @exec_invariant_on _ _ step P (fun _ => True) (fun s a t _ => hstep s a t) s t as
    (fun _ _ => trivial) hs h

theorem exec_invariant_within {step : σ → α → Option σ} {P Q : σ → Prop}
    (hstep : ∀ s a t, P s → step s a = some t → Q t → P t) {s t : σ} {as : List α} (hs : P s)
    (hQ : ∀ n u, exec step s (as.take n) = some u → Q u) (h : exec step s as = some t) : P t := by
  induction as generalizing s with
  | nil =>
    simp only [exec_nil, Option.some.injEq] at h
    exact h ▸ hs
  | cons a as ih =>
    simp only [exec_cons, Option.bind_eq_some_iff] at h
    obtain ⟨u, hu, hrest⟩ := h
    have hQu : Q u := hQ 1 u (by simp [hu])
    refine ih (hstep s a u hs hu hQu) (fun n v hv => hQ (n + 1) v ?_) hrest
    simp [hu, hv]

theorem exec_some_of_invariant {step : σ → α → Option σ} {P : σ → Prop}
    (hstep : ∀ s a, P s → ∃ t, step s a = some t ∧ P t) {s : σ} (hs : P s) (as : List α) :
    ∃ t, exec step s as = some t ∧ P t := by
  induction as generalizing s with
  | nil => exact ⟨s, rfl, hs⟩
  | cons a as ih =>
    obtain ⟨u, hu, hPu⟩ := hstep s a hs
    obtain ⟨t, ht, hPt⟩ := ih hPu
    exact ⟨t, by rw [exec_cons, hu, Option.bind_some, ht], hPt⟩

theorem invariant {R : σ → σ → Prop} {P : σ → Prop} (hstep : ∀ s t, P s → R s t → P t)
    {s t : σ} (hs : P s) (h : ReflTransGen R s t) : P t := by
  induction h with
  | refl => exact hs
  | tail _ hr ih => exact hstep _ _ ih hr

end Run
