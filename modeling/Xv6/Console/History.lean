import Xv6.Console.Intr
import Mathlib.Data.List.GetD

/-! The history ring of `inputs`. Its `HISTORY_SIZE = 11` slots keep the last ten committed
lines and a draft: a commit saves the line in the slot `end % 11` and advances `end`, an
`arrow_up` from the newest position saves the line being edited in that same slot, and the
arrows move `curent` between `end - size` and `end`. Every key changes the ring in one of four
ways (`consoleintrKey_ringStep`). From that, over every run from boot, the slots that
`arrow_up`, `arrow_down` and the `history` listing read hold the lines the last `size` commits
saved, or the draft the latest `arrow_up` from the newest position saved
(`history_ring_invariant`). -/

namespace Xv6.Console

open CInt Binary32

def State.hist (s : State) : (Fin historySize → Input) × Int × Int × Int :=
  (s.history, s.curent, s.end_, s.size)

def ringSlot (k : Int) : Fin historySize :=
  ⟨(k % historySize).toNat, by simp only [historySize]; omega⟩

lemma index?_tmod_historySize {k : Int} (hk : 0 ≤ k) :
    CArray.index? historySize (k.tmod historySize) = some (ringSlot k) := by
  rw [CArray.index?_eq_some, Int.tmod_eq_emod_of_nonneg hk]
  simp only [ringSlot, historySize]
  omega

lemma getHistory_tmod (s : State) {k : Int} (hk : 0 ≤ k) :
    s.getHistory (k.tmod historySize) = .ok (s.history (ringSlot k)) := by
  simp only [State.getHistory, index?_tmod_historySize hk]

lemma setHistory_tmod {s s' : State} {k : Int} {x : Input} (hk : 0 ≤ k)
    (h : s.setHistory (k.tmod historySize) x = .ok s') :
    s' = { s with history := Function.update s.history (ringSlot k) x } := by
  simp only [State.setHistory, index?_tmod_historySize hk] at h
  cases h
  rfl

lemma ringSlot_sub_inj {k : Int} {j j' : Nat} (hj : j ≤ 10) (hj' : j' ≤ 10)
    (h : ringSlot (k - j) = ringSlot (k - j')) : j = j' := by
  simp only [ringSlot, historySize, Fin.mk.injEq] at h
  omega

lemma ringSlot_sub_ne {k : Int} {j : Nat} (h1 : 1 ≤ j) (hj : j ≤ 10) :
    ringSlot (k - j) ≠ ringSlot k := by
  intro h
  have := @ringSlot_sub_inj k j 0 hj (by omega) (by simpa using h)
  omega

lemma printChar_hist {s s' : State} {c : Int} (h : printChar s c = .ok s') :
    s'.hist = s.hist := by
  obtain ⟨x, -, h⟩ := Except.bind_eq_ok.mp h
  obtain ⟨sv, -, h⟩ := Except.bind_eq_ok.mp h
  obtain rfl := Except.pure_eq_ok.mp h
  rfl

lemma backspace_hist {s s' : State} (h : backspace s = .ok s') : s'.hist = s.hist := by
  rw [backspace] at h
  obtain ⟨s₁, h₁, h⟩ := Except.bind_eq_ok.mp h
  have e₁ : s₁.hist = s.hist := by
    split at h₁
    · obtain ⟨x, -, h₁⟩ := Except.bind_eq_ok.mp h₁
      cases h₁
      rfl
    · cases h₁
      rfl
  rw [← e₁]
  split at h
  · obtain ⟨_, -, h⟩ := Except.bind_eq_ok.mp h
    cases h
    rfl
  · cases h
    rfl

lemma calculate_hist {s s' : State} (h : calculate s = .ok s') : s'.hist = s.hist :=
  calculate_frame State.hist printChar_hist backspace_hist h

lemma keyLeft_hist {s s' : State} (h : keyLeft s = .ok s') : s'.hist = s.hist := by
  rw [keyLeft] at h
  obtain ⟨s₁, h₁, h⟩ := Except.bind_eq_ok.mp h
  have e₁ : s₁.hist = s.hist := by
    split at h₁
    · obtain ⟨_, -, h₁⟩ := Except.bind_eq_ok.mp h₁
      cases h₁
      rfl
    · cases h₁
      rfl
  rw [← e₁]
  split at h
  · obtain ⟨_, -, h⟩ := Except.bind_eq_ok.mp h
    cases h
    rfl
  · cases h
    rfl

lemma keyRight_hist (s : State) : (keyRight s).hist = s.hist := by
  simp only [keyRight]
  split_ifs <;> rfl

lemma paste_hist {s s' : State} (h : paste s = .ok s') : s'.hist = s.hist := by
  simp only [paste] at h
  split at h
  · cases h
    rfl
  · obtain ⟨_, -, h⟩ := Except.bind_eq_ok.mp h
    obtain ⟨x, -, h⟩ := Except.bind_eq_ok.mp h
    cases h
    rfl

lemma enterLine_hist {s s' : State} (h : enterLine s = .ok s') : s'.hist = s.hist := by
  simp only [enterLine] at h
  split at h
  · obtain ⟨_, -, h⟩ := Except.bind_eq_ok.mp h
    split at h
    · obtain ⟨_, -, h⟩ := Except.bind_eq_ok.mp h
      cases h
      rfl
    · cases h
      rfl
  · cases h
    rfl

lemma clearLine_hist {s s' : State} (h : clearLine s = .ok s') : s'.hist = s.hist := by
  obtain ⟨_, -, h⟩ := Except.bind_eq_ok.mp h
  cases h
  rfl

structure Commits (s s' : State) : Prop where
  history : s'.history = Function.update s.history (ringSlot s.end_) { s'.input with w := s.input.w }
  end_eq : s'.end_ = s.end_ + 1
  curent_eq : s'.curent = s.end_ + 1
  size_eq : s'.size = if s.size < 10 then s.size + 1 else s.size

inductive RingStep (s s' : State) : Prop
  | keep (h : s'.hist = s.hist)
  | up (hsize : s.size ≠ 0) (hguard : s.end_ - s.curent < s.size)
      (hhist : s'.history = if s.curent = s.end_ then
        Function.update s.history (ringSlot s.end_) s.input else s.history)
      (hcur : s'.curent = s.curent - 1) (hend : s'.end_ = s.end_) (hsz : s'.size = s.size)
  | down (hlt : s.curent < s.end_) (hhist : s'.history = s.history)
      (hcur : s'.curent = s.curent + 1) (hend : s'.end_ = s.end_) (hsz : s'.size = s.size)
  | commit (h : Commits s s')

lemma commitLine_ring {s s' : State} (h0 : 0 ≤ s.end_) (h : commitLine s = .ok s') :
    s'.history = Function.update s.history (ringSlot s.end_) s.input ∧ s'.end_ = s.end_ + 1 ∧
      s'.curent = s.end_ + 1 ∧ s'.size = (if s.size < 10 then s.size + 1 else s.size) ∧
      s'.input = { s.input with w := s.input.e } := by
  obtain ⟨s₁, h₁, h⟩ := Except.bind_eq_ok.mp h
  obtain rfl := setHistory_tmod h0 h₁
  cases h
  exact ⟨rfl, rfl, rfl, rfl, rfl⟩

lemma insertKey_ringStep {s s' : State} {c : Int} (h0 : 0 ≤ s.end_)
    (h : insertKey s c = .ok s') : s'.hist = s.hist ∨ Commits s s' := by
  rw [insertKey] at h
  obtain ⟨s₁, h₁, h⟩ := Except.bind_eq_ok.mp h
  have e₁ : s₁.hist = s.hist ∧ s₁.input = s.input := by
    split at h₁
    · exact ⟨enterLine_hist h₁, enterLine_input h₁⟩
    · cases h₁
      exact ⟨rfl, rfl⟩
  obtain ⟨s₂, h₂, h⟩ := Except.bind_eq_ok.mp h
  have e₂ : s₂.hist = s.hist := (printChar_hist h₂).trans e₁.1
  have ew : s₂.input.w = s.input.w := by
    have := printChar_readWrite h₂
    simp only [State.readWrite, Prod.mk.injEq, e₁.2] at this
    exact this.2
  simp only [State.hist, Prod.mk.injEq] at e₂
  obtain ⟨hh, hc, he, hs⟩ := e₂
  split at h
  · obtain ⟨hist, hend, hcur, hsize, hinput⟩ := commitLine_ring (he ▸ h0) h
    refine .inr ⟨?_, by rw [hend, he], by rw [hcur, he], by rw [hsize, hs]⟩
    rw [hist, hinput, hh, he, ← ew]
  · cases h
    exact .inl (by simp only [State.hist, hh, hc, he, hs])

lemma defaultKey_ringStep {s s' : State} {c : Int} (h0 : 0 ≤ s.end_)
    (h : defaultKey s c = .ok s') : s'.hist = s.hist ∨ Commits s s' := by
  rw [defaultKey] at h
  obtain ⟨s₁, h₁, h⟩ := Except.bind_eq_ok.mp h
  have e₁ := calculate_hist h₁
  have ew : s₁.input.w = s.input.w := by
    have := calculate_readWrite h₁
    simp only [State.readWrite, Prod.mk.injEq] at this
    exact this.2
  simp only [State.hist, Prod.mk.injEq] at e₁
  obtain ⟨hh, hc, he, hs⟩ := e₁
  split at h
  · rcases insertKey_ringStep (he ▸ h0) h with e | hcommit
    · exact .inl (by rw [e]; simp only [State.hist, hh, hc, he, hs])
    · refine .inr ⟨?_, by rw [hcommit.end_eq, he], by rw [hcommit.curent_eq, he],
        by rw [hcommit.size_eq, hs]⟩
      rw [hcommit.history, hh, he, ew]
  · cases h
    exact .inl (by simp only [State.hist, hh, hc, he, hs])

lemma arrowUp_spec {s s' : State} (h0 : 0 ≤ s.end_) (h : arrowUp s = .ok s') :
    s'.history = (if s.curent = s.end_ then
      Function.update s.history (ringSlot s.end_) s.input else s.history) ∧
      s'.curent = s.curent - 1 ∧ s'.end_ = s.end_ ∧ s'.size = s.size := by
  rw [arrowUp] at h
  obtain ⟨s₁, h₁, h⟩ := Except.bind_eq_ok.mp h
  have e₁ : s₁ = if s.curent = s.end_ then
      { s with history := Function.update s.history (ringSlot s.end_) s.input } else s := by
    split at h₁
    · rw [if_pos ‹_›]
      exact setHistory_tmod h0 h₁
    · rw [if_neg ‹_›]
      cases h₁
      rfl
  obtain ⟨s₂, h₂, h⟩ := Except.bind_eq_ok.mp h
  have e₂ := clearLine_hist h₂
  obtain ⟨_, -, h⟩ := Except.bind_eq_ok.mp h
  obtain ⟨_, -, h⟩ := Except.bind_eq_ok.mp h
  obtain ⟨_, -, h⟩ := Except.bind_eq_ok.mp h
  obtain rfl := Except.pure_eq_ok.mp h
  simp only [State.hist, Prod.mk.injEq] at e₂
  obtain ⟨hh, hc, he, hs⟩ := e₂
  refine ⟨?_, by rw [hc, e₁]; split_ifs <;> rfl, by rw [he, e₁]; split_ifs <;> rfl,
    by rw [hs, e₁]; split_ifs <;> rfl⟩
  rw [hh, e₁]
  split_ifs <;> rfl

lemma arrowDown_spec {s s' : State} (h : arrowDown s = .ok s') :
    s' = s ∨ (s.curent < s.end_ ∧ s'.history = s.history ∧ s'.curent = s.curent + 1 ∧
      s'.end_ = s.end_ ∧ s'.size = s.size) := by
  rw [arrowDown] at h
  split at h
  · rename_i hlt
    obtain ⟨s₁, h₁, h⟩ := Except.bind_eq_ok.mp h
    have e₁ := clearLine_hist h₁
    obtain ⟨_, -, h⟩ := Except.bind_eq_ok.mp h
    obtain ⟨_, -, h⟩ := Except.bind_eq_ok.mp h
    obtain ⟨_, -, h⟩ := Except.bind_eq_ok.mp h
    obtain rfl := Except.pure_eq_ok.mp h
    simp only [State.hist, Prod.mk.injEq] at e₁
    obtain ⟨hh, hc, he, hs⟩ := e₁
    exact .inr ⟨hlt, hh, by rw [hc], he, hs⟩
  · cases h
    exact .inl rfl

theorem consoleintrKey_ringStep {s s' : State} {c : Int} (h0 : 0 ≤ s.end_)
    (h : consoleintrKey s c = .ok s') : RingStep s s' := by
  simp only [consoleintrKey] at h
  split at h
  · split at h
    · rename_i hguard
      obtain ⟨hh, hc, he, hs⟩ := arrowUp_spec h0 h
      exact .up hguard.1 hguard.2 hh hc he hs
    · cases h
      exact .keep rfl
  split at h
  · rcases arrowDown_spec h with rfl | ⟨hlt, hh, hc, he, hs⟩
    · exact .keep rfl
    · exact .down hlt hh hc he hs
  split at h
  · exact .keep (keyLeft_hist h)
  split at h
  · cases h
    exact .keep (keyRight_hist s)
  split at h
  · cases h
    exact .keep rfl
  split at h
  · cases h
    exact .keep rfl
  split at h
  · exact .keep (paste_hist h)
  split at h
  · cases h
    exact .keep rfl
  split at h
  · exact .keep (backspace_hist h)
  · rcases defaultKey_ringStep h0 h with e | hcommit
    · exact .keep e
    · exact .commit hcommit

structure HistoryLog where
  lines : List Input
  draft : Input

def HistoryLog.empty : HistoryLog := ⟨[], .zero⟩

def HistoryLog.record (l : HistoryLog) (s s' : State) : HistoryLog where
  lines := if s'.end_ = s.end_ + 1 then l.lines ++ [{ s'.input with w := s.input.w }] else l.lines
  draft := if s'.curent + 1 = s.curent ∧ s.curent = s.end_ then s.input else l.draft

def loggedRun (s : State) (l : HistoryLog) : List Int → Except Fault (State × HistoryLog)
  | [] => .ok (s, l)
  | c :: keys => do
    let s' ← consoleintrKey s c
    loggedRun s' (l.record s s') keys

structure RingInv (s : State) (l : HistoryLog) : Prop where
  curent_le : s.curent ≤ s.end_
  window : s.end_ - s.curent ≤ s.size
  size_le_end : s.size ≤ s.end_
  size_le : s.size ≤ 10
  end_eq : s.end_ = l.lines.length
  slots : ∀ j : Nat, 1 ≤ j → (j : Int) ≤ s.size →
    s.history (ringSlot (s.end_ - j)) = l.lines.getD (l.lines.length - j) .zero
  draft : s.curent < s.end_ → s.history (ringSlot s.end_) = l.draft

lemma ringInv_zero : RingInv State.zero HistoryLog.empty where
  curent_le := le_rfl
  window := by simp [State.zero]
  size_le_end := le_rfl
  size_le := by simp [State.zero]
  end_eq := rfl
  slots j hj hjs := by
    simp only [State.zero] at hjs
    omega
  draft h := absurd h (lt_irrefl _)

section Step

variable {s s' : State} {l : HistoryLog}

lemma HistoryLog.record_lines_of_end (he : s'.end_ = s.end_) : (l.record s s').lines = l.lines := by
  simp [HistoryLog.record, he]

lemma HistoryLog.record_draft_of_ne (hc : s'.curent + 1 ≠ s.curent ∨ s.curent ≠ s.end_) :
    (l.record s s').draft = l.draft := by
  simp only [HistoryLog.record]
  rw [if_neg (by tauto)]

lemma RingInv.keep (hs : RingInv s l) (h : s'.hist = s.hist) : RingInv s' (l.record s s') := by
  simp only [State.hist, Prod.mk.injEq] at h
  obtain ⟨hh, hc, he, hsz⟩ := h
  have hrec : l.record s s' = l := by
    simp [HistoryLog.record, he, hc]
  rw [hrec]
  exact {
    curent_le := by rw [hc, he]; exact hs.curent_le
    window := by rw [hc, he, hsz]; exact hs.window
    size_le_end := by rw [he, hsz]; exact hs.size_le_end
    size_le := by rw [hsz]; exact hs.size_le
    end_eq := by rw [he]; exact hs.end_eq
    slots := fun j hj hjs => by
      rw [hsz] at hjs
      rw [hh, he]
      exact hs.slots j hj hjs
    draft := fun hlt => by
      rw [hc, he] at hlt
      rw [hh, he]
      exact hs.draft hlt }

lemma RingInv.up (hs : RingInv s l) (hguard : s.end_ - s.curent < s.size)
    (hhist : s'.history = if s.curent = s.end_ then
      Function.update s.history (ringSlot s.end_) s.input else s.history)
    (hcur : s'.curent = s.curent - 1) (hend : s'.end_ = s.end_) (hsz : s'.size = s.size) :
    RingInv s' (l.record s s') := by
  have hl : (l.record s s').lines = l.lines := HistoryLog.record_lines_of_end hend
  have hslot : ∀ j : Nat, 1 ≤ j → (j : Int) ≤ s.size →
      s'.history (ringSlot (s.end_ - j)) = s.history (ringSlot (s.end_ - j)) := by
    intro j hj hjs
    have hne := @ringSlot_sub_ne s.end_ j hj (by have := hs.size_le; omega)
    rw [hhist]
    split_ifs
    · exact Function.update_of_ne hne _ _
    · rfl
  refine ⟨by rw [hcur, hend]; linarith [hs.curent_le], by rw [hcur, hend, hsz]; omega,
    by rw [hend, hsz]; exact hs.size_le_end, by rw [hsz]; exact hs.size_le,
    by rw [hend, hl]; exact hs.end_eq, fun j hj hjs => ?_, fun hlt => ?_⟩
  · rw [hsz] at hjs
    rw [hend, hslot j hj hjs, hl]
    exact hs.slots j hj hjs
  · rw [hend, hhist]
    by_cases hce : s.curent = s.end_
    · have hd : (l.record s s').draft = s.input := by
        simp only [HistoryLog.record]
        rw [if_pos ⟨by omega, hce⟩]
      rw [if_pos hce, Function.update_self, hd]
    · rw [if_neg hce, HistoryLog.record_draft_of_ne (.inr hce)]
      exact hs.draft (lt_of_le_of_ne hs.curent_le hce)

lemma RingInv.down (hs : RingInv s l) (hlt : s.curent < s.end_) (hhist : s'.history = s.history)
    (hcur : s'.curent = s.curent + 1) (hend : s'.end_ = s.end_) (hsz : s'.size = s.size) :
    RingInv s' (l.record s s') := by
  have hl : (l.record s s').lines = l.lines := HistoryLog.record_lines_of_end hend
  have hd : (l.record s s').draft = l.draft := HistoryLog.record_draft_of_ne (.inl (by omega))
  refine ⟨by rw [hcur, hend]; omega, by rw [hcur, hend, hsz]; linarith [hs.window],
    by rw [hend, hsz]; exact hs.size_le_end, by rw [hsz]; exact hs.size_le,
    by rw [hend, hl]; exact hs.end_eq, fun j hj hjs => ?_, fun _ => ?_⟩
  · rw [hsz] at hjs
    rw [hend, hhist, hl]
    exact hs.slots j hj hjs
  · rw [hend, hhist, hd]
    exact hs.draft hlt

lemma RingInv.commit (hs : RingInv s l) (h : Commits s s') : RingInv s' (l.record s s') := by
  have hsize0 : 0 ≤ s.size := by linarith [hs.curent_le, hs.window]
  have hl : (l.record s s').lines = l.lines ++ [{ s'.input with w := s.input.w }] := by
    simp only [HistoryLog.record]
    rw [if_pos h.end_eq]
  have hsz' : s'.size ≤ s.size + 1 ∧ s'.size ≤ 10 ∧ 0 ≤ s'.size := by
    rw [h.size_eq]
    have := hs.size_le
    split_ifs <;> omega
  refine ⟨by rw [h.curent_eq, h.end_eq], by rw [h.curent_eq, h.end_eq]; omega,
    by rw [h.end_eq]; linarith [hs.size_le_end], hsz'.2.1,
    by rw [h.end_eq, hl, List.length_append, List.length_singleton, hs.end_eq]; push_cast; ring,
    fun j hj hjs => ?_, fun hlt => absurd hlt (by rw [h.curent_eq, h.end_eq]; exact lt_irrefl _)⟩
  rw [hl, h.history, h.end_eq, List.length_append, List.length_singleton]
  by_cases hj1 : j = 1
  · subst hj1
    have hslot : ringSlot (s.end_ + 1 - ((1 : Nat) : Int)) = ringSlot s.end_ := by
      congr 1
      push_cast
      ring
    rw [hslot, Function.update_self, Nat.add_sub_cancel, List.getD_append_right _ _ _ _ le_rfl,
      Nat.sub_self, List.getD_cons_zero]
  · have hj' : ((j - 1 : Nat) : Int) ≤ s.size := by omega
    have hslot : ringSlot (s.end_ + 1 - (j : Int)) = ringSlot (s.end_ - ((j - 1 : Nat) : Int)) := by
      congr 1
      omega
    have hne := @ringSlot_sub_ne s.end_ (j - 1) (by omega) (by have := hs.size_le; omega)
    have hlen : l.lines.length + 1 - j = l.lines.length - (j - 1) := by omega
    have hin : l.lines.length - (j - 1) < l.lines.length := by
      have := hs.end_eq
      have := hs.size_le_end
      omega
    rw [hslot, Function.update_of_ne hne, hs.slots (j - 1) (by omega) hj', hlen,
      List.getD_append _ _ _ _ hin]

end Step

theorem RingInv.run {keys : List Int} {s s' : State} {l : HistoryLog} (hs : RingInv s l)
    (h : consoleintr s keys = .ok s') : ∃ l', loggedRun s l keys = .ok (s', l') ∧ RingInv s' l' := by
  induction keys generalizing s l with
  | nil =>
    cases h
    exact ⟨l, rfl, hs⟩
  | cons c keys ih =>
    rw [consoleintr, List.foldlM_cons] at h
    obtain ⟨t, ht, hrest⟩ := Except.bind_eq_ok.mp h
    have h0 : 0 ≤ s.end_ := by linarith [hs.size_le_end, hs.curent_le, hs.window]
    have hst : RingInv t (l.record s t) := by
      cases consoleintrKey_ringStep h0 ht with
      | keep he => exact hs.keep he
      | up _ hguard hhist hcur hend hsz => exact hs.up hguard hhist hcur hend hsz
      | down hlt hhist hcur hend hsz => exact hs.down hlt hhist hcur hend hsz
      | commit hc => exact hs.commit hc
    obtain ⟨l', hrun, hinv⟩ := ih hst hrest
    refine ⟨l', ?_, hinv⟩
    rw [loggedRun, ht, Except.ok_bind]
    exact hrun

theorem history_ring_invariant {keys : List Int} {s : State}
    (h : consoleintr State.zero keys = .ok s) :
    ∃ l, loggedRun State.zero HistoryLog.empty keys = .ok (s, l) ∧
      0 ≤ s.end_ - s.curent ∧ s.end_ - s.curent ≤ s.size ∧ s.size ≤ min s.end_ 10 ∧
      (∀ j : Nat, 1 ≤ j → (j : Int) ≤ s.size →
        s.getHistory ((s.end_ - j).tmod historySize) =
          .ok (l.lines.getD (l.lines.length - j) .zero)) ∧
      (s.curent < s.end_ → s.getHistory (s.end_.tmod historySize) = .ok l.draft) ∧
      (∀ j j' : Nat, (j : Int) ≤ s.size → (j' : Int) ≤ s.size →
        ringSlot (s.end_ - j) = ringSlot (s.end_ - j') → j = j') := by
  obtain ⟨l, hrun, hs⟩ := ringInv_zero.run h
  have h0 : 0 ≤ s.end_ := by linarith [hs.size_le_end, hs.curent_le, hs.window]
  refine ⟨l, hrun, by linarith [hs.curent_le], hs.window, le_min hs.size_le_end hs.size_le,
    fun j hj hjs => ?_, fun hlt => ?_, fun j j' hj hj' => ringSlot_sub_inj ?_ ?_⟩
  · rw [getHistory_tmod s (by linarith [hs.size_le_end]), hs.slots j hj hjs]
  · rw [getHistory_tmod s h0, hs.draft hlt]
  · have := hs.size_le
    omega
  · have := hs.size_le
    omega

theorem history_ring_invariant_recall :
    ∃ s, consoleintr State.zero [120, 10, 97, keyUp] = .ok s ∧
      ∃ l, loggedRun State.zero HistoryLog.empty [120, 10, 97, keyUp] = .ok (s, l) ∧
        0 ≤ s.end_ - s.curent ∧ s.end_ - s.curent ≤ s.size ∧ s.size ≤ min s.end_ 10 ∧
        (∀ j : Nat, 1 ≤ j → (j : Int) ≤ s.size →
          s.getHistory ((s.end_ - j).tmod historySize) =
            .ok (l.lines.getD (l.lines.length - j) .zero)) ∧
        (s.curent < s.end_ → s.getHistory (s.end_.tmod historySize) = .ok l.draft) ∧
        (∀ j j' : Nat, (j : Int) ≤ s.size → (j' : Int) ≤ s.size →
          ringSlot (s.end_ - j) = ringSlot (s.end_ - j') → j = j') :=
  ⟨_, rfl, history_ring_invariant rfl⟩

theorem history_draft_resaved :
    ∃ s₁ s₂, consoleintr State.zero [120, 10, 97, keyUp] = .ok s₁ ∧
      consoleintr State.zero [120, 10, 97, keyUp, keyDn, 98, keyUp, keyDn] = .ok s₂ ∧
      s₁.end_ = 1 ∧ (s₁.history (ringSlot 1)).line = [97] ∧
      s₂.end_ = 1 ∧ s₂.curent = 1 ∧ (s₂.history (ringSlot 1)).line = [97, 98] ∧
      s₂.input.line = [97, 98] := by
  refine ⟨_, _, rfl, rfl, ?_⟩
  decide

end Xv6.Console
