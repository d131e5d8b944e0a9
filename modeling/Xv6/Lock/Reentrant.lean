import Xv6.Lib.Run
import Xv6.Lib.CInt

/-! The reentrant lock of `spinlock.c`, shared by processes on several CPUs. A process inside
`acquirereentrantlock` or `releasereentrantlock` runs with interrupts off, so it stays on its
CPU, and other CPUs interleave with it at every read and write of `owner`, `recursion` and the
spinlock's `locked` and `cpu`: each of those accesses is one step (`Pc`). A process calls
`releasereentrantlock` only after more acquires than releases of its own.

The spinlock is taken by one process at a time, the one recorded as `holder`. It alone is
`owner` or has unmatched acquires (`Inv`), so the owner test outside the spinlock never
passes for another process. `recursion` is an `int`: the bookkeeping is exact while no process
nests `2^31` acquires (`reentrant_lock_exclusive`), and the `2^31`-th nested acquire wraps it
to `INT_MIN` (`nested_acquires_wrap_recursion`). -/

namespace Xv6.Reentrant

inductive Pc
  | idle
  | acqTest
  | acqInc
  | acqHolding
  | acqSpin
  | acqCpu
  | acqOwner
  | acqRec
  | relTest
  | relDec
  | relCheck
  | relClear
  | relHolding
  | relCpu
  | relUnlock
  | panicked
  deriving DecidableEq, Repr

structure Sys (ι : Type) where
  locked : Bool
  cpu : Option ι
  owner : Option ι
  recursion : Int
  pc : ι → Pc
  held : ι → Nat
  holder : Option ι

inductive Event (ι : Type)
  | acquire (p : ι)
  | release (p : ι)
  | run (p : ι)

variable {ι : Type}

namespace Sys

def init : Sys ι := ⟨false, none, none, 0, fun _ => .idle, fun _ => 0, none⟩

variable [DecidableEq ι]

def go (s : Sys ι) (p : ι) (c : Pc) : Sys ι := { s with pc := Function.update s.pc p c }

def done (s : Sys ι) (p : ι) (held : Nat) : Sys ι :=
  { s.go p .idle with held := Function.update s.held p held }

def holding (s : Sys ι) (p : ι) : Bool := s.locked && s.cpu == some p

end Sys

section Steps

variable [DecidableEq ι]

def run (s : Sys ι) (p : ι) : Option (Sys ι) :=
  match s.pc p with
  | .idle => none
  | .acqTest => some (if s.owner = some p then s.go p .acqInc else s.go p .acqHolding)
  | .acqInc =>
    some { s.done p (s.held p + 1) with recursion := CInt.wrap (s.recursion + 1) }
  | .acqHolding => some (if s.holding p then s.go p .panicked else s.go p .acqSpin)
  | .acqSpin =>
    some (if s.locked then s else { s.go p .acqCpu with locked := true, holder := some p })
  | .acqCpu => some { s.go p .acqOwner with cpu := some p }
  | .acqOwner => some { s.go p .acqRec with owner := some p }
  | .acqRec => some { s.done p (s.held p + 1) with recursion := 1 }
  | .relTest => some (if s.owner ≠ some p then s.go p .panicked else s.go p .relDec)
  | .relDec => some { s.go p .relCheck with recursion := CInt.wrap (s.recursion - 1) }
  | .relCheck =>
    some (if s.recursion = 0 then s.go p .relClear else s.done p (s.held p - 1))
  | .relClear => some { s.go p .relHolding with owner := none }
  | .relHolding => some (if s.holding p then s.go p .relCpu else s.go p .panicked)
  | .relCpu => some { s.go p .relUnlock with cpu := none }
  | .relUnlock => some { s.done p (s.held p - 1) with locked := false, holder := none }
  | .panicked => none

def step (s : Sys ι) : Event ι → Option (Sys ι)
  | .acquire p => if s.pc p = .idle then some (s.go p .acqTest) else none
  | .release p => if s.pc p = .idle ∧ 0 < s.held p then some (s.go p .relTest) else none
  | .run p => run s p

end Steps

def Waiting : Pc → Prop
  | .idle | .acqTest | .acqHolding | .acqSpin => True
  | _ => False

def Inside (s : Sys ι) (p : ι) : Pc → Prop
  | .acqCpu => s.cpu = none ∧ s.owner = none ∧ s.held p = 0
  | .acqOwner => s.cpu = some p ∧ s.owner = none ∧ s.held p = 0
  | .acqRec => s.cpu = some p ∧ s.owner = some p ∧ s.held p = 0
  | .idle | .acqTest | .acqInc | .relTest | .relDec =>
    s.cpu = some p ∧ s.owner = some p ∧ s.recursion = s.held p ∧ 0 < s.held p
  | .relCheck =>
    s.cpu = some p ∧ s.owner = some p ∧ s.recursion = (s.held p : Int) - 1 ∧ 0 < s.held p
  | .relClear => s.cpu = some p ∧ s.owner = some p ∧ s.recursion = 0 ∧ s.held p = 1
  | .relHolding | .relCpu => s.cpu = some p ∧ s.owner = none ∧ s.recursion = 0 ∧ s.held p = 1
  | .relUnlock => s.cpu = none ∧ s.owner = none ∧ s.recursion = 0 ∧ s.held p = 1
  | .acqHolding | .acqSpin | .panicked => False

structure Inv (s : Sys ι) : Prop where
  others : ∀ q, s.holder ≠ some q → s.held q = 0 ∧ Waiting (s.pc q)
  free : s.holder = none → s.locked = false ∧ s.cpu = none ∧ s.owner = none ∧ s.recursion = 0
  inside : ∀ p, s.holder = some p → s.locked = true ∧ Inside s p (s.pc p)

section Inside

variable {s : Sys ι} {p : ι} {c : Pc}

lemma Inside.owner (h : Inside s p c) : s.owner = none ∨ s.owner = some p := by
  cases c <;> simp only [Inside] at h
  all_goals first
    | exact Or.inl h.2.1
    | exact Or.inr h.2.1

lemma Inside.cpu (h : Inside s p c) : s.cpu = none ∨ s.cpu = some p := by
  cases c <;> simp only [Inside] at h
  all_goals first
    | exact Or.inl h.1
    | exact Or.inr h.1

@[simp] lemma inside_go [DecidableEq ι] (q : ι) (c' : Pc) :
    Inside (s.go q c') p c ↔ Inside s p c := by
  cases c <;> rfl

end Inside

namespace Inv

variable {s : Sys ι} {p q : ι}

lemma init : Inv (Sys.init : Sys ι) :=
  ⟨fun _ _ => ⟨rfl, trivial⟩, fun _ => ⟨rfl, rfl, rfl, rfl⟩, fun _ h => by cases h⟩

lemma holder_of_not_waiting (h : Inv s) (hw : ¬Waiting (s.pc p)) : s.holder = some p := by
  by_contra hne
  exact hw (h.others p hne).2

lemma holder_of_owner (h : Inv s) (ho : s.owner = some q) : s.holder = some q := by
  cases hh : s.holder with
  | none => simp [(h.free hh).2.2.1] at ho
  | some p =>
    rcases (h.inside p hh).2.owner with hn | hp
    · simp [hn] at ho
    · rw [ho, Option.some.injEq] at hp
      rw [hp]

lemma holder_of_cpu (h : Inv s) (hc : s.cpu = some q) : s.holder = some q := by
  cases hh : s.holder with
  | none => simp [(h.free hh).2.1] at hc
  | some p =>
    rcases (h.inside p hh).2.cpu with hn | hp
    · simp [hn] at hc
    · rw [hc, Option.some.injEq] at hp
      rw [hp]

lemma go_waiting [DecidableEq ι] (h : Inv s) (hp : s.holder ≠ some p) {c : Pc} (hc : Waiting c) :
    Inv (s.go p c) := by
  refine ⟨fun q hq => ?_, h.free, fun r hr => ?_⟩
  · by_cases hqp : q = p
    · subst hqp
      exact ⟨(h.others q hp).1, by simpa [Sys.go] using hc⟩
    · simpa [Sys.go, Function.update_of_ne hqp] using h.others q hq
  · have hrp : r ≠ p := fun hrp => hp (hrp ▸ hr)
    rw [inside_go]
    simpa [Sys.go, Function.update_of_ne hrp] using h.inside r hr

lemma inside_of_pc (h : Inv s) {c : Pc} (hpc : s.pc p = c) (hc : ¬Waiting c) :
    s.holder = some p ∧ s.locked = true ∧ Inside s p c := by
  have hp := h.holder_of_not_waiting (hpc ▸ hc)
  exact ⟨hp, (h.inside p hp).1, hpc ▸ (h.inside p hp).2⟩

lemma holder_step {t : Sys ι} {c : Pc} (h : Inv s) (hp : s.holder = some p)
    (ht : t.holder = some p) (hlocked : t.locked = true) (hpc : t.pc p = c)
    (hothers : ∀ q, q ≠ p → t.pc q = s.pc q ∧ t.held q = s.held q) (hin : Inside t p c) :
    Inv t := by
  refine ⟨fun q hq => ?_, fun hn => by simp [ht] at hn, fun r hr => ?_⟩
  · have hqp : q ≠ p := fun hqp => hq (hqp ▸ ht)
    rw [(hothers q hqp).1, (hothers q hqp).2]
    exact h.others q (fun hs => hqp (Option.some.inj (hp ▸ hs).symm))
  · obtain rfl : r = p := Option.some.inj (hr.symm.trans ht)
    exact ⟨hlocked, hpc ▸ hin⟩

section Steps

variable [DecidableEq ι]

lemma go_others (s : Sys ι) (p : ι) (c : Pc) :
    ∀ q, q ≠ p → (s.go p c).pc q = s.pc q ∧ (s.go p c).held q = s.held q :=
  fun _ hq => ⟨Function.update_of_ne hq _ _, rfl⟩

lemma done_others (s : Sys ι) (p : ι) (n : Nat) :
    ∀ q, q ≠ p → (s.done p n).pc q = s.pc q ∧ (s.done p n).held q = s.held q :=
  fun _ hq => ⟨Function.update_of_ne hq _ _, Function.update_of_ne hq _ _⟩

lemma acquire_start (h : Inv s) (hpc : s.pc p = .idle) : Inv (s.go p .acqTest) := by
  by_cases hp : s.holder = some p
  · have hin := (h.inside p hp).2
    rw [hpc] at hin
    exact h.holder_step hp hp (h.inside p hp).1 (Function.update_self _ _ _)
      (go_others s p _) hin
  · exact h.go_waiting hp trivial

lemma release_start (h : Inv s) (hpc : s.pc p = .idle) (hheld : 0 < s.held p) :
    Inv (s.go p .relTest) := by
  have hp : s.holder = some p := by
    by_contra hne
    simp [(h.others p hne).1] at hheld
  have hin := (h.inside p hp).2
  rw [hpc] at hin
  exact h.holder_step hp hp (h.inside p hp).1 (Function.update_self _ _ _) (go_others s p _) hin

lemma acqTest (h : Inv s) (hpc : s.pc p = .acqTest) :
    Inv (if s.owner = some p then s.go p .acqInc else s.go p .acqHolding) := by
  split
  · rename_i ho
    have hp := h.holder_of_owner ho
    have hin := (h.inside p hp).2
    rw [hpc] at hin
    exact h.holder_step hp hp (h.inside p hp).1 (Function.update_self _ _ _)
      (go_others s p _) hin
  · rename_i ho
    refine h.go_waiting (fun hp => ho ?_) trivial
    have hin := (h.inside p hp).2
    rw [hpc] at hin
    exact hin.2.1

lemma acqInc (h : Inv s) (hpc : s.pc p = .acqInc) (hb : s.held p + 1 < 2 ^ 31) :
    Inv { s.done p (s.held p + 1) with recursion := CInt.wrap (s.recursion + 1) } := by
  obtain ⟨hp, hlocked, hcpu, howner, hrec, -⟩ := h.inside_of_pc hpc id
  refine h.holder_step hp hp hlocked (Function.update_self _ _ _) (done_others s p _) ?_
  simp only [Inside, Sys.done, Sys.go, Function.update_self]
  refine ⟨hcpu, howner, ?_, by omega⟩
  rw [hrec, CInt.wrap_of_range (by unfold CInt.intMin; omega) (by unfold CInt.intMax; omega)]
  push_cast
  rfl

lemma holding_of_waiting (h : Inv s) (hp : s.holder ≠ some p) : s.holding p = false := by
  cases hc : s.cpu with
  | none => simp [Sys.holding, hc]
  | some q =>
    have hqp : q ≠ p := fun hqp => hp (hqp ▸ h.holder_of_cpu hc)
    simp [Sys.holding, hc, hqp]

lemma acqHolding (h : Inv s) (hpc : s.pc p = .acqHolding) :
    Inv (if s.holding p then s.go p .panicked else s.go p .acqSpin) := by
  have hp : s.holder ≠ some p := fun hp => by
    have hin := (h.inside p hp).2
    rw [hpc] at hin
    exact hin
  rw [h.holding_of_waiting hp, if_neg Bool.false_ne_true]
  exact h.go_waiting hp trivial

lemma acqSpin (h : Inv s) (hpc : s.pc p = .acqSpin) :
    Inv (if s.locked then s else { s.go p .acqCpu with locked := true, holder := some p }) := by
  split
  · exact h
  · rename_i hlocked
    have hfree : s.holder = none := by
      cases hh : s.holder with
      | none => rfl
      | some q => exact absurd (h.inside q hh).1 hlocked
    obtain ⟨-, hcpu, howner, -⟩ := h.free hfree
    refine ⟨fun q hq => ?_, fun hn => (by cases hn), fun r hr => ?_⟩
    · have hqp : q ≠ p := fun hqp => hq (hqp ▸ rfl)
      simpa [Sys.go, Function.update_of_ne hqp] using h.others q (by simp [hfree])
    · obtain rfl : r = p := (Option.some.inj hr).symm
      simp only [Sys.go, Function.update_self, Inside]
      exact ⟨trivial, hcpu, howner, (h.others r (by simp [hfree])).1⟩

lemma acqCpu (h : Inv s) (hpc : s.pc p = .acqCpu) :
    Inv { s.go p .acqOwner with cpu := some p } := by
  obtain ⟨hp, hlocked, -, howner, hheld⟩ := h.inside_of_pc hpc id
  exact h.holder_step hp hp hlocked (Function.update_self _ _ _) (go_others s p _)
    ⟨rfl, howner, hheld⟩

lemma acqOwner (h : Inv s) (hpc : s.pc p = .acqOwner) :
    Inv { s.go p .acqRec with owner := some p } := by
  obtain ⟨hp, hlocked, hcpu, -, hheld⟩ := h.inside_of_pc hpc id
  exact h.holder_step hp hp hlocked (Function.update_self _ _ _) (go_others s p _)
    ⟨hcpu, rfl, hheld⟩

lemma acqRec (h : Inv s) (hpc : s.pc p = .acqRec) :
    Inv { s.done p (s.held p + 1) with recursion := 1 } := by
  obtain ⟨hp, hlocked, hcpu, howner, hheld⟩ := h.inside_of_pc hpc id
  refine h.holder_step hp hp hlocked (Function.update_self _ _ _) (done_others s p _) ?_
  simp only [Inside, Sys.done, Sys.go, Function.update_self, hheld]
  exact ⟨hcpu, howner, rfl, Nat.one_pos⟩

lemma relTest (h : Inv s) (hpc : s.pc p = .relTest) :
    Inv (if s.owner ≠ some p then s.go p .panicked else s.go p .relDec) := by
  obtain ⟨hp, hlocked, hin⟩ := h.inside_of_pc hpc id
  rw [if_neg (not_not.mpr hin.2.1)]
  exact h.holder_step hp hp hlocked (Function.update_self _ _ _) (go_others s p _) hin

lemma relDec (h : Inv s) (hpc : s.pc p = .relDec) (hb : s.held p < 2 ^ 31) :
    Inv { s.go p .relCheck with recursion := CInt.wrap (s.recursion - 1) } := by
  obtain ⟨hp, hlocked, hcpu, howner, hrec, hpos⟩ := h.inside_of_pc hpc id
  refine h.holder_step hp hp hlocked (Function.update_self _ _ _) (go_others s p _)
    ⟨hcpu, howner, ?_, hpos⟩
  show CInt.wrap (s.recursion - 1) = (s.held p : Int) - 1
  rw [hrec, CInt.wrap_of_range (by unfold CInt.intMin; omega) (by unfold CInt.intMax; omega)]

lemma relCheck (h : Inv s) (hpc : s.pc p = .relCheck) :
    Inv (if s.recursion = 0 then s.go p .relClear else s.done p (s.held p - 1)) := by
  obtain ⟨hp, hlocked, hcpu, howner, hrec, hpos⟩ := h.inside_of_pc hpc id
  split
  · rename_i hzero
    exact h.holder_step hp hp hlocked (Function.update_self _ _ _) (go_others s p _)
      ⟨hcpu, howner, hzero, show s.held p = 1 by omega⟩
  · rename_i hzero
    refine h.holder_step hp hp hlocked (Function.update_self _ _ _) (done_others s p _) ?_
    simp only [Inside, Sys.done, Sys.go, Function.update_self]
    exact ⟨hcpu, howner, by omega, by omega⟩

lemma relClear (h : Inv s) (hpc : s.pc p = .relClear) :
    Inv { s.go p .relHolding with owner := none } := by
  obtain ⟨hp, hlocked, hcpu, -, hrec, hheld⟩ := h.inside_of_pc hpc id
  exact h.holder_step hp hp hlocked (Function.update_self _ _ _) (go_others s p _)
    ⟨hcpu, rfl, hrec, hheld⟩

lemma relHolding (h : Inv s) (hpc : s.pc p = .relHolding) :
    Inv (if s.holding p then s.go p .relCpu else s.go p .panicked) := by
  obtain ⟨hp, hlocked, hin⟩ := h.inside_of_pc hpc id
  rw [if_pos (by simp [Sys.holding, hlocked, hin.1])]
  exact h.holder_step hp hp hlocked (Function.update_self _ _ _) (go_others s p _) hin

lemma relCpu (h : Inv s) (hpc : s.pc p = .relCpu) :
    Inv { s.go p .relUnlock with cpu := none } := by
  obtain ⟨hp, hlocked, -, howner, hrec, hheld⟩ := h.inside_of_pc hpc id
  exact h.holder_step hp hp hlocked (Function.update_self _ _ _) (go_others s p _)
    ⟨rfl, howner, hrec, hheld⟩

lemma relUnlock (h : Inv s) (hpc : s.pc p = .relUnlock) :
    Inv { s.done p (s.held p - 1) with locked := false, holder := none } := by
  obtain ⟨hp, -, hcpu, howner, hrec, hheld⟩ := h.inside_of_pc hpc id
  refine ⟨fun q _ => ?_, fun _ => ⟨rfl, hcpu, howner, hrec⟩, fun r hr => by cases hr⟩
  by_cases hqp : q = p
  · subst hqp
    simp [Sys.done, Sys.go, hheld, Waiting]
  · have hq : s.holder ≠ some q := fun hq => hqp (Option.some.inj (hq.symm.trans hp))
    simpa [Sys.done, Sys.go, Function.update_of_ne hqp] using h.others q hq

lemma step_inv (h : Inv s) {e : Event ι} {t : Sys ι} (hstep : step s e = some t)
    (hb : ∀ q, t.held q < 2 ^ 31) : Inv t := by
  cases e with
  | acquire p =>
    simp only [step, Option.ite_none_right_eq_some, Option.some.injEq] at hstep
    obtain ⟨hpc, rfl⟩ := hstep
    exact h.acquire_start hpc
  | release p =>
    simp only [step, Option.ite_none_right_eq_some, Option.some.injEq] at hstep
    obtain ⟨⟨hpc, hheld⟩, rfl⟩ := hstep
    exact h.release_start hpc hheld
  | run p =>
    cases hpc : s.pc p <;> simp only [step, run, hpc, Option.some.injEq, reduceCtorEq] at hstep
    all_goals subst hstep
    case acqTest => exact h.acqTest hpc
    case acqInc => exact h.acqInc hpc (by simpa [Sys.done, Sys.go] using hb p)
    case acqHolding => exact h.acqHolding hpc
    case acqSpin => exact h.acqSpin hpc
    case acqCpu => exact h.acqCpu hpc
    case acqOwner => exact h.acqOwner hpc
    case acqRec => exact h.acqRec hpc
    case relTest => exact h.relTest hpc
    case relDec => exact h.relDec hpc (by simpa [Sys.go] using hb p)
    case relCheck => exact h.relCheck hpc
    case relClear => exact h.relClear hpc
    case relHolding => exact h.relHolding hpc
    case relCpu => exact h.relCpu hpc
    case relUnlock => exact h.relUnlock hpc

end Steps

lemma holder_of_held (h : Inv s) (hp : 0 < s.held p) : s.holder = some p := by
  by_contra hne
  simp [(h.others p hne).1] at hp

end Inv

theorem inv_of_run [DecidableEq ι] {evs : List (Event ι)} {s : Sys ι}
    (hrun : Run.exec step Sys.init evs = some s)
    (hbound : ∀ n t, Run.exec step Sys.init (evs.take n) = some t → ∀ p, t.held p < 2 ^ 31) :
    Inv s :=
  Run.exec_invariant_within (fun _ _ _ hs hstep hb => hs.step_inv hstep hb) Inv.init hbound hrun

section Runs

variable [DecidableEq ι]

lemma run_held {s t : Sys ι} {p : ι} (h : run s p = some t) :
    t.held = s.held ∨ t.held = Function.update s.held p (s.held p + 1) ∨
      t.held = Function.update s.held p (s.held p - 1) := by
  unfold run at h
  split at h <;> (try split_ifs at h) <;> cases h
  all_goals first
    | exact Or.inl rfl
    | exact Or.inr (Or.inl rfl)
    | exact Or.inr (Or.inr rfl)

lemma step_held_le {s t : Sys ι} {e : Event ι} (hstep : step s e = some t) (q : ι) :
    t.held q ≤ s.held q + 1 := by
  cases e with
  | acquire p | release p =>
    simp only [step, Option.ite_none_right_eq_some, Option.some.injEq] at hstep
    rw [← hstep.2]
    exact Nat.le_succ _
  | run p =>
    rcases run_held hstep with h | h | h <;> rw [h]
    · exact Nat.le_succ _
    all_goals
      rw [Function.update_apply]
      split_ifs with hq
      · subst hq
        omega
      · exact Nat.le_succ _

lemma held_le_length {s t : Sys ι} {evs : List (Event ι)}
    (hrun : Run.exec step s evs = some t) (q : ι) : t.held q ≤ s.held q + evs.length := by
  induction evs generalizing s with
  | nil =>
    simp only [Run.exec_nil, Option.some.injEq] at hrun
    subst hrun
    exact Nat.le_add_right _ _
  | cons e evs ih =>
    simp only [Run.exec_cons, Option.bind_eq_some_iff] at hrun
    obtain ⟨u, hu, hrest⟩ := hrun
    have := step_held_le hu q
    have := ih hrest
    simp only [List.length_cons]
    omega

lemma bound_of_length {evs : List (Event ι)} (hlen : evs.length < 2 ^ 31) :
    ∀ n t, Run.exec step Sys.init (evs.take n) = some t → ∀ p, t.held p < 2 ^ 31 := by
  intro n t ht p
  have hle := held_le_length ht p
  have hzero : (Sys.init : Sys ι).held p = 0 := rfl
  have := List.length_take_le' n evs
  omega

lemma Inv.release_returns {s : Sys ι} {p : ι} (h : Inv s) (hp : 0 < s.held p)
    (hb : s.held p < 2 ^ 31) (hpc : s.pc p = .idle) :
    ∃ k ≤ 7, ∃ t, Run.exec step s (.release p :: List.replicate k (.run p)) = some t ∧
      t.pc p = .idle ∧ t.held p = s.held p - 1 := by
  obtain ⟨hlocked, hin⟩ := h.inside p (h.holder_of_held hp)
  rw [hpc] at hin
  obtain ⟨hcpu, hown, hrec, -⟩ := hin
  have hdec : CInt.wrap (s.recursion - 1) = (s.held p : Int) - 1 := by
    rw [hrec]
    exact CInt.wrap_of_range (by simp only [CInt.intMin]; omega) (by simp only [CInt.intMax]; omega)
  by_cases h1 : s.held p = 1
  · refine ⟨7, by omega, ?_⟩
    simp [List.replicate, step, run, Sys.go, Sys.done, Sys.holding, hpc, hown, hcpu, hlocked,
      hdec, h1]
  · refine ⟨3, by omega, ?_⟩
    have h0 : (s.held p : Int) - 1 ≠ 0 := by omega
    simp [List.replicate, step, run, Sys.go, Sys.done, hpc, hown, hdec, h0, hp]

end Runs

theorem reentrant_lock_exclusive [DecidableEq ι] {evs : List (Event ι)} {s : Sys ι}
    (hrun : Run.exec step Sys.init evs = some s)
    (hbound : ∀ n t, Run.exec step Sys.init (evs.take n) = some t → ∀ p, t.held p < 2 ^ 31) :
    (∀ p q, 0 < s.held p → 0 < s.held q → p = q) ∧
    (∀ p, 0 < s.held p → s.pc p = .idle →
      s.owner = some p ∧ s.recursion = s.held p ∧ s.locked = true) ∧
    ((∀ p, s.held p = 0 ∧ s.pc p = .idle) →
      s.owner = none ∧ s.recursion = 0 ∧ s.locked = false) ∧
    (∀ p, s.pc p ≠ .panicked) ∧
    (∀ p, 0 < s.held p → s.pc p = .idle →
      ∃ k ≤ 7, ∃ t, Run.exec step s (.release p :: List.replicate k (.run p)) = some t ∧
        t.pc p = .idle ∧ t.held p = s.held p - 1) ∧
    (∀ q, s.held q = 0 → s.pc q = .idle →
      run (s.go q .relTest) q = some ((s.go q .relTest).go q .panicked)) := by
  have h := inv_of_run hrun hbound
  refine ⟨fun p q hp hq => ?_, fun p hp hpc => ?_, fun hall => ?_, fun p hpc => ?_,
    fun p hp hpc => ?_, fun q hq hpc => ?_⟩
  · exact Option.some.inj ((h.holder_of_held hp).symm.trans (h.holder_of_held hq))
  · obtain ⟨hlocked, hin⟩ := h.inside p (h.holder_of_held hp)
    rw [hpc] at hin
    exact ⟨hin.2.1, hin.2.2.1, hlocked⟩
  · have hfree : s.holder = none := by
      cases hh : s.holder with
      | none => rfl
      | some p =>
        have hin := (h.inside p hh).2
        rw [(hall p).2] at hin
        exact absurd hin.2.2.2 (by simp [(hall p).1])
    obtain ⟨hl, -, ho, hr⟩ := h.free hfree
    exact ⟨ho, hr, hl⟩
  · by_cases hh : s.holder = some p
    · have hin := (h.inside p hh).2
      rw [hpc] at hin
      exact hin
    · have hw := (h.others p hh).2
      rw [hpc] at hw
      exact hw
  · have hb := hbound evs.length s (by rw [List.take_length]; exact hrun) p
    exact h.release_returns hp hb hpc
  · have hnot : s.owner ≠ some q := fun ho => by
      have hin := (h.inside q (h.holder_of_owner ho)).2
      rw [hpc] at hin
      exact absurd hin.2.2.2 (by omega)
    simp [run, Sys.go, hnot]

def twoCpus : List (Event (Fin 2)) :=
  [.acquire 0, .run 0, .run 0, .run 0, .acquire 1, .run 1, .run 1, .run 1, .run 0, .run 0,
    .run 0, .release 0, .run 0, .run 0, .run 0, .run 0, .run 0, .run 0, .run 0, .run 1, .run 1,
    .run 1, .run 1]

example : (Run.exec step Sys.init twoCpus).map (fun s => (s.owner, s.held 0, s.held 1)) =
    some (some 1, 0, 1) := by
  decide

theorem reentrant_lock_exclusive_two_cpus :
    ∃ s, Run.exec step Sys.init twoCpus = some s ∧
      ((∀ p q, 0 < s.held p → 0 < s.held q → p = q) ∧
      (∀ p, 0 < s.held p → s.pc p = .idle →
        s.owner = some p ∧ s.recursion = s.held p ∧ s.locked = true) ∧
      ((∀ p, s.held p = 0 ∧ s.pc p = .idle) →
        s.owner = none ∧ s.recursion = 0 ∧ s.locked = false) ∧
      (∀ p, s.pc p ≠ .panicked) ∧
      (∀ p, 0 < s.held p → s.pc p = .idle →
        ∃ k ≤ 7, ∃ t, Run.exec step s (.release p :: List.replicate k (.run p)) = some t ∧
          t.pc p = .idle ∧ t.held p = s.held p - 1) ∧
      (∀ q, s.held q = 0 → s.pc q = .idle →
        run (s.go q .relTest) q = some ((s.go q .relTest).go q .panicked))) := by
  obtain ⟨s, hs⟩ : ∃ s, Run.exec step Sys.init twoCpus = some s := ⟨_, rfl⟩
  exact ⟨s, hs, reentrant_lock_exclusive hs (bound_of_length (by decide))⟩

section Nested

variable [DecidableEq ι]

def firstAcquire (p : ι) : List (Event ι) :=
  [.acquire p, .run p, .run p, .run p, .run p, .run p, .run p]

def nestedAcquire (p : ι) : List (Event ι) := [.acquire p, .run p, .run p]

lemma exec_firstAcquire (p : ι) :
    ∃ t, Run.exec step Sys.init (firstAcquire p) = some t ∧
      t.pc p = .idle ∧ t.owner = some p ∧ t.held p = 1 ∧ t.recursion = 1 := by
  simp [firstAcquire, step, run, Sys.init, Sys.go, Sys.done, Sys.holding]

lemma exec_nestedAcquire {s : Sys ι} {p : ι} (hpc : s.pc p = .idle) (hown : s.owner = some p) :
    ∃ t, Run.exec step s (nestedAcquire p) = some t ∧ t.pc p = .idle ∧ t.owner = some p ∧
      t.held p = s.held p + 1 ∧ t.recursion = CInt.wrap (s.recursion + 1) := by
  simp [nestedAcquire, step, run, Sys.go, Sys.done, hpc, hown]

lemma exec_nestedAcquires {s : Sys ι} {p : ι} (hpc : s.pc p = .idle) (hown : s.owner = some p)
    (hrec : CInt.wrap s.recursion = s.recursion) (n : Nat) :
    ∃ t, Run.exec step s (List.replicate n (nestedAcquire p)).flatten = some t ∧
      t.pc p = .idle ∧ t.owner = some p ∧ t.held p = s.held p + n ∧
      t.recursion = CInt.wrap (s.recursion + n) := by
  induction n with
  | zero => exact ⟨s, rfl, hpc, hown, rfl, by simpa using hrec.symm⟩
  | succ n ih =>
    obtain ⟨t, ht, htpc, htown, htheld, htrec⟩ := ih
    obtain ⟨u, hu, hupc, huown, huheld, hurec⟩ := exec_nestedAcquire htpc htown
    refine ⟨u, ?_, hupc, huown, by rw [huheld, htheld, Nat.add_assoc], ?_⟩
    · rw [List.replicate_succ', List.flatten_append, Run.exec_append, ht, Option.bind_some,
        List.flatten_singleton, hu]
    · rw [hurec, htrec, CInt.wrap_add, Nat.cast_succ, add_assoc]

lemma exec_nested_acquires_wrap (p : ι) :
    ∃ s, Run.exec step Sys.init
        (firstAcquire p ++ (List.replicate (2 ^ 31 - 1) (nestedAcquire p)).flatten) = some s ∧
      s.pc p = .idle ∧ s.owner = some p ∧ s.held p = 2 ^ 31 ∧ s.recursion = CInt.intMin := by
  obtain ⟨t, ht, htpc, htown, htheld, htrec⟩ := exec_firstAcquire p
  have hwrap : CInt.wrap t.recursion = t.recursion := by rw [htrec]; rfl
  obtain ⟨u, hu, hupc, huown, huheld, hurec⟩ := exec_nestedAcquires htpc htown hwrap (2 ^ 31 - 1)
  refine ⟨u, ?_, hupc, huown, by rw [huheld, htheld]; rfl, ?_⟩
  · rw [Run.exec_append, ht, Option.bind_some, hu]
  · rw [hurec, htrec]
    rfl

end Nested

theorem nested_acquires_wrap_recursion :
    ∃ s, Run.exec step (Sys.init : Sys (Fin 2))
        (firstAcquire 0 ++ (List.replicate (2 ^ 31 - 1) (nestedAcquire 0)).flatten) = some s ∧
      s.pc 0 = .idle ∧ s.owner = some 0 ∧ s.held 0 = 2 ^ 31 ∧ s.recursion = CInt.intMin :=
  exec_nested_acquires_wrap 0

end Xv6.Reentrant
