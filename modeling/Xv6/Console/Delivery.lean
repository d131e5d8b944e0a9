import Xv6.Console.System

/-! Delivery without history recall. While the keys are plain typing (bytes, newline, `C('D')`,
backspace, `C('U')`, `C('P')`, but no arrow, no copy key and no `?` that could complete a
calculator expression), `input.r ≤ input.w ≤ input.e ≤ input.r + INPUT_BUF` holds with the
cursor at the end of the line, a key only writes the slot at `e`, which is not a pending one,
and a commit appends the line to the pending bytes. Every byte committed is then pending or
delivered, in order: the committed bytes without their `C('D')`s are the delivered bytes
followed by the pending ones, over every interleaving of such keys with `consoleread`. -/

namespace Xv6.Console

open CInt

lemma Input.get_eq_ok {x : Input} {b : Buffer} {i v : Int} (h : x.get b i = .ok v) :
    ∃ j, x.buf j = v := by
  simp only [Input.get] at h
  split at h
  · cases h
    exact ⟨_, rfl⟩
  · cases h

lemma findEquation_matchEquation {x : Input} {ep : Int} {sc : Scan} (hq : ∀ j, x.buf j ≠ 63)
    (h : findEquation x ep = .ok sc) : sc.matchEquation = 0 := by
  rw [findEquation] at h
  obtain ⟨i, -, h⟩ := Except.bind_eq_ok.mp h
  obtain ⟨d, -, h⟩ := Except.bind_eq_ok.mp h
  split at h
  · obtain ⟨q, -, h⟩ := Except.bind_eq_ok.mp h
    split at h
    · obtain ⟨m, hm, h⟩ := Except.bind_eq_ok.mp h
      obtain ⟨j, hj⟩ := Input.get_eq_ok hm
      rw [if_neg (by rw [← hj]; exact hq j)] at h
      cases h
      rfl
    · cases h
      rfl
  · cases h
    rfl

lemma calculate_eq_of_no_query {s s' : State} (hq : ∀ j, s.input.buf j ≠ 63)
    (h : calculate s = .ok s') : s' = s := by
  rw [calculate] at h
  split at h
  · obtain ⟨sc, hsc, h⟩ := Except.bind_eq_ok.mp h
    rw [if_neg (by rw [findEquation_matchEquation hq hsc]; decide)] at h
    cases h
    rfl
  · cases h
    rfl

lemma enterLine_eq {s s' : State} (h : enterLine s = .ok s') :
    ∃ mh, s' = { s with numOfBacks := 0, numOfBacksSaved := 0, matchHistory := mh } := by
  rw [enterLine] at h
  split at h
  · obtain ⟨mh, -, h⟩ := Except.bind_eq_ok.mp h
    refine ⟨mh, ?_⟩
    split at h
    · obtain ⟨_, -, h⟩ := Except.bind_eq_ok.mp h
      cases h
      rfl
    · cases h
      rfl
  · cases h
    exact ⟨0, rfl⟩

lemma shiftRight_zero (x : Input) (b : Buffer) (he : x.e < 2147483648) :
    shiftRight x b 0 = .ok x := by
  have hb : toUint ((x.e : Int) - 0) = x.e := by
    rw [Int.sub_zero, toUint_of_range (by omega) (by omega)]
    simp
  rw [shiftRight, hb, toInt_of_lt he, shiftRightLoop]
  rw [if_neg (by rw [toUint_of_range (by omega) (by omega)]; simp)]

lemma printChar_of_nb_zero {s s' : State} {v : Int} (hnb : s.numOfBacks = 0)
    (he : s.input.e < 2147483648) (hc : s.isCopy ≠ 1) (h : printChar s v = .ok s') :
    ∃ sv, s' = { s with
      input := { s.input with
        buf := Function.update s.input.buf (Input.slot s.input.e) v
        e := toUint (s.input.e + 1) }
      savedInput := sv } := by
  have h0 : shiftRight s.input .input s.numOfBacks = .ok s.input := by
    rw [hnb]
    exact shiftRight_zero _ _ he
  have hs : toUint ((s.input.e : Int) - s.numOfBacks) = s.input.e := by
    rw [hnb, Int.sub_zero, toUint_of_range (by omega) (by omega)]
    simp
  rw [printChar, h0, Except.ok_bind] at h
  obtain ⟨sv, -, h⟩ := Except.bind_eq_ok.mp h
  rw [if_neg hc, hs] at h
  cases h
  exact ⟨sv, rfl⟩

lemma State.getHistory_setHistory {s s' : State} {k : Int} {x : Input}
    (h : s.setHistory k x = .ok s') : s'.getHistory k = .ok x := by
  simp only [State.setHistory] at h
  split at h
  · rename_i j hj
    cases h
    simp only [State.getHistory, hj, Function.update_self]
  · cases h

lemma commitLine_spec {s s' : State} (h : commitLine s = .ok s') :
    s'.input = { s.input with w := s.input.e } ∧ s'.end_ = s.end_ + 1 ∧
      s'.getHistory (s.end_.tmod historySize) = .ok s.input ∧
      s'.numOfBacks = s.numOfBacks ∧ s'.isCopy = s.isCopy := by
  rw [commitLine] at h
  obtain ⟨t, ht, h⟩ := Except.bind_eq_ok.mp h
  cases h
  have hi := State.setHistory_input ht
  have hh := State.getHistory_setHistory ht
  simp only [State.setHistory] at ht
  split at ht
  · cases ht
    exact ⟨rfl, rfl, by simpa [State.getHistory] using hh, rfl, rfl⟩
  · cases ht

lemma backspace_of_not_copy (s : State) (hc : s.isCopy ≠ 1) :
    backspace s = (if s.input.e ≠ s.input.w ∧
        toUint s.numOfBacks < toUint (s.input.e - s.input.w) then do
      let x ← (if 0 < s.numOfBacks then shiftLeft s.input .input s.numOfBacks else pure s.input)
      pure { s with input := { x with e := toUint (x.e - 1) } }
    else pure s) := by
  rw [backspace]
  refine Except.bind_eq_self fun t hb => ?_
  have htc : t.isCopy = s.isCopy := by
    split at hb
    · obtain ⟨_, -, hb⟩ := Except.bind_eq_ok.mp hb
      cases hb
      rfl
    · cases hb
      rfl
  simp only [htc, hc, and_false, if_false]
  rfl

lemma backspace_of_nb_zero {s s' : State} (hnb : s.numOfBacks = 0) (hc : s.isCopy ≠ 1)
    (h : backspace s = .ok s') :
    s' = s ∨ (s.input.e ≠ s.input.w ∧
      s' = { s with input := { s.input with e := toUint (s.input.e - 1) } }) := by
  rw [backspace_of_not_copy s hc] at h
  split at h
  · rename_i hcond
    obtain ⟨x, hx, h⟩ := Except.bind_eq_ok.mp h
    rw [if_neg (by rw [hnb]; decide)] at hx
    cases hx
    cases h
    exact .inr ⟨hcond.1, rfl⟩
  · cases h
    exact .inl rfl

lemma killLineLoop_eq (x : Input) (n : Nat) (hwe : x.w ≤ x.e) (he : x.e < 4294967296) :
    ∃ e', killLineLoop x n = { x with e := e' } ∧ x.w ≤ e' ∧ e' ≤ x.e := by
  induction n generalizing x with
  | zero => exact ⟨x.e, rfl, hwe, le_refl _⟩
  | succ n ih =>
    simp only [killLineLoop]
    split
    · rename_i hcond
      have hu : toUint ((x.e : Int) - 1) = x.e - 1 := by
        rw [toUint_of_range (by omega) (by omega)]
        omega
      obtain ⟨e', he', hw', hle⟩ := ih { x with e := toUint (x.e - 1) }
        (by simp only [hu]; omega) (by simp only [hu]; omega)
      refine ⟨e', he', hw', ?_⟩
      simp only [hu] at hle
      omega
    · exact ⟨x.e, rfl, hwe, le_refl _⟩

def TypingKey (c : Int) : Prop :=
  0 ≤ c ∧ c < 256 ∧ c ≠ 63 ∧ c ≠ keyUp ∧ c ≠ keyDn ∧ c ≠ keyLf ∧ c ≠ keyRt ∧ c ≠ ctrl 83 ∧
    c ≠ ctrl 70

instance (c : Int) : Decidable (TypingKey c) := inferInstanceAs (Decidable (_ ∧ _))

structure Typing (s : State) : Prop where
  r_le_w : s.input.r ≤ s.input.w
  w_le_e : s.input.w ≤ s.input.e
  e_le : s.input.e ≤ s.input.r + inputBuf
  full : s.input.e = s.input.r + inputBuf → s.input.w = s.input.e
  e_le_131 : s.input.e ≤ 131
  nb_zero : s.numOfBacks = 0
  not_copy : s.isCopy ≠ 1
  end_nonneg : 0 ≤ s.end_
  no_query : ∀ j, s.input.buf j ≠ 63

lemma committedBy_of_end_eq {s s' : State} (h : s'.end_ = s.end_) : committedBy s s' = [] := by
  simp only [committedBy, h, if_true]

lemma typing_of_no_commit {s s' : State} (hs : Typing s) (hr : s'.input.r = s.input.r)
    (hw : s'.input.w = s.input.w) (he₁ : s.input.w ≤ s'.input.e)
    (he₂ : s'.input.e ≤ s.input.r + inputBuf)
    (hfull : s'.input.e = s.input.r + inputBuf → s.input.w = s'.input.e)
    (h131 : s'.input.e ≤ 131) (hnb : s'.numOfBacks = 0) (hc : s'.isCopy = s.isCopy)
    (hend : s'.end_ = s.end_) (hq : ∀ j, s'.input.buf j ≠ 63)
    (hpend : s'.input.pending = s.input.pending) :
    Typing s' ∧ s'.input.pending = s.input.pending ++ committedBy s s' := by
  refine ⟨⟨?_, ?_, ?_, ?_, h131, hnb, hc ▸ hs.not_copy, hend ▸ hs.end_nonneg, hq⟩, ?_⟩
  · rw [hr, hw]
    exact hs.r_le_w
  · rw [hw]
    exact he₁
  · rw [hr]
    exact he₂
  · intro hf
    rw [hr] at hf
    rw [hw]
    exact hfull hf
  · rw [committedBy_of_end_eq hend, List.append_nil]
    exact hpend

lemma typing_of_shrink {s s' : State} (hs : Typing s) (hr : s'.input.r = s.input.r)
    (hw : s'.input.w = s.input.w) (hbuf : s'.input.buf = s.input.buf)
    (he₁ : s.input.w ≤ s'.input.e) (he₂ : s'.input.e ≤ s.input.e) (hnb : s'.numOfBacks = 0)
    (hc : s'.isCopy = s.isCopy) (hend : s'.end_ = s.end_) :
    Typing s' ∧ s'.input.pending = s.input.pending ++ committedBy s s' := by
  have := hs.e_le
  have := hs.e_le_131
  have hfull : s'.input.e = s.input.r + inputBuf → s.input.w = s'.input.e := by
    intro hf
    have := hs.full (by omega)
    omega
  exact typing_of_no_commit hs hr hw he₁ (by omega) hfull (by omega) hnb hc hend
    (by rw [hbuf]; exact hs.no_query) (Input.pending_congr hr hw fun k _ => by rw [hbuf])

lemma typing_of_commitLine {t s' : State} (h : commitLine t = .ok s')
    (hrw : t.input.r ≤ t.input.w) (hwe : t.input.w ≤ t.input.e)
    (her : t.input.e ≤ t.input.r + inputBuf) (h131 : t.input.e ≤ 131) (hnb : t.numOfBacks = 0)
    (hc : t.isCopy ≠ 1) (hend : 0 ≤ t.end_) (hq : ∀ j, t.input.buf j ≠ 63) :
    Typing s' ∧ s'.input.pending = t.input.pending ++ committedBy t s' := by
  obtain ⟨hi, hend', hhist, hnb', hcp⟩ := commitLine_spec h
  simp only at hi
  have hcb : committedBy t s' = t.input.line := by
    simp only [committedBy, hend', show ¬ (t.end_ + 1 = t.end_) by omega, if_false, hhist]
  refine ⟨⟨?_, ?_, ?_, fun _ => ?_, ?_, hnb' ▸ hnb, hcp ▸ hc, ?_, ?_⟩, ?_⟩
  · rw [hi]
    exact le_trans hrw hwe
  · rw [hi]
  · rw [hi]
    exact her
  · rw [hi]
  · rw [hi]
    exact h131
  · rw [hend']
    omega
  · rw [hi]
    exact hq
  · rw [hcb, hi, Input.pending_commit t.input hrw hwe]

lemma Input.pending_write_e (x : Input) (v : Int) (e' : Nat) (hrw : x.r ≤ x.w) (hwe : x.w ≤ x.e)
    (he : x.e < x.r + inputBuf) :
    { x with buf := Function.update x.buf (Input.slot x.e) v, e := e' }.pending = x.pending := by
  refine Input.pending_congr rfl rfl fun k hk => ?_
  refine Function.update_of_ne (fun h => ?_) _ _
  have := congrArg Fin.val h
  simp only [Input.slot, inputBuf] at this he
  omega

lemma toSchar_ne_query {c : Int} (h0 : 0 ≤ c) (h1 : c < 256) (h : c ≠ 63) : toSchar c ≠ 63 := by
  simp only [toSchar]
  omega

lemma insertKey_typing {s s' : State} {c : Int} (hc0 : 0 ≤ c) (hc256 : c < 256)
    (hcq : c ≠ 63) (hs : Typing s) (hroom : s.input.e < s.input.r + inputBuf)
    (he130 : s.input.e ≤ 130) (h : insertKey s c = .ok s') :
    Typing s' ∧ s'.input.pending = s.input.pending ++ committedBy s s' := by
  have hrw := hs.r_le_w
  have hwe := hs.w_le_e
  rw [insertKey] at h
  obtain ⟨s₂, h₂, h⟩ := Except.bind_eq_ok.mp h
  have e₂ : s₂.input = s.input ∧ s₂.numOfBacks = 0 ∧ s₂.isCopy = s.isCopy ∧
      s₂.end_ = s.end_ := by
    split at h₂
    · obtain ⟨mh, rfl⟩ := enterLine_eq h₂
      exact ⟨rfl, rfl, rfl, rfl⟩
    · cases h₂
      exact ⟨rfl, hs.nb_zero, rfl, rfl⟩
  obtain ⟨hi₂, hn₂, hc₂, hend₂⟩ := e₂
  obtain ⟨s₃, h₃, h⟩ := Except.bind_eq_ok.mp h
  obtain ⟨sv, rfl⟩ := printChar_of_nb_zero hn₂ (by rw [hi₂]; omega)
    (by rw [hc₂]; exact hs.not_copy) h₃
  have hinc : toUint ((s₂.input.e : Int) + 1) = s.input.e + 1 := by
    rw [hi₂, toUint_of_range (by omega) (by omega)]
    omega
  have hq : ∀ j, Function.update s.input.buf (Input.slot s.input.e) (toSchar c) j ≠ 63 := by
    intro j
    by_cases hj : j = Input.slot s.input.e
    · rw [hj, Function.update_self]
      exact toSchar_ne_query hc0 hc256 hcq
    · rw [Function.update_of_ne hj]
      exact hs.no_query j
  set y : Input := { s.input with
    buf := Function.update s.input.buf (Input.slot s.input.e) (toSchar c)
    e := s.input.e + 1 } with hy
  have hpend : y.pending = s.input.pending := Input.pending_write_e _ _ _ hrw hwe hroom
  have hs₃ : ({ s₂.input with
      buf := Function.update s₂.input.buf (Input.slot s₂.input.e) (toSchar c)
      e := toUint (s₂.input.e + 1) } : Input) = y := by
    rw [hinc, hi₂]
  rw [hs₃] at h
  have hr₃ : y.r ≤ y.w := hrw
  have hw₃ : y.w ≤ y.e := by simp only [hy]; omega
  split at h
  · have hcom := typing_of_commitLine h hr₃ hw₃ (by simp only [hy]; omega)
      (by simp only [hy]; omega) hn₂ (by rw [hc₂]; exact hs.not_copy)
      (by rw [hend₂]; exact hs.end_nonneg) hq
    obtain ⟨ht, hp⟩ := hcom
    refine ⟨ht, ?_⟩
    rw [hp, hpend]
    simp only [committedBy, hend₂]
  · rename_i hno
    cases h
    refine typing_of_no_commit hs rfl rfl hw₃ (by simp only [hy]; omega) (fun hfull => ?_)
      (by simp only [hy]; omega) hn₂ hc₂ hend₂ hq hpend
    refine absurd (Or.inr (Or.inr ?_)) hno
    show s.input.e + 1 = toUint ((s.input.r : Int) + inputBuf)
    rw [toUint_of_range (by omega) (by simp only [inputBuf]; omega)]
    exact hfull

lemma defaultKey_typing {s s' : State} {c : Int} (hc : TypingKey c) (hs : Typing s)
    (h : defaultKey s c = .ok s') :
    Typing s' ∧ s'.input.pending = s.input.pending ++ committedBy s s' := by
  obtain ⟨hc0, hc256, hcq, -⟩ := hc
  have hrw := hs.r_le_w
  have hwe := hs.w_le_e
  have her := hs.e_le
  have h131 := hs.e_le_131
  have he130 : s.input.e ≤ 130 := by
    by_contra hlt
    rw [defaultKey_reads_past_input s c (by omega) (by simp only [intMax]; omega) hs.nb_zero] at h
    cases h
  rw [defaultKey] at h
  obtain ⟨s₁, h₁, h⟩ := Except.bind_eq_ok.mp h
  rw [calculate_eq_of_no_query hs.no_query h₁] at h
  by_cases hroom : c ≠ 0 ∧ toUint ((s.input.e : Int) - s.input.r) < inputBuf
  · rw [if_pos hroom] at h
    have hroom' : s.input.e < s.input.r + inputBuf := by
      have h' := hroom.2
      rw [toUint_of_range (by omega) (by omega)] at h'
      simp only [inputBuf] at h' ⊢
      omega
    have hc' : 0 ≤ (if c = 13 then 10 else c) ∧ (if c = 13 then 10 else c) < 256 ∧
        (if c = 13 then 10 else c) ≠ 63 := by
      split_ifs <;> omega
    generalize (if c = 13 then 10 else c) = c' at h hc'
    exact insertKey_typing hc'.1 hc'.2.1 hc'.2.2 hs hroom' he130 h
  · rw [if_neg hroom] at h
    cases h
    exact typing_of_shrink hs rfl rfl rfl hwe (le_refl _) hs.nb_zero rfl rfl

theorem typingKey_step {s s' : State} {c : Int} (hc : TypingKey c) (hs : Typing s)
    (h : consoleintrKey s c = .ok s') :
    Typing s' ∧ s'.input.pending = s.input.pending ++ committedBy s s' := by
  have hkey := hc
  obtain ⟨-, -, -, hup, hdn, hlf, hrt, hS, hF⟩ := hc
  have he := hs.e_le_131
  rw [consoleintrKey, if_neg hup, if_neg hdn, if_neg hlf, if_neg hrt] at h
  by_cases hP : c = ctrl 80
  · rw [if_pos hP] at h
    cases h
    exact typing_of_shrink hs rfl rfl rfl hs.w_le_e (le_refl _) rfl rfl rfl
  rw [if_neg hP, if_neg hS, if_neg hF] at h
  by_cases hU : c = ctrl 85
  · rw [if_pos hU] at h
    cases h
    obtain ⟨e', hk, hw', hle⟩ := killLineLoop_eq s.input (toUint (s.input.e - s.input.w) + 1)
      hs.w_le_e (by omega)
    have hkl : killLine s.input = { s.input with e := e' } := hk
    exact typing_of_shrink hs (by simp only [hkl]) (by simp only [hkl]) (by simp only [hkl])
      (by simp only [hkl]; exact hw') (by simp only [hkl]; exact hle) hs.nb_zero rfl rfl
  rw [if_neg hU] at h
  by_cases hB : c = ctrl 72 ∨ c = 127
  · rw [if_pos hB] at h
    rcases backspace_of_nb_zero hs.nb_zero hs.not_copy h with rfl | ⟨hne, rfl⟩
    · exact typing_of_shrink hs rfl rfl rfl hs.w_le_e (le_refl _) hs.nb_zero rfl rfl
    · have hw := hs.w_le_e
      have hu : toUint ((s.input.e : Int) - 1) = s.input.e - 1 := by
        rw [toUint_of_range (by omega) (by omega)]
        omega
      exact typing_of_shrink hs rfl rfl rfl (by simp only [hu]; omega) (by simp only [hu]; omega)
        hs.nb_zero rfl rfl
  · rw [if_neg hB] at h
    exact defaultKey_typing hkey hs h

structure Conserving (m : Machine) : Prop where
  typing : Typing m.con
  bytes : m.committed.filter (· != 4) = m.delivered ++ m.con.input.pending.filter (· != 4)

def Event.Typed : Event → Prop
  | .key c => TypingKey c
  | .read _ => True
  | .wake => True

lemma conserving_init : Conserving Machine.init := by
  refine ⟨⟨le_refl _, le_refl _, Nat.zero_le _, fun _ => rfl, by decide, rfl, by decide, le_refl _,
    fun _ => ?_⟩, rfl⟩
  simp only [Machine.init, State.zero, Input.zero]
  decide

lemma readerRun_conserving {m : Machine} (hm : Conserving m) (target n : Nat) :
    Conserving (readerRun m target n) := by
  have ht := hm.typing
  rcases hres : consolereadLoop target m.con.input [] n with ⟨x, got, done⟩
  obtain ⟨taken, hp, hg, hrr, hrw, hw, he, hb⟩ :=
    consolereadLoop_pending target m.con.input [] n ht.r_le_w
      (by have := ht.w_le_e; have := ht.e_le_131; omega) hres
  simp only [readerRun, hres]
  refine ⟨⟨hrw, ?_, ?_, ?_, ?_, ht.nb_zero, ht.not_copy, ht.end_nonneg, ?_⟩, ?_⟩
  all_goals dsimp only
  · rw [hw, he]
    exact ht.w_le_e
  · rw [he]
    have := ht.e_le
    omega
  · intro hfull
    rw [hw, he]
    rw [he] at hfull
    have := ht.e_le
    exact ht.full (by omega)
  · rw [he]
    exact ht.e_le_131
  · rw [hb]
    exact ht.no_query
  · rw [hm.bytes, hp, hg, List.filter_append, List.nil_append, List.append_assoc]

lemma conserving_step {m m' : Machine} {e : Event} (hm : Conserving m) (he : e.Typed)
    (h : step m e = some m') : Conserving m' := by
  cases e with
  | key c =>
    simp only [step] at h
    split at h
    · rename_i s hs
      cases h
      obtain ⟨ht, hp⟩ := typingKey_step he hm.typing hs
      refine ⟨ht, ?_⟩
      simp only
      rw [List.filter_append, hm.bytes, hp, List.filter_append, List.append_assoc]
    · cases h
  | read n =>
    simp only [step] at h
    split at h
    · cases h
      exact readerRun_conserving hm n n
    · cases h
  | wake =>
    simp only [step] at h
    split at h
    · cases h
      exact readerRun_conserving hm _ _
    · cases h

theorem typing_delivers_in_order {evs : List Event} {m : Machine}
    (hevs : ∀ e ∈ evs, e.Typed) (h : Run.exec step Machine.init evs = some m) : Delivered m := by
  have hc : Conserving m :=
    Run.exec_invariant_on (fun _ e _ he hm hs => conserving_step hm he hs) hevs conserving_init h
  rw [Delivered, hc.bytes]
  exact List.prefix_append _ _

theorem typing_delivers_in_order_one_line :
    ∃ m, Run.exec step Machine.init [.key 97, .key 10, .read 2] = some m ∧
      m.delivered = [97, 10] ∧ Delivered m := by
  have htyped : ∀ e ∈ [Event.key 97, .key 10, .read 2], e.Typed := by
    intro e he
    simp only [List.mem_cons, List.not_mem_nil, or_false] at he
    rcases he with rfl | rfl | rfl <;> simp only [Event.Typed] <;> decide
  refine ⟨_, rfl, by decide, ?_⟩
  exact typing_delivers_in_order htyped rfl

end Xv6.Console
