import Xv6.User.Grep
import Xv6.Fs.Lockfile

/-! `sh.c`'s parser: `gettoken` and `peek` over the command line, the recursive descent
`parseline`, `parsepipe`, `parseexec`, `parseblock` and `parseredirs` sharing one cursor, and
`nulterminate`. The line is `s` and its NUL, the cursor an offset into it.

The tokens `gettoken` reads from the start are `tokens s 0`, and the grammar of `sh.c` is
`Derives` over them. `parsecmd` returns exactly on a token sequence `line` derives, with the tree
of that derivation, and every string of the tree is then its word of `s` with a NUL after it
(`parsecmd_grammar`). -/

namespace Xv6.User

namespace Sh

def maxargs : Nat := 10

def whitespace : List UInt8 := [' ', '\t', '\r', '\n', '\x0b'].map Char.toUInt8

def symbols : List UInt8 := ['<', '|', '>', '&', ';', '(', ')'].map Char.toUInt8

def byteAt (s : List UInt8) (p : Nat) : UInt8 := s.getD p 0

def skipWs (s : List UInt8) (p : Nat) : Nat :=
  if p < s.length ∧ (strchr whitespace (byteAt s p)).isSome then skipWs s (p + 1) else p
termination_by s.length - p

def skipWord (s : List UInt8) (p : Nat) : Nat :=
  if p < s.length ∧ (strchr whitespace (byteAt s p)).isNone ∧ (strchr symbols (byteAt s p)).isNone
  then skipWord s (p + 1) else p
termination_by s.length - p

def scanToken (s : List UInt8) (p : Nat) : Int × Nat :=
  let c := byteAt s p
  if c = 0 then (0, p)
  else if c ∈ ['|', '(', ')', ';', '&', '<'].map Char.toUInt8 then (c.toNat, p + 1)
  else if c = '>'.toUInt8 then
    if byteAt s (p + 1) = '>'.toUInt8 then ('+'.toNat, p + 2) else ('>'.toNat, p + 1)
  else ('a'.toNat, skipWord s p)

structure Gettoken where
  ret : Int
  q : Nat
  eq : Nat
  ps : Nat

def gettoken (s : List UInt8) (ps : Nat) : Gettoken :=
  let p := skipWs s ps
  ⟨(scanToken s p).1, p, (scanToken s p).2, skipWs s (scanToken s p).2⟩

def peek (s : List UInt8) (ps : Nat) (toks : List UInt8) : Bool × Nat :=
  let p := skipWs s ps
  (byteAt s p != 0 && (strchr toks (byteAt s p)).isSome, p)

lemma lt_of_byteAt_ne_zero {s : List UInt8} {p : Nat} (h : byteAt s p ≠ 0) : p < s.length := by
  by_contra hp
  exact h (List.getD_eq_default _ _ (not_lt.mp hp))

lemma le_skipWs (s : List UInt8) (p : Nat) : p ≤ skipWs s p := by
  fun_induction skipWs s p with
  | case1 p _ ih => omega
  | case2 => exact le_rfl

lemma skipWs_stop (s : List UInt8) (p : Nat) :
    ¬(skipWs s p < s.length ∧ (strchr whitespace (byteAt s (skipWs s p))).isSome) := by
  fun_induction skipWs s p with
  | case1 => assumption
  | case2 p h => exact h

lemma skipWs_skipWs (s : List UInt8) (p : Nat) : skipWs s (skipWs s p) = skipWs s p := by
  rw [skipWs, if_neg (skipWs_stop s p)]

lemma lt_skipWord {s : List UInt8} {p : Nat} (hp : p < s.length)
    (hw : (strchr whitespace (byteAt s p)).isNone) (hsym : (strchr symbols (byteAt s p)).isNone) :
    p < skipWord s p := by
  have hle : ∀ q, q ≤ skipWord s q := fun q => by
    fun_induction skipWord s q with
    | case1 q _ ih => omega
    | case2 => exact le_rfl
  rw [skipWord, if_pos ⟨hp, hw, hsym⟩]
  exact Nat.lt_of_lt_of_le (Nat.lt_succ_self p) (hle (p + 1))

lemma le_scanToken (s : List UInt8) (p : Nat) : p ≤ (scanToken s p).2 := by
  have hle : ∀ q, q ≤ skipWord s q := fun q => by
    fun_induction skipWord s q with
    | case1 q _ ih => omega
    | case2 => exact le_rfl
  dsimp only [scanToken]
  split_ifs <;> simp [hle]

lemma le_gettoken_ps (s : List UInt8) (ps : Nat) : ps ≤ (gettoken s ps).ps :=
  (le_skipWs s ps).trans ((le_scanToken s _).trans (le_skipWs s _))

lemma lt_gettoken_ps {s : List UInt8} {ps : Nat} (h : byteAt s (skipWs s ps) ≠ 0) :
    ps < (gettoken s ps).ps := by
  set p := skipWs s ps with hp
  have hlt := lt_of_byteAt_ne_zero h
  have hws : (strchr whitespace (byteAt s p)).isNone := by
    have := skipWs_stop s ps
    rw [← hp] at this
    simpa [hlt] using this
  have hscan : p < (scanToken s p).2 := by
    dsimp only [scanToken]
    rw [if_neg h]
    split
    · simp
    split
    · split <;> simp
    · rename_i hsym hgt
      refine lt_skipWord hlt hws (Option.isNone_iff_eq_none.mpr (strchr_eq_none fun hmem => ?_))
      simp only [symbols, List.map_cons, List.map_nil, List.mem_cons] at hmem
      simp only [List.map_cons, List.map_nil, List.mem_cons] at hsym
      rcases hmem with h' | h' | h' | h' | h' | h' | h' | h' <;> simp_all
  exact (le_skipWs s ps).trans_lt (hscan.trans_le (le_skipWs s _))

lemma peek_advance {s : List UInt8} {ps : Nat} {toks : List UInt8} (h : (peek s ps toks).1 = true) :
    ps < (gettoken s (peek s ps toks).2).ps ∧ ps < s.length := by
  simp only [peek, Bool.and_eq_true, bne_iff_ne, ne_eq] at h
  have hb : byteAt s (skipWs s (skipWs s ps)) ≠ 0 := by rw [skipWs_skipWs]; exact h.1
  exact ⟨(le_skipWs s ps).trans_lt (lt_gettoken_ps hb),
    (le_skipWs s ps).trans_lt (lt_of_byteAt_ne_zero h.1)⟩

lemma scanToken_ret_eq_zero {s : List UInt8} {p : Nat} :
    (scanToken s p).1 = 0 ↔ byteAt s p = 0 := by
  dsimp only [scanToken]
  split_ifs <;> simp_all [← UInt8.toNat_inj]

lemma gettoken_advance {s : List UInt8} {ps : Nat} (h : (gettoken s ps).ret ≠ 0) :
    ps < (gettoken s ps).ps ∧ ps < s.length := by
  have hb : byteAt s (skipWs s ps) ≠ 0 := fun h0 => h (scanToken_ret_eq_zero.mpr h0)
  exact ⟨lt_gettoken_ps hb, (le_skipWs s ps).trans_lt (lt_of_byteAt_ne_zero hb)⟩

lemma lex_lt_of_le {a a' b b' : Nat} (ha : a' ≤ a) (hb : b' < b) :
    Prod.Lex (· < ·) (· < ·) (a', b') (a, b) := by
  rcases Nat.lt_or_eq_of_le ha with ha | rfl
  · exact Prod.Lex.left _ _ ha
  · exact Prod.Lex.right _ hb

inductive Cmd
  | exec (argv : List (Nat × Nat))
  | redir (cmd : Cmd) (file efile mode fd : Nat)
  | pipe (left right : Cmd)
  | list (left right : Cmd)
  | back (cmd : Cmd)
deriving DecidableEq, Repr

def setArgv : Cmd → List (Nat × Nat) → Cmd
  | .exec _, argv => .exec argv
  | .redir c file efile mode fd, argv => .redir (setArgv c argv) file efile mode fd
  | c, _ => c

def parseredirs (s : List UInt8) (cmd : Cmd) (ps : Nat) : Option (Cmd × Nat) :=
  if h : (peek s ps (['<', '>'].map Char.toUInt8)).1 then
    let tok := gettoken s (peek s ps (['<', '>'].map Char.toUInt8)).2
    let file := gettoken s tok.ps
    if file.ret ≠ 'a'.toNat then none
    else
      let cmd :=
        if tok.ret = '<'.toNat then Cmd.redir cmd file.q file.eq Fs.oRdonly 0
        else if tok.ret = '>'.toNat then Cmd.redir cmd file.q file.eq (Fs.oWronly ||| Fs.oCreate) 1
        else if tok.ret = '+'.toNat then Cmd.redir cmd file.q file.eq (Fs.oWronly ||| Fs.oCreate) 1
        else cmd
      parseredirs s cmd file.ps
  else some (cmd, (peek s ps (['<', '>'].map Char.toUInt8)).2)
termination_by s.length - ps
decreasing_by
  have := peek_advance h
  have := le_gettoken_ps s (gettoken s (peek s ps (['<', '>'].map Char.toUInt8)).2).ps
  omega

lemma le_parseredirs {s : List UInt8} {cmd cmd' : Cmd} {ps p : Nat}
    (h : parseredirs s cmd ps = some (cmd', p)) : ps ≤ p := by
  fun_induction parseredirs s cmd ps generalizing cmd' p with
  | case1 => simp at h
  | case2 cmd ps hpeek tok file =>
    rename_i ih
    have h₁ : ps < tok.ps := (peek_advance hpeek).1
    have h₂ : tok.ps ≤ file.ps := le_gettoken_ps s tok.ps
    have h₃ : file.ps ≤ p := ih h
    omega
  | case3 cmd ps _ =>
    obtain ⟨-, rfl⟩ := Prod.mk.inj (Option.some.inj h)
    exact le_skipWs s ps

def parseBacks (s : List UInt8) (cmd : Cmd) (ps : Nat) : Cmd × Nat :=
  if h : (peek s ps ['&'.toUInt8]).1 then
    parseBacks s (.back cmd) (gettoken s (peek s ps ['&'.toUInt8]).2).ps
  else (cmd, (peek s ps ['&'.toUInt8]).2)
termination_by s.length - ps
decreasing_by
  have := peek_advance h
  omega

lemma le_parseBacks (s : List UInt8) (cmd : Cmd) (ps : Nat) : ps ≤ (parseBacks s cmd ps).2 := by
  fun_induction parseBacks s cmd ps with
  | case1 cmd ps hpeek ih =>
    have := peek_advance hpeek
    omega
  | case2 cmd ps _ => exact le_skipWs s ps

def parseexecLoop (s : List UInt8) (ret : Cmd) (argv : List (Nat × Nat)) (ps : Nat) :
    Option (Cmd × List (Nat × Nat) × Nat) :=
  if (peek s ps (['|', ')', '&', ';'].map Char.toUInt8)).1 then
    some (ret, argv, (peek s ps (['|', ')', '&', ';'].map Char.toUInt8)).2)
  else
    let tok := gettoken s (peek s ps (['|', ')', '&', ';'].map Char.toUInt8)).2
    if h : tok.ret = 0 then some (ret, argv, tok.ps)
    else if tok.ret ≠ 'a'.toNat then none
    else if (argv ++ [(tok.q, tok.eq)]).length ≥ maxargs then none
    else
      match hr : parseredirs s ret tok.ps with
      | none => none
      | some (ret, p) => parseexecLoop s ret (argv ++ [(tok.q, tok.eq)]) p
termination_by s.length - ps
decreasing_by
  have h₁ : (peek s ps (['|', ')', '&', ';'].map Char.toUInt8)).2 < tok.ps ∧
      (peek s ps (['|', ')', '&', ';'].map Char.toUInt8)).2 < s.length := gettoken_advance h
  have h₂ : tok.ps ≤ p := le_parseredirs hr
  have h₃ : ps ≤ (peek s ps (['|', ')', '&', ';'].map Char.toUInt8)).2 := le_skipWs s ps
  omega

lemma le_parseexecLoop {s : List UInt8} {ret ret' : Cmd} {argv argv' : List (Nat × Nat)}
    {ps p : Nat} (h : parseexecLoop s ret argv ps = some (ret', argv', p)) : ps ≤ p := by
  fun_induction parseexecLoop s ret argv ps generalizing ret' argv' p with
  | case1 ret argv ps _ =>
    simp only [Option.some.injEq, Prod.mk.injEq] at h
    obtain ⟨-, -, rfl⟩ := h
    exact le_skipWs s ps
  | case2 ret argv ps _ tok =>
    simp only [Option.some.injEq, Prod.mk.injEq] at h
    obtain ⟨-, -, rfl⟩ := h
    exact (le_skipWs s ps).trans (le_gettoken_ps s _)
  | case3 => simp at h
  | case4 => simp at h
  | case5 => simp at h
  | case6 ret argv ps _ tok h0 _ _ ret₁ p₁ hr =>
    rename_i ih
    have h₁ : (peek s ps (['|', ')', '&', ';'].map Char.toUInt8)).2 < tok.ps ∧
        (peek s ps (['|', ')', '&', ';'].map Char.toUInt8)).2 < s.length := gettoken_advance h0
    have h₂ : tok.ps ≤ p₁ := le_parseredirs hr
    have h₃ : ps ≤ (peek s ps (['|', ')', '&', ';'].map Char.toUInt8)).2 := le_skipWs s ps
    have h₄ := ih h
    omega

mutual

def parseline (s : List UInt8) (ps : Nat) : Option {r : Cmd × Nat // ps ≤ r.2} :=
  match parsepipe s ps with
  | none => none
  | some ⟨(cmd, p), hp⟩ =>
    if h : (peek s (parseBacks s cmd p).2 [';'.toUInt8]).1 then
      match parseline s (gettoken s (peek s (parseBacks s cmd p).2 [';'.toUInt8]).2).ps with
      | none => none
      | some ⟨(rhs, p'), hp'⟩ =>
        some ⟨(.list (parseBacks s cmd p).1 rhs, p'), by
          have := le_parseBacks s cmd p
          have := peek_advance h
          omega⟩
    else
      some ⟨((parseBacks s cmd p).1, (peek s (parseBacks s cmd p).2 [';'.toUInt8]).2), by
        have := le_parseBacks s cmd p
        have := le_skipWs s (parseBacks s cmd p).2
        simp only [peek]
        omega⟩
termination_by (s.length - ps, 3)
decreasing_by
  · exact Prod.Lex.right _ (by omega)
  · have := le_parseBacks s cmd p
    have := peek_advance h
    exact Prod.Lex.left _ _ (by omega)

def parsepipe (s : List UInt8) (ps : Nat) : Option {r : Cmd × Nat // ps ≤ r.2} :=
  match parseexec s ps with
  | none => none
  | some ⟨(cmd, p), hp⟩ =>
    if h : (peek s p ['|'.toUInt8]).1 then
      match parsepipe s (gettoken s (peek s p ['|'.toUInt8]).2).ps with
      | none => none
      | some ⟨(rhs, p'), hp'⟩ =>
        some ⟨(.pipe cmd rhs, p'), by
          have := peek_advance h
          omega⟩
    else
      some ⟨(cmd, (peek s p ['|'.toUInt8]).2), by
        have := le_skipWs s p
        simp only [peek]
        omega⟩
termination_by (s.length - ps, 2)
decreasing_by
  · exact Prod.Lex.right _ (by omega)
  · have := peek_advance h
    exact Prod.Lex.left _ _ (by omega)

def parseexec (s : List UInt8) (ps : Nat) : Option {r : Cmd × Nat // ps ≤ r.2} :=
  if h : (peek s ps ['('.toUInt8]).1 then
    (parseblock s (peek s ps ['('.toUInt8]).2).map fun r => ⟨r.1, (le_skipWs s ps).trans r.2⟩
  else
    match hr : parseredirs s (.exec []) (peek s ps ['('.toUInt8]).2 with
    | none => none
    | some (ret, p) =>
      match hl : parseexecLoop s ret [] p with
      | none => none
      | some (ret, argv, p') =>
        some ⟨(setArgv ret argv, p'), by
          have := le_skipWs s ps
          have := le_parseredirs hr
          have := le_parseexecLoop hl
          simp only [peek] at *
          omega⟩
termination_by (s.length - ps, 1)
decreasing_by
  exact lex_lt_of_le (by have := le_skipWs s ps; simp only [peek]; omega) (by omega)

def parseblock (s : List UInt8) (ps : Nat) : Option {r : Cmd × Nat // ps ≤ r.2} :=
  if h : (peek s ps ['('.toUInt8]).1 then
    match parseline s (gettoken s (peek s ps ['('.toUInt8]).2).ps with
    | none => none
    | some ⟨(cmd, p), hp⟩ =>
      if (peek s p [')'.toUInt8]).1 then
        match hr : parseredirs s cmd (gettoken s (peek s p [')'.toUInt8]).2).ps with
        | none => none
        | some (cmd, p') =>
          some ⟨(cmd, p'), by
            have := peek_advance h
            have := le_skipWs s p
            have := le_gettoken_ps s (peek s p [')'.toUInt8]).2
            have := le_parseredirs hr
            simp only [peek] at *
            omega⟩
      else none
  else none
termination_by (s.length - ps, 0)
decreasing_by
  have := peek_advance h
  exact Prod.Lex.left _ _ (by omega)

end

def nulterminate (m : Nat → UInt8) : Cmd → Nat → UInt8
  | .exec argv => argv.foldl (fun m w => Function.update m w.2 0) m
  | .redir cmd _ efile _ _ => Function.update (nulterminate m cmd) efile 0
  | .pipe left right => nulterminate (nulterminate m left) right
  | .list left right => nulterminate (nulterminate m left) right
  | .back cmd => nulterminate m cmd

def parsecmd (s : List UInt8) : Option (Cmd × (Nat → UInt8)) :=
  match parseline s 0 with
  | none => none
  | some ⟨(cmd, p), _⟩ =>
    if (peek s p []).2 ≠ s.length then none
    else some (cmd, nulterminate (byteAt s) cmd)

inductive Tok
  | word (q eq : Nat)
  | bar | lparen | rparen | semi | amp | lt | gt | gtgt
deriving DecidableEq, Repr

def Gettoken.tok (t : Gettoken) : Tok :=
  if t.ret = '|'.toNat then .bar
  else if t.ret = '('.toNat then .lparen
  else if t.ret = ')'.toNat then .rparen
  else if t.ret = ';'.toNat then .semi
  else if t.ret = '&'.toNat then .amp
  else if t.ret = '<'.toNat then .lt
  else if t.ret = '>'.toNat then .gt
  else if t.ret = '+'.toNat then .gtgt
  else .word t.q t.eq

def tokens (s : List UInt8) (ps : Nat) : List Tok :=
  if h : (gettoken s ps).ret = 0 then [] else (gettoken s ps).tok :: tokens s (gettoken s ps).ps
termination_by s.length - ps
decreasing_by
  have := gettoken_advance h
  omega

def Tok.lead : Tok → UInt8
  | .word _ _ => 'a'.toUInt8
  | .bar => '|'.toUInt8
  | .lparen => '('.toUInt8
  | .rparen => ')'.toUInt8
  | .semi => ';'.toUInt8
  | .amp => '&'.toUInt8
  | .lt => '<'.toUInt8
  | .gt | .gtgt => '>'.toUInt8

lemma gettoken_skipWs (s : List UInt8) (ps : Nat) : gettoken s (skipWs s ps) = gettoken s ps := by
  simp only [gettoken, skipWs_skipWs]

lemma tokens_skipWs (s : List UInt8) (ps : Nat) : tokens s (skipWs s ps) = tokens s ps := by
  rw [tokens.eq_1 s (skipWs s ps), gettoken_skipWs, ← tokens.eq_1]

lemma tokens_eq_nil {s : List UInt8} {ps : Nat} (h : (gettoken s ps).ret = 0) : tokens s ps = [] := by
  rw [tokens, dif_pos h]

lemma tokens_eq_cons {s : List UInt8} {ps : Nat} (h : (gettoken s ps).ret ≠ 0) :
    tokens s ps = (gettoken s ps).tok :: tokens s (gettoken s ps).ps := by
  rw [tokens, dif_neg h]

lemma gettoken_of_tokens {s : List UInt8} {ps : Nat} {t : Tok} {r : List Tok}
    (h : tokens s ps = t :: r) :
    (gettoken s ps).ret ≠ 0 ∧ (gettoken s ps).tok = t ∧ tokens s (gettoken s ps).ps = r := by
  by_cases h0 : (gettoken s ps).ret = 0
  · rw [tokens_eq_nil h0] at h
    cases h
  · rw [tokens_eq_cons h0, List.cons.injEq] at h
    exact ⟨h0, h⟩

def Tok.code : Tok → Int
  | .word _ _ => 'a'.toNat
  | .gtgt => '+'.toNat
  | t => t.lead.toNat

lemma gettoken_cases {s : List UInt8} {ps : Nat} (hb : byteAt s (skipWs s ps) ≠ 0) :
    (gettoken s ps).ret = (gettoken s ps).tok.code ∧
      (byteAt s (skipWs s ps) ∈ symbols → (gettoken s ps).tok.lead = byteAt s (skipWs s ps)) ∧
      (byteAt s (skipWs s ps) ∉ symbols →
        (gettoken s ps).tok = .word (gettoken s ps).q (gettoken s ps).eq) := by
  simp only [gettoken, scanToken, if_neg hb]
  generalize byteAt s (skipWs s ps) = b at hb ⊢
  split_ifs with hsix hgt hgt2
  · simp only [List.map_cons, List.map_nil, List.mem_cons, List.not_mem_nil, or_false] at hsix
    rcases hsix with rfl | rfl | rfl | rfl | rfl | rfl <;>
      simp +decide [Gettoken.tok, Tok.code, Tok.lead]
  · subst hgt
    simp +decide [Gettoken.tok, Tok.code, Tok.lead]
  · subst hgt
    simp +decide [Gettoken.tok, Tok.code, Tok.lead]
  · have hsym : b ∉ symbols := by
      simp only [List.map_cons, List.map_nil, List.mem_cons, List.not_mem_nil, or_false] at hsix
      simp only [symbols, List.map_cons, List.map_nil, List.mem_cons, List.not_mem_nil, or_false]
      tauto
    refine ⟨by simp +decide [Gettoken.tok, Tok.code], fun h => absurd h hsym,
      fun _ => by simp +decide [Gettoken.tok]⟩

lemma strchr_isSome_iff {l : List UInt8} (h0 : (0 : UInt8) ∉ l) (c : UInt8) :
    (strchr l c).isSome ↔ c ∈ l := by
  have hl : l.takeWhile (· != 0) = l :=
    List.takeWhile_eq_self_iff.mpr fun x hx => by simpa using ne_of_mem_of_not_mem hx h0
  simp [strchr, hl]

lemma peek_iff {s : List UInt8} {ps : Nat} {toks : List UInt8} (htoks : ∀ c ∈ toks, c ∈ symbols) :
    (peek s ps toks).1 = true ↔ ∃ t r, tokens s ps = t :: r ∧ t.lead ∈ toks := by
  have h0 : (0 : UInt8) ∉ toks := fun h => absurd (htoks 0 h) (by decide)
  by_cases hb : byteAt s (skipWs s ps) = 0
  · have hnil : tokens s ps = [] := tokens_eq_nil (scanToken_ret_eq_zero.mpr hb)
    simp [peek, hb, hnil]
  · have hcons : tokens s ps = (gettoken s ps).tok :: tokens s (gettoken s ps).ps :=
      tokens_eq_cons fun h => hb (scanToken_ret_eq_zero.mp h)
    obtain ⟨-, hlead, hword⟩ := gettoken_cases hb
    have hpeek : (peek s ps toks).1 = true ↔ byteAt s (skipWs s ps) ∈ toks := by
      simp [peek, hb, strchr_isSome_iff h0]
    rw [hpeek, hcons]
    simp only [List.cons.injEq, exists_and_left, exists_and_right, exists_eq', and_true,
      exists_eq_left']
    by_cases hsym : byteAt s (skipWs s ps) ∈ symbols
    · rw [hlead hsym]
    · rw [hword hsym, Tok.lead]
      exact iff_of_false (fun h => hsym (htoks _ h)) fun h => absurd (htoks _ h) (by decide)

lemma tokens_peek (s : List UInt8) (ps : Nat) (toks : List UInt8) :
    tokens s (peek s ps toks).2 = tokens s ps :=
  tokens_skipWs s ps

lemma gettoken_of_head {s : List UInt8} {ps : Nat} {t : Tok} {r : List Tok}
    (h : tokens s ps = t :: r) :
    (gettoken s ps).ret = t.code ∧ (gettoken s ps).tok = t ∧ tokens s (gettoken s ps).ps = r ∧
      ∀ q e, t = .word q e → (gettoken s ps).q = q ∧ (gettoken s ps).eq = e := by
  obtain ⟨h0, htok, hr⟩ := gettoken_of_tokens h
  have hb : byteAt s (skipWs s ps) ≠ 0 := fun hb => h0 (scanToken_ret_eq_zero.mpr hb)
  obtain ⟨hcode, hlead, hword⟩ := gettoken_cases hb
  refine ⟨htok ▸ hcode, htok, hr, fun q e hqe => ?_⟩
  by_cases hsym : byteAt s (skipWs s ps) ∈ symbols
  · have := hlead hsym
    rw [htok, hqe, Tok.lead] at this
    exact absurd (this ▸ hsym) (by decide)
  · have := hword hsym
    rw [htok, hqe, Tok.word.injEq] at this
    exact ⟨this.1.symm, this.2.symm⟩

lemma gettoken_ret_eq_zero_iff {s : List UInt8} {ps : Nat} :
    (gettoken s ps).ret = 0 ↔ tokens s ps = [] := by
  refine ⟨tokens_eq_nil, fun h => ?_⟩
  by_contra h0
  rw [tokens_eq_cons h0] at h
  cases h

structure Redir where
  file : Nat
  efile : Nat
  mode : Nat
  fd : Nat
deriving DecidableEq, Repr

def wrap (cmd : Cmd) (rs : List Redir) : Cmd :=
  rs.foldl (fun c x => .redir c x.file x.efile x.mode x.fd) cmd

def redirMode : Tok → Option (Nat × Nat)
  | .lt => some (Fs.oRdonly, 0)
  | .gt | .gtgt => some (Fs.oWronly ||| Fs.oCreate, 1)
  | _ => none

def backs (cmd : Cmd) : Nat → Cmd
  | 0 => cmd
  | k + 1 => .back (backs cmd k)

inductive Redirs : List Tok → List Redir → List Tok → Prop
  | nil (ts : List Tok) : Redirs ts [] ts
  | cons {op : Tok} {q e mode fd : Nat} {r r' : List Tok} {rs : List Redir} :
      redirMode op = some (mode, fd) → Redirs r rs r' →
      Redirs (op :: .word q e :: r) (⟨q, e, mode, fd⟩ :: rs) r'

inductive Words : List Tok → List (Nat × Nat) → List Redir → List Tok → Prop
  | nil (ts : List Tok) : Words ts [] [] ts
  | cons {q e : Nat} {r₁ r₂ r : List Tok} {rs₁ rs : List Redir} {argv : List (Nat × Nat)} :
      Redirs r₁ rs₁ r₂ → Words r₂ argv rs r →
      Words (.word q e :: r₁) ((q, e) :: argv) (rs₁ ++ rs) r

inductive Nonterminal
  | line | pipe | exec
deriving DecidableEq

inductive Derives : Nonterminal → List Tok → Cmd → List Tok → Prop
  | line {ts r : List Tok} {c : Cmd} {k : Nat} :
      Derives .pipe ts c (List.replicate k .amp ++ r) → Derives .line ts (backs c k) r
  | list {ts r₁ r : List Tok} {c c' : Cmd} {k : Nat} :
      Derives .pipe ts c (List.replicate k .amp ++ .semi :: r₁) → Derives .line r₁ c' r →
      Derives .line ts (.list (backs c k) c') r
  | pipe {ts r : List Tok} {c : Cmd} : Derives .exec ts c r → Derives .pipe ts c r
  | pipeBar {ts r₁ r : List Tok} {c c' : Cmd} :
      Derives .exec ts c (.bar :: r₁) → Derives .pipe r₁ c' r → Derives .pipe ts (.pipe c c') r
  | block {r₁ r₂ r : List Tok} {c : Cmd} {rs : List Redir} :
      Derives .line r₁ c (.rparen :: r₂) → Redirs r₂ rs r → Derives .exec (.lparen :: r₁) (wrap c rs) r
  | exec {ts r₁ r : List Tok} {rs₀ rs : List Redir} {argv : List (Nat × Nat)} :
      Redirs ts rs₀ r₁ → Words r₁ argv rs r → argv.length < maxargs →
      Derives .exec ts (wrap (.exec argv) (rs₀ ++ rs)) r

def Follows : Nonterminal → List Tok → Prop
  | .line, r => ∀ t ∈ r.head?, t = .rparen
  | .pipe, r => ∀ t ∈ r.head?, t ∈ [.amp, .semi, .rparen]
  | .exec, r => ∀ t ∈ r.head?, t ∈ [.bar, .amp, .semi, .rparen]

lemma parseredirs_stop {s : List UInt8} {ps : Nat} (h : ∀ t ∈ (tokens s ps).head?, redirMode t = none)
    (cmd : Cmd) : parseredirs s cmd ps = some (cmd, skipWs s ps) := by
  have hpeek : (peek s ps (['<', '>'].map Char.toUInt8)).1 = false := by
    rw [Bool.eq_false_iff, ne_eq, peek_iff (by decide +kernel)]
    rintro ⟨t, r, ht, hlead⟩
    have := h t (by simp [ht])
    cases t <;> simp_all +decide [Tok.lead, redirMode]
  rw [parseredirs, dif_neg (by rw [hpeek]; decide)]
  rfl

lemma parseredirs_word {s : List UInt8} {ps : Nat} {op : Tok} {q e mode fd : Nat} {r : List Tok}
    (h : tokens s ps = op :: .word q e :: r) (hop : redirMode op = some (mode, fd)) (cmd : Cmd) :
    ∃ p, tokens s p = r ∧ parseredirs s cmd ps = parseredirs s (.redir cmd q e mode fd) p := by
  have hpeek : (peek s ps (['<', '>'].map Char.toUInt8)).1 = true := by
    refine (peek_iff (by decide +kernel)).mpr ⟨op, _, h, ?_⟩
    cases op <;> simp_all +decide [redirMode]
  rw [← tokens_peek s ps (['<', '>'].map Char.toUInt8)] at h
  obtain ⟨hret, -, hrest, -⟩ := gettoken_of_head h
  obtain ⟨hret', -, hrest', hqe⟩ := gettoken_of_head hrest
  obtain ⟨rfl, rfl⟩ := hqe q e rfl
  refine ⟨_, hrest', ?_⟩
  rw [parseredirs, dif_pos hpeek]
  simp only [hret', Tok.code, ne_eq, not_true_eq_false, if_false, hret]
  congr 1
  cases op <;> simp_all +decide [Tok.code, redirMode]

lemma parseredirs_missing {s : List UInt8} {ps : Nat} {op : Tok} {r : List Tok}
    (h : tokens s ps = op :: r) (hop : (redirMode op).isSome) (hr : ∀ q e r', r ≠ .word q e :: r')
    (cmd : Cmd) : parseredirs s cmd ps = none := by
  have hpeek : (peek s ps (['<', '>'].map Char.toUInt8)).1 = true := by
    refine (peek_iff (by decide +kernel)).mpr ⟨op, _, h, ?_⟩
    cases op <;> simp_all +decide [redirMode]
  rw [← tokens_peek s ps (['<', '>'].map Char.toUInt8)] at h
  obtain ⟨-, -, hrest, -⟩ := gettoken_of_head h
  have hret : (gettoken s (gettoken s (peek s ps (['<', '>'].map Char.toUInt8)).2).ps).ret ≠
      'a'.toNat := by
    intro ha
    cases hts : tokens s (gettoken s (peek s ps (['<', '>'].map Char.toUInt8)).2).ps with
    | nil => rw [gettoken_ret_eq_zero_iff.mpr hts] at ha; cases ha
    | cons t r' =>
      obtain ⟨hcode, -, -, -⟩ := gettoken_of_head hts
      rw [hrest] at hts
      subst hts
      cases t <;> simp_all +decide [Tok.code, Tok.lead]
  rw [parseredirs, dif_pos hpeek]
  simp only [hret, ne_eq, not_false_eq_true, if_true]

@[simp] lemma wrap_nil (cmd : Cmd) : wrap cmd [] = cmd := rfl

lemma wrap_cons (cmd : Cmd) (x : Redir) (rs : List Redir) :
    wrap cmd (x :: rs) = wrap (.redir cmd x.file x.efile x.mode x.fd) rs := rfl

lemma wrap_append (cmd : Cmd) (rs rs' : List Redir) : wrap cmd (rs ++ rs') = wrap (wrap cmd rs) rs' :=
  List.foldl_append

lemma parseredirs_sound {s : List UInt8} {cmd cmd' : Cmd} {ps p : Nat}
    (h : parseredirs s cmd ps = some (cmd', p)) :
    ∃ rs, Redirs (tokens s ps) rs (tokens s p) ∧ cmd' = wrap cmd rs := by
  induction hn : (tokens s ps).length using Nat.strong_induction_on generalizing cmd ps with
  | _ n ih =>
    by_cases hstop : ∀ t ∈ (tokens s ps).head?, redirMode t = none
    · rw [parseredirs_stop hstop, Option.some.injEq, Prod.mk.injEq] at h
      obtain ⟨rfl, rfl⟩ := h
      exact ⟨[], by rw [tokens_skipWs]; exact .nil _, rfl⟩
    · obtain ⟨op, r, hts, hop⟩ : ∃ op r, tokens s ps = op :: r ∧ (redirMode op).isSome := by
        cases hts : tokens s ps with
        | nil => simp [hts] at hstop
        | cons op r => exact ⟨op, r, rfl, by simpa [hts, Option.ne_none_iff_isSome] using hstop⟩
      by_cases hw : ∃ q e r', r = .word q e :: r'
      · obtain ⟨q, e, r', rfl⟩ := hw
        obtain ⟨⟨mode, fd⟩, hmode⟩ := Option.isSome_iff_exists.mp hop
        obtain ⟨p', hp', heq⟩ := parseredirs_word hts hmode cmd
        rw [heq] at h
        have hlen : (tokens s p').length < n := by
          have := congrArg List.length hts
          simp only [List.length_cons] at this
          rw [hp']
          omega
        obtain ⟨rs, hrs, rfl⟩ := ih _ hlen h rfl
        refine ⟨⟨q, e, mode, fd⟩ :: rs, ?_, rfl⟩
        rw [hts]
        exact .cons hmode (hp' ▸ hrs)
      · rw [parseredirs_missing hts hop (fun q e r' he => hw ⟨q, e, r', he⟩)] at h
        cases h

lemma parseredirs_complete {s : List UInt8} {ts r : List Tok} {rs : List Redir} (h : Redirs ts rs r)
    (hr : ∀ t ∈ r.head?, redirMode t = none) (cmd : Cmd) {ps : Nat} (hts : tokens s ps = ts) :
    ∃ p, parseredirs s cmd ps = some (wrap cmd rs, p) ∧ tokens s p = r := by
  induction h generalizing cmd ps with
  | nil ts =>
    subst hts
    exact ⟨_, parseredirs_stop hr cmd, tokens_skipWs s ps⟩
  | cons hmode _ ih =>
    obtain ⟨p, hp, heq⟩ := parseredirs_word hts hmode cmd
    rw [heq]
    exact ih hr _ hp

lemma backs_back (cmd : Cmd) (k : Nat) : backs (.back cmd) k = backs cmd (k + 1) := by
  induction k with
  | zero => rfl
  | succ k ih =>
    show Cmd.back (backs (.back cmd) k) = Cmd.back (backs cmd (k + 1))
    rw [ih]

lemma peek_amp_iff {s : List UInt8} {ps : Nat} :
    (peek s ps ['&'.toUInt8]).1 = true ↔ ∃ r, tokens s ps = .amp :: r := by
  rw [peek_iff (by decide +kernel)]
  constructor
  · rintro ⟨t, r, ht, hlead⟩
    cases t <;> simp_all +decide [Tok.lead]
  · rintro ⟨r, hr⟩
    exact ⟨.amp, r, hr, by decide⟩

lemma parseBacks_spec (s : List UInt8) (cmd : Cmd) (ps : Nat) :
    ∃ k, tokens s ps = List.replicate k .amp ++ tokens s (parseBacks s cmd ps).2 ∧
      (parseBacks s cmd ps).1 = backs cmd k ∧
      ∀ t ∈ (tokens s (parseBacks s cmd ps).2).head?, t ≠ .amp := by
  fun_induction parseBacks s cmd ps with
  | case1 cmd ps hpeek ih =>
    obtain ⟨k, hk, hc, hstop⟩ := ih
    obtain ⟨r, hr⟩ := peek_amp_iff.mp hpeek
    rw [← tokens_peek s ps] at hr
    obtain ⟨-, -, hrest, -⟩ := gettoken_of_head hr
    refine ⟨k + 1, ?_, by rw [hc, backs_back], hstop⟩
    rw [← tokens_peek s ps ['&'.toUInt8], hr, ← hrest, hk]
    rfl
  | case2 cmd ps hpeek =>
    refine ⟨0, by rw [tokens_peek]; rfl, rfl, fun t ht he => hpeek (peek_amp_iff.mpr ?_)⟩
    rw [tokens_peek] at ht
    subst he
    cases hts : tokens s ps with
    | nil => simp [hts] at ht
    | cons t r =>
      rw [hts, List.head?_cons, Option.mem_some_iff] at ht
      exact ⟨r, ht ▸ rfl⟩

lemma Redirs.length_le {ts rs r} (h : Redirs ts rs r) : r.length ≤ ts.length := by
  induction h with
  | nil => exact le_rfl
  | cons _ _ ih =>
    simp only [List.length_cons]
    omega

def endsExec (t : Tok) : Bool := t ∈ [.bar, .rparen, .amp, .semi]

lemma peek_endsExec_iff {s : List UInt8} {ps : Nat} :
    (peek s ps (['|', ')', '&', ';'].map Char.toUInt8)).1 = true ↔
      ∃ t r, tokens s ps = t :: r ∧ endsExec t := by
  rw [peek_iff (by decide +kernel)]
  refine exists_congr fun t => exists_congr fun r => and_congr_right fun _ => ?_
  cases t <;> simp +decide [Tok.lead, endsExec]

lemma gettoken_ps_of_end {s : List UInt8} {ps : Nat} (h : (gettoken s ps).ret = 0) :
    (gettoken s ps).ps = skipWs s ps := by
  have hb := scanToken_ret_eq_zero.mp h
  simp only [gettoken, scanToken, if_pos hb, skipWs_skipWs]

lemma parseexecLoop_stop {s : List UInt8} {ps : Nat} {t : Tok} {r : List Tok}
    (h : tokens s ps = t :: r) (ht : endsExec t) (ret : Cmd) (argv : List (Nat × Nat)) :
    parseexecLoop s ret argv ps = some (ret, argv, skipWs s ps) := by
  rw [parseexecLoop, if_pos (peek_endsExec_iff.mpr ⟨t, r, h, ht⟩)]
  rfl

lemma parseexecLoop_end {s : List UInt8} {ps : Nat} (h : tokens s ps = []) (ret : Cmd)
    (argv : List (Nat × Nat)) :
    ∃ p, parseexecLoop s ret argv ps = some (ret, argv, p) ∧ tokens s p = [] := by
  have hpeek : ¬(peek s ps (['|', ')', '&', ';'].map Char.toUInt8)).1 = true := by
    rw [peek_endsExec_iff, h]
    simp
  have hret : (gettoken s (peek s ps (['|', ')', '&', ';'].map Char.toUInt8)).2).ret = 0 :=
    gettoken_ret_eq_zero_iff.mpr (by rw [tokens_peek, h])
  refine ⟨(gettoken s (peek s ps (['|', ')', '&', ';'].map Char.toUInt8)).2).ps, ?_, ?_⟩
  · rw [parseexecLoop, if_neg hpeek, dif_pos hret]
  · rw [gettoken_ps_of_end hret, tokens_skipWs, tokens_peek, h]

lemma parseexecLoop_word {s : List UInt8} {ps q e : Nat} {r : List Tok}
    (h : tokens s ps = .word q e :: r) (ret : Cmd) {argv : List (Nat × Nat)}
    (hlen : (argv ++ [(q, e)]).length < maxargs) :
    ∃ p, tokens s p = r ∧ parseexecLoop s ret argv ps =
      (parseredirs s ret p).bind fun x => parseexecLoop s x.1 (argv ++ [(q, e)]) x.2 := by
  have hpeek : ¬(peek s ps (['|', ')', '&', ';'].map Char.toUInt8)).1 = true := by
    rw [peek_endsExec_iff, h]
    simp [endsExec]
  rw [← tokens_peek s ps (['|', ')', '&', ';'].map Char.toUInt8)] at h
  obtain ⟨hret, -, hrest, hqe⟩ := gettoken_of_head h
  obtain ⟨hq, he⟩ := hqe q e rfl
  refine ⟨_, hrest, ?_⟩
  rw [parseexecLoop, if_neg hpeek]
  simp only [hret, Tok.code, hq, he]
  rw [dif_neg (by decide), if_neg (by simp), if_neg (by omega)]
  split <;> simp_all

lemma parseexecLoop_too_many {s : List UInt8} {ps q e : Nat} {r : List Tok}
    (h : tokens s ps = .word q e :: r) (ret : Cmd) {argv : List (Nat × Nat)}
    (hlen : maxargs ≤ (argv ++ [(q, e)]).length) : parseexecLoop s ret argv ps = none := by
  have hpeek : ¬(peek s ps (['|', ')', '&', ';'].map Char.toUInt8)).1 = true := by
    rw [peek_endsExec_iff, h]
    simp [endsExec]
  rw [← tokens_peek s ps (['|', ')', '&', ';'].map Char.toUInt8)] at h
  obtain ⟨hret, -, -, hqe⟩ := gettoken_of_head h
  obtain ⟨hq, he⟩ := hqe q e rfl
  rw [parseexecLoop, if_neg hpeek]
  simp only [hret, Tok.code, hq, he]
  rw [dif_neg (by decide), if_neg (by simp), if_pos hlen]

lemma parseexecLoop_bad_token {s : List UInt8} {ps : Nat} {t : Tok} {r : List Tok}
    (h : tokens s ps = t :: r) (ht : endsExec t = false) (hw : ∀ q e, t ≠ .word q e) (ret : Cmd)
    (argv : List (Nat × Nat)) : parseexecLoop s ret argv ps = none := by
  have hpeek : ¬(peek s ps (['|', ')', '&', ';'].map Char.toUInt8)).1 = true := by
    rw [peek_endsExec_iff, h]
    simp [ht]
  rw [← tokens_peek s ps (['|', ')', '&', ';'].map Char.toUInt8)] at h
  obtain ⟨hret, -, -, -⟩ := gettoken_of_head h
  have hcode : t.code ≠ 0 ∧ t.code ≠ 'a'.toNat := by
    cases t <;> simp_all +decide [Tok.code, Tok.lead]
  rw [parseexecLoop, if_neg hpeek]
  simp only [hret]
  rw [dif_neg hcode.1, if_pos hcode.2]

lemma parseexecLoop_sound {s : List UInt8} {ret ret' : Cmd} {argv argv' : List (Nat × Nat)}
    {ps p : Nat} (h : parseexecLoop s ret argv ps = some (ret', argv', p))
    (hargv : argv.length < maxargs) :
    ∃ ws rs, Words (tokens s ps) ws rs (tokens s p) ∧ ret' = wrap ret rs ∧ argv' = argv ++ ws ∧
      argv'.length < maxargs := by
  induction hn : (tokens s ps).length using Nat.strong_induction_on generalizing ret argv ps with
  | _ n ih =>
    cases hts : tokens s ps with
    | nil =>
      obtain ⟨p₁, hp₁, hend⟩ := parseexecLoop_end hts ret argv
      rw [hp₁, Option.some.injEq, Prod.mk.injEq, Prod.mk.injEq] at h
      obtain ⟨rfl, rfl, rfl⟩ := h
      exact ⟨[], [], hend ▸ .nil _, rfl, by simp, hargv⟩
    | cons t r =>
      by_cases hend : endsExec t
      · rw [parseexecLoop_stop hts hend, Option.some.injEq, Prod.mk.injEq, Prod.mk.injEq] at h
        obtain ⟨rfl, rfl, rfl⟩ := h
        exact ⟨[], [], by rw [tokens_skipWs, hts]; exact .nil _, rfl, by simp, hargv⟩
      · rcases t with ⟨q, e⟩ | _ | _ | _ | _ | _ | _ | _ | _
        case word =>
          by_cases hlen : (argv ++ [(q, e)]).length < maxargs
          · obtain ⟨p₁, hp₁, heq⟩ := parseexecLoop_word hts ret hlen
            rw [heq, Option.bind_eq_some_iff] at h
            obtain ⟨⟨ret₁, p₂⟩, hr, hloop⟩ := h
            obtain ⟨rs₁, hrs₁, rfl⟩ := parseredirs_sound hr
            have hlt : (tokens s p₂).length < n := by
              have := hrs₁.length_le
              rw [hp₁] at this
              rw [← hn, hts, List.length_cons]
              omega
            obtain ⟨ws, rs, hws, rfl, rfl, hmax⟩ := ih _ hlt hloop hlen rfl
            exact ⟨(q, e) :: ws, rs₁ ++ rs, .cons (hp₁ ▸ hrs₁) hws, (wrap_append ..).symm,
              by simp, hmax⟩
          · rw [parseexecLoop_too_many hts ret (by omega)] at h
            cases h
        all_goals
          rw [parseexecLoop_bad_token hts (by simpa using hend) (by simp) ret argv] at h
          cases h

lemma Words.head {ts r : List Tok} {ws : List (Nat × Nat)} {rs : List Redir} (h : Words ts ws rs r)
    (hr : Follows .exec r) : ∀ t ∈ ts.head?, (∃ q e, t = .word q e) ∨ endsExec t := by
  cases h with
  | nil => exact fun t ht => Or.inr (by simpa [endsExec, or_comm, or_left_comm] using hr t ht)
  | cons => simp

lemma redirMode_of_head {t : Tok} (h : (∃ q e, t = .word q e) ∨ endsExec t) : redirMode t = none := by
  rcases h with ⟨q, e, rfl⟩ | h
  · rfl
  · cases t <;> simp_all [endsExec, redirMode]

lemma parseexecLoop_complete {s : List UInt8} {ts r : List Tok} {ws : List (Nat × Nat)}
    {rs : List Redir} (h : Words ts ws rs r) (hr : Follows .exec r) (ret : Cmd)
    {argv : List (Nat × Nat)} (hlen : (argv ++ ws).length < maxargs) {ps : Nat}
    (hts : tokens s ps = ts) :
    ∃ p, parseexecLoop s ret argv ps = some (wrap ret rs, argv ++ ws, p) ∧ tokens s p = r := by
  induction h generalizing ret argv ps with
  | nil ts =>
    subst hts
    cases hts : tokens s ps with
    | nil =>
      obtain ⟨p, hp, hend⟩ := parseexecLoop_end hts ret argv
      exact ⟨p, by simpa using hp, hend⟩
    | cons t r =>
      have hend : endsExec t := by
        rw [hts] at hr
        simpa [endsExec, or_comm, or_left_comm] using hr t rfl
      exact ⟨_, by simpa using parseexecLoop_stop hts hend ret argv, by rw [tokens_skipWs, hts]⟩
  | @cons q e r₁ r₂ r rs₁ rs ws hrs hws ih =>
    have hlen₁ : (argv ++ [(q, e)]).length < maxargs := by
      simp only [List.length_append, List.length_cons, List.length_nil] at hlen ⊢
      omega
    obtain ⟨p₁, hp₁, heq⟩ := parseexecLoop_word hts ret hlen₁
    obtain ⟨p₂, hred, hp₂⟩ := parseredirs_complete hrs
      (fun t ht => redirMode_of_head (hws.head hr t ht)) ret hp₁
    obtain ⟨p, hloop, hp⟩ := ih hr (wrap ret rs₁)
      (by simpa using hlen : (argv ++ [(q, e)] ++ ws).length < maxargs) hp₂
    refine ⟨p, ?_, hp⟩
    rw [heq, hred, Option.bind_some, hloop, wrap_append]
    simp

lemma Tok.eq_of_lead_single {t t' : Tok} (ht : t ∈ [.bar, .lparen, .rparen, .semi, .amp])
    (h : t'.lead = t.lead) : t' = t := by
  simp only [List.mem_cons, List.not_mem_nil, or_false] at ht
  rcases ht with rfl | rfl | rfl | rfl | rfl <;> cases t' <;>
    first | rfl | (simp only [Tok.lead] at h; exact absurd h (by decide +kernel))

lemma peek_single_iff {s : List UInt8} {ps : Nat} {t : Tok}
    (ht : t ∈ [.bar, .lparen, .rparen, .semi, .amp]) :
    (peek s ps [t.lead]).1 = true ↔ ∃ r, tokens s ps = t :: r := by
  have hsym : ∀ c ∈ [t.lead], c ∈ symbols := by
    simp only [List.mem_cons, List.not_mem_nil, or_false] at ht
    rcases ht with rfl | rfl | rfl | rfl | rfl <;> decide +kernel
  rw [peek_iff hsym]
  constructor
  · rintro ⟨t', r, ht', hlead⟩
    refine ⟨r, ?_⟩
    rw [ht', Tok.eq_of_lead_single ht (List.mem_singleton.mp hlead)]
  · rintro ⟨r, hr⟩
    exact ⟨t, r, hr, List.mem_singleton_self _⟩

def Sound (A : Nonterminal) (parse : List UInt8 → (ps : Nat) → Option {r : Cmd × Nat // ps ≤ r.2})
    (s : List UInt8) (ps : Nat) : Prop :=
  ∀ r, parse s ps = some r → Derives A (tokens s ps) r.1.1 (tokens s r.1.2)

lemma sound_parseblock {s : List UInt8} {ps : Nat}
    (ih : ∀ k, s.length - k < s.length - ps → Sound .line parseline s k) :
    Sound .exec parseblock s ps := by
  intro r h
  unfold parseblock at h
  split at h
  · rename_i hpeek
    split at h
    · cases h
    · rename_i cmd p₁ hp₁ hline
      split at h
      · rename_i hpeek'
        split at h
        · cases h
        · rename_i c p hred
          cases h
          obtain ⟨r₁, hr₁⟩ := (peek_single_iff (t := .lparen) (by decide)).mp hpeek
          obtain ⟨-, -, hk₁, -⟩ := gettoken_of_head (tokens_peek s ps ['('.toUInt8] ▸ hr₁)
          have hlt : s.length - (gettoken s (peek s ps ['('.toUInt8]).2).ps < s.length - ps := by
            have := peek_advance hpeek
            omega
          have hl := ih _ hlt _ hline
          obtain ⟨r₂, hr₂⟩ := (peek_single_iff (t := .rparen) (by decide)).mp hpeek'
          obtain ⟨-, -, hk₂, -⟩ := gettoken_of_head (tokens_peek s p₁ [')'.toUInt8] ▸ hr₂)
          obtain ⟨rs, hrs, rfl⟩ := parseredirs_sound hred
          rw [hk₁, hr₂] at hl
          rw [hr₁]
          exact .block hl (hk₂ ▸ hrs)
      · cases h
  · cases h

lemma setArgv_wrap (argv : List (Nat × Nat)) :
    ∀ (rs : List Redir) (cmd : Cmd), setArgv (wrap cmd rs) argv = wrap (setArgv cmd argv) rs
  | [], _ => rfl
  | x :: rs, cmd => by rw [wrap_cons, setArgv_wrap argv rs, wrap_cons, setArgv]

lemma sound_parseexec {s : List UInt8} {ps : Nat} (hb : Sound .exec parseblock s (skipWs s ps)) :
    Sound .exec parseexec s ps := by
  intro r h
  unfold parseexec at h
  split at h
  · obtain ⟨r', hr', rfl⟩ := Option.map_eq_some_iff.mp h
    have := hb r' hr'
    rwa [tokens_skipWs] at this
  · split at h
    · cases h
    · rename_i ret p hred
      split at h
      · cases h
      · rename_i ret' argv p' hloop
        cases h
        obtain ⟨rs₀, hrs₀, rfl⟩ := parseredirs_sound hred
        obtain ⟨ws, rs, hws, rfl, hargv, hmax⟩ := parseexecLoop_sound hloop (by decide)
        rw [List.nil_append] at hargv
        subst hargv
        show Derives .exec (tokens s ps) (setArgv (wrap (wrap (.exec []) rs₀) rs) argv) (tokens s p')
        rw [setArgv_wrap, setArgv_wrap, setArgv, ← wrap_append]
        rw [tokens_peek] at hrs₀
        exact .exec hrs₀ hws hmax

lemma sound_parsepipe {s : List UInt8} {ps : Nat} (he : Sound .exec parseexec s ps)
    (ih : ∀ k, s.length - k < s.length - ps → Sound .pipe parsepipe s k) :
    Sound .pipe parsepipe s ps := by
  intro r h
  unfold parsepipe at h
  split at h
  · cases h
  · rename_i cmd p hp hexec
    have hd := he _ hexec
    split at h
    · rename_i hpeek
      split at h
      · cases h
      · rename_i rhs p' hp' hpipe
        cases h
        obtain ⟨r₁, hr₁⟩ := (peek_single_iff (t := .bar) (by decide)).mp hpeek
        obtain ⟨-, -, hk, -⟩ := gettoken_of_head (tokens_peek s p ['|'.toUInt8] ▸ hr₁)
        have hlt : s.length - (gettoken s (peek s p ['|'.toUInt8]).2).ps < s.length - ps := by
          have := peek_advance hpeek
          simp only at hp
          omega
        have hd' := ih _ hlt _ hpipe
        rw [hk] at hd'
        rw [hr₁] at hd
        exact .pipeBar hd hd'
    · cases h
      exact .pipe (by rwa [tokens_peek])

lemma sound_parseline {s : List UInt8} {ps : Nat} (hpipe : Sound .pipe parsepipe s ps)
    (ih : ∀ k, s.length - k < s.length - ps → Sound .line parseline s k) :
    Sound .line parseline s ps := by
  intro r h
  unfold parseline at h
  split at h
  · cases h
  · rename_i cmd p hp hp'
    have hd := hpipe _ hp'
    obtain ⟨k, hk, hcmd, -⟩ := parseBacks_spec s cmd p
    rw [hk] at hd
    split at h
    · rename_i hpeek
      split at h
      · cases h
      · rename_i rhs p' hp'' hline
        cases h
        obtain ⟨r₁, hr₁⟩ := (peek_single_iff (t := .semi) (by decide)).mp hpeek
        obtain ⟨-, -, hk₁, -⟩ :=
          gettoken_of_head (tokens_peek s (parseBacks s cmd p).2 [';'.toUInt8] ▸ hr₁)
        have hlt : s.length - (gettoken s (peek s (parseBacks s cmd p).2 [';'.toUInt8]).2).ps <
            s.length - ps := by
          have := peek_advance hpeek
          have := le_parseBacks s cmd p
          simp only at hp
          omega
        have hd' := ih _ hlt _ hline
        rw [hk₁] at hd'
        rw [hr₁] at hd
        show Derives .line (tokens s ps) (.list (parseBacks s cmd p).1 rhs) (tokens s p')
        rw [hcmd]
        exact .list hd hd'
    · cases h
      show Derives .line (tokens s ps) (parseBacks s cmd p).1
        (tokens s (peek s (parseBacks s cmd p).2 [';'.toUInt8]).2)
      rw [hcmd, tokens_peek]
      exact .line hd

theorem parsers_sound (s : List UInt8) (ps : Nat) :
    Sound .line parseline s ps ∧ Sound .pipe parsepipe s ps ∧ Sound .exec parseexec s ps := by
  induction hn : s.length - ps using Nat.strong_induction_on generalizing ps with
  | _ n ih =>
    have ihk : ∀ k, s.length - k < s.length - ps → Sound .line parseline s k ∧
        Sound .pipe parsepipe s k ∧ Sound .exec parseexec s k :=
      fun k hk => ih _ (hn ▸ hk) k rfl
    have hblock : Sound .exec parseblock s (skipWs s ps) := sound_parseblock fun k hk =>
      (ihk k (by have := le_skipWs s ps; omega)).1
    have hexec := sound_parseexec hblock
    have hpipe := sound_parsepipe hexec fun k hk => (ihk k hk).2.1
    exact ⟨sound_parseline hpipe fun k hk => (ihk k hk).1, hpipe, hexec⟩

lemma skipWs_le_length {s : List UInt8} {p : Nat} (hp : p ≤ s.length) : skipWs s p ≤ s.length := by
  fun_induction skipWs s p with
  | case1 p h ih => exact ih h.1
  | case2 => exact hp

lemma skipWord_le_length {s : List UInt8} {p : Nat} (hp : p ≤ s.length) :
    skipWord s p ≤ s.length := by
  fun_induction skipWord s p with
  | case1 p h ih => exact ih h.1
  | case2 => exact hp

lemma scanToken_le_length {s : List UInt8} {p : Nat} (hp : p ≤ s.length) :
    (scanToken s p).2 ≤ s.length := by
  dsimp only [scanToken]
  split_ifs with h0 hsym hgt hgt2
  · exact hp
  · exact lt_of_byteAt_ne_zero h0
  · exact lt_of_byteAt_ne_zero (by rw [hgt2]; decide)
  · exact lt_of_byteAt_ne_zero h0
  · exact skipWord_le_length hp

lemma gettoken_ps_le_length {s : List UInt8} {ps : Nat} (hps : ps ≤ s.length) :
    (gettoken s ps).ps ≤ s.length :=
  skipWs_le_length (scanToken_le_length (skipWs_le_length hps))

lemma parseredirs_le_length {s : List UInt8} {cmd cmd' : Cmd} {ps p : Nat} (hps : ps ≤ s.length)
    (h : parseredirs s cmd ps = some (cmd', p)) : p ≤ s.length := by
  fun_induction parseredirs s cmd ps generalizing cmd' p with
  | case1 => simp at h
  | case2 cmd ps hpeek tok file =>
    rename_i ih
    exact ih (gettoken_ps_le_length (gettoken_ps_le_length (skipWs_le_length hps))) h
  | case3 cmd ps _ =>
    obtain ⟨-, rfl⟩ := Prod.mk.inj (Option.some.inj h)
    exact skipWs_le_length hps

lemma parseBacks_le_length {s : List UInt8} (cmd : Cmd) {ps : Nat} (hps : ps ≤ s.length) :
    (parseBacks s cmd ps).2 ≤ s.length := by
  fun_induction parseBacks s cmd ps with
  | case1 cmd ps _ ih => exact ih (gettoken_ps_le_length (skipWs_le_length hps))
  | case2 => exact skipWs_le_length hps

lemma parseexecLoop_le_length {s : List UInt8} {ret ret' : Cmd} {argv argv' : List (Nat × Nat)}
    {ps p : Nat} (hps : ps ≤ s.length) (h : parseexecLoop s ret argv ps = some (ret', argv', p)) :
    p ≤ s.length := by
  fun_induction parseexecLoop s ret argv ps generalizing ret' argv' p with
  | case1 ret argv ps _ =>
    simp only [Option.some.injEq, Prod.mk.injEq] at h
    obtain ⟨-, -, rfl⟩ := h
    exact skipWs_le_length hps
  | case2 ret argv ps _ tok =>
    simp only [Option.some.injEq, Prod.mk.injEq] at h
    obtain ⟨-, -, rfl⟩ := h
    exact gettoken_ps_le_length (skipWs_le_length hps)
  | case3 => simp at h
  | case4 => simp at h
  | case5 => simp at h
  | case6 ret argv ps _ tok h0 _ _ ret₁ p₁ hr =>
    rename_i ih
    exact ih (parseredirs_le_length (gettoken_ps_le_length (skipWs_le_length hps)) hr) h

lemma replicate_amp_cancel {r r' : List Tok} (hr : ∀ t ∈ r.head?, t ≠ .amp)
    (hr' : ∀ t ∈ r'.head?, t ≠ .amp) :
    ∀ {k k' : Nat}, List.replicate k Tok.amp ++ r = List.replicate k' Tok.amp ++ r' → k = k' ∧ r = r'
  | 0, 0, h => ⟨rfl, h⟩
  | k + 1, 0, h => by
    have hhead := congrArg List.head? h
    simp only [List.replicate_succ, List.cons_append, List.head?_cons, List.replicate_zero,
      List.nil_append] at hhead
    exact absurd rfl (hr' .amp hhead.symm)
  | 0, k' + 1, h => by
    have hhead := congrArg List.head? h
    simp only [List.replicate_succ, List.cons_append, List.head?_cons, List.replicate_zero,
      List.nil_append] at hhead
    exact absurd rfl (hr .amp hhead)
  | k + 1, k' + 1, h => by
    simp only [List.replicate_succ, List.cons_append, List.cons.injEq, true_and] at h
    obtain ⟨rfl, rfl⟩ := replicate_amp_cancel hr hr' h
    exact ⟨rfl, rfl⟩

lemma parseBacks_of_amps {s : List UInt8} (cmd : Cmd) {p k : Nat} {r : List Tok}
    (h : tokens s p = List.replicate k .amp ++ r) (hr : ∀ t ∈ r.head?, t ≠ .amp) :
    (parseBacks s cmd p).1 = backs cmd k ∧ tokens s (parseBacks s cmd p).2 = r := by
  obtain ⟨k', hk', hcmd, hstop⟩ := parseBacks_spec s cmd p
  obtain ⟨rfl, hr'⟩ := replicate_amp_cancel hr hstop (h.symm.trans hk')
  exact ⟨hcmd, hr'.symm⟩

def parserOf : Nonterminal → (s : List UInt8) → (ps : Nat) → Option {r : Cmd × Nat // ps ≤ r.2}
  | .line => parseline
  | .pipe => parsepipe
  | .exec => parseexec

def Returns (parse : List UInt8 → (ps : Nat) → Option {r : Cmd × Nat // ps ≤ r.2})
    (s : List UInt8) (ps : Nat) (c : Cmd) (r : List Tok) : Prop :=
  ∃ x, parse s ps = some x ∧ x.1.1 = c ∧ tokens s x.1.2 = r ∧ x.1.2 ≤ s.length

lemma peek_single_false {s : List UInt8} {ps : Nat} {t : Tok}
    (ht : t ∈ [.bar, .lparen, .rparen, .semi, .amp]) (h : ∀ t' ∈ (tokens s ps).head?, t' ≠ t) :
    ¬(peek s ps [t.lead]).1 = true := by
  rw [peek_single_iff ht]
  rintro ⟨r, hr⟩
  exact h t (by simp [hr]) rfl

lemma follows_pipe_of_line {r : List Tok} (h : Follows .line r) : Follows .pipe r :=
  fun t ht => by simp [h t ht]

lemma follows_exec_of_pipe {r : List Tok} (h : Follows .pipe r) : Follows .exec r :=
  fun t ht => List.mem_cons_of_mem _ (h t ht)

lemma follows_amps {k : Nat} {r : List Tok} (h : Follows .pipe r) :
    Follows .pipe (List.replicate k .amp ++ r) := by
  cases k with
  | zero => simpa using h
  | succ k =>
    intro t ht
    simp only [List.replicate_succ, List.cons_append, List.head?_cons, Option.mem_def,
      Option.some.injEq] at ht
    simp [← ht]

lemma returns_line {s : List UInt8} {ps : Nat} {c : Cmd} {k : Nat} {r : List Tok}
    (hpipe : Returns parsepipe s ps c (List.replicate k .amp ++ r)) (hr : Follows .line r) :
    Returns parseline s ps (backs c k) r := by
  obtain ⟨⟨⟨cmd, p⟩, hp⟩, hx, rfl, hk, hle⟩ := hpipe
  dsimp only at hk hle ⊢
  have hna : ∀ t ∈ r.head?, t ≠ .amp := fun t ht he => by simpa [he] using hr t ht
  obtain ⟨hcmd, hrest⟩ := parseBacks_of_amps cmd hk hna
  have hpeek := peek_single_false (t := .semi) (by decide) (by
    rw [hrest]
    exact fun t ht he => by simpa [he] using hr t ht)
  refine ⟨?x, ?eq, ?c, ?rest, ?le⟩
  case eq =>
    rw [parseline, hx]
    exact dif_neg hpeek
  case c => exact hcmd
  case rest => rw [tokens_peek, hrest]
  case le => exact skipWs_le_length (parseBacks_le_length cmd hle)

lemma returns_list {s : List UInt8} {ps : Nat} {c c' : Cmd} {k : Nat} {r₁ r : List Tok}
    (hpipe : Returns parsepipe s ps c (List.replicate k .amp ++ .semi :: r₁))
    (hline : ∀ ps', ps' ≤ s.length → tokens s ps' = r₁ → Returns parseline s ps' c' r) :
    Returns parseline s ps (.list (backs c k) c') r := by
  obtain ⟨⟨⟨cmd, p⟩, hp⟩, hx, rfl, hk, hle⟩ := hpipe
  dsimp only at hk hle ⊢
  obtain ⟨hcmd, hrest⟩ := parseBacks_of_amps cmd hk (by simp)
  have hpeek : (peek s (parseBacks s cmd p).2 [Tok.semi.lead]).1 = true :=
    (peek_single_iff (by decide)).mpr ⟨r₁, hrest⟩
  obtain ⟨-, -, hk₁, -⟩ := gettoken_of_head (tokens_peek s (parseBacks s cmd p).2 [Tok.semi.lead] ▸ hrest)
  have hle₁ : (gettoken s (peek s (parseBacks s cmd p).2 [Tok.semi.lead]).2).ps ≤ s.length :=
    gettoken_ps_le_length (skipWs_le_length (parseBacks_le_length cmd hle))
  obtain ⟨⟨⟨rhs, p'⟩, hp'⟩, hy, rfl, hr, hle'⟩ := hline _ hle₁ hk₁
  simp only [Tok.lead] at hpeek hy
  refine ⟨?x, ?eq, ?c, ?rest, ?le⟩
  case eq =>
    rw [parseline, hx]
    dsimp only
    rw [dif_pos hpeek, hy]
  case c =>
    dsimp only
    rw [hcmd]
  case rest => exact hr
  case le => exact hle'

lemma returns_pipe {s : List UInt8} {ps : Nat} {c : Cmd} {r : List Tok}
    (hexec : Returns parseexec s ps c r) (hr : Follows .pipe r) : Returns parsepipe s ps c r := by
  obtain ⟨⟨⟨cmd, p⟩, hp⟩, hx, rfl, hrest, hle⟩ := hexec
  dsimp only at hrest hle ⊢
  have hpeek : ¬(peek s p [Tok.bar.lead]).1 = true := peek_single_false (by decide) (by
    rw [hrest]
    exact fun t ht he => by simpa [he] using hr t ht)
  refine ⟨?x, ?eq, ?c, ?rest, ?le⟩
  case eq =>
    rw [parsepipe, hx]
    exact dif_neg hpeek
  case c => rfl
  case rest => rw [tokens_peek, hrest]
  case le => exact skipWs_le_length hle

lemma returns_pipeBar {s : List UInt8} {ps : Nat} {c c' : Cmd} {r₁ r : List Tok}
    (hexec : Returns parseexec s ps c (.bar :: r₁))
    (hpipe : ∀ ps', ps' ≤ s.length → tokens s ps' = r₁ → Returns parsepipe s ps' c' r) :
    Returns parsepipe s ps (.pipe c c') r := by
  obtain ⟨⟨⟨cmd, p⟩, hp⟩, hx, rfl, hrest, hle⟩ := hexec
  dsimp only at hrest hle ⊢
  have hpeek : (peek s p [Tok.bar.lead]).1 = true := (peek_single_iff (by decide)).mpr ⟨r₁, hrest⟩
  obtain ⟨-, -, hk₁, -⟩ := gettoken_of_head (tokens_peek s p [Tok.bar.lead] ▸ hrest)
  have hle₁ : (gettoken s (peek s p [Tok.bar.lead]).2).ps ≤ s.length :=
    gettoken_ps_le_length (skipWs_le_length hle)
  obtain ⟨⟨⟨rhs, p'⟩, hp'⟩, hy, rfl, hr, hle'⟩ := hpipe _ hle₁ hk₁
  simp only [Tok.lead] at hpeek hy
  refine ⟨?x, ?eq, ?c, ?rest, ?le⟩
  case eq =>
    rw [parsepipe, hx]
    dsimp only
    rw [dif_pos hpeek, hy]
  case c => rfl
  case rest => exact hr
  case le => exact hle'

lemma endsExec_of_follows {r : List Tok} (hr : Follows .exec r) : ∀ t ∈ r.head?, endsExec t :=
  fun t ht => by simpa [endsExec, or_comm, or_left_comm] using hr t ht

lemma returns_parseblock {s : List UInt8} {ps : Nat} {c : Cmd} {r₁ r₂ r : List Tok}
    {rs : List Redir} (hps : ps ≤ s.length) (hts : tokens s ps = .lparen :: r₁)
    (hline : ∀ ps', ps' ≤ s.length → tokens s ps' = r₁ → Returns parseline s ps' c (.rparen :: r₂))
    (hrs : Redirs r₂ rs r) (hr : Follows .exec r) : Returns parseblock s ps (wrap c rs) r := by
  have hpeek : (peek s ps [Tok.lparen.lead]).1 = true := (peek_single_iff (by decide)).mpr ⟨r₁, hts⟩
  obtain ⟨-, -, hk₁, -⟩ := gettoken_of_head (tokens_peek s ps [Tok.lparen.lead] ▸ hts)
  have hle₁ : (gettoken s (peek s ps [Tok.lparen.lead]).2).ps ≤ s.length :=
    gettoken_ps_le_length (skipWs_le_length hps)
  obtain ⟨⟨⟨cmd, p⟩, hp⟩, hy, rfl, hk, hle⟩ := hline _ hle₁ hk₁
  dsimp only at hk hle ⊢
  have hpeek' : (peek s p [Tok.rparen.lead]).1 = true := (peek_single_iff (by decide)).mpr ⟨r₂, hk⟩
  obtain ⟨-, -, hk₂, -⟩ := gettoken_of_head (tokens_peek s p [Tok.rparen.lead] ▸ hk)
  obtain ⟨p', hred, hp'⟩ := parseredirs_complete hrs
    (fun t ht => redirMode_of_head (Or.inr (endsExec_of_follows hr t ht))) cmd hk₂
  have hle' := parseredirs_le_length (gettoken_ps_le_length (skipWs_le_length hle)) hred
  have hps' : ps ≤ p' := by
    have h₁ := (peek_advance hpeek).1
    have h₂ := le_gettoken_ps s (peek s p [Tok.rparen.lead]).2
    have h₃ := le_skipWs s p
    have h₄ := le_parseredirs hred
    simp only [peek] at h₁ h₂ h₄ hp
    omega
  simp only [Tok.lead] at hpeek hpeek' hy hred
  refine ⟨⟨(wrap cmd rs, p'), hps'⟩, ?_, rfl, hp', hle'⟩
  rw [parseblock, dif_pos hpeek, hy]
  dsimp only
  rw [if_pos hpeek']
  split
  · rename_i hnone
    rw [hred] at hnone
    cases hnone
  · rename_i cmd' p'' hsome
    rw [hred, Option.some.injEq, Prod.mk.injEq] at hsome
    obtain ⟨rfl, rfl⟩ := hsome
    rfl

lemma returns_parseexec_block {s : List UInt8} {ps : Nat} {c : Cmd} {r₁ r : List Tok}
    (hts : tokens s ps = .lparen :: r₁) (hb : Returns parseblock s (skipWs s ps) c r) :
    Returns parseexec s ps c r := by
  have hpeek : (peek s ps [Tok.lparen.lead]).1 = true := (peek_single_iff (by decide)).mpr ⟨r₁, hts⟩
  obtain ⟨⟨⟨cmd, p⟩, hp⟩, hy, rfl, hk, hle⟩ := hb
  simp only [Tok.lead] at hpeek
  refine ⟨?x, ?eq, ?c, ?rest, ?le⟩
  case eq =>
    rw [parseexec, dif_pos hpeek]
    exact congrArg (Option.map _) hy
  case c => rfl
  case rest => exact hk
  case le => exact hle

lemma exec_head {ts r₁ r : List Tok} {rs₀ rs : List Redir} {argv : List (Nat × Nat)}
    (hrs : Redirs ts rs₀ r₁) (hws : Words r₁ argv rs r) (hr : Follows .exec r) :
    ∀ t ∈ ts.head?, t ≠ .lparen := by
  cases hrs with
  | nil =>
    rintro t ht rfl
    rcases hws.head hr _ ht with ⟨q, e, h⟩ | h
    · cases h
    · exact absurd h (by decide)
  | cons hmode _ =>
    rintro t ht rfl
    rw [List.head?_cons, Option.mem_some_iff] at ht
    subst ht
    cases hmode

lemma returns_exec {s : List UInt8} {ps : Nat} {ts r₁ r : List Tok} {rs₀ rs : List Redir}
    {argv : List (Nat × Nat)} (hps : ps ≤ s.length) (hts : tokens s ps = ts)
    (hrs : Redirs ts rs₀ r₁) (hws : Words r₁ argv rs r) (hlen : argv.length < maxargs)
    (hr : Follows .exec r) : Returns parseexec s ps (wrap (.exec argv) (rs₀ ++ rs)) r := by
  have hpeek : ¬(peek s ps [Tok.lparen.lead]).1 = true :=
    peek_single_false (by decide) (hts ▸ exec_head hrs hws hr)
  obtain ⟨p₁, hred, hp₁⟩ := parseredirs_complete hrs
    (fun t ht => redirMode_of_head (hws.head hr t ht)) (.exec [])
    (by rw [tokens_peek, hts] : tokens s (peek s ps [Tok.lparen.lead]).2 = ts)
  obtain ⟨p, hloop, hp⟩ := parseexecLoop_complete hws hr (wrap (.exec []) rs₀)
    (by simpa using hlen : ([] ++ argv).length < maxargs) hp₁
  have hle := parseexecLoop_le_length (parseredirs_le_length (skipWs_le_length hps) hred) hloop
  have hps' : ps ≤ p :=
    (le_skipWs s ps).trans ((le_parseredirs hred).trans (le_parseexecLoop hloop))
  have hset : setArgv (wrap (wrap (.exec []) rs₀) rs) ([] ++ argv) = wrap (.exec argv) (rs₀ ++ rs) := by
    rw [← wrap_append, setArgv_wrap, List.nil_append, setArgv]
  simp only [Tok.lead] at hpeek hred
  refine ⟨⟨(wrap (.exec argv) (rs₀ ++ rs), p), hps'⟩, ?_, rfl, hp, hle⟩
  rw [parseexec, dif_neg hpeek]
  split
  · rename_i hnone
    rw [hred] at hnone
    cases hnone
  · rename_i ret p₂ hsome
    rw [hred, Option.some.injEq, Prod.mk.injEq] at hsome
    obtain ⟨rfl, rfl⟩ := hsome
    split
    · rename_i hnone
      rw [hloop] at hnone
      cases hnone
    · rename_i ret' argv' p₃ hsome'
      rw [hloop, Option.some.injEq, Prod.mk.injEq, Prod.mk.injEq] at hsome'
      obtain ⟨rfl, rfl, rfl⟩ := hsome'
      exact congrArg some (Subtype.ext (Prod.ext hset rfl))

theorem parsers_complete {A : Nonterminal} {ts r : List Tok} {c : Cmd} (h : Derives A ts c r)
    (hr : Follows A r) {s : List UInt8} {ps : Nat} (hps : ps ≤ s.length) (hts : tokens s ps = ts) :
    Returns (parserOf A) s ps c r := by
  induction h generalizing ps with
  | line _ ih => exact returns_line (ih (follows_amps (follows_pipe_of_line hr)) hps hts) hr
  | list _ _ ihp ihl =>
    exact returns_list (ihp (follows_amps (by simp [Follows])) hps hts) fun ps' hle h =>
      ihl hr hle h
  | pipe _ ih => exact returns_pipe (ih (follows_exec_of_pipe hr) hps hts) hr
  | pipeBar _ _ ihe ihp =>
    exact returns_pipeBar (ihe (by simp [Follows]) hps hts) fun ps' hle h => ihp hr hle h
  | @block r₁ r₂ r c rs _ hrs ih =>
    have hts' : tokens s (skipWs s ps) = .lparen :: r₁ := by rw [tokens_skipWs, hts]
    exact returns_parseexec_block hts (returns_parseblock (skipWs_le_length hps) hts'
      (fun ps' hle h => ih (by simp [Follows]) hle h) hrs hr)
  | exec hrs hws hlen => exact returns_exec hps hts hrs hws hlen hr

def InWord (s : List UInt8) (i : Nat) : Prop :=
  i < s.length ∧ (strchr whitespace (byteAt s i)).isNone ∧ (strchr symbols (byteAt s i)).isNone

lemma skipWord_stop (s : List UInt8) (p : Nat) : ¬InWord s (skipWord s p) := by
  fun_induction skipWord s p with
  | case1 => assumption
  | case2 p h => exact h

lemma inWord_of_lt_skipWord {s : List UInt8} {p i : Nat} (hp : p ≤ i) (hi : i < skipWord s p) :
    InWord s i := by
  fun_induction skipWord s p with
  | case1 p h ih =>
    rcases Nat.lt_or_ge i (p + 1) with h' | h'
    · obtain rfl : i = p := by omega
      exact h
    · exact ih h' hi
  | case2 => omega

lemma scanToken_word {s : List UInt8} {p : Nat} (hb : byteAt s p ≠ 0) (hsym : byteAt s p ∉ symbols) :
    (scanToken s p).2 = skipWord s p := by
  have hsix : byteAt s p ∉ ['|', '(', ')', ';', '&', '<'].map Char.toUInt8 := fun h =>
    hsym (by simp only [symbols, List.map_cons, List.map_nil, List.mem_cons] at h ⊢; tauto)
  have hgt : byteAt s p ≠ '>'.toUInt8 := fun h => hsym (h ▸ by decide)
  simp only [scanToken, if_neg hb, if_neg hsix, if_neg hgt]

lemma gettoken_word {s : List UInt8} {ps q e : Nat} (h0 : (gettoken s ps).ret ≠ 0)
    (h : (gettoken s ps).tok = .word q e) : (∀ i, q ≤ i → i < e → InWord s i) ∧ ¬InWord s e := by
  have hb : byteAt s (skipWs s ps) ≠ 0 := fun hb => h0 (scanToken_ret_eq_zero.mpr hb)
  obtain ⟨-, hlead, hword⟩ := gettoken_cases hb
  have hsym : byteAt s (skipWs s ps) ∉ symbols := fun hsym => by
    have := hlead hsym
    rw [h, Tok.lead] at this
    exact absurd (this ▸ hsym) (by decide)
  rw [hword hsym, Tok.word.injEq] at h
  obtain ⟨rfl, rfl⟩ := h
  have he : (gettoken s ps).eq = skipWord s (gettoken s ps).q := scanToken_word hb hsym
  rw [he]
  exact ⟨fun i hq hi => inWord_of_lt_skipWord hq hi, skipWord_stop s _⟩

lemma word_of_mem_tokens {s : List UInt8} {ps q e : Nat} (h : Tok.word q e ∈ tokens s ps) :
    (∀ i, q ≤ i → i < e → InWord s i) ∧ ¬InWord s e := by
  fun_induction tokens s ps with
  | case1 => cases h
  | case2 ps h0 ih =>
    rcases List.mem_cons.mp h with h | h
    · exact gettoken_word h0 h.symm
    · exact ih h

def strings : Cmd → List (Nat × Nat)
  | .exec argv => argv
  | .redir cmd file efile _ _ => strings cmd ++ [(file, efile)]
  | .pipe left right => strings left ++ strings right
  | .list left right => strings left ++ strings right
  | .back cmd => strings cmd

lemma strings_wrap (rs : List Redir) :
    ∀ cmd, strings (wrap cmd rs) = strings cmd ++ rs.map fun x => (x.file, x.efile) := by
  induction rs with
  | nil => simp
  | cons x rs ih =>
    intro cmd
    rw [wrap_cons, ih, strings, List.map_cons, List.append_assoc, List.singleton_append]

lemma strings_backs (cmd : Cmd) : ∀ k, strings (backs cmd k) = strings cmd
  | 0 => rfl
  | k + 1 => strings_backs cmd k

lemma Redirs.suffix {ts r : List Tok} {rs : List Redir} (h : Redirs ts rs r) : r <:+ ts := by
  induction h with
  | nil => exact List.suffix_refl _
  | cons _ _ ih => exact ih.trans ((List.suffix_cons _ _).trans (List.suffix_cons _ _))

lemma Redirs.files {ts r : List Tok} {rs : List Redir} (h : Redirs ts rs r) :
    ∀ x ∈ rs, Tok.word x.file x.efile ∈ ts := by
  induction h with
  | nil => simp
  | cons _ _ ih =>
    intro x hx
    rcases List.mem_cons.mp hx with rfl | hx
    · simp
    · exact List.mem_cons_of_mem _ (List.mem_cons_of_mem _ (ih x hx))

lemma Words.suffix {ts r : List Tok} {argv : List (Nat × Nat)} {rs : List Redir}
    (h : Words ts argv rs r) : r <:+ ts := by
  induction h with
  | nil => exact List.suffix_refl _
  | cons hrs _ ih => exact ih.trans (hrs.suffix.trans (List.suffix_cons _ _))

lemma Words.strings {ts r : List Tok} {argv : List (Nat × Nat)} {rs : List Redir}
    (h : Words ts argv rs r) :
    ∀ w ∈ argv ++ rs.map (fun x => (x.file, x.efile)), Tok.word w.1 w.2 ∈ ts := by
  induction h with
  | nil => simp
  | @cons q e r₁ r₂ r rs₁ rs argv hrs hws ih =>
    have hsub : r₂ ⊆ r₁ := hrs.suffix.subset
    intro w hw
    simp only [List.cons_append, List.map_append, List.mem_cons, List.mem_append,
      List.mem_map] at hw
    rcases hw with rfl | hw | ⟨x, hx, rfl⟩ | ⟨x, hx, rfl⟩
    · exact List.mem_cons_self
    · exact List.mem_cons_of_mem _ (hsub (ih w (List.mem_append_left _ hw)))
    · exact List.mem_cons_of_mem _ (hrs.files x hx)
    · exact List.mem_cons_of_mem _ (hsub (ih _ (List.mem_append_right _ (List.mem_map_of_mem hx))))

lemma Derives.suffix {A : Nonterminal} {ts r : List Tok} {c : Cmd} (h : Derives A ts c r) :
    r <:+ ts := by
  induction h with
  | line _ ih => exact (List.suffix_append _ _).trans ih
  | list _ _ ihp ihl =>
    exact ihl.trans (((List.suffix_cons _ _).trans (List.suffix_append _ _)).trans ihp)
  | pipe _ ih => exact ih
  | pipeBar _ _ ihe ihp => exact ihp.trans ((List.suffix_cons _ _).trans ihe)
  | block _ hrs ih => exact hrs.suffix.trans (((List.suffix_cons _ _).trans ih).trans (List.suffix_cons _ _))
  | exec hrs hws _ => exact hws.suffix.trans hrs.suffix

lemma Derives.strings {A : Nonterminal} {ts r : List Tok} {c : Cmd} (h : Derives A ts c r) :
    ∀ w ∈ Sh.strings c, Tok.word w.1 w.2 ∈ ts := by
  induction h with
  | line _ ih => rwa [strings_backs]
  | list hp _ ihp ihl =>
    have hsub := ((List.suffix_cons _ _).trans ((List.suffix_append _ _).trans hp.suffix)).subset
    intro w hw
    rw [Sh.strings, strings_backs, List.mem_append] at hw
    exact hw.elim (ihp w) fun hw => hsub (ihl w hw)
  | pipe _ ih => exact ih
  | pipeBar he _ ihe ihp =>
    have hsub := ((List.suffix_cons _ _).trans he.suffix).subset
    intro w hw
    rw [Sh.strings, List.mem_append] at hw
    exact hw.elim (ihe w) fun hw => hsub (ihp w hw)
  | block hl hrs ih =>
    have hsub := ((List.suffix_cons _ _).trans hl.suffix).subset
    intro w hw
    rw [strings_wrap, List.mem_append, List.mem_map] at hw
    rcases hw with hw | ⟨x, hx, rfl⟩
    · exact List.mem_cons_of_mem _ (ih w hw)
    · exact List.mem_cons_of_mem _ (hsub (hrs.files x hx))
  | exec hrs hws _ =>
    have hsub := hrs.suffix.subset
    intro w hw
    rw [strings_wrap, Sh.strings, List.map_append, List.mem_append, List.mem_append] at hw
    rcases hw with hw | hw | hw
    · exact hsub (hws.strings w (List.mem_append_left _ hw))
    · obtain ⟨x, hx, rfl⟩ := List.mem_map.mp hw
      exact hrs.files x hx
    · exact hsub (hws.strings w (List.mem_append_right _ hw))

lemma foldl_update_apply (m : Nat → UInt8) (argv : List (Nat × Nat)) (i : Nat) :
    argv.foldl (fun m w => Function.update m w.2 0) m i =
      if i ∈ argv.map Prod.snd then 0 else m i := by
  induction argv generalizing m with
  | nil => simp
  | cons w argv ih =>
    rw [List.foldl_cons, ih, List.map_cons, Function.update_apply]
    by_cases hi : i ∈ argv.map Prod.snd <;> by_cases hw : i = w.2 <;> simp [hi, hw]

lemma nulterminate_apply (m : Nat → UInt8) (c : Cmd) (i : Nat) :
    nulterminate m c i = if i ∈ (strings c).map Prod.snd then 0 else m i := by
  induction c generalizing m with
  | exec argv => exact foldl_update_apply m argv i
  | redir cmd file efile mode fd ih =>
    rw [nulterminate, Function.update_apply, ih, strings, List.map_append]
    by_cases hi : i = efile
    · simp [hi]
    · simp only [List.mem_append, List.map_cons, List.map_nil, List.mem_singleton, hi, or_false,
        if_false]
  | pipe left right ihl ihr =>
    rw [nulterminate, ihr, ihl, strings, List.map_append]
    by_cases hl : i ∈ (strings left).map Prod.snd
    · simp [hl]
    · simp only [List.mem_append, hl, false_or, if_false]
  | list left right ihl ihr =>
    rw [nulterminate, ihr, ihl, strings, List.map_append]
    by_cases hl : i ∈ (strings left).map Prod.snd
    · simp [hl]
    · simp only [List.mem_append, hl, false_or, if_false]
  | back cmd ih => exact ih m

lemma byteAt_ne_zero {s : List UInt8} (hs : (0 : UInt8) ∉ s) {i : Nat} (hi : i < s.length) :
    byteAt s i ≠ 0 := by
  rw [byteAt, List.getD_eq_getElem _ _ hi]
  exact ne_of_mem_of_not_mem (List.getElem_mem hi) hs

lemma nulterminate_word {s : List UInt8} (hs : (0 : UInt8) ∉ s) {c : Cmd} {ps : Nat}
    (hc : ∀ w ∈ strings c, Tok.word w.1 w.2 ∈ tokens s ps) {w : Nat × Nat} (hw : w ∈ strings c) :
    (∀ i, w.1 ≤ i → i < w.2 →
      nulterminate (byteAt s) c i = byteAt s i ∧ nulterminate (byteAt s) c i ≠ 0) ∧
      nulterminate (byteAt s) c w.2 = 0 := by
  refine ⟨fun i hq hi => ?_, ?_⟩
  · have hin := (word_of_mem_tokens (hc w hw)).1 i hq hi
    have hend : i ∉ (strings c).map Prod.snd := fun hm => by
      obtain ⟨w', hw', rfl⟩ := List.mem_map.mp hm
      exact (word_of_mem_tokens (hc w' hw')).2 hin
    rw [nulterminate_apply, if_neg hend]
    exact ⟨rfl, byteAt_ne_zero hs hin.1⟩
  · rw [nulterminate_apply, if_pos (List.mem_map_of_mem hw)]

lemma tokens_eq_nil_of_peek {s : List UInt8} {p : Nat} (h : (peek s p []).2 = s.length) :
    tokens s p = [] := by
  apply tokens_eq_nil
  apply scanToken_ret_eq_zero.mpr
  show byteAt s (skipWs s p) = 0
  rw [show skipWs s p = s.length from h]
  exact List.getD_eq_default _ _ le_rfl

lemma peek_eq_length {s : List UInt8} (hs : (0 : UInt8) ∉ s) {p : Nat} (hp : p ≤ s.length)
    (h : tokens s p = []) : (peek s p []).2 = s.length := by
  have hb : byteAt s (skipWs s p) = 0 := scanToken_ret_eq_zero.mp (gettoken_ret_eq_zero_iff.mpr h)
  have hle := skipWs_le_length hp
  by_contra hne
  exact byteAt_ne_zero hs (lt_of_le_of_ne hle hne) hb

lemma parsecmd_of_derives {s : List UInt8} (hs : (0 : UInt8) ∉ s) {c : Cmd}
    (h : Derives .line (tokens s 0) c []) : parsecmd s = some (c, nulterminate (byteAt s) c) := by
  obtain ⟨⟨⟨cmd, p⟩, hp⟩, hx, rfl, hnil, hle⟩ :=
    parsers_complete h (by simp [Follows]) (Nat.zero_le _) rfl
  dsimp only at hnil hle ⊢
  have hx' : parseline s 0 = some ⟨(cmd, p), hp⟩ := hx
  rw [parsecmd, hx']
  dsimp only
  rw [if_neg (not_not.mpr (peek_eq_length hs hle hnil))]

lemma derives_of_parsecmd {s : List UInt8} {c : Cmd} {m : Nat → UInt8}
    (h : parsecmd s = some (c, m)) : Derives .line (tokens s 0) c [] ∧ m = nulterminate (byteAt s) c := by
  unfold parsecmd at h
  split at h
  · cases h
  · rename_i cmd p hp hx
    split at h
    · cases h
    · rename_i hend
      cases h
      have hd := (parsers_sound s 0).1 _ hx
      rw [tokens_eq_nil_of_peek (not_not.mp hend)] at hd
      exact ⟨hd, rfl⟩

theorem parsecmd_grammar (s : List UInt8) (hs : (0 : UInt8) ∉ s) :
    (∀ c, Derives .line (tokens s 0) c [] ↔ ∃ m, parsecmd s = some (c, m)) ∧
    ∀ c m, parsecmd s = some (c, m) → ∀ w ∈ strings c, Tok.word w.1 w.2 ∈ tokens s 0 ∧
      (∀ i, w.1 ≤ i → i < w.2 → m i = byteAt s i ∧ m i ≠ 0) ∧ m w.2 = 0 := by
  refine ⟨fun c => ⟨fun h => ⟨_, parsecmd_of_derives hs h⟩, fun ⟨m, h⟩ => ?_⟩, ?_⟩
  · exact (derives_of_parsecmd h).1
  · intro c m h w hw
    obtain ⟨hd, rfl⟩ := derives_of_parsecmd h
    exact ⟨hd.strings w hw, nulterminate_word hs hd.strings hw⟩

theorem parsecmd_grammar_ls :
    (0 : UInt8) ∉ ['l', 's'].map Char.toUInt8 ∧
    ((∀ c, Derives .line (tokens (['l', 's'].map Char.toUInt8) 0) c [] ↔
        ∃ m, parsecmd (['l', 's'].map Char.toUInt8) = some (c, m)) ∧
      ∀ c m, parsecmd (['l', 's'].map Char.toUInt8) = some (c, m) → ∀ w ∈ strings c,
        Tok.word w.1 w.2 ∈ tokens (['l', 's'].map Char.toUInt8) 0 ∧
        (∀ i, w.1 ≤ i → i < w.2 → m i = byteAt (['l', 's'].map Char.toUInt8) i ∧ m i ≠ 0) ∧
        m w.2 = 0) :=
  ⟨by decide, parsecmd_grammar _ (by decide)⟩

end Sh

end Xv6.User
