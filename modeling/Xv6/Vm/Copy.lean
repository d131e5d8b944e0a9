import Xv6.Vm.Grow

/-! Filling a user image without growing it: `loaduvm` reads a file into pages mapped already,
`clearpteu` takes `PTE_U` off one page, and `copyout` copies bytes to user addresses through
`uva2ka`.

None of them allocates or frees. `loaduvm` and `copyout` write memory only, and `clearpteu`
keeps every entry present where it was and at the page it was, so that the pages a directory
owns stay what they were; `exec` can then free a half-built image whichever step failed. The
one way `copyout` fails outright is at an address whose directory slot is empty: `uva2ka` then
reads through the null pointer that `walkpgdir` returns. -/

namespace Xv6.Vm

lemma loaduvmLoop_frame {content : List UInt8} {addr offset sz : Nat} :
    ∀ {fuel i : Nat} {s s' : Space} {r : Int},
      loaduvmLoop content addr offset sz s fuel i = some (s', r) → s'.kmem = s.kmem ∧ s'.pd = s.pd
  | 0, _, _, _, _, h => by simp [loaduvmLoop] at h
  | fuel + 1, i, s, s', r, h => by
    unfold loaduvmLoop at h
    by_cases hi : i < sz
    · rw [if_pos hi] at h
      rcases hw : walkpgdir s.kmem s.pd ((addr + i) % 2 ^ 32) false with _ | ⟨k, pd, d, x⟩
      · rw [hw] at h
        cases h
      · rw [hw] at h
        dsimp only at h
        generalize (if sz - i < pgSize then sz - i else pgSize) = n at h
        split_ifs at h
        · obtain ⟨rfl, -⟩ := Prod.mk.inj (Option.some.inj h)
          exact ⟨rfl, rfl⟩
        · obtain ⟨hk, hpd⟩ := loaduvmLoop_frame h
          exact ⟨hk, hpd⟩
    · rw [if_neg hi] at h
      obtain ⟨rfl, -⟩ := Prod.mk.inj (Option.some.inj h)
      exact ⟨rfl, rfl⟩

lemma loaduvm_frame {s s' : Space} {addr offset sz : Nat} {content : List UInt8} {r : Int}
    (h : loaduvm s addr content offset sz = some (s', r)) : s'.kmem = s.kmem ∧ s'.pd = s.pd := by
  unfold loaduvm at h
  split_ifs at h
  exact loaduvmLoop_frame h

lemma copyoutLoop_frame : ∀ {fuel va : Nat} {buf : List UInt8} {s s' : Space} {r : Int},
    copyoutLoop s fuel va buf = some (s', r) → s'.kmem = s.kmem ∧ s'.pd = s.pd
  | _, _, [], s, s', r, h => by
    rw [copyoutLoop] at h
    obtain ⟨rfl, -⟩ := Prod.mk.inj (Option.some.inj h)
    exact ⟨rfl, rfl⟩
  | 0, _, _ :: _, _, _, _, h => by cases h
  | fuel + 1, va, b :: buf, s, s', r, h => by
    rw [copyoutLoop] at h
    dsimp only at h
    rcases hu : uva2ka s.kmem s.pd (pgrounddown va) with _ | _ | pa0
    · rw [hu] at h
      cases h
    · rw [hu] at h
      obtain ⟨rfl, -⟩ := Prod.mk.inj (Option.some.inj h)
      exact ⟨rfl, rfl⟩
    · rw [hu] at h
      dsimp only at h
      obtain ⟨hk, hpd⟩ := copyoutLoop_frame h
      exact ⟨hk, hpd⟩

lemma copyout_frame {s s' : Space} {va : Nat} {p : List UInt8} {r : Int}
    (h : copyout s va p = some (s', r)) : s'.kmem = s.kmem ∧ s'.pd = s.pd :=
  copyoutLoop_frame h

lemma clearpteu_present {s : Space} {uva : Nat} (h : present (s.pd.pde (pdx uva)) = true) :
    clearpteu s uva = some { s with
      pd := s.pd.setPte (pdx uva) (ptx uva) (s.pd.pte (pdx uva) (ptx uva) &&& 0xFFFFFFFB) } := by
  simp [clearpteu, walkpgdir_present false h]

lemma clearpteu_eq_some {s s' : Space} {uva : Nat} (h : clearpteu s uva = some s') :
    present (s.pd.pde (pdx uva)) = true ∧
      s' = { s with pd := s.pd.setPte (pdx uva) (ptx uva) (s.pd.pte (pdx uva) (ptx uva) &&& 0xFFFFFFFB) } := by
  cases hp : present (s.pd.pde (pdx uva))
  · simp [clearpteu, walkpgdir_absent hp] at h
  · rw [clearpteu_present hp] at h
    exact ⟨rfl, (Option.some.inj h).symm⟩

lemma userPages_clearUser {pd : Pgdir} {uva : Nat} (huva : uva < 2 ^ 32)
    (h : present (pd.pde (pdx uva)) = true) :
    (pd.setPte (pdx uva) (ptx uva) (pd.pte (pdx uva) (ptx uva) &&& 0xFFFFFFFB)).userPages =
      pd.userPages := by
  rw [pdx_eq huva] at h ⊢
  rw [ptx_eq]
  exact Pgdir.userPages_setPte_same h (present_clearUser _) (pteAddr_clearUser _)

lemma present_entry_clearUser (pd : Pgdir) (d x i : Nat) :
    present ((pd.setPte d x (pd.pte d x &&& 0xFFFFFFFB)).entry i) = present (pd.entry i) := by
  rw [Pgdir.entry_setPte]
  split_ifs with hi
  · obtain ⟨rfl, rfl, hpde⟩ := hi
    rw [present_clearUser, Pgdir.entry_of_present hpde]
  · rfl

lemma uva2ka_absent {k : Kmem} {pd : Pgdir} {uva : Nat} (h : present (pd.pde (pdx uva)) = false) :
    uva2ka k pd uva = none := by
  simp [uva2ka, walkpgdir_absent h]

lemma copyout_absent {s : Space} {va : Nat} {p : List UInt8} (hp : p ≠ [])
    (h : present (s.pd.pde (pdx (pgrounddown va))) = false) : copyout s va p = none := by
  obtain ⟨b, bs, rfl⟩ := List.exists_cons_of_ne_nil hp
  simp only [copyout, List.length_cons, copyoutLoop, uva2ka_absent h]

end Xv6.Vm
