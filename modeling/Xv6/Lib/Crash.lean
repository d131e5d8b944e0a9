import Mathlib.Data.List.Basic

/-! A disk as a function from block numbers to contents, changed only by single-block writes,
each of them atomic. A program's run is followed as a `Trace`: the disk as it is now and the
writes issued so far. A crash after any prefix of those writes leaves the disk with exactly that
prefix applied (`after`). -/

namespace Crash

variable {β : Type*}

def put (d : Nat → β) (ws : List (Nat × β)) : Nat → β :=
  ws.foldl (fun d w => Function.update d w.1 w.2) d

section Put

variable {d : Nat → β} {ws : List (Nat × β)}

@[simp] lemma put_nil (d : Nat → β) : put d [] = d := rfl

@[simp] lemma put_cons (d : Nat → β) (w : Nat × β) (ws : List (Nat × β)) :
    put d (w :: ws) = put (Function.update d w.1 w.2) ws := rfl

lemma put_append (d : Nat → β) (ws vs : List (Nat × β)) :
    put d (ws ++ vs) = put (put d ws) vs := by
  simp [put, List.foldl_append]

lemma put_of_not_mem {a : Nat} (h : ∀ w ∈ ws, w.1 ≠ a) : put d ws a = d a := by
  induction ws generalizing d with
  | nil => rfl
  | cons w ws ih =>
    rw [put_cons, ih fun v hv => h v (List.mem_cons_of_mem _ hv),
      Function.update_of_ne (h w List.mem_cons_self).symm]

lemma put_of_mem {a : Nat} {v : β} (hnd : (ws.map Prod.fst).Nodup) (h : (a, v) ∈ ws) :
    put d ws a = v := by
  induction ws generalizing d with
  | nil => cases h
  | cons w ws ih =>
    obtain ⟨hw, hnd⟩ := List.nodup_cons.mp hnd
    rw [put_cons]
    rcases List.mem_cons.mp h with rfl | h
    · rw [put_of_not_mem fun u hu hua => hw (List.mem_map.mpr ⟨u, hu, hua⟩)]
      simp
    · exact ih hnd h

lemma put_map_self (d : Nat → β) (bs : List Nat) (f : Nat → β) (a : Nat) :
    put d (bs.map fun b => (b, f b)) a = if a ∈ bs then f a else d a := by
  induction bs generalizing d with
  | nil => simp
  | cons b bs ih =>
    rw [List.map_cons, put_cons, ih]
    by_cases ha : a ∈ bs
    · simp [ha]
    · by_cases hab : a = b
      · subst hab
        simp
      · simp [ha, hab]

end Put

structure Trace (β : Type*) where
  disk : Nat → β
  issued : List (Nat × β)

namespace Trace

def start (d : Nat → β) : Trace β := ⟨d, []⟩

@[simp] lemma start_disk (d : Nat → β) : (start d).disk = d := rfl

@[simp] lemma start_issued (d : Nat → β) : (start d).issued = [] := rfl

def bwrite (t : Trace β) (a : Nat) (v : β) : Trace β :=
  ⟨Function.update t.disk a v, t.issued ++ [(a, v)]⟩

@[simp] lemma bwrite_disk (t : Trace β) (a : Nat) (v : β) :
    (t.bwrite a v).disk = Function.update t.disk a v := rfl

@[simp] lemma bwrite_issued (t : Trace β) (a : Nat) (v : β) :
    (t.bwrite a v).issued = t.issued ++ [(a, v)] := rfl

def bwriteAll (t : Trace β) (ws : List (Nat × β)) : Trace β :=
  ws.foldl (fun t w => t.bwrite w.1 w.2) t

lemma bwriteAll_cons (t : Trace β) (w : Nat × β) (ws : List (Nat × β)) :
    t.bwriteAll (w :: ws) = (t.bwrite w.1 w.2).bwriteAll ws := rfl

@[simp] lemma bwriteAll_disk (t : Trace β) (ws : List (Nat × β)) :
    (t.bwriteAll ws).disk = put t.disk ws := by
  induction ws generalizing t with
  | nil => rfl
  | cons w ws ih => rw [bwriteAll_cons, ih, put_cons]; rfl

@[simp] lemma bwriteAll_issued (t : Trace β) (ws : List (Nat × β)) :
    (t.bwriteAll ws).issued = t.issued ++ ws := by
  induction ws generalizing t with
  | nil => simp [bwriteAll]
  | cons w ws ih => simp [bwriteAll_cons, ih]

def From (d : Nat → β) (t : Trace β) : Prop := t.disk = put d t.issued

lemma From.bwrite {d : Nat → β} {t : Trace β} (h : t.From d) (a : Nat) (v : β) :
    (t.bwrite a v).From d := by
  rw [Trace.From, Trace.bwrite, put_append, ← h]
  rfl

end Trace

def after (run : Trace β → Trace β) (d : Nat → β) (k : Nat) : Nat → β :=
  put d ((run (Trace.start d)).issued.take k)

end Crash
