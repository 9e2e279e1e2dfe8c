import MoneyMovement.Txn.Calls

/-!
# What a call had been told when it issued a statement

If programs come only to points that allow the statement they issue, then every statement
of the past was allowed by what its call has been told, and calls started after a state have
been told nothing from before it.
-/

namespace Txn

variable {Stmt : Type} {Reply : Stmt → Type} {Db Err Time Id Call α : Type}

namespace Calls

def Traced (Q : Call → List (Exchange Reply) → Stmt → Prop)
    (s : Calls Reply Db Err Time Id Call α) : Prop :=
  ∀ e ∈ s.past, ∃ p, s.procs[e.caller]? = some p ∧ Q p.call (s.said e.caller) e.stmt

variable {Q : Call → List (Exchange Reply) → Stmt → Prop}
  {P : Call → List (Exchange Reply) → Prog Reply Err α → Prop}

theorem Traced.initial (db : Db) (clock : Time) :
    Traced Q (initial db clock : Calls Reply Db Err Time Id Call α) :=
  fun _ he => (List.not_mem_nil he).elim

variable {s s' : Calls Reply Db Err Time Id Call α}

/-- A call that has not been started has been told nothing. -/
theorem Follows.said_new (hf : Follows P s) {i : ℕ} (hi : s.procs.length ≤ i) : s.said i = [] :=
  talk_eq_nil fun e he => Nat.ne_of_lt (Nat.lt_of_lt_of_le (hf.callers e he) hi)

variable [LinearOrder Time] {exec : Atomic Reply Db Err Time Id} {body : Call → Prog Reply Err α}
  {l : Turn Call Time Id}

/-- A turn leaves the calls as they are, but for where they stand. -/
theorem call_kept (hs : s.step? exec body l = some s') {i : ℕ} {p : Proc Reply Err Call α}
    (hp : s.procs[i]? = some p) : ∃ p', s'.procs[i]? = some p' ∧ p'.call = p.call := by
  have set (j : ℕ) (c : Call) (rest rest' : Prog Reply Err α) (hj : s.procs[j]? = some ⟨c, rest⟩) :
      ∃ p', (s.procs.set j ⟨c, rest'⟩)[i]? = some p' ∧ p'.call = p.call := by
    by_cases hij : j = i
    · subst hij
      obtain rfl := Option.some.inj (hp.symm.trans hj)
      exact ⟨_, List.getElem?_set_self (List.getElem?_eq_some_iff.1 hj).1, rfl⟩
    · exact ⟨p, (List.getElem?_set_ne hij).trans hp, rfl⟩
  cases step?_took exec body hs with
  | tick t hle => exact ⟨p, hp, rfl⟩
  | start c =>
    refine ⟨p, ?_, rfl⟩
    rw [List.getElem?_append_left (List.getElem?_eq_some_iff.1 hp).1]
    exact hp
  | step j id c st k r db' hj hx => exact set j c _ _ hj
  | fail j id c st k e hj hx => exact set j c _ _ hj

theorem past_kept (hs : s.step? exec body l = some s') : ∃ more, s'.past = s.past ++ more := by
  cases step?_took exec body hs with
  | step j id c st k r db' hj hx => exact ⟨_, rfl⟩
  | _ => exact ⟨[], (List.append_nil _).symm⟩

theorem said_kept (hs : s.step? exec body l = some s') (i : ℕ) :
    ∃ more, s'.said i = s.said i ++ more := by
  cases step?_took exec body hs with
  | step j id c st k r db' hj hx =>
    simp only [said, talk_snoc]
    split_ifs
    · exact ⟨_, rfl⟩
    · exact ⟨[], (List.append_nil _).symm⟩
  | _ => exact ⟨[], (List.append_nil _).symm⟩

theorem Traced.step (hmono : ∀ c said more st, Q c said st → Q c (said ++ more) st)
    (hissue : ∀ c said st k, P c said (.op st k) → Q c said st) (hf : Follows P s)
    (h : Traced Q s) (hs : s.step? exec body l = some s') : Traced Q s' := by
  have hold {e : Done Reply Time Id} (he : ∃ p, s.procs[e.caller]? = some p ∧
      Q p.call (s.said e.caller) e.stmt) :
      ∃ p, s'.procs[e.caller]? = some p ∧ Q p.call (s'.said e.caller) e.stmt := by
    obtain ⟨p, hp, hq⟩ := he
    obtain ⟨p', hp', hcall⟩ := call_kept hs hp
    obtain ⟨more, hmore⟩ := said_kept hs e.caller
    exact ⟨p', hp', by rw [hcall, hmore]; exact hmono _ _ _ _ hq⟩
  intro e he
  have hpast : e ∈ s.past ∨ ∃ p k, s.procs[e.caller]? = some p ∧ p.rest = .op e.stmt k := by
    cases step?_took exec body hs with
    | step i id c st k r db' hp hx =>
      rcases List.mem_append.1 he with he | he
      · exact Or.inl he
      · rw [List.mem_singleton.1 he]
        exact Or.inr ⟨_, k, hp, rfl⟩
    | _ => exact Or.inl he
  rcases hpast with he | ⟨p, k, hp, hrest⟩
  · exact hold (h e he)
  · refine hold ⟨p, hp, hissue _ _ _ k ?_⟩
    have hpoint := hf.points _ _ hp
    rw [hrest] at hpoint
    exact hpoint.1

end Calls

end Txn
