import MoneyMovement.Txn.System

/-!
# Changes the transactions cannot see

Two databases are `Same` when no statement tells them apart. Then a change of the
one by somebody else leaves every transaction as it was: a run with such changes
takes the same steps as a run without them.
-/

namespace Txn

variable {Stmt : Type} {Reply : Stmt → Type} {Db Write Err Time Id Obj Ext : Type}

/-- A relation between databases that no statement and no change tells apart. -/
structure Hidden (E : Engine Reply Db Write Err Time Id Obj Ext) where
  Same : Db → Db → Prop
  refl : ∀ v, Same v v
  exec : ∀ {v v'}, Same v v' → ∀ s d, E.exec s v' d = E.exec s v d
  wants : ∀ {v v'}, Same v v' → ∀ s d, E.wants s v' d = E.wants s v d
  apply : ∀ {v v'}, Same v v' → ∀ w, Same (E.apply v w) (E.apply v' w)
  others : ∀ {v v'}, Same v v' → ∀ {x u'}, E.others x v' = some u' →
    ∃ u, E.others x v = some u ∧ Same u u'

variable {E : Engine Reply Db Write Err Time Id Obj Ext} {Call α : Type}

namespace Hidden

variable (H : Hidden E)

/-- The same transactions and the same log, over databases that look the same. -/
def Alike (s s' : Sys E Call α) : Prop := ∃ db', H.Same s.db db' ∧ s' = { s with db := db' }

variable {H} {s s' t' : Sys E Call α}

theorem view {v v' : Db} (h : H.Same v v') (ws : List Write) :
    H.Same (E.view v ws) (E.view v' ws) := by
  induction ws generalizing v v' with
  | nil => exact h
  | cons w ws ih => exact ih (H.apply h w)

theorem after {v v' : Db} (h : H.Same v v') (t : Tx E Call α) (d : Draw Time Id) (st : Stmt)
    (k : Reply st → Prog Reply Err α) : t.after v' d st k = t.after v d st k := by
  have hview := H.view h t.writes
  have hnext : E.next (E.view v' t.writes) d st k = E.next (E.view v t.writes) d st k := by
    simp only [Engine.next, H.exec hview]
  simp only [Tx.after, hnext, H.wants hview]

variable [DecidableEq Obj] [LinearOrder Time] (body : Call → Prog Reply Err α)

/-- Every step over the one database is a step over the other. -/
theorem Alike.step {l : Label Call Time Id Ext} (h : H.Alike s s')
    (hs : s'.step? body l = some t') : ∃ t, s.step? body l = some t ∧ H.Alike t t' := by
  obtain ⟨db', hsame, rfl⟩ := h
  cases Sys.step?_did body hs with
  | tick time hle => exact ⟨{ s with clock := time }, if_pos hle, db', hsame, rfl⟩
  | start c => exact ⟨_, rfl, db', hsame, rfl⟩
  | step i id t st k ht hr hf =>
    have ht₀ : s.tx i = some t := ht
    have hf₀ : s.Free i (E.wants st (E.view s.db t.writes) ⟨s.clock, id⟩) :=
      H.wants (H.view hsame t.writes) st ⟨s.clock, id⟩ ▸ hf
    refine ⟨s.put i (t.after s.db ⟨s.clock, id⟩ st k), ?_, db', hsame, ?_⟩
    · simp only [Sys.step?, Sys.issue?, ht₀, hr, if_pos hf₀]
    · simp only [Sys.put, H.after hsame t ⟨s.clock, id⟩ st k]
  | commit i t a ht hr =>
    have ht₀ : s.tx i = some t := ht
    refine ⟨s.close i (E.view s.db t.writes) (.ended ⟨t.call, t.draws, .ok a⟩), ?_,
      E.view db' t.writes, H.view hsame t.writes, rfl⟩
    simp only [Sys.step?, Sys.finish?, ht₀, hr]
  | rollback i t e ht hr =>
    have ht₀ : s.tx i = some t := ht
    refine ⟨s.close i s.db (.ended ⟨t.call, t.draws, .error e⟩), ?_, db', hsame, rfl⟩
    simp only [Sys.step?, Sys.finish?, ht₀, hr]
  | kill i t ht =>
    have ht₀ : s.tx i = some t := ht
    refine ⟨s.close i s.db (.killed t.call), ?_, db', hsame, rfl⟩
    simp only [Sys.step?, ht₀, Option.map_some]
  | external x u' hx =>
    obtain ⟨u, hu, hsame'⟩ := H.others hsame hx
    refine ⟨{ s with db := u, log := s.log ++ [.external x] }, ?_, u', hsame', rfl⟩
    simp only [Sys.step?, hu, Option.map_some]

end Hidden

section Writes

variable {s s' : Sys E Call α}

def Sys.pending (s : Sys E Call α) (i : ℕ) : List Write :=
  match s.tx i with
  | some t => t.writes
  | none => []

theorem pending_of_tx {i : ℕ} {t : Tx E Call α} (h : s.tx i = some t) :
    s.pending i = t.writes := by
  simp only [Sys.pending, h]

theorem pending_put_ne {i j : ℕ} {t : Tx E Call α} (h : j ≠ i) :
    (s.put i t).pending j = s.pending j := by
  simp only [Sys.pending, Sys.tx_put_ne h]

theorem pending_close_self (i : ℕ) (db : Db) (e : Event E Call α) :
    (s.close i db e).pending i = [] := by
  simp only [Sys.pending, Sys.tx_close_self]

theorem pending_close_ne {i j : ℕ} {db : Db} {e : Event E Call α} (h : j ≠ i) :
    (s.close i db e).pending j = s.pending j := by
  simp only [Sys.pending, Sys.tx_close_ne h]

variable [DecidableEq Obj] [LinearOrder Time] {body : Call → Prog Reply Err α}

/-- What a step does to the uncommitted changes of a call. -/
theorem pending_after {l : Label Call Time Id Ext} (hs : s.step? body l = some s') (j : ℕ) :
    s'.pending j = s.pending j ∨ s'.pending j = [] ∨ ∃ id t st k, l = .step j id ∧
      s.tx j = some t ∧ t.rest = .op st k ∧
      s'.pending j = s.pending j ++ (E.next (E.view s.db t.writes) ⟨s.clock, id⟩ st k).2 := by
  have closed (i : ℕ) (db : Db) (e : Event E Call α) :
      (s.close i db e).pending j = s.pending j ∨ (s.close i db e).pending j = [] := by
    by_cases hj : j = i
    · subst hj
      exact Or.inr (pending_close_self j db e)
    · exact Or.inl (pending_close_ne hj)
  cases Sys.step?_did body hs with
  | tick => exact Or.inl rfl
  | start c =>
    cases htx : ({ s with txs := s.txs ++ [some (Tx.fresh body c)] } : Sys E Call α).tx j with
    | none =>
      refine Or.inr (Or.inl ?_)
      rw [Sys.pending, htx]
    | some u =>
      rcases Sys.tx_of_start htx with ⟨-, rfl⟩ | hu
      · exact Or.inr (Or.inl (pending_of_tx htx))
      · exact Or.inl ((pending_of_tx htx).trans (pending_of_tx hu).symm)
  | step i id t st k ht hr hf =>
    by_cases hj : j = i
    · subst hj
      refine Or.inr (Or.inr ⟨id, t, st, k, rfl, ht, hr, ?_⟩)
      rw [pending_of_tx (Sys.tx_put_self ht), pending_of_tx ht]
      rfl
    · exact Or.inl (pending_put_ne hj)
  | commit i => exact (closed i _ _).imp_right Or.inl
  | rollback i => exact (closed i _ _).imp_right Or.inl
  | kill i => exact (closed i _ _).imp_right Or.inl
  | external => exact Or.inl rfl

/-- Whatever holds of all that a statement writes holds of all that is pending. -/
theorem pending_reach {P : Write → Prop}
    (hP : ∀ st v d r ws, E.exec st v d = .ok (r, ws) → ∀ w ∈ ws, P w)
    {ok : Sys E Call α → Label Call Time Id Ext → Prop} {s₀ : Sys E Call α}
    (h₀ : ∀ i, ∀ w ∈ s₀.pending i, P w) (h : Sys.Reach body ok s₀ s) :
    ∀ i, ∀ w ∈ s.pending i, P w := by
  induction h with
  | refl => exact h₀
  | @tail s s' l _ _ hs ih =>
    intro j w hw
    rcases pending_after hs j with heq | heq | ⟨id, t, st, k, -, -, -, heq⟩
    · exact ih j w (heq ▸ hw)
    · rw [heq] at hw
      cases hw
    · rw [heq] at hw
      rcases List.mem_append.1 hw with hw | hw
      · exact ih j w hw
      · cases hx : E.exec st (E.view s.db t.writes) ⟨s.clock, id⟩ with
        | error e =>
          rw [E.next_error hx] at hw
          cases hw
        | ok out =>
          rw [E.next_ok hx] at hw
          exact hP st _ _ out.1 out.2 hx w hw

end Writes

end Txn
