import MoneyMovement.Txn.System

/-!
# Calls with nobody else present

Where no transaction is open, a call that returns when run by itself can be started, driven
and finished, with the draws it is given, and leaves the database that its run leaves.
-/

namespace Txn

variable {Stmt : Type} {Reply : Stmt → Type} {Db Write Err Time Id Obj Ext : Type}
  {E : Engine Reply Db Write Err Time Id Obj Ext} {Call α : Type} {s : Sys E Call α}

namespace Sys

def Idle (s : Sys E Call α) : Prop := ∀ i, s.tx i = none

theorem free_of_others {i : ℕ} (h : ∀ j, j ≠ i → s.tx j = none) (os : List Obj) :
    s.Free i os := by
  intro j _ hj o _ ho
  rw [held, h j hj] at ho
  cases ho

theorem idle_close {i : ℕ} (h : ∀ j, j ≠ i → s.tx j = none) (db : Db) (e : Event E Call α) :
    (s.close i db e).Idle := by
  intro j
  by_cases hj : j = i
  · rw [hj]
    exact tx_close_self s i db e
  · rw [tx_close_ne hj]
    exact h j hj

variable [DecidableEq Obj] [LinearOrder Time] {body : Call → Prog Reply Err α}
  {ok : Sys E Call α → Label Call Time Id Ext → Prop}

/-- The only open transaction is driven to its end. -/
theorem reach_finish (hstep : ∀ s i id, ok s (.step i id)) (hfinish : ∀ s i, ok s (.finish i))
    {i : ℕ} {t : Tx E Call α} (ht : s.tx i = some t) (hothers : ∀ j, j ≠ i → s.tx j = none)
    {ids : List Id} {a : α} {db' : Db}
    (h : E.Returns t.rest (E.view s.db t.writes) (ids.map (Draw.mk s.clock)) a db') :
    ∃ s', Reach body ok s s' ∧ s'.Idle ∧ s'.db = db' ∧ s'.clock = s.clock := by
  induction ids generalizing s t with
  | nil =>
    cases hr : t.rest with
    | ret b =>
      rw [hr] at h
      obtain ⟨-, rfl, rfl⟩ := h
      have hs : s.step? body (.finish i) =
          some (s.close i (E.view s.db t.writes) (.ended ⟨t.call, t.draws, .ok a⟩)) := by
        simp only [step?, finish?, ht, hr]
      exact ⟨_, .tail _ .refl (hfinish s i) hs, idle_close hothers _ _, rfl, rfl⟩
    | fail e =>
      rw [hr] at h
      exact h.elim
    | op st k =>
      rw [hr] at h
      obtain ⟨d, rest, r, ws, hds, -⟩ := h
      cases hds
  | cons id ids ih =>
    cases hr : t.rest with
    | ret b =>
      rw [hr] at h
      cases h.1
    | fail e =>
      rw [hr] at h
      exact h.elim
    | op st k =>
      rw [hr] at h
      obtain ⟨d, rest, r, ws, hds, hx, hk⟩ := h
      cases hds
      have hs : s.step? body (.step i id) = some (s.put i (t.after s.db ⟨s.clock, id⟩ st k)) := by
        simp only [step?, issue?, ht, hr, if_pos (free_of_others hothers _)]
      have hothers' : ∀ j, j ≠ i → (s.put i (t.after s.db ⟨s.clock, id⟩ st k)).tx j = none :=
        fun j hj => (tx_put_ne hj).trans (hothers j hj)
      have hafter : E.Returns (t.after s.db ⟨s.clock, id⟩ st k).rest
          (E.view s.db (t.after s.db ⟨s.clock, id⟩ st k).writes) (ids.map (Draw.mk s.clock)) a
          db' := by
        simp only [Tx.after, E.next_ok hx, Engine.view_append]
        exact hk
      obtain ⟨s', hreach, hidle, hdb, hclock⟩ := ih (tx_put_self ht) hothers' hafter
      exact ⟨s', .head body (hstep s i id) hs hreach, hidle, hdb, hclock⟩

/-- A call that returns when run by itself. -/
theorem Idle.reach_returns (h : s.Idle) {c : Call} (hstart : ok s (.start c))
    (hstep : ∀ s i id, ok s (.step i id)) (hfinish : ∀ s i, ok s (.finish i)) {ids : List Id}
    {a : α} {db' : Db} (hr : E.Returns (body c) s.db (ids.map (Draw.mk s.clock)) a db') :
    ∃ s', Reach body ok s s' ∧ s'.Idle ∧ s'.db = db' ∧ s'.clock = s.clock := by
  let s₁ : Sys E Call α := { s with txs := s.txs ++ [some (Tx.fresh body c)] }
  have ht : s₁.tx s.txs.length = some (Tx.fresh body c) := by
    simp [s₁, tx]
  have hothers : ∀ j, j ≠ s.txs.length → s₁.tx j = none := by
    intro j hj
    rcases Nat.lt_or_gt_of_ne hj with hlt | hgt
    · have hsame : s₁.tx j = s.tx j := by
        simp only [s₁, tx, List.getElem?_append_left hlt]
      rw [hsame]
      exact h j
    · have hout : s₁.txs[j]? = none := by
        refine List.getElem?_eq_none ?_
        simp only [s₁, List.length_append, List.length_singleton]
        exact hgt
      simp only [tx, hout, Option.join_none]
  obtain ⟨s', hreach, hend⟩ := reach_finish (s := s₁) hstep hfinish ht hothers hr
  exact ⟨s', .head body hstart rfl hreach, hend⟩

end Sys

end Txn
