import MoneyMovement.Runs.Interleavings
import MoneyMovement.Effects.Operations
import MoneyMovement.Txn.Clock

/-!
# Induction over what has been committed

A reachable database is built from the first one by registrations and by effects
of committed calls, in the order of the log; failed and killed calls leave it as
it is. So an invariant of the committed tables needs one case for each.
-/

namespace MoneyMovement

open Txn

/-- A database before the first money movement: users with their wallets. -/
structure Start (db : Db) : Prop where
  walletIds : (db.wallets.map Wallet.id).Nodup
  owners : (db.wallets.map Wallet.userId).Nodup
  balances : ∀ w ∈ db.wallets, 0 ≤ w.balanceMinor
  transfers : db.transfers = []
  ledgerEntries : db.ledgerEntries = []
  moneyRequests : db.moneyRequests = []
  idempotencyRecords : db.idempotencyRecords = []

theorem Start.good {db : Db} (h : Start db) : Good [] db where
  walletIds := h.walletIds
  owners := h.owners
  balances := h.balances
  completed r hr := by
    rw [h.idempotencyRecords] at hr
    cases hr

theorem sampleDb_start : Start sampleDb :=
  ⟨by decide, by decide, by decide, rfl, rfl, rfl, rfl⟩

abbrev Log := List (Txn.Event store Command Response)

variable {cfg : Config} {db₀ db : Db} {clock : Time} {s s' : Service} {closed : Prop}

section Induction

theorem returned_induction {motive : Log → Db → Prop} (h₀ : Good [] db₀) (start : motive [] db₀)
    (returned : ∀ log v c ds a v', Good [] v → motive log v →
      store.Returns (body cfg c) v ds a v' → motive (log ++ [.ended ⟨c, ds, .ok a⟩]) v')
    (register : ∀ log v r v', Good [] v → motive log v → register r v = some v' →
      motive (log ++ [.external r]) v')
    (abort : ∀ log v c ds e, ¬ Impossible e → motive log v →
      motive (log ++ [.ended ⟨c, ds, .error e⟩]) v)
    (killed : ∀ log v c, motive log v → motive (log ++ [.killed c]) v)
    {log : Log} (h : (protocol closed).Explains (body cfg) db₀ log db) : motive log db := by
  have both : Good [] db ∧ motive log db := by
    induction h with
    | nil => exact ⟨h₀, start⟩
    | commit c ds a db' _ hg ha ih =>
      exact ⟨hg, returned _ _ c ds a db' ih.1 ih.2 (store.returns_of_alone ha)⟩
    | abort c ds e _ hth _ ih => exact ⟨ih.1, abort _ _ c ds e hth ih.2⟩
    | killed c _ ih => exact ⟨ih.1, killed _ _ c ih.2⟩
    | external r db' _ hg _ he ih => exact ⟨hg, register _ _ r db' ih.1 ih.2 he⟩
  exact both.2

theorem explained_induction {motive : Log → Db → Prop} (h₀ : Good [] db₀) (start : motive [] db₀)
    (effect : ∀ log v c ds a v', Good [] v → motive log v → Effect cfg v ds c a v' →
      motive (log ++ [.ended ⟨c, ds, .ok a⟩]) v')
    (register : ∀ log v r v', Good [] v → motive log v → register r v = some v' →
      motive (log ++ [.external r]) v')
    (abort : ∀ log v c ds e, ¬ Impossible e → motive log v →
      motive (log ++ [.ended ⟨c, ds, .error e⟩]) v)
    (killed : ∀ log v c, motive log v → motive (log ++ [.killed c]) v)
    {log : Log} (h : (protocol closed).Explains (body cfg) db₀ log db) : motive log db :=
  returned_induction h₀ start (fun log v c ds a v' hg hj hr =>
    effect log v c ds a v' hg hj (effect_of_returns hg hr)) register abort killed h

/-- An invariant of the tables that effects and registrations keep. -/
theorem reachable_tables {J : Db → Prop} (h₀ : Good [] db₀) (start : J db₀)
    (effect : ∀ v ds c a v', Good [] v → J v → Effect cfg v ds c a v' → J v')
    (reg : ∀ v r v', Good [] v → J v → register r v = some v' → J v')
    (h : Sys.Reach (body cfg) Open (Service.initial db₀ clock) s) : J s.db :=
  explained_induction (motive := fun _ v => J v) h₀ start
    (fun _ v c ds a v' hg hj he => effect v ds c a v' hg hj he)
    (fun _ v r v' hg hj hr => reg v r v' hg hj hr) (fun _ _ _ _ _ _ hj => hj) (fun _ _ _ hj => hj)
    (open_inv h₀ h).explained

/-- No call ever fails with one of the errors the discipline rules out. -/
theorem ended_fails (h₀ : Good [] db₀)
    (h : Sys.Reach (body cfg) Open (Service.initial db₀ clock) s) {x : Ended store Command Response}
    {e : Failure} (hx : x ∈ s.ended) (he : x.outcome = .error e) : ¬ Impossible e := by
  refine explained_induction
    (motive := fun log _ => ∀ x ∈ log.filterMap Event.ended?, ∀ e, x.outcome = .error e →
      ¬ Impossible e) h₀ (by simp)
    (fun log v c ds a v' _ ih _ x hx e he => ?_) (fun log v r v' _ ih _ x hx e he => ?_)
    (fun log v c ds e' hi ih x hx e he => ?_) (fun log v c ih x hx e he => ?_)
    (open_inv h₀ h).explained x hx e he
  all_goals
    rcases Sys.mem_ended_snoc.1 hx with hx | hx
    · exact ih x hx e he
  · cases hx
    cases he
  · cases hx
  · cases hx
    cases he
    exact hi
  · cases hx

/-- No open transaction is about to issue a statement the discipline rules out. -/
theorem open_permits (hi : (protocol closed).Inv (body cfg) db₀ s) {i : ℕ}
    {t : Tx store Command Response} {st : Stmt} {k : Reply st → TxM Response} (ht : s.tx i = some t)
    (hr : t.rest = .op st k) : ¬ IsReclaim st := by
  have hok := hi.each i t ht
  have hk := hok.keeps
  rw [hr] at hk
  have hg := (protocol closed).good_view ((protocol closed).good_mono (List.nil_subset _) hi.good)
    hok.owns
  exact (hk _ hg ((protocol closed).evolves_refl _ _) ⟨s.clock, 0⟩).1

theorem open_fails (hi : (protocol closed).Inv (body cfg) db₀ s) {i : ℕ}
    {t : Tx store Command Response} {e : Failure} (ht : s.tx i = some t) (hr : t.rest = .fail e) :
    ¬ Impossible e := by
  have hk := (hi.each i t ht).keeps
  rw [hr] at hk
  exact hk

end Induction

section Steps

/-- What one step does to the committed tables: nothing, a registration, or the
effect of the call that ends. -/
theorem step_tables (hi : (protocol closed).Inv (body cfg) db₀ s) {l : Event}
    (hs : s.step? (body cfg) l = some s') :
    s'.db = s.db ∨ (∃ r, l = .external r ∧ register r s.db = some s'.db) ∨
      ∃ i t a, l = .finish i ∧ s.tx i = some t ∧ t.rest = .ret a ∧
        Effect cfg s.db t.draws t.call a s'.db := by
  cases Sys.step?_did (body cfg) hs with
  | commit i t a ht hr =>
    exact Or.inr (Or.inr ⟨i, t, a, rfl, ht, hr,
      effect_of_returns hi.good (store.returns_of_alone (hi.alone ht hr))⟩)
  | external r db' hx => exact Or.inr (Or.inl ⟨r, rfl, hx⟩)
  | _ => exact Or.inl rfl

theorem initial_timely (db : Db) (clock : Time) : (Service.initial db clock).Timely :=
  ⟨fun i t ht => by simp [Service.initial, Sys.tx] at ht, fun e he => by cases he⟩

end Steps

end MoneyMovement
