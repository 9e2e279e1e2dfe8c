import MoneyMovement.Txn.Replay
import Mathlib.Logic.Relation

/-!
# Ordered lock acquisition excludes deadlock

A transaction waits for another one when its next statement needs a lock the
other holds. Under a `Protocol` every lock a transaction waits for comes after
all it holds, so along a chain of waiting transactions the locks only go up.
-/

namespace Txn

variable {Stmt : Type} {Reply : Stmt → Type} {Db Write Err Time Id Obj Ext : Type}
variable {E : Engine Reply Db Write Err Time Id Obj Ext} {Call α : Type}

def Sys.Needs (s : Sys E Call α) (i : ℕ) (o : Obj) : Prop :=
  ∃ (t : Tx E Call α) (st : Stmt) (k : Reply st → Prog Reply Err α) (id : Id),
    s.tx i = some t ∧ t.rest = .op st k ∧ o ∈ E.wants st (E.view s.db t.writes) ⟨s.clock, id⟩

def Sys.WaitsFor (s : Sys E Call α) (i j : ℕ) : Prop :=
  j ≠ i ∧ ∃ o, s.Needs i o ∧ o ∈ s.held j

namespace Protocol

variable {P : Protocol E} {body : Call → Prog Reply Err α} {db₀ : Db} {s : Sys E Call α}

theorem Inv.needs_after_held (h : P.Inv body db₀ s) {i : ℕ} {o : Obj} (hn : s.Needs i o)
    (ho : o ∉ s.held i) : ∀ o' ∈ s.held i, P.Before o' o := by
  obtain ⟨t, st, k, id, ht, hr, hw⟩ := hn
  rw [Sys.held_of_tx ht] at ho ⊢
  have hok := h.each i t ht
  have hg := P.good_view (P.good_mono (List.nil_subset t.held) h.good) hok.owns
  have hk := hok.keeps
  rw [hr] at hk
  obtain ⟨-, hord, -⟩ := hk _ hg (P.evolves_refl _ _) ⟨s.clock, id⟩
  exact (hord o hw).resolve_left ho

theorem Inv.wait_chain (h : P.Inv body db₀ s) {i j : ℕ}
    (hij : Relation.TransGen s.WaitsFor i j) :
    ∃ o o', (∀ o'' ∈ s.held i, P.Before o'' o) ∧ o' ∈ s.held j ∧ (o = o' ∨ P.Before o o') := by
  have first {a b : ℕ} (hw : s.WaitsFor a b) :
      ∃ o, o ∈ s.held b ∧ ∀ o' ∈ s.held a, P.Before o' o := by
    obtain ⟨hne, o, hn, ho⟩ := hw
    exact ⟨o, ho, h.needs_after_held hn (h.apart b a hne o ho)⟩
  induction hij with
  | single hw =>
    obtain ⟨o, ho, hall⟩ := first hw
    exact ⟨o, o, hall, ho, Or.inl rfl⟩
  | tail _ hw ih =>
    obtain ⟨o, o', hall, ho', hle⟩ := ih
    obtain ⟨o'', ho'', hnext⟩ := first hw
    have hup : P.Before o' o'' := hnext o' ho'
    refine ⟨o, o'', hall, ho'', Or.inr ?_⟩
    rcases hle with rfl | hlt
    · exact hup
    · exact P.before_trans hlt hup

/-- No cycle of waiting transactions. -/
theorem Inv.no_wait_cycle (h : P.Inv body db₀ s) (i : ℕ) :
    ¬ Relation.TransGen s.WaitsFor i i := by
  intro hc
  obtain ⟨o, o', hall, ho', hle⟩ := h.wait_chain hc
  have hback : P.Before o' o := hall o' ho'
  rcases hle with rfl | hlt
  · exact P.before_irrefl _ hback
  · exact P.before_irrefl _ (P.before_trans hback hlt)

end Protocol
end Txn
