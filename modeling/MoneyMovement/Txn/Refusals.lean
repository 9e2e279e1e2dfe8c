import MoneyMovement.Txn.System

/-!
# Transactions that are refused

When a property of the committed database settles every reply so that a program fails,
it fails alone and in every run that keeps the property, whatever it has written before.
-/

namespace Txn

variable {Stmt : Type} {Reply : Stmt → Type} {Db Write Err Time Id Obj Ext : Type}
variable (E : Engine Reply Db Write Err Time Id Obj Ext) {Call α β : Type}

/-- On databases with the property, and with the draws it is given there, the program fails
with `e`. -/
def Refused (F : Db → Prop) (G : Db → Draw Time Id → Prop) (e : Err) :
    Prog Reply Err α → List Write → Prop
  | .ret _, _ => False
  | .fail e', _ => e' = e
  | .op s k, ws => ∀ db d, F db → G db d →
      ∃ r ws', E.exec s (E.view db ws) d = .ok (r, ws') ∧ Refused F G e (k r) (ws ++ ws')

variable {E} {F : Db → Prop} {G : Db → Draw Time Id → Prop} {e : Err}

/-- Alone, it leaves the database as it was. -/
theorem Refused.alone {db : Db} (hF : F db) {draws : ℕ → Draw Time Id} (hG : ∀ n, G db (draws n))
    {p : Prog Reply Err α} {ws : List Write} (h : Refused E F G e p ws) :
    ∃ n, E.alone db p (E.view db ws) ((List.range n).map draws) = some (.error e, db) := by
  induction p generalizing ws draws with
  | ret a => exact h.elim
  | fail e' =>
    obtain rfl : e' = e := h
    exact ⟨0, rfl⟩
  | op s k ih =>
    obtain ⟨r, ws', hx, hk⟩ := h db (draws 0) hF (hG 0)
    obtain ⟨n, hn⟩ := ih r (fun n => hG (n + 1)) hk
    refine ⟨n + 1, ?_⟩
    rw [List.range_succ_eq_map, List.map_cons, List.map_map, Engine.alone_op, E.next_ok hx,
      ← Engine.view_append]
    exact hn

def Refusing (E : Engine Reply Db Write Err Time Id Obj Ext) (F : Db → Prop)
    (G : Db → Draw Time Id → Prop) (e : Err) (t : Tx E Call α) : Prop :=
  Refused E F G e t.rest t.writes

variable {t : Tx E Call α} {body : Call → Prog Reply Err α}

theorem Refusing.after (h : Refusing E F G e t) {st : Stmt} {k : Reply st → Prog Reply Err α}
    (hr : t.rest = .op st k) {db : Db} {d : Draw Time Id} (hF : F db) (hG : G db d) :
    Refusing E F G e (t.after db d st k) := by
  have hrefused : Refused E F G e (.op st k) t.writes := hr ▸ h
  obtain ⟨r, ws, hx, hk⟩ := hrefused db d hF hG
  have hn : E.next (E.view db t.writes) d st k = (k r, ws) := E.next_ok hx
  simp only [Refusing, Tx.after, hn]
  exact hk

variable [DecidableEq Obj] [LinearOrder Time]

/-- The steps of a run that keeps the property and draws as it is assumed. -/
def Keeping (F : Db → Prop) (G : Db → Draw Time Id → Prop) (s : Sys E Call α)
    (l : Label Call Time Id Ext) : Prop :=
  F s.db ∧ ∀ i id, l = .step i id → G s.db ⟨s.clock, id⟩

theorem Refusing.reach {s₀ s : Sys E Call α} {i : ℕ} {t₀ : Tx E Call α}
    (ht₀ : s₀.tx i = some t₀) (h₀ : Refusing E F G e t₀)
    (h : Sys.Reach body (Keeping F G) s₀ s) :
    i < s.txs.length ∧ ∀ t, s.tx i = some t → t.call = t₀.call ∧ Refusing E F G e t :=
  Sys.tx_reach (fun _ id _ _ _ _ hkeep hr ht => ht.after hr hkeep.1 (hkeep.2 i id rfl)) ht₀ h₀ h

/-- When it ends, it has failed, and the database stays. -/
theorem Refusing.finish {s s' : Sys E Call α} {i : ℕ} (ht : s.tx i = some t)
    (h : Refusing E F G e t) (hs : s.step? body (.finish i) = some s') :
    s' = s.close i s.db (.ended ⟨t.call, t.draws, .error e⟩) := by
  cases Sys.step?_did body hs with
  | commit _ u a hu hr =>
    obtain rfl := Option.some.inj (ht.symm.trans hu)
    have hrefused : Refused E F G e (.ret a) t.writes := hr ▸ h
    exact hrefused.elim
  | rollback _ u e' hu hr =>
    obtain rfl := Option.some.inj (ht.symm.trans hu)
    have hrefused : Refused E F G e (.fail e' : Prog Reply Err α) t.writes := hr ▸ h
    obtain rfl : e' = e := hrefused
    rfl

end Txn
