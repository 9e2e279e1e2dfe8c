import MoneyMovement.Txn.System

/-!
# Transactions that only read

When what a program asks for is settled by a property that no other step destroys,
it changes nothing, and its outcome depends on the draws it gets alone.
-/

namespace Txn

variable {Stmt : Type} {Reply : Stmt → Type} {Db Write Err Time Id Obj Ext : Type}
variable (E : Engine Reply Db Write Err Time Id Obj Ext) {Call α : Type}

/-- On databases with the property the program changes nothing and ends as `o` says
of its draws. -/
def Reads (F : Db → Prop) : Prog Reply Err α → (List (Draw Time Id) → Except Err α) → Prop
  | .ret a, o => o [] = .ok a
  | .fail e, o => o [] = .error e
  | .op s k, o => ∀ v d, F v →
      ∃ r, E.exec s v d = .ok (r, []) ∧ Reads F (k r) (fun ds => o (d :: ds))

structure Reading (F : Db → Prop) (o : List (Draw Time Id) → Except Err α) (t : Tx E Call α) :
    Prop where
  clean : t.writes = []
  reads : Reads E F t.rest (fun ds => o (t.draws ++ ds))

variable {E} {F : Db → Prop} {o : List (Draw Time Id) → Except Err α} {t : Tx E Call α}
  {body : Call → Prog Reply Err α}

theorem Reading.fresh {c : Call} (h : Reads E F (body c) o) :
    Reading E F o (Tx.fresh body c : Tx E Call α) :=
  ⟨rfl, h⟩

theorem Reading.after (h : Reading E F o t) {st : Stmt} {k : Reply st → Prog Reply Err α}
    (hr : t.rest = .op st k) {db : Db} (hF : F db) (d : Draw Time Id) :
    Reading E F o (t.after db d st k) := by
  have hreads := h.reads
  rw [hr] at hreads
  obtain ⟨r, hx, hk⟩ := hreads db d hF
  have hn : E.next (E.view db t.writes) d st k = (k r, []) := by
    rw [h.clean]
    exact E.next_ok hx
  refine ⟨?_, ?_⟩
  · simp only [Tx.after, hn, List.append_nil]
    exact h.clean
  · simp only [Tx.after, hn, List.append_assoc, List.singleton_append]
    exact hk

variable [DecidableEq Obj] [LinearOrder Time]

/-- It goes on reading in every run that keeps the property. -/
theorem Reading.reach {ok : Sys E Call α → Label Call Time Id Ext → Prop} {s₀ s : Sys E Call α}
    {i : ℕ} {t₀ : Tx E Call α} (hF : ∀ s, Sys.Reach body ok s₀ s → F s.db)
    (ht₀ : s₀.tx i = some t₀) (h₀ : Reading E F o t₀) (h : Sys.Reach body ok s₀ s) :
    i < s.txs.length ∧ ∀ t, s.tx i = some t → t.call = t₀.call ∧ Reading E F o t :=
  Sys.tx_reach (fun s _ _ _ _ hreach _ hr hread => hread.after hr (hF s hreach) _) ht₀ h₀ h

/-- When it ends, the outcome is the one its draws determine, and the database stays. -/
theorem Reading.finish {s s' : Sys E Call α} {i : ℕ} (ht : s.tx i = some t)
    (h : Reading E F o t) (hs : s.step? body (.finish i) = some s') :
    s' = s.close i s.db (.ended ⟨t.call, t.draws, o t.draws⟩) := by
  have hreads := h.reads
  cases Sys.step?_did body hs with
  | commit _ u a hu hr =>
    obtain rfl := Option.some.inj (ht.symm.trans hu)
    rw [hr] at hreads
    have ho : o t.draws = .ok a := (congrArg o (List.append_nil _)).symm.trans hreads
    rw [h.clean, Engine.view_nil, ho]
  | rollback _ u e hu hr =>
    obtain rfl := Option.some.inj (ht.symm.trans hu)
    rw [hr] at hreads
    have ho : o t.draws = .error e := (congrArg o (List.append_nil _)).symm.trans hreads
    rw [ho]

end Txn
