import MoneyMovement.Txn.System

/-!
# A locking discipline for transaction programs

A `Protocol` names what the holder of a set of locks may rely on: which changes
of others it can still see (`Evolves`), which rows it may change (`Owns`), and
in which order locks are taken (`Before`). `Disciplined` is the verification
condition of a program under it: whatever the others do between two statements,
each statement takes its locks in order, reads what no one else can change any
more, and changes only what is locked. A program may also read something that is
not settled, if it then gives up (`Lost`).
-/

namespace Txn

variable {Stmt : Type} {Reply : Stmt → Type} {Db Write Err Time Id Obj Ext : Type}

structure Protocol (E : Engine Reply Db Write Err Time Id Obj Ext) where
  /-- Invariant of the database as the holder of these locks sees it. -/
  Good : List Obj → Db → Prop
  /-- What others can do to the database while these locks are held. -/
  Evolves : List Obj → Db → Db → Prop
  /-- These locks cover the change. -/
  Owns : List Obj → Db → Write → Prop
  Before : Obj → Obj → Prop
  /-- Statements a transaction that has given up may still issue. -/
  Probe : Stmt → Prop
  /-- Errors of a transaction that has given up. -/
  Lost : Err → Prop
  /-- Errors and statements a disciplined program may raise and issue. -/
  Throws : Err → Prop
  Permits : Stmt → Prop
  Allows : Ext → Prop
  before_irrefl : ∀ o, ¬ Before o o
  before_trans : ∀ {o o' o''}, Before o o' → Before o' o'' → Before o o''
  evolves_refl : ∀ L v, Evolves L v v
  evolves_trans : ∀ {L v v' v''}, Evolves L v v' → Evolves L v' v'' → Evolves L v v''
  evolves_anti : ∀ {L L' v v'}, L ⊆ L' → Evolves L' v v' → Evolves L v v'
  good_mono : ∀ {L L' v}, L ⊆ L' → Good L v → Good L' v
  owns_mono : ∀ {L L' v w}, L ⊆ L' → Owns L v w → Owns L' v w
  good_apply : ∀ {L v w}, Good L v → Owns L v w → Good L (E.apply v w)
  owns_evolves : ∀ {L v v' w}, Evolves L v v' → Owns L v w → Owns L v' w
  apply_evolves : ∀ {L v v' w}, Evolves L v v' → Owns L v w →
    Evolves L (E.apply v w) (E.apply v' w)
  interferes : ∀ {L L' v w}, Good L v → Owns L v w → (∀ o ∈ L, o ∉ L') →
    Evolves L' v (E.apply v w)
  probe_error : ∀ {s v d e}, Probe s → E.exec s v d = .error e → Lost e
  others_good : ∀ {x db db'}, Allows x → Good [] db → E.others x db = some db' → Good [] db'
  others_evolve : ∀ {x db db'}, Allows x → Good [] db → E.others x db = some db' →
    ∀ L, Evolves L db db'

namespace Protocol

variable {E : Engine Reply Db Write Err Time Id Obj Ext} (P : Protocol E)
variable {Call α β : Type}

section Rely

def OwnsAll (L : List Obj) : Db → List Write → Prop
  | _, [] => True
  | v, w :: ws => P.Owns L v w ∧ OwnsAll L (E.apply v w) ws

theorem ownsAll_append (L : List Obj) (v : Db) (ws ws' : List Write) :
    P.OwnsAll L v (ws ++ ws') ↔ P.OwnsAll L v ws ∧ P.OwnsAll L (E.view v ws) ws' := by
  induction ws generalizing v with
  | nil => simp only [List.nil_append, OwnsAll, true_and, Engine.view_nil]
  | cons w ws ih => simp only [List.cons_append, OwnsAll, ih, and_assoc, Engine.view_cons]

theorem ownsAll_mono {L L' : List Obj} (h : L ⊆ L') {v : Db} {ws : List Write}
    (ho : P.OwnsAll L v ws) : P.OwnsAll L' v ws := by
  induction ws generalizing v with
  | nil => trivial
  | cons w ws ih => exact ⟨P.owns_mono h ho.1, ih ho.2⟩

theorem good_view {L : List Obj} {v : Db} {ws : List Write} (hg : P.Good L v)
    (ho : P.OwnsAll L v ws) : P.Good L (E.view v ws) := by
  induction ws generalizing v with
  | nil => exact hg
  | cons w ws ih => exact ih (P.good_apply hg ho.1) ho.2

theorem ownsAll_evolves {L : List Obj} {v v' : Db} {ws : List Write} (he : P.Evolves L v v')
    (ho : P.OwnsAll L v ws) : P.OwnsAll L v' ws := by
  induction ws generalizing v v' with
  | nil => trivial
  | cons w ws ih => exact ⟨P.owns_evolves he ho.1, ih (P.apply_evolves he ho.1) ho.2⟩

theorem view_evolves {L : List Obj} {v v' : Db} {ws : List Write} (he : P.Evolves L v v')
    (ho : P.OwnsAll L v ws) : P.Evolves L (E.view v ws) (E.view v' ws) := by
  induction ws generalizing v v' with
  | nil => exact he
  | cons w ws ih => exact ih (P.apply_evolves he ho.1) ho.2

/-- A commit disturbs nobody whose locks are disjoint from the committer's. -/
theorem commit_evolves {L L' : List Obj} {v : Db} {ws : List Write} (hg : P.Good L v)
    (ho : P.OwnsAll L v ws) (hd : ∀ o ∈ L, o ∉ L') : P.Evolves L' v (E.view v ws) := by
  induction ws generalizing v with
  | nil => exact P.evolves_refl _ _
  | cons w ws ih =>
    exact P.evolves_trans (P.interferes hg ho.1 hd) (ih (P.good_apply hg ho.1) ho.2)

end Rely

section Condition

/-- The statement comes out the same whatever others do. -/
def Steady (L : List Obj) (v : Db) (s : Stmt) (d : Draw Time Id)
    (k : Reply s → Prog Reply Err α) : Prop :=
  ∀ v', P.Evolves L v v' → E.next v' d s k = E.next v d s k

/-- No continuation of the program returns. -/
def GivenUp : Prog Reply Err α → Prop
  | .ret _ => False
  | .fail e => P.Lost e
  | .op s k => P.Probe s ∧ ∀ r, GivenUp (k r)

def Disciplined (Q : List Obj → Db → α → Prop) : Prog Reply Err α → List Obj → Db → Prop
  | .ret a, L, v => ∀ v', P.Good L v' → P.Evolves L v v' → Q L v' a
  | .fail e, _, _ => P.Throws e
  | .op s k, L, v => ∀ v', P.Good L v' → P.Evolves L v v' → ∀ d,
      P.Permits s ∧ (∀ o ∈ E.wants s v' d, o ∈ L ∨ ∀ o' ∈ L, P.Before o' o) ∧
      match E.exec s v' d with
      | .ok (r, ws) =>
        (P.Steady (E.wants s v' d ++ L) v' s d k ∨ P.GivenUp (k r)) ∧
        P.OwnsAll (E.wants s v' d ++ L) v' ws ∧
        Disciplined Q (k r) (E.wants s v' d ++ L) (E.view v' ws)
      | .error e => (P.Steady (E.wants s v' d ++ L) v' s d k ∨ P.Lost e) ∧ P.Throws e

theorem Steady.mono {L L' : List Obj} {v : Db} {s : Stmt} {d : Draw Time Id}
    {k : Reply s → Prog Reply Err α} (h : P.Steady L v s d k) (hL : L ⊆ L') :
    P.Steady L' v s d k :=
  fun v' he => h v' (P.evolves_anti hL he)

theorem Steady.evolves {L : List Obj} {v v' : Db} {s : Stmt} {d : Draw Time Id}
    {k : Reply s → Prog Reply Err α} (h : P.Steady L v s d k) (he : P.Evolves L v v') :
    P.Steady L v' s d k :=
  fun v'' he' => (h v'' (P.evolves_trans he he')).trans (h v' he).symm

theorem Steady.bind {L : List Obj} {v : Db} {s : Stmt} {d : Draw Time Id}
    {k : Reply s → Prog Reply Err α} (h : P.Steady L v s d k) (f : α → Prog Reply Err β) :
    P.Steady L v s d (fun r => k r >>= f) := by
  intro v' he
  have hn := h v' he
  have lift (u : Db) : E.next u d s (fun r => k r >>= f) =
      ((E.next u d s k).1 >>= f, (E.next u d s k).2) := by
    simp only [Engine.next]
    split <;> rfl
  rw [lift, lift, hn]

theorem givenUp_bind {p : Prog Reply Err α} (h : P.GivenUp p) (f : α → Prog Reply Err β) :
    P.GivenUp (p >>= f) := by
  induction p with
  | ret a => exact h.elim
  | fail e => exact h
  | op s k ih => exact ⟨h.1, fun r => ih r (h.2 r)⟩

theorem Disciplined.evolves {Q : List Obj → Db → α → Prop} {p : Prog Reply Err α}
    {L : List Obj} {v v' : Db} (h : P.Disciplined Q p L v) (he : P.Evolves L v v') :
    P.Disciplined Q p L v' := by
  cases p with
  | ret a => exact fun v'' hg he' => h v'' hg (P.evolves_trans he he')
  | fail e => exact h
  | op s k => exact fun v'' hg he' => h v'' hg (P.evolves_trans he he')

/-- The rule of composition: the rest of the program may assume what its first
part establishes. -/
theorem Disciplined.bind {Q : List Obj → Db → α → Prop} {R : List Obj → Db → β → Prop}
    {p : Prog Reply Err α} {f : α → Prog Reply Err β} {L : List Obj} {v : Db}
    (hg : P.Good L v) (hp : P.Disciplined Q p L v)
    (hf : ∀ L' v' a, L ⊆ L' → P.Good L' v' → Q L' v' a → P.Disciplined R (f a) L' v') :
    P.Disciplined R (p >>= f) L v := by
  induction p generalizing L v with
  | ret a => exact hf L v a (List.Subset.refl L) hg (hp v hg (P.evolves_refl L v))
  | fail e => exact hp
  | op s k ih =>
    intro v' hg' he d
    obtain ⟨hperm, hord, hex⟩ := hp v' hg' he d
    refine ⟨hperm, hord, ?_⟩
    cases hx : E.exec s v' d with
    | error e =>
      simp only [hx] at hex ⊢
      exact ⟨hex.1.imp_left (fun h => h.bind P f), hex.2⟩
    | ok out =>
      obtain ⟨r, ws⟩ := out
      simp only [hx] at hex ⊢
      obtain ⟨hst, how, hk⟩ := hex
      have hsub : L ⊆ E.wants s v' d ++ L := List.subset_append_right _ _
      have hgv := P.good_view (P.good_mono hsub hg') how
      exact ⟨hst.imp (fun h => h.bind P f) (fun h => P.givenUp_bind h f), how,
        ih r hgv hk (fun L' u a hL => hf L' u a (List.Subset.trans hsub hL))⟩

/-- What neither the others nor the statements of `p` disturb still holds when `p`
returns. -/
theorem Disciplined.frame {Q : List Obj → Db → α → Prop} {F : List Obj → Db → Prop}
    {S : Stmt → Prop} {p : Prog Reply Err α} {L : List Obj} {v : Db}
    (hev : ∀ {L v v'}, P.Good L v' → P.Evolves L v v' → F L v → F L v')
    (hst : ∀ {s L v d r ws}, S s → E.exec s v d = .ok (r, ws) → F L v →
      F (E.wants s v d ++ L) (E.view v ws))
    (hS : p.Issues S) (hp : P.Disciplined Q p L v) (hF : F L v) :
    P.Disciplined (fun L' v' a => Q L' v' a ∧ F L' v') p L v := by
  induction p generalizing L v with
  | ret a => exact fun v' hg' he => ⟨hp v' hg' he, hev hg' he hF⟩
  | fail e => exact hp
  | op s k ih =>
    intro v' hg' he d
    obtain ⟨hperm, hord, hex⟩ := hp v' hg' he d
    refine ⟨hperm, hord, ?_⟩
    cases hx : E.exec s v' d with
    | error e => simpa only [hx] using hex
    | ok out =>
      obtain ⟨r, ws⟩ := out
      simp only [hx] at hex ⊢
      exact ⟨hex.1, hex.2.1, ih r (hS.2 r) hex.2.2 (hst hS.1 hx (hev hg' he hF))⟩

/-- A statement that takes its locks and reads only what they protect. -/
theorem Disciplined.locked {Q : List Obj → Db → α → Prop} {s : Stmt}
    {k : Reply s → Prog Reply Err α} {L : List Obj} {v : Db} (hp : P.Permits s)
    (hl : ∀ v' d, P.Good L v' → P.Evolves L v v' →
      ∀ o ∈ E.wants s v' d, o ∈ L ∨ ∀ o' ∈ L, P.Before o' o)
    (hs : ∀ v' d, P.Good L v' → P.Evolves L v v' → ∀ v'', P.Evolves (E.wants s v' d ++ L) v' v'' →
      E.exec s v'' d = E.exec s v' d)
    (hok : ∀ v' d r ws, P.Good L v' → P.Evolves L v v' → E.exec s v' d = .ok (r, ws) →
      P.OwnsAll (E.wants s v' d ++ L) v' ws ∧
        P.Disciplined Q (k r) (E.wants s v' d ++ L) (E.view v' ws))
    (herr : ∀ v' d e, P.Good L v' → P.Evolves L v v' → E.exec s v' d = .error e → P.Throws e) :
    P.Disciplined Q (.op s k) L v := by
  intro v' hg he d
  refine ⟨hp, hl v' d hg he, ?_⟩
  have hst : P.Steady (E.wants s v' d ++ L) v' s d k := fun v'' he' => by
    simp only [Engine.next, hs v' d hg he v'' he']
  cases hx : E.exec s v' d with
  | error e => exact ⟨Or.inl hst, herr v' d e hg he hx⟩
  | ok out => exact ⟨Or.inl hst, hok v' d out.1 out.2 hg he hx⟩

/-- A statement that reads only what the locks already held protect: it may be
judged on the present view. -/
theorem Disciplined.settled {Q : List Obj → Db → α → Prop} {s : Stmt}
    {k : Reply s → Prog Reply Err α} {L : List Obj} {v : Db} (hp : P.Permits s)
    (hs : ∀ v' d, P.Evolves L v v' →
      E.exec s v' d = E.exec s v d ∧ E.wants s v' d = E.wants s v d)
    (hl : ∀ d, E.wants s v d ⊆ L)
    (hok : ∀ d r ws, E.exec s v d = .ok (r, ws) → P.OwnsAll (E.wants s v d ++ L) v ws ∧
      P.Disciplined Q (k r) (E.wants s v d ++ L) (E.view v ws))
    (herr : ∀ d e, E.exec s v d = .error e → P.Throws e) : P.Disciplined Q (.op s k) L v := by
  intro v' hg he d
  obtain ⟨hx', hw'⟩ := hs v' d he
  rw [hw']
  refine ⟨hp, fun o ho => Or.inl (hl d ho), ?_⟩
  have hst : P.Steady (E.wants s v d ++ L) v' s d k := fun v'' he' => by
    have he'' := P.evolves_anti (List.subset_append_right _ _) he'
    simp only [Engine.next, hx', (hs v'' d (P.evolves_trans he he'')).1]
  rw [hx']
  cases hx : E.exec s v d with
  | error e => exact ⟨Or.inl hst, herr d e hx⟩
  | ok out =>
    obtain ⟨how, hk⟩ := hok d out.1 out.2 hx
    have hlock : P.Evolves (E.wants s v d ++ L) v v' :=
      P.evolves_anti (List.append_subset.2 ⟨hl d, List.Subset.refl L⟩) he
    exact ⟨Or.inl hst, P.ownsAll_evolves hlock how, hk.evolves P (P.view_evolves hlock how)⟩

end Condition

end Protocol
end Txn
