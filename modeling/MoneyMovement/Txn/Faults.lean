import MoneyMovement.Txn.Program

/-!
# Faults and retries

The database may raise an error at any statement of a transaction or at its commit, and
the transaction is rolled back whole. A caller that retries tries again from there, a
bounded number of times.
-/

namespace Txn

/-- The errors the database raises in one transaction: at its statements and at its commit. -/
structure Mishaps (X : Type) where
  statement : ℕ → Option X
  commit : Option X

namespace Engine

variable {Stmt : Type} {Reply : Stmt → Type} {Db Write Err Time Id Obj Ext X α : Type}
variable (E : Engine Reply Db Write Err Time Id Obj Ext) (thrown : Err → X)

/-- Run a program with nobody else present but with mishaps, up to its commit. -/
def attempt (commit : Option X) :
    Prog Reply Err α → Db → (ℕ → Draw Time Id) → (ℕ → Option X) → Except X (α × Db)
  | .ret a, v, _, _ =>
    match commit with
    | some x => .error x
    | none => .ok (a, v)
  | .fail e, _, _, _ => .error (thrown e)
  | .op s k, v, draws, statement =>
    match statement 0 with
    | some x => .error x
    | none =>
      match E.exec s v (draws 0) with
      | .error e => .error (thrown e)
      | .ok (r, ws) =>
        attempt commit (k r) (E.view v ws) (fun n => draws (n + 1)) (fun n => statement (n + 1))

def transaction (p : Prog Reply Err α) (draws : ℕ → Draw Time Id) (m : Mishaps X) (db : Db) :
    Except X α × Db :=
  match E.attempt thrown m.commit p db draws m.statement with
  | .ok (a, db') => (.ok a, db')
  | .error x => (.error x, db)

variable {E} {thrown : Err → X}

/-- An attempt that comes through is a run without mishaps. -/
theorem returns_of_attempt {commit : Option X} {p : Prog Reply Err α} {v v' : Db}
    {draws : ℕ → Draw Time Id} {statement : ℕ → Option X} {a : α}
    (h : E.attempt thrown commit p v draws statement = .ok (a, v')) :
    ∃ n, E.Returns p v ((List.range n).map draws) a v' := by
  induction p generalizing v draws statement with
  | ret b =>
    cases commit with
    | some x => cases h
    | none =>
      cases h
      exact ⟨0, rfl, rfl, rfl⟩
  | fail e => cases h
  | op s k ih =>
    cases hs : statement 0 with
    | some x =>
      simp only [attempt, hs] at h
      cases h
    | none =>
      cases hx : E.exec s v (draws 0) with
      | error e =>
        simp only [attempt, hs, hx] at h
        cases h
      | ok out =>
        simp only [attempt, hs, hx] at h
        obtain ⟨n, hn⟩ := ih out.1 h
        refine ⟨n + 1, draws 0, (List.range n).map fun n => draws (n + 1), out.1, out.2, ?_, hx, hn⟩
        rw [List.range_succ_eq_map, List.map_cons, List.map_map]
        rfl

theorem transaction_error {p : Prog Reply Err α} {draws : ℕ → Draw Time Id} {m : Mishaps X}
    {db db' : Db} {x : X} (h : E.transaction thrown p draws m db = (.error x, db')) : db' = db := by
  unfold transaction at h
  cases ha : E.attempt thrown m.commit p db draws m.statement with
  | ok out =>
    rw [ha] at h
    cases h
  | error y =>
    rw [ha] at h
    cases h
    rfl

theorem transaction_ok {p : Prog Reply Err α} {draws : ℕ → Draw Time Id} {m : Mishaps X}
    {db db' : Db} {a : α} (h : E.transaction thrown p draws m db = (.ok a, db')) :
    ∃ n, E.Returns p db ((List.range n).map draws) a db' := by
  unfold transaction at h
  cases ha : E.attempt thrown m.commit p db draws m.statement with
  | ok out =>
    rw [ha] at h
    cases h
    exact returns_of_attempt ha
  | error y =>
    rw [ha] at h
    cases h

section Undisturbed

def refusal (E : Engine Reply Db Write Err Time Id Obj Ext) :
    Prog Reply Err α → Db → (ℕ → Draw Time Id) → Option Err
  | .ret _, _, _ => none
  | .fail e, _, _ => some e
  | .op s k, v, draws =>
    match E.exec s v (draws 0) with
    | .error e => some e
    | .ok (r, ws) => refusal E (k r) (E.view v ws) (fun n => draws (n + 1))

variable {β : Type} {p : Prog Reply Err α} {f : α → Prog Reply Err β} {v : Db}
  {draws : ℕ → Draw Time Id}

theorem refusal_ok {s : Stmt} {k : Reply s → Prog Reply Err α} {r : Reply s} {ws : List Write}
    (h : E.exec s v (draws 0) = .ok (r, ws)) :
    E.refusal (.op s k) v draws = E.refusal (k r) (E.view v ws) (fun n => draws (n + 1)) := by
  simp only [refusal, h]

theorem refusal_error {s : Stmt} {k : Reply s → Prog Reply Err α} {e : Err}
    (h : E.exec s v (draws 0) = .error e) : E.refusal (.op s k) v draws = some e := by
  simp only [refusal, h]

/-- What the first part of a program refuses the whole refuses; else the rest decides. -/
theorem refusal_bind (p : Prog Reply Err α) (f : α → Prog Reply Err β) (v : Db)
    (draws : ℕ → Draw Time Id) :
    (∃ e, E.refusal p v draws = some e ∧ E.refusal (p >>= f) v draws = some e) ∨
    ∃ n a v', E.refusal p v draws = none ∧ E.Returns p v ((List.range n).map draws) a v' ∧
      E.refusal (p >>= f) v draws = E.refusal (f a) v' (fun i => draws (i + n)) := by
  induction p generalizing v draws with
  | ret a => exact Or.inr ⟨0, a, v, rfl, ⟨rfl, rfl, rfl⟩, rfl⟩
  | fail e => exact Or.inl ⟨e, rfl, rfl⟩
  | op s k ih =>
    cases hx : E.exec s v (draws 0) with
    | error e =>
      refine Or.inl ⟨e, refusal_error hx, ?_⟩
      exact refusal_error (k := fun r => k r >>= f) hx
    | ok out =>
      have hstep : E.refusal (.op s k >>= f) v draws =
          E.refusal (k out.1 >>= f) (E.view v out.2) (fun n => draws (n + 1)) :=
        refusal_ok (k := fun r => k r >>= f) hx
      rw [hstep, refusal_ok hx]
      rcases ih out.1 (E.view v out.2) (fun n => draws (n + 1)) with
        ⟨e, hp, hbind⟩ | ⟨n, a, v', hp, hreturns, hbind⟩
      · exact Or.inl ⟨e, hp, hbind⟩
      · refine Or.inr ⟨n + 1, a, v', hp, ?_, hbind⟩
        refine ⟨draws 0, (List.range n).map fun n => draws (n + 1), out.1, out.2, ?_, hx, hreturns⟩
        rw [List.range_succ_eq_map, List.map_cons, List.map_map]
        rfl

/-- No write takes the property away. -/
def Keeps (E : Engine Reply Db Write Err Time Id Obj Ext) (F : Db → Prop) : Prop :=
  ∀ v w, F v → F (E.apply v w)

variable {F : Db → Prop}

theorem Keeps.view (hF : E.Keeps F) {v : Db} (h : F v) (ws : List Write) : F (E.view v ws) := by
  induction ws generalizing v with
  | nil => exact h
  | cons w ws ih => exact ih (hF v w h)

theorem Keeps.returns (hF : E.Keeps F) {v v' : Db} (h : F v) {ds : List (Draw Time Id)} {a : α}
    (hp : E.Returns p v ds a v') : F v' := by
  induction p generalizing v ds with
  | ret b =>
    obtain ⟨-, -, rfl⟩ := hp
    exact h
  | fail e => exact hp.elim
  | op s k ih =>
    obtain ⟨d, rest, r, ws, -, -, hk⟩ := hp
    exact ih r (hF.view h ws) hk

/-- On databases with the property the program never fails, whatever it meets. -/
def Unfailing (E : Engine Reply Db Write Err Time Id Obj Ext) (F : Db → Prop)
    (p : Prog Reply Err α) : Prop :=
  ∀ v draws, F v → E.refusal p v draws = none

theorem Unfailing.op (hF : E.Keeps F) {s : Stmt} {k : Reply s → Prog Reply Err α}
    (h : ∀ v d, F v → ∃ out, E.exec s v d = .ok out) (hk : ∀ r, E.Unfailing F (k r)) :
    E.Unfailing F (.op s k) := by
  intro v draws hv
  obtain ⟨out, hout⟩ := h v (draws 0) hv
  rw [refusal_ok hout]
  exact hk out.1 _ _ (hF.view hv out.2)

theorem Unfailing.bind (hp : E.Unfailing F p) (hF : E.Keeps F) (hf : ∀ a, E.Unfailing F (f a)) :
    E.Unfailing F (p >>= f) := by
  intro v draws hv
  rcases refusal_bind (E := E) p f v draws with ⟨e, he, -⟩ | ⟨n, a, v', -, hreturns, hbind⟩
  · exact absurd ((hp v draws hv).symm.trans he) (by simp)
  · rw [hbind]
    exact hf a v' _ (hF.returns hv hreturns)

/-- A transaction without mishaps fails as its program does, and otherwise comes through. -/
theorem attempt_refusal (thrown : Err → X) (p : Prog Reply Err α) (v : Db)
    (draws : ℕ → Draw Time Id) :
    match E.refusal p v draws with
    | some e => E.attempt thrown none p v draws (fun _ => none) = .error (thrown e)
    | none => ∃ a v', E.attempt thrown none p v draws (fun _ => none) = .ok (a, v') := by
  induction p generalizing v draws with
  | ret a => exact ⟨a, v, rfl⟩
  | fail e => exact rfl
  | op s k ih =>
    cases hx : E.exec s v (draws 0) with
    | error e =>
      rw [refusal_error hx]
      simp only [attempt, hx]
    | ok out =>
      rw [refusal_ok hx]
      simp only [attempt, hx]
      exact ih out.1 _ _

theorem transaction_refused {db : Db} {e : Err} (h : E.refusal p db draws = some e) :
    E.transaction thrown p draws ⟨fun _ => none, none⟩ db = (.error (thrown e), db) := by
  have hattempt := attempt_refusal (E := E) thrown p db draws
  rw [h] at hattempt
  simp only [transaction, hattempt]

theorem transaction_accepted {db : Db} (h : E.refusal p db draws = none) :
    ∃ a db', E.transaction thrown p draws ⟨fun _ => none, none⟩ db = (.ok a, db') := by
  have hattempt := attempt_refusal (E := E) thrown p db draws
  rw [h] at hattempt
  obtain ⟨a, db', ha⟩ := hattempt
  exact ⟨a, db', by simp only [transaction, ha]⟩

end Undisturbed

end Engine

section Retries

variable {Db X α : Type}

structure Tried (Db X α : Type) where
  /-- The errors after which there was another attempt. -/
  retried : List X
  outcome : Except X α
  db : Db

def Tried.attempts (t : Tried Db X α) : ℕ := t.retried.length + 1

/-- `for (let attempt = 1; ; attempt++)`, with the attempts left after this one. -/
def retry (retryable : X → Bool) (run : ℕ → Db → Except X α × Db) : ℕ → ℕ → Db → Tried Db X α
  | 0, attempt, db => ⟨[], (run attempt db).1, (run attempt db).2⟩
  | left + 1, attempt, db =>
    match run attempt db with
    | (.ok a, db') => ⟨[], .ok a, db'⟩
    | (.error x, db') =>
      if retryable x then
        let rest := retry retryable run left (attempt + 1) db'
        { rest with retried := x :: rest.retried }
      else ⟨[], .error x, db'⟩

variable {retryable : X → Bool} {run : ℕ → Db → Except X α × Db}

/-- What an attempt that fails leaves is what the next one finds, so all that counts is the
last attempt, on the database of the first. -/
theorem retry_spec (hrun : ∀ n db x db', run n db = (.error x, db') → db' = db) (left n : ℕ)
    (db : Db) :
    (retry retryable run left n db).retried.length ≤ left ∧
    (∀ x ∈ (retry retryable run left n db).retried, retryable x) ∧
    run (n + (retry retryable run left n db).retried.length) db =
      ((retry retryable run left n db).outcome, (retry retryable run left n db).db) := by
  have hnone : ∀ x ∈ ([] : List X), retryable x := fun x hx => (List.not_mem_nil hx).elim
  induction left generalizing n with
  | zero => exact ⟨Nat.le_refl 0, hnone, rfl⟩
  | succ left ih =>
    cases hr : run n db with
    | mk outcome db' =>
      cases outcome with
      | ok a =>
        simp only [retry, hr]
        exact ⟨Nat.zero_le _, hnone, hr⟩
      | error x =>
        obtain rfl := hrun n db x db' hr
        by_cases hx : retryable x
        · obtain ⟨hlen, hall, hlast⟩ := ih (n + 1)
          simp only [retry, hr, if_pos hx, List.length_cons]
          refine ⟨by omega, fun y hy => ?_, ?_⟩
          · rcases List.mem_cons.1 hy with rfl | hy
            · exact hx
            · exact hall y hy
          · rw [← hlast]
            congr 1
            omega
        · simp only [retry, hr, if_neg hx]
          exact ⟨Nat.zero_le _, hnone, hr⟩

end Retries

end Txn
