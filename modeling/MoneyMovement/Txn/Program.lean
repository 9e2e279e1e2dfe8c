import Mathlib.Data.List.Basic
import Mathlib.Control.Basic

/-!
# Transaction programs over a statement language

A transaction is a tree of statements: each node issues one statement and
continues with the store's reply. `Engine` says what a statement does to the
database it sees and which locks it needs; `alone` runs a whole program with
nobody else present and drops the work of a failed one.
-/

namespace Txn

inductive Prog {Stmt : Type} (Reply : Stmt → Type) (Err : Type) (α : Type) : Type where
  | ret (a : α)
  | fail (e : Err)
  | op (s : Stmt) (next : Reply s → Prog Reply Err α)

namespace Prog

variable {Stmt : Type} {Reply : Stmt → Type} {Err α β γ : Type}

def bind : Prog Reply Err α → (α → Prog Reply Err β) → Prog Reply Err β
  | .ret a, f => f a
  | .fail e, _ => .fail e
  | .op s next, f => .op s (fun r => bind (next r) f)

instance : Monad (Prog Reply Err) where
  pure := .ret
  bind := bind

/-- Whatever the replies, the program issues only such statements. -/
def Issues (S : Stmt → Prop) : Prog Reply Err α → Prop
  | .ret _ => True
  | .fail _ => True
  | .op s next => S s ∧ ∀ r, Issues S (next r)

def perform (s : Stmt) : Prog Reply Err (Reply s) := .op s .ret

@[simp] theorem pure_eq (a : α) : (pure a : Prog Reply Err α) = .ret a := rfl

@[simp] theorem ret_bind (a : α) (f : α → Prog Reply Err β) : (Prog.ret a >>= f) = f a := rfl

@[simp] theorem fail_bind (e : Err) (f : α → Prog Reply Err β) :
    (Prog.fail e >>= f) = .fail e := rfl

@[simp] theorem op_bind (s : Stmt) (next : Reply s → Prog Reply Err α)
    (f : α → Prog Reply Err β) : (Prog.op s next >>= f) = .op s (fun r => next r >>= f) := rfl

@[simp] theorem perform_bind (s : Stmt) (f : Reply s → Prog Reply Err β) :
    (perform s >>= f) = .op s f := rfl

theorem bind_assoc (p : Prog Reply Err α) (f : α → Prog Reply Err β) (g : β → Prog Reply Err γ) :
    (p >>= f >>= g) = (p >>= fun a => f a >>= g) := by
  induction p with
  | ret a => rfl
  | fail e => rfl
  | op s next ih => exact congrArg (op s) (funext ih)

theorem Issues.bind {S : Stmt → Prop} {p : Prog Reply Err α} {f : α → Prog Reply Err β}
    (hp : p.Issues S) (hf : ∀ a, (f a).Issues S) : (p >>= f).Issues S := by
  induction p with
  | ret a => exact hf a
  | fail e => trivial
  | op s next ih => exact ⟨hp.1, fun r => ih r (hp.2 r)⟩

theorem Issues.mono {S S' : Stmt → Prop} (hS : ∀ s, S s → S' s) {p : Prog Reply Err α}
    (hp : p.Issues S) : p.Issues S' := by
  induction p with
  | ret a => trivial
  | fail e => trivial
  | op s next ih => exact ⟨hS s hp.1, fun r => ih r (hp.2 r)⟩

end Prog

/-- What the environment supplies to one statement: a clock reading and an
identifier for a row it may insert. -/
structure Draw (Time Id : Type) where
  now : Time
  id : Id

structure Engine {Stmt : Type} (Reply : Stmt → Type) (Db Write Err Time Id Obj Ext : Type) where
  /-- The reply and the row changes of a statement on the database it sees. -/
  exec : (s : Stmt) → Db → Draw Time Id → Except Err (Reply s × List Write)
  apply : Db → Write → Db
  /-- The locks a statement takes on the database it sees. -/
  wants : Stmt → Db → Draw Time Id → List Obj
  /-- Changes committed by others than the modelled transactions. -/
  others : Ext → Db → Option Db

namespace Engine

variable {Stmt : Type} {Reply : Stmt → Type} {Db Write Err Time Id Obj Ext α β : Type}
variable (E : Engine Reply Db Write Err Time Id Obj Ext)

/-- A transaction sees the committed database with its own changes on top. -/
def view (db : Db) (ws : List Write) : Db := ws.foldl E.apply db

@[simp] theorem view_nil (db : Db) : E.view db [] = db := rfl

@[simp] theorem view_cons (db : Db) (w : Write) (ws : List Write) :
    E.view db (w :: ws) = E.view (E.apply db w) ws := rfl

theorem view_append (db : Db) (ws ws' : List Write) :
    E.view db (ws ++ ws') = E.view (E.view db ws) ws' := List.foldl_append

def next (v : Db) (d : Draw Time Id) (s : Stmt) (k : Reply s → Prog Reply Err α) :
    Prog Reply Err α × List Write :=
  match E.exec s v d with
  | .ok (r, ws) => (k r, ws)
  | .error e => (.fail e, [])

theorem next_ok {v : Db} {d : Draw Time Id} {s : Stmt} {k : Reply s → Prog Reply Err α}
    {r : Reply s} {ws : List Write} (h : E.exec s v d = .ok (r, ws)) :
    E.next v d s k = (k r, ws) := by
  simp only [next, h]

theorem next_error {v : Db} {d : Draw Time Id} {s : Stmt} {k : Reply s → Prog Reply Err α}
    {e : Err} (h : E.exec s v d = .error e) : E.next v d s k = (.fail e, []) := by
  simp only [next, h]

/-- Run a program with nobody else present, one draw for each statement. A
failed program leaves the database it started from. -/
def alone (base : Db) : Prog Reply Err α → Db → List (Draw Time Id) →
    Option (Except Err α × Db)
  | .ret a, v, ds => if ds.isEmpty then some (.ok a, v) else none
  | .fail e, _, ds => if ds.isEmpty then some (.error e, base) else none
  | .op s k, v, ds =>
    match ds with
    | [] => none
    | d :: rest =>
      match E.exec s v d with
      | .ok (r, ws) => alone base (k r) (E.view v ws) rest
      | .error e => if rest.isEmpty then some (.error e, base) else none

@[simp] theorem alone_ret_nil (base : Db) (a : α) (v : Db) :
    E.alone base (.ret a : Prog Reply Err α) v [] = some (.ok a, v) := rfl

@[simp] theorem alone_fail_nil (base : Db) (e : Err) (v : Db) :
    E.alone base (.fail e : Prog Reply Err α) v [] = some (.error e, base) := rfl

theorem alone_op (base : Db) (s : Stmt) (k : Reply s → Prog Reply Err α) (v : Db)
    (d : Draw Time Id) (ds : List (Draw Time Id)) :
    E.alone base (.op s k) v (d :: ds) =
      E.alone base (E.next v d s k).1 (E.view v (E.next v d s k).2) ds := by
  cases h : E.exec s v d with
  | ok r => simp only [alone, h, next]
  | error e => simp only [alone, h, next, view_nil]

def Returns : Prog Reply Err α → Db → List (Draw Time Id) → α → Db → Prop
  | .ret a, v, ds, b, v' => ds = [] ∧ b = a ∧ v' = v
  | .fail _, _, _, _, _ => False
  | .op s k, v, ds, b, v' => ∃ d rest r ws, ds = d :: rest ∧ E.exec s v d = .ok (r, ws) ∧
      Returns (k r) (E.view v ws) rest b v'

theorem returns_of_alone {base : Db} {p : Prog Reply Err α} {v v' : Db}
    {ds : List (Draw Time Id)} {a : α} (h : E.alone base p v ds = some (.ok a, v')) :
    E.Returns p v ds a v' := by
  induction p generalizing v ds with
  | ret b =>
    simp only [alone] at h
    split at h
    · next hd =>
      cases h
      exact ⟨List.isEmpty_iff.1 hd, rfl, rfl⟩
    · cases h
  | fail e =>
    simp only [alone] at h
    split at h <;> cases h
  | op s k ih =>
    cases ds with
    | nil => cases h
    | cons d rest =>
      cases hx : E.exec s v d with
      | error e =>
        simp only [alone, hx] at h
        split at h <;> cases h
      | ok out =>
        simp only [alone, hx] at h
        exact ⟨d, rest, out.1, out.2, rfl, hx, ih out.1 h⟩

theorem returns_bind {p : Prog Reply Err α} {f : α → Prog Reply Err β} {v v'' : Db}
    {ds : List (Draw Time Id)} {b : β} (h : E.Returns (p >>= f) v ds b v'') :
    ∃ ds₁ ds₂ a v', ds = ds₁ ++ ds₂ ∧ E.Returns p v ds₁ a v' ∧ E.Returns (f a) v' ds₂ b v'' := by
  induction p generalizing v ds with
  | ret a => exact ⟨[], ds, a, v, rfl, ⟨rfl, rfl, rfl⟩, h⟩
  | fail e => exact h.elim
  | op s k ih =>
    obtain ⟨d, rest, r, ws, rfl, hx, hk⟩ := h
    obtain ⟨ds₁, ds₂, a, v', rfl, h₁, h₂⟩ := ih r hk
    exact ⟨d :: ds₁, ds₂, a, v', rfl, ⟨d, ds₁, r, ws, rfl, hx, h₁⟩, h₂⟩

def serial {Call : Type} (body : Call → Prog Reply Err α) :
    Db → List (Call × List (Draw Time Id)) → Option (List (Except Err α) × Db)
  | db, [] => some ([], db)
  | db, (c, ds) :: rest =>
    match E.alone db (body c) db ds with
    | none => none
    | some (o, db') => (serial body db' rest).map (fun p => (o :: p.1, p.2))

theorem serial_snoc {Call : Type} (body : Call → Prog Reply Err α)
    (cs : List (Call × List (Draw Time Id))) (c : Call) (ds : List (Draw Time Id))
    (db db' db'' : Db) (os : List (Except Err α)) (o : Except Err α)
    (h : E.serial body db cs = some (os, db'))
    (hc : E.alone db' (body c) db' ds = some (o, db'')) :
    E.serial body db (cs ++ [(c, ds)]) = some (os ++ [o], db'') := by
  induction cs generalizing db os with
  | nil =>
    simp only [serial, Option.some.injEq, Prod.mk.injEq] at h
    obtain ⟨rfl, rfl⟩ := h
    simp only [List.nil_append, serial, hc, Option.map_some]
  | cons p cs ih =>
    obtain ⟨c₁, ds₁⟩ := p
    cases h₁ : E.alone db (body c₁) db ds₁ with
    | none => simp [serial, h₁] at h
    | some out =>
      simp only [serial, h₁, Option.map_eq_some_iff, Prod.mk.injEq] at h
      obtain ⟨p, hp, rfl, rfl⟩ := h
      simp only [List.cons_append, serial, h₁, ih out.2 p.1 hp, Option.map_some]

end Engine
end Txn
