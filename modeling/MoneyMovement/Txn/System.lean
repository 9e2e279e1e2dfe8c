import MoneyMovement.Txn.Program
import Mathlib.Order.Lattice

/-!
# Concurrent transactions over one committed database

Any number of calls run their programs in small steps, in any order. A step
issues one statement on the latest committed database seen through the
transaction's own changes, and waits while another open transaction holds a
lock it needs. Locks are kept until the transaction ends; committing applies
its changes, failing drops them. The log lists the ends in order.
-/

namespace Txn

variable {Stmt : Type} {Reply : Stmt → Type} {Db Write Err Time Id Obj Ext : Type}

structure Tx (E : Engine Reply Db Write Err Time Id Obj Ext) (Call α : Type) where
  call : Call
  rest : Prog Reply Err α
  writes : List Write
  held : List Obj
  draws : List (Draw Time Id)

/-- A call whose transaction has ended, with the draws its statements got. -/
structure Ended (E : Engine Reply Db Write Err Time Id Obj Ext) (Call α : Type) where
  call : Call
  draws : List (Draw Time Id)
  outcome : Except Err α

inductive Event (E : Engine Reply Db Write Err Time Id Obj Ext) (Call α : Type) where
  | ended (e : Ended E Call α)
  | killed (c : Call)
  | external (x : Ext)

structure Sys (E : Engine Reply Db Write Err Time Id Obj Ext) (Call α : Type) where
  db : Db
  clock : Time
  txs : List (Option (Tx E Call α))
  log : List (Event E Call α)

inductive Label (Call Time Id Ext : Type) where
  | tick (t : Time)
  | start (c : Call)
  | step (i : ℕ) (id : Id)
  | finish (i : ℕ)
  /-- The store rolls an open transaction back: a timeout or a lost connection. -/
  | kill (i : ℕ)
  | external (x : Ext)

variable {E : Engine Reply Db Write Err Time Id Obj Ext} {Call α : Type}

def Tx.fresh (body : Call → Prog Reply Err α) (c : Call) : Tx E Call α := ⟨c, body c, [], [], []⟩

def Tx.after (t : Tx E Call α) (db : Db) (d : Draw Time Id) (st : Stmt)
    (k : Reply st → Prog Reply Err α) : Tx E Call α :=
  let v := E.view db t.writes
  { call := t.call
    rest := (E.next v d st k).1
    writes := t.writes ++ (E.next v d st k).2
    held := E.wants st v d ++ t.held
    draws := t.draws ++ [d] }

def Event.ended? : Event E Call α → Option (Ended E Call α)
  | .ended e => some e
  | _ => none

namespace Sys

/-- The open transaction of the call started `i`-th, if it has not ended. -/
def tx (s : Sys E Call α) (i : ℕ) : Option (Tx E Call α) := s.txs[i]?.join

def held (s : Sys E Call α) (i : ℕ) : List Obj :=
  match s.tx i with
  | some t => t.held
  | none => []

def Free (s : Sys E Call α) (i : ℕ) (os : List Obj) : Prop :=
  ∀ j < s.txs.length, j ≠ i → ∀ o ∈ os, o ∉ s.held j

instance [DecidableEq Obj] (s : Sys E Call α) (i : ℕ) (os : List Obj) : Decidable (s.Free i os) :=
  inferInstanceAs (Decidable (∀ j < s.txs.length, j ≠ i → ∀ o ∈ os, o ∉ s.held j))

def put (s : Sys E Call α) (i : ℕ) (t : Tx E Call α) : Sys E Call α :=
  { s with txs := s.txs.set i (some t) }

def close (s : Sys E Call α) (i : ℕ) (db : Db) (e : Event E Call α) : Sys E Call α :=
  { s with db := db, txs := s.txs.set i none, log := s.log ++ [e] }

def ended (s : Sys E Call α) : List (Ended E Call α) := s.log.filterMap Event.ended?

section Step

variable [DecidableEq Obj] [LinearOrder Time] (body : Call → Prog Reply Err α)

def issue? (s : Sys E Call α) (i : ℕ) (id : Id) : Option (Sys E Call α) :=
  match s.tx i with
  | none => none
  | some t =>
    match t.rest with
    | .op st k =>
      let d : Draw Time Id := ⟨s.clock, id⟩
      if s.Free i (E.wants st (E.view s.db t.writes) d) then
        some (s.put i (t.after s.db d st k))
      else none
    | _ => none

def finish? (s : Sys E Call α) (i : ℕ) : Option (Sys E Call α) :=
  match s.tx i with
  | none => none
  | some t =>
    match t.rest with
    | .ret a => some (s.close i (E.view s.db t.writes) (.ended ⟨t.call, t.draws, .ok a⟩))
    | .fail e => some (s.close i s.db (.ended ⟨t.call, t.draws, .error e⟩))
    | .op _ _ => none

def step? (s : Sys E Call α) : Label Call Time Id Ext → Option (Sys E Call α)
  | .tick t => if s.clock ≤ t then some { s with clock := t } else none
  | .start c => some { s with txs := s.txs ++ [some (Tx.fresh body c)] }
  | .step i id => s.issue? i id
  | .finish i => s.finish? i
  | .kill i => (s.tx i).map (fun t => s.close i s.db (.killed t.call))
  | .external x =>
    (E.others x s.db).map (fun db' => { s with db := db', log := s.log ++ [.external x] })

inductive Did (s : Sys E Call α) : Label Call Time Id Ext → Sys E Call α → Prop
  | tick (t : Time) (h : s.clock ≤ t) : Did s (.tick t) { s with clock := t }
  | start (c : Call) : Did s (.start c) { s with txs := s.txs ++ [some (Tx.fresh body c)] }
  | step (i : ℕ) (id : Id) (t : Tx E Call α) (st : Stmt) (k : Reply st → Prog Reply Err α)
      (ht : s.tx i = some t) (hr : t.rest = .op st k)
      (hf : s.Free i (E.wants st (E.view s.db t.writes) ⟨s.clock, id⟩)) :
      Did s (.step i id) (s.put i (t.after s.db ⟨s.clock, id⟩ st k))
  | commit (i : ℕ) (t : Tx E Call α) (a : α) (ht : s.tx i = some t) (hr : t.rest = .ret a) :
      Did s (.finish i) (s.close i (E.view s.db t.writes) (.ended ⟨t.call, t.draws, .ok a⟩))
  | rollback (i : ℕ) (t : Tx E Call α) (e : Err) (ht : s.tx i = some t) (hr : t.rest = .fail e) :
      Did s (.finish i) (s.close i s.db (.ended ⟨t.call, t.draws, .error e⟩))
  | kill (i : ℕ) (t : Tx E Call α) (ht : s.tx i = some t) :
      Did s (.kill i) (s.close i s.db (.killed t.call))
  | external (x : Ext) (db' : Db) (h : E.others x s.db = some db') :
      Did s (.external x) { s with db := db', log := s.log ++ [.external x] }

theorem step?_did {s s' : Sys E Call α} {l : Label Call Time Id Ext}
    (h : s.step? body l = some s') : Did body s l s' := by
  cases l with
  | tick t =>
    simp only [step?] at h
    split at h
    · next hle =>
      cases h
      exact .tick t hle
    · cases h
  | start c =>
    cases h
    exact .start c
  | step i id =>
    simp only [step?, issue?] at h
    split at h
    · cases h
    · next t ht =>
      split at h
      · next st k hr =>
        split at h
        · next hf =>
          cases h
          exact .step i id t st k ht hr hf
        · cases h
      · cases h
  | finish i =>
    simp only [step?, finish?] at h
    split at h
    · cases h
    · next t ht =>
      split at h
      · next a hr =>
        cases h
        exact .commit i t a ht hr
      · next e hr =>
        cases h
        exact .rollback i t e ht hr
      · cases h
  | kill i =>
    simp only [step?, Option.map_eq_some_iff] at h
    obtain ⟨t, ht, rfl⟩ := h
    exact .kill i t ht
  | external x =>
    simp only [step?, Option.map_eq_some_iff] at h
    obtain ⟨db', hx, rfl⟩ := h
    exact .external x db' hx

def run (s : Sys E Call α) : List (Label Call Time Id Ext) → Option (Sys E Call α)
  | [] => some s
  | l :: ls => (s.step? body l).bind (fun s' => run s' ls)

inductive Reach (ok : Sys E Call α → Label Call Time Id Ext → Prop) (s₀ : Sys E Call α) :
    Sys E Call α → Prop
  | refl : Reach ok s₀ s₀
  | tail {s s' : Sys E Call α} (l : Label Call Time Id Ext) : Reach ok s₀ s → ok s l →
      s.step? body l = some s' → Reach ok s₀ s'

theorem Reach.mono {ok ok' : Sys E Call α → Label Call Time Id Ext → Prop} {s₀ s : Sys E Call α}
    (h : Reach body ok s₀ s) (hok : ∀ s l, ok s l → ok' s l) : Reach body ok' s₀ s := by
  induction h with
  | refl => exact .refl
  | tail l _ ho hs ih => exact ih.tail l (hok _ l ho) hs

theorem Reach.head {ok : Sys E Call α → Label Call Time Id Ext → Prop} {s₀ s₁ s : Sys E Call α}
    {l : Label Call Time Id Ext} (ho : ok s₀ l) (hs : s₀.step? body l = some s₁)
    (h : Reach body ok s₁ s) : Reach body ok s₀ s := by
  induction h with
  | refl => exact .tail l .refl ho hs
  | tail l' _ ho' hs' ih => exact ih.tail l' ho' hs'

theorem Reach.trans {ok : Sys E Call α → Label Call Time Id Ext → Prop} {s₀ s₁ s : Sys E Call α}
    (h₀ : Reach body ok s₀ s₁) (h : Reach body ok s₁ s) : Reach body ok s₀ s := by
  induction h with
  | refl => exact h₀
  | tail l _ ho hs ih => exact ih.tail l ho hs

theorem reach_of_run {ok : Sys E Call α → Label Call Time Id Ext → Prop}
    {ls : List (Label Call Time Id Ext)} {s₀ s : Sys E Call α} (h : s₀.run body ls = some s)
    (hok : ∀ s, ∀ l ∈ ls, ok s l) : Reach body ok s₀ s := by
  induction ls generalizing s₀ with
  | nil =>
    cases h
    exact .refl
  | cons l ls ih =>
    obtain ⟨s₁, hs, hrest⟩ := Option.bind_eq_some_iff.1 h
    exact .head body (hok s₀ l List.mem_cons_self) hs
      (ih hrest (fun s l' hl => hok s l' (List.mem_cons_of_mem _ hl)))

end Step

section Access

@[simp] theorem put_db (s : Sys E Call α) (i : ℕ) (t : Tx E Call α) : (s.put i t).db = s.db := rfl

@[simp] theorem put_log (s : Sys E Call α) (i : ℕ) (t : Tx E Call α) :
    (s.put i t).log = s.log := rfl

@[simp] theorem put_clock (s : Sys E Call α) (i : ℕ) (t : Tx E Call α) :
    (s.put i t).clock = s.clock := rfl

@[simp] theorem close_db (s : Sys E Call α) (i : ℕ) (db : Db) (e : Event E Call α) :
    (s.close i db e).db = db := rfl

@[simp] theorem close_log (s : Sys E Call α) (i : ℕ) (db : Db) (e : Event E Call α) :
    (s.close i db e).log = s.log ++ [e] := rfl

@[simp] theorem close_clock (s : Sys E Call α) (i : ℕ) (db : Db) (e : Event E Call α) :
    (s.close i db e).clock = s.clock := rfl

theorem ended_snoc (log : List (Event E Call α)) (e : Event E Call α) :
    (log ++ [e]).filterMap Event.ended? = log.filterMap Event.ended? ++ e.ended?.toList := by
  rw [List.filterMap_append]
  cases e <;> rfl

theorem mem_ended_snoc {log : List (Event E Call α)} {e : Event E Call α} {x : Ended E Call α} :
    x ∈ (log ++ [e]).filterMap Event.ended? ↔ x ∈ log.filterMap Event.ended? ∨ x ∈ e.ended? := by
  rw [ended_snoc, List.mem_append, Option.mem_toList]
  exact Iff.rfl

theorem lt_of_tx {s : Sys E Call α} {i : ℕ} {t : Tx E Call α} (h : s.tx i = some t) :
    i < s.txs.length := by
  by_contra hn
  simp [tx, List.getElem?_eq_none (Nat.le_of_not_lt hn)] at h

theorem tx_put_self {s : Sys E Call α} {i : ℕ} {t₀ t : Tx E Call α} (h : s.tx i = some t₀) :
    (s.put i t).tx i = some t := by
  simp [tx, put, lt_of_tx h]

theorem tx_put_ne {s : Sys E Call α} {i j : ℕ} {t : Tx E Call α} (h : j ≠ i) :
    (s.put i t).tx j = s.tx j := by
  simp [tx, put, h.symm]

theorem tx_close_self (s : Sys E Call α) (i : ℕ) (db : Db) (e : Event E Call α) :
    (s.close i db e).tx i = none := by
  simp only [tx, close, List.getElem?_set_self']
  cases s.txs[i]? <;> rfl

theorem tx_close_ne {s : Sys E Call α} {i j : ℕ} {db : Db} {e : Event E Call α} (h : j ≠ i) :
    (s.close i db e).tx j = s.tx j := by
  simp [tx, close, h.symm]

/-- An open transaction after `i` has closed was open before. -/
theorem tx_of_close {s : Sys E Call α} {i j : ℕ} {db : Db} {e : Event E Call α} {t : Tx E Call α}
    (h : (s.close i db e).tx j = some t) : j ≠ i ∧ s.tx j = some t := by
  by_cases hj : j = i
  · subst hj
    rw [tx_close_self] at h
    cases h
  · exact ⟨hj, by rwa [tx_close_ne hj] at h⟩

/-- An open transaction after a start is the new one or was open before. -/
theorem tx_of_start {s : Sys E Call α} {j : ℕ} {t u : Tx E Call α}
    (h : ({ s with txs := s.txs ++ [some u] } : Sys E Call α).tx j = some t) :
    (j = s.txs.length ∧ t = u) ∨ s.tx j = some t := by
  simp only [tx, List.getElem?_append] at h
  split at h
  · exact Or.inr h
  · next hj =>
    rcases Nat.eq_zero_or_pos (j - s.txs.length) with hz | hp
    · rw [hz] at h
      simp only [List.getElem?_cons_zero, Option.join_some, Option.some.injEq] at h
      exact Or.inl ⟨by omega, h.symm⟩
    · rw [List.getElem?_eq_none (by simp; omega)] at h
      cases h

theorem held_of_tx {s : Sys E Call α} {i : ℕ} {t : Tx E Call α} (h : s.tx i = some t) :
    s.held i = t.held := by
  simp only [held, h]

end Access

section Follow

variable [DecidableEq Obj] [LinearOrder Time] {body : Call → Prog Reply Err α}

/-- What the steps of a transaction keep, it has in every run from its start on. -/
theorem tx_reach {P : Tx E Call α → Prop} {ok : Sys E Call α → Label Call Time Id Ext → Prop}
    {s₀ s : Sys E Call α} {i : ℕ} {t₀ : Tx E Call α}
    (hstep : ∀ s id t st k, Sys.Reach body ok s₀ s → ok s (.step i id) → t.rest = .op st k → P t →
      P (t.after s.db ⟨s.clock, id⟩ st k))
    (ht₀ : s₀.tx i = some t₀) (h₀ : P t₀) (h : Sys.Reach body ok s₀ s) :
    i < s.txs.length ∧ ∀ t, s.tx i = some t → t.call = t₀.call ∧ P t := by
  induction h with
  | refl =>
    refine ⟨lt_of_tx ht₀, fun t ht => ?_⟩
    obtain rfl := Option.some.inj (ht₀.symm.trans ht)
    exact ⟨rfl, h₀⟩
  | tail l hreach hl hs ih =>
    obtain ⟨hlen, hall⟩ := ih
    cases step?_did body hs with
    | tick now hle => exact ⟨hlen, hall⟩
    | start c =>
      refine ⟨by simp only [List.length_append]; omega, fun t ht => ?_⟩
      rcases tx_of_start ht with ⟨hi, -⟩ | ht
      · omega
      · exact hall t ht
    | step j id u st k hu hr hf =>
      refine ⟨by simpa [put] using hlen, fun t ht => ?_⟩
      by_cases hij : i = j
      · subst hij
        rw [tx_put_self hu, Option.some.injEq] at ht
        subst ht
        obtain ⟨hc, hP⟩ := hall u hu
        exact ⟨hc, hstep _ id u st k hreach hl hr hP⟩
      · rw [tx_put_ne hij] at ht
        exact hall t ht
    | commit j u a hu hr =>
      exact ⟨by simpa [close] using hlen, fun t ht => hall t (tx_of_close ht).2⟩
    | rollback j u e hu hr =>
      exact ⟨by simpa [close] using hlen, fun t ht => hall t (tx_of_close ht).2⟩
    | kill j u hu =>
      exact ⟨by simpa [close] using hlen, fun t ht => hall t (tx_of_close ht).2⟩
    | external x db' hx => exact ⟨hlen, hall⟩

end Follow

section Admitted

/-- What is asked of each call when it starts, and of each external change, holds of
those that are open and those in the log. -/
structure Admitted (P : Call → Prop) (Q : Ext → Prop) (s : Sys E Call α) : Prop where
  «open» : ∀ i t, s.tx i = some t → P t.call
  ended : ∀ e ∈ s.ended, P e.call
  external : ∀ x, Event.external x ∈ s.log → Q x

variable {P : Call → Prop} {Q : Ext → Prop} {s s' : Sys E Call α}

theorem Admitted.close (h : s.Admitted P Q) {i : ℕ} {db : Db} {e : Event E Call α}
    (he : ∀ e' ∈ e.ended?, P e'.call) (hx : ∀ x, Event.external x = e → Q x) :
    (s.close i db e).Admitted P Q where
  «open» j t ht := h.open j t (tx_of_close ht).2
  ended e' hm := (mem_ended_snoc.1 hm).elim (h.ended e') (he e')
  external x hm := by
    rcases List.mem_append.1 hm with hm | hm
    · exact h.external x hm
    · exact hx x (List.mem_singleton.1 hm)

variable [DecidableEq Obj] [LinearOrder Time] {body : Call → Prog Reply Err α}

theorem Admitted.step {l : Label Call Time Id Ext} (h : s.Admitted P Q)
    (hP : ∀ c, l = .start c → P c) (hQ : ∀ x, l = .external x → Q x)
    (hs : s.step? body l = some s') : s'.Admitted P Q := by
  cases step?_did body hs with
  | tick t hle => exact ⟨h.open, h.ended, h.external⟩
  | start c =>
    refine ⟨fun j u hu => ?_, h.ended, h.external⟩
    rcases tx_of_start hu with ⟨-, rfl⟩ | hu
    · exact hP c rfl
    · exact h.open j u hu
  | step i id t st k ht hr hf =>
    refine ⟨fun j u hu => ?_, h.ended, h.external⟩
    by_cases hj : j = i
    · subst hj
      rw [tx_put_self ht, Option.some.injEq] at hu
      subst hu
      exact h.open j t ht
    · rw [tx_put_ne hj] at hu
      exact h.open j u hu
  | commit i t a ht hr =>
    exact h.close (fun e' he' => by cases he'; exact h.open i t ht) (fun x hx => by cases hx)
  | rollback i t e ht hr =>
    exact h.close (fun e' he' => by cases he'; exact h.open i t ht) (fun x hx => by cases hx)
  | kill i t ht => exact h.close (fun e' he' => by cases he') (fun x hx => by cases hx)
  | external x db' hx =>
    refine ⟨h.open, fun e he => h.ended e ?_, fun y hy => ?_⟩
    · simpa [Sys.ended, ended_snoc, Event.ended?] using he
    · rcases List.mem_append.1 hy with hy | hy
      · exact h.external y hy
      · cases List.mem_singleton.1 hy
        exact hQ x rfl

theorem Admitted.reach {ok : Sys E Call α → Label Call Time Id Ext → Prop} {s₀ : Sys E Call α}
    (hP : ∀ s c, ok s (.start c) → P c) (hQ : ∀ s x, ok s (.external x) → Q x)
    (h₀ : s₀.Admitted P Q) (h : Sys.Reach body ok s₀ s) : s.Admitted P Q := by
  induction h with
  | refl => exact h₀
  | tail l _ hl hs ih =>
    refine ih.step (fun c hc => ?_) (fun x hx => ?_) hs
    · subst hc
      exact hP _ c hl
    · subst hx
      exact hQ _ x hl

end Admitted

end Sys
end Txn
