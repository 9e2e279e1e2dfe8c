import MoneyMovement.Txn.Program
import Mathlib.Data.List.Induction
import Mathlib.Data.List.Pairwise
import Mathlib.Order.Lattice

/-!
# Calls whose statements commit one by one

Any number of calls run their programs in any order, and each statement is an
atomic step on the shared database. The past lists the statements carried out,
with their replies; `said` is what one call has been told so far.
-/

namespace Txn

/-- What a statement replies and leaves behind; a failed one changes nothing. -/
abbrev Atomic {Stmt : Type} (Reply : Stmt → Type) (Db Err Time Id : Type) :=
  (s : Stmt) → Db → Draw Time Id → Except Err (Reply s × Db)

abbrev Exchange {Stmt : Type} (Reply : Stmt → Type) := Σ s, Reply s

/-- The statement `stmt` of the call started as number `caller` was carried out. -/
structure Done {Stmt : Type} (Reply : Stmt → Type) (Time Id : Type) where
  caller : ℕ
  stmt : Stmt
  reply : Reply stmt
  draw : Draw Time Id

structure Proc {Stmt : Type} (Reply : Stmt → Type) (Err Call α : Type) where
  call : Call
  rest : Prog Reply Err α

structure Calls {Stmt : Type} (Reply : Stmt → Type) (Db Err Time Id Call α : Type) where
  db : Db
  clock : Time
  procs : List (Proc Reply Err Call α)
  past : List (Done Reply Time Id)

inductive Turn (Call Time Id : Type) where
  | tick (t : Time)
  | start (c : Call)
  | step (i : ℕ) (id : Id)

variable {Stmt : Type} {Reply : Stmt → Type} {Db Err Time Id Call α : Type}

namespace Prog

/-- Whatever it is told, the program only comes to points that `P` allows after what
has been said. -/
def Always (P : List (Exchange Reply) → Prog Reply Err α → Prop) :
    List (Exchange Reply) → Prog Reply Err α → Prop
  | said, .ret a => P said (.ret a)
  | _, .fail _ => True
  | said, .op s k => P said (.op s k) ∧ ∀ r, Always P (said ++ [⟨s, r⟩]) (k r)

def result? : Prog Reply Err α → Option α
  | .ret a => some a
  | _ => none

theorem result?_eq_some {p : Prog Reply Err α} {a : α} (h : p.result? = some a) : p = .ret a := by
  cases p with
  | ret b => rw [Option.some.inj h]
  | fail e => cases h
  | op s k => cases h

theorem Always.here {P : List (Exchange Reply) → Prog Reply Err α → Prop}
    {said : List (Exchange Reply)} {p : Prog Reply Err α} (h : p.Always P said)
    (hp : ∀ e, p ≠ .fail e) : P said p := by
  cases p with
  | ret a => exact h
  | fail e => exact (hp e rfl).elim
  | op s k => exact h.1

end Prog

namespace Calls

def initial (db : Db) (clock : Time) : Calls Reply Db Err Time Id Call α := ⟨db, clock, [], []⟩

def talk (past : List (Done Reply Time Id)) (i : ℕ) : List (Exchange Reply) :=
  past.filterMap (fun e => if e.caller = i then some ⟨e.stmt, e.reply⟩ else none)

def said (s : Calls Reply Db Err Time Id Call α) (i : ℕ) : List (Exchange Reply) := talk s.past i

def returned? (s : Calls Reply Db Err Time Id Call α) (i : ℕ) : Option (Call × α) :=
  s.procs[i]?.bind (fun p => p.rest.result?.map (p.call, ·))

/-- What has been carried out since the last entry that satisfies `p`, the latest first. -/
def sinceLast (p : Done Reply Time Id → Prop) [DecidablePred p] (past : List (Done Reply Time Id)) :
    List (Done Reply Time Id) :=
  past.reverse.takeWhile (fun e => ¬ p e)

theorem proc_of_returned {s : Calls Reply Db Err Time Id Call α} {i : ℕ} {c : Call} {a : α}
    (h : s.returned? i = some (c, a)) : s.procs[i]? = some ⟨c, .ret a⟩ := by
  obtain ⟨⟨c', rest⟩, hp, hr⟩ := Option.bind_eq_some_iff.1 h
  obtain ⟨a', hr, heq⟩ := Option.map_eq_some_iff.1 hr
  obtain rfl := Prog.result?_eq_some hr
  cases heq
  exact hp

section Step

variable [LinearOrder Time] (exec : Atomic Reply Db Err Time Id) (body : Call → Prog Reply Err α)

def issue? (s : Calls Reply Db Err Time Id Call α) (i : ℕ) (id : Id) :
    Option (Calls Reply Db Err Time Id Call α) :=
  match s.procs[i]? with
  | none => none
  | some p =>
    match p.rest with
    | .op st k =>
      let d : Draw Time Id := ⟨s.clock, id⟩
      match exec st s.db d with
      | .ok (r, db') => some { s with
          db := db', procs := s.procs.set i ⟨p.call, k r⟩, past := s.past ++ [⟨i, st, r, d⟩] }
      | .error e => some { s with procs := s.procs.set i ⟨p.call, .fail e⟩ }
    | _ => none

def step? (s : Calls Reply Db Err Time Id Call α) :
    Turn Call Time Id → Option (Calls Reply Db Err Time Id Call α)
  | .tick t => if s.clock ≤ t then some { s with clock := t } else none
  | .start c => some { s with procs := s.procs ++ [⟨c, body c⟩] }
  | .step i id => s.issue? exec i id

inductive Took (s : Calls Reply Db Err Time Id Call α) :
    Turn Call Time Id → Calls Reply Db Err Time Id Call α → Prop
  | tick (t : Time) (h : s.clock ≤ t) : Took s (.tick t) { s with clock := t }
  | start (c : Call) : Took s (.start c) { s with procs := s.procs ++ [⟨c, body c⟩] }
  | step (i : ℕ) (id : Id) (c : Call) (st : Stmt) (k : Reply st → Prog Reply Err α)
      (r : Reply st) (db' : Db) (hp : s.procs[i]? = some ⟨c, .op st k⟩)
      (hx : exec st s.db ⟨s.clock, id⟩ = .ok (r, db')) :
      Took s (.step i id) { s with
        db := db', procs := s.procs.set i ⟨c, k r⟩, past := s.past ++ [⟨i, st, r, ⟨s.clock, id⟩⟩] }
  | fail (i : ℕ) (id : Id) (c : Call) (st : Stmt) (k : Reply st → Prog Reply Err α) (e : Err)
      (hp : s.procs[i]? = some ⟨c, .op st k⟩) (hx : exec st s.db ⟨s.clock, id⟩ = .error e) :
      Took s (.step i id) { s with procs := s.procs.set i ⟨c, .fail e⟩ }

theorem step?_took {s s' : Calls Reply Db Err Time Id Call α} {l : Turn Call Time Id}
    (h : s.step? exec body l = some s') : Took exec body s l s' := by
  cases l with
  | tick t =>
    simp only [step?] at h
    split at h
    · next hle =>
      cases h
      exact .tick t hle
    · cases h
  | start c =>
    cases h
    exact .start c
  | step i id =>
    simp only [step?, issue?] at h
    split at h
    · cases h
    · next p hp =>
      obtain ⟨c, rest⟩ := p
      split at h
      · next st k hr =>
        obtain rfl : rest = .op st k := hr
        split at h
        · next r db' hx =>
          cases h
          exact .step i id c st k r db' hp hx
        · next e hx =>
          cases h
          exact .fail i id c st k e hp hx
      · cases h

def run (ok : Calls Reply Db Err Time Id Call α → Turn Call Time Id → Prop)
    [∀ s l, Decidable (ok s l)] (s : Calls Reply Db Err Time Id Call α) :
    List (Turn Call Time Id) → Option (Calls Reply Db Err Time Id Call α)
  | [] => some s
  | l :: ls => if ok s l then (s.step? exec body l).bind (fun s' => run ok s' ls) else none

inductive Reach (ok : Calls Reply Db Err Time Id Call α → Turn Call Time Id → Prop)
    (s₀ : Calls Reply Db Err Time Id Call α) : Calls Reply Db Err Time Id Call α → Prop
  | refl : Reach ok s₀ s₀
  | tail {s s' : Calls Reply Db Err Time Id Call α} (l : Turn Call Time Id) : Reach ok s₀ s →
      ok s l → s.step? exec body l = some s' → Reach ok s₀ s'

theorem Reach.head {ok : Calls Reply Db Err Time Id Call α → Turn Call Time Id → Prop}
    {s₀ s₁ s : Calls Reply Db Err Time Id Call α} {l : Turn Call Time Id} (ho : ok s₀ l)
    (hs : s₀.step? exec body l = some s₁) (h : Reach exec body ok s₁ s) :
    Reach exec body ok s₀ s := by
  induction h with
  | refl => exact .tail l .refl ho hs
  | tail l' _ ho' hs' ih => exact ih.tail l' ho' hs'

theorem reach_of_run {ok : Calls Reply Db Err Time Id Call α → Turn Call Time Id → Prop}
    [∀ s l, Decidable (ok s l)] {ls : List (Turn Call Time Id)}
    {s₀ s : Calls Reply Db Err Time Id Call α} (h : s₀.run exec body ok ls = some s) :
    Reach exec body ok s₀ s := by
  induction ls generalizing s₀ with
  | nil =>
    cases h
    exact .refl
  | cons l ls ih =>
    simp only [run] at h
    split at h
    · next ho =>
      obtain ⟨s₁, hs, hrest⟩ := Option.bind_eq_some_iff.1 h
      exact .head exec body ho hs (ih hrest)
    · cases h

end Step

section Talk

variable {past : List (Done Reply Time Id)} {e : Done Reply Time Id} {i : ℕ}

theorem talk_snoc : talk (past ++ [e]) i =
    if e.caller = i then talk past i ++ [⟨e.stmt, e.reply⟩] else talk past i := by
  simp only [talk, List.filterMap_append, List.filterMap_cons, List.filterMap_nil]
  split <;> simp_all

theorem talk_eq_nil (h : ∀ e ∈ past, e.caller ≠ i) : talk past i = [] := by
  simp only [talk, List.filterMap_eq_nil_iff, ite_eq_right_iff, reduceCtorEq, imp_false]
  exact h

/-- What a call has been told stands in the past. -/
theorem mem_talk {x : Exchange Reply} :
    x ∈ talk past i ↔ ∃ e ∈ past, e.caller = i ∧ (⟨e.stmt, e.reply⟩ : Exchange Reply) = x := by
  simp [talk, List.mem_filterMap]

end Talk

section Since

variable {p : Done Reply Time Id → Prop} [DecidablePred p] {past : List (Done Reply Time Id)}
  {e : Done Reply Time Id}

theorem sinceLast_snoc : sinceLast p (past ++ [e]) = if p e then [] else e :: sinceLast p past := by
  simp only [sinceLast, List.reverse_append, List.reverse_singleton, List.singleton_append,
    List.takeWhile_cons]
  by_cases he : p e
  · simp [he]
  · simp [he]

/-- The past splits at the last entry that satisfies `p`. -/
theorem split_sinceLast (h : ∃ f ∈ past, p f) :
    ∃ before f after, past = before ++ f :: after ∧ p f ∧ ∀ e ∈ after, e ∈ sinceLast p past := by
  induction past using List.reverseRecOn with
  | nil =>
    obtain ⟨f, hf, -⟩ := h
    cases hf
  | append_singleton past a ih =>
    by_cases ha : p a
    · exact ⟨past, a, [], rfl, ha, fun e he => (List.not_mem_nil he).elim⟩
    · have hex : ∃ f ∈ past, p f := by
        obtain ⟨f, hf, hpf⟩ := h
        rcases List.mem_append.1 hf with hf | hf
        · exact ⟨f, hf, hpf⟩
        · exact (ha (List.mem_singleton.1 hf ▸ hpf)).elim
      obtain ⟨before, f, after, hsplit, hpf, hafter⟩ := ih hex
      refine ⟨before, f, after ++ [a], by rw [hsplit]; simp, hpf, fun e he => ?_⟩
      rw [sinceLast_snoc, if_neg ha]
      rcases List.mem_append.1 he with he | he
      · exact List.mem_cons_of_mem _ (hafter e he)
      · rw [List.mem_singleton.1 he]
        exact List.mem_cons_self

end Since

section Follow

variable {P : Call → List (Exchange Reply) → Prog Reply Err α → Prop}

/-- Every call is where its program comes to after what it has been told. -/
structure Follows (P : Call → List (Exchange Reply) → Prog Reply Err α → Prop)
    (s : Calls Reply Db Err Time Id Call α) : Prop where
  callers : ∀ e ∈ s.past, e.caller < s.procs.length
  points : ∀ i p, s.procs[i]? = some p → Prog.Always (P p.call) (s.said i) p.rest

theorem Follows.initial (db : Db) (clock : Time) :
    Follows P (initial db clock : Calls Reply Db Err Time Id Call α) :=
  ⟨fun e he => (List.not_mem_nil he).elim, fun i p hp => by cases hp⟩

variable [LinearOrder Time] {exec : Atomic Reply Db Err Time Id} {body : Call → Prog Reply Err α}

theorem Follows.step {s s' : Calls Reply Db Err Time Id Call α} {l : Turn Call Time Id}
    (hbody : ∀ c, Prog.Always (P c) [] (body c)) (h : Follows P s)
    (hs : s.step? exec body l = some s') : Follows P s' := by
  cases step?_took exec body hs with
  | tick t hle => exact ⟨h.callers, h.points⟩
  | start c =>
    refine ⟨fun e he => ?_, fun i p hp => ?_⟩
    · have := h.callers e he
      simp only [List.length_append, List.length_singleton]
      omega
    · rcases Nat.lt_trichotomy i s.procs.length with hi | hi | hi
      · rw [List.getElem?_append_left hi] at hp
        exact h.points i p hp
      · subst hi
        rw [List.getElem?_concat_length, Option.some.injEq] at hp
        subst hp
        rw [said, talk_eq_nil (fun e he => Nat.ne_of_lt (h.callers e he))]
        exact hbody c
      · rw [List.getElem?_eq_none (by simp; omega)] at hp
        cases hp
  | step i id c st k r db' hp hx =>
    refine ⟨fun e he => ?_, fun j p hj => ?_⟩
    · rw [List.length_set]
      rcases List.mem_append.1 he with he | he
      · exact h.callers e he
      · rw [List.mem_singleton.1 he]
        exact (List.getElem?_eq_some_iff.1 hp).1
    · by_cases hij : i = j
      · subst hij
        rw [List.getElem?_set_self (List.getElem?_eq_some_iff.1 hp).1, Option.some.injEq] at hj
        subst hj
        rw [said, talk_snoc, if_pos rfl]
        exact (h.points i _ hp).2 r
      · rw [List.getElem?_set_ne hij] at hj
        rw [said, talk_snoc, if_neg hij]
        exact h.points j p hj
  | fail i id c st k e hp hx =>
    refine ⟨fun e he => by rw [List.length_set]; exact h.callers e he, fun j p hj => ?_⟩
    by_cases hij : i = j
    · subst hij
      rw [List.getElem?_set_self (List.getElem?_eq_some_iff.1 hp).1, Option.some.injEq] at hj
      subst hj
      trivial
    · rw [List.getElem?_set_ne hij] at hj
      exact h.points j p hj

end Follow

end Calls
end Txn
