import MoneyMovement.Txn.Reaches
import MoneyMovement.Txn.Tame

/-!
# Calls that are tried again

A call waits, runs its transaction, and is done when that has committed, when it has failed
for good, or when it was refused before. A transaction that fails or that the store rolls
back is tried again as long as the error allows it and attempts are left. Each call that is
done with a result has one commit in the log, and every commit is that of one call.
-/

namespace Txn

variable {Stmt : Type} {Reply : Stmt → Type} {Db Write Err Time Id Obj Ext : Type}

inductive TryPhase (X α : Type)
  | waiting
  | running (attempt tx : ℕ)
  | done (outcome : Except X α)

/-- A call, with the length of the log when it was submitted and the place in the log where it
has committed. -/
structure Job (Call X α : Type) where
  call : Call
  phase : TryPhase X α
  since : ℕ
  commit : Option ℕ

structure Tries (E : Engine Reply Db Write Err Time Id Obj Ext) (Call X α : Type) where
  sys : Sys E Call α
  jobs : List (Job Call X α)

inductive TryMove (Call X Time Id Ext : Type)
  | submit (c : Call)
  | refuse (i : ℕ) (x : X)
  | start (i : ℕ)
  | finish (i : ℕ)
  /-- The store rolls the transaction of the call back. -/
  | fault (i : ℕ) (x : X)
  | other (l : Label Call Time Id Ext)

structure TryRules {Stmt : Type} (Reply : Stmt → Type) (Err Call X α : Type) where
  body : Call → Prog Reply Err α
  thrown : Err → X
  attempts : Call → ℕ
  retryable : X → Bool

def Label.between {Call Time Id Ext : Type} : Label Call Time Id Ext → Bool
  | .tick _ => true
  | .step _ _ => true
  | .external _ => true
  | _ => false

variable {E : Engine Reply Db Write Err Time Id Obj Ext} {Call X α : Type}

structure Job.Kept (j j' : Job Call X α) : Prop where
  call : j'.call = j.call
  since : j'.since = j.since
  done : ∀ o, j.phase = .done o → j' = j

theorem Job.Kept.refl (j : Job Call X α) : j.Kept j := ⟨rfl, rfl, fun _ _ => rfl⟩

theorem Job.Kept.trans {j j' j'' : Job Call X α} (h : j.Kept j') (h' : j'.Kept j'') :
    j.Kept j'' where
  call := h'.call.trans h.call
  since := h'.since.trans h.since
  done o ho := by
    obtain rfl := h.done o ho
    exact h'.done o ho

def TryMove.Brings (Q : X → Prop) : TryMove Call X Time Id Ext → Prop
  | .refuse _ x => Q x
  | .fault _ x => Q x
  | _ => True

namespace Tries

variable (R : TryRules Reply Err Call X α)

def update (s : Tries E Call X α) (i : ℕ) (j : Job Call X α) : Tries E Call X α :=
  { s with jobs := s.jobs.set i j }

def attempt (s : Tries E Call X α) (i : ℕ) (j : Job Call X α) (n : ℕ) : Tries E Call X α :=
  { sys := { s.sys with txs := s.sys.txs ++ [some (Tx.fresh R.body j.call)] }
    jobs := s.jobs.set i { j with phase := .running n s.sys.txs.length } }

def caught (s : Tries E Call X α) (i : ℕ) (j : Job Call X α) (n : ℕ) (x : X) : Tries E Call X α :=
  if n < R.attempts j.call ∧ R.retryable x then s.attempt R i j (n + 1)
  else s.update i { j with phase := .done (.error x) }

def running? (s : Tries E Call X α) (i : ℕ) : Option (Job Call X α × ℕ × ℕ × Tx E Call α) :=
  (s.jobs[i]?).bind fun j =>
    match j.phase with
    | .running n k => (s.sys.tx k).map fun t => (j, n, k, t)
    | _ => none

def waiting? (s : Tries E Call X α) (i : ℕ) : Option (Job Call X α) :=
  (s.jobs[i]?).filter fun j =>
    match j.phase with
    | .waiting => true
    | _ => false

section Access

variable {s : Tries E Call X α}

theorem waiting?_some {i : ℕ} {j : Job Call X α} (h : s.waiting? i = some j) :
    s.jobs[i]? = some j ∧ j.phase = .waiting := by
  obtain ⟨hj, hp⟩ := Option.filter_eq_some_iff.1 h
  refine ⟨hj, ?_⟩
  cases hphase : j.phase with
  | waiting => rfl
  | running n k =>
    rw [hphase] at hp
    cases hp
  | done o =>
    rw [hphase] at hp
    cases hp

theorem running?_some {i n k : ℕ} {j : Job Call X α} {t : Tx E Call α}
    (h : s.running? i = some (j, n, k, t)) :
    s.jobs[i]? = some j ∧ j.phase = .running n k ∧ s.sys.tx k = some t := by
  obtain ⟨j', hj, hrest⟩ := Option.bind_eq_some_iff.1 h
  cases hphase : j'.phase with
  | running n' k' =>
    rw [hphase] at hrest
    obtain ⟨t', ht, heq⟩ := Option.map_eq_some_iff.1 hrest
    cases heq
    exact ⟨hj, hphase, ht⟩
  | waiting =>
    rw [hphase] at hrest
    cases hrest
  | done o =>
    rw [hphase] at hrest
    cases hrest

theorem mem_set {i i' : ℕ} {j x : Job Call X α} {jobs : List (Job Call X α)}
    (h : (jobs.set i j)[i']? = some x) : (i' = i ∧ x = j) ∨ (i' ≠ i ∧ jobs[i']? = some x) := by
  rw [List.getElem?_set] at h
  split_ifs at h with hi hlt
  · exact Or.inl ⟨hi.symm, (Option.some.inj h).symm⟩
  · exact Or.inr ⟨fun he => hi he.symm, h⟩

end Access

section Step

variable [DecidableEq Obj] [LinearOrder Time]

def step? (s : Tries E Call X α) : TryMove Call X Time Id Ext → Option (Tries E Call X α)
  | .submit c => some { s with jobs := s.jobs ++ [⟨c, .waiting, s.sys.log.length, none⟩] }
  | .refuse i x => (s.waiting? i).map fun j => s.update i { j with phase := .done (.error x) }
  | .start i => (s.waiting? i).map fun j => s.attempt R i j 1
  | .finish i =>
    (s.running? i).bind fun (j, n, k, t) =>
      match t.rest with
      | .ret a =>
        some { sys := s.sys.close k (E.view s.sys.db t.writes) (.ended ⟨t.call, t.draws, .ok a⟩)
               jobs := s.jobs.set i
                { j with phase := .done (.ok a), commit := some s.sys.log.length } }
      | .fail e =>
        some (caught R { s with sys := s.sys.close k s.sys.db (.ended ⟨t.call, t.draws, .error e⟩) }
          i j n (R.thrown e))
      | .op _ _ => none
  | .fault i x =>
    (s.running? i).map fun (j, n, k, t) =>
      caught R { s with sys := s.sys.close k s.sys.db (.killed t.call) } i j n x
  | .other l =>
    if l.between then (s.sys.step? R.body l).map fun sys => { s with sys := sys } else none

inductive Moved (s : Tries E Call X α) : TryMove Call X Time Id Ext → Tries E Call X α → Prop
  | submit (c : Call) :
    Moved s (.submit c) { s with jobs := s.jobs ++ [⟨c, .waiting, s.sys.log.length, none⟩] }
  | refuse (i : ℕ) (x : X) (j : Job Call X α) (hj : s.jobs[i]? = some j)
    (hp : j.phase = .waiting) :
    Moved s (.refuse i x) (s.update i { j with phase := .done (.error x) })
  | start (i : ℕ) (j : Job Call X α) (hj : s.jobs[i]? = some j) (hp : j.phase = .waiting) :
    Moved s (.start i) (s.attempt R i j 1)
  | commit (i n k : ℕ) (j : Job Call X α) (t : Tx E Call α) (a : α) (hj : s.jobs[i]? = some j)
    (hp : j.phase = .running n k) (ht : s.sys.tx k = some t) (hr : t.rest = .ret a) :
    Moved s (.finish i)
      { sys := s.sys.close k (E.view s.sys.db t.writes) (.ended ⟨t.call, t.draws, .ok a⟩)
        jobs := s.jobs.set i { j with phase := .done (.ok a), commit := some s.sys.log.length } }
  | failed (i n k : ℕ) (j : Job Call X α) (t : Tx E Call α) (e : Err) (hj : s.jobs[i]? = some j)
    (hp : j.phase = .running n k) (ht : s.sys.tx k = some t) (hr : t.rest = .fail e) :
    Moved s (.finish i) (caught R
      { s with sys := s.sys.close k s.sys.db (.ended ⟨t.call, t.draws, .error e⟩) }
      i j n (R.thrown e))
  | fault (i n k : ℕ) (x : X) (j : Job Call X α) (t : Tx E Call α) (hj : s.jobs[i]? = some j)
    (hp : j.phase = .running n k) (ht : s.sys.tx k = some t) :
    Moved s (.fault i x)
      (caught R { s with sys := s.sys.close k s.sys.db (.killed t.call) } i j n x)
  | other (l : Label Call Time Id Ext) (sys : Sys E Call α) (hl : l.between = true)
    (hs : s.sys.step? R.body l = some sys) : Moved s (.other l) { s with sys := sys }

variable {R} {s s' : Tries E Call X α} {m : TryMove Call X Time Id Ext}

theorem step?_moved (h : s.step? R m = some s') : Moved R s m s' := by
  cases m with
  | submit c =>
    cases h
    exact .submit c
  | refuse i x =>
    obtain ⟨j, hj, rfl⟩ := Option.map_eq_some_iff.1 h
    obtain ⟨hj, hp⟩ := waiting?_some hj
    exact .refuse i x j hj hp
  | start i =>
    obtain ⟨j, hj, rfl⟩ := Option.map_eq_some_iff.1 h
    obtain ⟨hj, hp⟩ := waiting?_some hj
    exact .start i j hj hp
  | finish i =>
    obtain ⟨⟨j, n, k, t⟩, hrunning, hrest⟩ := Option.bind_eq_some_iff.1 h
    obtain ⟨hj, hp, ht⟩ := running?_some hrunning
    simp only at hrest
    split at hrest
    · next a hr =>
      cases hrest
      exact .commit i n k j t a hj hp ht hr
    · next e hr =>
      cases hrest
      exact .failed i n k j t e hj hp ht hr
    · cases hrest
  | fault i x =>
    obtain ⟨⟨j, n, k, t⟩, hrunning, rfl⟩ := Option.map_eq_some_iff.1 h
    obtain ⟨hj, hp, ht⟩ := running?_some hrunning
    exact .fault i n k x j t hj hp ht
  | other l =>
    simp only [step?] at h
    split_ifs at h with hl
    obtain ⟨sys, hs, rfl⟩ := Option.map_eq_some_iff.1 h
    exact .other l sys hl hs

end Step

section Linked

variable {R : TryRules Reply Err Call X α} {s s' : Tries E Call X α}

/-- The call has committed at place `p` of the log, with result `a`, since it was submitted. -/
structure Committed (s : Tries E Call X α) (j : Job Call X α) (a : α) (p : ℕ) : Prop where
  commit : j.commit = some p
  since : j.since ≤ p
  logged : ∃ ds, s.sys.log[p]? = some (.ended ⟨j.call, ds, .ok a⟩)

/-- The transactions and commits of the calls, but for the transaction of one of them. -/
structure Linked (skip : Option ℕ) (s : Tries E Call X α) : Prop where
  opened (i : ℕ) (j : Job Call X α) (n k : ℕ) (hj : s.jobs[i]? = some j)
    (hp : j.phase = .running n k) (hi : skip ≠ some i) :
    ∃ t, s.sys.tx k = some t ∧ t.call = j.call
  apart (i i' : ℕ) (j j' : Job Call X α) (n n' k : ℕ) (hj : s.jobs[i]? = some j)
    (hj' : s.jobs[i']? = some j') (hp : j.phase = .running n k) (hp' : j'.phase = .running n' k) :
    i = i'
  since (i : ℕ) (j : Job Call X α) (hj : s.jobs[i]? = some j) : j.since ≤ s.sys.log.length
  done (i : ℕ) (j : Job Call X α) (a : α) (hj : s.jobs[i]? = some j)
    (hp : j.phase = .done (.ok a)) : ∃ p, s.Committed j a p
  committed (i : ℕ) (j : Job Call X α) (p : ℕ) (hj : s.jobs[i]? = some j)
    (hp : j.commit = some p) : ∃ a, j.phase = .done (.ok a) ∧ s.Committed j a p
  once (i i' : ℕ) (j j' : Job Call X α) (p : ℕ) (hj : s.jobs[i]? = some j)
    (hj' : s.jobs[i']? = some j') (hp : j.commit = some p) (hp' : j'.commit = some p) : i = i'
  covered (p : ℕ) (e : Ended E Call α) (a : α) (hp : s.sys.log[p]? = some (.ended e))
    (ho : e.outcome = .ok a) :
    ∃ (i : ℕ) (j : Job Call X α), s.jobs[i]? = some j ∧ j.commit = some p

theorem Linked.initial (db : Db) (clock : Time) :
    (⟨⟨db, clock, [], []⟩, []⟩ : Tries E Call X α).Linked none where
  opened i j n k hj := by cases hj
  apart i i' j j' n n' k hj := by cases hj
  since i j hj := by cases hj
  done i j a hj := by cases hj
  committed i j p hj := by cases hj
  once i i' j j' p hj := by cases hj
  covered p e a hp := by cases hp

/-- What has been logged stays in its place. -/
theorem Committed.mono {j : Job Call X α} {a : α} {p : ℕ} (h : s.Committed j a p)
    {more : List (Event E Call α)} (hlog : s'.sys.log = s.sys.log ++ more) :
    s'.Committed j a p := by
  obtain ⟨ds, hds⟩ := h.logged
  refine ⟨h.commit, h.since, ds, ?_⟩
  rw [hlog, List.getElem?_append_left (List.getElem?_eq_some_iff.1 hds).1, hds]

/-- The open transactions of the calls stay open, and nothing commits. -/
theorem Linked.carry {skip skip' : Option ℕ} (h : s.Linked skip) (hjobs : s'.jobs = s.jobs)
    {more : List (Event E Call α)} (hlog : s'.sys.log = s.sys.log ++ more)
    (hmore : ∀ e, Event.ended e ∈ more → ∀ a, e.outcome ≠ .ok a)
    (hopen : ∀ (i : ℕ) (j : Job Call X α) (n k : ℕ), s.jobs[i]? = some j →
      j.phase = .running n k → skip' ≠ some i → ∃ t, s'.sys.tx k = some t ∧ t.call = j.call) :
    s'.Linked skip' where
  opened := hjobs ▸ hopen
  apart := hjobs ▸ h.apart
  since i j hj := by
    rw [hlog, List.length_append]
    exact (h.since i j (hjobs ▸ hj)).trans (Nat.le_add_right _ _)
  done i j a hj hp := by
    obtain ⟨p, hc⟩ := h.done i j a (hjobs ▸ hj) hp
    exact ⟨p, hc.mono hlog⟩
  committed i j p hj hp := by
    obtain ⟨a, ha, hc⟩ := h.committed i j p (hjobs ▸ hj) hp
    exact ⟨a, ha, hc.mono hlog⟩
  once := hjobs ▸ h.once
  covered p e a hp he := by
    rw [hlog, List.getElem?_append] at hp
    rw [hjobs]
    split_ifs at hp with hlt
    · exact h.covered p e a hp he
    · exact (hmore e (List.mem_of_getElem? hp) a he).elim

/-- A call that has not committed goes on: its transaction, if it has one, is open and its own. -/
theorem Linked.restore {i : ℕ} {j : Job Call X α} (h : s.Linked (some i))
    (hj : s.jobs[i]? = some j) (hnone : j.commit = none) {phase : TryPhase X α}
    (hdone : ∀ a, phase ≠ .done (.ok a))
    (hopen : ∀ n k, phase = .running n k → (∃ t, s.sys.tx k = some t ∧ t.call = j.call) ∧
      ∀ (i' : ℕ) (j' : Job Call X α) (n' : ℕ), i' ≠ i → s.jobs[i']? = some j' →
        j'.phase ≠ .running n' k) :
    (s.update i { j with phase := phase }).Linked none where
  opened i' x n k hx hp _ := by
    rcases mem_set hx with ⟨rfl, rfl⟩ | ⟨hne, hx⟩
    · exact (hopen n k hp).1
    · exact h.opened i' x n k hx hp fun he => hne (Option.some.inj he).symm
  apart i₁ i₂ x y n n' k hx hy hp hq := by
    rcases mem_set hx with ⟨rfl, rfl⟩ | ⟨hne, hx'⟩
    · rcases mem_set hy with ⟨rfl, -⟩ | ⟨hne', hy'⟩
      · rfl
      · exact ((hopen n k hp).2 i₂ y n' hne' hy' hq).elim
    · rcases mem_set hy with ⟨rfl, rfl⟩ | ⟨hne', hy'⟩
      · exact ((hopen n' k hq).2 i₁ x n hne hx' hp).elim
      · exact h.apart i₁ i₂ x y n n' k hx' hy' hp hq
  since i' x hx := by
    rcases mem_set hx with ⟨rfl, rfl⟩ | ⟨-, hx⟩
    · exact h.since i' j hj
    · exact h.since i' x hx
  done i' x a hx hp := by
    rcases mem_set hx with ⟨-, rfl⟩ | ⟨-, hx⟩
    · exact (hdone a hp).elim
    · obtain ⟨p, hc⟩ := h.done i' x a hx hp
      exact ⟨p, hc.commit, hc.since, hc.logged⟩
  committed i' x p hx hp := by
    rcases mem_set hx with ⟨-, rfl⟩ | ⟨-, hx⟩
    · rw [hnone] at hp
      cases hp
    · obtain ⟨a, ha, hc⟩ := h.committed i' x p hx hp
      exact ⟨a, ha, hc.commit, hc.since, hc.logged⟩
  once i₁ i₂ x y p hx hy hp hq := by
    rcases mem_set hx with ⟨-, rfl⟩ | ⟨-, hx⟩
    · rw [hnone] at hp
      cases hp
    · rcases mem_set hy with ⟨-, rfl⟩ | ⟨-, hy⟩
      · rw [hnone] at hq
        cases hq
      · exact h.once i₁ i₂ x y p hx hy hp hq
  covered p e a hp he := by
    obtain ⟨i', x, hx, hc⟩ := h.covered p e a hp he
    refine ⟨i', x, ?_, hc⟩
    have hne : i' ≠ i := by
      rintro rfl
      rw [Option.some.inj (hx.symm.trans hj), hnone] at hc
      cases hc
    rw [update, List.getElem?_set_ne hne.symm, hx]

theorem Linked.attempt {i : ℕ} {j : Job Call X α} (h : s.Linked (some i))
    (hj : s.jobs[i]? = some j) (hnone : j.commit = none) (n : ℕ) :
    (s.attempt R i j n).Linked none := by
  let opened : Tries E Call X α :=
    { s with sys := { s.sys with txs := s.sys.txs ++ [some (Tx.fresh R.body j.call)] } }
  have hold {k : ℕ} {t : Tx E Call α} (ht : s.sys.tx k = some t) : opened.sys.tx k = some t := by
    have hlt := Sys.lt_of_tx ht
    simp only [opened, Sys.tx, List.getElem?_append_left hlt]
    exact ht
  have hnew : opened.sys.tx s.sys.txs.length = some (Tx.fresh R.body j.call) := by
    simp [opened, Sys.tx]
  have hcarried : opened.Linked (some i) :=
    h.carry rfl (List.append_nil _).symm (fun _ he => (List.not_mem_nil he).elim)
      fun i' x m k hx hp hne => by
        obtain ⟨t, ht, hcall⟩ := h.opened i' x m k hx hp hne
        exact ⟨t, hold ht, hcall⟩
  refine hcarried.restore hj hnone (fun a ha => by cases ha) fun m k hp => ?_
  cases hp
  refine ⟨⟨_, hnew, rfl⟩, fun i' x m hne hx hp => ?_⟩
  obtain ⟨t, ht, -⟩ := h.opened i' x m _ hx hp fun he => hne (Option.some.inj he).symm
  exact absurd (Sys.lt_of_tx ht) (lt_irrefl _)

theorem Linked.failed {i : ℕ} {j : Job Call X α} (h : s.Linked (some i))
    (hj : s.jobs[i]? = some j) (hnone : j.commit = none) (x : X) :
    (s.update i { j with phase := .done (.error x) }).Linked none :=
  h.restore hj hnone (fun a ha => by cases ha) fun n k hp => by cases hp

theorem Linked.caught {i : ℕ} {j : Job Call X α} (h : s.Linked (some i))
    (hj : s.jobs[i]? = some j) (hnone : j.commit = none) (n : ℕ) (x : X) :
    (s.caught R i j n x).Linked none := by
  unfold Tries.caught
  split_ifs
  · exact h.attempt hj hnone (n + 1)
  · exact h.failed hj hnone x

/-- A call that is not done has not committed. -/
theorem Linked.uncommitted {skip : Option ℕ} {i : ℕ} {j : Job Call X α} (h : s.Linked skip)
    (hj : s.jobs[i]? = some j) (hp : ∀ a, j.phase ≠ .done (.ok a)) : j.commit = none := by
  cases hc : j.commit with
  | none => rfl
  | some p =>
    obtain ⟨a, ha, -⟩ := h.committed i j p hj hc
    exact (hp a ha).elim

theorem Linked.skip {skip : Option ℕ} (h : s.Linked none) : s.Linked skip :=
  h.carry rfl (List.append_nil _).symm (fun _ he => (List.not_mem_nil he).elim)
    fun i j n k hj hp _ => h.opened i j n k hj hp (Option.some_ne_none i).symm

/-- The transaction of a call is closed without a commit. -/
theorem Linked.close {i n k : ℕ} {j : Job Call X α} (h : s.Linked none)
    (hj : s.jobs[i]? = some j) (hp : j.phase = .running n k) {e : Event E Call α}
    (he : ∀ x, e = .ended x → ∀ a, x.outcome ≠ .ok a) :
    ({ s with sys := s.sys.close k s.sys.db e } : Tries E Call X α).Linked (some i) := by
  refine h.carry rfl rfl (fun x hx => he x (List.mem_singleton.1 hx).symm) ?_
  intro i' x m k' hx hq hne
  obtain ⟨t, ht, hcall⟩ := h.opened i' x m k' hx hq (Option.some_ne_none i').symm
  have hk : k' ≠ k := by
    rintro rfl
    exact hne (congrArg some (h.apart i i' j x n m k' hj hx hp hq))
  exact ⟨t, (Sys.tx_close_ne hk).trans ht, hcall⟩

theorem mem_snoc {β : Type} {i : ℕ} {x y : β} {l : List β} (h : (l ++ [x])[i]? = some y) :
    y = x ∨ l[i]? = some y := by
  rw [List.getElem?_append] at h
  split_ifs at h with hlt
  · exact Or.inr h
  · exact Or.inl (List.mem_singleton.1 (List.mem_of_getElem? h))

theorem Linked.submit (h : s.Linked none) (c : Call) :
    ({ s with jobs := s.jobs ++ [⟨c, .waiting, s.sys.log.length, none⟩] } :
      Tries E Call X α).Linked none where
  opened i j n k hj hp hi := by
    rcases mem_snoc hj with rfl | hj
    · cases hp
    · exact h.opened i j n k hj hp hi
  apart i i' j j' n n' k hj hj' hp hp' := by
    rcases mem_snoc hj with rfl | hj
    · cases hp
    · rcases mem_snoc hj' with rfl | hj'
      · cases hp'
      · exact h.apart i i' j j' n n' k hj hj' hp hp'
  since i j hj := by
    rcases mem_snoc hj with rfl | hj
    · exact le_rfl
    · exact h.since i j hj
  done i j a hj hp := by
    rcases mem_snoc hj with rfl | hj
    · cases hp
    · obtain ⟨p, hc⟩ := h.done i j a hj hp
      exact ⟨p, hc.commit, hc.since, hc.logged⟩
  committed i j p hj hp := by
    rcases mem_snoc hj with rfl | hj
    · cases hp
    · obtain ⟨a, ha, hc⟩ := h.committed i j p hj hp
      exact ⟨a, ha, hc.commit, hc.since, hc.logged⟩
  once i i' j j' p hj hj' hp hp' := by
    rcases mem_snoc hj with rfl | hj
    · cases hp
    · rcases mem_snoc hj' with rfl | hj'
      · cases hp'
      · exact h.once i i' j j' p hj hj' hp hp'
  covered p e a hp he := by
    obtain ⟨i, j, hj, hc⟩ := h.covered p e a hp he
    exact ⟨i, j, (List.getElem?_append_left (List.getElem?_eq_some_iff.1 hj).1).trans hj, hc⟩

theorem Linked.commit {i n k : ℕ} {j : Job Call X α} {t : Tx E Call α} {a : α} (db : Db)
    (h : s.Linked none) (hj : s.jobs[i]? = some j) (hp : j.phase = .running n k)
    (ht : s.sys.tx k = some t) :
    ({ sys := s.sys.close k db (.ended ⟨t.call, t.draws, .ok a⟩)
       jobs := s.jobs.set i
        { j with phase := .done (.ok a), commit := some s.sys.log.length } } :
      Tries E Call X α).Linked none := by
  have hcall : t.call = j.call := by
    obtain ⟨t', ht', hcall⟩ := h.opened i j n k hj hp (Option.some_ne_none i).symm
    rw [← hcall, Option.some.inj (ht'.symm.trans ht)]
  have hlast : ∀ e : Event E Call α, (s.sys.log ++ [e])[s.sys.log.length]? = some e :=
    fun e => List.getElem?_concat_length
  have hold {i' : ℕ} {x : Job Call X α} {p : ℕ} (hx : s.jobs[i']? = some x)
      (hc : x.commit = some p) : p < s.sys.log.length := by
    obtain ⟨b, -, hb⟩ := h.committed i' x p hx hc
    obtain ⟨ds, hds⟩ := hb.logged
    exact (List.getElem?_eq_some_iff.1 hds).1
  have hlog : (s.sys.close k db (.ended ⟨t.call, t.draws, .ok a⟩)).log =
      s.sys.log ++ [.ended ⟨t.call, t.draws, .ok a⟩] := rfl
  refine ⟨fun i' x m k' hx hq _ => ?_, fun i₁ i₂ x y m m' k' hx hy hq hr => ?_,
    fun i' x hx => ?_, fun i' x b hx hq => ?_, fun i' x p hx hq => ?_,
    fun i₁ i₂ x y p hx hy hq hr => ?_, fun p e b hp' he => ?_⟩
  · rcases mem_set hx with ⟨-, rfl⟩ | ⟨hne, hx'⟩
    · cases hq
    · obtain ⟨u, hu, hcall'⟩ := h.opened i' x m k' hx' hq (Option.some_ne_none i').symm
      have hk : k' ≠ k := by
        rintro rfl
        exact hne (h.apart i' i x j m n k' hx' hj hq hp)
      exact ⟨u, (Sys.tx_close_ne hk).trans hu, hcall'⟩
  · rcases mem_set hx with ⟨-, rfl⟩ | ⟨-, hx⟩
    · cases hq
    · rcases mem_set hy with ⟨-, rfl⟩ | ⟨-, hy⟩
      · cases hr
      · exact h.apart i₁ i₂ x y m m' k' hx hy hq hr
  · rw [hlog, List.length_append]
    rcases mem_set hx with ⟨rfl, rfl⟩ | ⟨-, hx⟩
    · exact (h.since i' j hj).trans (Nat.le_add_right _ _)
    · exact (h.since i' x hx).trans (Nat.le_add_right _ _)
  · rcases mem_set hx with ⟨rfl, rfl⟩ | ⟨-, hx⟩
    · cases hq
      exact ⟨_, rfl, h.since i' j hj, t.draws, hcall ▸ hlast _⟩
    · obtain ⟨p, hc⟩ := h.done i' x b hx hq
      exact ⟨p, hc.mono hlog⟩
  · rcases mem_set hx with ⟨rfl, rfl⟩ | ⟨-, hx⟩
    · obtain rfl := Option.some.inj hq
      exact ⟨a, rfl, rfl, h.since i' j hj, t.draws, hcall ▸ hlast _⟩
    · obtain ⟨b, hb, hc⟩ := h.committed i' x p hx hq
      exact ⟨b, hb, hc.mono hlog⟩
  · rcases mem_set hx with ⟨rfl, rfl⟩ | ⟨-, hx'⟩
    · rcases mem_set hy with ⟨rfl, -⟩ | ⟨-, hy'⟩
      · rfl
      · obtain rfl := Option.some.inj hq
        exact absurd (hold hy' hr) (lt_irrefl _)
    · rcases mem_set hy with ⟨rfl, rfl⟩ | ⟨-, hy'⟩
      · obtain rfl := Option.some.inj hr
        exact absurd (hold hx' hq) (lt_irrefl _)
      · exact h.once i₁ i₂ x y p hx' hy' hq hr
  · have hset :
        (s.jobs.set i { j with phase := .done (.ok a), commit := some s.sys.log.length })[i]? =
          some { j with phase := .done (.ok a), commit := some s.sys.log.length } :=
      List.getElem?_set_self (List.getElem?_eq_some_iff.1 hj).1
    rw [hlog, List.getElem?_append] at hp'
    split_ifs at hp' with hlt
    · obtain ⟨i', x, hx, hc⟩ := h.covered p e b hp' he
      have hne : i' ≠ i := by
        rintro rfl
        obtain rfl := Option.some.inj (hx.symm.trans hj)
        rw [h.uncommitted hj fun b hb => by rw [hp] at hb; cases hb] at hc
        cases hc
      exact ⟨i', x, (List.getElem?_set_ne hne.symm).trans hx, hc⟩
    · have hzero : p - s.sys.log.length = 0 := by
        have := (List.getElem?_eq_some_iff.1 hp').1
        rw [List.length_singleton] at this
        omega
      exact ⟨i, _, hset, congrArg some (by omega)⟩

section Run

variable [DecidableEq Obj] [LinearOrder Time]

/-- Between its start and its end a transaction stays open, and nothing ends. -/
theorem between_kept {sys sys' : Sys E Call α} {body : Call → Prog Reply Err α}
    {l : Label Call Time Id Ext} (hl : l.between = true) (hs : sys.step? body l = some sys') :
    (∀ k t, sys.tx k = some t → ∃ t', sys'.tx k = some t' ∧ t'.call = t.call) ∧
      ∃ more, sys'.log = sys.log ++ more ∧ ∀ e, Event.ended e ∉ more := by
  cases Sys.step?_did body hs with
  | tick t hle =>
    exact ⟨fun k t ht => ⟨t, ht, rfl⟩, [], (List.append_nil _).symm, fun e => List.not_mem_nil⟩
  | step i id t st k ht hr hf =>
    refine ⟨fun k' t' ht' => ?_, [], (List.append_nil _).symm, fun e => List.not_mem_nil⟩
    by_cases hk : k' = i
    · subst hk
      obtain rfl := Option.some.inj (ht.symm.trans ht')
      exact ⟨_, Sys.tx_put_self ht, rfl⟩
    · exact ⟨t', (Sys.tx_put_ne hk).trans ht', rfl⟩
  | external x db' hx =>
    refine ⟨fun k t ht => ⟨t, ht, rfl⟩, [.external x], rfl, fun e he => ?_⟩
    cases List.mem_singleton.1 he
  | start c => cases hl
  | commit i t a ht hr => cases hl
  | rollback i t e ht hr => cases hl
  | kill i t ht => cases hl

variable {m : TryMove Call X Time Id Ext}

theorem Linked.step (h : s.Linked none) (hs : s.step? R m = some s') : s'.Linked none := by
  have hrunning {i n k : ℕ} {j : Job Call X α} (hj : s.jobs[i]? = some j)
      (hp : j.phase = .running n k) : j.commit = none :=
    h.uncommitted hj fun a ha => by
      rw [hp] at ha
      cases ha
  have hwaiting {i : ℕ} {j : Job Call X α} (hj : s.jobs[i]? = some j) (hp : j.phase = .waiting) :
      j.commit = none :=
    h.uncommitted hj fun a ha => by
      rw [hp] at ha
      cases ha
  cases step?_moved hs with
  | submit c => exact h.submit c
  | refuse i x j hj hp => exact h.skip.failed hj (hwaiting hj hp) x
  | start i j hj hp => exact h.skip.attempt hj (hwaiting hj hp) 1
  | commit i n k j t a hj hp ht hr => exact h.commit _ hj hp ht
  | failed i n k j t e hj hp ht hr =>
    exact (h.close hj hp fun x hx a ha => by cases hx; cases ha).caught hj (hrunning hj hp) n _
  | fault i n k x j t hj hp ht =>
    exact (h.close hj hp fun x hx => by cases hx).caught hj (hrunning hj hp) n x
  | other l sys hl hsys =>
    obtain ⟨hkept, more, hlog, hmore⟩ := between_kept hl hsys
    refine h.carry rfl hlog (fun e he => (hmore e he).elim) fun i j n k hj hp hi => ?_
    obtain ⟨t, ht, hcall⟩ := h.opened i j n k hj hp hi
    obtain ⟨t', ht', hcall'⟩ := hkept k t ht
    exact ⟨t', ht', hcall'.trans hcall⟩

end Run

end Linked

section Follow

variable [DecidableEq Obj] [LinearOrder Time] {R : TryRules Reply Err Call X α}
  {s s' : Tries E Call X α} {m : TryMove Call X Time Id Ext}

theorem caught_reach {sys : Sys E Call α} (i : ℕ) (j : Job Call X α) (n : ℕ) (x : X)
    (h : Sys.Reach R.body (fun _ _ => True) sys s.sys) :
    Sys.Reach R.body (fun _ _ => True) sys (s.caught R i j n x).sys := by
  unfold caught
  split_ifs
  · exact h.tail (.start j.call) trivial rfl
  · exact h

/-- The transactions run as they do without the calls. -/
theorem sys_step (hs : s.step? R m = some s') :
    Sys.Reach R.body (fun _ _ => True) s.sys s'.sys := by
  have hfinish {k : ℕ} {t : Tx E Call α} (ht : s.sys.tx k = some t) {sys : Sys E Call α}
      {l : Label Call Time Id Ext} (hl : s.sys.step? R.body l = some sys) :
      Sys.Reach R.body (fun _ _ => True) s.sys sys := .tail l .refl trivial hl
  cases step?_moved hs with
  | submit c => exact .refl
  | refuse i x j hj hp => exact .refl
  | start i j hj hp => exact .tail (.start j.call) .refl trivial rfl
  | commit i n k j t a hj hp ht hr =>
    refine hfinish ht (l := .finish k) ?_
    simp only [Sys.step?, Sys.finish?, ht, hr]
  | failed i n k j t e hj hp ht hr =>
    refine caught_reach i j n _ (hfinish ht (l := .finish k) ?_)
    simp only [Sys.step?, Sys.finish?, ht, hr]
  | fault i n k x j t hj hp ht =>
    refine caught_reach i j n x (hfinish ht (l := .kill k) ?_)
    simp only [Sys.step?, ht, Option.map_some]
  | other l sys hl hsys => exact .tail l .refl trivial hsys

theorem set_kept {jobs : List (Job Call X α)} {i i' : ℕ} {j j₁ x : Job Call X α}
    (hj : jobs[i]? = some j) (hx : jobs[i']? = some x) (hkept : j.Kept j₁) :
    ∃ x', (jobs.set i j₁)[i']? = some x' ∧ x.Kept x' := by
  by_cases hi : i' = i
  · subst hi
    obtain rfl := Option.some.inj (hx.symm.trans hj)
    exact ⟨j₁, List.getElem?_set_self (List.getElem?_eq_some_iff.1 hx).1, hkept⟩
  · exact ⟨x, (List.getElem?_set_ne (Ne.symm hi)).trans hx, .refl x⟩

theorem job_kept (hs : s.step? R m = some s') {i : ℕ} {x : Job Call X α}
    (hx : s.jobs[i]? = some x) : ∃ x', s'.jobs[i]? = some x' ∧ x.Kept x' := by
  have hopen {j j₁ : Job Call X α} {phase : TryPhase X α} (hp : j.phase = phase)
      (hnot : ∀ o, phase ≠ .done o) (hcall : j₁.call = j.call) (hsince : j₁.since = j.since) :
      j.Kept j₁ :=
    ⟨hcall, hsince, fun o ho => (hnot o (hp.symm.trans ho)).elim⟩
  have hrunning (n k : ℕ) (o : Except X α) : TryPhase.running n k ≠ .done o := by rintro ⟨⟩
  have hwaiting (o : Except X α) : TryPhase.waiting ≠ .done o := by rintro ⟨⟩
  have hcaught {sys : Sys E Call α} {i' n k : ℕ} {j : Job Call X α} (y : X)
      (hj : s.jobs[i']? = some j) (hp : j.phase = .running n k) :
      ∃ x', (caught R { s with sys := sys } i' j n y).jobs[i]? = some x' ∧ x.Kept x' := by
    unfold caught
    split_ifs
    · exact set_kept hj hx (hopen hp (hrunning n k) rfl rfl)
    · exact set_kept hj hx (hopen hp (hrunning n k) rfl rfl)
  cases step?_moved hs with
  | submit c =>
    exact ⟨x, (List.getElem?_append_left (List.getElem?_eq_some_iff.1 hx).1).trans hx, .refl x⟩
  | refuse i' y j hj hp => exact set_kept hj hx (hopen hp hwaiting rfl rfl)
  | start i' j hj hp => exact set_kept hj hx (hopen hp hwaiting rfl rfl)
  | commit i' n k j t a hj hp ht hr => exact set_kept hj hx (hopen hp (hrunning n k) rfl rfl)
  | failed i' n k j t e hj hp ht hr => exact hcaught _ hj hp
  | fault i' n k y j t hj hp ht => exact hcaught y hj hp
  | other l sys hl hsys => exact ⟨x, hx, .refl x⟩

/-- Only a submitted call is new. -/
theorem jobs_length (hs : s.step? R m = some s') :
    (∃ c, m = .submit c) ∨ s'.jobs.length = s.jobs.length := by
  have hcaught {sys : Sys E Call α} (i : ℕ) (j : Job Call X α) (n : ℕ) (x : X) :
      (caught R { s with sys := sys } i j n x).jobs.length = s.jobs.length := by
    unfold caught
    split_ifs
    · exact List.length_set
    · exact List.length_set
  cases step?_moved hs with
  | submit c => exact Or.inl ⟨c, rfl⟩
  | refuse i x j hj hp => exact Or.inr List.length_set
  | start i j hj hp => exact Or.inr List.length_set
  | commit i n k j t a hj hp ht hr => exact Or.inr List.length_set
  | failed i n k j t e hj hp ht hr => exact Or.inr (hcaught i j n _)
  | fault i n k x j t hj hp ht => exact Or.inr (hcaught i j n x)
  | other l sys hl hsys => exact Or.inr rfl

end Follow

section Reasons

variable {R : TryRules Reply Err Call X α} {s s' : Tries E Call X α}
  {T : Err → Prop} {Q : X → Prop}

/-- The programs that are open fail only for such errors, and no call has failed for another
reason. -/
structure Reasoned (T : Err → Prop) (Q : X → Prop) (s : Tries E Call X α) : Prop where
  programs (k : ℕ) (t : Tx E Call α) (ht : s.sys.tx k = some t) : t.rest.Plain (fun _ => True) T
  reasons (i : ℕ) (j : Job Call X α) (x : X) (hj : s.jobs[i]? = some j)
    (hp : j.phase = .done (.error x)) : Q x

theorem Reasoned.attempt (h : s.Reasoned T Q)
    (hbody : ∀ c, (R.body c).Plain (fun _ => True) T) (i : ℕ) (j : Job Call X α) (n : ℕ) :
    (s.attempt R i j n).Reasoned T Q where
  programs k t ht := by
    rcases Sys.tx_of_start ht with ⟨-, rfl⟩ | ht
    · exact hbody j.call
    · exact h.programs k t ht
  reasons i' y x hy hp := by
    rcases mem_set hy with ⟨-, rfl⟩ | ⟨-, hy⟩
    · cases hp
    · exact h.reasons i' y x hy hp

theorem Reasoned.failed (h : s.Reasoned T Q) (i : ℕ) (j : Job Call X α) {x : X} (hx : Q x) :
    (s.update i { j with phase := .done (.error x) }).Reasoned T Q where
  programs := h.programs
  reasons i' y x' hy hp := by
    rcases mem_set hy with ⟨-, rfl⟩ | ⟨-, hy⟩
    · cases hp
      exact hx
    · exact h.reasons i' y x' hy hp

theorem Reasoned.caught (h : s.Reasoned T Q) (hbody : ∀ c, (R.body c).Plain (fun _ => True) T)
    (i : ℕ) (j : Job Call X α) (n : ℕ) {x : X} (hx : Q x) :
    (s.caught R i j n x).Reasoned T Q := by
  unfold Tries.caught
  split_ifs
  · exact h.attempt hbody i j (n + 1)
  · exact h.failed i j hx

theorem Reasoned.close (h : s.Reasoned T Q) (k : ℕ) (db : Db) (e : Event E Call α) :
    ({ s with sys := s.sys.close k db e } : Tries E Call X α).Reasoned T Q where
  programs k' t ht := h.programs k' t (Sys.tx_of_close ht).2
  reasons := h.reasons

variable [DecidableEq Obj] [LinearOrder Time] {m : TryMove Call X Time Id Ext}

theorem Reasoned.step (h : s.Reasoned T Q) (hbody : ∀ c, (R.body c).Plain (fun _ => True) T)
    (hexec : ∀ st v d e, E.exec st v d = .error e → T e) (hthrown : ∀ e, T e → Q (R.thrown e))
    (hm : m.Brings Q) (hs : s.step? R m = some s') : s'.Reasoned T Q := by
  cases step?_moved hs with
  | submit c =>
    refine ⟨h.programs, fun i j x hj hp => ?_⟩
    rcases mem_snoc hj with rfl | hj
    · cases hp
    · exact h.reasons i j x hj hp
  | refuse i x j hj hp => exact h.failed i j hm
  | start i j hj hp => exact h.attempt hbody i j 1
  | commit i n k j t a hj hp ht hr =>
    refine ⟨(h.close k _ _).programs, fun i' y x hy hq => ?_⟩
    rcases mem_set hy with ⟨-, rfl⟩ | ⟨-, hy⟩
    · cases hq
    · exact h.reasons i' y x hy hq
  | failed i n k j t e hj hp ht hr =>
    have hplain := h.programs k t ht
    rw [hr] at hplain
    exact (h.close k _ _).caught hbody i j n (hthrown e hplain)
  | fault i n k x j t hj hp ht => exact (h.close k _ _).caught hbody i j n hm
  | other l sys hl hsys =>
    refine ⟨fun k t ht => ?_, h.reasons⟩
    cases Sys.step?_did R.body hsys with
    | tick now hle => exact h.programs k t ht
    | external x db' hx => exact h.programs k t ht
    | step i id u st next hu hr hf =>
      by_cases hk : k = i
      · subst hk
        rw [Sys.tx_put_self hu, Option.some.injEq] at ht
        subst ht
        have hplain := h.programs k u hu
        rw [hr] at hplain
        cases hx : E.exec st (E.view s.sys.db u.writes) ⟨s.sys.clock, id⟩ with
        | error e =>
          simp only [Tx.after, E.next_error hx]
          exact hexec _ _ _ e hx
        | ok out =>
          simp only [Tx.after, E.next_ok hx]
          exact hplain.2 out.1
      · rw [Sys.tx_put_ne hk] at ht
        exact h.programs k t ht
    | start c => cases hl
    | commit i u a hu hr => cases hl
    | rollback i u e hu hr => cases hl
    | kill i u hu => cases hl

end Reasons

end Tries

end Txn
