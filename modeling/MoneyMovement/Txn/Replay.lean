import MoneyMovement.Txn.Protocol

/-!
# Concurrent runs of disciplined programs are serial runs

While a disciplined transaction is open, replaying its statements on the current
committed database gives what it really got (`Traced`), whatever has committed
since, unless it has read something unsettled and can only fail. So every commit
takes the database where the call alone would have taken it, in the order in
which the transactions end.
-/

namespace Txn.Protocol

variable {Stmt : Type} {Reply : Stmt → Type} {Db Write Err Time Id Obj Ext : Type}
variable {E : Engine Reply Db Write Err Time Id Obj Ext} (P : Protocol E)
variable {Call α : Type}

section Trace

/-- Replaying the draws on `db` leads from one program and change list to another,
through statements that stay the same whatever others do under the locks `L`. -/
inductive Traced (db : Db) (L : List Obj) : Prog Reply Err α → List Write →
    List (Draw Time Id) → Prog Reply Err α → List Write → Prop
  | nil (p : Prog Reply Err α) (ws : List Write) : Traced db L p ws [] p ws
  | cons {s : Stmt} {k : Reply s → Prog Reply Err α} {ws ws' : List Write}
      {d : Draw Time Id} {ds : List (Draw Time Id)} {p' : Prog Reply Err α}
      (hs : P.Steady L (E.view db ws) s d k)
      (h : Traced db L (E.next (E.view db ws) d s k).1 (ws ++ (E.next (E.view db ws) d s k).2)
        ds p' ws') :
      Traced db L (.op s k) ws (d :: ds) p' ws'

variable {P} {db db' : Db} {L L' : List Obj} {p p' : Prog Reply Err α} {ws ws' : List Write}
  {ds : List (Draw Time Id)}

theorem Traced.snoc {s : Stmt} {k : Reply s → Prog Reply Err α} {d : Draw Time Id}
    (h : P.Traced db L p ws ds (.op s k) ws') (hs : P.Steady L (E.view db ws') s d k) :
    P.Traced db L p ws (ds ++ [d]) (E.next (E.view db ws') d s k).1
      (ws' ++ (E.next (E.view db ws') d s k).2) := by
  generalize hq : Prog.op s k = q at h
  induction h with
  | nil p ws =>
    subst hq
    exact .cons hs (.nil _ _)
  | cons hs' _ ih => exact .cons hs' (ih hs hq)

theorem Traced.mono (h : P.Traced db L p ws ds p' ws') (hL : L ⊆ L') :
    P.Traced db L' p ws ds p' ws' := by
  induction h with
  | nil p ws => exact .nil p ws
  | cons hs _ ih => exact .cons (hs.mono P hL) ih

theorem Traced.prefix (h : P.Traced db L p ws ds p' ws') : ws <+: ws' := by
  induction h with
  | nil p ws => exact List.prefix_rfl
  | cons _ _ ih => exact (List.prefix_append _ _).trans ih

/-- A replay survives every change the held locks let through. -/
theorem Traced.evolves (h : P.Traced db L p ws ds p' ws') (ho : P.OwnsAll L db ws')
    (he : P.Evolves L db db') : P.Traced db' L p ws ds p' ws' := by
  induction h with
  | nil p ws => exact .nil p ws
  | @cons s k ws ws' d ds p' hs hrest ih =>
    obtain ⟨tail, htail⟩ := (List.prefix_append _ _).trans hrest.prefix
    rw [← htail, P.ownsAll_append] at ho
    have hv := P.view_evolves he ho.1
    have hn := hs _ hv
    refine .cons (hs.evolves P hv) ?_
    rw [hn]
    refine ih ?_
    rw [← htail, P.ownsAll_append]
    exact ho

theorem Traced.alone (h : P.Traced db L p ws ds p' ws') (base : Db)
    (ds' : List (Draw Time Id)) :
    E.alone base p (E.view db ws) (ds ++ ds') = E.alone base p' (E.view db ws') ds' := by
  induction h with
  | nil p ws => rfl
  | cons _ _ ih => rw [List.cons_append, E.alone_op, ← E.view_append, ih]

end Trace

section Serial

variable (body : Call → Prog Reply Err α)

def Final (_ : List Obj) (v : Db) (_ : α) : Prop := P.Good [] v

/-- The log accounts for the database: each committed call, run alone on what the
log before it left, returns the same and goes to the same database. A failed call
does nothing; alone it fails the same way unless it had given up. -/
inductive Explains (db₀ : Db) : List (Event E Call α) → Db → Prop
  | nil : Explains db₀ [] db₀
  | commit {log : List (Event E Call α)} {db : Db} (c : Call) (ds : List (Draw Time Id)) (a : α)
      (db' : Db) (h : Explains db₀ log db) (hg : P.Good [] db')
      (ha : E.alone db (body c) db ds = some (.ok a, db')) :
      Explains db₀ (log ++ [.ended ⟨c, ds, .ok a⟩]) db'
  | abort {log : List (Event E Call α)} {db : Db} (c : Call) (ds : List (Draw Time Id)) (e : Err)
      (h : Explains db₀ log db) (ht : P.Throws e)
      (ha : E.alone db (body c) db ds = some (.error e, db) ∨ P.Lost e) :
      Explains db₀ (log ++ [.ended ⟨c, ds, .error e⟩]) db
  | killed {log : List (Event E Call α)} {db : Db} (c : Call) (h : Explains db₀ log db) :
      Explains db₀ (log ++ [.killed c]) db
  | external {log : List (Event E Call α)} {db : Db} (x : Ext) (db' : Db)
      (h : Explains db₀ log db) (hg : P.Good [] db') (hx : P.Allows x)
      (he : E.others x db = some db') :
      Explains db₀ (log ++ [.external x]) db'

structure TxOk (db : Db) (t : Tx E Call α) : Prop where
  owns : P.OwnsAll t.held db t.writes
  keeps : P.Disciplined P.Final t.rest t.held (E.view db t.writes)
  follows : P.Traced db t.held (body t.call) [] t.draws t.rest t.writes ∨ P.GivenUp t.rest

structure Inv (db₀ : Db) (s : Sys E Call α) : Prop where
  explained : P.Explains body db₀ s.log s.db
  good : P.Good [] s.db
  apart : ∀ i j, i ≠ j → ∀ o ∈ s.held i, o ∉ s.held j
  each : ∀ i t, s.tx i = some t → P.TxOk body s.db t

/-- Which steps a run may take: what an outsider does must be allowed, and a call
starts only where its program is disciplined. -/
def Ok (admits : Db → Call → Prop) (s : Sys E Call α) : Label Call Time Id Ext → Prop
  | .start c => admits s.db c
  | .external x => P.Allows x
  | _ => True

variable {P body}

theorem TxOk.evolves {db db' : Db} {t : Tx E Call α} (h : P.TxOk body db t)
    (he : P.Evolves t.held db db') : P.TxOk body db' t where
  owns := P.ownsAll_evolves he h.owns
  keeps := h.keeps.evolves P (P.view_evolves he h.owns)
  follows := h.follows.imp_left (fun ht => ht.evolves h.owns he)

theorem TxOk.fresh {db : Db} {c : Call}
    (h : P.Disciplined P.Final (body c) [] db) : P.TxOk body db (Tx.fresh body c) where
  owns := trivial
  keeps := h
  follows := Or.inl (.nil _ _)

/-- One statement keeps a transaction's invariant. -/
theorem TxOk.after {db : Db} {t : Tx E Call α} (h : P.TxOk body db t) (hg : P.Good [] db)
    {st : Stmt} {k : Reply st → Prog Reply Err α} (hr : t.rest = .op st k)
    (d : Draw Time Id) : P.TxOk body db (t.after db d st k) := by
  have hgv : P.Good t.held (E.view db t.writes) :=
    P.good_view (P.good_mono (List.nil_subset _) hg) h.owns
  have hk := h.keeps
  rw [hr] at hk
  obtain ⟨-, -, hex⟩ := hk _ hgv (P.evolves_refl _ _) d
  have hsub : t.held ⊆ E.wants st (E.view db t.writes) d ++ t.held :=
    List.subset_append_right _ _
  have hfollow (hst : P.Steady (E.wants st (E.view db t.writes) d ++ t.held)
        (E.view db t.writes) st d k ∨ P.GivenUp (E.next (E.view db t.writes) d st k).1) :
      P.Traced db (t.after db d st k).held (body t.call) [] (t.after db d st k).draws
        (t.after db d st k).rest (t.after db d st k).writes ∨
      P.GivenUp (t.after db d st k).rest := by
    rcases hst with hst | hup
    · rcases h.follows with ht | hup
      · rw [hr] at ht
        exact Or.inl ((ht.mono hsub).snoc hst)
      · refine Or.inr ?_
        rw [hr] at hup
        change P.GivenUp (E.next (E.view db t.writes) d st k).1
        cases hx : E.exec st (E.view db t.writes) d with
        | ok out => rw [E.next_ok hx]; exact hup.2 out.1
        | error e => rw [E.next_error hx]; exact P.probe_error hup.1 hx
    · exact Or.inr hup
  cases hx : E.exec st (E.view db t.writes) d with
  | error e =>
    have hn : E.next (E.view db t.writes) d st k = (.fail e, []) := E.next_error hx
    simp only [hx] at hex
    refine ⟨?_, ?_, hfollow (hex.1.imp_right (fun hl => by rw [hn]; exact hl))⟩
    · simpa only [Tx.after, hn, List.append_nil] using P.ownsAll_mono hsub h.owns
    · simp only [Tx.after, hn]
      exact hex.2
  | ok out =>
    obtain ⟨r, ws⟩ := out
    have hn : E.next (E.view db t.writes) d st k = (k r, ws) := E.next_ok hx
    simp only [hx] at hex
    refine ⟨?_, ?_, hfollow (hex.1.imp_right (fun hl => by rw [hn]; exact hl))⟩
    · simp only [Tx.after, hn]
      exact (P.ownsAll_append _ _ _ _).2 ⟨P.ownsAll_mono hsub h.owns, hex.2.1⟩
    · simp only [Tx.after, hn, E.view_append]
      exact hex.2.2

theorem Inv.init {db₀ : Db} {clock : Time} (hg : P.Good [] db₀) :
    P.Inv body db₀ (⟨db₀, clock, [], []⟩ : Sys E Call α) where
  explained := .nil
  good := hg
  apart i j _ o ho := by simp [Sys.held, Sys.tx] at ho
  each i t ht := by simp [Sys.tx] at ht

theorem held_close {s : Sys E Call α} {i j : ℕ} {db : Db} {e : Event E Call α} {o : Obj}
    (h : o ∈ (s.close i db e).held j) : j ≠ i ∧ o ∈ s.held j := by
  cases ht : (s.close i db e).tx j with
  | none => simp [Sys.held, ht] at h
  | some t =>
    obtain ⟨hj, hs⟩ := Sys.tx_of_close ht
    rw [Sys.held_of_tx ht] at h
    rw [Sys.held_of_tx hs]
    exact ⟨hj, h⟩

/-- Ending a transaction keeps the invariant when what it leaves behind is
explained, good, and visible to the others as an allowed change. -/
theorem Inv.close {db₀ db : Db} {s : Sys E Call α} (h : P.Inv body db₀ s) {i : ℕ}
    {e : Event E Call α} (hx : P.Explains body db₀ (s.log ++ [e]) db) (hg : P.Good [] db)
    (he : ∀ j t, j ≠ i → s.tx j = some t → P.Evolves t.held s.db db) :
    P.Inv body db₀ (s.close i db e) where
  explained := hx
  good := hg
  apart j k hjk o ho hk := h.apart j k hjk o (held_close ho).2 (held_close hk).2
  each j t ht := by
    obtain ⟨hj, hs⟩ := Sys.tx_of_close ht
    exact (h.each j t hs).evolves (he j t hj hs)

/-- What is about to commit is what the call alone does to the present database. -/
theorem Inv.alone {db₀ : Db} {s : Sys E Call α} (h : P.Inv body db₀ s) {i : ℕ}
    {t : Tx E Call α} {a : α} (ht : s.tx i = some t) (hr : t.rest = .ret a) :
    E.alone s.db (body t.call) s.db t.draws = some (.ok a, E.view s.db t.writes) := by
  have htr : P.Traced s.db t.held (body t.call) [] t.draws (.ret a) t.writes := by
    have := (h.each i t ht).follows
    rw [hr] at this
    exact this.resolve_right id
  have := htr.alone s.db []
  simpa only [List.append_nil, Engine.view_nil, Engine.alone_ret_nil] using this

theorem Inv.commit {db₀ : Db} {s : Sys E Call α} (h : P.Inv body db₀ s) {i : ℕ}
    {t : Tx E Call α} {a : α} (ht : s.tx i = some t) (hr : t.rest = .ret a) :
    P.Inv body db₀ (s.close i (E.view s.db t.writes) (.ended ⟨t.call, t.draws, .ok a⟩)) := by
  have hok := h.each i t ht
  have hgL : P.Good t.held s.db := P.good_mono (List.nil_subset _) h.good
  have hk := hok.keeps
  rw [hr] at hk
  have hg : P.Good [] (E.view s.db t.writes) :=
    hk _ (P.good_view hgL hok.owns) (P.evolves_refl _ _)
  refine h.close (.commit _ _ _ _ h.explained hg (h.alone ht hr)) hg (fun j u hj hu => ?_)
  refine P.commit_evolves hgL hok.owns (fun o ho => ?_)
  have := h.apart i j (Ne.symm hj) o (by rwa [Sys.held_of_tx ht])
  rwa [Sys.held_of_tx hu] at this

theorem Inv.rollback {db₀ : Db} {s : Sys E Call α} (h : P.Inv body db₀ s) {i : ℕ}
    {t : Tx E Call α} {e : Err} (ht : s.tx i = some t) (hr : t.rest = .fail e) :
    P.Inv body db₀ (s.close i s.db (.ended ⟨t.call, t.draws, .error e⟩)) := by
  have hok := h.each i t ht
  have hth : P.Throws e := by
    have := hok.keeps
    rwa [hr] at this
  have ha : E.alone s.db (body t.call) s.db t.draws = some (.error e, s.db) ∨ P.Lost e := by
    have hf := hok.follows
    rw [hr] at hf
    refine hf.imp_left (fun htr => ?_)
    have := htr.alone s.db []
    simpa only [List.append_nil, Engine.view_nil, Engine.alone_fail_nil] using this
  exact h.close (.abort _ _ _ h.explained hth ha) h.good (fun _ _ _ _ => P.evolves_refl _ _)

theorem Inv.issue {db₀ : Db} {s : Sys E Call α} (h : P.Inv body db₀ s) {i : ℕ} {id : Id}
    {t : Tx E Call α} {st : Stmt} {k : Reply st → Prog Reply Err α} (ht : s.tx i = some t)
    (hr : t.rest = .op st k)
    (hf : s.Free i (E.wants st (E.view s.db t.writes) ⟨s.clock, id⟩)) :
    P.Inv body db₀ (s.put i (t.after s.db ⟨s.clock, id⟩ st k)) := by
  have hheld (j : ℕ) (hj : j ≠ i) :
      (s.put i (t.after s.db ⟨s.clock, id⟩ st k)).held j = s.held j := by
    simp only [Sys.held, Sys.tx_put_ne hj]
  have hnew : (s.put i (t.after s.db ⟨s.clock, id⟩ st k)).held i =
      E.wants st (E.view s.db t.writes) ⟨s.clock, id⟩ ++ t.held :=
    Sys.held_of_tx (Sys.tx_put_self ht)
  have hmine (j : ℕ) (hj : j ≠ i) (o : Obj)
      (ho : o ∈ E.wants st (E.view s.db t.writes) ⟨s.clock, id⟩ ++ t.held) : o ∉ s.held j := by
    rcases List.mem_append.1 ho with hw | ho
    · intro hoj
      by_cases hlt : j < s.txs.length
      · exact hf j hlt hj o hw hoj
      · simp [Sys.held, Sys.tx, List.getElem?_eq_none (Nat.le_of_not_lt hlt)] at hoj
    · exact h.apart i j (Ne.symm hj) o (by rwa [Sys.held_of_tx ht])
  refine ⟨h.explained, h.good, fun j l hjl o ho hl => ?_, fun j u hu => ?_⟩
  · by_cases hji : j = i
    · subst hji
      rw [hnew] at ho
      rw [hheld l (Ne.symm hjl)] at hl
      exact hmine l (Ne.symm hjl) o ho hl
    · rw [hheld j hji] at ho
      by_cases hli : l = i
      · subst hli
        rw [hnew] at hl
        exact hmine j hji o hl ho
      · rw [hheld l hli] at hl
        exact h.apart j l hjl o ho hl
  · by_cases hji : j = i
    · subst hji
      rw [Sys.tx_put_self ht, Option.some.injEq] at hu
      subst hu
      exact (h.each j t ht).after h.good hr _
    · rw [Sys.tx_put_ne hji] at hu
      exact h.each j u hu

theorem Inv.start {db₀ : Db} {s : Sys E Call α} (h : P.Inv body db₀ s) {c : Call}
    (hc : P.Disciplined P.Final (body c) [] s.db) :
    P.Inv body db₀ { s with txs := s.txs ++ [some (Tx.fresh body c)] } := by
  have hheld (j : ℕ) (o : Obj)
      (ho : o ∈ ({ s with txs := s.txs ++ [some (Tx.fresh body c)] } : Sys E Call α).held j) :
      o ∈ s.held j := by
    cases ht : ({ s with txs := s.txs ++ [some (Tx.fresh body c)] } : Sys E Call α).tx j with
    | none => simp [Sys.held, ht] at ho
    | some t =>
      rw [Sys.held_of_tx ht] at ho
      rcases Sys.tx_of_start ht with ⟨-, rfl⟩ | hs
      · cases ho
      · rwa [Sys.held_of_tx hs]
  refine ⟨h.explained, h.good, fun i j hij o hi hj =>
    h.apart i j hij o (hheld i o hi) (hheld j o hj), fun j t ht => ?_⟩
  rcases Sys.tx_of_start ht with ⟨-, rfl⟩ | hs
  · exact TxOk.fresh hc
  · exact h.each j t hs

section Step

variable [DecidableEq Obj] [LinearOrder Time] {admits : Db → Call → Prop}

theorem Inv.step {db₀ : Db} {s s' : Sys E Call α} {l : Label Call Time Id Ext}
    (hbody : ∀ db c, P.Good [] db → admits db c → P.Disciplined P.Final (body c) [] db)
    (h : P.Inv body db₀ s) (hok : P.Ok admits s l) (hs : s.step? body l = some s') :
    P.Inv body db₀ s' := by
  cases Sys.step?_did body hs with
  | tick t hle => exact ⟨h.explained, h.good, h.apart, h.each⟩
  | start c => exact h.start (hbody s.db c h.good hok)
  | step i id t st k ht hr hf => exact h.issue ht hr hf
  | commit i t a ht hr => exact h.commit ht hr
  | rollback i t e ht hr => exact h.rollback ht hr
  | kill i t ht =>
    exact h.close (.killed _ h.explained) h.good (fun _ _ _ _ => P.evolves_refl _ _)
  | external x db' hx =>
    have hg := P.others_good hok h.good hx
    exact ⟨.external x db' h.explained hg hok hx, hg, h.apart, fun j t ht =>
      (h.each j t ht).evolves (P.others_evolve hok h.good hx _)⟩

/-- Every reachable state satisfies the invariant. -/
theorem Inv.reach {db₀ : Db} {s₀ s : Sys E Call α}
    (hbody : ∀ db c, P.Good [] db → admits db c → P.Disciplined P.Final (body c) [] db)
    (h₀ : P.Inv body db₀ s₀) (h : Sys.Reach body (P.Ok admits) s₀ s) : P.Inv body db₀ s := by
  induction h with
  | refl => exact h₀
  | tail l _ hok hs ih => exact ih.step hbody hok hs

end Step

/-- Without outside changes and without giving up, the log is a serial run of
the ended calls. -/
theorem Explains.serial {db₀ db : Db} {log : List (Event E Call α)}
    (h : P.Explains body db₀ log db) (hlost : ∀ e, ¬ P.Lost e) (hext : ∀ x, ¬ P.Allows x) :
    E.serial body db₀ ((log.filterMap Event.ended?).map (fun e => (e.call, e.draws))) =
      some ((log.filterMap Event.ended?).map (·.outcome), db) := by
  induction h with
  | nil => rfl
  | commit c ds a db' _ _ ha ih =>
    simp only [List.filterMap_append, List.filterMap_cons, List.filterMap_nil, Event.ended?,
      List.map_append, List.map_cons, List.map_nil]
    exact E.serial_snoc body _ c ds _ _ _ _ _ ih ha
  | abort c ds e _ _ ha ih =>
    simp only [List.filterMap_append, List.filterMap_cons, List.filterMap_nil, Event.ended?,
      List.map_append, List.map_cons, List.map_nil]
    exact E.serial_snoc body _ c ds _ _ _ _ _ ih (ha.resolve_right (hlost e))
  | killed c _ ih =>
    simpa only [List.filterMap_append, List.filterMap_cons, List.filterMap_nil, Event.ended?,
      List.append_nil] using ih
  | external x db' _ _ hx _ _ => exact absurd hx (hext x)

end Serial

end Txn.Protocol
