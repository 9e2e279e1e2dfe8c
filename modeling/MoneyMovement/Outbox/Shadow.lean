import MoneyMovement.Outbox.Emitted
import MoneyMovement.Outbox.Worker

/-!
# The API does not see the workers

No statement of the API reads what a worker writes. So in a run with workers the
API does what it does in some run without, and what holds there of its rows holds
of them here.
-/

namespace MoneyMovement

open Txn

section Columns

/-- An event without what workers write on it. -/
def OutboxEvent.asInserted (e : OutboxEvent) : OutboxEvent :=
  { e with processedAt := none, attemptCount := 0, lastError := none,
           nextAttemptAt := e.occurredAt }

def RiskAssessment.unexplained (r : RiskAssessment) : RiskAssessment :=
  { r with explanation := none }

/-- The same database, but for what workers write. -/
def SameForApi (v v' : Db) : Prop :=
  ∃ events assessments, v' = { v with outboxEvents := events, riskAssessments := assessments } ∧
    events.map OutboxEvent.asInserted = v.outboxEvents.map OutboxEvent.asInserted ∧
    assessments.map RiskAssessment.unexplained = v.riskAssessments.map RiskAssessment.unexplained

def hidden : Hidden store where
  Same := SameForApi
  refl v := ⟨v.outboxEvents, v.riskAssessments, rfl, rfl, rfl⟩
  exec h s d := by
    obtain ⟨events, assessments, rfl, -, -⟩ := h
    cases s <;> rfl
  wants h s d := by
    obtain ⟨events, assessments, rfl, -, -⟩ := h
    cases s <;> rfl
  apply h w := by
    obtain ⟨events, assessments, rfl, he, ha⟩ := h
    cases w with
    | insertOutboxEvent e =>
      exact ⟨events ++ [e], assessments, rfl, by simp only [applyWrite, store, List.map_append, he],
        ha⟩
    | insertAssessment r =>
      exact ⟨events, assessments ++ [r], rfl, he, by
        simp only [applyWrite, store, List.map_append, ha]⟩
    | _ => exact ⟨events, assessments, rfl, he, ha⟩
  others {v v'} h {r u'} hx := by
    obtain ⟨events, assessments, rfl, he, ha⟩ := h
    simp only [store, register] at hx ⊢
    split at hx
    · cases hx
    · next hn =>
      cases hx
      exact ⟨_, if_neg hn, events, assessments, rfl, he, ha⟩

theorem SameForApi.trans {v v' v'' : Db} (h : SameForApi v v') (h' : SameForApi v' v'') :
    SameForApi v v'' := by
  obtain ⟨events, assessments, rfl, he, ha⟩ := h
  obtain ⟨events', assessments', rfl, he', ha'⟩ := h'
  exact ⟨events', assessments', rfl, he'.trans he, ha'.trans ha⟩

theorem asInserted_update {f : OutboxEvent → OutboxEvent} {events : List OutboxEvent}
    (hf : ∀ e, (f e).asInserted = e.asInserted) :
    (events.map f).map OutboxEvent.asInserted = events.map OutboxEvent.asInserted := by
  rw [List.map_map]
  exact List.map_congr_left (fun e _ => hf e)

theorem markProcessed_asInserted (id : Uuid) (now : Time) (e : OutboxEvent) :
    (e.markProcessed id now).asInserted = e.asInserted := by
  unfold OutboxEvent.markProcessed
  split_ifs <;> rfl

theorem recordFailure_asInserted (id : Uuid) (error : JsString) (backoff : ℕ) (now : Time)
    (e : OutboxEvent) : (e.recordFailure id error backoff now).asInserted = e.asInserted := by
  unfold OutboxEvent.recordFailure
  split_ifs <;> rfl

theorem reopen_asInserted (id : Uuid) (e : OutboxEvent) :
    (e.reopen id).asInserted = e.asInserted := by
  unfold OutboxEvent.reopen
  split_ifs <;> rfl

theorem explain_unexplained (id : Uuid) (text : JsString) (r : RiskAssessment) :
    (r.explain id text).unexplained = r.unexplained := by
  unfold RiskAssessment.explain
  split_ifs <;> rfl

theorem ids_of_asInserted {events events' : List OutboxEvent}
    (h : events'.map OutboxEvent.asInserted = events.map OutboxEvent.asInserted) :
    events'.map OutboxEvent.id = events.map OutboxEvent.id := by
  have hid : OutboxEvent.id ∘ OutboxEvent.asInserted = OutboxEvent.id := rfl
  rw [← hid, ← List.map_map, h, List.map_map]

end Columns

section Steps

variable {w w' : World} {cfg : Config}

inductive Worked (w : World) (i : ℕ) : Worker → WorkerMove → World → Prop
  | drain (n : ℕ) : Worked w i ⟨0, .idle⟩ (.drain n) (w.put i n .idle)
  | claim (left : ℕ) (e : OutboxEvent) (he : e ∈ w.db.outboxEvents) (hdue : e.Due w.clock)
      (hfree : ¬ w.Locked e.id) : Worked w i ⟨left + 1, .idle⟩ (.claim e.id)
        ({ w with started := w.started ++ [e.id] }.put i left
          (.claimed (.of e e.attemptCount) w.clock))
  | idle (left : ℕ) : Worked w i ⟨left + 1, .idle⟩ .idle (w.put i 0 .idle)
  | handle (left : ℕ) (c : ClaimedOutboxEvent) (now : Time) (planned : List PlannedNotification)
      (hp : NotificationConsumer.plan c = .ok planned) :
      Worked w i ⟨left, .claimed c now⟩ .handle (w.put i left (.inserting c now planned []))
  | throw (left : ℕ) (c : ClaimedOutboxEvent) (now : Time) (error : JsString)
      (hp : NotificationConsumer.plan c = .error error) :
      Worked w i ⟨left, .claimed c now⟩ .handle (w.put i left (.failed c error))
  | insert (left : ℕ) (c : ClaimedOutboxEvent) (now : Time) (p : PlannedNotification)
      (planned : List PlannedNotification) (rows new : List Notification) (id : Uuid)
      (refusal : JsString) (hid : w.Unused id)
      (hx : NotificationsRepository.insertIfAbsent w.db.users (w.notifications ++ rows) p id c.id
        now = .ok new) :
      Worked w i ⟨left, .inserting c now (p :: planned) rows⟩ (.insert id refusal)
        (w.put i left (.inserting c now planned (rows ++ new)))
  | refuse (left : ℕ) (c : ClaimedOutboxEvent) (now : Time) (p : PlannedNotification)
      (planned : List PlannedNotification) (rows : List Notification) (id : Uuid)
      (refusal : JsString) (r : NotificationsRepository.Refusal)
      (hx : NotificationsRepository.insertIfAbsent w.db.users (w.notifications ++ rows) p id c.id
        now = .error r) :
      Worked w i ⟨left, .inserting c now (p :: planned) rows⟩ (.insert id refusal)
        (w.put i left (.failed c refusal))
  | fault (left : ℕ) (phase : Phase) (c : ClaimedOutboxEvent) (error : JsString)
      (hc : (∃ now, phase = .claimed c now) ∨ ∃ now planned rows,
        phase = .inserting c now planned rows) :
      Worked w i ⟨left, phase⟩ (.fault error) (w.put i left (.failed c error))
  | commit (left : ℕ) (c : ClaimedOutboxEvent) (now : Time) (rows : List Notification) :
      Worked w i ⟨left, .inserting c now [] rows⟩ .commit (w.commit i left c rows)
  | recordFailure (left : ℕ) (c : ClaimedOutboxEvent) (error : JsString)
      (hfree : ¬ w.Locked c.id) :
      Worked w i ⟨left, .failed c error⟩ .recordFailure
        ((w.update (w.db.updateEvents (OutboxEvent.recordFailure c.id error
          (BASE_BACKOFF_SECONDS * 2 ^ c.attemptCount) w.clock))).put i left .idle)
  | loseFailure (left : ℕ) (c : ClaimedOutboxEvent) (error : JsString) :
      Worked w i ⟨left, .failed c error⟩ .loseFailure (w.put i left .idle)
  | explain (left : ℕ) (c : ClaimedOutboxEvent) (text : JsString) :
      Worked w i ⟨left, .processed c⟩ (.explain (some text))
        ((w.update (w.db.updateAssessments (RiskAssessment.explain c.aggregateId text))).put i
          left .idle)
  | skip (left : ℕ) (c : ClaimedOutboxEvent) (text : Option JsString) :
      Worked w i ⟨left, .processed c⟩ (.explain text) (w.put i left .idle)
  | crash (k : Worker) : Worked w i k .crash (w.put i 0 .idle)

theorem work?_worked {i : ℕ} {k : Worker} {m : WorkerMove} (h : w.work? i k m = some w') :
    Worked w i k m w' := by
  unfold World.work? at h
  split at h
  · next n =>
    cases h
    exact .drain n
  · next left eventId =>
    unfold World.claim? at h
    split at h
    · cases h
    · next e he =>
      have hid : e.id = eventId := (find?_spec he).2
      obtain rfl := hid
      split_ifs at h with hdue
      cases h
      exact .claim left e (List.mem_of_find?_eq_some he) hdue.1 hdue.2
  · next left =>
    cases h
    exact .idle left
  · next left c now =>
    cases h
    unfold World.handle
    split
    · next planned hp => exact .handle left c now planned hp
    · next error hp => exact .throw left c now error hp
  · next left c now p planned rows id refusal =>
    split_ifs at h with hid
    cases h
    unfold World.insert
    split
    · next new hx => exact .insert left c now p planned rows new id refusal hid hx
    · next r hx => exact .refuse left c now p planned rows id refusal r hx
  · next left c now error =>
    cases h
    exact .fault left _ c error (Or.inl ⟨now, rfl⟩)
  · next left c now planned rows error =>
    cases h
    exact .fault left _ c error (Or.inr ⟨now, planned, rows, rfl⟩)
  · next left c now rows =>
    cases h
    exact .commit left c now rows
  · next left c error =>
    unfold World.recordFailure? at h
    split_ifs at h with hfree
    cases h
    exact .recordFailure left c error hfree
  · next left c error =>
    cases h
    exact .loseFailure left c error
  · next left c text =>
    cases h
    unfold World.explain
    split
    · next text =>
      split_ifs
      · exact .explain left c text
      · exact .skip left c (some text)
    · exact .skip left c none
  · cases h
    exact .crash _
  · cases h

inductive Moved (cfg : Config) (w : World) : Move → World → Prop
  | service (l : Event) (s : Service) (hf : Service.Fresh w.service l)
      (hs : w.service.step? (body cfg) l = some s) :
      Moved cfg w (.service l) { w with service := s }
  | markRead (notificationId userId : Uuid) :
      Moved cfg w (.markRead notificationId userId) (w.read notificationId userId)
  | reopen (eventId : Uuid) (hfree : ¬ w.Locked eventId) :
      Moved cfg w (.reopen eventId) (w.update (w.db.updateEvents (OutboxEvent.reopen eventId)))
  | worker (i : ℕ) (k : Worker) (m : WorkerMove) (w' : World) (hk : w.workers[i]? = some k)
      (hw : Worked w i k m w') : Moved cfg w (.worker i m) w'

theorem step?_moved {m : Move} (h : w.step? cfg m = some w') : Moved cfg w m w' := by
  cases m with
  | service l =>
    simp only [World.step?] at h
    split_ifs at h with hf
    obtain ⟨s, hs, rfl⟩ := Option.map_eq_some_iff.1 h
    exact .service l s hf hs
  | markRead notificationId userId =>
    cases h
    exact .markRead notificationId userId
  | reopen eventId =>
    simp only [World.step?] at h
    split_ifs at h with hfree
    cases h
    exact .reopen eventId hfree
  | worker i m =>
    obtain ⟨k, hk, hw⟩ := Option.bind_eq_some_iff.1 h
    exact .worker i k m w' hk (work?_worked hw)

/-- What a move of anybody but the API leaves of the database. -/
theorem Moved.sameForApi {m : Move} (h : Moved cfg w m w') :
    (∃ l s, m = .service l ∧ Service.Fresh w.service l ∧ w.service.step? (body cfg) l = some s ∧
      w'.service = s) ∨ ∃ v, SameForApi w.db v ∧ w'.service = { w.service with db := v } := by
  have events (f : OutboxEvent → OutboxEvent) (hf : ∀ e, (f e).asInserted = e.asInserted) :
      SameForApi w.db (w.db.updateEvents f) :=
    ⟨_, w.db.riskAssessments, rfl, asInserted_update hf, rfl⟩
  cases h with
  | service l s hf hs => exact Or.inl ⟨l, s, rfl, hf, hs, rfl⟩
  | markRead => exact Or.inr ⟨w.db, hidden.refl w.db, rfl⟩
  | reopen id hfree => exact Or.inr ⟨_, events _ (reopen_asInserted id), rfl⟩
  | worker i k m w' hk hw =>
    cases hw with
    | commit left c now rows => exact Or.inr ⟨_, events _ (markProcessed_asInserted _ _), rfl⟩
    | recordFailure left c error hfree =>
      exact Or.inr ⟨_, events _ (recordFailure_asInserted _ _ _ _), rfl⟩
    | explain left c text =>
      refine Or.inr ⟨_, ⟨w.db.outboxEvents, _, rfl, rfl, ?_⟩, rfl⟩
      rw [List.map_map]
      exact List.map_congr_left (fun r _ => explain_unexplained c.aggregateId text r)
    | _ => exact Or.inr ⟨w.db, hidden.refl w.db, rfl⟩

end Steps

section EventIds

variable {cfg : Config} {db₀ : Db} {clock : Time} {s s' : Service}

def Write.event? : Write → Option OutboxEvent
  | .insertOutboxEvent e => some e
  | _ => none

theorem view_events (db : Db) (ws : List Write) : (store.view db ws).outboxEvents =
    db.outboxEvents ++ ws.filterMap Write.event? := by
  induction ws generalizing db with
  | nil => simp
  | cons w ws ih =>
    rw [Engine.view_cons, ih]
    cases w with
    | insertOutboxEvent e => simp [store, applyWrite, Write.event?]
    | _ => rfl

def pendingIds (s : Service) (i : ℕ) : List Uuid := (s.pending i).filterMap Write.eventId?

theorem map_event?_id (ws : List Write) :
    (ws.filterMap Write.event?).map OutboxEvent.id = ws.filterMap Write.eventId? := by
  rw [List.map_filterMap]
  refine List.filterMap_congr (fun w _ => ?_)
  cases w <;> rfl

/-- No id of an event is drawn twice. -/
structure DistinctIds (s : Service) : Prop where
  each : ∀ i, (s.db.outboxEvents.map OutboxEvent.id ++ pendingIds s i).Nodup
  apart : ∀ i j, i ≠ j → (pendingIds s i).Disjoint (pendingIds s j)

theorem pendingIds_of_tx {i : ℕ} {t : Tx store Command Response} (h : s.tx i = some t) :
    pendingIds s i = t.writes.filterMap Write.eventId? := by
  rw [pendingIds, pending_of_tx h]

theorem pendingIds_close_self (i : ℕ) (db : Db) (e : Txn.Event store Command Response) :
    pendingIds (s.close i db e) i = [] := by
  rw [pendingIds, pending_close_self, List.filterMap_nil]

theorem pendingIds_close_ne {i j : ℕ} {db : Db} {e : Txn.Event store Command Response}
    (h : j ≠ i) : pendingIds (s.close i db e) j = pendingIds s j := by
  rw [pendingIds, pending_close_ne h, pendingIds]

theorem pendingIds_mem {i : ℕ} {id : Uuid} (h : id ∈ pendingIds s i) :
    id ∈ Service.eventIds s := by
  refine List.mem_append_right _ (List.mem_flatMap.2 ⟨i, ?_, h⟩)
  rw [List.mem_range]
  by_contra hi
  have hnone : s.tx i = none := by
    simp [Sys.tx, List.getElem?_eq_none (Nat.le_of_not_lt hi)]
  simp [pendingIds, Sys.pending, hnone] at h

theorem nodup_append_append {α : Type} {a b c : List α} (hab : (a ++ b).Nodup)
    (hac : (a ++ c).Nodup) (hbc : b.Disjoint c) : (a ++ b ++ c).Nodup := by
  rw [List.nodup_append'] at hab hac ⊢
  refine ⟨List.nodup_append'.2 hab, hac.2.1, ?_⟩
  rw [List.disjoint_append_left]
  exact ⟨hac.2.2, hbc⟩

/-- What a step adds to the pending ids of a call is the id it has drawn. -/
theorem pendingIds_after {l : Event} (hs : s.step? (body cfg) l = some s') (j : ℕ) :
    (pendingIds s' j = pendingIds s j ∨ pendingIds s' j = []) ∨
      ∃ id, l = .step j id ∧ pendingIds s' j = pendingIds s j ++ [id] := by
  rcases pending_after hs j with heq | heq | ⟨id, t, st, k, rfl, -, -, heq⟩
  · exact Or.inl (Or.inl (by rw [pendingIds, heq]; rfl))
  · exact Or.inl (Or.inr (by rw [pendingIds, heq]; rfl))
  · have hids : pendingIds s' j = pendingIds s j ++
        (store.next (store.view s.db t.writes) ⟨s.clock, id⟩ st k).2.filterMap Write.eventId? := by
      rw [pendingIds, heq, List.filterMap_append]
      rfl
    cases hx : store.exec st (store.view s.db t.writes) ⟨s.clock, id⟩ with
    | error e =>
      rw [store.next_error hx] at hids
      exact Or.inl (Or.inl (by simpa using hids))
    | ok out =>
      rw [store.next_ok hx] at hids
      rcases exec_produces hx with hnil | ⟨w, hw, hp⟩
      · rw [hnil] at hids
        exact Or.inl (Or.inl (by simpa using hids))
      · rw [hw] at hids
        cases hp with
        | insertOutboxEvent input e hid =>
          refine Or.inr ⟨id, rfl, hids.trans ?_⟩
          simp [Write.eventId?, hid]
        | _ => exact Or.inl (Or.inl (hids.trans (List.append_nil _)))

theorem DistinctIds.step {l : Event} (h : DistinctIds s) (hf : Service.Fresh s l)
    (hs : s.step? (body cfg) l = some s') : DistinctIds s' := by
  -- Ids are fresh when drawn, so the pending ones stay apart.
  have hnew {j : ℕ} {id : Uuid} (hl : l = .step j id) : id ∉ Service.eventIds s := by
    subst hl
    exact hf
  have hsub (j : ℕ) : ∀ x ∈ pendingIds s' j,
      x ∈ pendingIds s j ∨ ∃ id, l = .step j id ∧ x = id := by
    intro x hx
    rcases pendingIds_after hs j with (heq | heq) | ⟨id, hl, heq⟩
    · exact Or.inl (heq ▸ hx)
    · rw [heq] at hx
      cases hx
    · rw [heq] at hx
      rcases List.mem_append.1 hx with hx | hx
      · exact Or.inl hx
      · exact Or.inr ⟨id, hl, List.mem_singleton.1 hx⟩
  refine ⟨fun j => ?_, fun i j hij => ?_⟩
  · have hkept
        (hdb : s'.db.outboxEvents.map OutboxEvent.id = s.db.outboxEvents.map OutboxEvent.id) :
        (s'.db.outboxEvents.map OutboxEvent.id ++ pendingIds s' j).Nodup := by
      rw [hdb]
      rcases pendingIds_after hs j with (heq | heq) | ⟨id, hl, heq⟩
      · rw [heq]
        exact h.each j
      · rw [heq, List.append_nil]
        exact (List.nodup_append'.1 (h.each j)).1
      · rw [heq, ← List.append_assoc, List.nodup_append']
        refine ⟨h.each j, List.nodup_singleton id, ?_⟩
        rw [List.disjoint_singleton]
        intro hm
        rcases List.mem_append.1 hm with hm | hm
        · exact hnew hl (List.mem_append_left _ hm)
        · exact hnew hl (pendingIds_mem hm)
    cases Sys.step?_did (body cfg) hs with
    | commit i t a ht hr =>
      have hdb : (s.close i (store.view s.db t.writes)
          (.ended ⟨t.call, t.draws, .ok a⟩)).db.outboxEvents.map OutboxEvent.id =
          s.db.outboxEvents.map OutboxEvent.id ++ pendingIds s i := by
        rw [Sys.close_db, view_events, List.map_append, map_event?_id, pendingIds_of_tx ht]
      rw [hdb]
      by_cases hj : j = i
      · subst hj
        rw [pendingIds_close_self, List.append_nil]
        exact h.each j
      · rw [pendingIds_close_ne hj]
        exact nodup_append_append (h.each i) (h.each j) (h.apart i j (Ne.symm hj))
    | external r db' hx =>
      obtain ⟨-, -, -, rfl⟩ := register_spec hx
      exact hkept rfl
    | _ => exact hkept rfl
  · intro x hi hj
    rcases hsub i x hi with hi | ⟨id, hl, rfl⟩
    · rcases hsub j x hj with hj | ⟨id, hl, rfl⟩
      · exact h.apart i j hij hi hj
      · exact hnew hl (pendingIds_mem hi)
    · rcases hsub j x hj with hj | ⟨id', hl', -⟩
      · exact hnew hl (pendingIds_mem hj)
      · rw [hl] at hl'
        cases hl'
        exact hij rfl

theorem DistinctIds.initial (h : db₀.outboxEvents = []) :
    DistinctIds (Service.initial db₀ clock) := by
  have hnone (i : ℕ) : pendingIds (Service.initial db₀ clock) i = [] := by
    simp [pendingIds, Sys.pending, Sys.tx, Service.initial]
  refine ⟨fun i => ?_, fun i j _ => ?_⟩
  · rw [hnone, show (Service.initial db₀ clock).db.outboxEvents = [] from h]
    exact List.nodup_nil
  · rw [hnone]
    exact List.disjoint_nil_left _

theorem distinctIds (h₀ : db₀.outboxEvents = [])
    (h : Sys.Reach (body cfg) Service.Fresh (Service.initial db₀ clock) s) : DistinctIds s := by
  induction h with
  | refl => exact .initial h₀
  | tail l _ hf hs ih => exact ih.step hf hs

end EventIds

section Shadow

variable {cfg : Config} {db₀ : Db} {clock : Time} {n : ℕ} {w : World}
  {permits : World → Move → Prop}

abbrev World.Reached (cfg : Config) (permits : World → Move → Prop) : World → World → Prop :=
  Reaches (World.step? cfg) permits

theorem fresh_of_alike {s s' : Service} {l : Event} (h : hidden.Alike s s')
    (hf : Service.Fresh s' l) : Service.Fresh s l := by
  obtain ⟨v, ⟨events, assessments, rfl, he, -⟩, rfl⟩ := h
  cases l with
  | step i id =>
    have hids := ids_of_asInserted he
    simp only [Service.Fresh, Service.eventIds] at hf ⊢
    rw [← hids]
    exact hf
  | _ => trivial

/-- Some run of the API alone has come to the same rows, but for the workers' columns. -/
theorem shadow (h : World.Reached cfg permits (World.initial db₀ clock n) w) :
    ∃ s, Sys.Reach (body cfg) Service.Fresh (Service.initial db₀ clock) s ∧
      hidden.Alike s w.service := by
  induction h with
  | refl => exact ⟨_, .refl, db₀, hidden.refl db₀, rfl⟩
  | @tail w w' m _ _ hs ih =>
    obtain ⟨s, hr, ha⟩ := ih
    rcases (step?_moved hs).sameForApi with ⟨l, t, -, hf, hstep, rfl⟩ | ⟨v, hv, hw⟩
    · obtain ⟨t', ht', ha'⟩ := ha.step (body cfg) hstep
      exact ⟨t', hr.tail l (fresh_of_alike ha hf) ht', ha'⟩
    · obtain ⟨u, hu, hservice⟩ := ha
      rw [World.db, hservice] at hv
      refine ⟨s, hr, v, hu.trans hv, ?_⟩
      rw [hw, hservice]

/-- An event asks for the same whatever the workers have written on it. -/
theorem Emits.asInserted {v : Db} {e e' : OutboxEvent} {notices : List Notice}
    (h : Emits v e notices) (he : e'.asInserted = e.asInserted) : Emits v e' notices := by
  have hid : e'.aggregateId = e.aggregateId := (congrArg OutboxEvent.aggregateId he :)
  have htype : e'.eventType = e.eventType := (congrArg OutboxEvent.eventType he :)
  have hof (n : ℕ) : ClaimedOutboxEvent.of e' n = .of e n :=
    (congrArg (ClaimedOutboxEvent.of · n) he :)
  refine ⟨?_, fun n => by rw [hof, h.planned], h.users⟩
  cases h.owed with
  | direct t ht hi hty hsource => exact .direct t ht (hi.trans hid.symm) (htype.trans hty) hsource
  | sourced t ht hi hty hsource => exact .sourced t ht (hi.trans hid.symm) (htype.trans hty) hsource
  | flagged hty => exact .flagged (htype.trans hty)
  | request r hr hi n hn => exact .request r hr (hi.trans hid.symm) n (htype ▸ hn)

theorem emits (h₀ : Quiet db₀)
    (h : World.Reached cfg permits (World.initial db₀ clock n) w) :
    ∀ e ∈ w.db.outboxEvents, ∃ notices, Emits w.db e notices := by
  obtain ⟨s, hr, v, ⟨events, assessments, rfl, he, -⟩, hw⟩ := shadow h
  have hemitted := emitted h₀ (hr.mono _ (fun _ _ _ => trivial))
  intro e hm
  rw [World.db, hw] at hm ⊢
  have hmem : e.asInserted ∈ s.db.outboxEvents.map OutboxEvent.asInserted :=
    he ▸ List.mem_map_of_mem hm
  obtain ⟨e₀, hm₀, heq⟩ := List.mem_map.1 hmem
  obtain ⟨notices, hn⟩ := hemitted.events e₀ hm₀
  exact ⟨notices, (hn.asInserted heq.symm).mono
    ⟨fun _ ht => ht, fun r hr => ⟨r, hr, rfl, fun _ => rfl⟩, fun _ hu => hu⟩⟩

theorem amounts_inRange (h₀ : Quiet db₀)
    (h : World.Reached cfg permits (World.initial db₀ clock n) w) : InRange w.db := by
  obtain ⟨s, hr, v, ⟨events, assessments, rfl, -, -⟩, hw⟩ := shadow h
  have hrange := inRange h₀.toStart (hr.mono _ (fun _ _ _ => trivial))
  rw [World.db, hw]
  exact ⟨hrange.transfers, hrange.requests⟩

theorem event_ids (h₀ : Quiet db₀)
    (h : World.Reached cfg permits (World.initial db₀ clock n) w) :
    (w.db.outboxEvents.map OutboxEvent.id).Nodup := by
  obtain ⟨s, hr, v, ⟨events, assessments, rfl, he, -⟩, hw⟩ := shadow h
  have hids := (distinctIds h₀.outboxEvents hr).each 0
  rw [World.db, hw, ids_of_asInserted he]
  exact (List.nodup_append'.1 hids).1

def Write.IsNew : Write → Prop
  | .insertOutboxEvent e => e.processedAt = none ∧ e.attemptCount = 0
  | _ => True

theorem exec_isNew (st : Stmt) (v : Db) (d : Draw Time Uuid) (r : Reply st) (ws : List Write)
    (h : store.exec st v d = .ok (r, ws)) : ∀ w ∈ ws, w.IsNew := by
  intro w hw
  rcases exec_produces h with rfl | ⟨w', rfl, hp⟩
  · cases hw
  · rw [List.mem_singleton.1 hw]
    cases hp with
    | insertOutboxEvent input e hid hnew => exact hnew
    | _ => trivial

/-- A step of the API adds new events at most. -/
theorem service_events (h : World.Reached cfg permits (World.initial db₀ clock n) w) {l : Event}
    {s' : Service} (hs : w.service.step? (body cfg) l = some s') :
    ∃ new, s'.db.outboxEvents = w.db.outboxEvents ++ new ∧
      ∀ e ∈ new, e.processedAt = none ∧ e.attemptCount = 0 := by
  obtain ⟨s, hr, v, -, hw⟩ := shadow h
  have hnew := pending_reach exec_isNew
    (fun i w hm => by simp [Sys.pending, Service.initial, Sys.tx] at hm) hr
  have hpending (i : ℕ) : ∀ x ∈ w.service.pending i, x.IsNew := by
    rw [hw]
    exact hnew i
  cases Sys.step?_did (body cfg) hs with
  | commit i t a ht hr =>
    refine ⟨t.writes.filterMap Write.event?, view_events _ _, fun e he => ?_⟩
    obtain ⟨x, hx, heq⟩ := List.mem_filterMap.1 he
    have hisNew := hpending i x (pending_of_tx ht ▸ hx)
    cases x with
    | insertOutboxEvent e' =>
      cases heq
      exact hisNew
    | _ => cases heq
  | external r db' hx =>
    obtain ⟨-, -, -, rfl⟩ := register_spec hx
    exact ⟨[], (List.append_nil _).symm, fun e he => (List.not_mem_nil he).elim⟩
  | _ => exact ⟨[], (List.append_nil _).symm, fun e he => (List.not_mem_nil he).elim⟩

end Shadow

end MoneyMovement
