import MoneyMovement.Runs.Requests

/-!
# What the trail tells of a request

Every step in the life of a request leaves one audit row and one event. Those about one request
tell exactly what its row has been through, in that order, and no row is ever taken back.
-/

namespace MoneyMovement

open Txn TransferService MoneyRequestService

section Histories

def AuditEvent.request? (a : AuditEvent) : Option Uuid :=
  if a.resourceType = .moneyRequest then a.resourceId else none

def OutboxEvent.request? (e : OutboxEvent) : Option Uuid :=
  if e.aggregateType = .moneyRequest then some e.aggregateId else none

/-- What an event tells its consumers, whenever it is published. -/
def OutboxEvent.message (e : OutboxEvent) : EventType × Payload := (e.eventType, e.payload)

@[ext] structure History where
  audits : List AuditEvent
  messages : List (EventType × Payload)

def History.none : History := ⟨[], []⟩

def Db.history (db : Db) (id : Uuid) : History where
  audits := rows AuditEvent.request? (some id) db.auditEvents
  messages := (rows OutboxEvent.request? (some id) db.outboxEvents).map OutboxEvent.message

namespace MoneyRequest

variable (r : MoneyRequest)

def terms : List (JsString × Payload) :=
  [(js "amountMinor", .str (decimal r.amountMinor)), (js "currency", .str r.currency.text)]

def parties : List (JsString × Payload) :=
  [(js "requestId", .str r.id.text), (js "payerUserId", .str r.payerUserId.text),
    (js "requesterUserId", .str r.requesterUserId.text)]

/-- Who made the request, and who ended it with what outcome. -/
def trail : List AuditEvent :=
  requestAudit r.requesterUserId r.id .MONEY_REQUEST_CREATED
    ((js "payerUserId", .str r.payerUserId.text) :: r.terms) ::
  match r.status with
  | .PENDING | .EXPIRED => []
  | .ACCEPTED => r.acceptedTransferId.toList.map (fun transferId =>
      requestAudit r.payerUserId r.id .MONEY_REQUEST_ACCEPTED
        ((js "acceptedTransferId", .str transferId.text) ::
          (js "requesterUserId", .str r.requesterUserId.text) :: r.terms))
  | .DECLINED => [requestAudit r.payerUserId r.id .MONEY_REQUEST_DECLINED r.terms]
  | .CANCELLED => [requestAudit r.requesterUserId r.id .MONEY_REQUEST_CANCELLED r.terms]

/-- The events that announce the request and its outcome. -/
def announcements : List (EventType × Payload) :=
  (.moneyRequestCreated, .obj (r.parties ++ r.terms)) ::
  match r.status with
  | .PENDING | .EXPIRED => []
  | .ACCEPTED => r.acceptedTransferId.toList.map (fun transferId => (.moneyRequestAccepted,
      .obj (r.parties ++ r.terms ++ [(js "acceptedTransferId", .str transferId.text)])))
  | .DECLINED => [(.moneyRequestDeclined, .obj (r.parties ++ r.terms))]
  | .CANCELLED => [(.moneyRequestCancelled, .obj (r.parties ++ r.terms))]

def history : History := ⟨r.trail, r.announcements⟩

end MoneyRequest

end Histories

variable {cfg : Config} {db₀ v v' : Db} {clock : Time} {s s' : Service}
  {ds : List (Draw Time Uuid)} {c : Command} {a : Response} {r : MoneyRequest}
  {input : SettleInput} {source : TransferSource} {z : Settlement} {id : Uuid}
  {events : List OutboxEvent} {audits : List AuditEvent}

section Rows

theorem history_append (hevents : v'.outboxEvents = v.outboxEvents ++ events)
    (haudits : v'.auditEvents = v.auditEvents ++ audits) (id : Uuid) :
    v'.history id = ⟨(v.history id).audits ++ rows AuditEvent.request? (some id) audits,
      (v.history id).messages ++
        (rows OutboxEvent.request? (some id) events).map OutboxEvent.message⟩ := by
  simp only [Db.history, hevents, haudits, rows_append, List.map_append]

/-- Rows that are about no request do not show. -/
theorem history_quiet (events : List OutboxEvent) (audits : List AuditEvent)
    (hevents : v'.outboxEvents = v.outboxEvents ++ events)
    (haudits : v'.auditEvents = v.auditEvents ++ audits)
    (he : ∀ e ∈ events, e.request? = none) (ha : ∀ a ∈ audits, a.request? = none) (id : Uuid) :
    v'.history id = v.history id := by
  have hnoEvent : rows OutboxEvent.request? (some id) events = [] :=
    List.filter_eq_nil_iff.2 (fun e hm => by simp [he e hm])
  have hnoAudit : rows AuditEvent.request? (some id) audits = [] :=
    List.filter_eq_nil_iff.2 (fun a hm => by simp [ha a hm])
  rw [history_append hevents haudits, hnoEvent, hnoAudit]
  simp

/-- A row and an event about a request are added to what is told of it. -/
theorem history_self {e : OutboxEvent} {x : AuditEvent}
    (hevents : v'.outboxEvents = v.outboxEvents ++ [e])
    (haudits : v'.auditEvents = v.auditEvents ++ [x])
    (he : e.request? = some id) (hx : x.request? = some id) :
    v'.history id = ⟨(v.history id).audits ++ [x], (v.history id).messages ++ [e.message]⟩ := by
  rw [history_append hevents haudits]
  simp [rows, he, hx]

theorem history_ne {e : OutboxEvent} {x : AuditEvent} {u : Uuid}
    (hevents : v'.outboxEvents = v.outboxEvents ++ [e])
    (haudits : v'.auditEvents = v.auditEvents ++ [x])
    (he : e.request? = some u) (hx : x.request? = some u) (hne : id ≠ u) :
    v'.history id = v.history id := by
  rw [history_append hevents haudits]
  simp [rows, he, hx, Ne.symm hne]

/-- A settlement appends a row of its own after one that a high risk adds. -/
theorem forall_mem_flagged {α : Type} {p : α → Prop} {b : Prop} [Decidable b] {x y e : α}
    (hx : p x) (hy : p y) (h : e ∈ (if b then [x] else []) ++ [y]) : p e := by
  rcases List.mem_append.1 h with h | h
  · split_ifs at h
    · rw [List.mem_singleton.1 h]
      exact hx
    · cases h
  · rw [List.mem_singleton.1 h]
    exact hy

theorem events_request {e : OutboxEvent} (h : e ∈ z.events input source) : e.request? = none :=
  forall_mem_flagged (p := fun e => e.request? = none) rfl rfl h

theorem audits_request {x : AuditEvent} (h : x ∈ z.audits input source) : x.request? = none :=
  forall_mem_flagged (p := fun x => x.request? = none) rfl rfl h

theorem history_settle (id : Uuid) : (z.apply input source v).history id = v.history id :=
  history_quiet _ _ (v := v) rfl rfl (fun _ => events_request) (fun _ => audits_request) id

end Rows

section Invariant

/-- Every request is told as it is, and nothing is told of a request there is not. -/
structure Chronicled (db : Db) : Prop where
  told : ∀ r ∈ db.moneyRequests, db.history r.id = r.history
  silent : ∀ id, (∀ r ∈ db.moneyRequests, r.id ≠ id) → db.history id = .none

theorem Chronicled.congr (h : Chronicled v) (hreq : v'.moneyRequests = v.moneyRequests)
    (hd : ∀ id, v'.history id = v.history id) : Chronicled v' where
  told r hr := (hd r.id).trans (h.told r (hreq ▸ hr))
  silent id hid := (hd id).trans (h.silent id (hreq ▸ hid))

/-- One row is updated, and one step is told of it. -/
theorem Chronicled.update {f : MoneyRequest → MoneyRequest} (h : Chronicled v)
    (hids : (v.moneyRequests.map MoneyRequest.id).Nodup) (hf : ∀ r, (f r).id = r.id)
    (hreq : v'.moneyRequests = v.moneyRequests.map f) (hr : r ∈ v.moneyRequests)
    (hother : ∀ r', r'.id ≠ r.id → f r' = r') (hself : v'.history r.id = (f r).history)
    (hne : ∀ id, id ≠ r.id → v'.history id = v.history id) : Chronicled v' where
  told r' hr' := by
    rw [hreq] at hr'
    obtain ⟨r₁, hr₁, rfl⟩ := List.mem_map.1 hr'
    rw [hf]
    by_cases hid : r₁.id = r.id
    · obtain rfl : r₁ = r := eq_of_nodup_key hids hr₁ hr hid
      exact hself
    · rw [hother r₁ hid, hne _ hid]
      exact h.told r₁ hr₁
  silent id hid := by
    have hold : ∀ r' ∈ v.moneyRequests, r'.id ≠ id := by
      intro r' hr' heq
      exact hid (f r') (hreq ▸ List.mem_map_of_mem hr') ((hf r').trans heq)
    rw [hne id (Ne.symm (hold r hr))]
    exact h.silent id hold

theorem Does.chronicled {x : Action} (hdoes : Does cfg v ds c x) (h : Chronicled v)
    (hids : (v.moneyRequests.map MoneyRequest.id).Nodup) : Chronicled (x.apply v) := by
  have begun {r : MoneyRequest} (hr : r ∈ v.moneyRequests) (hpending : r.status = .PENDING) :
      v.history r.id = ⟨[requestAudit r.requesterUserId r.id .MONEY_REQUEST_CREATED
        ((js "payerUserId", .str r.payerUserId.text) :: r.terms)],
        [(.moneyRequestCreated, .obj (r.parties ++ r.terms))]⟩ := by
    rw [h.told r hr, MoneyRequest.history, MoneyRequest.trail, MoneyRequest.announcements, hpending]
  cases hdoes with
  | transfer c z hz => exact h.congr rfl history_settle
  | create c payer user inserted event now _ _ hpayer _ _ _ _ hfresh =>
    refine ⟨fun r hr => ?_, fun id hid => ?_⟩
    · rcases List.mem_append.1 hr with hr | hr
      · rw [history_ne (v := v) rfl rfl rfl rfl (hfresh r hr)]
        exact h.told r hr
      · rw [List.mem_singleton.1 hr, history_self (v := v) rfl rfl rfl rfl,
          h.silent (Action.createdRow c payer inserted).id hfresh]
        rfl
    · have hne : id ≠ inserted.id :=
        Ne.symm (hid _ (List.mem_append_right _ (List.mem_singleton_self _)))
      rw [history_ne (v := v) rfl rfl rfl rfl hne]
      exact h.silent id (fun r hr => hid r (List.mem_append_left _ hr))
  | accept c r z resolvedAt event now hr hdeadline hz =>
    have hmem := mem_of_request? hr.found
    refine h.update hids (accept_id _ _ _) rfl hmem (fun r' hid => accept_of_ne hid) ?_
      (fun id hid => ?_)
    · rw [history_self (v := z.apply (requestInput r) ⟨some r.id⟩ v) rfl rfl rfl rfl,
        history_settle, begun hmem hr.pending, MoneyRequest.accept, if_pos rfl, acceptedAudit,
        roleOf_payer hr.role]
      rfl
    · rw [history_ne (v := z.apply (requestInput r) ⟨some r.id⟩ v) rfl rfl rfl rfl hid,
        history_settle]
  | decline c r resolvedAt event now hr =>
    have hmem := mem_of_request? hr.found
    refine h.update hids (resolve_id _ _ _) rfl hmem (fun r' hid => resolve_of_ne hid) ?_
      (fun id hid => history_ne rfl rfl rfl rfl hid)
    rw [history_self (v := v) rfl rfl rfl rfl, begun hmem hr.pending, MoneyRequest.resolve,
      if_pos rfl, resolvedAudit, roleOf_payer hr.role]
    rfl
  | cancel c r resolvedAt event now hr =>
    have hmem := mem_of_request? hr.found
    refine h.update hids (resolve_id _ _ _) rfl hmem (fun r' hid => resolve_of_ne hid) ?_
      (fun id hid => history_ne rfl rfl rfl rfl hid)
    rw [history_self (v := v) rfl rfl rfl rfl, begun hmem hr.pending, MoneyRequest.resolve,
      if_pos rfl, resolvedAudit, roleOf_requester hr.role]
    rfl

end Invariant

section Runs

structure Unrecorded (db : Db) : Prop extends Start db where
  events : ∀ e ∈ db.outboxEvents, e.request? = none
  audits : ∀ x ∈ db.auditEvents, x.request? = none

theorem Unrecorded.chronicled (h₀ : Unrecorded db₀) : Chronicled db₀ where
  told r hr := by
    rw [h₀.moneyRequests] at hr
    cases hr
  silent id _ := by
    refine History.ext (List.filter_eq_nil_iff.2 (fun x hx => ?_)) ?_
    · simp [h₀.audits x hx]
    · rw [Db.history, History.none, List.map_eq_nil_iff]
      exact List.filter_eq_nil_iff.2 (fun e he => by simp [h₀.events e he])

theorem chronicled (h₀ : Unrecorded db₀)
    (h : Sys.Reach (body cfg) Open (Service.initial db₀ clock) s) : Chronicled s.db := by
  have both : Recorded s.db ∧ Chronicled s.db := by
    refine reachable_tables (J := fun v => Recorded v ∧ Chronicled v) h₀.good
      ⟨h₀.recorded, h₀.chronicled⟩ ?_ ?_ h
    · rintro v ds c a v' - ⟨hr, ht⟩ he
      refine ⟨hr.effect he, ?_⟩
      cases he with
      | replay => exact ht
      | act x recordId hclaim hdoes =>
        exact (hdoes.chronicled ht hr.requestIds).congr rfl (fun _ => rfl)
    · rintro v r v' - ⟨hr, ht⟩ hreg
      refine ⟨hr.register hreg, ?_⟩
      obtain ⟨-, -, -, rfl⟩ := register_spec hreg
      exact ht.congr rfl (fun _ => rfl)
  exact both.2

theorem trail_kept (db : Db) (ws : List Write) :
    db.auditEvents <+: (store.view db ws).auditEvents := by
  induction ws generalizing db with
  | nil => exact List.prefix_rfl
  | cons w ws ih =>
    have hw : db.auditEvents <+: (applyWrite db w).auditEvents := by
      cases w with
      | insertAuditEvent x => exact List.prefix_append _ _
      | _ => exact List.prefix_rfl
    exact hw.trans (ih (applyWrite db w))

/-- No step of any operation updates or deletes an audit row. -/
theorem step_trail {l : Event} (h : s.step? (body cfg) l = some s') :
    s.db.auditEvents <+: s'.db.auditEvents := by
  cases Sys.step?_did (body cfg) h with
  | commit i t a ht hr => exact trail_kept s.db t.writes
  | external r db' hx =>
    obtain ⟨-, -, -, rfl⟩ := register_spec hx
    exact List.prefix_rfl
  | _ => exact List.prefix_rfl

theorem reach_trail {permits : Service → Event → Prop}
    (h : Sys.Reach (body cfg) permits s s') : s.db.auditEvents <+: s'.db.auditEvents := by
  induction h with
  | refl => exact List.prefix_rfl
  | tail l _ _ hs ih => exact ih.trans (step_trail hs)

/-- The audit rows and the events about a request are those of its creation and of the
resolution its row shows, with who did it and on what terms; there are none about a request
that does not exist, and the audit trail is only ever added to. -/
theorem requests_told (h₀ : Unrecorded db₀)
    (h : Sys.Reach (body cfg) Open (Service.initial db₀ clock) s) :
    (∀ r ∈ s.db.moneyRequests, (s.db.history r.id).audits = r.trail ∧
      (s.db.history r.id).messages = r.announcements) ∧
    (∀ x ∈ s.db.auditEvents, ∀ id, x.request? = some id → ∃ r ∈ s.db.moneyRequests, r.id = id) ∧
    (∀ e ∈ s.db.outboxEvents, ∀ id, e.request? = some id →
      ∃ r ∈ s.db.moneyRequests, r.id = id) ∧
    ∀ s', Sys.Reach (body cfg) Open s s' → s.db.auditEvents <+: s'.db.auditEvents := by
  have ht := chronicled h₀ h
  have referred {id : Uuid} (hd : s.db.history id ≠ .none) :
      ∃ r ∈ s.db.moneyRequests, r.id = id := by
    by_contra hn
    exact hd (ht.silent id (fun r hr heq => hn ⟨r, hr, heq⟩))
  refine ⟨fun r hr => ?_, fun x hx id hid => referred (fun hd => ?_),
    fun e he id hid => referred (fun hd => ?_), fun s' h' => reach_trail h'⟩
  · rw [ht.told r hr]
    exact ⟨rfl, rfl⟩
  · have hm : x ∈ (s.db.history id).audits := mem_rows.2 ⟨hx, hid⟩
    rw [hd] at hm
    cases hm
  · have hm : e.message ∈ (s.db.history id).messages := List.mem_map_of_mem (mem_rows.2 ⟨he, hid⟩)
    rw [hd] at hm
    cases hm

/-- A request that was accepted, and its two audit rows. -/
theorem requests_told_accepted : ∃ s : Service,
    s.db.moneyRequests.map (·.status) = [.ACCEPTED] ∧
    ∀ r ∈ s.db.moneyRequests, (s.db.history r.id).audits = r.trail := by
  have hrun : ((Service.initial sampleDb 50).run (body sampleConfig) accepted).any
      (fun s => s.db.moneyRequests.map (·.status) = [.ACCEPTED]) := by
    decide +kernel
  obtain ⟨s, hs, hstatus⟩ := of_run hrun
  have hunrecorded : Unrecorded sampleDb := ⟨sampleDb_start, by simp [sampleDb], by simp [sampleDb]⟩
  exact ⟨s, of_decide_eq_true hstatus,
    fun r hr => ((requests_told hunrecorded (open_of_run hs)).1 r hr).1⟩

end Runs

end MoneyMovement
