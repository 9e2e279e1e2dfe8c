import MoneyMovement.Effects.Settlement
import MoneyMovement.Locking.Discipline

/-!
# What a committed call does

Each of the five operations, run alone and not failing, either replays the stored
response of its key and changes nothing, or claims the key, acts once, and leaves
one completed record. `Action` is what it does beside that record.
-/

namespace MoneyMovement

open Txn Prog IdempotencyService TransferService MoneyRequestService

section Commands

def transferInput (c : CreateDirectTransferCommand) : SettleInput where
  senderUserId := c.actorUserId.text
  receiverUserId := c.receiverUserId
  amountMinor := c.amountMinor
  currency := c.currency
  note := c.note

def requestInput (r : MoneyRequest) : SettleInput where
  senderUserId := r.payerUserId.text
  receiverUserId := r.requesterUserId.text
  amountMinor := r.amountMinor
  currency := r.currency
  note := r.note

def requestData (c : CreateMoneyRequestCommand) : CreateMoneyRequestData where
  requesterUserId := c.actorUserId
  payerUserId := c.payerUserId
  amountMinor := c.amountMinor
  currency := c.currency
  note := c.note
  expiresAt := c.expiresAt

def Command.params : Command → BeginParams
  | .createDirectTransfer c => TransferService.beginParams c
  | .create c => createParams c
  | .accept c => resolveParams c .accept
  | .decline c => resolveParams c .decline
  | .cancel c => resolveParams c .cancel

def Command.key (c : Command) : RecordKey := c.params.key

def Command.hash (cfg : Config) (c : Command) : JsString := requestHash cfg c.params.payload

/-- The error of the checks a command makes before it consults its key; the deadline
of a create is checked at the first reading of the clock. -/
def Command.inputError (ds : List (Draw Time Uuid)) : Command → Option Failure
  | .createDirectTransfer _ => none
  | .create c =>
    if c.payerUserId = c.actorUserId.text then some selfRequest
    else match c.expiresAt, ds with
      | some deadline, d :: _ => if deadline ≤ d.now then some expiresInThePast else none
      | _, _ => none
  | .accept c | .decline c | .cancel c =>
    if (parseUuid c.requestId).isNone then some notFound else none

end Commands

section Records

/-- The record under a key once `complete` has filled it in. -/
def storedRecord (key : RecordKey) (requestHash : JsString) (p : CompleteParams) :
    IdempotencyRecord where
  id := p.recordId
  key := key
  requestHash := requestHash
  state := .COMPLETED
  responseStatus := some p.responseStatus
  responseBody := some p.responseBody
  resourceType := some p.resourceType
  resourceId := some p.resourceId

def Db.withRecord (v : Db) (r : IdempotencyRecord) : Db :=
  { v with idempotencyRecords := v.idempotencyRecords ++ [r] }

/-- The key is unused and the id of the record to come is new. -/
structure Claims (v : Db) (key : RecordKey) (recordId : Uuid) : Prop where
  unused : ∀ r ∈ v.idempotencyRecords, r.key ≠ key
  fresh : ∀ r ∈ v.idempotencyRecords, r.id ≠ recordId
  actor : (v.user? key.actorUserId).isSome

variable {v v' : Db} {ds : List (Draw Time Uuid)}

theorem complete_claimed (key : RecordKey) (hash : JsString) {p : CompleteParams}
    {rs : List IdempotencyRecord} (h : ∀ r ∈ rs, r.id ≠ p.recordId) :
    (rs ++ [claimedRecord p.recordId key hash]).map (IdempotencyRecord.complete p) =
      rs ++ [storedRecord key hash p] := by
  have hc : (claimedRecord p.recordId key hash).complete p = storedRecord key hash p := if_pos rfl
  rw [List.map_append, List.map_singleton, hc]
  congr 1
  exact (List.map_congr_left (fun r hr => if_neg (h r hr))).trans (List.map_id _)

theorem attempts_returns {key : RecordKey} {hash : JsString} {left : ℕ} {res : BeginResult}
    (hg : Good [] v) (h : store.Returns (attempts key hash left) v ds res v') :
    (∃ r ∈ v.idempotencyRecords, r.key = key ∧ r.requestHash = hash ∧ v' = v ∧
      res = .replayed (r.responseStatus.getD 200) (r.responseBody.getD .null)) ∨
    ∃ d, ds = [d] ∧ Claims v key d.id ∧ res = .claimed d.id ∧
      v' = v.withRecord (claimedRecord d.id key hash) := by
  cases left with
  | zero => exact h.elim
  | succ left =>
    obtain ⟨d, rest, claimed, ws, rfl, hx, h⟩ := h
    rcases tryClaim_ok hx with ⟨rfl, rfl, hsome⟩ | ⟨rfl, rfl, hkey, hid, hactor⟩
    · obtain ⟨d₂, rest₂, existing, ws₂, rfl, hx₂, h⟩ := h
      cases hx₂
      obtain ⟨r, hr⟩ := Option.isSome_iff_exists.1 hsome
      have hmem := List.mem_of_find?_eq_some hr
      have hk : r.key = key := (find?_spec hr).2
      rw [Engine.view_nil, hr] at h
      change store.Returns (resolveExisting r hash) _ _ _ _ at h
      unfold resolveExisting at h
      split_ifs at h with hh hst
      · exact h.elim
      · obtain ⟨-, rfl, rfl⟩ := h
        exact Or.inl ⟨r, hmem, hk, not_not.1 hh, rfl, rfl⟩
      · exact absurd (hg.completed r hmem List.not_mem_nil).1 hst
    · obtain ⟨rfl, rfl, rfl⟩ := h
      refine Or.inr ⟨d, rfl, ⟨?_, ?_, hactor⟩, rfl, rfl⟩
      · simpa [Db.record?] using hkey
      · simpa [Db.recordById?] using hid

theorem begin_returns {cfg : Config} {params : BeginParams} {res : BeginResult}
    (hg : Good [] v) (h : store.Returns («begin» cfg params) v ds res v') :
    (∃ r ∈ v.idempotencyRecords, r.key = params.key ∧
      r.requestHash = requestHash cfg params.payload ∧ v' = v ∧
      res = .replayed (r.responseStatus.getD 200) (r.responseBody.getD .null)) ∨
    ∃ d, ds = [d] ∧ Claims v params.key d.id ∧ res = .claimed d.id ∧
      v' = v.withRecord (claimedRecord d.id params.key (requestHash cfg params.payload)) :=
  attempts_returns hg h

theorem complete_returns {p : CompleteParams} {r : Unit}
    (h : store.Returns (complete p) v ds r v') :
    v' = { v with idempotencyRecords :=
      v.idempotencyRecords.map (IdempotencyRecord.complete p) } := by
  obtain ⟨d, rest, _, ws, -, hx, -, -, rfl⟩ := h
  rw [complete_ok hx]
  rfl

end Records

/-- What a call that has claimed its key does beside the record. -/
inductive Action
  | transfer (input : SettleInput) (z : Settlement)
  | create (command : CreateMoneyRequestCommand) (payer : Uuid) (inserted event : Draw Time Uuid)
      (now : Time)
  | accept (command : ResolveMoneyRequestCommand) (request : MoneyRequest) (z : Settlement)
      (resolvedAt : Time) (event : Draw Time Uuid) (now : Time)
  | resolve (command : ResolveMoneyRequestCommand) (opts : ResolveOpts) (request : MoneyRequest)
      (resolvedAt : Time) (event : Draw Time Uuid) (now : Time)

namespace Action

def createdRow (c : CreateMoneyRequestCommand) (payer : Uuid) (inserted : Draw Time Uuid) :
    MoneyRequest :=
  pendingRequest inserted (requestData c) payer

def apply (v : Db) : Action → Db
  | .transfer input z => z.apply input DIRECT_SOURCE v
  | .create c payer inserted event _ =>
    let row := createdRow c payer inserted
    { v with
      moneyRequests := v.moneyRequests ++ [row]
      outboxEvents := v.outboxEvents ++
        [storedEvent event (requestEvent row .moneyRequestCreated (eventPayload row))]
      auditEvents := v.auditEvents ++ [createdAudit c row] }
  | .accept c r z resolvedAt event _ =>
    let v₁ := z.apply (requestInput r) ⟨some r.id⟩ v
    { v₁ with
      moneyRequests := v.moneyRequests.map (MoneyRequest.accept r.id z.inserted.id resolvedAt)
      outboxEvents := v₁.outboxEvents ++ [storedEvent event (acceptedEvent r z.inserted.id)]
      auditEvents := v₁.auditEvents ++ [acceptedAudit c r z.inserted.id] }
  | .resolve c opts r resolvedAt event _ =>
    { v with
      moneyRequests := v.moneyRequests.map (MoneyRequest.resolve r.id opts.target.status resolvedAt)
      outboxEvents := v.outboxEvents ++
        [storedEvent event (requestEvent r opts.target.eventType (eventPayload r))]
      auditEvents := v.auditEvents ++ [resolvedAudit c opts r] }

def response : Action → Response
  | .transfer input z => .transfer (z.receipt input DIRECT_SOURCE)
  | .create c payer inserted _ now =>
    .moneyRequest (toMoneyRequestDto (createdRow c payer inserted) now)
  | .accept _ r z resolvedAt _ now =>
    .moneyRequest (toMoneyRequestDto (r.accept r.id z.inserted.id resolvedAt) now)
  | .resolve _ opts r resolvedAt _ now =>
    .moneyRequest (toMoneyRequestDto (r.resolve r.id opts.target.status resolvedAt) now)

def status : Action → ℕ
  | .transfer .. => 201
  | .create .. => 201
  | .accept .. => 200
  | .resolve .. => 200

def resourceType : Action → ResourceType
  | .transfer .. => .transfer
  | _ => .moneyRequest

def resourceId : Action → Uuid
  | .transfer _ z => z.inserted.id
  | .create _ _ inserted _ _ => inserted.id
  | .accept _ r .. => r.id
  | .resolve _ _ r .. => r.id

def completion (a : Action) (recordId : Uuid) : CompleteParams where
  recordId := recordId
  responseStatus := a.status
  responseBody := a.response
  resourceType := a.resourceType
  resourceId := a.resourceId

end Action

/-- The request a transition has locked and found fit for it. -/
structure Locates (v : Db) (c : ResolveMoneyRequestCommand) (role : ParticipantRole)
    (r : MoneyRequest) : Prop where
  id : parseUuid c.requestId = some r.id
  found : v.request? r.id = some r
  role : roleOf r c.actorUserId = some role
  pending : r.status = .PENDING

/-- The statement of an accept that checks the deadline, and the one that inserts
the transfer, counted from the start of its transaction. -/
def expiryCheck : ℕ := 3

def transferInsert : ℕ := 12

/-- When a command that holds its key does which action. -/
inductive Does (cfg : Config) (v : Db) (ds : List (Draw Time Uuid)) : Command → Action → Prop
  | transfer (c : CreateDirectTransferCommand) (z : Settlement)
      (hz : Settles cfg (transferInput c) DIRECT_SOURCE v ds z) :
      Does cfg v ds (.createDirectTransfer c) (.transfer (transferInput c) z)
  | create (c : CreateMoneyRequestCommand) (payer : Uuid) (user : User)
      (inserted event : Draw Time Uuid) (now : Time)
      (hself : c.payerUserId ≠ c.actorUserId.text)
      (hdeadline : ∀ deadline, c.expiresAt = some deadline →
        ∃ d, ds.head? = some d ∧ d.now < deadline)
      (hpayer : parseUuid c.payerUserId = some payer) (huser : v.user? payer = some user)
      (hactive : user.status = .ACTIVE) (hamount : 0 < c.amountMinor) (hne : c.actorUserId ≠ payer)
      (hfresh : ∀ r ∈ v.moneyRequests, r.id ≠ inserted.id) (hdrawn : inserted ∈ ds) :
      Does cfg v ds (.create c) (.create c payer inserted event now)
  | accept (c : ResolveMoneyRequestCommand) (r : MoneyRequest) (z : Settlement) (resolvedAt : Time)
      (event : Draw Time Uuid) (now : Time) (hr : Locates v c .payer r)
      (hdeadline : ∀ deadline, r.expiresAt = some deadline →
        (∃ d, ds[expiryCheck]? = some d ∧ d.now < deadline) ∧
          ds[transferInsert]? = some z.inserted)
      (hz : Settles cfg (requestInput r) ⟨some r.id⟩ v ds z) :
      Does cfg v ds (.accept c) (.accept c r z resolvedAt event now)
  | decline (c : ResolveMoneyRequestCommand) (r : MoneyRequest) (resolvedAt : Time)
      (event : Draw Time Uuid) (now : Time) (hr : Locates v c .payer r) :
      Does cfg v ds (.decline c) (.resolve c declineOpts r resolvedAt event now)
  | cancel (c : ResolveMoneyRequestCommand) (r : MoneyRequest) (resolvedAt : Time)
      (event : Draw Time Uuid) (now : Time) (hr : Locates v c .requester r) :
      Does cfg v ds (.cancel c) (.resolve c cancelOpts r resolvedAt event now)

inductive Effect (cfg : Config) (v : Db) (ds : List (Draw Time Uuid)) :
    Command → Response → Db → Prop
  | replay (c : Command) (r : IdempotencyRecord) (hr : r ∈ v.idempotencyRecords)
      (hkey : r.key = c.key) (hhash : r.requestHash = c.hash cfg)
      (hinput : c.inputError ds = none) :
      Effect cfg v ds c (r.responseBody.getD .null) v
  | act (c : Command) (a : Action) (recordId : Uuid) (hclaim : Claims v c.key recordId)
      (hdoes : Does cfg v ds c a) (hinput : c.inputError ds = none) :
      Effect cfg v ds c a.response
        ((a.apply v).withRecord (storedRecord c.key (c.hash cfg) (a.completion recordId)))

/-- What the action settled, if anything, was assessed at a reading of the call's own clock. -/
def Action.AssessedIn (ds : List (Draw Time Uuid)) : Action → Prop
  | .transfer _ z => AssessedAt ds z.inserted z.riskNow
  | .accept _ _ z _ _ _ => AssessedAt ds z.inserted z.riskNow
  | _ => True

/-- Transfers and their risk assessments are added by settlements only. -/
def Assesses (cfg : Config) (v : Db) (ds : List (Draw Time Uuid)) (v' : Db) : Prop :=
  (v'.transfers = v.transfers ∧ v'.riskAssessments = v.riskAssessments) ∨
    ∃ input source z, Settles cfg input source v ds z ∧ AssessedAt ds z.inserted z.riskNow ∧
      v'.transfers = (z.apply input source v).transfers ∧
      v'.riskAssessments = (z.apply input source v).riskAssessments

section Bodies

variable {cfg : Config} {v v' : Db} {ds ds₀ : List (Draw Time Uuid)} {a : Response}

theorem Does.assesses {c : Command} {x : Action} (h : Does cfg v ds c x) (ha : x.AssessedIn ds)
    (r : IdempotencyRecord) : Assesses cfg v ds ((x.apply v).withRecord r) := by
  cases h with
  | transfer c z hz => exact Or.inr ⟨_, _, z, hz, ha, rfl, rfl⟩
  | accept c r z _ _ _ hr hdeadline hz => exact Or.inr ⟨_, _, z, hz, ha, rfl, rfl⟩
  | create => exact Or.inl ⟨rfl, rfl⟩
  | decline => exact Or.inl ⟨rfl, rfl⟩
  | cancel => exact Or.inl ⟨rfl, rfl⟩

@[simp] theorem apply_records (x : Action) :
    (x.apply v).idempotencyRecords = v.idempotencyRecords := by
  cases x <;> rfl

/-- A call that consults its key and goes on only when it has claimed it. -/
theorem effect_of_begin {c : Command} {f : BeginResult → TxM Response} (hg : Good [] v)
    (hinput : c.inputError ds₀ = none)
    (h : store.Returns («begin» cfg c.params >>= f) v ds a v')
    (hreplay : ∀ status responseBody, f (.replayed status responseBody) = .ret responseBody)
    (hact : ∀ d rest, ds = d :: rest → Claims v c.key d.id →
      store.Returns (f (.claimed d.id)) (v.withRecord (claimedRecord d.id c.key (c.hash cfg))) rest
        a v' →
      ∃ x, Does cfg v ds₀ c x ∧ x.AssessedIn ds₀ ∧ a = x.response ∧
        v' = { x.apply v with
          idempotencyRecords := (v.idempotencyRecords ++
            [claimedRecord d.id c.key (c.hash cfg)]).map
              (IdempotencyRecord.complete (x.completion d.id)) }) :
    Effect cfg v ds₀ c a v' ∧ Assesses cfg v ds₀ v' := by
  obtain ⟨ds₁, ds₂, res, v₁, rfl, hbegin, hf⟩ := store.returns_bind h
  rcases begin_returns hg hbegin with ⟨r, hr, hkey, hhash, rfl, rfl⟩ | ⟨d, rfl, hclaim, rfl, rfl⟩
  · rw [hreplay] at hf
    obtain ⟨-, rfl, rfl⟩ := hf
    exact ⟨.replay c r hr hkey hhash hinput, Or.inl ⟨rfl, rfl⟩⟩
  · obtain ⟨x, hdoes, hassessed, rfl, rfl⟩ := hact d ds₂ rfl hclaim hf
    have hfresh : ∀ r ∈ v.idempotencyRecords, r.id ≠ (x.completion d.id).recordId := hclaim.fresh
    have hrec := complete_claimed c.key (c.hash cfg) hfresh
    have heff := Effect.act c x d.id hclaim hdoes hinput
    have hadds := hdoes.assesses hassessed
      (storedRecord c.key (c.hash cfg) (x.completion d.id))
    rw [Db.withRecord, apply_records, ← hrec] at heff hadds
    exact ⟨heff, hadds⟩

theorem finishTransition_returns {recordId : Uuid} {request row : MoneyRequest}
    {event : OutboxEventInput} {audit : AuditEvent}
    (h : store.Returns (finishTransition recordId request row event audit) v ds a v') :
    ∃ e now, a = .moneyRequest (toMoneyRequestDto row now) ∧
      v' = { v with
        outboxEvents := v.outboxEvents ++ [storedEvent e event]
        auditEvents := v.auditEvents ++ [audit]
        idempotencyRecords := v.idempotencyRecords.map (IdempotencyRecord.complete
          ⟨recordId, 200, .moneyRequest (toMoneyRequestDto row now), .moneyRequest,
            request.id⟩) } := by
  obtain ⟨e, _, _, ws₁, rfl, hx₁, d₂, _, _, ws₂, rfl, hx₂, d₃, _, now, ws₃, rfl, hx₃, h⟩ := h
  obtain rfl := insertOutboxEvent_ok hx₁
  obtain rfl := insertAuditEvent_ok hx₂
  cases hx₃
  obtain ⟨d₄, _, _, ws₄, rfl, hx₄, rfl, rfl, rfl⟩ := h
  obtain rfl := complete_ok hx₄
  exact ⟨e, d₃.now, rfl, rfl⟩

theorem runTransfer_effect {c : CreateDirectTransferCommand} (hg : Good [] v)
    (h : store.Returns (runTransfer cfg c) v ds a v') :
    Effect cfg v ds (.createDirectTransfer c) a v' ∧ Assesses cfg v ds v' := by
  refine effect_of_begin (c := .createDirectTransfer c) hg rfl h (fun _ _ => rfl)
    (fun d rest hds hclaim hf => ?_)
  obtain ⟨ds₁, ds₂, receipt, v₁, rfl, hsettle, hend⟩ := store.returns_bind hf
  obtain ⟨z, hz, -, hassessed, rfl, rfl⟩ :=
    settle_returns (v := v.withRecord _) hg.walletIds hsettle
  obtain ⟨_, _, _, v₂, -, hc, -, rfl, rfl⟩ := store.returns_bind hend
  obtain rfl := complete_returns hc
  have hz' : Settles cfg (transferInput c) DIRECT_SOURCE v ds₁ z := hz.of_tables rfl rfl rfl
  refine ⟨.transfer (transferInput c) z, .transfer c z (hz'.of_sublist ?_), ?_, rfl, rfl⟩
  · rw [hds]
    exact (List.sublist_append_left _ _).trans (List.sublist_cons_self _ _)
  · rw [hds]
    exact hassessed.append [d] ds₂

theorem insertRequest_returns {c : CreateMoneyRequestCommand} {recordId : Uuid}
    (h : store.Returns (insertRequest c recordId) v ds a v') :
    ∃ payer inserted event now, inserted ∈ ds ∧ parseUuid c.payerUserId = some payer ∧
      0 < c.amountMinor ∧ c.actorUserId ≠ payer ∧ (∀ r ∈ v.moneyRequests, r.id ≠ inserted.id) ∧
      let x : Action := .create c payer inserted event now
      a = x.response ∧ v' = { x.apply v with
        idempotencyRecords := v.idempotencyRecords.map
          (IdempotencyRecord.complete (x.completion recordId)) } := by
  obtain ⟨d₁, _, row, ws₁, rfl, hx₁, d₂, _, _, ws₂, rfl, hx₂, d₃, _, _, ws₃, rfl, hx₃, h⟩ := h
  obtain ⟨payer, hpayer, rfl, rfl, hamount, hne, hfresh⟩ := createMoneyRequest_ok hx₁
  obtain rfl := insertOutboxEvent_ok hx₂
  obtain rfl := insertAuditEvent_ok hx₃
  obtain ⟨d₄, _, now, ws₄, rfl, hx₄, d₅, _, _, ws₅, rfl, hx₅, rfl, rfl, rfl⟩ := h
  cases hx₄
  obtain rfl := complete_ok hx₅
  exact ⟨payer, d₁, d₂, d₄.now, List.mem_cons_self, hpayer, hamount, hne, hfresh, rfl, rfl⟩

theorem createClaimed_returns {c : CreateMoneyRequestCommand} {recordId : Uuid}
    (h : store.Returns (createClaimed c recordId) v ds a v') :
    ∃ payer user inserted event now, inserted ∈ ds ∧ parseUuid c.payerUserId = some payer ∧
      v.user? payer = some user ∧ user.status = .ACTIVE ∧
      0 < c.amountMinor ∧ c.actorUserId ≠ payer ∧ (∀ r ∈ v.moneyRequests, r.id ≠ inserted.id) ∧
      let x : Action := .create c payer inserted event now
      a = x.response ∧ v' = { x.apply v with
        idempotencyRecords := v.idempotencyRecords.map
          (IdempotencyRecord.complete (x.completion recordId)) } := by
  obtain ⟨d, rest, found, ws, rfl, hx, h⟩ := h
  obtain ⟨u, hu, rfl, rfl⟩ := findUserById_ok hx
  rw [Engine.view_nil] at h
  cases hf : v.user? u with
  | none => rw [hf] at h; exact h.elim
  | some user =>
    rw [hf] at h
    change store.Returns (if user.status ≠ .ACTIVE then _ else _) _ _ _ _ at h
    split_ifs at h with hs
    · exact h.elim
    · obtain ⟨payer, inserted, event, now, hmem, hpayer, hrest⟩ := insertRequest_returns h
      obtain rfl := Option.some.inj (hu.symm.trans hpayer)
      exact ⟨u, user, inserted, event, now, List.mem_cons_of_mem _ hmem, hu, hf, not_not.1 hs,
        hrest⟩

theorem assertDeadline_returns {c : CreateMoneyRequestCommand} {u : Unit}
    (h : store.Returns (assertDeadline c) v ds u v') :
    v' = v ∧ ∀ deadline, c.expiresAt = some deadline →
      ∃ d, ds.head? = some d ∧ d.now < deadline := by
  unfold assertDeadline at h
  cases he : c.expiresAt with
  | none =>
    rw [he] at h
    exact ⟨h.2.2, by simp⟩
  | some deadline =>
    rw [he] at h
    obtain ⟨d, rest, now, ws, rfl, hx, h⟩ := h
    cases hx
    change store.Returns (if deadline ≤ d.now then _ else _) _ _ _ _ at h
    split_ifs at h with hd
    · exact h.elim
    · refine ⟨h.2.2, fun _ heq => ⟨d, rfl, ?_⟩⟩
      cases heq
      exact not_le.1 hd

theorem create_effect {c : CreateMoneyRequestCommand} (hg : Good [] v)
    (h : store.Returns (create c cfg) v ds a v') :
    Effect cfg v ds (.create c) a v' ∧ Assesses cfg v ds v' := by
  unfold create at h
  split_ifs at h with hself
  · exact h.elim
  obtain ⟨ds₁, ds₂, _, v₁, rfl, hcheck, hrun⟩ := store.returns_bind h
  obtain ⟨rfl, hdeadline⟩ := assertDeadline_returns hcheck
  have hinput : (Command.create c).inputError (ds₁ ++ ds₂) = none := by
    simp only [Command.inputError, if_neg hself]
    cases he : c.expiresAt with
    | none => rfl
    | some deadline =>
      obtain ⟨d, hhead, hlt⟩ := hdeadline deadline he
      obtain ⟨rest, rfl⟩ := List.head?_eq_some_iff.1 hhead
      exact if_neg (not_le.2 hlt)
  refine effect_of_begin (c := .create c) hg hinput hrun (fun _ _ => rfl)
    (fun d rest hds hclaim hf => ?_)
  obtain ⟨payer, user, inserted, event, now, hmem, hpayer, huser, hactive, hamount, hne, hfresh,
    hrest⟩ :=
    createClaimed_returns hf
  refine ⟨.create c payer inserted event now,
    .create c payer user inserted event now hself ?_ hpayer
    huser hactive hamount hne hfresh ?_, trivial, hrest.1, hrest.2⟩
  · intro deadline hd
    obtain ⟨d₀, hhead, hlt⟩ := hdeadline deadline hd
    exact ⟨d₀, List.head?_append_of_ne_nil ds₁ (by rintro rfl; cases hhead) ▸ hhead, hlt⟩
  · rw [hds]
    exact List.mem_append_right _ (List.mem_cons_of_mem _ hmem)

theorem lockById_returns {id : JsString} {res : Option MoneyRequest}
    (h : store.Returns (lockById id) v ds res v') :
    v' = v ∧ ∃ u, parseUuid id = some u ∧ res = v.request? u ∧ (res.isSome → ds.length = 2) := by
  obtain ⟨d₁, _, locked, ws₁, rfl, hx₁, h⟩ := h
  obtain ⟨u, hu, rfl, rfl⟩ := selectRequestForUpdate_ok hx₁
  rw [Engine.view_nil] at h
  cases hr : v.request? u with
  | none =>
    rw [hr] at h
    obtain ⟨-, rfl, rfl⟩ := h
    exact ⟨rfl, u, hu, hr.symm, by simp⟩
  | some r =>
    rw [hr] at h
    obtain ⟨d₂, _, found, ws₂, rfl, hx₂, rfl, rfl, rfl⟩ := h
    obtain ⟨u', hu', rfl, rfl⟩ := findRequestById_ok hx₂
    obtain rfl := Option.some.inj (hu.symm.trans hu')
    exact ⟨rfl, u, hu, rfl, fun _ => rfl⟩

theorem request?_id {u : Uuid} {r : MoneyRequest} (h : v.request? u = some r) : r.id = u :=
  (find?_spec h).2

theorem assertNotExpired_returns {r : MoneyRequest} {u : Unit}
    (h : store.Returns (assertNotExpired r) v ds u v') :
    v' = v ∧ ∀ deadline, r.expiresAt = some deadline →
      ∃ d, ds = [d] ∧ d.now < deadline := by
  unfold assertNotExpired at h
  cases he : r.expiresAt with
  | none =>
    rw [he] at h
    exact ⟨h.2.2, by simp⟩
  | some deadline =>
    rw [he] at h
    obtain ⟨d, rest, now, ws, rfl, hx, h⟩ := h
    cases hx
    change store.Returns (if deadline ≤ d.now then _ else _) _ _ _ _ at h
    split_ifs at h with hd
    · exact h.elim
    · obtain ⟨rfl, -, rfl⟩ := h
      refine ⟨rfl, fun _ heq => ⟨d, rfl, ?_⟩⟩
      cases heq
      exact not_le.1 hd

/-- What `accept` does with the request it has locked, after two more statements. -/
theorem acceptLocked_returns {c : ResolveMoneyRequestCommand} {recordId : Uuid} {r : MoneyRequest}
    (hids : (v.wallets.map Wallet.id).Nodup) (hfound : v.request? r.id = some r)
    (h : store.Returns (acceptLocked c cfg recordId r) v ds a v') :
    ∃ z resolvedAt event now, roleOf r c.actorUserId = some .payer ∧ r.status = .PENDING ∧
      Settles cfg (requestInput r) ⟨some r.id⟩ v ds z ∧
      (∀ deadline, r.expiresAt = some deadline →
        (∃ d, ds.head? = some d ∧ d.now < deadline) ∧ ds[9]? = some z.inserted) ∧
      AssessedAt ds z.inserted z.riskNow ∧
      let x : Action := .accept c r z resolvedAt event now
      a = x.response ∧ v' = { x.apply v with
        idempotencyRecords := v.idempotencyRecords.map
          (IdempotencyRecord.complete (x.completion recordId)) } := by
  obtain ⟨hrole, h₁⟩ := returns_check (assertActorRole_checks _ _ _) h
  obtain ⟨hpending, h₂⟩ := returns_check (assertPending_checks _) h₁
  obtain ⟨ds₁, ds₂, _, v₁, rfl, hexp, h₃⟩ := store.returns_bind h₂
  obtain ⟨rfl, hdeadline⟩ := assertNotExpired_returns hexp
  obtain ⟨ds₃, ds₄, dto, v₂, rfl, hsettle, h₄⟩ := store.returns_bind h₃
  obtain ⟨z, hz, hpos, hassessed, rfl, rfl⟩ := settle_returns hids hsettle
  obtain ⟨d₅, _, accepted, ws, rfl, hx, hend⟩ := h₄
  obtain ⟨row, hrow, rfl, rfl⟩ := markAccepted_ok hx
  obtain rfl : r = row := Option.some.inj (hfound.symm.trans hrow)
  obtain ⟨e, now, rfl, rfl⟩ := finishTransition_returns hend
  refine ⟨z, d₅.now, e, now, hrole, hpending, hz.of_sublist ?_, fun deadline hd => ?_,
    hassessed.append ds₁ _, rfl, rfl⟩
  · exact (List.sublist_append_left _ _).trans (List.sublist_append_right _ _)
  obtain ⟨d, rfl, hlt⟩ := hdeadline deadline hd
  refine ⟨⟨d, rfl, hlt⟩, ?_⟩
  have hlen : 8 < ds₃.length := (List.getElem?_eq_some_iff.1 hpos).1
  rw [List.singleton_append, List.getElem?_cons_succ, List.getElem?_append_left hlen]
  exact hpos

theorem accept_effect {c : ResolveMoneyRequestCommand} (hg : Good [] v)
    (h : store.Returns (accept c cfg) v ds a v') :
    Effect cfg v ds (.accept c) a v' ∧ Assesses cfg v ds v' := by
  obtain ⟨hid, hrun⟩ := returns_check (assertRequestId_checks _) h
  have hinput : (Command.accept c).inputError ds = none :=
    if_neg (by simpa [Option.isSome_iff_ne_none] using hid)
  refine effect_of_begin (c := .accept c) hg hinput hrun (fun _ _ => rfl)
    (fun d rest hds hclaim hf => ?_)
  obtain ⟨ds₁, ds₂, found, v₁, rfl, hlock, hbody⟩ := store.returns_bind hf
  obtain ⟨rfl, u, hu, rfl, hlen⟩ := lockById_returns hlock
  cases hr : Db.request? (v.withRecord _) u with
  | none => rw [hr] at hbody; exact hbody.elim
  | some r =>
    rw [hr] at hbody hlen
    obtain rfl := request?_id hr
    obtain ⟨z, resolvedAt, event, now, hrole, hpending, hz, hdeadline, hassessed, hrest⟩ :=
      acceptLocked_returns (v := v.withRecord _) hg.walletIds hr hbody
    have hz' : Settles cfg (requestInput r) ⟨some r.id⟩ v ds₂ z := hz.of_tables rfl rfl rfl
    refine ⟨.accept c r z resolvedAt event now, .accept c r z resolvedAt event now
      ⟨hu, hr, hrole, hpending⟩ (fun deadline hd => ?_) (hz'.of_sublist ?_), ?_, hrest.1,
      hrest.2⟩
    · -- The claim, then the two statements that lock the request.
      obtain ⟨⟨d', hhead, hlt⟩, hpos⟩ := hdeadline deadline hd
      have hskip (n : ℕ) : (d :: (ds₁ ++ ds₂))[n + 3]? = ds₂[n]? := by
        rw [List.getElem?_cons_succ, List.getElem?_append_right (by rw [hlen rfl]; omega), hlen rfl]
        rfl
      rw [hds]
      exact ⟨⟨d', (hskip 0).trans (List.head?_eq_getElem?.symm.trans hhead), hlt⟩,
        (hskip 9).trans hpos⟩
    · rw [hds]
      exact (List.sublist_append_right _ _).trans (List.sublist_cons_self _ _)
    · rw [hds]
      have happend := hassessed.append (d :: ds₁) []
      rwa [List.append_nil] at happend

theorem resolveLocked_returns {c : ResolveMoneyRequestCommand} {opts : ResolveOpts}
    {recordId : Uuid} {r : MoneyRequest} (hfound : v.request? r.id = some r)
    (h : store.Returns (resolveLocked c opts recordId r) v ds a v') :
    ∃ resolvedAt event now, roleOf r c.actorUserId = some opts.requiredRole ∧ r.status = .PENDING ∧
      let x : Action := .resolve c opts r resolvedAt event now
      a = x.response ∧ v' = { x.apply v with
        idempotencyRecords := v.idempotencyRecords.map
          (IdempotencyRecord.complete (x.completion recordId)) } := by
  obtain ⟨hrole, h₁⟩ := returns_check (assertActorRole_checks _ _ _) h
  obtain ⟨hpending, h₂⟩ := returns_check (assertPending_checks _) h₁
  obtain ⟨d, _, resolved, ws, rfl, hx, hend⟩ := h₂
  obtain ⟨row, hrow, rfl, rfl⟩ := markResolved_ok hx
  obtain rfl : r = row := Option.some.inj (hfound.symm.trans hrow)
  obtain ⟨e, now, rfl, rfl⟩ := finishTransition_returns hend
  exact ⟨d.now, e, now, hrole, hpending, rfl, rfl⟩

/-- Decline and cancel, whose commands differ in their options only. -/
theorem resolvePending_effect {c : ResolveMoneyRequestCommand} {opts : ResolveOpts} {call : Command}
    (hcall : call.params = resolveParams c opts.routeKey)
    (hinput : (parseUuid c.requestId).isSome → call.inputError ds = none)
    (hdoes : ∀ r resolvedAt event now, Locates v c opts.requiredRole r →
      Does cfg v ds call (.resolve c opts r resolvedAt event now))
    (hg : Good [] v) (h : store.Returns (resolvePending c cfg opts) v ds a v') :
    Effect cfg v ds call a v' ∧ Assesses cfg v ds v' := by
  obtain ⟨hid, hrun⟩ := returns_check (assertRequestId_checks _) h
  rw [← hcall] at hrun
  refine effect_of_begin hg (hinput hid) hrun (fun _ _ => rfl) (fun d rest hds hclaim hf => ?_)
  obtain ⟨ds₁, ds₂, found, v₁, rfl, hlock, hbody⟩ := store.returns_bind hf
  obtain ⟨rfl, u, hu, rfl, -⟩ := lockById_returns hlock
  cases hr : Db.request? (v.withRecord _) u with
  | none => rw [hr] at hbody; exact hbody.elim
  | some r =>
    rw [hr] at hbody
    obtain rfl := request?_id hr
    obtain ⟨resolvedAt, event, now, hrole, hpending, hrest⟩ :=
      resolveLocked_returns (v := v.withRecord _) hr hbody
    exact ⟨.resolve c opts r resolvedAt event now,
      hdoes r resolvedAt event now ⟨hu, hr, hrole, hpending⟩, trivial, hrest.1, hrest.2⟩

theorem body_effect {c : Command} (hg : Good [] v) (h : store.Returns (body cfg c) v ds a v') :
    Effect cfg v ds c a v' ∧ Assesses cfg v ds v' := by
  cases c with
  | createDirectTransfer c => exact runTransfer_effect hg h
  | create c => exact create_effect hg h
  | accept c => exact accept_effect hg h
  | decline c =>
    exact resolvePending_effect rfl
      (fun hid => if_neg (by simpa [Option.isSome_iff_ne_none] using hid))
      (fun r t e now hr => .decline c r t e now hr) hg h
  | cancel c =>
    exact resolvePending_effect rfl
      (fun hid => if_neg (by simpa [Option.isSome_iff_ne_none] using hid))
      (fun r t e now hr => .cancel c r t e now hr) hg h

/-- A call that returns has had one of the two effects. -/
theorem effect_of_returns {c : Command} (hg : Good [] v)
    (h : store.Returns (body cfg c) v ds a v') : Effect cfg v ds c a v' :=
  (body_effect hg h).1

end Bodies

section Tables

variable {cfg : Config} {v v' : Db} {ds : List (Draw Time Uuid)} {c : Command} {a : Response}

/-- Wallets, transfers and ledger entries change by settlements only. -/
theorem Effect.money (h : Effect cfg v ds c a v') :
    (v'.wallets = v.wallets ∧ v'.transfers = v.transfers ∧ v'.ledgerEntries = v.ledgerEntries) ∨
      ∃ input source z, Settles cfg input source v ds z ∧
        v'.wallets = (z.apply input source v).wallets ∧
        v'.transfers = (z.apply input source v).transfers ∧
        v'.ledgerEntries = (z.apply input source v).ledgerEntries := by
  cases h with
  | replay r hr hkey hhash => exact Or.inl ⟨rfl, rfl, rfl⟩
  | act x recordId hclaim hdoes =>
    cases hdoes with
    | transfer c z hz => exact Or.inr ⟨_, _, z, hz, rfl, rfl, rfl⟩
    | accept c r z _ _ _ hr hdeadline hz => exact Or.inr ⟨_, _, z, hz, rfl, rfl, rfl⟩
    | create => exact Or.inl ⟨rfl, rfl, rfl⟩
    | decline => exact Or.inl ⟨rfl, rfl, rfl⟩
    | cancel => exact Or.inl ⟨rfl, rfl, rfl⟩

theorem Effect.users (h : Effect cfg v ds c a v') : v'.users = v.users := by
  cases h with
  | replay r hr hkey hhash => rfl
  | act x recordId hclaim hdoes => cases hdoes <;> rfl

/-- The two wallets of a settlement are rows of the table, and different ones. -/
theorem Settles.parties {input : SettleInput} {source : TransferSource} {z : Settlement}
    (h : Settles cfg input source v ds z) (hids : (v.wallets.map Wallet.id).Nodup) :
    ∃ s ∈ v.wallets, ∃ r ∈ v.wallets, s.id = z.sender.id ∧ s.userId = z.sender.userId ∧
      s.balanceMinor = z.sender.balanceMinor ∧ r.id = z.receiver.id ∧
      r.userId = z.receiver.userId ∧ r.balanceMinor = z.receiver.balanceMinor ∧
      z.sender.id ≠ z.receiver.id := by
  obtain ⟨-, -, s, hs, hsid, hsu, hsb⟩ := wallet?_of_probe hids h.sender
  obtain ⟨-, -, r, hr, hrid, hru, hrb⟩ := wallet?_of_probe hids h.receiver
  refine ⟨s, hs, r, hr, hsid, hsu, hsb, hrid, hru, hrb, fun heq => h.distinct ?_⟩
  have : s = r := eq_of_nodup_key hids hs hr (hsid.trans (heq.trans hrid.symm))
  rw [← hsu, ← hru, this]

end Tables

end MoneyMovement
