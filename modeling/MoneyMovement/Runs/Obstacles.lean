import MoneyMovement.Runs.Deals
import MoneyMovement.Effects.Operations

/-!
# What stands in the way of a command

With nobody else present a command fails at the first obstacle it meets: in its own input,
in the record of its key, or in the rows that it looks at.
-/

namespace MoneyMovement

open Txn Prog IdempotencyService TransferService MoneyRequestService

section Obstacles

def requestObstacle (r : MoneyRequest) (actorUserId : Uuid) (role : ParticipantRole) :
    Option Failure :=
  if roleOf r actorUserId = none then some notFound
  else if roleOf r actorUserId ≠ some role then some (wrongRole role)
  else if r.status ≠ .PENDING then
    some (alreadyResolved "This money request has already been resolved.")
  else none

def expiryObstacle (r : MoneyRequest) (now : Time) : Option Failure :=
  if r.expiresAt.any (· ≤ now) then some (alreadyResolved "This money request has expired.")
  else none

/-- The transfer that an accept settles; the clock is read once more for a deadline. -/
def requestDeal (cfg : Config) (r : MoneyRequest) (draws : ℕ → Draw Time Uuid) : Deal where
  cfg := cfg
  sender := r.payerUserId
  receiver := r.requesterUserId
  amountMinor := r.amountMinor
  now := if r.expiresAt.isSome then (draws 10).now else (draws 9).now

def createObstacle (v : Db) (c : CreateMoneyRequestCommand) (payer : Uuid) : Option Failure :=
  if ¬ (v.user? payer).any (·.status = .ACTIVE) then some payerNotFound
  else if ¬ InBigint c.amountMinor then some (.db .outOfRange)
  else if c.amountMinor ≤ 0 then
    some (.db (.checkViolation .money_requests_amount_minor_positive))
  else if c.actorUserId = payer then
    some (.db (.checkViolation .money_requests_distinct_parties))
  else none

def acceptObstacle (cfg : Config) (v : Db) (draws : ℕ → Draw Time Uuid)
    (c : ResolveMoneyRequestCommand) (named : Uuid) : Option Failure :=
  match v.request? named with
  | none => some notFound
  | some r => (requestObstacle r c.actorUserId .payer).or
      ((expiryObstacle r (draws expiryCheck).now).or
        ((requestDeal cfg r draws).failing v conditions.tail))

def resolveObstacle (v : Db) (c : ResolveMoneyRequestCommand) (role : ParticipantRole)
    (named : Uuid) : Option Failure :=
  match v.request? named with
  | none => some notFound
  | some r => requestObstacle r c.actorUserId role

/-- What a command that names `named` fails with once it is to claim a new key. -/
def Command.obstacle (cfg : Config) (v : Db) (draws : ℕ → Draw Time Uuid) (named : Uuid)
    (c : Command) : Option Failure :=
  if v.user? c.key.actorUserId = none then some unregistered
  else match c with
    | .createDirectTransfer c => (Deal.of cfg c named draws).failing v conditions.tail
    | .create c => createObstacle v c named
    | .accept c => acceptObstacle cfg v draws c named
    | .decline c => resolveObstacle v c .payer named
    | .cancel c => resolveObstacle v c .requester named

/-- What the record under its key has to say of a command, before `e` does. -/
def keyRefusal (found : Option IdempotencyRecord) (hash : JsString) (e : Option Failure) :
    Option Failure :=
  match found with
  | some r => if r.requestHash = hash then none else some (.app keyReused)
  | none => e

@[simp] theorem keyRefusal_none (hash : JsString) (e : Option Failure) :
    keyRefusal none hash e = e := rfl

@[simp] theorem keyRefusal_some (r : IdempotencyRecord) (hash : JsString) (e : Option Failure) :
    keyRefusal (some r) hash e =
      if r.requestHash = hash then none else some (.app keyReused) := rfl

/-- The id that a command names; a receiver is taken by its text. -/
def Command.Spells (named : Uuid) : Command → Prop
  | .createDirectTransfer c => c.receiverUserId = named.text
  | .create c => parseUuid c.payerUserId = some named
  | .accept c | .decline c | .cancel c => parseUuid c.requestId = some named

structure NewIds (v : Db) (draws : ℕ → Draw Time Uuid) : Prop where
  records : ∀ n, ∀ r ∈ v.idempotencyRecords, r.id ≠ (draws n).id
  transfers : ∀ n, ∀ t ∈ v.transfers, t.id ≠ (draws n).id
  requests : ∀ n, ∀ r ∈ v.moneyRequests, r.id ≠ (draws n).id

end Obstacles

section Deciding

variable {v : Db} {draws : ℕ → Draw Time Uuid} {α : Type}

/-- Under a key in use the stored response answers, or the payload is another. -/
theorem begin_used {cfg : Config} {params : BeginParams} {k : BeginResult → TxM α}
    {r : IdempotencyRecord} (hr : v.record? params.key = some r) (hdone : r.state = .COMPLETED) :
    store.refusal («begin» cfg params >>= k) v draws =
      if r.requestHash = requestHash cfg params.payload then
        store.refusal (k (.replayed (r.responseStatus.getD 200) (r.responseBody.getD .null))) v
          (fun n => draws (n + 2))
      else some (.app keyReused) := by
  have hclaim (dr : Draw Time Uuid) :
      store.exec (.tryClaim params.key (requestHash cfg params.payload)) v dr = .ok (none, []) := by
    change execTryClaim v dr.id params.key (requestHash cfg params.payload) = _
    simp only [execTryClaim, hr]
    rfl
  have hlock (dr : Draw Time Uuid) :
      store.exec (.lockExisting params.key) v dr = .ok (some r, []) := by
    change Except.ok (v.record? params.key, []) = _
    rw [hr]
  have hread {k : Option IdempotencyRecord → TxM α} {draws : ℕ → Draw Time Uuid} :
      store.refusal (.op (.lockExisting params.key) k) v draws =
        store.refusal (k (some r)) v (fun n => draws (n + 1)) := Engine.refusal_ok (hlock _)
  refine (Engine.refusal_ok (hclaim _)).trans ?_
  refine hread.trans ?_
  change store.refusal (resolveExisting r (requestHash cfg params.payload) >>= k) v _ = _
  unfold resolveExisting
  by_cases hhash : r.requestHash = requestHash cfg params.payload
  · rw [if_neg (not_not.2 hhash), if_pos hdone, if_pos hhash]
    rfl
  · rw [if_pos hhash, if_neg hhash]
    rfl

theorem lockById_refusal {id : JsString} {u : Uuid} {k : Option MoneyRequest → TxM α}
    (hid : parseUuid id = some u) {e : Option Failure}
    (hnone : v.request? u = none → store.refusal (k none) v (fun n => draws (n + 1)) = e)
    (hsome : ∀ r, v.request? u = some r →
      store.refusal (k (some r)) v (fun n => draws (n + 2)) = e) :
    store.refusal (lockById id >>= k) v draws = e := by
  have hselect (dr : Draw Time Uuid) :
      store.exec (.selectRequestForUpdate id) v dr = .ok ((v.request? u).isSome, []) := by
    change (castUuid id).map _ = _
    rw [castUuid, hid]
    rfl
  have hfind (dr : Draw Time Uuid) :
      store.exec (.findRequestById id) v dr = .ok (v.request? u, []) := by
    change (castUuid id).map _ = _
    rw [castUuid, hid]
    rfl
  refine (Engine.refusal_ok (hselect _)).trans ?_
  cases hr : v.request? u with
  | none => exact hnone hr
  | some r =>
    have hread {k : Option MoneyRequest → TxM α} {draws : ℕ → Draw Time Uuid} :
        store.refusal (.op (.findRequestById id) k) v draws =
          store.refusal (k (some r)) v (fun n => draws (n + 1)) :=
      Engine.refusal_ok ((hfind _).trans (by rw [hr]))
    exact hread.trans (hsome r hr)

/-- A check that settles whether there is an obstacle, before others. -/
theorem refusal_or {p : TxM Unit} {k : Unit → TxM α} {e e' : Option Failure}
    (hfail : ∀ x, e = some x → p = .fail x) (hpass : e = none → p = .ret ())
    (hrest : e = none → store.refusal (k ()) v draws = e') :
    store.refusal (p >>= k) v draws = e.or e' := by
  cases he : e with
  | some x =>
    rw [hfail x he]
    rfl
  | none =>
    rw [hpass he]
    exact hrest he

theorem assertActorRole_refusal {r : MoneyRequest} {actorUserId : Uuid} {role : ParticipantRole}
    {k : Unit → TxM α} {e : Option Failure}
    (hrest : requestObstacle r actorUserId role = none → store.refusal (k ()) v draws = e) :
    store.refusal (assertActorRole r actorUserId role >>= fun _ => assertPending r >>= k) v draws =
      (requestObstacle r actorUserId role).or e := by
  rw [← bind_assoc]
  have hcheck : (assertActorRole r actorUserId role >>= fun _ => assertPending r) =
      match requestObstacle r actorUserId role with
      | some x => .fail x
      | none => .ret () := by
    unfold assertActorRole assertPending requestObstacle
    cases hrole : roleOf r actorUserId with
    | none => rfl
    | some actual =>
      by_cases hactual : actual = role
      · by_cases hpending : r.status = .PENDING
        · simp [hactual, hpending]
        · simp [hactual, hpending]
      · simp [hactual]
  refine refusal_or (fun x hx => ?_) (fun hx => ?_) hrest
  · rw [hcheck, hx]
  · rw [hcheck, hx]

theorem finishTransition_refusal {recordId : Uuid} {request row : MoneyRequest}
    {event : OutboxEventInput} {audit : AuditEvent} {record : IdempotencyRecord} {actor : Uuid}
    (haudit : audit.actorUserId = some actor) (hactor : KnownUser actor v)
    (h : record ∈ v.idempotencyRecords) (hid : record.id = recordId) :
    store.refusal (finishTransition recordId request row event audit) v draws = none := by
  refine (Engine.refusal_ok rfl).trans ((Engine.refusal_ok (insert_audit haudit ?_)).trans
    ((Engine.refusal_ok rfl).trans ?_))
  · exact hactor
  exact complete_refusal (fun _ _ => rfl) h hid

theorem insertRequest_refusal {c : CreateMoneyRequestCommand} {payer recordId : Uuid}
    {record : IdempotencyRecord} (hpayer : parseUuid c.payerUserId = some payer)
    (hactor : KnownUser c.actorUserId v) (h : record ∈ v.idempotencyRecords)
    (hid : record.id = recordId) (hnew : ∀ r ∈ v.moneyRequests, r.id ≠ (draws 0).id) :
    store.refusal (insertRequest c recordId) v draws =
      if ¬ InBigint c.amountMinor then some (.db .outOfRange)
      else if c.amountMinor ≤ 0 then
        some (.db (.checkViolation .money_requests_amount_minor_positive))
      else if c.actorUserId = payer then
        some (.db (.checkViolation .money_requests_distinct_parties))
      else none := by
  have hid? : (v.request? (draws 0).id).isSome = false := by simpa [Db.request?] using hnew
  have hexec : store.exec (.createMoneyRequest (requestData c)) v (draws 0) =
      if ¬ InBigint c.amountMinor then .error (.db .outOfRange)
      else if c.amountMinor ≤ 0 then
        .error (.db (.checkViolation .money_requests_amount_minor_positive))
      else if c.actorUserId = payer then
        .error (.db (.checkViolation .money_requests_distinct_parties))
      else .ok (pendingRequest (draws 0) (requestData c) payer,
        [.insertMoneyRequest (pendingRequest (draws 0) (requestData c) payer)]) := by
    change execCreateMoneyRequest v (draws 0) (requestData c) = _
    simp only [execCreateMoneyRequest, castUuid, requestData, hpayer, hid?, pendingRequest,
      Bool.false_eq_true, if_false]
  split_ifs at hexec ⊢ with hfits hpos hself
  · exact Engine.refusal_error hexec
  · exact Engine.refusal_error hexec
  · refine (Engine.refusal_ok hexec).trans ((Engine.refusal_ok rfl).trans
      ((Engine.refusal_ok (insert_audit rfl ?_)).trans ((Engine.refusal_ok rfl).trans ?_)))
    · exact hactor
    exact complete_refusal (fun _ _ => rfl) h hid
  · exact Engine.refusal_error hexec

theorem createClaimed_refusal {c : CreateMoneyRequestCommand} {payer recordId : Uuid}
    {record : IdempotencyRecord} (hpayer : parseUuid c.payerUserId = some payer)
    (hactor : KnownUser c.actorUserId v) (h : record ∈ v.idempotencyRecords)
    (hid : record.id = recordId) (hnew : ∀ r ∈ v.moneyRequests, r.id ≠ (draws 1).id) :
    store.refusal (createClaimed c recordId) v draws = createObstacle v c payer := by
  have hfind (dr : Draw Time Uuid) :
      store.exec (.findUserById c.payerUserId) v dr = .ok (v.user? payer, []) := by
    change (castUuid c.payerUserId).map _ = _
    rw [castUuid, hpayer]
    rfl
  refine (Engine.refusal_ok (hfind _)).trans ?_
  unfold createObstacle
  cases hu : v.user? payer with
  | none => rfl
  | some user =>
    change store.refusal (if user.status ≠ .ACTIVE then .fail payerNotFound
      else insertRequest c recordId) v (fun n => draws (n + 1)) = _
    by_cases hactive : user.status = .ACTIVE
    · rw [if_neg (not_not.2 hactive), if_neg (by simpa using hactive)]
      exact insertRequest_refusal hpayer hactor h hid hnew
    · rw [if_pos hactive, if_pos (by simpa using hactive)]
      rfl

theorem resolveLocked_refusal {c : ResolveMoneyRequestCommand} {opts : ResolveOpts}
    {recordId u : Uuid} {r : MoneyRequest} {record : IdempotencyRecord}
    (hactor : KnownUser c.actorUserId v) (hr : v.request? u = some r)
    (h : record ∈ v.idempotencyRecords) (hid : record.id = recordId) :
    store.refusal (resolveLocked c opts recordId r) v draws =
      requestObstacle r c.actorUserId opts.requiredRole := by
  have hmark (dr : Draw Time Uuid) : store.exec (.markResolved r.id opts.target.status) v dr =
      .ok (r.resolve r.id opts.target.status dr.now,
        [.resolveRequest r.id opts.target.status dr.now]) := by
    have hr' : v.request? r.id = some r := by rw [request?_id hr, hr]
    simp only [store, exec, hr']
  rw [← Option.or_none (o := requestObstacle r c.actorUserId opts.requiredRole)]
  refine assertActorRole_refusal (fun _ => ?_)
  exact (Engine.refusal_ok (hmark _)).trans (finishTransition_refusal rfl hactor h hid)

/-- The steps of an accept from its settlement on. -/
theorem settleRequest_refusal {c : ResolveMoneyRequestCommand} {d : Deal} {recordId u : Uuid}
    {r : MoneyRequest} {record : IdempotencyRecord} (hv : Constrained v)
    (hactor : KnownUser c.actorUserId v) (hr : v.request? u = some r)
    (h : record ∈ v.idempotencyRecords) (hid : record.id = recordId)
    (hnew : ∀ t ∈ v.transfers, t.id ≠ (draws 8).id) (hsender : d.sender = r.payerUserId)
    (hreceiver : d.receiver = r.requesterUserId) (hamount : d.amountMinor = r.amountMinor)
    (hnow : (draws 6).now = d.now) :
    store.refusal (settleMoneyRequest d.cfg (settleCommand r) >>= fun transfer =>
      query (.markAccepted r.id transfer.transferId) >>= fun accepted =>
        finishTransition recordId r accepted (acceptedEvent r transfer.transferId)
          (acceptedAudit c r transfer.transferId)) v draws = d.failing v conditions.tail := by
  refine settle_bind_refusal d (requestInput r) ⟨some r.id⟩ hv
    (congrArg Uuid.text hsender.symm) (congrArg Uuid.text hreceiver.symm) hamount.symm hnow hnew
    (fun z transfer draws' => ?_)
  have hmark (dr : Draw Time Uuid) : store.exec (.markAccepted r.id transfer.transferId)
      (z.apply (requestInput r) ⟨some r.id⟩ v) dr =
        .ok (r.accept r.id transfer.transferId dr.now,
          [.acceptRequest r.id transfer.transferId dr.now]) := by
    have hr' : (z.apply (requestInput r) ⟨some r.id⟩ v).request? r.id = some r := by
      rw [request?_id hr, ← hr]
      rfl
    simp only [store, exec, hr']
  exact (Engine.refusal_ok (hmark _)).trans (finishTransition_refusal rfl hactor h hid)

theorem acceptLocked_refusal {c : ResolveMoneyRequestCommand} {cfg : Config} {recordId u : Uuid}
    {r : MoneyRequest} {record : IdempotencyRecord} (draws' : ℕ → Draw Time Uuid)
    (hv : Constrained v) (hactor : KnownUser c.actorUserId v) (hr : v.request? u = some r)
    (h : record ∈ v.idempotencyRecords) (hid : record.id = recordId)
    (hnew : ∀ n, ∀ t ∈ v.transfers, t.id ≠ (draws n).id)
    (hdraws : ∀ n, draws n = draws' (n + 3)) :
    store.refusal (acceptLocked c cfg recordId r) v draws =
      (requestObstacle r c.actorUserId .payer).or ((expiryObstacle r (draws' expiryCheck).now).or
        ((requestDeal cfg r draws').failing v conditions.tail)) := by
  refine assertActorRole_refusal (fun _ => ?_)
  unfold assertNotExpired expiryObstacle
  cases he : r.expiresAt with
  | none =>
    refine settleRequest_refusal (d := requestDeal cfg r draws') hv hactor hr h hid (hnew 8) rfl rfl
      rfl ?_
    rw [hdraws, requestDeal, he]
    rfl
  | some deadline =>
    have hnow : draws 0 = draws' expiryCheck := hdraws 0
    refine (Engine.refusal_ok rfl).trans ?_
    change store.refusal ((if deadline ≤ (draws 0).now then
      .fail (alreadyResolved "This money request has expired.") else .ret ()) >>= _) v
        (fun n => draws (n + 1)) = _
    by_cases hlate : deadline ≤ (draws 0).now
    · rw [if_pos hlate, if_pos (by simpa [← hnow] using hlate)]
      rfl
    · rw [if_neg hlate, if_neg (by simpa [← hnow] using hlate)]
      refine settleRequest_refusal (d := requestDeal cfg r draws') hv hactor hr h hid (hnew 9) rfl
        rfl rfl ?_
      rw [hdraws, requestDeal, he]
      rfl

/-- What a command that has passed the checks of its own input is refused with: by the record
of its key, or else by what it meets. -/
theorem keyed_refusal {cfg : Config} {c : Command} {f : BeginResult → TxM Response}
    {e : Option Failure} (hdone : ∀ r ∈ v.idempotencyRecords, r.state = .COMPLETED)
    (hnew : ∀ r ∈ v.idempotencyRecords, r.id ≠ (draws 0).id)
    (hreplay : ∀ status responseBody, f (.replayed status responseBody) = .ret responseBody)
    (hclaimed : KnownUser c.key.actorUserId v → store.refusal (f (.claimed (draws 0).id))
      (v.withRecord (claimedRecord (draws 0).id c.key (c.hash cfg))) (fun n => draws (n + 1)) = e) :
    store.refusal («begin» cfg c.params >>= f) v draws = keyRefusal (v.record? c.key) (c.hash cfg)
      (if v.user? c.key.actorUserId = none then some unregistered else e) := by
  cases hr : v.record? c.key with
  | some r =>
    rw [begin_used hr (hdone r (List.mem_of_find?_eq_some hr)), hreplay]
    rfl
  | none =>
    cases hu : v.user? c.key.actorUserId with
    | none => exact begin_unregistered hr hu
    | some user =>
      have hactor : (v.user? c.params.actorUserId).isSome := Option.isSome_iff_exists.2 ⟨user, hu⟩
      exact (begin_claimed hr hactor hnew).trans (hclaimed hactor)

/-- A decline or a cancel that has claimed its key. -/
theorem resolveClaimed_refusal {c : ResolveMoneyRequestCommand} {opts : ResolveOpts}
    {named recordId : Uuid} {key : RecordKey} {hash : JsString} (hactor : KnownUser c.actorUserId v)
    (hid : parseUuid c.requestId = some named) :
    store.refusal (lockById c.requestId >>= fun found =>
      match found with
      | none => .fail notFound
      | some request => resolveLocked c opts recordId request)
      (v.withRecord (claimedRecord recordId key hash)) draws =
        resolveObstacle v c opts.requiredRole named := by
  unfold resolveObstacle
  refine lockById_refusal (v := v.withRecord _) hid (fun hr => ?_) (fun r hr => ?_)
  · rw [show v.request? named = none from hr]
    rfl
  · rw [show v.request? named = some r from hr]
    exact resolveLocked_refusal hactor hr (List.mem_append_right _ List.mem_cons_self) rfl

theorem isNone_of_some {β : Type} {o : Option β} {b : β} (h : o = some b) : o.isNone = false := by
  rw [h]
  rfl

/-- The error of a command, as what it is given decides it. -/
theorem body_refusal {cfg : Config} {c : Command} {named : Uuid} (hv : Constrained v)
    (hdone : ∀ r ∈ v.idempotencyRecords, r.state = .COMPLETED) (hnew : NewIds v draws)
    (hc : c.Spells named) :
    store.refusal (body cfg c) v draws = (c.inputError [draws 0]).or
      (keyRefusal (v.record? c.key) (c.hash cfg) (c.obstacle cfg v draws named)) := by
  cases c with
  | createDirectTransfer c =>
    refine keyed_refusal (c := .createDirectTransfer c) hdone (hnew.records 0) (fun _ _ => rfl)
      (fun _ => ?_)
    exact claimed_refusal hv hc (hnew.transfers 9)
  | create c =>
    have hrun (draws' : ℕ → Draw Time Uuid) (hnew' : NewIds v draws') :
        store.refusal (runCreate c cfg) v draws' =
          keyRefusal (v.record? (Command.create c).key) ((Command.create c).hash cfg)
            ((Command.create c).obstacle cfg v draws named) :=
      keyed_refusal (c := .create c) hdone (hnew'.records 0) (fun _ _ => rfl) fun hactor =>
        createClaimed_refusal hc hactor (List.mem_append_right _ List.mem_cons_self) rfl
          (hnew'.requests 2)
    change store.refusal (create c cfg) v draws = _
    unfold create assertDeadline
    simp only [Command.inputError]
    split_ifs with hself
    · rfl
    · cases he : c.expiresAt with
      | none => exact hrun draws hnew
      | some deadline =>
        refine (Engine.refusal_ok rfl).trans ?_
        change store.refusal ((if deadline ≤ (draws 0).now then .fail expiresInThePast
          else .ret ()) >>= fun _ => runCreate c cfg) v (fun n => draws (n + 1)) = _
        by_cases hpast : deadline ≤ (draws 0).now
        · rw [if_pos hpast]
          simp only [if_pos hpast]
          rfl
        · rw [if_neg hpast]
          simp only [if_neg hpast]
          exact hrun (fun n => draws (n + 1))
            ⟨fun n => hnew.records _, fun n => hnew.transfers _, fun n => hnew.requests _⟩
  | accept c =>
    change store.refusal (accept c cfg) v draws = _
    simp only [accept, assertRequestId, Command.inputError, isNone_of_some hc]
    refine keyed_refusal (c := .accept c) hdone (hnew.records 0) (fun _ _ => rfl) (fun hactor => ?_)
    change _ = acceptObstacle cfg v draws c named
    unfold acceptObstacle
    refine lockById_refusal (v := v.withRecord _) hc (fun hr => ?_) (fun r hr => ?_)
    · rw [show v.request? named = none from hr]
      rfl
    · rw [show v.request? named = some r from hr]
      refine (acceptLocked_refusal draws (hv.withRecord _) hactor hr
        (List.mem_append_right _ List.mem_cons_self) rfl (fun n => hnew.transfers _)
        (fun _ => rfl)).trans ?_
      rw [failing_withRecord]
  | decline c =>
    change store.refusal (resolvePending c cfg declineOpts) v draws = _
    simp only [resolvePending, assertRequestId, Command.inputError, isNone_of_some hc]
    refine keyed_refusal (c := .decline c) hdone (hnew.records 0) (fun _ _ => rfl)
      (fun hactor => ?_)
    exact resolveClaimed_refusal hactor hc
  | cancel c =>
    change store.refusal (resolvePending c cfg cancelOpts) v draws = _
    simp only [resolvePending, assertRequestId, Command.inputError, isNone_of_some hc]
    refine keyed_refusal (c := .cancel c) hdone (hnew.records 0) (fun _ _ => rfl) (fun hactor => ?_)
    exact resolveClaimed_refusal hactor hc

end Deciding

end MoneyMovement
