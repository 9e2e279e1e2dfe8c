import MoneyMovement.Service.Transfers

/-!
# The life of a money request

Create, accept, decline and cancel, each one transaction that claims its
idempotency key, locks the request row and re-checks that it is still pending.
`Command` collects the five operations that move or request money.
-/

namespace MoneyMovement

open Txn Prog

def effectiveStatus (status : MoneyRequestStatus) (expiresAt : Option Time) (now : Time) :
    MoneyRequestStatus :=
  match expiresAt with
  | some deadline => if status = .PENDING ∧ deadline ≤ now then .EXPIRED else status
  | none => status

def toMoneyRequestDto (row : MoneyRequest) (now : Time) : MoneyRequestDto where
  requestId := row.id
  status := effectiveStatus row.status row.expiresAt now
  requesterUserId := row.requesterUserId
  payerUserId := row.payerUserId
  amountMinor := number row.amountMinor
  currency := row.currency
  note := row.note
  acceptedTransferId := row.acceptedTransferId
  expiresAt := row.expiresAt.map toISOString
  createdAt := toISOString row.createdAt
  resolvedAt := row.resolvedAt.map toISOString

namespace MoneyRequestService

open IdempotencyService TransferService

structure CreateMoneyRequestCommand where
  actorUserId : Uuid
  payerUserId : JsString
  amountMinor : ℤ
  currency : Currency
  note : Option JsString
  expiresAt : Option Time
  idempotencyKey : JsString
  deriving DecidableEq

structure ResolveMoneyRequestCommand where
  actorUserId : Uuid
  requestId : JsString
  idempotencyKey : JsString
  deriving DecidableEq

inductive ParticipantRole | payer | requester
  deriving DecidableEq

section Errors

def selfRequest : Failure :=
  refuse 422 .VALIDATION_ERROR "You cannot request money from yourself."

def expiresInThePast : Failure :=
  refuse 400 .VALIDATION_ERROR "expiresAt must be in the future."

def payerNotFound : Failure := refuse 404 .USER_NOT_FOUND "Payer not found."

def notFound : Failure := refuse 404 .MONEY_REQUEST_NOT_FOUND "Money request not found."

def alreadyResolved (message : String) : Failure := refuse 409 .REQUEST_ALREADY_RESOLVED message

def wrongRole : ParticipantRole → Failure
  | .payer => refuse 403 .FORBIDDEN "Only the payer can perform this action."
  | .requester => refuse 403 .FORBIDDEN "Only the requester can perform this action."

end Errors

def eventPayload (request : MoneyRequest) : List (JsString × Payload) :=
  [(js "requestId", .str request.id.text), (js "payerUserId", .str request.payerUserId.text),
    (js "requesterUserId", .str request.requesterUserId.text),
    (js "amountMinor", .str (decimal request.amountMinor)),
    (js "currency", .str request.currency.text)]

def requestEvent (request : MoneyRequest) (eventType : EventType)
    (payload : List (JsString × Payload)) : OutboxEventInput where
  aggregateType := .moneyRequest
  aggregateId := request.id
  eventType := eventType
  payload := .obj payload

def requestAudit (actorUserId requestId : Uuid) (action : AuditAction)
    (metadata : List (JsString × Payload)) : AuditEvent where
  actorUserId := some actorUserId
  action := action
  resourceType := .moneyRequest
  resourceId := some requestId
  metadata := .obj metadata

section Create

variable (command : CreateMoneyRequestCommand)

def createPayload : Payload :=
  .obj [(js "payerUserId", .str command.payerUserId),
    (js "amountMinor", .str (decimal command.amountMinor)),
    (js "currency", .str command.currency.text), (js "note", jsonText command.note),
    (js "expiresAt", jsonText (command.expiresAt.map toISOString))]

def createParams : BeginParams where
  actorUserId := command.actorUserId
  routeKey := .create
  idempotencyKey := command.idempotencyKey
  payload := createPayload command

def createdAudit (row : MoneyRequest) : AuditEvent :=
  requestAudit command.actorUserId row.id .MONEY_REQUEST_CREATED
    [(js "payerUserId", .str row.payerUserId.text),
      (js "amountMinor", .str (decimal row.amountMinor)), (js "currency", .str row.currency.text)]

def insertRequest (recordId : Uuid) : TxM Response := do
  let row ← query (.createMoneyRequest
    { requesterUserId := command.actorUserId, payerUserId := command.payerUserId,
      amountMinor := command.amountMinor, currency := command.currency, note := command.note,
      expiresAt := command.expiresAt })
  query (.insertOutboxEvent (requestEvent row .moneyRequestCreated (eventPayload row)))
  query (.insertAuditEvent (createdAudit command row))
  let now ← query .newDate
  let dto := toMoneyRequestDto row now
  complete
    { recordId, responseStatus := 201, responseBody := .moneyRequest dto,
      resourceType := .moneyRequest, resourceId := row.id }
  return .moneyRequest dto

def createClaimed (recordId : Uuid) : TxM Response := do
  let payer ← query (.findUserById command.payerUserId)
  match payer with
  | none => .fail payerNotFound
  | some user =>
    if user.status ≠ .ACTIVE then .fail payerNotFound else insertRequest command recordId

def runCreate (cfg : Config) : TxM Response := do
  match ← «begin» cfg (createParams command) with
  | .replayed _ responseBody => return responseBody
  | .claimed recordId => createClaimed command recordId

/-- The clock is read only when a deadline is given. -/
def assertDeadline : TxM Unit :=
  match command.expiresAt with
  | none => return ()
  | some deadline => do
    let now ← query .dateNow
    if deadline ≤ now then .fail expiresInThePast else return ()

def create (cfg : Config) : TxM Response :=
  if command.payerUserId = command.actorUserId.text then .fail selfRequest
  else do
    assertDeadline command
    runCreate command cfg

end Create

section Resolve

variable (command : ResolveMoneyRequestCommand)

def assertRequestId (id : JsString) : TxM Unit :=
  if (parseUuid id).isNone then .fail notFound else return ()

def lockById (id : JsString) : TxM (Option MoneyRequest) := do
  let locked ← query (.selectRequestForUpdate id)
  if locked then query (.findRequestById id) else return none

/-- The role of a participant; nobody else may know the request exists. -/
def roleOf (request : MoneyRequest) (actorUserId : Uuid) : Option ParticipantRole :=
  if request.payerUserId = actorUserId then some .payer
  else if request.requesterUserId = actorUserId then some .requester
  else none

def assertActorRole (request : MoneyRequest) (actorUserId : Uuid)
    (requiredRole : ParticipantRole) : TxM Unit :=
  match roleOf request actorUserId with
  | none => .fail notFound
  | some actualRole =>
    if actualRole ≠ requiredRole then .fail (wrongRole requiredRole) else return ()

def assertPending (request : MoneyRequest) : TxM Unit :=
  if request.status ≠ .PENDING then
    .fail (alreadyResolved "This money request has already been resolved.")
  else return ()

def assertNotExpired (request : MoneyRequest) : TxM Unit :=
  match request.expiresAt with
  | none => return ()
  | some deadline => do
    let now ← query .dateNow
    if deadline ≤ now then .fail (alreadyResolved "This money request has expired.") else return ()

def resolveParams (routeKey : RouteKey) : BeginParams where
  actorUserId := command.actorUserId
  routeKey := routeKey
  idempotencyKey := command.idempotencyKey
  payload := .obj [(js "requestId", .str command.requestId)]

def finishTransition (recordId : Uuid) (request row : MoneyRequest) (event : OutboxEventInput)
    (audit : AuditEvent) : TxM Response := do
  query (.insertOutboxEvent event)
  query (.insertAuditEvent audit)
  let now ← query .newDate
  let dto := toMoneyRequestDto row now
  complete
    { recordId, responseStatus := 200, responseBody := .moneyRequest dto,
      resourceType := .moneyRequest, resourceId := request.id }
  return .moneyRequest dto

def acceptedEvent (request : MoneyRequest) (transferId : Uuid) : OutboxEventInput :=
  requestEvent request .moneyRequestAccepted
    (eventPayload request ++ [(js "acceptedTransferId", .str transferId.text)])

def acceptedAudit (request : MoneyRequest) (transferId : Uuid) : AuditEvent :=
  requestAudit command.actorUserId request.id .MONEY_REQUEST_ACCEPTED
    [(js "acceptedTransferId", .str transferId.text),
      (js "requesterUserId", .str request.requesterUserId.text),
      (js "amountMinor", .str (decimal request.amountMinor)),
      (js "currency", .str request.currency.text)]

def settleCommand (request : MoneyRequest) : SettleMoneyRequestCommand where
  payerUserId := request.payerUserId
  requesterUserId := request.requesterUserId
  amountMinor := request.amountMinor
  currency := request.currency
  note := request.note
  sourceRequestId := request.id

/-- Steps 3 to 12 of `accept`, on the locked request. -/
def acceptLocked (cfg : Config) (recordId : Uuid) (request : MoneyRequest) : TxM Response := do
  assertActorRole request command.actorUserId .payer
  assertPending request
  assertNotExpired request
  let transfer ← settleMoneyRequest cfg (settleCommand request)
  let accepted ← query (.markAccepted request.id transfer.transferId)
  finishTransition recordId request accepted (acceptedEvent request transfer.transferId)
    (acceptedAudit command request transfer.transferId)

def runAccept (cfg : Config) : TxM Response := do
  match ← «begin» cfg (resolveParams command .accept) with
  | .replayed _ responseBody => return responseBody
  | .claimed recordId =>
    match ← lockById command.requestId with
    | none => .fail notFound
    | some request => acceptLocked command cfg recordId request

def accept (cfg : Config) : TxM Response := do
  assertRequestId command.requestId
  runAccept command cfg

inductive Resolution | DECLINED | CANCELLED
  deriving DecidableEq

structure ResolveOpts where
  routeKey : RouteKey
  requiredRole : ParticipantRole
  target : Resolution

def Resolution.status : Resolution → MoneyRequestStatus
  | .DECLINED => .DECLINED
  | .CANCELLED => .CANCELLED

def Resolution.eventType : Resolution → EventType
  | .DECLINED => .moneyRequestDeclined
  | .CANCELLED => .moneyRequestCancelled

def Resolution.action : Resolution → AuditAction
  | .DECLINED => .MONEY_REQUEST_DECLINED
  | .CANCELLED => .MONEY_REQUEST_CANCELLED

def resolvedAudit (opts : ResolveOpts) (request : MoneyRequest) : AuditEvent :=
  requestAudit command.actorUserId request.id opts.target.action
    [(js "amountMinor", .str (decimal request.amountMinor)),
      (js "currency", .str request.currency.text)]

def resolveLocked (opts : ResolveOpts) (recordId : Uuid) (request : MoneyRequest) :
    TxM Response := do
  assertActorRole request command.actorUserId opts.requiredRole
  assertPending request
  let resolved ← query (.markResolved request.id opts.target.status)
  finishTransition recordId request resolved
    (requestEvent request opts.target.eventType (eventPayload request))
    (resolvedAudit command opts request)

def resolvePending (cfg : Config) (opts : ResolveOpts) : TxM Response := do
  assertRequestId command.requestId
  match ← «begin» cfg (resolveParams command opts.routeKey) with
  | .replayed _ responseBody => return responseBody
  | .claimed recordId =>
    match ← lockById command.requestId with
    | none => .fail notFound
    | some request => resolveLocked command opts recordId request

def declineOpts : ResolveOpts := ⟨.decline, .payer, .DECLINED⟩

def cancelOpts : ResolveOpts := ⟨.cancel, .requester, .CANCELLED⟩

def decline (cfg : Config) : TxM Response := resolvePending command cfg declineOpts

def cancel (cfg : Config) : TxM Response := resolvePending command cfg cancelOpts

end Resolve

end MoneyRequestService

open TransferService MoneyRequestService

inductive Command
  | createDirectTransfer (c : CreateDirectTransferCommand)
  | create (c : CreateMoneyRequestCommand)
  | accept (c : ResolveMoneyRequestCommand)
  | decline (c : ResolveMoneyRequestCommand)
  | cancel (c : ResolveMoneyRequestCommand)
  deriving DecidableEq

/-- One attempt of a command. The retries of `createDirectTransfer` and `accept`
are further attempts of the same command; the audit row of a failed transfer is
written outside every transaction. -/
def body (cfg : Config) : Command → TxM Response
  | .createDirectTransfer c => runTransfer cfg c
  | .create c => create c cfg
  | .accept c => accept c cfg
  | .decline c => decline c cfg
  | .cancel c => cancel c cfg

end MoneyMovement
