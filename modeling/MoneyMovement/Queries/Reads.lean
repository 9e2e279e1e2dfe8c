import MoneyMovement.Outbox.Notifications
import MoneyMovement.Paging.Keyset
import MoneyMovement.Queries.Cursors
import MoneyMovement.Service.MoneyRequests

/-!
# The read side

What `GET` shows of transfers, money requests, the activity feed and notifications:
each endpoint is a query, a check that the caller takes part, and a page.
-/

namespace MoneyMovement

open Paging TransferService

abbrev CursorPage (α : Type) := Page α JsString

theorem ok_bind {ε α β : Type} (a : α) (f : α → Except ε β) : (Except.ok a >>= f) = f a := rfl

section Requests

/-- What `new Date` makes of a text in another format than its own. -/
structure ReadConfig where
  otherDate : JsString → Option Time

def invalidCursor : Failure := refuse 400 .VALIDATION_ERROR "Invalid cursor."

/-- `take` rows are fetched to show `limit` of them. -/
abbrev Limit := { n : ℕ // 0 < n ∧ n ≤ 50 }

/-- The cursor of a query; an empty text counts as none. -/
def decodeCursor? (cfg : ReadConfig) (cursor : Option JsString) :
    Except Failure (Option KeysetCursor) :=
  match cursor.filter (· ≠ []) with
  | none => .ok none
  | some raw =>
    match decodeKeysetCursor cfg.otherDate raw with
    | some anchor => .ok (some anchor)
    | none => .error invalidCursor

end Requests

section Order

/-- `ORDER BY created_at DESC, id DESC`. -/
abbrev Position := Time ×ₗ Uuid

def position (createdAt : Time) (id : Uuid) : Position := toLex (createdAt, id)

/-- `(created_at, id) < (cursor)`, as Postgres compares tuples. -/
def tupleBefore (cursor : KeysetCursor) (createdAt : Time) (id : Uuid) : Prop :=
  if createdAt = cursor.createdAt then id < cursor.id else createdAt < cursor.createdAt

instance (cursor : KeysetCursor) (createdAt : Time) (id : Uuid) :
    Decidable (tupleBefore cursor createdAt id) := inferInstanceAs (Decidable (ite _ _ _))

/-- `createdAt < cursor OR (createdAt = cursor AND id < cursor)`. -/
def orBefore (cursor : KeysetCursor) (createdAt : Time) (id : Uuid) : Prop :=
  createdAt < cursor.createdAt ∨ (createdAt = cursor.createdAt ∧ id < cursor.id)

instance (cursor : KeysetCursor) (createdAt : Time) (id : Uuid) :
    Decidable (orBefore cursor createdAt id) := inferInstanceAs (Decidable (_ ∨ _))

end Order

namespace TransferQueryService

def notFound : Failure := refuse 404 .TRANSFER_NOT_FOUND "Transfer not found."

def riskDto (assessment : RiskAssessment) : RiskAssessmentDto where
  score := assessment.score
  level := assessment.level
  reasons := assessment.reasons
  explanation := assessment.explanation

def getForParticipant (db : Db) (transferId : JsString) (requesterUserId : Uuid) :
    Except Failure TransferDto :=
  match parseUuid transferId with
  | none => .error notFound
  | some id =>
    match db.transfers.find? (·.id = id) with
    | none => .error notFound
    | some transfer =>
      if transfer.senderUserId = requesterUserId ∨ transfer.receiverUserId = requesterUserId then
        let assessment := db.riskAssessments.find? (·.transferId = id)
        .ok (toTransferDto transfer none (assessment.map riskDto))
      else .error notFound

end TransferQueryService

namespace MoneyRequestQueryService

open MoneyRequestService

structure ListMoneyRequestsQuery where
  status : Option MoneyRequestStatus
  cursor : Option JsString
  limit : Limit

def getForParticipant (db : Db) (now : Time) (requestId : JsString) (requesterUserId : Uuid) :
    Except Failure MoneyRequestDto :=
  match parseUuid requestId with
  | none => .error notFound
  | some id =>
    match db.moneyRequests.find? (·.id = id) with
    | none => .error notFound
    | some request =>
      if request.requesterUserId = requesterUserId ∨ request.payerUserId = requesterUserId then
        .ok (toMoneyRequestDto request now)
      else .error notFound

def Lists (role : ParticipantRole) (userId : Uuid) (status : Option MoneyRequestStatus)
    (r : MoneyRequest) : Prop :=
  (match role with
    | .payer => r.payerUserId = userId
    | .requester => r.requesterUserId = userId) ∧ ∀ s ∈ status, r.status = s

instance (role : ParticipantRole) (userId : Uuid) (status : Option MoneyRequestStatus) :
    DecidablePred (Lists role userId status) := fun r => by
  unfold Lists
  haveI : Decidable (∀ s ∈ status, r.status = s) := Option.decidableForallMem status
  cases role <;> exact instDecidableAnd

def listForParticipant (role : ParticipantRole) (userId : Uuid)
    (status : Option MoneyRequestStatus) (cursor : Option KeysetCursor) (take : ℕ) (db : Db) :
    List MoneyRequest :=
  (orderBy (fun r : MoneyRequest => position r.createdAt r.id)
    (db.moneyRequests.filter fun r => Lists role userId status r ∧
      cursor.all (orBefore · r.createdAt r.id))).take take

def list (cfg : ReadConfig) (db : Db) (now : Time) (role : ParticipantRole) (userId : Uuid)
    (query : ListMoneyRequestsQuery) : Except Failure (CursorPage MoneyRequestDto) := do
  let cursor ← decodeCursor? cfg query.cursor
  let rows := listForParticipant role userId query.status cursor (query.limit.val + 1) db
  return (cut query.limit.val (fun r => encodeKeysetCursor ⟨r.createdAt, r.id⟩) rows).map
    (toMoneyRequestDto · now) id

def listIncoming (cfg : ReadConfig) (db : Db) (now : Time) (userId : Uuid)
    (query : ListMoneyRequestsQuery) : Except Failure (CursorPage MoneyRequestDto) :=
  list cfg db now .payer userId query

def listOutgoing (cfg : ReadConfig) (db : Db) (now : Time) (userId : Uuid)
    (query : ListMoneyRequestsQuery) : Except Failure (CursorPage MoneyRequestDto) :=
  list cfg db now .requester userId query

end MoneyRequestQueryService

section Activity

inductive ActivityType | TRANSFER | MONEY_REQUEST
  deriving DecidableEq

inductive ActivityDirection | IN | OUT | REQUEST
  deriving DecidableEq

inductive ActivityStatus
  | transfer (status : TransferStatus)
  | moneyRequest (status : MoneyRequestStatus)
  deriving DecidableEq

structure ActivityRow where
  kind : ActivityType
  referenceId : Uuid
  createdAt : Time
  direction : ActivityDirection
  amountMinor : ℤ
  currency : Currency
  status : ActivityStatus
  expiresAt : Option Time
  counterpartyId : Uuid
  relatedRequestId : Option Uuid
  relatedTransferId : Option Uuid
  deriving DecidableEq

structure ActivityCounterparty where
  userId : Uuid
  displayName : JsString
  deriving DecidableEq

structure ActivityItemDto where
  activityId : JsString
  referenceId : Uuid
  type : ActivityType
  direction : ActivityDirection
  amountMinor : ℤ
  currency : Currency
  status : ActivityStatus
  counterparty : Option ActivityCounterparty
  createdAt : JsString
  relatedRequestId : Option Uuid
  relatedTransferId : Option Uuid
  deriving DecidableEq

structure ListActivityQuery where
  type : Option ActivityType
  cursor : Option JsString
  limit : Limit

namespace ActivityRepository

def ofTransfer (userId : Uuid) (t : Transfer) : ActivityRow where
  kind := .TRANSFER
  referenceId := t.id
  createdAt := t.createdAt
  direction := if t.senderUserId = userId then .OUT else .IN
  amountMinor := t.amountMinor
  currency := t.currency
  status := .transfer t.status
  expiresAt := none
  counterpartyId := if t.senderUserId = userId then t.receiverUserId else t.senderUserId
  relatedRequestId := t.sourceRequestId
  relatedTransferId := none

def ofRequest (userId : Uuid) (r : MoneyRequest) : ActivityRow where
  kind := .MONEY_REQUEST
  referenceId := r.id
  createdAt := r.createdAt
  direction := .REQUEST
  amountMinor := r.amountMinor
  currency := r.currency
  status := .moneyRequest r.status
  expiresAt := r.expiresAt
  counterpartyId := if r.requesterUserId = userId then r.payerUserId else r.requesterUserId
  relatedRequestId := some r.id
  relatedTransferId := r.acceptedTransferId

/-- The `UNION ALL` of what the user takes part in. -/
def union (userId : Uuid) (db : Db) : List ActivityRow :=
  (db.transfers.filter fun t => t.senderUserId = userId ∨ t.receiverUserId = userId).map
      (ofTransfer userId) ++
    (db.moneyRequests.filter fun r => r.requesterUserId = userId ∨ r.payerUserId = userId).map
      (ofRequest userId)

def list (userId : Uuid) (cursor : Option KeysetCursor) (kind : Option ActivityType) (take : ℕ)
    (db : Db) : List ActivityRow :=
  (orderBy (fun act : ActivityRow => position act.createdAt act.referenceId)
    ((union userId db).filter fun act => cursor.all (tupleBefore · act.createdAt act.referenceId) ∧
      kind.all (act.kind = ·))).take take

end ActivityRepository

namespace ActivityQueryService

/-- `findManyByIds` for the counterparties of a page. -/
def resolveCounterparties (db : Db) (rows : List ActivityRow) : List ActivityCounterparty :=
  (db.users.filter fun u => (rows.map ActivityRow.counterpartyId).contains u.id).map fun u =>
    ⟨u.id, u.displayName⟩

def activityId (row : ActivityRow) : JsString :=
  (match row.kind with
    | .TRANSFER => js "transfer"
    | .MONEY_REQUEST => js "request") ++ js ":" ++ row.referenceId.text

def statusOf (row : ActivityRow) (now : Time) : ActivityStatus :=
  match row.status with
  | .transfer status => .transfer status
  | .moneyRequest status => .moneyRequest (effectiveStatus status row.expiresAt now)

/-- A counterparty without a name is not shown. -/
def toDto (counterparties : List ActivityCounterparty) (now : Time) (row : ActivityRow) :
    ActivityItemDto where
  activityId := activityId row
  referenceId := row.referenceId
  type := row.kind
  direction := row.direction
  amountMinor := number row.amountMinor
  currency := row.currency
  status := statusOf row now
  counterparty := (counterparties.find? (·.userId = row.counterpartyId)).filter
    (·.displayName ≠ [])
  createdAt := toISOString row.createdAt
  relatedRequestId := row.relatedRequestId
  relatedTransferId := row.relatedTransferId

def listForUser (cfg : ReadConfig) (db : Db) (now : Time) (userId : Uuid)
    (query : ListActivityQuery) : Except Failure (CursorPage ActivityItemDto) := do
  let cursor ← decodeCursor? cfg query.cursor
  let rows := ActivityRepository.list userId cursor query.type (query.limit.val + 1) db
  let page := cut query.limit.val (fun r => encodeKeysetCursor ⟨r.createdAt, r.referenceId⟩) rows
  return page.map (toDto (resolveCounterparties db page.data) now) id

end ActivityQueryService

end Activity

section Notifications

structure NotificationDto where
  notificationId : Uuid
  type : NotificationType
  title : JsString
  body : JsString
  resourceType : ResourceType
  resourceId : Uuid
  readAt : Option JsString
  createdAt : JsString
  deriving DecidableEq

def toNotificationDto (row : Notification) : NotificationDto where
  notificationId := row.id
  type := row.type
  title := row.title
  body := row.body
  resourceType := row.resourceType
  resourceId := row.resourceId
  readAt := row.readAt.map toISOString
  createdAt := toISOString row.createdAt

structure ListNotificationsQuery where
  unreadOnly : Bool
  cursor : Option JsString
  limit : Limit

namespace NotificationsService

def notFound : Failure := refuse 404 .NOT_FOUND "Notification not found."

def list (userId : Uuid) (unreadOnly : Bool) (cursor : Option KeysetCursor) (take : ℕ)
    (notifications : List Notification) : List Notification :=
  (orderBy (fun n : Notification => position n.createdAt n.id)
    (notifications.filter fun n => n.userId = userId ∧ (unreadOnly → n.readAt = none) ∧
      cursor.all (orBefore · n.createdAt n.id))).take take

def listForUser (cfg : ReadConfig) (notifications : List Notification) (userId : Uuid)
    (query : ListNotificationsQuery) : Except Failure (CursorPage NotificationDto) := do
  let cursor ← decodeCursor? cfg query.cursor
  let rows := list userId query.unreadOnly cursor (query.limit.val + 1) notifications
  return (cut query.limit.val (fun n => encodeKeysetCursor ⟨n.createdAt, n.id⟩) rows).map
    toNotificationDto id

/-- What is left of the table, and the answer. -/
def markRead (notifications : List Notification) (now : Time) (notificationId : JsString)
    (userId : Uuid) : List Notification × Except Failure NotificationDto :=
  match parseUuid notificationId with
  | none => (notifications, .error notFound)
  | some id =>
    let marked := notifications.map (NotificationsRepository.markRead id userId now)
    match marked.find? (fun n => n.id = id ∧ n.userId = userId) with
    | none => (marked, .error notFound)
    | some n => (marked, .ok (toNotificationDto n))

end NotificationsService

end Notifications

end MoneyMovement
