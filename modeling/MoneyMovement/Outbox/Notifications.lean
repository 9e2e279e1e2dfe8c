import MoneyMovement.Basic.Money
import MoneyMovement.Store.Statements

/-!
# From events to notifications

`plan` reads the untyped payload of a claimed event and decides whom to notify;
`insertIfAbsent` writes a notification unless its event has one for its user.
-/

namespace MoneyMovement

section Payloads

mutual

/-- `String(value)`. -/
def stringOf : Payload → JsString
  | .null => js "null"
  | .bool b => if b then js "true" else js "false"
  | .num n => decimal n
  | .str s => s
  | .arr items => (js ",").intercalate (joined items)
  | .obj _ => js "[object Object]"

/-- The items of an array as `join` takes them: nothing for `null`. -/
def joined : List Payload → List JsString
  | [] => []
  | .null :: rest => [] :: joined rest
  | v :: rest => stringOf v :: joined rest

end

/-- `payload.key`, nothing for `undefined`. Every payload is an object. -/
def Json.field? (p : Payload) (key : JsString) : Option Payload :=
  match p with
  | .obj fields => (fields.find? (·.1 = key)).map Prod.snd
  | _ => none

def stringOf? : Option Payload → JsString
  | some v => stringOf v
  | none => js "undefined"

def truthy : Option Payload → Bool
  | none | some .null => false
  | some (.bool b) => b
  | some (.num n) => n ≠ 0
  | some (.str s) => !s.isEmpty
  | _ => true

/-- `value ?? 'BDT'`. -/
def orBDT : Option Payload → Payload
  | none | some .null => .str (js "BDT")
  | some v => v

end Payloads

section Rows

inductive NotificationType
  | money_received | money_request_received | money_request_accepted | money_request_declined
  | money_request_cancelled
  deriving DecidableEq

structure Notification where
  id : Uuid
  userId : Uuid
  type : NotificationType
  title : JsString
  body : JsString
  resourceType : ResourceType
  resourceId : Uuid
  readAt : Option Time
  createdAt : Time
  sourceEventId : Uuid
  deriving DecidableEq

structure ClaimedOutboxEvent where
  id : Uuid
  aggregateType : ResourceType
  aggregateId : Uuid
  eventType : EventType
  payload : Payload
  attemptCount : ℕ

def ClaimedOutboxEvent.of (e : OutboxEvent) (attemptCount : ℕ) : ClaimedOutboxEvent where
  id := e.id
  aggregateType := e.aggregateType
  aggregateId := e.aggregateId
  eventType := e.eventType
  payload := e.payload
  attemptCount := attemptCount

structure PlannedNotification where
  userId : JsString
  type : NotificationType
  title : JsString
  body : JsString
  resourceType : ResourceType
  resourceId : JsString
  deriving DecidableEq

end Rows

namespace NotificationConsumer

/-- `amount(p)`; a text that is no integer is a `SyntaxError`. -/
def amount (p : Payload) : Except JsString JsString :=
  match bigInt (stringOf? (p.field? (js "amountMinor"))) with
  | some n => .ok (formatMinorUnits n (stringOf (orBDT (p.field? (js "currency")))))
  | none => .error (js "Cannot convert " ++ stringOf? (p.field? (js "amountMinor")) ++
      js " to a BigInt")

/-- The one notification of an event: to the user named by a field of its payload,
about the resource named by another. -/
def notify (event : ClaimedOutboxEvent) (user : String) (type : NotificationType)
    (title before after : String) (resourceType : ResourceType) (resource : String) :
    Except JsString (List PlannedNotification) :=
  (amount event.payload).map fun shownAmount =>
    [{ userId := stringOf? (event.payload.field? (js user))
       type := type
       title := js title
       body := js before ++ shownAmount ++ js after
       resourceType := resourceType
       resourceId := stringOf? (event.payload.field? (js resource)) }]

def onTransferSucceeded (event : ClaimedOutboxEvent) : Except JsString (List PlannedNotification) :=
  if truthy (event.payload.field? (js "sourceRequestId")) then .ok []
  else notify event "receiverUserId" .money_received "Money received" "You received " "."
    .transfer "transferId"

def onRequestCreated (event : ClaimedOutboxEvent) : Except JsString (List PlannedNotification) :=
  notify event "payerUserId" .money_request_received "Money requested" "Someone requested "
    " from you." .moneyRequest "requestId"

def onRequestAccepted (event : ClaimedOutboxEvent) : Except JsString (List PlannedNotification) :=
  notify event "requesterUserId" .money_request_accepted "Request accepted" "Your request for "
    " was accepted and paid." .moneyRequest "requestId"

def onRequestResolvedByPayer (event : ClaimedOutboxEvent) :
    Except JsString (List PlannedNotification) :=
  notify event "requesterUserId" .money_request_declined "Request declined" "Your request for "
    " was declined." .moneyRequest "requestId"

def onRequestCancelled (event : ClaimedOutboxEvent) : Except JsString (List PlannedNotification) :=
  notify event "payerUserId" .money_request_cancelled "Request cancelled" "A request for "
    " was cancelled." .moneyRequest "requestId"

def plan (event : ClaimedOutboxEvent) : Except JsString (List PlannedNotification) :=
  match event.eventType with
  | .transferSucceeded => onTransferSucceeded event
  | .moneyRequestCreated => onRequestCreated event
  | .moneyRequestAccepted => onRequestAccepted event
  | .moneyRequestDeclined => onRequestResolvedByPayer event
  | .moneyRequestCancelled => onRequestCancelled event
  | .transferRiskFlagged => .ok []

end NotificationConsumer

namespace NotificationsRepository

/-- Characters of a text, a surrogate pair counted once. -/
def characters : JsString → ℕ
  | [] => 0
  | [_] => 1
  | c :: d :: rest =>
    if isHighSurrogate c ∧ isLowSurrogate d then characters rest + 1
    else characters (d :: rest) + 1

inductive Refusal | invalidUuid | valueTooLong | foreignKeyViolation
  deriving DecidableEq

def inserted (p : PlannedNotification) (userId resourceId id sourceEventId : Uuid) (now : Time) :
    Notification where
  id := id
  userId := userId
  type := p.type
  title := p.title
  body := p.body
  resourceType := p.resourceType
  resourceId := resourceId
  readAt := none
  createdAt := now
  sourceEventId := sourceEventId

/-- The rows the insert adds to those it sees. -/
def insertIfAbsent (users : List User) (visible : List Notification) (p : PlannedNotification)
    (id sourceEventId : Uuid) (now : Time) : Except Refusal (List Notification) :=
  match parseUuid p.userId, parseUuid p.resourceId with
  | some userId, some resourceId =>
    if 160 < characters p.title ∨ 500 < characters p.body then .error .valueTooLong
    else if visible.any (fun n => n.sourceEventId = sourceEventId ∧ n.userId = userId) then .ok []
    else if (users.find? (·.id = userId)).isNone then .error .foreignKeyViolation
    else .ok [inserted p userId resourceId id sourceEventId now]
  | _, _ => .error .invalidUuid

/-- `markReadForOwner`, on one row of the table. -/
def markRead (notificationId userId : Uuid) (now : Time) (n : Notification) : Notification :=
  if n.id = notificationId ∧ n.userId = userId ∧ n.readAt = none then { n with readAt := some now }
  else n

theorem characters_le (s : JsString) : characters s ≤ s.length := by
  induction s using characters.induct with
  | case1 => exact Nat.le_refl 0
  | case2 c => exact Nat.le_refl 1
  | case3 c d rest h ih =>
    rw [characters, if_pos h]
    simp only [List.length_cons]
    omega
  | case4 c d rest h ih =>
    rw [characters, if_neg h]
    simp only [List.length_cons] at ih ⊢
    omega

end NotificationsRepository

end MoneyMovement
