import MoneyMovement.Basic.Json

/-!
# Tables, responses and errors

The rows of the Prisma schema with the columns the money paths read or write,
the response bodies the API returns and stores, and the errors it raises.
-/

namespace MoneyMovement

section Enums

inductive UserStatus | ACTIVE | SUSPENDED | CLOSED
  deriving DecidableEq

inductive WalletStatus | ACTIVE | FROZEN | CLOSED
  deriving DecidableEq

inductive TransferStatus | PENDING | SUCCEEDED | FAILED
  deriving DecidableEq

inductive MoneyRequestStatus | PENDING | ACCEPTED | DECLINED | CANCELLED | EXPIRED
  deriving DecidableEq

inductive TransferSourceType | DIRECT | MONEY_REQUEST
  deriving DecidableEq

inductive LedgerDirection | DEBIT | CREDIT
  deriving DecidableEq

inductive IdempotencyState | PROCESSING | COMPLETED | FAILED
  deriving DecidableEq

inductive VerificationStatus | UNVERIFIED | VERIFIED | REJECTED
  deriving DecidableEq

inductive RiskLevel | LOW | MEDIUM | HIGH
  deriving DecidableEq

/-- The one currency the schemas accept; `CHAR(3)` holds it without padding. -/
inductive Currency | BDT
  deriving DecidableEq

/-- `POST:/transfers`, `POST:/money-requests` and its `/accept`, `/decline`, `/cancel`. -/
inductive RouteKey | transfers | create | accept | decline | cancel
  deriving DecidableEq

inductive ResourceType | user | session | transfer | moneyRequest
  deriving DecidableEq

inductive EventType
  | transferSucceeded | transferRiskFlagged
  | moneyRequestCreated | moneyRequestAccepted | moneyRequestDeclined | moneyRequestCancelled
  deriving DecidableEq

inductive AuditAction
  | LOGGED_OUT | SESSION_REFRESHED | REFRESH_REUSE_DETECTED
  | TRANSFER_SUCCEEDED | TRANSFER_FAILED | TRANSFER_RISK_FLAGGED
  | MONEY_REQUEST_CREATED | MONEY_REQUEST_ACCEPTED | MONEY_REQUEST_DECLINED
  | MONEY_REQUEST_CANCELLED | NID_VERIFIED | NID_REJECTED
  deriving DecidableEq

end Enums

section Responses

structure RiskAssessmentDto where
  score : ℕ
  level : RiskLevel
  reasons : List JsString
  explanation : Option JsString
  deriving DecidableEq

structure TransferDto where
  transferId : Uuid
  status : TransferStatus
  senderUserId : Uuid
  receiverUserId : Uuid
  amountMinor : ℤ
  currency : Currency
  note : Option JsString
  createdAt : JsString
  completedAt : Option JsString
  senderBalanceAfterMinor : Option ℤ
  risk : Option RiskAssessmentDto
  deriving DecidableEq

structure MoneyRequestDto where
  requestId : Uuid
  status : MoneyRequestStatus
  requesterUserId : Uuid
  payerUserId : Uuid
  amountMinor : ℤ
  currency : Currency
  note : Option JsString
  acceptedTransferId : Option Uuid
  expiresAt : Option JsString
  createdAt : JsString
  resolvedAt : Option JsString
  deriving DecidableEq

inductive Response
  | null
  | transfer (dto : TransferDto)
  | moneyRequest (dto : MoneyRequestDto)
  deriving DecidableEq

end Responses

section Rows

abbrev Payload := Json ℤ

structure User where
  id : Uuid
  email : JsString
  displayName : JsString
  status : UserStatus
  createdAt : Time
  verificationStatus : VerificationStatus
  deriving DecidableEq

structure Wallet where
  id : Uuid
  userId : Uuid
  currency : Currency
  balanceMinor : ℤ
  status : WalletStatus
  deriving DecidableEq

structure Transfer where
  id : Uuid
  senderUserId : Uuid
  receiverUserId : Uuid
  senderWalletId : Uuid
  receiverWalletId : Uuid
  amountMinor : ℤ
  currency : Currency
  status : TransferStatus
  note : Option JsString
  sourceType : TransferSourceType
  sourceRequestId : Option Uuid
  createdAt : Time
  completedAt : Option Time
  deriving DecidableEq

structure LedgerEntry where
  transferId : Uuid
  walletId : Uuid
  direction : LedgerDirection
  amountMinor : ℤ
  signedAmountMinor : ℤ
  currency : Currency
  balanceAfterMinor : ℤ
  deriving DecidableEq

structure MoneyRequest where
  id : Uuid
  requesterUserId : Uuid
  payerUserId : Uuid
  amountMinor : ℤ
  currency : Currency
  note : Option JsString
  status : MoneyRequestStatus
  acceptedTransferId : Option Uuid
  expiresAt : Option Time
  createdAt : Time
  resolvedAt : Option Time
  deriving DecidableEq

structure RecordKey where
  actorUserId : Uuid
  routeKey : RouteKey
  idempotencyKey : JsString
  deriving DecidableEq

structure IdempotencyRecord where
  id : Uuid
  key : RecordKey
  requestHash : JsString
  state : IdempotencyState
  responseStatus : Option ℕ
  responseBody : Option Response
  resourceType : Option ResourceType
  resourceId : Option Uuid
  deriving DecidableEq

structure OutboxEvent where
  id : Uuid
  aggregateType : ResourceType
  aggregateId : Uuid
  eventType : EventType
  payload : Payload
  occurredAt : Time
  processedAt : Option Time
  attemptCount : ℕ
  lastError : Option JsString
  nextAttemptAt : Time

structure AuditEvent where
  actorUserId : Option Uuid
  action : AuditAction
  resourceType : ResourceType
  resourceId : Option Uuid
  metadata : Payload

structure RiskAssessment where
  transferId : Uuid
  score : ℕ
  level : RiskLevel
  reasons : List JsString
  explanation : Option JsString
  deriving DecidableEq

/-- The committed tables. New rows stand at the end. -/
structure Db where
  users : List User
  wallets : List Wallet
  transfers : List Transfer
  ledgerEntries : List LedgerEntry
  moneyRequests : List MoneyRequest
  idempotencyRecords : List IdempotencyRecord
  outboxEvents : List OutboxEvent
  auditEvents : List AuditEvent
  riskAssessments : List RiskAssessment

end Rows

section Errors

inductive ErrorCode
  | VALIDATION_ERROR | UNAUTHENTICATED | FORBIDDEN | USER_NOT_FOUND | TRANSFER_NOT_FOUND
  | MONEY_REQUEST_NOT_FOUND | INSUFFICIENT_BALANCE | TRANSFER_LIMIT_EXCEEDED
  | REQUEST_ALREADY_RESOLVED | IDEMPOTENCY_KEY_REUSED | WALLET_UNAVAILABLE | INVALID_TRANSFER
  | RATE_LIMITED | INTERNAL_ERROR | SERVICE_UNAVAILABLE | NOT_FOUND
  deriving DecidableEq

inductive Period | daily | weekly | monthly
  deriving DecidableEq

structure LimitDetails where
  period : Period
  limitMinor : ℤ
  usedMinor : ℤ
  amountMinor : ℤ
  deriving DecidableEq

structure AppException where
  status : ℕ
  code : ErrorCode
  message : String
  details : Option LimitDetails
  deriving DecidableEq

inductive Check
  | wallets_balance_minor_check
  | transfers_amount_minor_positive | transfers_distinct_parties
  | ledger_entries_amount_minor_positive | ledger_entries_signed_amount_matches_direction
  | money_requests_amount_minor_positive | money_requests_distinct_parties
  | money_requests_accepted_has_transfer
  deriving DecidableEq

/-- The foreign keys that an actor who is not registered violates. -/
inductive ForeignKey
  | idempotency_records_actor_user_id_fkey | audit_events_actor_user_id_fkey
  deriving DecidableEq

inductive DbError
  | checkViolation (c : Check)
  | uniqueViolation
  | foreignKeyViolation (k : ForeignKey)
  | outOfRange
  | recordNotFound
  | invalidUuid
  deriving DecidableEq

inductive Failure
  | app (e : AppException)
  | db (e : DbError)
  | walletDisappeared (walletId : Uuid)
  deriving DecidableEq

end Errors

/-- `AppConfigService`, with the digest function of `node:crypto`. The environment
schema accepts only positive limits. -/
structure Config where
  initialWalletBalanceMinor : ℕ
  dailyTransferLimitMinor : ℤ
  weeklyTransferLimitMinor : ℤ
  monthlyTransferLimitMinor : ℤ
  sha256 : JsString → JsString
  daily_pos : 0 < dailyTransferLimitMinor
  weekly_pos : 0 < weeklyTransferLimitMinor
  monthly_pos : 0 < monthlyTransferLimitMinor

end MoneyMovement
