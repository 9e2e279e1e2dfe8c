import MoneyMovement.Service.Idempotency

/-!
# Moving money between two wallets

Send limits, risk scoring and `settle`, the one path that debits and credits
wallets. Direct transfers claim their own key; accepted money requests call
`settleMoneyRequest` inside their own transaction.
-/

namespace MoneyMovement

open Txn Prog

def Currency.text : Currency → JsString
  | .BDT => js "BDT"

def TransferSourceType.text : TransferSourceType → JsString
  | .DIRECT => js "DIRECT"
  | .MONEY_REQUEST => js "MONEY_REQUEST"

def RiskLevel.text : RiskLevel → JsString
  | .LOW => js "LOW"
  | .MEDIUM => js "MEDIUM"
  | .HIGH => js "HIGH"

def jsonText : Option JsString → Payload
  | some s => .str s
  | none => .null

namespace TransactionLimitService

def DAY_MS : Time := 24 * 60 * 60 * 1000

def windowsSince (now : Time) : Windows where
  dailySince := now - DAY_MS
  weeklySince := now - 7 * DAY_MS
  monthlySince := now - 30 * DAY_MS

def Period.text : Period → String
  | .daily => "daily"
  | .weekly => "weekly"
  | .monthly => "monthly"

def limitExceeded (period : Period) (usedMinor amountMinor limitMinor : ℤ) : AppException where
  status := 409
  code := .TRANSFER_LIMIT_EXCEEDED
  message := "This transfer would exceed your " ++ Period.text period ++ " transfer limit."
  details := some ⟨period, number limitMinor, number usedMinor, number amountMinor⟩

def assertWindow (period : Period) (usedMinor amountMinor limitMinor : ℤ) : TxM Unit :=
  if usedMinor + amountMinor ≤ limitMinor then return ()
  else .fail (.app (limitExceeded period usedMinor amountMinor limitMinor))

def assertWindows (cfg : Config) (totals : SentTotals) (amountMinor : ℤ) : TxM Unit := do
  assertWindow .daily totals.dailyMinor amountMinor cfg.dailyTransferLimitMinor
  assertWindow .weekly totals.weeklyMinor amountMinor cfg.weeklyTransferLimitMinor
  assertWindow .monthly totals.monthlyMinor amountMinor cfg.monthlyTransferLimitMinor

def assertWithinLimits (cfg : Config) (senderUserId : Uuid) (amountMinor : ℤ) : TxM Unit := do
  let now ← query .newDate
  let totals ← query (.sumSentByWindow senderUserId (windowsSince now))
  assertWindows cfg totals amountMinor

end TransactionLimitService

namespace RiskEngineService

def ONE_DAY_MS : Time := 24 * 60 * 60 * 1000

def LARGE_ABSOLUTE_AMOUNT_MINOR : ℤ := 50000000

def ROUND_AMOUNT_STEP_MINOR : ℤ := 5000000

def HIGH_VELOCITY_THRESHOLD : ℕ := 5

def HIGH_VELOCITY_WINDOW_MINUTES : Time := 10

def MEDIUM_THRESHOLD : ℕ := 25

def HIGH_THRESHOLD : ℕ := 50

structure RiskContext where
  amountMinor : ℤ
  senderBalanceBeforeMinor : ℤ
  senderCreatedAt : Time
  receiverCreatedAt : Time
  senderVerificationStatus : VerificationStatus
  senderRecentTransferCount : ℕ
  now : Time

structure RiskEvaluation where
  score : ℕ
  level : RiskLevel
  reasons : List JsString

structure RiskRule where
  reason : String
  weight : ℕ
  fires : RiskContext → Bool

def RULES : List RiskRule := [
  { reason := "Amount is a large share of the sender's available balance."
    weight := 25
    fires := fun ctx => 0 < ctx.senderBalanceBeforeMinor ∧
      ctx.senderBalanceBeforeMinor * 7 ≤ ctx.amountMinor * 10 },
  { reason := "Transfer amount is unusually large."
    weight := 20
    fires := fun ctx => LARGE_ABSOLUTE_AMOUNT_MINOR ≤ ctx.amountMinor },
  { reason := "Sender account was created less than 24 hours ago."
    weight := 15
    fires := fun ctx => ctx.now - ctx.senderCreatedAt < ONE_DAY_MS },
  { reason := "Sender has not completed NID verification."
    weight := 15
    fires := fun ctx => ctx.senderVerificationStatus ≠ .VERIFIED },
  { reason := "Receiver account was created less than 24 hours ago."
    weight := 10
    fires := fun ctx => ctx.now - ctx.receiverCreatedAt < ONE_DAY_MS },
  { reason := "Amount is a suspiciously round figure."
    weight := 10
    fires := fun ctx => ROUND_AMOUNT_STEP_MINOR ≤ ctx.amountMinor ∧
      ctx.amountMinor % ROUND_AMOUNT_STEP_MINOR = 0 },
  { reason := "Sender has made several transfers in a short time window."
    weight := 25
    fires := fun ctx => HIGH_VELOCITY_THRESHOLD ≤ ctx.senderRecentTransferCount }]

def levelOf (score : ℕ) : RiskLevel :=
  if HIGH_THRESHOLD ≤ score then .HIGH else if MEDIUM_THRESHOLD ≤ score then .MEDIUM else .LOW

def evaluate (context : RiskContext) : RiskEvaluation :=
  let fired := RULES.filter (·.fires context)
  let score := (fired.map (·.weight)).sum
  { score, level := levelOf score, reasons := fired.map (js ·.reason) }

end RiskEngineService

def toTransferDto (transfer : Transfer) (senderBalanceAfterMinor : Option ℤ)
    (risk : Option RiskAssessmentDto) : TransferDto where
  transferId := transfer.id
  status := transfer.status
  senderUserId := transfer.senderUserId
  receiverUserId := transfer.receiverUserId
  amountMinor := number transfer.amountMinor
  currency := transfer.currency
  note := transfer.note
  createdAt := toISOString transfer.createdAt
  completedAt := transfer.completedAt.map toISOString
  senderBalanceAfterMinor := senderBalanceAfterMinor.map number
  risk := risk

namespace TransferService

open IdempotencyService TransactionLimitService RiskEngineService

structure CreateDirectTransferCommand where
  actorUserId : Uuid
  receiverUserId : JsString
  amountMinor : ℤ
  currency : Currency
  note : Option JsString
  idempotencyKey : JsString
  deriving DecidableEq

structure SettleMoneyRequestCommand where
  payerUserId : Uuid
  requesterUserId : Uuid
  amountMinor : ℤ
  currency : Currency
  note : Option JsString
  sourceRequestId : Uuid

structure SettleInput where
  senderUserId : JsString
  receiverUserId : JsString
  amountMinor : ℤ
  currency : Currency
  note : Option JsString

/-- `TransferSource`: the type of a source is that of its request id. -/
structure TransferSource where
  requestId : Option Uuid

def TransferSource.type (s : TransferSource) : TransferSourceType :=
  if s.requestId.isSome then .MONEY_REQUEST else .DIRECT

def DIRECT_SOURCE : TransferSource := ⟨none⟩

section Checks

def refuse (status : ℕ) (code : ErrorCode) (message : String) : Failure :=
  .app { status, code, message, details := none }

def selfTransfer : Failure := refuse 422 .INVALID_TRANSFER "You cannot transfer money to yourself."

def senderWalletNotFound : Failure := refuse 500 .INTERNAL_ERROR "Sender wallet not found."

def recipientNotFound : Failure := refuse 404 .USER_NOT_FOUND "Recipient not found."

def assertParticipantsActive (sender receiver : LockedWallet) : TxM Unit :=
  if sender.ownerStatus ≠ .ACTIVE then
    .fail (refuse 403 .FORBIDDEN "Your account cannot send money right now.")
  else if receiver.ownerStatus ≠ .ACTIVE then .fail recipientNotFound
  else return ()

def assertWalletsSpendable (sender receiver : LockedWallet) : TxM Unit :=
  if sender.status ≠ .ACTIVE then
    .fail (refuse 409 .WALLET_UNAVAILABLE "Your wallet is not active.")
  else if receiver.status ≠ .ACTIVE then
    .fail (refuse 409 .WALLET_UNAVAILABLE "The recipient's wallet cannot receive money right now.")
  else return ()

def assertAmountAndBalance (amountMinor : ℤ) (sender : LockedWallet) : TxM Unit :=
  if amountMinor ≤ 0 then
    .fail (refuse 422 .INVALID_TRANSFER "Transfer amount must be positive.")
  else if sender.balanceMinor < amountMinor then
    .fail (refuse 409 .INSUFFICIENT_BALANCE "Insufficient balance for this transfer.")
  else return ()

end Checks

def lockWalletById (walletId : Uuid) : TxM LockedWallet := do
  query (.selectWalletForUpdate walletId)
  let row ← query (.findWalletById walletId)
  match row with
  | some wallet => return wallet
  | none => .fail (.walletDisappeared walletId)

/-- `[a, b].sort()`: the texts of the ids in code unit order. -/
def sortIds (a b : Uuid) : Uuid × Uuid := if b.text < a.text then (b, a) else (a, b)

def riskAudit (senderUserId transferId : Uuid) (r : RiskEvaluation) : AuditEvent where
  actorUserId := some senderUserId
  action := .TRANSFER_RISK_FLAGGED
  resourceType := .transfer
  resourceId := some transferId
  metadata := .obj [(js "score", .num r.score), (js "level", .str r.level.text),
    (js "reasons", .str ((js " | ").intercalate r.reasons))]

def riskEvent (transferId : Uuid) (r : RiskEvaluation) : OutboxEventInput where
  aggregateType := .transfer
  aggregateId := transferId
  eventType := .transferRiskFlagged
  payload := .obj [(js "score", .num r.score), (js "level", .str r.level.text),
    (js "reasons", .arr (r.reasons.map .str))]

def auditRisk (transferId senderUserId : Uuid) (r : RiskEvaluation) : TxM Unit :=
  if r.level ≠ .LOW then query (.insertAuditEvent (riskAudit senderUserId transferId r))
  else return ()

def flagRisk (transferId : Uuid) (r : RiskEvaluation) : TxM Unit :=
  if r.level = .HIGH then query (.insertOutboxEvent (riskEvent transferId r)) else return ()

def recordRisk (transferId senderUserId : Uuid) (r : RiskEvaluation) : TxM RiskAssessmentDto := do
  query (.insertAssessment
    { transferId, score := r.score, level := r.level, reasons := r.reasons, explanation := none })
  auditRisk transferId senderUserId r
  flagRisk transferId r
  return { score := r.score, level := r.level, reasons := r.reasons, explanation := none }

def riskContext (sender receiver : LockedWallet) (amountMinor : ℤ) (now : Time) (recent : ℕ) :
    RiskContext where
  amountMinor := amountMinor
  senderBalanceBeforeMinor := sender.balanceMinor
  senderCreatedAt := sender.ownerCreatedAt
  receiverCreatedAt := receiver.ownerCreatedAt
  senderVerificationStatus := sender.ownerVerificationStatus
  senderRecentTransferCount := recent
  now := now

def assessRisk (transferId : Uuid) (sender receiver : LockedWallet) (amountMinor : ℤ) :
    TxM RiskAssessmentDto := do
  let now ← query .newDate
  let sinceDate := now - HIGH_VELOCITY_WINDOW_MINUTES * 60000
  let recent ← query (.countRecentTransfersFromSender sender.userId sinceDate)
  recordRisk transferId sender.userId
    (evaluate (riskContext sender receiver amountMinor now recent))

section Settle

variable (input : SettleInput) (source : TransferSource)

def transferData (sender receiver : LockedWallet) : InsertTransferData where
  senderUserId := sender.userId
  receiverUserId := receiver.userId
  senderWalletId := sender.id
  receiverWalletId := receiver.id
  amountMinor := input.amountMinor
  currency := input.currency
  note := input.note
  sourceType := source.type
  sourceRequestId := source.requestId

def debitEntry (transferId : Uuid) (sender : LockedWallet) : LedgerEntry where
  transferId := transferId
  walletId := sender.id
  direction := .DEBIT
  amountMinor := input.amountMinor
  signedAmountMinor := -input.amountMinor
  currency := input.currency
  balanceAfterMinor := sender.balanceMinor - input.amountMinor

def creditEntry (transferId : Uuid) (receiver : LockedWallet) : LedgerEntry where
  transferId := transferId
  walletId := receiver.id
  direction := .CREDIT
  amountMinor := input.amountMinor
  signedAmountMinor := input.amountMinor
  currency := input.currency
  balanceAfterMinor := receiver.balanceMinor + input.amountMinor

def jsonRequestId : Option Uuid → Payload
  | some id => .str id.text
  | none => .null

def succeededEvent (transferId : Uuid) (sender receiver : LockedWallet) : OutboxEventInput where
  aggregateType := .transfer
  aggregateId := transferId
  eventType := .transferSucceeded
  payload := .obj [(js "transferId", .str transferId.text),
    (js "senderUserId", .str sender.userId.text), (js "receiverUserId", .str receiver.userId.text),
    (js "amountMinor", .str (decimal input.amountMinor)),
    (js "currency", .str input.currency.text),
    (js "sourceRequestId", jsonRequestId source.requestId)]

def succeededAudit (transferId : Uuid) (sender receiver : LockedWallet) : AuditEvent where
  actorUserId := some sender.userId
  action := .TRANSFER_SUCCEEDED
  resourceType := .transfer
  resourceId := some transferId
  metadata := .obj [(js "receiverUserId", .str receiver.userId.text),
    (js "amountMinor", .str (decimal input.amountMinor)),
    (js "currency", .str input.currency.text), (js "sourceType", .str source.type.text),
    (js "sourceRequestId", jsonRequestId source.requestId)]

/-- Steps 6 to 9: the transfer row, the ledger pair, both balances, the risk record. -/
def moveMoney (sender receiver : LockedWallet) : TxM TransferDto := do
  let transfer ← query (.insertPendingTransfer (transferData input source sender receiver))
  query (.insertLedgerEntry (debitEntry input transfer.id sender))
  query (.insertLedgerEntry (creditEntry input transfer.id receiver))
  query (.applyBalanceDelta sender.id (-input.amountMinor))
  query (.applyBalanceDelta receiver.id input.amountMinor)
  let settled ← query (.markSucceeded transfer.id)
  let riskAssessment ← assessRisk transfer.id sender receiver input.amountMinor
  query (.insertOutboxEvent (succeededEvent input source transfer.id sender receiver))
  query (.insertAuditEvent (succeededAudit input source transfer.id sender receiver))
  return toTransferDto settled (some (sender.balanceMinor - input.amountMinor))
    (some riskAssessment)

variable (cfg : Config)

/-- Steps 5 and on, with both wallets locked. -/
def settleLocked (sender receiver : LockedWallet) : TxM TransferDto := do
  assertParticipantsActive sender receiver
  assertWalletsSpendable sender receiver
  assertAmountAndBalance input.amountMinor sender
  assertWithinLimits cfg sender.userId input.amountMinor
  moveMoney input source sender receiver

/-- Step 4: lock both wallets in ascending order of their ids. -/
def lockBoth (senderWalletId receiverWalletId : Uuid) : TxM (LockedWallet × LockedWallet) := do
  let ids := sortIds senderWalletId receiverWalletId
  let first ← lockWalletById ids.1
  let second ← lockWalletById ids.2
  return (if first.id = senderWalletId then first else second,
    if first.id = receiverWalletId then first else second)

def settleWallets (senderWalletId receiverWalletId : Uuid) : TxM TransferDto := do
  let (sender, receiver) ← lockBoth senderWalletId receiverWalletId
  settleLocked input source cfg sender receiver

def settle : TxM TransferDto :=
  if input.receiverUserId = input.senderUserId then .fail selfTransfer
  else do
    let senderProbe ← query (.findWalletByUserId input.senderUserId)
    let receiverProbe ← query (.findWalletByUserId input.receiverUserId)
    match senderProbe, receiverProbe with
    | none, _ => .fail senderWalletNotFound
    | some _, none => .fail recipientNotFound
    | some sender, some receiver => settleWallets input source cfg sender.id receiver.id

end Settle

def settleMoneyRequest (cfg : Config) (command : SettleMoneyRequestCommand) : TxM TransferDto :=
  settle
    { senderUserId := command.payerUserId.text, receiverUserId := command.requesterUserId.text,
      amountMinor := command.amountMinor, currency := command.currency, note := command.note }
    ⟨some command.sourceRequestId⟩ cfg

def canonicalPayload (command : CreateDirectTransferCommand) : Payload :=
  .obj [(js "receiverUserId", .str command.receiverUserId),
    (js "amountMinor", .str (decimal command.amountMinor)),
    (js "currency", .str command.currency.text), (js "note", jsonText command.note)]

def beginParams (command : CreateDirectTransferCommand) : BeginParams where
  actorUserId := command.actorUserId
  routeKey := .transfers
  idempotencyKey := command.idempotencyKey
  payload := canonicalPayload command

def runTransfer (cfg : Config) (command : CreateDirectTransferCommand) : TxM Response := do
  match ← «begin» cfg (beginParams command) with
  | .replayed _ responseBody => return responseBody
  | .claimed recordId =>
    let receipt ← settle
      { senderUserId := command.actorUserId.text, receiverUserId := command.receiverUserId,
        amountMinor := command.amountMinor, currency := command.currency, note := command.note }
      DIRECT_SOURCE cfg
    complete
      { recordId, responseStatus := 201, responseBody := .transfer receipt,
        resourceType := .transfer, resourceId := receipt.transferId }
    return .transfer receipt

end TransferService

end MoneyMovement
