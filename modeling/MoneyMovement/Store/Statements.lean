import MoneyMovement.Store.Schema
import MoneyMovement.Txn.Program

/-!
# The statements of the money transactions

One constructor for each query, update or clock reading of the repositories,
with its effect on the rows the transaction sees, the constraints the database
checks on it, and the row locks it takes. An inserted row is locked like an
updated one: its primary key is taken until the transaction ends.
-/

namespace MoneyMovement

open Txn

section Parameters

structure CompleteParams where
  recordId : Uuid
  responseStatus : ℕ
  responseBody : Response
  resourceType : ResourceType
  resourceId : Uuid

structure LockedWallet where
  id : Uuid
  userId : Uuid
  balanceMinor : ℤ
  status : WalletStatus
  currency : Currency
  ownerStatus : UserStatus
  ownerCreatedAt : Time
  ownerVerificationStatus : VerificationStatus
  deriving DecidableEq

structure Windows where
  dailySince : Time
  weeklySince : Time
  monthlySince : Time

structure SentTotals where
  dailyMinor : ℤ
  weeklyMinor : ℤ
  monthlyMinor : ℤ
  deriving DecidableEq

structure InsertTransferData where
  senderUserId : Uuid
  receiverUserId : Uuid
  senderWalletId : Uuid
  receiverWalletId : Uuid
  amountMinor : ℤ
  currency : Currency
  note : Option JsString
  sourceType : TransferSourceType
  sourceRequestId : Option Uuid

structure OutboxEventInput where
  aggregateType : ResourceType
  aggregateId : Uuid
  eventType : EventType
  payload : Payload

structure CreateMoneyRequestData where
  requesterUserId : Uuid
  payerUserId : JsString
  amountMinor : ℤ
  currency : Currency
  note : Option JsString
  expiresAt : Option Time

end Parameters

inductive Stmt
  | dateNow
  | newDate
  | tryClaim (key : RecordKey) (requestHash : JsString)
  | lockExisting (key : RecordKey)
  | reclaim (recordId : Uuid) (requestHash : JsString)
  | complete (params : CompleteParams)
  | findUserById (id : JsString)
  | findWalletByUserId (userId : JsString)
  | selectWalletForUpdate (walletId : Uuid)
  | findWalletById (walletId : Uuid)
  | sumSentByWindow (senderUserId : Uuid) (windows : Windows)
  | insertPendingTransfer (data : InsertTransferData)
  | insertLedgerEntry (entry : LedgerEntry)
  | applyBalanceDelta (walletId : Uuid) (deltaMinor : ℤ)
  | markSucceeded (transferId : Uuid)
  | countRecentTransfersFromSender (senderUserId : Uuid) (sinceDate : Time)
  | insertAssessment (data : RiskAssessment)
  | insertOutboxEvent (event : OutboxEventInput)
  | insertAuditEvent (entry : AuditEvent)
  | createMoneyRequest (data : CreateMoneyRequestData)
  | selectRequestForUpdate (id : JsString)
  | findRequestById (id : JsString)
  | markAccepted (id acceptedTransferId : Uuid)
  | markResolved (id : Uuid) (status : MoneyRequestStatus)

abbrev Reply : Stmt → Type
  | .dateNow => Time
  | .newDate => Time
  | .tryClaim .. => Option Uuid
  | .lockExisting _ => Option IdempotencyRecord
  | .findUserById _ => Option User
  | .findWalletByUserId _ => Option LockedWallet
  | .findWalletById _ => Option LockedWallet
  | .sumSentByWindow .. => SentTotals
  | .insertPendingTransfer _ => Transfer
  | .markSucceeded _ => Transfer
  | .countRecentTransfersFromSender .. => ℕ
  | .createMoneyRequest _ => MoneyRequest
  | .selectRequestForUpdate _ => Bool
  | .findRequestById _ => Option MoneyRequest
  | .markAccepted .. => MoneyRequest
  | .markResolved .. => MoneyRequest
  | _ => Unit

abbrev TxM := Prog Reply Failure

abbrev query (s : Stmt) : TxM (Reply s) := Prog.perform s

inductive Write
  | insertRecord (r : IdempotencyRecord)
  | completeRecord (params : CompleteParams)
  | reclaimRecord (recordId : Uuid) (requestHash : JsString)
  | insertTransfer (t : Transfer)
  | succeedTransfer (id : Uuid) (completedAt : Time)
  | insertLedgerEntry (entry : LedgerEntry)
  | addBalance (walletId : Uuid) (deltaMinor : ℤ)
  | insertAssessment (r : RiskAssessment)
  | insertOutboxEvent (e : OutboxEvent)
  | insertAuditEvent (e : AuditEvent)
  | insertMoneyRequest (r : MoneyRequest)
  | acceptRequest (id acceptedTransferId : Uuid) (resolvedAt : Time)
  | resolveRequest (id : Uuid) (status : MoneyRequestStatus) (resolvedAt : Time)

section Updates

def IdempotencyRecord.complete (p : CompleteParams) (r : IdempotencyRecord) : IdempotencyRecord :=
  if r.id = p.recordId then
    { r with state := .COMPLETED, responseStatus := some p.responseStatus,
             responseBody := some p.responseBody, resourceType := some p.resourceType,
             resourceId := some p.resourceId }
  else r

def IdempotencyRecord.reclaim (id : Uuid) (requestHash : JsString) (r : IdempotencyRecord) :
    IdempotencyRecord :=
  if r.id = id then
    { r with state := .PROCESSING, requestHash := requestHash, responseStatus := none,
             responseBody := none }
  else r

def Transfer.succeed (id : Uuid) (completedAt : Time) (t : Transfer) : Transfer :=
  if t.id = id then { t with status := .SUCCEEDED, completedAt := some completedAt } else t

def Wallet.addBalance (id : Uuid) (deltaMinor : ℤ) (w : Wallet) : Wallet :=
  if w.id = id then { w with balanceMinor := w.balanceMinor + deltaMinor } else w

def MoneyRequest.accept (id acceptedTransferId : Uuid) (resolvedAt : Time) (r : MoneyRequest) :
    MoneyRequest :=
  if r.id = id then
    { r with status := .ACCEPTED, acceptedTransferId := some acceptedTransferId,
             resolvedAt := some resolvedAt }
  else r

def MoneyRequest.resolve (id : Uuid) (status : MoneyRequestStatus) (resolvedAt : Time)
    (r : MoneyRequest) : MoneyRequest :=
  if r.id = id then { r with status := status, resolvedAt := some resolvedAt } else r

def applyWrite (db : Db) : Write → Db
  | .insertRecord r => { db with idempotencyRecords := db.idempotencyRecords ++ [r] }
  | .completeRecord p =>
    { db with idempotencyRecords := db.idempotencyRecords.map (IdempotencyRecord.complete p) }
  | .reclaimRecord id h =>
    { db with idempotencyRecords := db.idempotencyRecords.map (IdempotencyRecord.reclaim id h) }
  | .insertTransfer t => { db with transfers := db.transfers ++ [t] }
  | .succeedTransfer id at_ => { db with transfers := db.transfers.map (Transfer.succeed id at_) }
  | .insertLedgerEntry e => { db with ledgerEntries := db.ledgerEntries ++ [e] }
  | .addBalance id d => { db with wallets := db.wallets.map (Wallet.addBalance id d) }
  | .insertAssessment r => { db with riskAssessments := db.riskAssessments ++ [r] }
  | .insertOutboxEvent e => { db with outboxEvents := db.outboxEvents ++ [e] }
  | .insertAuditEvent e => { db with auditEvents := db.auditEvents ++ [e] }
  | .insertMoneyRequest r => { db with moneyRequests := db.moneyRequests ++ [r] }
  | .acceptRequest id t at_ =>
    { db with moneyRequests := db.moneyRequests.map (MoneyRequest.accept id t at_) }
  | .resolveRequest id st at_ =>
    { db with moneyRequests := db.moneyRequests.map (MoneyRequest.resolve id st at_) }

end Updates

section Queries

def Db.user? (db : Db) (id : Uuid) : Option User := db.users.find? (·.id = id)

def Db.wallet? (db : Db) (id : Uuid) : Option Wallet := db.wallets.find? (·.id = id)

def Db.walletOf? (db : Db) (userId : Uuid) : Option Wallet := db.wallets.find? (·.userId = userId)

def Db.transfer? (db : Db) (id : Uuid) : Option Transfer := db.transfers.find? (·.id = id)

def Db.request? (db : Db) (id : Uuid) : Option MoneyRequest := db.moneyRequests.find? (·.id = id)

def Db.record? (db : Db) (key : RecordKey) : Option IdempotencyRecord :=
  db.idempotencyRecords.find? (·.key = key)

def Db.recordById? (db : Db) (id : Uuid) : Option IdempotencyRecord :=
  db.idempotencyRecords.find? (·.id = id)

/-- `wallets w JOIN users u ON u.id = w.user_id`. -/
def Db.joinOwner (db : Db) (w : Wallet) : Option LockedWallet :=
  (db.user? w.userId).map fun u =>
    { id := w.id, userId := w.userId, balanceMinor := w.balanceMinor, status := w.status,
      currency := w.currency, ownerStatus := u.status, ownerCreatedAt := u.createdAt,
      ownerVerificationStatus := u.verificationStatus }

def Db.sentSince (db : Db) (senderUserId : Uuid) (since : Time) : List Transfer :=
  db.transfers.filter fun t =>
    t.senderUserId = senderUserId ∧ t.status = .SUCCEEDED ∧ since ≤ t.createdAt

def amounts (ts : List Transfer) : ℤ := (ts.map (·.amountMinor)).sum

end Queries

section Execution

def InBigint (n : ℤ) : Prop := -(2 ^ 63) ≤ n ∧ n < 2 ^ 63

instance (n : ℤ) : Decidable (InBigint n) := inferInstanceAs (Decidable (_ ∧ _))

def castUuid (s : JsString) : Except Failure Uuid :=
  match parseUuid s with
  | some u => .ok u
  | none => .error (.db .invalidUuid)

def execTryClaim (db : Db) (id : Uuid) (key : RecordKey) (requestHash : JsString) :
    Except Failure (Option Uuid × List Write) :=
  if (db.record? key).isSome then .ok (none, [])
  else if (db.user? key.actorUserId).isNone then
    .error (.db (.foreignKeyViolation .idempotency_records_actor_user_id_fkey))
  else if (db.recordById? id).isSome then .error (.db .uniqueViolation)
  else .ok (some id, [.insertRecord
    { id, key, requestHash, state := .PROCESSING, responseStatus := none, responseBody := none,
      resourceType := none, resourceId := none }])

/-- The three window sums of one query bounded by the widest window. -/
def execSumSent (db : Db) (senderUserId : Uuid) (w : Windows) : Except Failure SentTotals :=
  let rows := db.sentSince senderUserId w.monthlySince
  let sumFrom (since : Time) := amounts (rows.filter (since ≤ ·.createdAt))
  let totals : SentTotals := ⟨sumFrom w.dailySince, sumFrom w.weeklySince, sumFrom w.monthlySince⟩
  if InBigint totals.dailyMinor ∧ InBigint totals.weeklyMinor ∧ InBigint totals.monthlyMinor then
    .ok totals
  else .error (.db .outOfRange)

def execInsertTransfer (db : Db) (d : Draw Time Uuid) (data : InsertTransferData) :
    Except Failure (Transfer × List Write) :=
  let row : Transfer :=
    { id := d.id, senderUserId := data.senderUserId, receiverUserId := data.receiverUserId,
      senderWalletId := data.senderWalletId, receiverWalletId := data.receiverWalletId,
      amountMinor := data.amountMinor, currency := data.currency, status := .PENDING,
      note := data.note, sourceType := data.sourceType, sourceRequestId := data.sourceRequestId,
      createdAt := d.now, completedAt := none }
  if ¬ InBigint row.amountMinor then .error (.db .outOfRange)
  else if row.amountMinor ≤ 0 then .error (.db (.checkViolation .transfers_amount_minor_positive))
  else if row.senderUserId = row.receiverUserId then
    .error (.db (.checkViolation .transfers_distinct_parties))
  else if (db.transfer? d.id).isSome then .error (.db .uniqueViolation)
  else .ok (row, [.insertTransfer row])

def LedgerEntry.SignMatches (e : LedgerEntry) : Prop :=
  (e.direction = .DEBIT ∧ e.signedAmountMinor = -e.amountMinor) ∨
    (e.direction = .CREDIT ∧ e.signedAmountMinor = e.amountMinor)

instance (e : LedgerEntry) : Decidable e.SignMatches := inferInstanceAs (Decidable (_ ∨ _))

def execInsertLedgerEntry (e : LedgerEntry) : Except Failure (Unit × List Write) :=
  if ¬ (InBigint e.amountMinor ∧ InBigint e.signedAmountMinor ∧ InBigint e.balanceAfterMinor) then
    .error (.db .outOfRange)
  else if e.amountMinor ≤ 0 then
    .error (.db (.checkViolation .ledger_entries_amount_minor_positive))
  else if ¬ e.SignMatches then
    .error (.db (.checkViolation .ledger_entries_signed_amount_matches_direction))
  else .ok ((), [.insertLedgerEntry e])

def execApplyBalanceDelta (db : Db) (walletId : Uuid) (deltaMinor : ℤ) :
    Except Failure (Unit × List Write) :=
  match db.wallet? walletId with
  | none => .ok ((), [])
  | some w =>
    if ¬ (InBigint deltaMinor ∧ InBigint (w.balanceMinor + deltaMinor)) then
      .error (.db .outOfRange)
    else if w.balanceMinor + deltaMinor < 0 then
      .error (.db (.checkViolation .wallets_balance_minor_check))
    else .ok ((), [.addBalance walletId deltaMinor])

def execCreateMoneyRequest (db : Db) (d : Draw Time Uuid) (data : CreateMoneyRequestData) :
    Except Failure (MoneyRequest × List Write) :=
  match castUuid data.payerUserId with
  | .error e => .error e
  | .ok payer =>
    let row : MoneyRequest :=
      { id := d.id, requesterUserId := data.requesterUserId, payerUserId := payer,
        amountMinor := data.amountMinor, currency := data.currency, note := data.note,
        status := .PENDING, acceptedTransferId := none, expiresAt := data.expiresAt,
        createdAt := d.now, resolvedAt := none }
    if ¬ InBigint row.amountMinor then .error (.db .outOfRange)
    else if row.amountMinor ≤ 0 then
      .error (.db (.checkViolation .money_requests_amount_minor_positive))
    else if row.requesterUserId = row.payerUserId then
      .error (.db (.checkViolation .money_requests_distinct_parties))
    else if (db.request? d.id).isSome then .error (.db .uniqueViolation)
    else .ok (row, [.insertMoneyRequest row])

def execInsertAuditEvent (db : Db) (e : AuditEvent) : Except Failure (Unit × List Write) :=
  if e.actorUserId.any fun u => (db.user? u).isNone then
    .error (.db (.foreignKeyViolation .audit_events_actor_user_id_fkey))
  else .ok ((), [.insertAuditEvent e])

def exec : (s : Stmt) → Db → Draw Time Uuid → Except Failure (Reply s × List Write)
  | .dateNow, _, d => .ok (d.now, [])
  | .newDate, _, d => .ok (d.now, [])
  | .tryClaim key h, db, d => execTryClaim db d.id key h
  | .lockExisting key, db, _ => .ok (db.record? key, [])
  | .reclaim id h, db, _ =>
    if (db.recordById? id).isSome then .ok ((), [.reclaimRecord id h])
    else .error (.db .recordNotFound)
  | .complete p, db, _ =>
    if (db.recordById? p.recordId).isSome then .ok ((), [.completeRecord p])
    else .error (.db .recordNotFound)
  | .findUserById id, db, _ => (castUuid id).map fun u => (db.user? u, [])
  | .findWalletByUserId userId, db, _ =>
    (castUuid userId).map fun u => ((db.walletOf? u).bind db.joinOwner, [])
  | .selectWalletForUpdate _, _, _ => .ok ((), [])
  | .findWalletById id, db, _ => .ok ((db.wallet? id).bind db.joinOwner, [])
  | .sumSentByWindow u w, db, _ => (execSumSent db u w).map fun totals => (totals, [])
  | .insertPendingTransfer data, db, d => execInsertTransfer db d data
  | .insertLedgerEntry e, _, _ => execInsertLedgerEntry e
  | .applyBalanceDelta id delta, db, _ => execApplyBalanceDelta db id delta
  | .markSucceeded id, db, d =>
    match db.transfer? id with
    | none => .error (.db .recordNotFound)
    | some t => .ok (t.succeed id d.now, [.succeedTransfer id d.now])
  | .countRecentTransfersFromSender u since, db, _ => .ok ((db.sentSince u since).length, [])
  | .insertAssessment r, _, _ => .ok ((), [.insertAssessment r])
  | .insertOutboxEvent e, _, d =>
    .ok ((), [.insertOutboxEvent
      { id := d.id, aggregateType := e.aggregateType, aggregateId := e.aggregateId,
        eventType := e.eventType, payload := e.payload, occurredAt := d.now, processedAt := none,
        attemptCount := 0, lastError := none, nextAttemptAt := d.now }])
  | .insertAuditEvent e, db, _ => execInsertAuditEvent db e
  | .createMoneyRequest data, db, d => execCreateMoneyRequest db d data
  | .selectRequestForUpdate id, db, _ => (castUuid id).map fun u => ((db.request? u).isSome, [])
  | .findRequestById id, db, _ => (castUuid id).map fun u => (db.request? u, [])
  | .markAccepted id t, db, d =>
    match db.request? id with
    | none => .error (.db .recordNotFound)
    | some r => .ok (r.accept id t d.now, [.acceptRequest id t d.now])
  | .markResolved id st, db, d =>
    match db.request? id with
    | none => .error (.db .recordNotFound)
    | some r => .ok (r.resolve id st d.now, [.resolveRequest id st d.now])

end Execution

section Locks

inductive Lock
  | key (k : RecordKey)
  | record (id : Uuid)
  | request (id : Uuid)
  | wallet (id : Uuid)
  | transfer (id : Uuid)
  deriving DecidableEq

/-- `SELECT .. FOR UPDATE` and `UPDATE` lock the rows they find. The claim of a
key waits for an open transaction that has inserted it; a committed record makes
it return at once. -/
def wants : Stmt → Db → Draw Time Uuid → List Lock
  | .tryClaim key _, db, d => if (db.record? key).isSome then [] else [.key key, .record d.id]
  | .lockExisting key, db, _ => if (db.record? key).isSome then [.key key] else []
  | .reclaim id _, db, _ => (db.recordById? id).toList.map fun r => .key r.key
  | .complete p, db, _ => (db.recordById? p.recordId).toList.map fun r => .key r.key
  | .selectWalletForUpdate id, db, _ => if (db.wallet? id).isSome then [.wallet id] else []
  | .applyBalanceDelta id _, db, _ => if (db.wallet? id).isSome then [.wallet id] else []
  | .insertPendingTransfer _, _, d => [.transfer d.id]
  | .markSucceeded id, db, _ => if (db.transfer? id).isSome then [.transfer id] else []
  | .createMoneyRequest _, _, d => [.request d.id]
  | .selectRequestForUpdate id, db, _ =>
    match parseUuid id with
    | some u => if (db.request? u).isSome then [.request u] else []
    | none => []
  | .markAccepted id _, db, _ => if (db.request? id).isSome then [.request id] else []
  | .markResolved id _, db, _ => if (db.request? id).isSome then [.request id] else []
  | _, _, _ => []

end Locks

section Registration

/-- What `AuthService.register` commits: a user and their seeded wallet, both with
fresh ids. The unique indexes on email, wallet owner and the ids reject the rest. -/
structure Registration where
  userId : Uuid
  walletId : Uuid
  email : JsString
  displayName : JsString
  now : Time
  initialWalletBalanceMinor : ℕ

def register (r : Registration) (db : Db) : Option Db :=
  if (db.user? r.userId).isSome ∨ (db.users.find? (·.email = r.email)).isSome ∨
      (db.wallet? r.walletId).isSome ∨ (db.walletOf? r.userId).isSome then none
  else some
    { db with
      users := db.users ++ [{ id := r.userId, email := r.email, displayName := r.displayName,
                              status := .ACTIVE, createdAt := r.now,
                              verificationStatus := .UNVERIFIED }]
      wallets := db.wallets ++ [{ id := r.walletId, userId := r.userId, currency := .BDT,
                                  balanceMinor := r.initialWalletBalanceMinor,
                                  status := .ACTIVE }] }

end Registration

/-- PostgreSQL under READ COMMITTED, as far as the money paths use it. -/
def store : Engine Reply Db Write Failure Time Uuid Lock Registration where
  exec := exec
  apply := applyWrite
  wants := wants
  others := register

end MoneyMovement
