import MoneyMovement.Store.Kinds
import MoneyMovement.Txn.Rows

/-!
# What a statement that succeeds returns and writes

One inversion lemma for each statement that may be refused; the checks it passed
come with its reply.
-/

namespace MoneyMovement

open Txn

variable {v : Db} {d : Draw Time Uuid} {ws : List Write}

theorem castUuid_eq {id : JsString} {u : Uuid} (h : castUuid id = .ok u) :
    parseUuid id = some u := by
  simp only [castUuid] at h
  split at h
  · next hp =>
    cases h
    exact hp
  · cases h

def Db.probe (v : Db) (u : Uuid) : Option LockedWallet := (v.walletOf? u).bind v.joinOwner

theorem walletOf?_spec {u : Uuid} {w : Wallet} (h : v.walletOf? u = some w) :
    w ∈ v.wallets ∧ w.userId = u :=
  find?_spec h

/-- A wallet and its owner, as the locked row shows them. -/
theorem probe_some {u : Uuid} {l : LockedWallet} (h : v.probe u = some l) :
    ∃ w o, v.walletOf? u = some w ∧ v.user? u = some o ∧ w.id = l.id ∧ l.userId = u ∧
      w.balanceMinor = l.balanceMinor ∧ w.status = l.status ∧ o.status = l.ownerStatus := by
  obtain ⟨w, hw, hjoin⟩ := Option.bind_eq_some_iff.1 h
  obtain ⟨o, ho, rfl⟩ := Option.map_eq_some_iff.1 hjoin
  have hu : w.userId = u := (walletOf?_spec hw).2
  exact ⟨w, o, hw, hu ▸ ho, rfl, hu, rfl, rfl, rfl⟩

theorem findWalletByUserId_ok {userId : JsString} {r : Option LockedWallet}
    (h : store.exec (.findWalletByUserId userId) v d = .ok (r, ws)) :
    ∃ u, parseUuid userId = some u ∧ r = v.probe u ∧ ws = [] :=
  castUuid_ok h

theorem findUserById_ok {id : JsString} {r : Option User}
    (h : store.exec (.findUserById id) v d = .ok (r, ws)) :
    ∃ u, parseUuid id = some u ∧ r = v.user? u ∧ ws = [] :=
  castUuid_ok h

theorem selectRequestForUpdate_ok {id : JsString} {r : Bool}
    (h : store.exec (.selectRequestForUpdate id) v d = .ok (r, ws)) :
    ∃ u, parseUuid id = some u ∧ r = (v.request? u).isSome ∧ ws = [] :=
  castUuid_ok h

theorem findRequestById_ok {id : JsString} {r : Option MoneyRequest}
    (h : store.exec (.findRequestById id) v d = .ok (r, ws)) :
    ∃ u, parseUuid id = some u ∧ r = v.request? u ∧ ws = [] :=
  castUuid_ok h

def claimedRecord (id : Uuid) (key : RecordKey) (requestHash : JsString) : IdempotencyRecord where
  id := id
  key := key
  requestHash := requestHash
  state := .PROCESSING
  responseStatus := none
  responseBody := none
  resourceType := none
  resourceId := none

theorem tryClaim_ok {key : RecordKey} {hash : JsString} {r : Option Uuid}
    (h : store.exec (.tryClaim key hash) v d = .ok (r, ws)) :
    (r = none ∧ ws = [] ∧ (v.record? key).isSome) ∨
      (r = some d.id ∧ ws = [.insertRecord (claimedRecord d.id key hash)] ∧
        v.record? key = none ∧ v.recordById? d.id = none ∧ (v.user? key.actorUserId).isSome) := by
  simp only [store, exec, execTryClaim] at h
  split_ifs at h with hk hu hid
  · cases h
    exact Or.inl ⟨rfl, rfl, hk⟩
  · cases h
    exact Or.inr ⟨rfl, rfl, by simpa using hk, by simpa using hid,
      by simpa [Option.isSome_iff_ne_none] using hu⟩

theorem complete_ok {params : CompleteParams} {r : Unit}
    (h : store.exec (.complete params) v d = .ok (r, ws)) : ws = [.completeRecord params] := by
  simp only [store, exec] at h
  split_ifs at h
  cases h
  rfl

theorem sumSentByWindow_ok {u : Uuid} {windows : Windows} {totals : SentTotals}
    (h : store.exec (.sumSentByWindow u windows) v d = .ok (totals, ws)) :
    execSumSent v u windows = .ok totals ∧ ws = [] := by
  simp only [store, exec] at h
  cases ht : execSumSent v u windows with
  | error e => rw [ht] at h; cases h
  | ok t =>
    rw [ht] at h
    cases h
    exact ⟨rfl, rfl⟩

def pendingTransfer (d : Draw Time Uuid) (data : InsertTransferData) : Transfer where
  id := d.id
  senderUserId := data.senderUserId
  receiverUserId := data.receiverUserId
  senderWalletId := data.senderWalletId
  receiverWalletId := data.receiverWalletId
  amountMinor := data.amountMinor
  currency := data.currency
  status := .PENDING
  note := data.note
  sourceType := data.sourceType
  sourceRequestId := data.sourceRequestId
  createdAt := d.now
  completedAt := none

theorem insertPendingTransfer_ok {data : InsertTransferData} {t : Transfer}
    (h : store.exec (.insertPendingTransfer data) v d = .ok (t, ws)) :
    t = pendingTransfer d data ∧ ws = [.insertTransfer t] ∧
      data.senderUserId ≠ data.receiverUserId ∧ ∀ t' ∈ v.transfers, t'.id ≠ d.id := by
  simp only [store, exec, execInsertTransfer] at h
  split_ifs at h with _ _ hne hid
  cases h
  exact ⟨rfl, rfl, hne, by simpa [Db.transfer?] using hid⟩

theorem insertLedgerEntry_ok {e : LedgerEntry} {r : Unit}
    (h : store.exec (.insertLedgerEntry e) v d = .ok (r, ws)) : ws = [.insertLedgerEntry e] := by
  simp only [store, exec, execInsertLedgerEntry] at h
  split_ifs at h
  cases h
  rfl

theorem applyBalanceDelta_ok {id : Uuid} {delta : ℤ} {r : Unit}
    (h : store.exec (.applyBalanceDelta id delta) v d = .ok (r, ws)) :
    (ws = [] ∧ v.wallet? id = none) ∨ ws = [.addBalance id delta] := by
  simp only [store, exec, execApplyBalanceDelta] at h
  split at h
  · next hw =>
    cases h
    exact Or.inl ⟨rfl, hw⟩
  · split_ifs at h
    cases h
    exact Or.inr rfl

theorem markSucceeded_ok {id : Uuid} {t : Transfer}
    (h : store.exec (.markSucceeded id) v d = .ok (t, ws)) :
    ∃ row, v.transfer? id = some row ∧ t = row.succeed id d.now ∧
      ws = [.succeedTransfer id d.now] := by
  simp only [store, exec] at h
  split at h
  · cases h
  · next row hr =>
    cases h
    exact ⟨row, hr, rfl, rfl⟩

def storedEvent (d : Draw Time Uuid) (e : OutboxEventInput) : OutboxEvent where
  id := d.id
  aggregateType := e.aggregateType
  aggregateId := e.aggregateId
  eventType := e.eventType
  payload := e.payload
  occurredAt := d.now
  processedAt := none
  attemptCount := 0
  lastError := none
  nextAttemptAt := d.now

theorem insertOutboxEvent_ok {e : OutboxEventInput} {r : Unit}
    (h : store.exec (.insertOutboxEvent e) v d = .ok (r, ws)) :
    ws = [.insertOutboxEvent (storedEvent d e)] := by
  cases h
  rfl

theorem insertAuditEvent_ok {e : AuditEvent} {r : Unit}
    (h : store.exec (.insertAuditEvent e) v d = .ok (r, ws)) : ws = [.insertAuditEvent e] := by
  simp only [store, exec, execInsertAuditEvent] at h
  split_ifs at h
  cases h
  rfl

/-- An actor who is registered, or none, violates no foreign key. -/
theorem insertAuditEvent_exec {e : AuditEvent}
    (h : ∀ u, e.actorUserId = some u → (v.user? u).isSome) :
    store.exec (.insertAuditEvent e) v d = .ok ((), [.insertAuditEvent e]) := by
  refine if_neg fun hkey => ?_
  obtain ⟨u, hu, hnone⟩ := (Option.any_eq_true _ _).1 hkey
  have hsome := h u hu
  rw [Option.isNone_iff_eq_none.1 hnone] at hsome
  cases hsome

def pendingRequest (d : Draw Time Uuid) (data : CreateMoneyRequestData) (payer : Uuid) :
    MoneyRequest where
  id := d.id
  requesterUserId := data.requesterUserId
  payerUserId := payer
  amountMinor := data.amountMinor
  currency := data.currency
  note := data.note
  status := .PENDING
  acceptedTransferId := none
  expiresAt := data.expiresAt
  createdAt := d.now
  resolvedAt := none

theorem createMoneyRequest_ok {data : CreateMoneyRequestData} {row : MoneyRequest}
    (h : store.exec (.createMoneyRequest data) v d = .ok (row, ws)) :
    ∃ payer, parseUuid data.payerUserId = some payer ∧ row = pendingRequest d data payer ∧
      ws = [.insertMoneyRequest row] ∧ 0 < data.amountMinor ∧ data.requesterUserId ≠ payer ∧
      ∀ r ∈ v.moneyRequests, r.id ≠ d.id := by
  simp only [store, exec, execCreateMoneyRequest] at h
  split at h
  · cases h
  · next payer hc =>
    split_ifs at h with _ hp hne hid
    cases h
    exact ⟨payer, castUuid_eq hc, rfl, rfl, not_le.1 hp, hne, by simpa [Db.request?] using hid⟩

theorem markAccepted_ok {id transferId : Uuid} {r : MoneyRequest}
    (h : store.exec (.markAccepted id transferId) v d = .ok (r, ws)) :
    ∃ row, v.request? id = some row ∧ r = row.accept id transferId d.now ∧
      ws = [.acceptRequest id transferId d.now] := by
  simp only [store, exec] at h
  split at h
  · cases h
  · next row hr =>
    cases h
    exact ⟨row, hr, rfl, rfl⟩

theorem markResolved_ok {id : Uuid} {status : MoneyRequestStatus} {r : MoneyRequest}
    (h : store.exec (.markResolved id status) v d = .ok (r, ws)) :
    ∃ row, v.request? id = some row ∧ r = row.resolve id status d.now ∧
      ws = [.resolveRequest id status d.now] := by
  simp only [store, exec] at h
  split at h
  · cases h
  · next row hr =>
    cases h
    exact ⟨row, hr, rfl, rfl⟩

end MoneyMovement
