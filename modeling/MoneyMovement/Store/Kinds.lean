import MoneyMovement.Store.Statements

/-!
# Which tables a statement changes

Every statement belongs to one part of the store and changes only the tables of
that part.
-/

namespace MoneyMovement

open Txn

inductive Kind | record | request | money | other
  deriving DecidableEq

def Stmt.kind : Stmt → Kind
  | .tryClaim .. | .lockExisting _ | .reclaim .. | .complete _ => .record
  | .createMoneyRequest _ | .selectRequestForUpdate _ | .findRequestById _ | .markAccepted ..
  | .markResolved .. => .request
  | .findWalletByUserId _ | .selectWalletForUpdate _ | .findWalletById _ | .sumSentByWindow ..
  | .insertPendingTransfer _ | .insertLedgerEntry _ | .applyBalanceDelta .. | .markSucceeded _
  | .countRecentTransfersFromSender .. | .insertAssessment _ => .money
  | .dateNow | .newDate | .findUserById _ | .insertOutboxEvent _ | .insertAuditEvent _ => .other

def Write.kind : Write → Kind
  | .insertRecord _ | .completeRecord _ | .reclaimRecord .. => .record
  | .insertMoneyRequest _ | .acceptRequest .. | .resolveRequest .. => .request
  | .insertTransfer _ | .succeedTransfer .. | .insertLedgerEntry _ | .addBalance ..
  | .insertAssessment _ => .money
  | .insertOutboxEvent _ | .insertAuditEvent _ => .other

inductive Produces (d : Draw Time Uuid) : Stmt → Write → Prop
  | tryClaim (key : RecordKey) (hash : JsString) (r : IdempotencyRecord) :
      Produces d (.tryClaim key hash) (.insertRecord r)
  | reclaim (id : Uuid) (hash : JsString) : Produces d (.reclaim id hash) (.reclaimRecord id hash)
  | complete (p : CompleteParams) : Produces d (.complete p) (.completeRecord p)
  | insertPendingTransfer (data : InsertTransferData) (t : Transfer)
      (hrange : InBigint t.amountMinor) :
      Produces d (.insertPendingTransfer data) (.insertTransfer t)
  | insertLedgerEntry (e : LedgerEntry) : Produces d (.insertLedgerEntry e) (.insertLedgerEntry e)
  | applyBalanceDelta (id : Uuid) (delta : ℤ) :
      Produces d (.applyBalanceDelta id delta) (.addBalance id delta)
  | markSucceeded (id : Uuid) : Produces d (.markSucceeded id) (.succeedTransfer id d.now)
  | insertAssessment (r : RiskAssessment) : Produces d (.insertAssessment r) (.insertAssessment r)
  | insertOutboxEvent (input : OutboxEventInput) (e : OutboxEvent) (hid : e.id = d.id)
      (hnew : e.processedAt = none ∧ e.attemptCount = 0) :
      Produces d (.insertOutboxEvent input) (.insertOutboxEvent e)
  | insertAuditEvent (e : AuditEvent) : Produces d (.insertAuditEvent e) (.insertAuditEvent e)
  | createMoneyRequest (data : CreateMoneyRequestData) (r : MoneyRequest)
      (hrange : InBigint r.amountMinor) :
      Produces d (.createMoneyRequest data) (.insertMoneyRequest r)
  | markAccepted (id t : Uuid) : Produces d (.markAccepted id t) (.acceptRequest id t d.now)
  | markResolved (id : Uuid) (st : MoneyRequestStatus) :
      Produces d (.markResolved id st) (.resolveRequest id st d.now)

/-- A read by the text of an id. -/
theorem castUuid_ok {α : Type} {id : JsString} {f : Uuid → α} {r : α} {ws : List Write}
    (h : (castUuid id).map (fun u => (f u, ([] : List Write))) = .ok (r, ws)) :
    ∃ u, parseUuid id = some u ∧ r = f u ∧ ws = [] := by
  rw [castUuid] at h
  cases hp : parseUuid id with
  | none =>
    rw [hp] at h
    cases h
  | some u =>
    rw [hp] at h
    cases h
    exact ⟨u, rfl, rfl, rfl⟩

theorem castUuid_error {id : JsString} {e : Failure} (h : castUuid id = .error e) :
    e = .db .invalidUuid := by
  rw [castUuid] at h
  split at h <;> cases h
  rfl

/-- A statement writes at most one row. -/
theorem exec_produces {s : Stmt} {v : Db} {d : Draw Time Uuid} {r : Reply s} {ws : List Write}
    (h : exec s v d = .ok (r, ws)) : ws = [] ∨ ∃ w, ws = [w] ∧ Produces d s w := by
  have cast {α : Type} {id : JsString} {f : Uuid → α} {r : α} {ws : List Write}
      (hx : (castUuid id).map (fun u => (f u, ([] : List Write))) = .ok (r, ws)) : ws = [] := by
    obtain ⟨-, -, -, hws⟩ := castUuid_ok hx
    exact hws
  cases s with
  | tryClaim key hash =>
    simp only [exec, execTryClaim] at h
    split_ifs at h <;> cases h
    · exact Or.inl rfl
    · exact Or.inr ⟨_, rfl, .tryClaim key hash _⟩
  | reclaim id hash =>
    simp only [exec] at h
    split_ifs at h
    cases h
    exact Or.inr ⟨_, rfl, .reclaim id hash⟩
  | complete p =>
    simp only [exec] at h
    split_ifs at h
    cases h
    exact Or.inr ⟨_, rfl, .complete p⟩
  | sumSentByWindow u windows =>
    simp only [exec] at h
    cases hs : execSumSent v u windows with
    | error e => rw [hs] at h; cases h
    | ok t => rw [hs] at h; cases h; exact Or.inl rfl
  | insertPendingTransfer data =>
    simp only [exec, execInsertTransfer] at h
    split_ifs at h with hrange
    cases h
    exact Or.inr ⟨_, rfl, .insertPendingTransfer data _ hrange⟩
  | insertLedgerEntry e =>
    simp only [exec, execInsertLedgerEntry] at h
    split_ifs at h
    cases h
    exact Or.inr ⟨_, rfl, .insertLedgerEntry e⟩
  | applyBalanceDelta id delta =>
    simp only [exec, execApplyBalanceDelta] at h
    split at h
    · cases h
      exact Or.inl rfl
    · split_ifs at h
      cases h
      exact Or.inr ⟨_, rfl, .applyBalanceDelta id delta⟩
  | markSucceeded id =>
    simp only [exec] at h
    split at h <;> cases h
    exact Or.inr ⟨_, rfl, .markSucceeded id⟩
  | createMoneyRequest data =>
    simp only [exec, execCreateMoneyRequest] at h
    split at h
    · cases h
    · split_ifs at h with hrange
      cases h
      exact Or.inr ⟨_, rfl, .createMoneyRequest data _ hrange⟩
  | markAccepted id t =>
    simp only [exec] at h
    split at h <;> cases h
    exact Or.inr ⟨_, rfl, .markAccepted id t⟩
  | markResolved id st =>
    simp only [exec] at h
    split at h <;> cases h
    exact Or.inr ⟨_, rfl, .markResolved id st⟩
  | findUserById id => exact Or.inl (cast h)
  | findWalletByUserId id => exact Or.inl (cast h)
  | selectRequestForUpdate id => exact Or.inl (cast h)
  | findRequestById id => exact Or.inl (cast h)
  | insertAssessment r => cases h; exact Or.inr ⟨_, rfl, .insertAssessment r⟩
  | insertOutboxEvent e => cases h; exact Or.inr ⟨_, rfl, .insertOutboxEvent e _ rfl ⟨rfl, rfl⟩⟩
  | insertAuditEvent e =>
    simp only [exec, execInsertAuditEvent] at h
    split_ifs at h
    cases h
    exact Or.inr ⟨_, rfl, .insertAuditEvent e⟩
  | _ => cases h; exact Or.inl rfl

/-- A statement makes changes of its own kind only. -/
theorem exec_kind {s : Stmt} {v : Db} {d : Draw Time Uuid} {r : Reply s} {ws : List Write}
    (h : exec s v d = .ok (r, ws)) : ∀ w ∈ ws, w.kind = s.kind := by
  intro w hw
  rcases exec_produces h with rfl | ⟨w', rfl, hp⟩
  · cases hw
  · rw [List.mem_singleton.1 hw]
    cases hp <;> rfl

theorem view_unchanged {α : Type} (table : Db → α) {k : Kind}
    (hk : ∀ (v : Db) (w : Write), w.kind ≠ k → table (applyWrite v w) = table v) {v : Db}
    {ws : List Write} (h : ∀ w ∈ ws, w.kind ≠ k) : table (store.view v ws) = table v := by
  induction ws generalizing v with
  | nil => rfl
  | cons w ws ih =>
    rw [Engine.view_cons, ih (fun w' hw' => h w' (List.mem_cons_of_mem _ hw'))]
    exact hk v w (h w List.mem_cons_self)

section Unchanged

variable {s : Stmt} {v : Db} {d : Draw Time Uuid} {r : Reply s} {ws : List Write}

theorem records_unchanged (h : exec s v d = .ok (r, ws)) (hk : s.kind ≠ .record) :
    (store.view v ws).idempotencyRecords = v.idempotencyRecords :=
  view_unchanged Db.idempotencyRecords (k := .record)
    (fun v w hw => by cases w <;> first | rfl | exact absurd rfl hw)
    (fun w hw => by rw [exec_kind h w hw]; exact hk)

theorem requests_unchanged (h : exec s v d = .ok (r, ws)) (hk : s.kind ≠ .request) :
    (store.view v ws).moneyRequests = v.moneyRequests :=
  view_unchanged Db.moneyRequests (k := .request)
    (fun v w hw => by cases w <;> first | rfl | exact absurd rfl hw)
    (fun w hw => by rw [exec_kind h w hw]; exact hk)

/-- Only the statements of `begin` and `complete` lock keys. -/
theorem wants_key (hk : s.kind ≠ .record) (v : Db) (d : Draw Time Uuid) (k : RecordKey) :
    Lock.key k ∉ wants s v d := by
  cases s with
  | tryClaim | lockExisting | reclaim | complete => exact absurd rfl hk
  | _ =>
    simp only [wants]
    repeat' split
    all_goals simp

end Unchanged

end MoneyMovement
