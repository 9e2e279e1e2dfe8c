import MoneyMovement.Runs.Commits
import MoneyMovement.Txn.Faults

/-!
# Retries and failed transfers

A transfer and an accept are tried again when their transaction has lost against others,
three times at most. Whatever errors the database raises, and wherever, a command has
the effect of one run without errors or none; a transfer that fails is audited once,
outside of its transaction.
-/

namespace MoneyMovement

open Txn TransferService MoneyRequestService

section Errors

inductive Thrown
  | app (e : AppException)
  /-- A `PrismaClientKnownRequestError`, with the `code` of its `meta`. -/
  | known (code : String) (metaCode : Option String)
  /-- Any other error, with its `code`. -/
  | other (code : Option String)
  deriving DecidableEq

def PRISMA_WRITE_CONFLICT := "P2034"
def RAW_QUERY_FAILED := "P2010"
def PG_SERIALIZATION_FAILURE := "40001"
def PG_DEADLOCK_DETECTED := "40P01"

def ErrorCode.text : ErrorCode → String
  | .VALIDATION_ERROR => "VALIDATION_ERROR"
  | .UNAUTHENTICATED => "UNAUTHENTICATED"
  | .FORBIDDEN => "FORBIDDEN"
  | .USER_NOT_FOUND => "USER_NOT_FOUND"
  | .TRANSFER_NOT_FOUND => "TRANSFER_NOT_FOUND"
  | .MONEY_REQUEST_NOT_FOUND => "MONEY_REQUEST_NOT_FOUND"
  | .INSUFFICIENT_BALANCE => "INSUFFICIENT_BALANCE"
  | .TRANSFER_LIMIT_EXCEEDED => "TRANSFER_LIMIT_EXCEEDED"
  | .REQUEST_ALREADY_RESOLVED => "REQUEST_ALREADY_RESOLVED"
  | .IDEMPOTENCY_KEY_REUSED => "IDEMPOTENCY_KEY_REUSED"
  | .WALLET_UNAVAILABLE => "WALLET_UNAVAILABLE"
  | .INVALID_TRANSFER => "INVALID_TRANSFER"
  | .RATE_LIMITED => "RATE_LIMITED"
  | .INTERNAL_ERROR => "INTERNAL_ERROR"
  | .SERVICE_UNAVAILABLE => "SERVICE_UNAVAILABLE"
  | .NOT_FOUND => "NOT_FOUND"

def isRollback (code : Option String) : Bool :=
  code = some PG_SERIALIZATION_FAILURE ∨ code = some PG_DEADLOCK_DETECTED

def isRetryableTransactionError : Thrown → Bool
  | .known code metaCode =>
    if code = PRISMA_WRITE_CONFLICT then true
    else if code = RAW_QUERY_FAILED then isRollback metaCode
    else isRollback (some code)
  | .app e => isRollback (some e.code.text)
  | .other code => isRollback code

/-- What Prisma makes of the errors that the statements themselves lead to. -/
def DbError.thrown : DbError → Thrown
  | .checkViolation _ => .other none
  | .uniqueViolation => .known "P2002" none
  -- The claim of a key is a raw query, the audit row a `create`.
  | .foreignKeyViolation .idempotency_records_actor_user_id_fkey =>
    .known RAW_QUERY_FAILED (some "23503")
  | .foreignKeyViolation .audit_events_actor_user_id_fkey => .known "P2003" none
  | .outOfRange => .known RAW_QUERY_FAILED (some "22003")
  | .recordNotFound => .known "P2025" none
  | .invalidUuid => .known RAW_QUERY_FAILED (some "22P02")

def Failure.thrown : Failure → Thrown
  | .app e => .app e
  | .db e => e.thrown
  | .walletDisappeared _ => .other none

/-- The errors of the program itself are never tried again. -/
theorem not_retryable (e : Failure) : isRetryableTransactionError e.thrown = false := by
  cases e with
  | app e =>
    show isRollback (some e.code.text) = false
    cases e.code <;> decide
  | db e =>
    cases e with
    | foreignKeyViolation k => cases k <;> rfl
    | _ => rfl
  | walletDisappeared id => rfl

end Errors

section Commands

/-- What a command meets: clock readings, ids and errors, in each attempt and in the insert
of the detached audit row. -/
structure Environment where
  draws : ℕ → ℕ → Draw Time Uuid
  mishaps : ℕ → Mishaps Thrown
  auditDraws : ℕ → Draw Time Uuid
  audit : Mishaps Thrown

abbrev Outcome := Tried Db Thrown Response

def MAX_TRANSFER_ATTEMPTS : ℕ := 3

def MAX_ACCEPT_ATTEMPTS : ℕ := 3

variable (cfg : Config) (env : Environment)

/-- `prisma.$transaction`. -/
def transaction (p : TxM Response) (attempt : ℕ) (db : Db) : Except Thrown Response × Db :=
  store.transaction Failure.thrown p (env.draws attempt) (env.mishaps attempt) db

namespace TransferService

def reason : Thrown → JsString
  | .app e => js e.code.text
  | _ => js "INTERNAL_ERROR"

def failedAudit (command : CreateDirectTransferCommand) (error : Thrown) : AuditEvent where
  actorUserId := some command.actorUserId
  action := .TRANSFER_FAILED
  resourceType := .transfer
  resourceId := none
  metadata := .obj [(js "receiverUserId", .str command.receiverUserId),
    (js "amountMinor", .str (decimal command.amountMinor)),
    (js "currency", .str command.currency.text), (js "reason", .str (reason error))]

/-- Its own failure is swallowed. -/
def recordDetached (entry : AuditEvent) (db : Db) : Db :=
  (store.transaction Failure.thrown (query (.insertAuditEvent entry)) env.auditDraws env.audit db).2

def attempts (command : CreateDirectTransferCommand) (db : Db) : Outcome :=
  retry isRetryableTransactionError (transaction env (runTransfer cfg command))
    (MAX_TRANSFER_ATTEMPTS - 1) 1 db

def createDirectTransfer (command : CreateDirectTransferCommand) (db : Db) : Outcome :=
  let tried := attempts cfg env command db
  match tried.outcome with
  | .ok _ => tried
  | .error error => { tried with db := recordDetached env (failedAudit command error) tried.db }

end TransferService

namespace MoneyRequestService

/-- `assertRequestId` comes before the attempts. -/
def acceptRetrying (command : ResolveMoneyRequestCommand) (db : Db) : Outcome :=
  if (parseUuid command.requestId).isNone then ⟨[], .error notFound.thrown, db⟩
  else retry isRetryableTransactionError (transaction env (runAccept command cfg))
    (MAX_ACCEPT_ATTEMPTS - 1) 1 db

end MoneyRequestService

end Commands

section AllOrNothing

variable {cfg : Config} {env : Environment} {db : Db}

/-- The last attempt is all there has been. -/
theorem retry_transaction (env : Environment) (p : TxM Response) (left : ℕ) (db : Db) :
    let t := retry isRetryableTransactionError (transaction env p) left 1 db
    t.retried.length ≤ left ∧ (∀ x ∈ t.retried, isRetryableTransactionError x) ∧
      (∀ a, t.outcome = .ok a → ∃ ds, store.Returns p db ds a t.db) ∧
      ∀ e, t.outcome = .error e → t.db = db := by
  intro t
  have hrun : ∀ n db x db', transaction env p n db = (.error x, db') → db' = db :=
    fun n db x db' h => Engine.transaction_error h
  obtain ⟨hlen, hall, hlast⟩ : t.retried.length ≤ left ∧
      (∀ x ∈ t.retried, isRetryableTransactionError x) ∧
      transaction env p (1 + t.retried.length) db = (t.outcome, t.db) := retry_spec hrun left 1 db
  refine ⟨hlen, hall, fun a ha => ?_, fun e he => ?_⟩
  · have hok : transaction env p (1 + t.retried.length) db = (.ok a, t.db) := ha ▸ hlast
    obtain ⟨n, hn⟩ := Engine.transaction_ok hok
    exact ⟨_, hn⟩
  · have herror : transaction env p (1 + t.retried.length) db = (.error e, t.db) := he ▸ hlast
    exact Engine.transaction_error herror

/-- The detached row is there unless its insert has failed, as it does for an actor who is
not registered. -/
theorem recordDetached_eq {entry : AuditEvent} {u : Uuid} (hactor : entry.actorUserId = some u) :
    TransferService.recordDetached env entry db =
      if (env.audit.statement 0 = none ∧ env.audit.commit = none) ∧ (db.user? u).isSome then
        { db with auditEvents := db.auditEvents ++ [entry] }
      else db := by
  cases hs : env.audit.statement 0 with
  | some x =>
    rw [if_neg (fun h => by cases h.1.1)]
    simp only [TransferService.recordDetached, Engine.transaction, Engine.attempt, query,
      Prog.perform, hs]
  | none =>
    cases hu : db.user? u with
    | none =>
      rw [if_neg (fun h => by cases h.2)]
      have hexec (d : Draw Time Uuid) : store.exec (.insertAuditEvent entry) db d =
          .error (.db (.foreignKeyViolation .audit_events_actor_user_id_fkey)) :=
        if_pos (by rw [hactor, Option.any_some, hu, Option.isNone_none])
      simp only [TransferService.recordDetached, Engine.transaction, Engine.attempt, query,
        Prog.perform, hs, hexec]
    | some user =>
      have hexec (d : Draw Time Uuid) : store.exec (.insertAuditEvent entry) db d =
          .ok ((), [.insertAuditEvent entry]) := by
        refine insertAuditEvent_exec fun u' hu' => ?_
        obtain rfl := Option.some.inj (hactor.symm.trans hu')
        rw [hu]
        rfl
      cases hc : env.audit.commit with
      | some x =>
        rw [if_neg (fun h => by cases h.1.2)]
        simp only [TransferService.recordDetached, Engine.transaction, Engine.attempt, query,
          Prog.perform, hs, hexec, hc]
      | none =>
        rw [if_pos ⟨⟨rfl, rfl⟩, rfl⟩]
        simp only [TransferService.recordDetached, Engine.transaction, Engine.attempt, query,
          Prog.perform, hs, hexec, hc]
        rfl

/-- No transfer writes the row of a failed one. -/
theorem Effect.audits {c : CreateDirectTransferCommand} {ds : List (Draw Time Uuid)} {a : Response}
    {db' : Db} (h : Effect cfg db ds (.createDirectTransfer c) a db') :
    ∃ new, db'.auditEvents = db.auditEvents ++ new ∧ ∀ e ∈ new, e.action ≠ .TRANSFER_FAILED := by
  cases h with
  | replay r hr hkey hhash hinput =>
    exact ⟨[], (List.append_nil _).symm, fun e he => (List.not_mem_nil he).elim⟩
  | act x recordId hclaim hdoes hinput =>
    cases hdoes with
    | transfer c z hz =>
      refine ⟨z.audits (transferInput c) DIRECT_SOURCE, rfl, fun e he => ?_⟩
      unfold Settlement.audits at he
      rcases List.mem_append.1 he with he | he
      · split_ifs at he
        · rw [List.mem_singleton.1 he]
          exact AuditAction.noConfusion
        · cases he
      · rw [List.mem_singleton.1 he]
        exact AuditAction.noConfusion

theorem direct_all_or_nothing (cfg : Config) (env : Environment) (hg : Good [] db)
    (command : CreateDirectTransferCommand) :
    let t := TransferService.createDirectTransfer cfg env command db
    t.attempts ≤ 3 ∧ (∀ x ∈ t.retried, isRetryableTransactionError x) ∧
      t.outcome = (TransferService.attempts cfg env command db).outcome ∧
      (∀ a, t.outcome = .ok a → ∃ ds,
        store.Returns (runTransfer cfg command) db ds a t.db ∧
        Effect cfg db ds (.createDirectTransfer command) a t.db ∧
        ∃ new, t.db.auditEvents = db.auditEvents ++ new ∧
          ∀ e ∈ new, e.action ≠ .TRANSFER_FAILED) ∧
      ∀ e, t.outcome = .error e → t.db =
        if (env.audit.statement 0 = none ∧ env.audit.commit = none) ∧
            (db.user? command.actorUserId).isSome then
          { db with auditEvents := db.auditEvents ++ [TransferService.failedAudit command e] }
        else db := by
  intro t
  obtain ⟨hlen, hall, hok, herror⟩ :
      (TransferService.attempts cfg env command db).retried.length ≤ 2 ∧ _ :=
    retry_transaction env (runTransfer cfg command) (MAX_TRANSFER_ATTEMPTS - 1) db
  cases hout : (TransferService.attempts cfg env command db).outcome with
  | ok a =>
    have ht : t = TransferService.attempts cfg env command db := by
      simp only [t, TransferService.createDirectTransfer, hout]
    rw [ht]
    refine ⟨Nat.succ_le_succ hlen, hall, hout, fun a' ha' => ?_, fun e he => ?_⟩
    · obtain ⟨ds, hreturns⟩ := hok a' ha'
      have heffect : Effect cfg db ds (.createDirectTransfer command) a' _ :=
        effect_of_returns hg hreturns
      exact ⟨ds, hreturns, heffect, heffect.audits⟩
    · rw [hout] at he
      cases he
  | error e =>
    have ht : t = { TransferService.attempts cfg env command db with
        db := TransferService.recordDetached env (TransferService.failedAudit command e)
          (TransferService.attempts cfg env command db).db } := by
      simp only [t, TransferService.createDirectTransfer, hout]
    rw [ht]
    refine ⟨Nat.succ_le_succ hlen, hall, hout, fun a' ha' => ?_, fun e' he' => ?_⟩
    · rw [hout] at ha'
      cases ha'
    · obtain rfl := Except.error.inj (hout.symm.trans he')
      have hsame : (TransferService.attempts cfg env command db).db = db := herror e hout
      show TransferService.recordDetached env _
        (TransferService.attempts cfg env command db).db = _
      rw [hsame, recordDetached_eq rfl]

theorem accept_all_or_nothing (cfg : Config) (env : Environment) (hg : Good [] db)
    (command : ResolveMoneyRequestCommand) :
    let t := MoneyRequestService.acceptRetrying cfg env command db
    t.attempts ≤ 3 ∧ (∀ x ∈ t.retried, isRetryableTransactionError x) ∧
      (∀ a, t.outcome = .ok a → ∃ ds,
        store.Returns (accept command cfg) db ds a t.db ∧
        Effect cfg db ds (.accept command) a t.db) ∧
      ∀ e, t.outcome = .error e → t.db = db := by
  intro t
  by_cases hid : (parseUuid command.requestId).isNone
  · have ht : t = ⟨[], .error notFound.thrown, db⟩ := if_pos hid
    rw [ht]
    refine ⟨Nat.succ_le_succ (Nat.zero_le 2), fun x hx => (List.not_mem_nil hx).elim,
      fun a ha => ?_, fun e _ => rfl⟩
    cases ha
  · have ht : t = retry isRetryableTransactionError (transaction env (runAccept command cfg))
        (MAX_ACCEPT_ATTEMPTS - 1) 1 db := if_neg hid
    obtain ⟨hlen, hall, hok, herror⟩ :=
      retry_transaction env (runAccept command cfg) (MAX_ACCEPT_ATTEMPTS - 1) db
    rw [ht]
    refine ⟨Nat.succ_le_succ hlen, hall, fun a ha => ?_, herror⟩
    obtain ⟨ds, hreturns⟩ := hok a ha
    have hbody {db' : Db} (h : store.Returns (runAccept command cfg) db ds a db') :
        store.Returns (body cfg (.accept command)) db ds a db' := by
      have haccept : body cfg (.accept command) = runAccept command cfg := by
        show accept command cfg = _
        rw [accept, assertRequestId, if_neg hid]
        rfl
      rwa [haccept]
    exact ⟨ds, hbody hreturns, effect_of_returns hg (hbody hreturns)⟩

/-- A transfer or an accept makes three attempts at most, tries again only after an error that
says the transaction was rolled back, and either has the effect of one run without errors or
leaves the tables as they were; a failed transfer adds its one audit row, unless that fails. -/
theorem all_or_nothing (cfg : Config) (env : Environment) (hg : Good [] db) :
    (∀ command, let t := TransferService.createDirectTransfer cfg env command db
      t.attempts ≤ 3 ∧ (∀ x ∈ t.retried, isRetryableTransactionError x) ∧
      t.outcome = (TransferService.attempts cfg env command db).outcome ∧
      (∀ a, t.outcome = .ok a → ∃ ds,
        store.Returns (runTransfer cfg command) db ds a t.db ∧
        Effect cfg db ds (.createDirectTransfer command) a t.db ∧
        ∃ new, t.db.auditEvents = db.auditEvents ++ new ∧
          ∀ e ∈ new, e.action ≠ .TRANSFER_FAILED) ∧
      ∀ e, t.outcome = .error e → t.db =
        if (env.audit.statement 0 = none ∧ env.audit.commit = none) ∧
            (db.user? command.actorUserId).isSome then
          { db with auditEvents := db.auditEvents ++ [TransferService.failedAudit command e] }
        else db) ∧
    ∀ command, let t := MoneyRequestService.acceptRetrying cfg env command db
      t.attempts ≤ 3 ∧ (∀ x ∈ t.retried, isRetryableTransactionError x) ∧
      (∀ a, t.outcome = .ok a → ∃ ds,
        store.Returns (accept command cfg) db ds a t.db ∧
        Effect cfg db ds (.accept command) a t.db) ∧
      ∀ e, t.outcome = .error e → t.db = db :=
  ⟨direct_all_or_nothing cfg env hg, accept_all_or_nothing cfg env hg⟩

def sampleEnvironment : Environment where
  draws attempt n := ⟨50, Fin.ofNat _ (100 * attempt + n)⟩
  mishaps
    | 1 => ⟨fun n => if n = 5 then some (.known "P2010" (some "40P01")) else none, none⟩
    | 2 => ⟨fun _ => none, some (.known "P2034" none)⟩
    | _ => ⟨fun _ => none, none⟩
  auditDraws n := ⟨50, Fin.ofNat _ n⟩
  audit := ⟨fun _ => none, none⟩

def sampleDirect : CreateDirectTransferCommand := ⟨1, (2 : Uuid).text, 300, .BDT, none, js "k"⟩

/-- The third attempt has its effect, once. -/
theorem all_or_nothing_third : ∃ a ds,
    (TransferService.createDirectTransfer sampleConfig sampleEnvironment sampleDirect
      sampleDb).attempts = 3 ∧
    Effect sampleConfig sampleDb ds (.createDirectTransfer sampleDirect) a
      (TransferService.createDirectTransfer sampleConfig sampleEnvironment sampleDirect
        sampleDb).db := by
  have hrun : (TransferService.createDirectTransfer sampleConfig sampleEnvironment sampleDirect
        sampleDb).attempts = 3 ∧
      (TransferService.createDirectTransfer sampleConfig sampleEnvironment sampleDirect
        sampleDb).outcome.isOk := by
    decide +kernel
  obtain ⟨-, -, -, hok, -⟩ :=
    (all_or_nothing sampleConfig sampleEnvironment sampleDb_good).1 sampleDirect
  cases hout : (TransferService.createDirectTransfer sampleConfig sampleEnvironment sampleDirect
      sampleDb).outcome with
  | ok a =>
    obtain ⟨ds, -, heffect, -⟩ := hok a hout
    exact ⟨a, ds, hrun.1, heffect⟩
  | error e =>
    rw [hout] at hrun
    cases hrun.2

end AllOrNothing

end MoneyMovement
