import MoneyMovement.Store.Statements

/-!
# Durable idempotency

`begin` claims a key inside the caller's transaction or resolves what an earlier
call did with it; `complete` stores the response that later calls replay.
-/

namespace MoneyMovement

open Txn Prog

namespace IdempotencyService

structure BeginParams where
  actorUserId : Uuid
  routeKey : RouteKey
  idempotencyKey : JsString
  payload : Payload

def BeginParams.key (p : BeginParams) : RecordKey := ⟨p.actorUserId, p.routeKey, p.idempotencyKey⟩

inductive BeginResult
  | claimed (recordId : Uuid)
  | replayed (responseStatus : ℕ) (responseBody : Response)

def keyReused : AppException where
  status := 409
  code := .IDEMPOTENCY_KEY_REUSED
  message := "This Idempotency-Key was already used with a different request payload."
  details := none

def beingProcessed : AppException where
  status := 409
  code := .IDEMPOTENCY_KEY_REUSED
  message := "This Idempotency-Key is currently being processed. Retry shortly."
  details := none

def resolveExisting (existing : IdempotencyRecord) (requestHash : JsString) : TxM BeginResult :=
  if existing.requestHash ≠ requestHash then .fail (.app keyReused)
  else if existing.state = .COMPLETED then
    return .replayed (existing.responseStatus.getD 200) (existing.responseBody.getD .null)
  else do
    query (.reclaim existing.id requestHash)
    return .claimed existing.id

/-- The loop of `begin`, with the attempts it has left. -/
def attempts (key : RecordKey) (requestHash : JsString) : ℕ → TxM BeginResult
  | 0 => .fail (.app beingProcessed)
  | left + 1 => do
    let claimed ← query (.tryClaim key requestHash)
    match claimed with
    | some recordId => return .claimed recordId
    | none =>
      let existing ← query (.lockExisting key)
      match existing with
      | none => attempts key requestHash left
      | some row => resolveExisting row requestHash

def requestHash (cfg : Config) (payload : Payload) : JsString :=
  hashRequestPayload decimal cfg.sha256 payload

def «begin» (cfg : Config) (params : BeginParams) : TxM BeginResult :=
  attempts params.key (requestHash cfg params.payload) 3

def complete (params : CompleteParams) : TxM Unit := query (.complete params)

end IdempotencyService

end MoneyMovement
