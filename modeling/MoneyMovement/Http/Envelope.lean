import MoneyMovement.Basic.JsonText
import MoneyMovement.Runs.Retries

/-!
# Envelopes of responses

Every result of a controller is sent as `data` with `meta`, and whatever is thrown on the
way is resolved to a status, a code of the catalog and a message. What is neither an
exception of the application nor one of the framework says nothing about itself.
-/

namespace MoneyMovement

open Txn TransferService MoneyRequestService

section Filter

inductive RawMessage
  | one (message : JsString)
  | many (messages : List JsString)

inductive ExceptionResponse
  | text (message : JsString)
  | fields (message : Option RawMessage)

inductive Property
  | number (n : ℤ)
  | other

inductive Exception
  | app (status : ℕ) (code : ErrorCode) (message : JsString) (details : Option Payload)
  | http (status : ℕ) (response : ExceptionResponse) (message : JsString)
  | other (status statusCode : Option Property)

structure ResolvedError where
  status : ℕ
  code : ErrorCode
  message : JsString
  details : Option Payload

def mapStatusToErrorCode : ℕ → ErrorCode
  | 400 => .VALIDATION_ERROR
  | 413 => .VALIDATION_ERROR
  | 415 => .VALIDATION_ERROR
  | 401 => .UNAUTHENTICATED
  | 403 => .FORBIDDEN
  | 404 => .NOT_FOUND
  | 429 => .RATE_LIMITED
  | 503 => .SERVICE_UNAVAILABLE
  | _ => .INTERNAL_ERROR

/-- A 4xx status attached by a middleware. -/
def clientErrorStatus (status statusCode : Option Property) : Option ℕ :=
  match status.orElse fun _ => statusCode with
  | some (.number n) => if 400 ≤ n ∧ n < 500 then some n.toNat else none
  | _ => none

def RawMessage.text : RawMessage → JsString
  | .one message => message
  | .many messages => (js ", ").intercalate messages

def resolveHttpException (status : ℕ) (response : ExceptionResponse) (message : JsString) :
    ResolvedError where
  status := status
  code := mapStatusToErrorCode status
  message :=
    match response with
    | .text raw => raw
    | .fields raw => (raw.map RawMessage.text).getD message
  details := none

def unexpectedError : ResolvedError where
  status := 500
  code := .INTERNAL_ERROR
  message := js "An unexpected error occurred."
  details := none

/-- `GlobalExceptionFilter.resolve`. -/
def Exception.resolve : Exception → ResolvedError
  | .app status code message details => ⟨status, code, message, details⟩
  | .http status response message => resolveHttpException status response message
  | .other status statusCode =>
    match clientErrorStatus status statusCode with
    | some status =>
      ⟨status, mapStatusToErrorCode status, js "The request could not be processed.", none⟩
    | none => unexpectedError

end Filter

section Bodies

structure HttpResponse where
  status : ℕ
  body : Payload

/-- A field that is left out when it is `undefined`. -/
def optionalField (key : String) (value : Option Payload) : List (JsString × Payload) :=
  value.toList.map fun v => (js key, v)

def errorFields (e : ResolvedError) : List (JsString × Payload) :=
  [(js "code", .str (js e.code.text)), (js "message", .str e.message)] ++
    optionalField "details" e.details

/-- `GlobalExceptionFilter.catch`. -/
def catchException (e : Exception) (requestId : JsString) : HttpResponse where
  status := e.resolve.status
  body := .obj [(js "error", .obj (errorFields e.resolve)), (js "requestId", .str requestId)]

inductive HandlerResult
  | value (data : Option Payload)
  | cursorPage (data : List Payload) (nextCursor : Option JsString)

def HandlerResult.data : HandlerResult → Option Payload
  | .value data => data
  | .cursorPage data _ => some (.arr data)

def HandlerResult.meta : HandlerResult → List (JsString × Payload)
  | .value _ => []
  | .cursorPage _ nextCursor => [(js "nextCursor", jsonText nextCursor)]

/-- `ResponseEnvelopeInterceptor.intercept`. -/
def intercept (status : ℕ) (result : HandlerResult) (requestId : JsString) : HttpResponse where
  status := status
  body := .obj (optionalField "data" result.data ++
    [(js "meta", .obj result.meta), (js "requestId", .str requestId)])

end Bodies

section Dtos

def TransferStatus.text : TransferStatus → JsString
  | .PENDING => js "PENDING"
  | .SUCCEEDED => js "SUCCEEDED"
  | .FAILED => js "FAILED"

def MoneyRequestStatus.text : MoneyRequestStatus → JsString
  | .PENDING => js "PENDING"
  | .ACCEPTED => js "ACCEPTED"
  | .DECLINED => js "DECLINED"
  | .CANCELLED => js "CANCELLED"
  | .EXPIRED => js "EXPIRED"

def RiskAssessmentDto.json (dto : RiskAssessmentDto) : Payload :=
  .obj [(js "score", .num dto.score), (js "level", .str dto.level.text),
    (js "reasons", .arr (dto.reasons.map .str)), (js "explanation", jsonText dto.explanation)]

def TransferDto.json (dto : TransferDto) : Payload :=
  .obj ([(js "transferId", .str dto.transferId.text), (js "status", .str dto.status.text),
    (js "senderUserId", .str dto.senderUserId.text),
    (js "receiverUserId", .str dto.receiverUserId.text), (js "amountMinor", .num dto.amountMinor),
    (js "currency", .str dto.currency.text), (js "note", jsonText dto.note),
    (js "createdAt", .str dto.createdAt), (js "completedAt", jsonText dto.completedAt)] ++
    (optionalField "senderBalanceAfterMinor" (dto.senderBalanceAfterMinor.map .num) ++
      optionalField "risk" (dto.risk.map RiskAssessmentDto.json)))

def MoneyRequestDto.json (dto : MoneyRequestDto) : Payload :=
  .obj [(js "requestId", .str dto.requestId.text), (js "status", .str dto.status.text),
    (js "requesterUserId", .str dto.requesterUserId.text),
    (js "payerUserId", .str dto.payerUserId.text), (js "amountMinor", .num dto.amountMinor),
    (js "currency", .str dto.currency.text), (js "note", jsonText dto.note),
    (js "acceptedTransferId", jsonText (dto.acceptedTransferId.map Uuid.text)),
    (js "expiresAt", jsonText dto.expiresAt), (js "createdAt", .str dto.createdAt),
    (js "resolvedAt", jsonText dto.resolvedAt)]

def Response.json : Response → Payload
  | .null => .null
  | .transfer dto => dto.json
  | .moneyRequest dto => dto.json

def LimitDetails.json (details : LimitDetails) : Payload :=
  .obj [(js "period", .str (js (TransactionLimitService.Period.text details.period))),
    (js "limitMinor", .num details.limitMinor), (js "usedMinor", .num details.usedMinor),
    (js "amountMinor", .num details.amountMinor)]

def AppException.exception (e : AppException) : Exception :=
  .app e.status e.code (js e.message) (e.details.map LimitDetails.json)

/-- An error of the database carries no status. -/
def Thrown.exception : Thrown → Exception
  | .app e => e.exception
  | .known _ _ => .other none none
  | .other _ => .other none none

end Dtos

end MoneyMovement
