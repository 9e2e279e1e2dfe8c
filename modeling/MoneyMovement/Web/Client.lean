import MoneyMovement.Http.Envelope

/-!
# The client of the API

`request` sends one request and turns what comes back, or does not, into an envelope or an
`ApiError`. A response that arrives whole is reported as it was served; of one whose body
is lost the status remains, and of a request that is never answered nothing.
-/

namespace MoneyMovement.ApiClient

open Txn

section Request

inductive Method | GET | POST | PATCH | DELETE
  deriving DecidableEq

structure ApiError where
  code : Payload
  message : Payload
  status : ℕ
  details : Option Payload
  requestId : Option Payload

inductive Rejection
  | api (e : ApiError)
  /-- The `AbortError` of the caller's signal. -/
  | aborted
  /-- The `TypeError` of `fetch`. -/
  | failed

abbrev Promise := Except Rejection

def property (key : String) : Payload → Option Payload
  | .obj fields => (fields.find? (·.1 = js key)).map Prod.snd
  | _ => none

/-- The operand of `??` or `?.`, unless it is `undefined` or `null`. -/
def nonNullish : Option Payload → Option Payload
  | some .null => none
  | value => value

def establishError : ApiError where
  code := .str (js "SERVICE_UNAVAILABLE")
  message := .str (js "Could not establish a secure session with the server.")
  status := 0
  details := none
  requestId := none

/-- The cookie before and after the API is asked for one, and whether it could be asked. -/
structure CsrfCookie where
  existing : Option JsString
  fetched : Bool
  issued : Option JsString

/-- An empty string counts as none. -/
def truthy (token : Option JsString) : Option JsString := token.filter (· ≠ [])

def ensureCsrfToken (cookie : CsrfCookie) : Promise JsString :=
  match truthy cookie.existing with
  | some token => .ok token
  | none =>
    if cookie.fetched then
      match truthy cookie.issued with
      | some token => .ok token
      | none => .error (.api establishError)
    else .error .failed

inductive Fetched
  /-- The headers have come; the body has too, or the connection was lost while it came. -/
  | response (status : ℕ) (body : Option JsString)
  | aborted
  | failed

def noResponse (isStateChanging : Bool) : ApiError where
  code := .str (js (if isStateChanging then "AMBIGUOUS_OUTCOME" else "NETWORK_ERROR"))
  message := .str (js (if isStateChanging then
    "We could not confirm whether this went through. Check your activity before retrying."
    else "Could not reach the server. Check your connection and try again."))
  status := 0
  details := none
  requestId := none

/-- `response.json().catch(() => null)`. -/
def payloadOf (F : NumberFormat ℤ) (body : Option JsString) : Payload :=
  (body.bind (parse F)).getD .null

def errorOf (status : ℕ) (payload : Payload) : ApiError :=
  let error := nonNullish (property "error" payload)
  { code := (nonNullish (error.bind (property "code"))).getD (.str (js "INTERNAL_ERROR"))
    message := (nonNullish (error.bind (property "message"))).getD
      (.str (js "Something went wrong. Please try again."))
    status := status
    details := error.bind (property "details")
    requestId := property "requestId" payload }

def unreadable (status : ℕ) : ApiError where
  code := .str (js "INTERNAL_ERROR")
  message := .str (js "The server returned an unreadable response.")
  status := status
  details := none
  requestId := none

def isOk (status : ℕ) : Bool := 200 ≤ status ∧ status ≤ 299

def settle (F : NumberFormat ℤ) (method : Method) : Fetched → Promise Payload
  | .aborted => .error .aborted
  | .failed => .error (.api (noResponse (method ≠ .GET)))
  | .response status body =>
    if isOk status then
      match payloadOf F body with
      | .null => .error (.api (unreadable status))
      | payload => .ok payload
    else .error (.api (errorOf status (payloadOf F body)))

def request (F : NumberFormat ℤ) (method : Method) (cookie : CsrfCookie) (fetched : Fetched) :
    Promise Payload :=
  if method ≠ .GET then
    match ensureCsrfToken cookie with
    | .error cause => .error cause
    | .ok _ => settle F method fetched
  else settle F method fetched

def apiRequest (F : NumberFormat ℤ) (method : Method) (cookie : CsrfCookie) (fetched : Fetched) :
    Promise (Option Payload) :=
  (request F method cookie fetched).map (property "data")

structure ClientPage where
  items : Option Payload
  nextCursor : Payload

def apiRequestPage (F : NumberFormat ℤ) (cookie : CsrfCookie) (fetched : Fetched) :
    Promise ClientPage :=
  (request F .GET cookie fetched).map fun envelope =>
    { items := property "data" envelope
      nextCursor := (nonNullish ((nonNullish (property "meta" envelope)).bind
        (property "nextCursor"))).getD .null }

def ApiError.isAmbiguous (e : ApiError) : Prop := e.code = .str (js "AMBIGUOUS_OUTCOME")

end Request

section Delivery

variable {F : NumberFormat ℤ} {method : Method} {cookie : CsrfCookie}

def whole (F : NumberFormat ℤ) (r : HttpResponse) : Fetched :=
  .response r.status (some (stringify F r.body))

theorem payloadOf_stringify {v : Payload} (hv : v.Distinct) :
    payloadOf F (some (stringify F v)) = v := by
  rw [payloadOf, Option.bind_some, parse_stringify v hv, Option.getD_some]

variable (F method)

theorem settle_ok {r : HttpResponse} (hok : isOk r.status = true) (hv : r.body.Distinct)
    (hnull : r.body ≠ .null) : settle F method (whole F r) = .ok r.body := by
  simp only [whole, settle, hok, if_true, payloadOf_stringify hv]

theorem settle_notOk {r : HttpResponse} (hok : isOk r.status = false) (hv : r.body.Distinct) :
    settle F method (whole F r) = .error (.api (errorOf r.status r.body)) := by
  simp [whole, settle, hok, payloadOf_stringify hv]

theorem settle_cut (status : ℕ) : settle F method (.response status none) =
    .error (.api (if isOk status then unreadable status else errorOf status .null)) := by
  simp only [settle, payloadOf]
  split_ifs <;> rfl

end Delivery

section Served

variable {F : NumberFormat ℤ} {method : Method}

theorem optionalField_values {key : String} {value : Option Payload} {p : JsString × Payload}
    (h : p ∈ optionalField key value) : some p.2 = value := by
  obtain ⟨v, hv, rfl⟩ := List.mem_map.1 h
  exact (Option.mem_toList.1 hv).symm

theorem intercept_distinct {result : HandlerResult} (h : ∀ v ∈ result.data, v.Distinct)
    (status : ℕ) (requestId : JsString) : (intercept status result requestId).body.Distinct := by
  have hmeta : (Json.obj result.meta : Payload).Distinct := by
    cases result with
    | value data => exact .obj List.nodup_nil fun p hp => (List.not_mem_nil hp).elim
    | cursorPage data nextCursor =>
      refine .obj (List.nodup_singleton _) fun p hp => ?_
      rw [List.mem_singleton.1 hp]
      cases nextCursor with
      | none => exact .null
      | some cursor => exact .str cursor
  refine .obj ?_ fun p hp => ?_
  · cases result.data with
    | none => exact (by decide : [js "meta", js "requestId"].Nodup)
    | some v => exact (by decide : [js "data", js "meta", js "requestId"].Nodup)
  · rcases List.mem_append.1 hp with hp | hp
    · exact h p.2 (optionalField_values hp).symm
    · rcases List.mem_cons.1 hp with rfl | hp
      · exact hmeta
      · rw [List.mem_singleton.1 hp]
        exact .str requestId

theorem catchException_distinct {e : Exception} (h : ∀ v ∈ e.resolve.details, v.Distinct)
    (requestId : JsString) : (catchException e requestId).body.Distinct := by
  have herror : (Json.obj (errorFields e.resolve) : Payload).Distinct := by
    refine .obj ?_ fun p hp => ?_
    · unfold errorFields
      cases e.resolve.details with
      | none => exact (by decide : [js "code", js "message"].Nodup)
      | some v => exact (by decide : [js "code", js "message", js "details"].Nodup)
    · rcases List.mem_append.1 hp with hp | hp
      · rcases List.mem_cons.1 hp with rfl | hp
        · exact .str _
        · rw [List.mem_singleton.1 hp]
          exact .str _
      · exact h p.2 (optionalField_values hp).symm
  refine .obj (by decide : [js "error", js "requestId"].Nodup) fun p hp => ?_
  rcases List.mem_cons.1 hp with rfl | hp
  · exact herror
  · rw [List.mem_singleton.1 hp]
    exact .str requestId

theorem data_intercept (status : ℕ) (result : HandlerResult) (requestId : JsString) :
    property "data" (intercept status result requestId).body = result.data := by
  have hmeta : js "meta" ≠ js "data" := by decide
  have hid : js "requestId" ≠ js "data" := by decide
  cases hd : result.data with
  | none => simp [property, intercept, hd, optionalField, hmeta, hid]
  | some v => simp [property, intercept, hd, optionalField]

theorem meta_intercept (status : ℕ) (result : HandlerResult) (requestId : JsString) :
    property "meta" (intercept status result requestId).body = some (.obj result.meta) := by
  have hdata : js "data" ≠ js "meta" := by decide
  cases hd : result.data with
  | none => simp [property, intercept, hd, optionalField]
  | some v => simp [property, intercept, hd, optionalField, hdata]

/-- A page is read as it was sent: its rows, and the cursor of the next one or null. -/
theorem apiRequestPage_cursorPage (cookie : CsrfCookie) {data : List Payload}
    (hdata : ∀ v ∈ data, v.Distinct) (nextCursor : Option JsString) {status : ℕ}
    (hok : isOk status = true) (requestId : JsString) :
    apiRequestPage F cookie
        (whole F (intercept status (.cursorPage data nextCursor) requestId)) =
      .ok { items := some (.arr data), nextCursor := jsonText nextCursor } := by
  have hdistinct : (intercept status (.cursorPage data nextCursor) requestId).body.Distinct :=
    intercept_distinct (fun v hv => by cases hv; exact .arr hdata) status requestId
  have hsettle := settle_ok F .GET hok hdistinct nofun
  have hread := data_intercept status (.cursorPage data nextCursor) requestId
  have hmeta := meta_intercept status (.cursorPage data nextCursor) requestId
  have hcursor : (nonNullish (property "nextCursor"
      (Json.obj (HandlerResult.cursorPage data nextCursor).meta))).getD .null =
      jsonText nextCursor := by
    cases nextCursor <;> rfl
  rw [apiRequestPage, request, if_neg (by decide), hsettle]
  simp only [Except.map, hread, hmeta, nonNullish, Option.bind_some]
  rw [← hcursor]
  rfl

/-- What the error body says is what the exception resolves to. -/
theorem errorOf_catch (e : Exception) (requestId : JsString) :
    errorOf e.resolve.status (catchException e requestId).body =
      { code := .str (js e.resolve.code.text)
        message := .str e.resolve.message
        status := e.resolve.status
        details := e.resolve.details
        requestId := some (.str requestId) } := by
  have hid : js "error" ≠ js "requestId" := by decide
  have hmessage : js "code" ≠ js "message" := by decide
  have hcode : js "code" ≠ js "details" := by decide
  have hdetails : js "message" ≠ js "details" := by decide
  have herror : property "error" (catchException e requestId).body =
      some (.obj (errorFields e.resolve)) := by
    simp [property, catchException]
  have hrequest : property "requestId" (catchException e requestId).body =
      some (.str requestId) := by
    simp [property, catchException, hid]
  simp only [errorOf, herror, hrequest, nonNullish, Option.bind_some]
  cases hd : e.resolve.details with
  | none =>
    simp [property, errorFields, hd, optionalField, hmessage, hcode, hdetails]
  | some v =>
    simp [property, errorFields, hd, optionalField, hmessage, hcode, hdetails]

end Served

end MoneyMovement.ApiClient
