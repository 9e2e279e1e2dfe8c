import MoneyMovement.Http.Failures
import MoneyMovement.Runs.Replay
import MoneyMovement.Txn.Tries
import MoneyMovement.Web.Client

/-!
# Requests of clients that move money

A client sends a command, the server refuses it or runs it, tries it again when its
transaction loses, and answers; the answer may be lost, whole or in part. A transaction that
the store reports as failed was rolled back whole. Then a client can rely on the data it is
told, and on an error as far as its own request goes; what it cannot know it is told to check.
-/

namespace MoneyMovement

open Txn ApiClient

section Causes

structure Refusal where
  exception : Exception
  isError : 400 ≤ exception.resolve.status
  distinct : ∀ v ∈ exception.resolve.details, v.Distinct

inductive Cause
  | thrown (error : Thrown)
  | refused (refusal : Refusal)

def Cause.exception : Cause → Exception
  | .thrown error => error.exception
  | .refused refusal => refusal.exception

def Cause.retryable : Cause → Bool
  | .thrown error => isRetryableTransactionError error
  | .refused _ => false

/-- Exceptions of the application that are no refusals come from the services only. -/
def Cause.fromOutside : Cause → Bool
  | .thrown (.app _) => false
  | _ => true

/-- It is answered with the status of an error and a body that can be written. -/
structure Cause.Erroneous (x : Cause) : Prop where
  status : 400 ≤ x.exception.resolve.status
  details : ∀ v ∈ x.exception.resolve.details, v.Distinct

theorem LimitDetails.json_distinct (details : LimitDetails) : details.json.Distinct := by
  refine .obj (by decide : [js "period", js "limitMinor", js "usedMinor", js "amountMinor"].Nodup)
    fun p hp => ?_
  simp only [List.mem_cons, List.not_mem_nil, or_false] at hp
  rcases hp with rfl | rfl | rfl | rfl
  · exact .str _
  · exact .num _
  · exact .num _
  · exact .num _

theorem Cause.erroneous_of_outside {x : Cause} (h : x.fromOutside = true) : x.Erroneous := by
  have hunexpected : 400 ≤ unexpectedError.status := by decide
  cases x with
  | refused refusal => exact ⟨refusal.isError, refusal.distinct⟩
  | thrown error =>
    cases error with
    | app e => cases h
    | known code metaCode => exact ⟨hunexpected, fun v hv => by cases hv⟩
    | other code => exact ⟨hunexpected, fun v hv => by cases hv⟩

theorem DbError.fromOutside (e : DbError) : (Cause.thrown e.thrown).fromOutside = true := by
  cases e with
  | foreignKeyViolation k => cases k <;> rfl
  | _ => rfl

theorem Cause.erroneous_of_isError {e : Failure} (h : e.IsError) :
    (Cause.thrown e.thrown).Erroneous := by
  cases e with
  | app e =>
    refine ⟨h, fun v hv => ?_⟩
    obtain ⟨details, -, rfl⟩ := Option.map_eq_some_iff.1 hv
    exact details.json_distinct
  | db e => exact erroneous_of_outside e.fromOutside
  | walletDisappeared id => exact erroneous_of_outside rfl

end Causes

section Server

def Command.maxAttempts : Command → ℕ
  | .createDirectTransfer _ => MAX_TRANSFER_ATTEMPTS
  | .accept _ => MAX_ACCEPT_ATTEMPTS
  | _ => 1

/-- `@HttpCode`, and 201 for any other `@Post`. -/
def Command.httpStatus : Command → ℕ
  | .createDirectTransfer _ => 201
  | .create _ => 201
  | _ => 200

def served (c : Command) (outcome : Except Cause Response) (requestId : JsString) : HttpResponse :=
  match outcome with
  | .ok a => intercept c.httpStatus (.value (some a.json)) requestId
  | .error x => catchException x.exception requestId

def rules (cfg : Config) : TryRules Reply Failure Command Cause Response where
  body := body cfg
  thrown e := .thrown e.thrown
  attempts := Command.maxAttempts
  retryable := Cause.retryable

abbrev Request := Job Command Cause Response

abbrev Server := Tries store Command Cause Response

abbrev ServerMove := TryMove Command Cause Time Uuid Registration

/-- A move of the server itself: what comes from outside is a refusal or an error of the store. -/
def isServerMove : ServerMove → Bool
  | .submit _ => false
  | .refuse _ x => x.fromOutside
  | .fault _ x => x.fromOutside
  | _ => true

theorem brings_of_isServerMove {m : ServerMove} (h : isServerMove m = true) :
    m.Brings Cause.Erroneous := by
  cases m with
  | refuse i x => exact Cause.erroneous_of_outside h
  | fault i x => exact Cause.erroneous_of_outside h
  | _ => trivial

end Server

section Model

/-- A call of `apiRequest` and what its promise has been settled with. -/
structure Exchange where
  command : Command
  cookie : CsrfCookie
  /-- The request, if it has been sent. -/
  request : Option ℕ
  told : Option (Promise (Option Payload))

structure Exchanges where
  server : Server
  exchanges : List Exchange

def Exchanges.initial (db : Db) (clock : Time) : Exchanges := ⟨⟨Service.initial db clock, []⟩, []⟩

inductive ExchangeMove
  | send (c : Command) (cookie : CsrfCookie)
  | server (m : ServerMove)
  /-- The answer arrives, whole or with its body cut off. -/
  | respond (i : ℕ) (requestId : JsString) (cut : Bool)
  /-- The connection is lost before any answer has arrived. -/
  | lose (i : ℕ)

variable (cfg : Config) (F : NumberFormat ℤ)

def arriving (r : HttpResponse) (cut : Bool) : Fetched :=
  if cut then .response r.status none else whole F r

namespace Exchanges

def tell (s : Exchanges) (i : ℕ) (x : Exchange) (o : Promise (Option Payload)) : Exchanges :=
  { s with exchanges := s.exchanges.set i { x with told := some o } }

def pending? (s : Exchanges) (i : ℕ) : Option (Exchange × Request) :=
  (s.exchanges[i]?).bind fun x =>
    if x.told.isNone then
      x.request.bind fun k => (s.server.jobs[k]?).map fun j => (x, j)
    else none

def outcome? (j : Request) : Option (Except Cause Response) :=
  match j.phase with
  | .done outcome => some outcome
  | _ => none

def step? (s : Exchanges) : ExchangeMove → Option Exchanges
  | .send c cookie =>
    match ensureCsrfToken cookie with
    | .error cause =>
      some { s with exchanges := s.exchanges ++ [⟨c, cookie, none, some (.error cause)⟩] }
    | .ok _ =>
      (s.server.step? (rules cfg) (.submit c)).map fun server =>
        { server, exchanges := s.exchanges ++ [⟨c, cookie, some s.server.jobs.length, none⟩] }
  | .server m =>
    if isServerMove m then (s.server.step? (rules cfg) m).map fun server => { s with server }
    else none
  | .respond i requestId cut =>
    (s.pending? i).bind fun (x, j) =>
      (outcome? j).map fun outcome =>
        s.tell i x (apiRequest F .POST x.cookie
          (arriving F (served j.call outcome requestId) cut))
  | .lose i => (s.pending? i).map fun (x, _) => s.tell i x (apiRequest F .POST x.cookie .failed)

abbrev Reached : Exchanges → Exchanges → Prop := Reaches (step? cfg F) fun _ _ => True

structure Sent (s : Exchanges) (i : ℕ) (x : Exchange) (j : Request) : Prop where
  exchange : s.exchanges[i]? = some x
  request : ∃ k, x.request = some k ∧ s.server.jobs[k]? = some j

end Exchanges

end Model

section Bodies

theorem jsonText_distinct (t : Option JsString) : (jsonText t).Distinct := by
  cases t with
  | none => exact .null
  | some s => exact .str s

theorem RiskAssessmentDto.json_distinct (dto : RiskAssessmentDto) : dto.json.Distinct := by
  refine .obj (by decide : [js "score", js "level", js "reasons", js "explanation"].Nodup)
    fun p hp => ?_
  simp only [List.mem_cons, List.not_mem_nil, or_false] at hp
  rcases hp with rfl | rfl | rfl | rfl
  · exact .num _
  · exact .str _
  · refine .arr fun v hv => ?_
    obtain ⟨s, -, rfl⟩ := List.mem_map.1 hv
    exact .str s
  · exact jsonText_distinct _

theorem keys_optionalField (key : String) (value : Option Payload) :
    List.Sublist ((optionalField key value).map Prod.fst) [js key] := by
  cases value with
  | none => exact List.nil_sublist _
  | some v => exact List.Sublist.refl _

theorem TransferDto.json_distinct (dto : TransferDto) : dto.json.Distinct := by
  refine .obj ?_ fun p hp => ?_
  · have hall : [js "transferId", js "status", js "senderUserId", js "receiverUserId",
        js "amountMinor", js "currency", js "note", js "createdAt", js "completedAt",
        js "senderBalanceAfterMinor", js "risk"].Nodup := by decide
    refine hall.sublist ?_
    simp only [List.map_append, List.map_cons, List.cons_append, List.nil_append,
      List.cons_sublist_cons]
    exact (keys_optionalField _ _).append (keys_optionalField _ _)
  · rcases List.mem_append.1 hp with hp | hp
    · simp only [List.mem_cons, List.not_mem_nil, or_false] at hp
      rcases hp with rfl | rfl | rfl | rfl | rfl | rfl | rfl | rfl | rfl
      all_goals first | exact .str _ | exact .num _ | exact jsonText_distinct _
    · rcases List.mem_append.1 hp with hp | hp
      · obtain ⟨n, -, hn⟩ := Option.map_eq_some_iff.1 (optionalField_values hp).symm
        exact hn ▸ .num n
      · obtain ⟨risk, -, hrisk⟩ := Option.map_eq_some_iff.1 (optionalField_values hp).symm
        exact hrisk ▸ risk.json_distinct

theorem MoneyRequestDto.json_distinct (dto : MoneyRequestDto) : dto.json.Distinct := by
  refine .obj (by decide : [js "requestId", js "status", js "requesterUserId", js "payerUserId",
    js "amountMinor", js "currency", js "note", js "acceptedTransferId", js "expiresAt",
    js "createdAt", js "resolvedAt"].Nodup) fun p hp => ?_
  simp only [List.mem_cons, List.not_mem_nil, or_false] at hp
  rcases hp with rfl | rfl | rfl | rfl | rfl | rfl | rfl | rfl | rfl | rfl | rfl
  all_goals first | exact .str _ | exact .num _ | exact jsonText_distinct _

theorem Response.json_distinct (a : Response) : a.json.Distinct := by
  cases a with
  | null => exact .null
  | transfer dto => exact dto.json_distinct
  | moneyRequest dto => exact dto.json_distinct

end Bodies

section Reported

/-- What the outcome of a request lets its client be told. -/
inductive Reported (j : Request) : Promise (Option Payload) → Prop
  | data (a : Response) (h : j.phase = .done (.ok a)) : Reported j (.ok (some a.json))
  /-- The status is one of success, the body is lost. -/
  | unreadable (a : Response) (h : j.phase = .done (.ok a)) (e : ApiError)
    (hs : isOk e.status = true) : Reported j (.error (.api e))
  /-- Where the body is lost, the client falls back on a code of its own. -/
  | error (x : Cause) (h : j.phase = .done (.error x)) (e : ApiError)
    (hs : e.status = x.exception.resolve.status) (herror : 400 ≤ e.status)
    (hc : e.code = .str (js x.exception.resolve.code.text) ∨
      e.code = .str (js "INTERNAL_ERROR")) : Reported j (.error (.api e))
  | ambiguous (e : ApiError) (hs : e.status = 0) (h : e.isAmbiguous) : Reported j (.error (.api e))

theorem Reported.kept {j j' : Request} {o : Promise (Option Payload)} (h : Reported j o)
    (hj : j.Kept j') : Reported j' o := by
  cases h with
  | data a h =>
    rw [hj.done _ h]
    exact .data a h
  | unreadable a h e hs =>
    rw [hj.done _ h]
    exact .unreadable a h e hs
  | error x h e hs herror hc =>
    rw [hj.done _ h]
    exact .error x h e hs herror hc
  | ambiguous e hs h => exact .ambiguous e hs h

variable {F : NumberFormat ℤ} {cookie : CsrfCookie} {token : JsString}

theorem apiRequest_sent (h : ensureCsrfToken cookie = .ok token) (fetched : Fetched) :
    apiRequest F .POST cookie fetched = (settle F .POST fetched).map (property "data") := by
  have hpost : Method.POST ≠ .GET := by decide
  simp only [apiRequest, request, if_pos hpost, h]

theorem isOk_httpStatus (c : Command) : isOk c.httpStatus = true := by
  have h200 : isOk 200 = true := by decide
  have h201 : isOk 201 = true := by decide
  cases c with
  | createDirectTransfer c => exact h201
  | create c => exact h201
  | accept c => exact h200
  | decline c => exact h200
  | cancel c => exact h200

theorem not_isOk {status : ℕ} (h : 400 ≤ status) : isOk status = false := by
  have : ¬ (200 ≤ status ∧ status ≤ 299) := by omega
  exact decide_eq_false this

/-- What is told of an answer that has arrived, whole or cut. -/
theorem told_served (h : ensureCsrfToken cookie = .ok token) {j : Request}
    {outcome : Except Cause Response} (hp : j.phase = .done outcome)
    (hx : ∀ x, outcome = .error x → x.Erroneous) (requestId : JsString) (cut : Bool) :
    Reported j (apiRequest F .POST cookie (arriving F (served j.call outcome requestId) cut)) := by
  rw [apiRequest_sent h]
  cases outcome with
  | ok a =>
    have hok := isOk_httpStatus j.call
    cases cut with
    | true =>
      have hcut := settle_cut F .POST j.call.httpStatus
      rw [if_pos hok] at hcut
      rw [show settle F .POST (arriving F (served j.call (.ok a) requestId) true) = _ from hcut]
      exact .unreadable a hp _ hok
    | false =>
      have hbody : (served j.call (.ok a) requestId).body.Distinct :=
        intercept_distinct (fun v hv => by cases hv; exact a.json_distinct) _ _
      have hsettle := settle_ok F .POST (r := served j.call (.ok a) requestId) hok hbody
        (by rintro ⟨⟩)
      rw [show settle F .POST (arriving F (served j.call (.ok a) requestId) false) = _ from hsettle]
      show Reported j (.ok (property "data" (intercept _ _ requestId).body))
      rw [data_intercept]
      exact .data a hp
  | error x =>
    obtain ⟨hstatus, hdetails⟩ := hx x rfl
    have hok := not_isOk hstatus
    cases cut with
    | true =>
      have hcut := settle_cut F .POST x.exception.resolve.status
      rw [hok] at hcut
      rw [show settle F .POST (arriving F (served j.call (.error x) requestId) true) = _ from hcut]
      exact .error x hp _ rfl hstatus (Or.inr rfl)
    | false =>
      have hsettle := settle_notOk F .POST (r := served j.call (.error x) requestId) hok
        (catchException_distinct hdetails requestId)
      rw [show settle F .POST (arriving F (served j.call (.error x) requestId) false) = _
        from hsettle]
      have herror := errorOf_catch x.exception requestId
      rw [show errorOf (served j.call (.error x) requestId).status
        (served j.call (.error x) requestId).body = _ from herror]
      exact .error x hp _ rfl hstatus (Or.inl rfl)

theorem told_lost (h : ensureCsrfToken cookie = .ok token) (j : Request) :
    Reported j (apiRequest F .POST cookie .failed) := by
  rw [apiRequest_sent h]
  exact .ambiguous _ rfl rfl

end Reported

section Run

variable {cfg : Config} {F : NumberFormat ℤ} {s s' : Exchanges}

namespace Exchanges

theorem pending?_some {i : ℕ} {x : Exchange} {j : Request} (h : s.pending? i = some (x, j)) :
    s.Sent i x j ∧ x.told = none := by
  obtain ⟨x', hx, hrest⟩ := Option.bind_eq_some_iff.1 h
  split_ifs at hrest with hnone
  obtain ⟨k, hk, hrest⟩ := Option.bind_eq_some_iff.1 hrest
  obtain ⟨j', hj, heq⟩ := Option.map_eq_some_iff.1 hrest
  cases heq
  exact ⟨⟨hx, k, hk, hj⟩, Option.isNone_iff_eq_none.1 hnone⟩

theorem outcome?_some {j : Request} {o : Except Cause Response} (h : outcome? j = some o) :
    j.phase = .done o := by
  unfold outcome? at h
  split at h
  · next hp =>
    cases h
    exact hp
  · cases h

inductive Moved (cfg : Config) (F : NumberFormat ℤ) (s : Exchanges) :
    ExchangeMove → Exchanges → Prop
  | unsent (c : Command) (cookie : CsrfCookie) (cause : Rejection)
    (h : ensureCsrfToken cookie = .error cause) :
    Moved cfg F s (.send c cookie)
      { s with exchanges := s.exchanges ++ [⟨c, cookie, none, some (.error cause)⟩] }
  | sent (c : Command) (cookie : CsrfCookie) (token : JsString) (server : Server)
    (h : ensureCsrfToken cookie = .ok token)
    (hs : s.server.step? (rules cfg) (.submit c) = some server) :
    Moved cfg F s (.send c cookie)
      { server, exchanges := s.exchanges ++ [⟨c, cookie, some s.server.jobs.length, none⟩] }
  | server (m : ServerMove) (server : Server) (hm : isServerMove m = true)
    (hs : s.server.step? (rules cfg) m = some server) : Moved cfg F s (.server m) { s with server }
  | respond (i : ℕ) (requestId : JsString) (cut : Bool) (x : Exchange) (j : Request)
    (outcome : Except Cause Response) (hx : s.Sent i x j) (hnone : x.told = none)
    (hp : j.phase = .done outcome) :
    Moved cfg F s (.respond i requestId cut) (s.tell i x
      (apiRequest F .POST x.cookie (arriving F (served j.call outcome requestId) cut)))
  | lose (i : ℕ) (x : Exchange) (j : Request) (hx : s.Sent i x j) (hnone : x.told = none) :
    Moved cfg F s (.lose i) (s.tell i x (apiRequest F .POST x.cookie .failed))

theorem step?_moved {m : ExchangeMove} (h : s.step? cfg F m = some s') : Moved cfg F s m s' := by
  cases m with
  | send c cookie =>
    simp only [step?] at h
    split at h
    · next cause hcookie =>
      cases h
      exact .unsent c cookie cause hcookie
    · next token hcookie =>
      obtain ⟨server, hs, rfl⟩ := Option.map_eq_some_iff.1 h
      exact .sent c cookie token server hcookie hs
  | server m =>
    simp only [step?] at h
    split_ifs at h with hm
    obtain ⟨server, hs, rfl⟩ := Option.map_eq_some_iff.1 h
    exact .server m server hm hs
  | respond i requestId cut =>
    obtain ⟨⟨x, j⟩, hpending, hrest⟩ := Option.bind_eq_some_iff.1 h
    obtain ⟨outcome, hout, rfl⟩ := Option.map_eq_some_iff.1 hrest
    obtain ⟨hx, hnone⟩ := pending?_some hpending
    exact .respond i requestId cut x j outcome hx hnone (outcome?_some hout)
  | lose i =>
    obtain ⟨⟨x, j⟩, hpending, rfl⟩ := Option.map_eq_some_iff.1 h
    obtain ⟨hx, hnone⟩ := pending?_some hpending
    exact .lose i x j hx hnone

/-- Every exchange that has been told anything can rely on it, and every request is the one of
an exchange. -/
structure Sound (s : Exchanges) : Prop where
  sent (i : ℕ) (x : Exchange) (k : ℕ) (hx : s.exchanges[i]? = some x) (hk : x.request = some k) :
    (∃ token, ensureCsrfToken x.cookie = .ok token) ∧
      ∃ j : Request, s.server.jobs[k]? = some j ∧ j.call = x.command ∧
        ∀ o, x.told = some o → Reported j o
  unsent (i : ℕ) (x : Exchange) (hx : s.exchanges[i]? = some x) (hk : x.request = none) :
    ∃ cause, x.told = some (.error cause) ∧ ensureCsrfToken x.cookie = .error cause
  covered (k : ℕ) (hk : k < s.server.jobs.length) :
    ∃ (i : ℕ) (x : Exchange), s.exchanges[i]? = some x ∧ x.request = some k

structure Kept (s : Exchanges) : Prop where
  linked : s.server.Linked none
  reasoned : s.server.Reasoned Failure.IsError Cause.Erroneous
  sound : s.Sound

theorem Kept.initial (db : Db) (clock : Time) : (Exchanges.initial db clock).Kept where
  linked := .initial db clock
  reasoned :=
    { programs := fun k t ht => by simp [Exchanges.initial, Service.initial, Sys.tx] at ht
      reasons := fun i j x hj => by cases hj }
  sound :=
    { sent := fun i x k hx => by cases hx
      unsent := fun i x hx => by cases hx
      covered := fun k hk => (Nat.not_lt_zero k hk).elim }

theorem Sound.server {server : Server} (h : s.Sound)
    (hkept : ∀ (k : ℕ) (j : Request), s.server.jobs[k]? = some j →
      ∃ j', server.jobs[k]? = some j' ∧ j.Kept j')
    (hlength : server.jobs.length = s.server.jobs.length) :
    ({ s with server } : Exchanges).Sound where
  sent i x k hx hk := by
    obtain ⟨htoken, j, hj, hcall, htold⟩ := h.sent i x k hx hk
    obtain ⟨j', hj', hkept'⟩ := hkept k j hj
    exact ⟨htoken, j', hj', hkept'.call.trans hcall, fun o ho => (htold o ho).kept hkept'⟩
  unsent := h.unsent
  covered k hk := h.covered k (hlength ▸ hk)

theorem Sound.tell {i : ℕ} {x : Exchange} {j : Request} {o : Promise (Option Payload)}
    (h : s.Sound) (hx : s.Sent i x j) (ho : Reported j o) : (s.tell i x o).Sound := by
  obtain ⟨hx, k, hk, hj⟩ := hx
  have hset {i' : ℕ} {y : Exchange} (hy : (s.tell i x o).exchanges[i']? = some y) :
      (i' = i ∧ y = { x with told := some o }) ∨ s.exchanges[i']? = some y := by
    rw [Exchanges.tell, List.getElem?_set] at hy
    split_ifs at hy with hi hlt
    · exact Or.inl ⟨hi.symm, (Option.some.inj hy).symm⟩
    · exact Or.inr hy
  refine ⟨fun i' y k' hy hk' => ?_, fun i' y hy hk' => ?_, fun k' hk' => ?_⟩
  · rcases hset hy with ⟨-, rfl⟩ | hy
    · obtain ⟨htoken, j', hj', hcall, -⟩ := h.sent i x k hx hk
      obtain rfl := Option.some.inj (hk.symm.trans hk')
      obtain rfl := Option.some.inj (hj.symm.trans hj')
      refine ⟨htoken, j, hj, hcall, fun o' ho' => ?_⟩
      cases ho'
      exact ho
    · exact h.sent i' y k' hy hk'
  · rcases hset hy with ⟨-, rfl⟩ | hy
    · rw [hk] at hk'
      cases hk'
    · exact h.unsent i' y hy hk'
  · obtain ⟨i', y, hy, hk''⟩ := h.covered k' hk'
    by_cases hi : i = i'
    · subst hi
      obtain rfl := Option.some.inj (hx.symm.trans hy)
      exact ⟨i, _, List.getElem?_set_self (List.getElem?_eq_some_iff.1 hx).1, hk''⟩
    · exact ⟨i', y, (List.getElem?_set_ne hi).trans hy, hk''⟩

theorem Sound.snoc {x : Exchange} {server : Server} (h : s.Sound)
    (hkept : ∀ (k : ℕ) (j : Request), s.server.jobs[k]? = some j → server.jobs[k]? = some j)
    (hsent : ∀ k, x.request = some k → (∃ token, ensureCsrfToken x.cookie = .ok token) ∧
      ∃ j : Request, server.jobs[k]? = some j ∧ j.call = x.command ∧
        ∀ o, x.told = some o → Reported j o)
    (hunsent : x.request = none →
      ∃ cause, x.told = some (.error cause) ∧ ensureCsrfToken x.cookie = .error cause)
    (hcovered : ∀ k < server.jobs.length, s.server.jobs.length ≤ k → x.request = some k) :
    ({ server, exchanges := s.exchanges ++ [x] } : Exchanges).Sound where
  sent i y k hy hk := by
    rcases Tries.mem_snoc hy with rfl | hy
    · exact hsent k hk
    · obtain ⟨htoken, j, hj, htold⟩ := h.sent i y k hy hk
      exact ⟨htoken, j, hkept k j hj, htold⟩
  unsent i y hy hk := by
    rcases Tries.mem_snoc hy with rfl | hy
    · exact hunsent hk
    · exact h.unsent i y hy hk
  covered k hk := by
    by_cases hlt : k < s.server.jobs.length
    · obtain ⟨i, y, hy, hyk⟩ := h.covered k hlt
      exact ⟨i, y, (List.getElem?_append_left (List.getElem?_eq_some_iff.1 hy).1).trans hy, hyk⟩
    · exact ⟨s.exchanges.length, x, List.getElem?_concat_length,
        hcovered k hk (not_lt.1 hlt)⟩

theorem Kept.step {m : ExchangeMove} (h : s.Kept) (hs : s.step? cfg F m = some s') : s'.Kept := by
  have hserver {m : ServerMove} {server : Server} (hm : m.Brings Cause.Erroneous)
      (hs : s.server.step? (rules cfg) m = some server) :
      server.Linked none ∧ server.Reasoned Failure.IsError Cause.Erroneous :=
    ⟨h.linked.step hs, h.reasoned.step (body_failsWell cfg) (fun _ _ _ _ => exec_isError)
      (fun _ => Cause.erroneous_of_isError) hm hs⟩
  cases step?_moved hs with
  | unsent c cookie cause hcookie =>
    refine ⟨h.linked, h.reasoned, h.sound.snoc (fun _ _ hj => hj) (fun k hk => by cases hk)
      (fun _ => ⟨cause, rfl, hcookie⟩) (fun k hk hle => absurd hk (not_lt.2 hle))⟩
  | sent c cookie token server hcookie hsubmit =>
    obtain ⟨hlinked, hreasoned⟩ := hserver (m := .submit c) trivial hsubmit
    cases hsubmit
    refine ⟨hlinked, hreasoned, h.sound.snoc (fun k j hj =>
      (List.getElem?_append_left (List.getElem?_eq_some_iff.1 hj).1).trans hj)
      (fun k hk => ⟨⟨token, hcookie⟩, ?_⟩) (fun hk => by cases hk) (fun k hk hle => ?_)⟩
    · cases hk
      exact ⟨_, List.getElem?_concat_length, rfl, fun o ho => by cases ho⟩
    · rw [List.length_append, List.length_singleton] at hk
      exact congrArg some (by omega)
  | server m server hm hmove =>
    obtain ⟨hlinked, hreasoned⟩ := hserver (brings_of_isServerMove hm) hmove
    refine ⟨hlinked, hreasoned, h.sound.server (fun k j hj => Tries.job_kept hmove hj) ?_⟩
    rcases Tries.jobs_length hmove with ⟨c, rfl⟩ | hlength
    · cases hm
    · exact hlength
  | respond i requestId cut x j outcome hx hnone hp =>
    obtain ⟨k, hk, hj⟩ := hx.request
    obtain ⟨⟨token, htoken⟩, -⟩ := h.sound.sent i x k hx.exchange hk
    refine ⟨h.linked, h.reasoned, h.sound.tell hx (told_served htoken hp ?_ requestId cut)⟩
    rintro y rfl
    exact h.reasoned.reasons k j y hj hp
  | lose i x j hx hnone =>
    obtain ⟨k, hk, -⟩ := hx.request
    obtain ⟨⟨token, htoken⟩, -⟩ := h.sound.sent i x k hx.exchange hk
    exact ⟨h.linked, h.reasoned, h.sound.tell hx (told_lost htoken j)⟩

theorem Kept.reach {s₀ : Exchanges} (h₀ : s₀.Kept) (h : Reached cfg F s₀ s) : s.Kept := by
  induction h with
  | refl => exact h₀
  | tail m _ _ hs ih => exact ih.step hs

/-- The transactions run as they do without the clients. -/
theorem server_reach {s₀ : Exchanges} (h : Reached cfg F s₀ s) :
    Sys.Reach (body cfg) Open s₀.server.sys s.server.sys := by
  induction h with
  | refl => exact .refl
  | tail m _ _ hs ih =>
    cases step?_moved hs with
    | unsent c cookie cause hcookie => exact ih
    | sent c cookie token server hcookie hsubmit => exact ih.trans _ (Tries.sys_step hsubmit)
    | server m server hm hmove => exact ih.trans _ (Tries.sys_step hmove)
    | respond i requestId cut x j outcome hx hnone hp => exact ih
    | lose i x j hx hnone => exact ih

/-- What an exchange has been told stays, and so do its request and its command. -/
theorem exchange_kept {s₀ : Exchanges} (h : Reached cfg F s₀ s) {i : ℕ} {x : Exchange}
    (hx : s₀.exchanges[i]? = some x) :
    ∃ x', s.exchanges[i]? = some x' ∧ x'.request = x.request ∧ ∀ o, x.told = some o → x' = x := by
  induction h with
  | refl => exact ⟨x, hx, rfl, fun _ _ => rfl⟩
  | tail m _ _ hs ih =>
    obtain ⟨x', hx', hrequest, hstays⟩ := ih
    have hsnoc {y : Exchange} {l : List Exchange} (hl : l[i]? = some x') :
        (l ++ [y])[i]? = some x' :=
      (List.getElem?_append_left (List.getElem?_eq_some_iff.1 hl).1).trans hl
    have htell {s₁ : Exchanges} {i' : ℕ} {y : Exchange} {o : Promise (Option Payload)}
        (hl : s₁.exchanges[i]? = some x') (hy : s₁.exchanges[i']? = some y)
        (hnone : y.told = none) :
        ∃ x'', (s₁.tell i' y o).exchanges[i]? = some x'' ∧ x''.request = x.request ∧
          ∀ o, x.told = some o → x'' = x := by
      by_cases hi : i' = i
      · subst hi
        obtain rfl := Option.some.inj (hl.symm.trans hy)
        refine ⟨_, List.getElem?_set_self (List.getElem?_eq_some_iff.1 hl).1, hrequest,
          fun o' ho' => ?_⟩
        rw [hstays o' ho', ho'] at hnone
        cases hnone
      · exact ⟨x', (List.getElem?_set_ne hi).trans hl, hrequest, hstays⟩
    cases step?_moved hs with
    | unsent c cookie cause hcookie => exact ⟨x', hsnoc hx', hrequest, hstays⟩
    | sent c cookie token server hcookie hsubmit => exact ⟨x', hsnoc hx', hrequest, hstays⟩
    | server m server hm hmove => exact ⟨x', hx', hrequest, hstays⟩
    | respond i' requestId cut y j outcome hy hnone hp => exact htell hx' hy.exchange hnone
    | lose i' y j hy hnone => exact htell hx' hy.exchange hnone

end Exchanges

end Run

section Truth

variable {cfg : Config} {F : NumberFormat ℤ} {db₀ : Db} {clock : Time} {s s' : Exchanges}

/-- The command has taken effect, and its record answers with `a` from now on. -/
structure Exchanges.Effective (cfg : Config) (s : Exchanges) (c : Command) (j : Request)
    (a : Response) : Prop where
  committed : ∃ p, s.server.Committed j a p
  recorded : ∃ r, s.server.sys.db.record? c.key = some r ∧ r.requestHash = c.hash cfg ∧
    r.responseBody = some a

/-- What the client has been told is true. -/
inductive Exchanges.Truthful (cfg : Config) (s : Exchanges) (c : Command) (j : Request) :
    Promise (Option Payload) → Prop
  | data (a : Response) (h : s.Effective cfg c j a) : Truthful cfg s c j (.ok (some a.json))
  | unreadable (a : Response) (h : s.Effective cfg c j a) (e : ApiError)
    (hs : isOk e.status = true) : Truthful cfg s c j (.error (.api e))
  | error (x : Cause) (h : j.phase = .done (.error x)) (hnone : j.commit = none) (e : ApiError)
    (hs : e.status = x.exception.resolve.status) (herror : 400 ≤ e.status)
    (hc : e.code = .str (js x.exception.resolve.code.text) ∨
      e.code = .str (js "INTERNAL_ERROR")) : Truthful cfg s c j (.error (.api e))
  | ambiguous (e : ApiError) (hs : e.status = 0) (h : e.isAmbiguous) :
    Truthful cfg s c j (.error (.api e))

namespace Exchanges

theorem initial_reach (h : Reached cfg F (Exchanges.initial db₀ clock) s) :
    Sys.Reach (body cfg) Open (Service.initial db₀ clock) s.server.sys := server_reach h

/-- A request that is done with a result has taken effect. -/
theorem effective (h₀ : Start db₀) (h : Reached cfg F (Exchanges.initial db₀ clock) s) {k : ℕ}
    {j : Request} {c : Command} {a : Response} (hj : s.server.jobs[k]? = some j)
    (hcall : j.call = c) (hp : j.phase = .done (.ok a)) : s.Effective cfg c j a := by
  subst hcall
  have hreach := initial_reach h
  obtain ⟨p, hcommitted⟩ := ((Kept.initial db₀ clock).reach h).linked.done k j a hj hp
  obtain ⟨ds, hlog⟩ := hcommitted.logged
  have hended : (⟨j.call, ds, .ok a⟩ : Ended store Command Response) ∈ s.server.sys.ended :=
    List.mem_filterMap.2 ⟨_, List.mem_of_getElem? hlog, rfl⟩
  obtain ⟨r, hr⟩ := ended_answered h₀ hreach hended rfl
  obtain ⟨b, hb, -⟩ := (recorded h₀ hreach).bodies r (List.mem_of_find?_eq_some hr.found)
  refine ⟨⟨p, hcommitted⟩, r, hr.found, hr.hash, ?_⟩
  have hbody := hr.body
  rw [hb, Option.getD_some] at hbody
  rw [hb, hbody]

theorem truthful (h₀ : Start db₀) (h : Reached cfg F (Exchanges.initial db₀ clock) s) {k : ℕ}
    {j : Request} {c : Command} {o : Promise (Option Payload)} (hj : s.server.jobs[k]? = some j)
    (hcall : j.call = c) (ho : Reported j o) : s.Truthful cfg c j o := by
  cases ho with
  | data a hp => exact .data a (effective h₀ h hj hcall hp)
  | unreadable a hp e hs => exact .unreadable a (effective h₀ h hj hcall hp) e hs
  | error x hp e hs herror hc =>
    have hnone := ((Kept.initial db₀ clock).reach h).linked.uncommitted hj fun a ha => by
      rw [hp] at ha
      cases ha
    exact .error x hp hnone e hs herror hc
  | ambiguous e hs ha => exact .ambiguous e hs ha

/-- A client that is told data or an unreadable success knows that its command has taken
effect, one that is told another error that its own request has committed nothing and never
will; otherwise it is told that the outcome is ambiguous, or nothing was sent. What it was told
stays true. -/
theorem client_learns_the_truth (h₀ : Start db₀)
    (h : Reached cfg F (Exchanges.initial db₀ clock) s) {i : ℕ} {x : Exchange}
    {o : Promise (Option Payload)} (hx : s.exchanges[i]? = some x) (ho : x.told = some o)
    (h' : Reached cfg F s s') :
    s'.exchanges[i]? = some x ∧
      ((x.request = none ∧ ∃ cause, o = .error cause ∧
          ensureCsrfToken x.cookie = .error cause) ∨
        ∃ j, s'.Sent i x j ∧ s'.Truthful cfg x.command j o) := by
  obtain ⟨x', hx', -, hstays⟩ := exchange_kept h' hx
  obtain rfl := hstays o ho
  have hreach : Reached cfg F (Exchanges.initial db₀ clock) s' := h.trans h'
  have hsound := ((Kept.initial db₀ clock).reach hreach).sound
  refine ⟨hx', ?_⟩
  cases hk : x'.request with
  | none =>
    obtain ⟨cause, hcause, hcookie⟩ := hsound.unsent i x' hx' hk
    rw [ho, Option.some.injEq] at hcause
    exact Or.inl ⟨rfl, cause, hcause, hcookie⟩
  | some k =>
    obtain ⟨-, j, hj, hcall, htold⟩ := hsound.sent i x' k hx' hk
    exact Or.inr ⟨j, ⟨hx', k, hk, hj⟩, truthful h₀ hreach hj hcall (htold o ho)⟩

def sampleCookie : CsrfCookie := ⟨some (js "t"), true, none⟩

def handled (k i n id : ℕ) : List ExchangeMove :=
  .server (.start k) :: (steps i n id).map (fun l => .server (.other l)) ++ [.server (.finish k)]

def sentAgain : List ExchangeMove :=
  [.send (sampleTransfer 1 2 300) sampleCookie, .lose 0] ++ handled 0 0 22 100 ++
    .send (sampleTransfer 1 2 300) sampleCookie :: handled 1 1 2 200 ++
      [.respond 1 (js "r") false]

theorem of_runs {ms : List ExchangeMove} {p : Exchanges → Bool}
    (h : (runs (step? sampleConfig integers) (Exchanges.initial sampleDb 50) ms).any p) :
    ∃ s, Reached sampleConfig integers (Exchanges.initial sampleDb 50) s ∧ p s := by
  obtain ⟨s, hs, hp⟩ := (Option.any_eq_true _ _).1 h
  exact ⟨s, reaches_of_runs hs fun _ _ _ => trivial, hp⟩

def hasData (s : Exchanges) (i : ℕ) : Bool :=
  (s.exchanges[i]?).any fun x => x.told.any Except.isOk

theorem hasData_spec {s : Exchanges} {i : ℕ} (h : s.hasData i = true) :
    ∃ x d, s.exchanges[i]? = some x ∧ x.told = some (.ok d) := by
  obtain ⟨x, hx, hany⟩ := (Option.any_eq_true _ _).1 h
  obtain ⟨o, ho, hok⟩ := (Option.any_eq_true _ _).1 hany
  cases o with
  | ok d => exact ⟨x, d, hx, ho⟩
  | error e => cases hok

theorem client_learns_the_truth_again : ∃ (s : Exchanges) (x : Exchange) (d : Option Payload),
    s.exchanges[1]? = some x ∧ x.told = some (.ok d) ∧
      ∃ j, s.Sent 1 x j ∧ s.Truthful sampleConfig x.command j (.ok d) := by
  have hrun : (runs (step? sampleConfig integers) (Exchanges.initial sampleDb 50) sentAgain).any
      (fun s => s.hasData 1) := by
    decide +kernel
  obtain ⟨s, hs, hdata⟩ := of_runs hrun
  obtain ⟨x, d, hx, hd⟩ := hasData_spec hdata
  obtain ⟨-, ⟨-, cause, hcause, -⟩ | htruth⟩ :=
    client_learns_the_truth sampleDb_start hs hx hd .refl
  · cases hcause
  · exact ⟨s, x, d, hx, hd, htruth⟩

end Exchanges

end Truth

section Keys

variable {cfg : Config} {F : NumberFormat ℤ} {db₀ : Db} {clock : Time} {s s₁ s' : Exchanges}

/-- Every record was left by a call with its key. -/
theorem record_ended (h₀ : Start db₀) {s : Service}
    (h : Sys.Reach (body cfg) Open (Service.initial db₀ clock) s) {r : IdempotencyRecord}
    (hr : r ∈ s.db.idempotencyRecords) :
    ∃ x ∈ s.ended, x.call.key = r.key ∧ ∃ a, x.outcome = .ok a := by
  refine explained_induction
    (motive := fun log v => ∀ r ∈ v.idempotencyRecords, ∃ x ∈ log.filterMap Event.ended?,
      x.call.key = r.key ∧ ∃ a, x.outcome = .ok a) h₀.good ?_
    (fun log v c ds a v' _ ih he => ?_) (fun log v r' v' _ ih hr => ?_)
    (fun log v c ds e _ ih r hr => ?_) (fun log v c ih r hr => ?_) (open_inv h₀.good h).explained
    r hr
  · rw [h₀.idempotencyRecords]
    exact fun r hr => (List.not_mem_nil hr).elim
  · have hold (r : IdempotencyRecord) (hr : r ∈ v.idempotencyRecords) :
        ∃ x ∈ (log ++ [Event.ended ⟨c, ds, .ok a⟩]).filterMap Event.ended?,
          x.call.key = r.key ∧ ∃ a, x.outcome = .ok a := by
      obtain ⟨x, hx, hfacts⟩ := ih r hr
      exact ⟨x, Sys.mem_ended_snoc.2 (Or.inl hx), hfacts⟩
    cases he with
    | replay => exact hold
    | act x recordId =>
      intro r hr
      rcases List.mem_append.1 hr with hr | hr
      · exact hold r (apply_records (x := x) (v := v) ▸ hr)
      · rw [List.mem_singleton.1 hr]
        exact ⟨_, Sys.mem_ended_snoc.2 (Or.inr rfl), rfl, _, rfl⟩
  · obtain ⟨-, -, -, rfl⟩ := register_spec hr
    intro r hr
    obtain ⟨x, hx, hfacts⟩ := ih r hr
    exact ⟨x, Sys.mem_ended_snoc.2 (Or.inl hx), hfacts⟩
  · obtain ⟨x, hx, hfacts⟩ := ih r hr
    exact ⟨x, Sys.mem_ended_snoc.2 (Or.inl hx), hfacts⟩
  · obtain ⟨x, hx, hfacts⟩ := ih r hr
    exact ⟨x, Sys.mem_ended_snoc.2 (Or.inl hx), hfacts⟩

namespace Exchanges

/-- Data comes from an effect. -/
theorem effective_of_data (h₀ : Start db₀) (h : Reached cfg F (Exchanges.initial db₀ clock) s)
    {i : ℕ} {x : Exchange} {d : Option Payload} (hx : s.exchanges[i]? = some x)
    (hd : x.told = some (.ok d)) : ∃ (k : ℕ) (j : Request) (a : Response), x.request = some k ∧
      s.server.jobs[k]? = some j ∧ j.call = x.command ∧ d = some a.json ∧
        s.Effective cfg x.command j a := by
  have hsound := ((Kept.initial db₀ clock).reach h).sound
  cases hk : x.request with
  | none =>
    obtain ⟨cause, hcause, -⟩ := hsound.unsent i x hx hk
    rw [hd] at hcause
    cases hcause
  | some k =>
    obtain ⟨-, j, hj, hcall, htold⟩ := hsound.sent i x k hx hk
    cases htold _ hd with
    | data a hp => exact ⟨k, j, a, rfl, hj, hcall, rfl, effective h₀ h hj hcall hp⟩

/-- Under one key all who are told data are told the same, whatever they have sent; and as
long as everyone who has sent it is told an error, nothing has been done under it. -/
theorem told_of_one_key (h₀ : Start db₀) (h : Reached cfg F (Exchanges.initial db₀ clock) s)
    (key : RecordKey) :
    (∀ x ∈ s.exchanges, ∀ x' ∈ s.exchanges, x.command.key = key → x'.command.key = key →
      ∀ d d', x.told = some (.ok d) → x'.told = some (.ok d') → d = d') ∧
    ((∀ x ∈ s.exchanges, x.command.key = key → x.request.isSome →
        ∃ e, x.told = some (.error (.api e)) ∧ 400 ≤ e.status) →
      s.server.sys.db.record? key = none) := by
  have hkept := (Kept.initial db₀ clock).reach h
  refine ⟨fun x hx x' hx' hkey hkey' d d' hd hd' => ?_, fun hall => ?_⟩
  · obtain ⟨i, hx⟩ := List.getElem?_of_mem hx
    obtain ⟨i', hx'⟩ := List.getElem?_of_mem hx'
    obtain ⟨k, j, a, -, -, -, rfl, -, r, hr, -, ha⟩ := effective_of_data h₀ h hx hd
    obtain ⟨k', j', a', -, -, -, rfl, -, r', hr', -, ha'⟩ := effective_of_data h₀ h hx' hd'
    rw [hkey] at hr
    rw [hkey'] at hr'
    obtain rfl := Option.some.inj (hr.symm.trans hr')
    rw [Option.some.inj (ha.symm.trans ha')]
  · cases hrecord : s.server.sys.db.record? key with
    | none => rfl
    | some r =>
      -- The call that left the record is a request, and that of an exchange.
      obtain ⟨⟨c, ds, o⟩, hended, hkey, a, rfl⟩ :=
        record_ended h₀ (initial_reach h) (List.mem_of_find?_eq_some hrecord)
      obtain ⟨e, he, heq⟩ := List.mem_filterMap.1 hended
      obtain ⟨p, hp⟩ := List.getElem?_of_mem he
      cases e with
      | ended e =>
        cases heq
        obtain ⟨k, j, hj, hcommit⟩ := hkept.linked.covered p _ a hp rfl
        obtain ⟨b, hb, hcommitted⟩ := hkept.linked.committed k j p hj hcommit
        obtain ⟨ds', hlog⟩ := hcommitted.logged
        cases hp.symm.trans hlog
        obtain ⟨i, x, hx, hk⟩ := hkept.sound.covered k (List.getElem?_eq_some_iff.1 hj).1
        obtain ⟨-, j', hj', hcall, htold⟩ := hkept.sound.sent i x k hx hk
        obtain rfl := Option.some.inj (hj.symm.trans hj')
        have hxkey : x.command.key = key := by
          rw [← hcall]
          exact hkey.trans (find?_spec hrecord).2
        obtain ⟨e, he, herror⟩ := hall x (List.mem_of_getElem? hx) hxkey (by rw [hk]; rfl)
        cases htold _ he with
        | unreadable a' _ _ hs =>
          rw [not_isOk herror] at hs
          cases hs
        | error y hy =>
          rw [hb] at hy
          cases hy
        | ambiguous _ hs =>
          rw [hs] at herror
          exact absurd herror (by decide)
      | killed c => cases heq
      | external r => cases heq

def toldTwice : List ExchangeMove :=
  .send (sampleTransfer 1 2 300) sampleCookie :: handled 0 0 22 100 ++
    [.respond 0 (js "r") false, .send (sampleTransfer 1 2 300) sampleCookie] ++
      handled 1 1 2 200 ++ [.respond 1 (js "r") false]

theorem told_of_one_key_twice : ∃ (s : Exchanges) (x x' : Exchange) (d d' : Option Payload),
    s.exchanges[0]? = some x ∧ s.exchanges[1]? = some x' ∧ x.told = some (.ok d) ∧
      x'.told = some (.ok d') ∧ d = d' := by
  have hrun : (runs (step? sampleConfig integers) (Exchanges.initial sampleDb 50) toldTwice).any
      (fun s => s.exchanges.map Exchange.command =
        [sampleTransfer 1 2 300, sampleTransfer 1 2 300] ∧ s.hasData 0 ∧ s.hasData 1) := by
    decide +kernel
  obtain ⟨s, hs, hfacts⟩ := of_runs hrun
  obtain ⟨hcommands, h0, h1⟩ := of_decide_eq_true hfacts
  obtain ⟨x, d, hx, hd⟩ := hasData_spec h0
  obtain ⟨x', d', hx', hd'⟩ := hasData_spec h1
  have hkey {y : Exchange} (hy : y ∈ s.exchanges) :
      y.command.key = (sampleTransfer 1 2 300).key := by
    have hmem := List.mem_map_of_mem (f := Exchange.command) hy
    rw [hcommands, List.mem_pair] at hmem
    exact congrArg Command.key (hmem.elim id id)
  have hmem := List.mem_of_getElem? hx
  have hmem' := List.mem_of_getElem? hx'
  exact ⟨s, x, x', d, d', hx, hx', hd, hd', (told_of_one_key sampleDb_start hs _).1 x hmem x' hmem'
    (hkey hmem) (hkey hmem') d d' hd hd'⟩

def Took (s : Exchanges) (p : ℕ) (c : Command) (d : Option Payload) : Prop :=
  ∃ (ds : List (Draw Time Uuid)) (a : Response),
    s.server.sys.log[p]? = some (.ended ⟨c, ds, .ok a⟩) ∧ d = some a.json

end Exchanges

end Keys

end MoneyMovement
