import MoneyMovement.Runs.Commits

/-!
# One effect for each idempotency key

Committed records are complete, one for each key, and the records of each route
stand in bijection with the transfers or requests that route has brought about.
-/

namespace MoneyMovement

open Txn IdempotencyService TransferService MoneyRequestService

def Db.onRoute (db : Db) (route : RouteKey) : List IdempotencyRecord :=
  db.idempotencyRecords.filter (·.key.routeKey = route)

def Db.requestsIn (db : Db) (status : MoneyRequestStatus) : List MoneyRequest :=
  db.moneyRequests.filter (·.status = status)

def Db.effectsOf (db : Db) : RouteKey → List Uuid
  | .transfers => (db.transfers.filter (·.sourceType = .DIRECT)).map Transfer.id
  | .create => db.moneyRequests.map MoneyRequest.id
  | .accept => (db.requestsIn .ACCEPTED).map MoneyRequest.id
  | .decline => (db.requestsIn .DECLINED).map MoneyRequest.id
  | .cancel => (db.requestsIn .CANCELLED).map MoneyRequest.id

variable {cfg : Config} {db₀ v v' : Db} {clock : Time} {s : Service} {ds : List (Draw Time Uuid)}
  {c : Command} {a : Response}

section Effects

theorem mem_of_request? {u : Uuid} {r : MoneyRequest} (h : v.request? u = some r) :
    r ∈ v.moneyRequests :=
  List.mem_of_find?_eq_some h

section Resolved

variable {r : MoneyRequest} {f : MoneyRequest → MoneyRequest} {status : MoneyRequestStatus}

/-- A resolved request joins those with its new status. -/
theorem requestsIn_resolve (hids : (v.moneyRequests.map MoneyRequest.id).Nodup)
    (hr : r ∈ v.moneyRequests) (hpending : r.status = .PENDING) (hkey : (f r).id = r.id)
    (hother : ∀ r' ∈ v.moneyRequests, r'.id ≠ r.id → f r' = r') (hstatus : (f r).status = status)
    {st : MoneyRequestStatus} (hst : st ≠ .PENDING) :
    (((v.moneyRequests.map f).filter (·.status = st)).map MoneyRequest.id).Perm
      (if st = status then r.id :: (v.requestsIn st).map MoneyRequest.id
        else (v.requestsIn st).map MoneyRequest.id) := by
  have hupdate := update_keys (p := fun x => decide (x.status = st)) hids hr hkey hother
  split_ifs with heq
  · refine hupdate.1 ⟨?_, ?_⟩
    · simpa [hpending] using Ne.symm hst
    · simpa [hstatus] using heq.symm
  · refine List.Perm.of_eq (hupdate.2 ?_)
    rw [hpending, hstatus, decide_eq_decide]
    exact ⟨fun h => absurd h.symm heq, fun h => absurd h.symm hst⟩

inductive Stores : RouteKey → MoneyRequestStatus → Prop
  | accept : Stores .accept .ACCEPTED
  | decline : Stores .decline .DECLINED
  | cancel : Stores .cancel .CANCELLED

theorem effectsOf_resolve {route₀ : RouteKey} (hids : (v.moneyRequests.map MoneyRequest.id).Nodup)
    (hr : r ∈ v.moneyRequests) (hpending : r.status = .PENDING) (hkey : ∀ r', (f r').id = r'.id)
    (hother : ∀ r' ∈ v.moneyRequests, r'.id ≠ r.id → f r' = r') (hstatus : (f r).status = status)
    (hstores : Stores route₀ status) (hreq : v'.moneyRequests = v.moneyRequests.map f)
    (hdirect : v'.effectsOf .transfers = v.effectsOf .transfers) (route : RouteKey) :
    (v'.effectsOf route).Perm
      (if route = route₀ then r.id :: v.effectsOf route else v.effectsOf route) := by
  have hmoved {st : MoneyRequestStatus} (hst : st ≠ .PENDING) :=
    requestsIn_resolve hids hr hpending (hkey r) hother hstatus hst
  have hcreate : v'.effectsOf .create = v.effectsOf .create := by
    simp only [Db.effectsOf, hreq, List.map_map]
    exact List.map_congr_left (fun r' _ => hkey r')
  simp only [← hreq] at hmoved
  cases hstores <;> cases route <;>
    first
    | exact List.Perm.of_eq hdirect
    | exact List.Perm.of_eq hcreate
    | exact hmoved (by decide)

end Resolved

/-- An action adds one effect to its own route and none to the others. -/
theorem Does.effectsOf {x : Action} (h : Does cfg v ds c x)
    (hids : (v.moneyRequests.map MoneyRequest.id).Nodup) (route : RouteKey) :
    ((x.apply v).effectsOf route).Perm
      (if route = c.key.routeKey then x.resourceId :: v.effectsOf route
        else v.effectsOf route) := by
  cases h with
  | transfer c z hz =>
    cases route with
    | transfers =>
      have hsplit : ((Action.transfer (transferInput c) z).apply v).effectsOf .transfers =
          v.effectsOf .transfers ++ [z.inserted.id] := by
        simp only [Db.effectsOf, Action.apply, Settlement.apply, List.filter_append,
          List.map_append]
        rfl
      rw [hsplit]
      exact List.perm_append_singleton _ _
    | _ => exact List.Perm.refl _
  | create c payer user inserted event now =>
    have hsame {st : MoneyRequestStatus} (hst : st ≠ .PENDING) :
        (v.moneyRequests ++ [Action.createdRow c payer inserted]).filter (·.status = st) =
          v.requestsIn st := by
      rw [List.filter_append, List.filter_cons]
      simp [Action.createdRow, pendingRequest, Ne.symm hst, Db.requestsIn]
    cases route with
    | transfers => exact List.Perm.refl _
    | create =>
      simp only [Db.effectsOf, Action.apply, List.map_append]
      exact List.perm_append_singleton _ _
    | _ => exact List.Perm.of_eq (congrArg (List.map MoneyRequest.id) (hsame (by decide)))
  | accept c r z resolvedAt event now hr =>
    refine effectsOf_resolve hids (mem_of_request? hr.found) hr.pending (accept_id _ _ _)
      (fun r' _ hne => accept_of_ne hne) ?_ .accept rfl ?_ route
    · rw [MoneyRequest.accept, if_pos rfl]
    · simp only [Db.effectsOf, Action.apply, Settlement.apply, List.filter_append]
      simp [Settlement.transfer, pendingTransfer, transferData, TransferSource.type]
  | decline c r resolvedAt event now hr =>
    refine effectsOf_resolve hids (mem_of_request? hr.found) hr.pending (resolve_id _ _ _)
      (fun r' _ hne => resolve_of_ne hne) ?_ .decline rfl ?_ route
    · rw [MoneyRequest.resolve, if_pos rfl]
      rfl
    · rfl
  | cancel c r resolvedAt event now hr =>
    refine effectsOf_resolve hids (mem_of_request? hr.found) hr.pending (resolve_id _ _ _)
      (fun r' _ hne => resolve_of_ne hne) ?_ .cancel rfl ?_ route
    · rw [MoneyRequest.resolve, if_pos rfl]
      rfl
    · rfl

end Effects

section Invariant

/-- Keys and ids are unique, and the records of a route are its effects. -/
structure Recorded (v : Db) : Prop where
  keys : (v.idempotencyRecords.map IdempotencyRecord.key).Nodup
  bodies : ∀ r ∈ v.idempotencyRecords, ∃ b, r.responseBody = some b ∧ b ≠ .null
  transferIds : (v.transfers.map Transfer.id).Nodup
  requestIds : (v.moneyRequests.map MoneyRequest.id).Nodup
  matched : ∀ route, ((v.onRoute route).map IdempotencyRecord.resourceId).Perm
    ((v.effectsOf route).map some)

theorem onRoute_withRecord (r : IdempotencyRecord) (route : RouteKey) :
    (v.withRecord r).onRoute route =
      v.onRoute route ++ if route = r.key.routeKey then [r] else [] := by
  simp only [Db.onRoute, Db.withRecord, List.filter_append, List.filter_cons, List.filter_nil,
    decide_eq_true_eq, eq_comm (a := r.key.routeKey)]

theorem Does.requestIds {x : Action} (h : Does cfg v ds c x)
    (hids : (v.moneyRequests.map MoneyRequest.id).Nodup) :
    ((x.apply v).moneyRequests.map MoneyRequest.id).Nodup := by
  cases h with
  | transfer c z hz => exact hids
  | create c payer user inserted event now _ _ _ _ _ _ _ hfresh =>
    simpa [Action.apply, List.nodup_append, hids, Action.createdRow, pendingRequest] using hfresh
  | accept => simpa [Action.apply, Function.comp_def] using hids
  | decline => simpa [Action.apply, Function.comp_def] using hids
  | cancel => simpa [Action.apply, Function.comp_def] using hids

theorem Settles.transferIds {input : SettleInput} {source : TransferSource} {z : Settlement}
    (h : Settles cfg input source v ds z) (hids : (v.transfers.map Transfer.id).Nodup) :
    ((z.apply input source v).transfers.map Transfer.id).Nodup := by
  simpa [Settlement.apply, List.nodup_append, hids, Settlement.transfer, pendingTransfer]
    using h.fresh

theorem response_ne_null (x : Action) : x.response ≠ .null := by
  cases x <;> rintro ⟨⟩

theorem Recorded.effect (h : Recorded v) (he : Effect cfg v ds c a v') : Recorded v' := by
  have htransfers : (v'.transfers.map Transfer.id).Nodup := by
    rcases he.money with ⟨-, ht, -⟩ | ⟨input, source, z, hz, -, ht, -⟩
    · exact ht ▸ h.transferIds
    · exact ht ▸ hz.transferIds h.transferIds
  cases he with
  | replay r hr hkey hhash => exact h
  | act x recordId hclaim hdoes =>
    refine ⟨?_, ?_, htransfers, hdoes.requestIds h.requestIds, fun route => ?_⟩
    · simpa [Db.withRecord, List.nodup_append, h.keys, storedRecord] using hclaim.unused
    · intro r hr
      rcases List.mem_append.1 hr with hr | hr
      · exact h.bodies r (apply_records (x := x) (v := v) ▸ hr)
      · rw [List.mem_singleton.1 hr]
        exact ⟨x.response, rfl, response_ne_null x⟩
    · have heffects := (hdoes.effectsOf h.requestIds route).map some
      have hrecords : (x.apply v).onRoute route = v.onRoute route := by
        simp only [Db.onRoute, apply_records]
      have hsame : ((x.apply v).withRecord (storedRecord c.key (c.hash cfg)
          (x.completion recordId))).effectsOf route = (x.apply v).effectsOf route := by
        cases route <;> rfl
      rw [onRoute_withRecord, hsame, hrecords]
      refine List.Perm.trans ?_ heffects.symm
      by_cases hroute : route = c.key.routeKey
      · rw [if_pos hroute, if_pos (show route = (storedRecord c.key _ _).key.routeKey from hroute),
          List.map_append, List.map_cons, List.map_cons]
        exact (List.perm_append_singleton _ _).trans ((h.matched route).cons _)
      · rw [if_neg hroute,
          if_neg (show ¬ route = (storedRecord c.key _ _).key.routeKey from hroute),
          List.append_nil]
        exact h.matched route

theorem Recorded.register {r : Registration} (h : Recorded v) (hr : register r v = some v') :
    Recorded v' := by
  obtain ⟨-, -, -, rfl⟩ := register_spec hr
  refine ⟨h.keys, h.bodies, h.transferIds, h.requestIds, fun route => ?_⟩
  have hmatched := h.matched route
  cases route <;> exact hmatched

theorem Start.recorded (h₀ : Start db₀) : Recorded db₀ := by
  have hempty (route : RouteKey) : db₀.effectsOf route = [] := by
    cases route <;> simp [Db.effectsOf, Db.requestsIn, h₀.transfers, h₀.moneyRequests]
  refine ⟨?_, ?_, ?_, ?_, fun route => ?_⟩
  · simp [h₀.idempotencyRecords]
  · simp [h₀.idempotencyRecords]
  · simp [h₀.transfers]
  · simp [h₀.moneyRequests]
  · rw [hempty, Db.onRoute, h₀.idempotencyRecords]
    exact List.Perm.refl _

theorem recorded (h₀ : Start db₀)
    (h : Sys.Reach (body cfg) Open (Service.initial db₀ clock) s) : Recorded s.db :=
  reachable_tables h₀.good h₀.recorded (fun _ _ _ _ _ _ hj he => hj.effect he)
    (fun _ _ _ _ hj hr => hj.register hr) h

/-- Every committed record is complete and the only one with its key, and on each
route the records and the effects correspond one to one; so no call ever takes over
an unfinished record or is turned away because its key is being processed. -/
theorem one_effect_per_key (h₀ : Start db₀)
    (h : Sys.Reach (body cfg) Open (Service.initial db₀ clock) s) :
    (∀ r ∈ s.db.idempotencyRecords,
      r.state = .COMPLETED ∧ ∃ b, r.responseBody = some b ∧ b ≠ .null) ∧
    (s.db.idempotencyRecords.map IdempotencyRecord.key).Nodup ∧
    (s.db.transfers.map Transfer.id).Nodup ∧ (s.db.moneyRequests.map MoneyRequest.id).Nodup ∧
    (∀ route, (s.db.effectsOf route).Nodup ∧
      ((s.db.onRoute route).map IdempotencyRecord.resourceId).Perm
        ((s.db.effectsOf route).map some)) ∧
    ∀ i t, s.tx i = some t → (∀ st k, t.rest = .op st k → ¬ IsReclaim st) ∧
      t.rest ≠ .fail (.app beingProcessed) := by
  have hr := recorded h₀ h
  have hi := open_inv h₀.good h
  refine ⟨fun r hm => ⟨(hi.good.completed r hm List.not_mem_nil).1, hr.bodies r hm⟩, hr.keys,
    hr.transferIds, hr.requestIds, fun route => ⟨?_, hr.matched route⟩, fun i t ht =>
    ⟨fun st k hop => open_permits hi ht hop, fun hf => open_fails hi ht hf (Or.inl rfl)⟩⟩
  cases route with
  | transfers => exact hr.transferIds.sublist (List.filter_sublist.map _)
  | create => exact hr.requestIds
  | _ => exact hr.requestIds.sublist (List.filter_sublist.map _)

theorem one_effect_per_key_accepted : ∃ s : Service, s.db.idempotencyRecords.length = 2 ∧
    ∀ route, ((s.db.onRoute route).map IdempotencyRecord.resourceId).Perm
      ((s.db.effectsOf route).map some) := by
  have hrun : ((Service.initial sampleDb 50).run (body sampleConfig) accepted).any
      (fun s => s.db.idempotencyRecords.length = 2) := by
    decide +kernel
  obtain ⟨s, hs, hlen⟩ := of_run hrun
  obtain ⟨-, -, -, -, hroutes, -⟩ := one_effect_per_key sampleDb_start (open_of_run hs)
  exact ⟨s, of_decide_eq_true hlen, fun route => (hroutes route).2⟩

end Invariant

end MoneyMovement
