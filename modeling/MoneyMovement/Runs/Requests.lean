import MoneyMovement.Runs.Records

/-!
# The life of a request and its transfer

A request leaves PENDING at most once, by the hand of the participant entitled to
it, and is ACCEPTED exactly when one transfer has settled it.
-/

namespace MoneyMovement

open Txn IdempotencyService TransferService MoneyRequestService

variable {cfg : Config} {db₀ v v' : Db} {clock : Time} {s s' : Service}
  {ds : List (Draw Time Uuid)} {c : Command} {a : Response} {r r' : MoneyRequest}

section Transitions

/-- Which command of whom takes a request to which status. -/
inductive Transition : Command → MoneyRequest → MoneyRequestStatus → Prop
  | accept (c : ResolveMoneyRequestCommand) (r : MoneyRequest)
      (hid : parseUuid c.requestId = some r.id) (hactor : c.actorUserId = r.payerUserId) :
      Transition (.accept c) r .ACCEPTED
  | decline (c : ResolveMoneyRequestCommand) (r : MoneyRequest)
      (hid : parseUuid c.requestId = some r.id) (hactor : c.actorUserId = r.payerUserId) :
      Transition (.decline c) r .DECLINED
  | cancel (c : ResolveMoneyRequestCommand) (r : MoneyRequest)
      (hid : parseUuid c.requestId = some r.id) (hactor : c.actorUserId = r.requesterUserId) :
      Transition (.cancel c) r .CANCELLED

/-- A resolved request: only its status and what comes with it are new. -/
structure Resolves (c : Command) (r r' : MoneyRequest) : Prop where
  pending : r.status = .PENDING
  transition : Transition c r r'.status
  fixed : { r' with status := r.status, acceptedTransferId := r.acceptedTransferId,
                    resolvedAt := r.resolvedAt } = r
  resolved : r'.resolvedAt.isSome

theorem Resolves.id (h : Resolves c r r') : r'.id = r.id := by
  rw [← h.fixed]

theorem Resolves.expiresAt (h : Resolves c r r') : r'.expiresAt = r.expiresAt := by
  rw [← h.fixed]

theorem roleOf_payer {u : Uuid} (h : roleOf r u = some .payer) : u = r.payerUserId := by
  unfold roleOf at h
  split_ifs at h with hp hr
  · exact hp.symm
  · cases h

theorem roleOf_requester {u : Uuid} (h : roleOf r u = some .requester) : u = r.requesterUserId := by
  unfold roleOf at h
  split_ifs at h with hp hr
  · cases h
  · exact hr.symm

theorem Does.resolves {x : Action} (h : Does cfg v ds c x)
    (hids : (v.moneyRequests.map MoneyRequest.id).Nodup) (hr : r ∈ v.moneyRequests) :
    r ∈ (x.apply v).moneyRequests ∨ ∃ r' ∈ (x.apply v).moneyRequests, Resolves c r r' := by
  -- An update of the one row that was located, and any other row.
  have update {u : MoneyRequest} {f : MoneyRequest → MoneyRequest} (hu : v.request? u.id = some u)
      (hother : ∀ r', r'.id ≠ u.id → f r' = r') (hres : Resolves c u (f u)) :
      r ∈ v.moneyRequests.map f ∨ ∃ r' ∈ v.moneyRequests.map f, Resolves c r r' := by
    by_cases hid : r.id = u.id
    · obtain rfl : r = u := eq_of_nodup_key hids hr (mem_of_request? hu) hid
      exact Or.inr ⟨f r, List.mem_map_of_mem hr, hres⟩
    · exact Or.inl (List.mem_map.2 ⟨r, hr, hother r hid⟩)
  cases h with
  | transfer => exact Or.inl hr
  | create => exact Or.inl (List.mem_append_left _ hr)
  | accept c u z resolvedAt event now hu =>
    refine update hu.found (fun r' hne => accept_of_ne hne) ?_
    rw [MoneyRequest.accept, if_pos rfl]
    exact ⟨hu.pending, .accept c u hu.id (roleOf_payer hu.role), rfl, rfl⟩
  | decline c u resolvedAt event now hu =>
    refine update hu.found (fun r' hne => resolve_of_ne hne) ?_
    rw [MoneyRequest.resolve, if_pos rfl]
    exact ⟨hu.pending, .decline c u hu.id (roleOf_payer hu.role), rfl, rfl⟩
  | cancel c u resolvedAt event now hu =>
    refine update hu.found (fun r' hne => resolve_of_ne hne) ?_
    rw [MoneyRequest.resolve, if_pos rfl]
    exact ⟨hu.pending, .cancel c u hu.id (roleOf_requester hu.role), rfl, rfl⟩

/-- What a committed call does to a request that exists. -/
theorem Effect.resolves (h : Effect cfg v ds c a v')
    (hids : (v.moneyRequests.map MoneyRequest.id).Nodup) (hr : r ∈ v.moneyRequests) :
    r ∈ v'.moneyRequests ∨ ∃ r' ∈ v'.moneyRequests, Resolves c r r' := by
  cases h with
  | replay => exact Or.inl hr
  | act x recordId hclaim hdoes => exact hdoes.resolves hids hr

/-- A request that is new is pending. -/
theorem Effect.created (h : Effect cfg v ds c a v') (hr : r' ∈ v'.moneyRequests) :
    (∃ r ∈ v.moneyRequests, r.id = r'.id) ∨ r'.status = .PENDING := by
  have update {f : MoneyRequest → MoneyRequest} (hf : ∀ r, (f r).id = r.id)
      (hm : r' ∈ v.moneyRequests.map f) : ∃ r ∈ v.moneyRequests, r.id = r'.id := by
    obtain ⟨r₁, hr₁, rfl⟩ := List.mem_map.1 hm
    exact ⟨r₁, hr₁, (hf r₁).symm⟩
  cases h with
  | replay => exact Or.inl ⟨r', hr, rfl⟩
  | act x recordId hclaim hdoes =>
    cases hdoes with
    | transfer => exact Or.inl ⟨r', hr, rfl⟩
    | create =>
      rcases List.mem_append.1 hr with hr | hr
      · exact Or.inl ⟨r', hr, rfl⟩
      · rw [List.mem_singleton.1 hr]
        exact Or.inr rfl
    | accept => exact Or.inl (update (accept_id _ _ _) hr)
    | decline => exact Or.inl (update (resolve_id _ _ _) hr)
    | cancel => exact Or.inl (update (resolve_id _ _ _) hr)

/-- One step on a request: it stays, or the call that ends resolves it. -/
theorem step_request (h₀ : Start db₀) (h : Sys.Reach (body cfg) Open (Service.initial db₀ clock) s)
    {l : Event} (hs : s.step? (body cfg) l = some s') (hr : r ∈ s.db.moneyRequests) :
    r ∈ s'.db.moneyRequests ∨ ∃ i t a r', l = .finish i ∧ s.tx i = some t ∧ t.rest = .ret a ∧
      r' ∈ s'.db.moneyRequests ∧ Resolves t.call r r' := by
  rcases step_tables (open_inv h₀.good h) hs with hdb | ⟨x, -, hx⟩ | ⟨i, t, a, hl, ht, hret, he⟩
  · exact Or.inl (hdb ▸ hr)
  · obtain ⟨-, -, -, hdb⟩ := register_spec hx
    exact Or.inl (by rw [hdb]; exact hr)
  · rcases he.resolves (recorded h₀ h).requestIds hr with hm | ⟨r', hm, hres⟩
    · exact Or.inl hm
    · exact Or.inr ⟨i, t, a, r', hl, ht, hret, hm, hres⟩

/-- A resolved request stays as it is. -/
theorem resolved_kept (h₀ : Start db₀) (h : Sys.Reach (body cfg) Open (Service.initial db₀ clock) s)
    (h' : Sys.Reach (body cfg) Open s s') (hr : r ∈ s.db.moneyRequests)
    (hst : r.status ≠ .PENDING) : r ∈ s'.db.moneyRequests := by
  induction h' with
  | refl => exact hr
  | tail l hreach _ hs ih =>
    rcases step_request h₀ (h.trans _ hreach) hs ih with hm | ⟨i, t, a, r', -, -, -, -, hres⟩
    · exact hm
    · exact absurd hres.pending hst

end Transitions

section Linkage

def Db.paymentsOf (db : Db) (requestId : Uuid) : List Transfer :=
  rows Transfer.sourceRequestId (some requestId) db.transfers

/-- The transfer moves what the request asks for, from the payer to the requester. -/
structure Pays (t : Transfer) (r : MoneyRequest) : Prop where
  status : t.status = .SUCCEEDED
  sourceType : t.sourceType = .MONEY_REQUEST
  sender : t.senderUserId = r.payerUserId
  receiver : t.receiverUserId = r.requesterUserId
  amount : t.amountMinor = r.amountMinor
  currency : t.currency = r.currency

/-- An accepted request has one payment, any other none. -/
inductive Linked (payments : List Transfer) (r : MoneyRequest) : Prop
  | accepted (t : Transfer) (hst : r.status = .ACCEPTED) (hpay : payments = [t])
      (hid : r.acceptedTransferId = some t.id) (hpays : Pays t r) (hres : r.resolvedAt.isSome)
  | unpaid (hst : r.status ≠ .ACCEPTED) (hpay : payments = []) (hid : r.acceptedTransferId = none)
      (hres : r.resolvedAt.isSome ↔ r.status ≠ .PENDING)

structure Linkage (v : Db) : Prop where
  linked : ∀ r ∈ v.moneyRequests, Linked (v.paymentsOf r.id) r
  sources : ∀ t ∈ v.transfers, ∀ u, t.sourceRequestId = some u → ∃ r ∈ v.moneyRequests, r.id = u

theorem Settlement.paymentsOf (z : Settlement) (input : SettleInput) (source : TransferSource)
    (u : Uuid) : (z.apply input source v).paymentsOf u =
      v.paymentsOf u ++ if source.requestId = some u then [z.transfer input source] else [] := by
  simp only [Db.paymentsOf, Settlement.apply, rows_append]
  congr 1
  simp only [rows, List.filter_cons, List.filter_nil, decide_eq_true_eq]
  rfl

theorem Linkage.resolve (h : Linkage v) (hids : (v.moneyRequests.map MoneyRequest.id).Nodup)
    {f : MoneyRequest → MoneyRequest} (hf : ∀ r, (f r).id = r.id)
    (hreq : v'.moneyRequests = v.moneyRequests.map f) (hr : r ∈ v.moneyRequests)
    (hother : ∀ r', r'.id ≠ r.id → f r' = r') (hlinked : Linked (v'.paymentsOf r.id) (f r))
    (hpay : ∀ u, u ≠ r.id → v'.paymentsOf u = v.paymentsOf u)
    (hsources : ∀ t ∈ v'.transfers, t ∈ v.transfers ∨ t.sourceRequestId = some r.id) :
    Linkage v' := by
  refine ⟨fun r' hr' => ?_, fun t ht u hu => ?_⟩
  · rw [hreq] at hr'
    obtain ⟨r₁, hr₁, rfl⟩ := List.mem_map.1 hr'
    by_cases hid : r₁.id = r.id
    · obtain rfl : r₁ = r := eq_of_nodup_key hids hr₁ hr hid
      rw [hf]
      exact hlinked
    · rw [hother r₁ hid, hpay r₁.id hid]
      exact h.linked r₁ hr₁
  · have hold : ∃ r₁ ∈ v.moneyRequests, r₁.id = u := by
      rcases hsources t ht with ht | ht
      · exact h.sources t ht u hu
      · exact ⟨r, hr, Option.some.inj (ht.symm.trans hu)⟩
    obtain ⟨r₁, hr₁, hid⟩ := hold
    exact ⟨f r₁, hreq ▸ List.mem_map_of_mem hr₁, (hf r₁).trans hid⟩

theorem Does.linkage {x : Action} (hdoes : Does cfg v ds c x) (h : Linkage v)
    (hids : (v.moneyRequests.map MoneyRequest.id).Nodup) : Linkage (x.apply v) := by
  -- A transition that pays nothing.
  have unpaid {u : MoneyRequest} (st : MoneyRequestStatus) {at_ : Time} (hu : u ∈ v.moneyRequests)
      (hpending : u.status = .PENDING) (hst : st ≠ .ACCEPTED) (hne : st ≠ .PENDING)
      (hreq : (x.apply v).moneyRequests = v.moneyRequests.map (MoneyRequest.resolve u.id st at_))
      (ht : (x.apply v).transfers = v.transfers) : Linkage (x.apply v) := by
    have hpay (w : Uuid) : (x.apply v).paymentsOf w = v.paymentsOf w := by
      simp only [Db.paymentsOf, ht]
    refine h.resolve hids (resolve_id _ _ _) hreq hu (fun r' hid => resolve_of_ne hid) ?_
      (fun w _ => hpay w) (fun t hm => Or.inl (ht ▸ hm))
    rw [hpay, MoneyRequest.resolve, if_pos rfl]
    cases h.linked u hu with
    | accepted t hacc => exact absurd (hacc.symm.trans hpending) (by decide)
    | unpaid _ hnone hid _ => exact .unpaid hst hnone hid ⟨fun _ => hne, fun _ => rfl⟩
  cases hdoes with
  | transfer c z hz =>
    have hpay (w : Uuid) : ((Action.transfer (transferInput c) z).apply v).paymentsOf w =
        v.paymentsOf w := (Settlement.paymentsOf _ _ _ w).trans (List.append_nil _)
    refine ⟨fun r hr => hpay r.id ▸ h.linked r hr, fun t ht u hu => ?_⟩
    rcases List.mem_append.1 ht with ht | ht
    · exact h.sources t ht u hu
    · rw [List.mem_singleton.1 ht] at hu
      cases hu
  | create c payer user inserted event now _ _ _ _ _ _ _ hfresh =>
    refine ⟨fun r hr => ?_, fun t ht u hu => ?_⟩
    · rcases List.mem_append.1 hr with hr | hr
      · exact h.linked r hr
      · rw [List.mem_singleton.1 hr]
        refine .unpaid (by rintro ⟨⟩) ?_ rfl ⟨by rintro ⟨⟩, fun hne => absurd rfl hne⟩
        refine List.filter_eq_nil_iff.2 (fun t ht hs => ?_)
        obtain ⟨r₁, hr₁, hid⟩ := h.sources t ht inserted.id (of_decide_eq_true hs)
        exact hfresh r₁ hr₁ hid
    · obtain ⟨r₁, hr₁, hid⟩ := h.sources t ht u hu
      exact ⟨r₁, List.mem_append_left _ hr₁, hid⟩
  | accept c r z resolvedAt event now hr hdeadline hz =>
    have hmem := mem_of_request? hr.found
    have hpay (w : Uuid) := z.paymentsOf (v := v) (requestInput r) ⟨some r.id⟩ w
    refine h.resolve hids (accept_id _ _ _) rfl hmem (fun r' hid => accept_of_ne hid) ?_
      (fun w hw => ?_) (fun t ht => ?_)
    · cases h.linked r hmem with
      | accepted t hacc => exact absurd (hacc.symm.trans hr.pending) (by decide)
      | unpaid _ hnone hid _ =>
        rw [MoneyRequest.accept, if_pos rfl]
        refine .accepted (z.transfer (requestInput r) ⟨some r.id⟩) rfl ?_ rfl ?_ rfl
        · refine (hpay r.id).trans ?_
          rw [hnone, if_pos rfl, List.nil_append]
        · have hsender := hz.senderId
          have hreceiver := hz.receiverId
          simp only [requestInput, parseUuid_text, Option.some.injEq] at hsender hreceiver
          exact ⟨rfl, rfl, hsender.symm, hreceiver.symm, rfl, rfl⟩
    · refine (hpay w).trans ?_
      rw [if_neg (fun heq => hw (Option.some.inj heq).symm), List.append_nil]
    · rcases List.mem_append.1 ht with ht | ht
      · exact Or.inl ht
      · rw [List.mem_singleton.1 ht]
        exact Or.inr rfl
  | decline c r resolvedAt event now hr =>
    exact unpaid .DECLINED (mem_of_request? hr.found) hr.pending (by decide) (by decide) rfl rfl
  | cancel c r resolvedAt event now hr =>
    exact unpaid .CANCELLED (mem_of_request? hr.found) hr.pending (by decide) (by decide) rfl rfl

theorem linkage (h₀ : Start db₀)
    (h : Sys.Reach (body cfg) Open (Service.initial db₀ clock) s) : Linkage s.db := by
  have both : Recorded s.db ∧ Linkage s.db := by
    refine reachable_tables (J := fun v => Recorded v ∧ Linkage v) h₀.good ?_ ?_ ?_ h
    · refine ⟨h₀.recorded, ?_, ?_⟩
      · simp [h₀.moneyRequests]
      · simp [h₀.transfers]
    · rintro v ds c a v' - ⟨hr, hl⟩ he
      refine ⟨hr.effect he, ?_⟩
      cases he with
      | replay => exact hl
      | act x recordId hclaim hdoes =>
        have hx := hdoes.linkage hl hr.requestIds
        exact ⟨hx.linked, hx.sources⟩
    · rintro v r v' - ⟨hr, hl⟩ hreg
      refine ⟨hr.register hreg, ?_⟩
      obtain ⟨-, -, -, rfl⟩ := register_spec hreg
      exact ⟨hl.linked, hl.sources⟩
  exact both.2

end Linkage

section Lifecycle

def Command.pays : Command → Bool
  | .createDirectTransfer _ => true
  | .accept _ => true
  | _ => false

theorem Effect.unpaid (h : Effect cfg v ds c a v') (hc : c.pays = false) :
    v'.wallets = v.wallets ∧ v'.transfers = v.transfers ∧ v'.ledgerEntries = v.ledgerEntries := by
  cases h with
  | replay => exact ⟨rfl, rfl, rfl⟩
  | act x recordId hclaim hdoes =>
    cases hdoes with
    | transfer => cases hc
    | accept => cases hc
    | _ => exact ⟨rfl, rfl, rfl⟩

/-- The stored status of a request changes at most once, from PENDING, by the
participant entitled to it; a request is accepted exactly when one transfer names it,
which is the one it names and pays what it asks for; and what cannot pay moves no money. -/
theorem request_lifecycle (h₀ : Start db₀)
    (h : Sys.Reach (body cfg) Open (Service.initial db₀ clock) s) :
    (∀ r ∈ s.db.moneyRequests,
      (r.status = .ACCEPTED ↔ r.acceptedTransferId.isSome) ∧
      (r.status = .ACCEPTED ↔ (s.db.paymentsOf r.id).length = 1) ∧
      (∀ t ∈ s.db.transfers, t.sourceRequestId = some r.id →
        r.acceptedTransferId = some t.id ∧ Pays t r) ∧
      (r.status ≠ .ACCEPTED → s.db.paymentsOf r.id = []) ∧
      (r.resolvedAt.isSome ↔ r.status ≠ .PENDING)) ∧
    (∀ r ∈ s.db.moneyRequests, ∀ r' ∈ s.db.moneyRequests, ∀ t,
      r.acceptedTransferId = some t → r'.acceptedTransferId = some t → r = r') ∧
    (∀ l s', s.step? (body cfg) l = some s' →
      (∀ r ∈ s.db.moneyRequests, r ∈ s'.db.moneyRequests ∨
        ∃ i t r', l = .finish i ∧ s.tx i = some t ∧ r' ∈ s'.db.moneyRequests ∧
          Resolves t.call r r') ∧
      (∀ r' ∈ s'.db.moneyRequests,
        (∃ r ∈ s.db.moneyRequests, r.id = r'.id) ∨ r'.status = .PENDING) ∧
      ∀ i t, l = .finish i → s.tx i = some t → t.call.pays = false →
        s'.db.wallets = s.db.wallets ∧ s'.db.transfers = s.db.transfers ∧
          s'.db.ledgerEntries = s.db.ledgerEntries) ∧
    ∀ s', Sys.Reach (body cfg) Open s s' → ∀ r ∈ s.db.moneyRequests, r.status ≠ .PENDING →
      r ∈ s'.db.moneyRequests := by
  have hrec := recorded h₀ h
  have hlink := linkage h₀ h
  have hi := open_inv h₀.good h
  have hpayment {t : Transfer} {u : Uuid} (ht : t ∈ s.db.transfers)
      (hu : t.sourceRequestId = some u) : t ∈ s.db.paymentsOf u := mem_rows.2 ⟨ht, hu⟩
  refine ⟨fun r hr => ?_, fun r hr r' hr' t ht ht' => ?_, fun l s' hs => ⟨fun r hr => ?_,
    fun r' hr' => ?_, fun i t hl ht hpays => ?_⟩,
    fun s' h' r hr hst => resolved_kept h₀ h h' hr hst⟩
  · cases hlink.linked r hr with
    | accepted t hst hpay hid hpays hres =>
      refine ⟨by simp [hst, hid], by simp [hst, hpay], fun t' ht' hu => ?_,
        fun hne => absurd hst hne, by simp [hst, hres]⟩
      have hmem := hpayment ht' hu
      rw [hpay, List.mem_singleton] at hmem
      exact hmem ▸ ⟨hid, hpays⟩
    | unpaid hst hpay hid hres =>
      refine ⟨by simp [hst, hid], by simp [hst, hpay], fun t' ht' hu => ?_, fun _ => hpay, hres⟩
      have hmem := hpayment ht' hu
      rw [hpay] at hmem
      cases hmem
  · have source {r : MoneyRequest} (hr : r ∈ s.db.moneyRequests)
        (ht : r.acceptedTransferId = some t) :
        ∃ x ∈ s.db.transfers, x.id = t ∧ x.sourceRequestId = some r.id := by
      cases hlink.linked r hr with
      | accepted x hst hpay hid hpays hres =>
        have hmem : x ∈ s.db.paymentsOf r.id := by simp [hpay]
        exact ⟨x, (mem_rows.1 hmem).1, Option.some.inj (hid.symm.trans ht), (mem_rows.1 hmem).2⟩
      | unpaid _ _ hid _ => exact absurd (hid.symm.trans ht) (by rintro ⟨⟩)
    obtain ⟨x, hx, hxt, hxr⟩ := source hr ht
    obtain ⟨y, hy, hyt, hyr⟩ := source hr' ht'
    obtain rfl : x = y := eq_of_nodup_key hrec.transferIds hx hy (hxt.trans hyt.symm)
    exact eq_of_nodup_key hrec.requestIds hr hr' (Option.some.inj (hxr.symm.trans hyr))
  · rcases step_request h₀ h hs hr with hm | ⟨i, t, a, r', hl, ht, -, hm, hres⟩
    · exact Or.inl hm
    · exact Or.inr ⟨i, t, r', hl, ht, hm, hres⟩
  · rcases step_tables hi hs with hdb | ⟨x, -, hx⟩ | ⟨i, t, a, hl, ht, hret, he⟩
    · exact Or.inl ⟨r', hdb ▸ hr', rfl⟩
    · obtain ⟨-, -, -, hdb⟩ := register_spec hx
      rw [hdb] at hr'
      exact Or.inl ⟨r', hr', rfl⟩
    · exact he.created hr'
  · rcases step_tables hi hs with hdb | ⟨x, hx, -⟩ | ⟨j, t', a, hj, ht', hret, he⟩
    · exact ⟨congrArg Db.wallets hdb, congrArg Db.transfers hdb, congrArg Db.ledgerEntries hdb⟩
    · cases hl.symm.trans hx
    · obtain rfl : i = j := Label.finish.inj (hl.symm.trans hj)
      obtain rfl : t = t' := Option.some.inj (ht.symm.trans ht')
      exact he.unpaid hpays

theorem request_lifecycle_accepted : ∃ s : Service,
    s.db.moneyRequests.map (·.status) = [.ACCEPTED] ∧
    ∀ r ∈ s.db.moneyRequests, r.status = .ACCEPTED ↔ (s.db.paymentsOf r.id).length = 1 := by
  have hrun : ((Service.initial sampleDb 50).run (body sampleConfig) accepted).any
      (fun s => s.db.moneyRequests.map (·.status) = [.ACCEPTED]) := by
    decide +kernel
  obtain ⟨s, hs, hstatus⟩ := of_run hrun
  have hlinked := (request_lifecycle sampleDb_start (open_of_run hs)).1
  exact ⟨s, of_decide_eq_true hstatus, fun r hr => (hlinked r hr).2.1⟩

end Lifecycle

end MoneyMovement
