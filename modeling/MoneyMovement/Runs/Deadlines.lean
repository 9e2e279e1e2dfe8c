import MoneyMovement.Runs.Requests

/-!
# Deadlines of money requests

EXPIRED is never stored: a pending request shows it from its deadline on. An accept
looks at the clock once, before it waits for the wallets; a decline or a cancel does
not look at all. So the deadline is kept in those runs whose clock does not pass it
while a call that has not seen it is under way.
-/

namespace MoneyMovement

open Txn IdempotencyService TransferService MoneyRequestService

variable {cfg : Config} {db₀ : Db} {clock : Time} {s s' : Service} {r : MoneyRequest}

def Command.Names (c : Command) (u : Uuid) : Prop :=
  ∃ id, c.requestId? = some id ∧ parseUuid id = some u

theorem Transition.names {c : Command} {status : MoneyRequestStatus} (h : Transition c r status) :
    c.Names r.id := by
  cases h with
  | accept c r hid => exact ⟨_, rfl, hid⟩
  | decline c r hid => exact ⟨_, rfl, hid⟩
  | cancel c r hid => exact ⟨_, rfl, hid⟩

section Visible

def MoneyRequest.visible (r : MoneyRequest) (now : Time) : MoneyRequestStatus :=
  effectiveStatus r.status r.expiresAt now

theorem visible_eq_status (h : r.status ≠ .PENDING) (now : Time) : r.visible now = r.status := by
  simp only [MoneyRequest.visible, effectiveStatus]
  split
  · exact if_neg (fun hp => h hp.1)
  · rfl

theorem visible_of_pending (h : r.status = .PENDING) {now : Time} (hv : r.visible now ≠ .PENDING) :
    ∃ deadline, r.expiresAt = some deadline ∧ deadline ≤ now := by
  simp only [MoneyRequest.visible, effectiveStatus, h, true_and] at hv
  split at hv
  · next deadline he =>
    split_ifs at hv with hd
    · exact ⟨deadline, he, hd⟩
    · exact absurd rfl hv
  · exact absurd rfl hv

theorem visible_expired (h : r.status = .PENDING) {deadline now : Time}
    (he : r.expiresAt = some deadline) (hd : deadline ≤ now) : r.visible now = .EXPIRED := by
  simp only [MoneyRequest.visible, effectiveStatus, he]
  exact if_pos ⟨h, hd⟩

/-- A call that is about to commit finds the pending request it names before its
deadline. -/
def OnTime (s : Service) : Event → Prop
  | .finish i => ∀ t a, s.tx i = some t → t.rest = .ret a →
      ∀ r ∈ s.db.moneyRequests, t.call.Names r.id → r.status = .PENDING →
        ∀ deadline, r.expiresAt = some deadline → s.clock < deadline
  | _ => True

/-- While calls commit on time, a request that shows a terminal status goes on
showing it. -/
theorem visible_status_final (h₀ : Start db₀)
    (h : Sys.Reach (body cfg) Open (Service.initial db₀ clock) s)
    (h' : Sys.Reach (body cfg) OnTime s s') (hr : r ∈ s.db.moneyRequests)
    (hterminal : r.visible s.clock ≠ .PENDING) :
    r ∈ s'.db.moneyRequests ∧ r.visible s'.clock = r.visible s.clock := by
  have hclock := Sys.clock_mono h'
  by_cases hst : r.status = .PENDING
  · obtain ⟨deadline, he, hd⟩ := visible_of_pending hst hterminal
    refine ⟨?_, (visible_expired hst he (hd.trans hclock)).trans (visible_expired hst he hd).symm⟩
    clear hclock
    induction h' with
    | refl => exact hr
    | tail l hreach hok hs ih =>
      have hopen := h.trans _ (hreach.mono _ (fun _ _ _ => trivial))
      rcases step_request h₀ hopen hs ih with hm | ⟨i, t, a, r', rfl, ht, hret, -, hres⟩
      · exact hm
      · have hlt := hok t a ht hret r ih hres.transition.names hst deadline he
        exact absurd (hd.trans (Sys.clock_mono hreach)) (not_le.2 hlt)
  · refine ⟨resolved_kept h₀ h (h'.mono _ (fun _ _ _ => trivial)) hr hst, ?_⟩
    rw [visible_eq_status hst, visible_eq_status hst]

/-- A request past its deadline, and a decline that does not get to its end. -/
theorem visible_status_final_expired : ∃ s s' : Service, ∃ r ∈ s.db.moneyRequests,
    r.visible s.clock = .EXPIRED ∧ s.clock < s'.clock ∧ r ∈ s'.db.moneyRequests ∧
      r.visible s'.clock = .EXPIRED := by
  let later : List Event := .start sampleDecline :: steps 1 8 200 ++ [.tick 300, .kill 1]
  have hrun : ((Service.initial sampleDb 50).run (body sampleConfig)
      (requested ++ [.tick 200])).any (fun s =>
        s.db.moneyRequests.any (fun r => r.visible s.clock = .EXPIRED) &&
          (s.run (body sampleConfig) later).any (fun s' => s.clock < s'.clock)) := by
    decide +kernel
  obtain ⟨s, hs, hboth⟩ := of_run hrun
  obtain ⟨hexpired, hlater⟩ := Bool.and_eq_true_iff.1 hboth
  obtain ⟨r, hr, hr'⟩ := List.any_eq_true.1 hexpired
  obtain ⟨s', hs', hclock⟩ := of_run hlater
  have hr' : r.visible s.clock = .EXPIRED := of_decide_eq_true hr'
  have hontime : ∀ s, ∀ l ∈ later, OnTime s l := by
    intro s l hl
    cases l with
    | finish i => simp [later, steps] at hl
    | _ => trivial
  obtain ⟨hkept, hsame⟩ := visible_status_final sampleDb_start (open_of_run hs)
    (Sys.reach_of_run _ hs' hontime) hr (by rw [hr']; decide)
  exact ⟨s, s', r, hr, hr', of_decide_eq_true hclock, hkept, hsame.trans hr'⟩

/-- A decline that commits after the deadline changes what users have been shown. -/
theorem late_decline_shows : ∃ s s' : Service,
    Sys.Reach (body sampleConfig) Open (Service.initial sampleDb 50) s ∧
    Sys.Reach (body sampleConfig) Open s s' ∧
    s.db.moneyRequests.map (fun r => (r.id, r.visible s.clock)) = [(103, .EXPIRED)] ∧
    s'.db.moneyRequests.map (fun r => (r.id, r.visible s'.clock)) = [(103, .DECLINED)] := by
  have hrun : ((Service.initial sampleDb 50).run (body sampleConfig)
      (requested ++ [.tick 200])).any (fun s =>
        s.db.moneyRequests.map (fun r => (r.id, r.visible s.clock)) = [(103, .EXPIRED)] &&
          (s.run (body sampleConfig) (.start sampleDecline :: steps 1 8 200 ++ [.finish 1])).any
            (fun s' => s'.db.moneyRequests.map (fun r => (r.id, r.visible s'.clock)) =
              [(103, .DECLINED)])) := by
    decide +kernel
  obtain ⟨s, hs, hboth⟩ := of_run hrun
  obtain ⟨hexpired, hlater⟩ := Bool.and_eq_true_iff.1 hboth
  obtain ⟨s', hs', hdeclined⟩ := of_run hlater
  exact ⟨s, s', open_of_run hs, open_of_run hs', of_decide_eq_true hexpired,
    of_decide_eq_true hdeclined⟩

end Visible

section Payments

/-- An open accept of the request has taken its expiry check and not yet inserted
its transfer. -/
def Settling (s : Service) (u : Uuid) : Prop :=
  ∃ i t c, s.tx i = some t ∧ t.call = .accept c ∧ parseUuid c.requestId = some u ∧
    expiryCheck < t.draws.length ∧ t.draws.length ≤ transferInsert

/-- The clock does not come to the deadline while an accept is settling. -/
def Waits (u : Uuid) (deadline : Time) (s : Service) : Event → Prop
  | .tick now => s.clock < deadline → deadline ≤ now → ¬ Settling s u
  | _ => True

variable {u : Uuid} {deadline : Time}

def InTime (deadline clock : Time) (ds : List (Draw Time Uuid)) : Prop :=
  ∀ d, ds[expiryCheck]? = some d → d.now < deadline →
    (∀ d', ds[transferInsert]? = some d' → d'.now < deadline) ∧
      (ds.length ≤ transferInsert → clock < deadline)

theorem InTime.snoc {ds : List (Draw Time Uuid)} {id : Uuid} (h : InTime deadline clock ds) :
    InTime deadline clock (ds ++ [⟨clock, id⟩]) := by
  intro d hd hlt
  have hlen : expiryCheck < (ds ++ [(⟨clock, id⟩ : Draw Time Uuid)]).length :=
    (List.getElem?_eq_some_iff.1 hd).1
  simp only [List.length_append, List.length_singleton, expiryCheck] at hlen
  have hnow : ds.length ≤ transferInsert → clock < deadline := by
    intro hle
    by_cases hcheck : expiryCheck < ds.length
    · rw [List.getElem?_append_left hcheck] at hd
      exact (h d hd hlt).2 hle
    · have heq : ds.length = expiryCheck := by
        simp only [expiryCheck] at hcheck ⊢
        omega
      rw [List.getElem?_append_right heq.le, heq, Nat.sub_self] at hd
      cases hd
      exact hlt
  refine ⟨fun d' hd' => ?_, fun hle => hnow ?_⟩
  · by_cases hins : transferInsert < ds.length
    · rw [List.getElem?_append_left hins] at hd'
      have hcheck : expiryCheck < ds.length := by
        simp only [expiryCheck, transferInsert] at hins ⊢
        omega
      rw [List.getElem?_append_left hcheck] at hd
      exact (h d hd hlt).1 d' hd'
    · rw [List.getElem?_append_right (not_lt.1 hins)] at hd'
      obtain ⟨_, heq⟩ := List.getElem?_eq_some_iff.1 hd'
      rw [List.getElem_singleton] at heq
      rw [← heq]
      exact hnow (not_lt.1 hins)
  · simp only [List.length_append, List.length_singleton] at hle
    omega

def AllInTime (u : Uuid) (deadline : Time) (s : Service) : Prop :=
  ∀ i t c, s.tx i = some t → t.call = .accept c → parseUuid c.requestId = some u →
    InTime deadline s.clock t.draws

theorem AllInTime.step {l : Event} (h : AllInTime u deadline s) (hok : Waits u deadline s l)
    (hs : s.step? (body cfg) l = some s') : AllInTime u deadline s' := by
  cases Sys.step?_did (body cfg) hs with
  | tick now hle =>
    intro i t c ht hc hu d hd hlt
    obtain ⟨hins, hclock⟩ := h i t c ht hc hu d hd hlt
    refine ⟨hins, fun hlen => lt_of_not_ge (fun hge => ?_)⟩
    exact hok (hclock hlen) hge ⟨i, t, c, ht, hc, hu, (List.getElem?_eq_some_iff.1 hd).1, hlen⟩
  | start c =>
    intro i t c' ht hc hu
    rcases Sys.tx_of_start ht with ⟨-, rfl⟩ | ht
    · intro d hd
      cases hd
    · exact h i t c' ht hc hu
  | step i id t st k ht hr hf =>
    intro j t' c hj hc hu
    by_cases hij : j = i
    · subst hij
      rw [Sys.tx_put_self ht, Option.some.injEq] at hj
      subst hj
      exact (h j t c ht hc hu).snoc
    · rw [Sys.tx_put_ne hij] at hj
      exact h j t' c hj hc hu
  | commit i t a ht hr => exact fun j t' c hj hc hu => h j t' c (Sys.tx_of_close hj).2 hc hu
  | rollback i t e ht hr => exact fun j t' c hj hc hu => h j t' c (Sys.tx_of_close hj).2 hc hu
  | kill i t ht => exact fun j t' c hj hc hu => h j t' c (Sys.tx_of_close hj).2 hc hu
  | external x db' hx => exact h

/-- Every committed payment of the request has been made before the deadline. -/
def PaidInTime (u : Uuid) (deadline : Time) (db : Db) : Prop :=
  ∀ t ∈ db.transfers, t.sourceRequestId = some u →
    ∃ r ∈ db.moneyRequests, r.id = u ∧ (r.expiresAt = some deadline → t.createdAt < deadline)

theorem PaidInTime.effect {v v' : Db} {ds : List (Draw Time Uuid)} {c : Command} {a : Response}
    (h : PaidInTime u deadline v) (hids : (v.moneyRequests.map MoneyRequest.id).Nodup)
    (hds : ∀ c', c = .accept c' → parseUuid c'.requestId = some u → InTime deadline clock ds)
    (he : Effect cfg v ds c a v') : PaidInTime u deadline v' := by
  -- A request that is there stays there with its deadline.
  have kept {t : Transfer} {r : MoneyRequest} (hr : r ∈ v.moneyRequests) (hid : r.id = u)
      (hlt : r.expiresAt = some deadline → t.createdAt < deadline) :
      ∃ r' ∈ v'.moneyRequests, r'.id = u ∧
        (r'.expiresAt = some deadline → t.createdAt < deadline) := by
    rcases he.resolves hids hr with hm | ⟨r', hm, hres⟩
    · exact ⟨r, hm, hid, hlt⟩
    · exact ⟨r', hm, hres.id.trans hid, fun hd => hlt (hres.expiresAt ▸ hd)⟩
  have old {t : Transfer} (ht : t ∈ v.transfers) (hu : t.sourceRequestId = some u) :
      ∃ r' ∈ v'.moneyRequests, r'.id = u ∧
        (r'.expiresAt = some deadline → t.createdAt < deadline) := by
    obtain ⟨r, hr, hid, hlt⟩ := h t ht hu
    exact kept hr hid hlt
  intro t ht hu
  cases he with
  | replay => exact old ht hu
  | act x recordId hclaim hdoes =>
    cases hdoes with
    | transfer c z hz =>
      rcases List.mem_append.1 ht with ht | ht
      · exact old ht hu
      · rw [List.mem_singleton.1 ht] at hu
        cases hu
    | accept c r z resolvedAt event now hr hdeadline hz =>
      rcases List.mem_append.1 ht with ht | ht
      · exact old ht hu
      · rw [List.mem_singleton.1 ht] at hu ⊢
        have hid : r.id = u := Option.some.inj hu
        refine kept (mem_of_request? hr.found) hid (fun hd => ?_)
        obtain ⟨⟨d, hcheck, hlt⟩, hins⟩ := hdeadline deadline hd
        exact (hds c rfl (hid ▸ hr.id) d hcheck hlt).1 z.inserted hins
    | create => exact old ht hu
    | decline => exact old ht hu
    | cancel => exact old ht hu

/-- No payment at or after the deadline of its request, in every run in which the
clock does not come to that deadline while an accept of the request is settling. -/
theorem no_payment_after_deadline (h₀ : Start db₀)
    (h : Sys.Reach (body cfg) (Waits u deadline) (Service.initial db₀ clock) s)
    (hr : r ∈ s.db.moneyRequests) (hid : r.id = u) (hdeadline : r.expiresAt = some deadline) :
    ∀ t ∈ s.db.transfers, t.sourceRequestId = some u → t.createdAt < deadline := by
  have hopen := h.mono _ (fun _ _ _ => trivial : ∀ s l, Waits u deadline s l → Open s l)
  have both : AllInTime u deadline s ∧ PaidInTime u deadline s.db := by
    clear hr hopen
    induction h with
    | refl =>
      refine ⟨fun i t c ht => by simp [Service.initial, Sys.tx] at ht, fun t ht => ?_⟩
      rw [Service.initial, h₀.transfers] at ht
      cases ht
    | tail l hreach hok hs ih =>
      refine ⟨ih.1.step hok hs, ?_⟩
      have hopen := hreach.mono _ (fun _ _ _ => trivial : ∀ s l, Waits u deadline s l → Open s l)
      rcases step_tables (open_inv h₀.good hopen) hs with hdb | ⟨x, -, hx⟩ | ⟨i, t, a, -, ht, -, he⟩
      · rw [hdb]
        exact ih.2
      · obtain ⟨-, -, -, hdb⟩ := register_spec hx
        rw [hdb]
        exact ih.2
      · exact ih.2.effect (recorded h₀ hopen).requestIds (fun c hc hu => ih.1 i t c ht hc hu) he
  intro t ht hu
  obtain ⟨r', hr', hid', hlt⟩ := both.2 t ht hu
  obtain rfl : r' = r := eq_of_nodup_key (recorded h₀ hopen).requestIds hr' hr (hid'.trans hid.symm)
  exact hlt hdeadline

theorem no_payment_after_deadline_accepted : ∃ s : Service, s.db.transfers.length = 1 ∧
    ∀ t ∈ s.db.transfers, t.sourceRequestId = some 103 → t.createdAt < 100 := by
  have hrun : ((Service.initial sampleDb 50).run (body sampleConfig) accepted).any (fun s =>
      s.db.transfers.length = 1 &&
        s.db.moneyRequests.any (fun r => r.id = 103 ∧ r.expiresAt = some 100)) := by
    decide +kernel
  obtain ⟨s, hs, hboth⟩ := of_run hrun
  obtain ⟨hlen, hany⟩ := Bool.and_eq_true_iff.1 hboth
  obtain ⟨r, hr, hfacts⟩ := List.any_eq_true.1 hany
  obtain ⟨hid, hdeadline⟩ := of_decide_eq_true hfacts
  have hwaits : ∀ s, ∀ l ∈ accepted, Waits 103 100 s l := by
    intro s l hl
    cases l with
    | tick now => simp [accepted, requested, steps] at hl
    | _ => trivial
  exact ⟨s, of_decide_eq_true hlen, no_payment_after_deadline sampleDb_start
    (Sys.reach_of_run _ hs hwaits) hr hid hdeadline⟩

/-- An accept whose deadline passes between its check and its transfer still pays. -/
theorem late_accept_pays : ∃ s : Service,
    Sys.Reach (body sampleConfig) Open (Service.initial sampleDb 50) s ∧
    s.db.moneyRequests.map (fun r => (r.id, r.expiresAt)) = [(103, some 100)] ∧
    s.db.transfers.map (fun t => (t.sourceRequestId, t.createdAt)) = [(some 103, 150)] := by
  have hrun : ((Service.initial sampleDb 50).run (body sampleConfig)
      (requested ++ .start sampleAccept :: steps 1 6 200 ++ [.tick 150] ++ steps 1 23 206 ++
        [.finish 1])).any (fun s =>
          s.db.moneyRequests.map (fun r => (r.id, r.expiresAt)) = [(103, some 100)] ∧
          s.db.transfers.map (fun t => (t.sourceRequestId, t.createdAt)) = [(some 103, 150)]) := by
    decide +kernel
  obtain ⟨s, hs, hfacts⟩ := of_run hrun
  obtain ⟨hrequests, htransfers⟩ := of_decide_eq_true hfacts
  exact ⟨s, open_of_run hs, hrequests, htransfers⟩

end Payments

end MoneyMovement
