import MoneyMovement.Runs.Records

/-!
# What a transfer leaves behind

`Db.dependants` collects every row that refers to a transfer. A settlement adds
all of them with the transfer itself, nothing else ever adds one, and the ledger
only grows.
-/

namespace MoneyMovement

open Txn TransferService RiskEngineService

section Dependants

def OutboxEvent.transfer? (e : OutboxEvent) : Option Uuid :=
  if e.aggregateType = .transfer ∨ e.eventType = .transferSucceeded ∨
      e.eventType = .transferRiskFlagged then some e.aggregateId
  else none

/-- The transfer an audit row is about. A failed transfer has no id. -/
def AuditEvent.transfer? (a : AuditEvent) : Option Uuid :=
  if a.resourceType = .transfer ∨ a.action = .TRANSFER_SUCCEEDED ∨
      a.action = .TRANSFER_RISK_FLAGGED then a.resourceId
  else none

/-- The rows that refer to one transfer. -/
structure Dependants where
  entries : List LedgerEntry
  assessments : List RiskAssessment
  events : List OutboxEvent
  audits : List AuditEvent

def Dependants.none : Dependants := ⟨[], [], [], []⟩

def Db.dependants (db : Db) (id : Uuid) : Dependants where
  entries := rows LedgerEntry.transferId id db.ledgerEntries
  assessments := rows RiskAssessment.transferId id db.riskAssessments
  events := rows OutboxEvent.transfer? (some id) db.outboxEvents
  audits := rows AuditEvent.transfer? (some id) db.auditEvents

def Settlement.dependants (z : Settlement) (input : SettleInput) (source : TransferSource) :
    Dependants where
  entries := [debitEntry input z.inserted.id z.sender, creditEntry input z.inserted.id z.receiver]
  assessments := [z.assessment input]
  events := z.events input source
  audits := z.audits input source

def Db.Owns (db : Db) (userId walletId : Uuid) : Prop :=
  ∃ w ∈ db.wallets, w.id = walletId ∧ w.userId = userId

/-- What an entry books, apart from the balance it records. -/
def LedgerEntry.booking (e : LedgerEntry) : LedgerDirection × Uuid × ℤ × ℤ × Currency :=
  (e.direction, e.walletId, e.amountMinor, e.signedAmountMinor, e.currency)

def Transfer.announced (t : Transfer) : List (JsString × Payload) :=
  [(js "transferId", .str t.id.text), (js "senderUserId", .str t.senderUserId.text),
    (js "receiverUserId", .str t.receiverUserId.text),
    (js "amountMinor", .str (decimal t.amountMinor)), (js "currency", .str t.currency.text),
    (js "sourceRequestId", jsonRequestId t.sourceRequestId)]

/-- A transfer that is settled, with all its dependants and no others. -/
structure Complete (db : Db) (t : Transfer) : Prop where
  succeeded : t.status = .SUCCEEDED
  completed : t.completedAt.isSome
  parties : t.senderUserId ≠ t.receiverUserId
  owned : db.Owns t.senderUserId t.senderWalletId ∧ db.Owns t.receiverUserId t.receiverWalletId
  booked : (db.dependants t.id).entries.map LedgerEntry.booking =
    [(.DEBIT, t.senderWalletId, t.amountMinor, -t.amountMinor, t.currency),
      (.CREDIT, t.receiverWalletId, t.amountMinor, t.amountMinor, t.currency)]
  balanced : ((db.dependants t.id).entries.map LedgerEntry.signedAmountMinor).sum = 0
  assessed : ∃ level, (db.dependants t.id).assessments.map RiskAssessment.level = [level] ∧
    (db.dependants t.id).events.map OutboxEvent.eventType =
      (if level = .HIGH then [.transferRiskFlagged] else []) ++ [.transferSucceeded] ∧
    (db.dependants t.id).audits.map AuditEvent.action =
      (if level ≠ .LOW then [.TRANSFER_RISK_FLAGGED] else []) ++ [.TRANSFER_SUCCEEDED]
  announced : ∀ e ∈ (db.dependants t.id).events, e.eventType = .transferSucceeded →
    e.payload = .obj t.announced

end Dependants

variable {cfg : Config} {db₀ v v' : Db} {clock : Time} {s : Service} {ds : List (Draw Time Uuid)}
  {c : Command} {a : Response} {input : SettleInput} {source : TransferSource} {z : Settlement}
  {t : Transfer} {id : Uuid}

section Settled

theorem events_transfer {e : OutboxEvent} (h : e ∈ z.events input source) :
    e.transfer? = some z.inserted.id := by
  rcases List.mem_append.1 h with h | h
  · split_ifs at h
    · rw [List.mem_singleton.1 h]
      rfl
    · cases h
  · rw [List.mem_singleton.1 h]
    rfl

theorem audits_transfer {e : AuditEvent} (h : e ∈ z.audits input source) :
    e.transfer? = some z.inserted.id := by
  rcases List.mem_append.1 h with h | h
  · split_ifs at h
    · rw [List.mem_singleton.1 h]
      rfl
    · cases h
  · rw [List.mem_singleton.1 h]
    rfl

theorem dependants_settle_self (h : v.dependants z.inserted.id = .none) :
    (z.apply input source v).dependants z.inserted.id = z.dependants input source := by
  simp only [Db.dependants, Dependants.none, Dependants.mk.injEq] at h
  obtain ⟨hentries, hassessments, hevents, haudits⟩ := h
  simp only [Db.dependants, Settlement.apply, Settlement.dependants, rows_append, hentries,
    hassessments, hevents, haudits, List.nil_append, Dependants.mk.injEq]
  refine ⟨?_, ?_, ?_, ?_⟩
  · simp [rows, debitEntry, creditEntry]
  · simp [rows, Settlement.assessment]
  · exact List.filter_eq_self.2 (fun e he => decide_eq_true (events_transfer he))
  · exact List.filter_eq_self.2 (fun e he => decide_eq_true (audits_transfer he))

theorem dependants_settle_ne (h : z.inserted.id ≠ id) :
    (z.apply input source v).dependants id = v.dependants id := by
  simp only [Db.dependants, Settlement.apply, rows_append, Dependants.mk.injEq,
    List.append_right_eq_self]
  refine ⟨?_, ?_, ?_, ?_⟩
  · simp [rows, debitEntry, creditEntry, h]
  · simp [rows, Settlement.assessment, h]
  · exact List.filter_eq_nil_iff.2 (fun e he => by simpa [events_transfer he] using h)
  · exact List.filter_eq_nil_iff.2 (fun e he => by simpa [audits_transfer he] using h)

theorem Settlement.complete (hz : Settles cfg input source v ds z)
    (hids : (v.wallets.map Wallet.id).Nodup) (hd : v'.dependants z.inserted.id =
      z.dependants input source) (howns : ∀ u w, v.Owns u w → v'.Owns u w) :
    Complete v' (z.transfer input source) := by
  obtain ⟨s, hs, r, hr, hsid, hsu, -, hrid, hru, -, -⟩ := hz.parties hids
  have hid : (z.transfer input source).id = z.inserted.id := rfl
  refine ⟨rfl, rfl, hz.distinct, ⟨howns _ _ ⟨s, hs, hsid, hsu⟩, howns _ _ ⟨r, hr, hrid, hru⟩⟩,
    ?_, ?_, ⟨(z.risk input).level, ?_, ?_, ?_⟩, fun e he ht => ?_⟩
  all_goals rw [hid, hd] at *
  · rfl
  · simp [Settlement.dependants, debitEntry, creditEntry]
  · rfl
  · simp only [Settlement.dependants, Settlement.events, List.map_append]
    congr 1
    split_ifs <;> rfl
  · simp only [Settlement.dependants, Settlement.audits, List.map_append]
    congr 1
    split_ifs <;> rfl
  · rcases List.mem_append.1 he with he | he
    · split_ifs at he
      · rw [List.mem_singleton.1 he] at ht
        cases ht
      · cases he
    · rw [List.mem_singleton.1 he]
      rfl

end Settled

section Invariant

/-- Every transfer is complete, and nothing refers to a transfer there is not. -/
structure Booked (db : Db) : Prop where
  complete : ∀ t ∈ db.transfers, Complete db t
  orphans : ∀ id, (∀ t ∈ db.transfers, t.id ≠ id) → db.dependants id = .none

theorem Complete.congr (h : Complete v t) (hd : v'.dependants t.id = v.dependants t.id)
    (howns : ∀ u w, v.Owns u w → v'.Owns u w) : Complete v' t :=
  { h with
    owned := h.owned.imp (howns _ _) (howns _ _)
    booked := hd ▸ h.booked
    balanced := hd ▸ h.balanced
    assessed := hd ▸ h.assessed
    announced := hd ▸ h.announced }

theorem Booked.congr (h : Booked v) (ht : v'.transfers = v.transfers)
    (hd : ∀ id, v'.dependants id = v.dependants id)
    (howns : ∀ u w, v.Owns u w → v'.Owns u w) : Booked v' where
  complete t hm := (h.complete t (ht ▸ hm)).congr (hd t.id) howns
  orphans id hid := by
    rw [hd]
    exact h.orphans id (ht ▸ hid)

theorem owns_settle {u w : Uuid} (h : v.Owns u w) : (z.apply input source v).Owns u w := by
  obtain ⟨r, hr, hid, hu⟩ := h
  refine ⟨_, List.mem_map_of_mem (List.mem_map_of_mem hr), ?_, ?_⟩
  · simpa using hid
  · simp only [Wallet.addBalance]
    split_ifs <;> exact hu

theorem Booked.settle (h : Booked v) (hids : (v.wallets.map Wallet.id).Nodup)
    (hz : Settles cfg input source v ds z) : Booked (z.apply input source v) where
  complete t hm := by
    rcases List.mem_append.1 hm with hm | hm
    · exact (h.complete t hm).congr (dependants_settle_ne (Ne.symm (hz.fresh t hm)))
        (fun _ _ => owns_settle)
    · rw [List.mem_singleton.1 hm]
      exact Settlement.complete hz hids (dependants_settle_self (h.orphans _ hz.fresh))
        (fun _ _ => owns_settle)
  orphans id hid := by
    have hne : z.inserted.id ≠ id := hid _ (List.mem_append_right _ (List.mem_singleton_self _))
    rw [dependants_settle_ne hne]
    exact h.orphans id (fun t hm => hid t (List.mem_append_left _ hm))

/-- An event or audit row about a request refers to no transfer. -/
theorem dependants_request (events : List OutboxEvent) (audits : List AuditEvent)
    (he : ∀ e ∈ events, e.transfer? = none) (ha : ∀ a ∈ audits, a.transfer? = none)
    (hentries : v'.ledgerEntries = v.ledgerEntries)
    (hassessments : v'.riskAssessments = v.riskAssessments)
    (hevents : v'.outboxEvents = v.outboxEvents ++ events)
    (haudits : v'.auditEvents = v.auditEvents ++ audits) (id : Uuid) :
    v'.dependants id = v.dependants id := by
  simp only [Db.dependants, hentries, hassessments, hevents, haudits, rows_append,
    Dependants.mk.injEq, List.append_right_eq_self, true_and]
  exact ⟨List.filter_eq_nil_iff.2 (fun e hm => by simp [he e hm]),
    List.filter_eq_nil_iff.2 (fun a hm => by simp [ha a hm])⟩

theorem Booked.effect (h : Booked v) (hids : (v.wallets.map Wallet.id).Nodup)
    (he : Effect cfg v ds c a v') : Booked v' := by
  cases he with
  | replay r hr hkey hhash => exact h
  | act x recordId hclaim hdoes =>
    refine Booked.congr (v := x.apply v) ?_ rfl (fun _ => rfl) (fun _ _ hw => hw)
    cases hdoes with
    | transfer c z hz => exact h.settle hids hz
    | create c payer _ inserted event now =>
      exact h.congr rfl (dependants_request [_] [_]
        (fun e hm => by rw [List.mem_singleton.1 hm]; rfl)
        (fun a hm => by rw [List.mem_singleton.1 hm]; rfl) rfl rfl rfl rfl) (fun _ _ hw => hw)
    | accept c r z _ event _ _ _ hz =>
      exact (h.settle hids hz).congr rfl (dependants_request [_] [_]
        (fun e hm => by rw [List.mem_singleton.1 hm]; rfl)
        (fun a hm => by rw [List.mem_singleton.1 hm]; rfl) rfl rfl rfl rfl) (fun _ _ hw => hw)
    | decline c r _ event =>
      exact h.congr rfl (dependants_request [_] [_]
        (fun e hm => by rw [List.mem_singleton.1 hm]; rfl)
        (fun a hm => by rw [List.mem_singleton.1 hm]; rfl) rfl rfl rfl rfl) (fun _ _ hw => hw)
    | cancel c r _ event =>
      exact h.congr rfl (dependants_request [_] [_]
        (fun e hm => by rw [List.mem_singleton.1 hm]; rfl)
        (fun a hm => by rw [List.mem_singleton.1 hm]; rfl) rfl rfl rfl rfl) (fun _ _ hw => hw)

theorem Booked.register {r : Registration} (h : Booked v) (hr : register r v = some v') :
    Booked v' := by
  obtain ⟨-, -, -, rfl⟩ := register_spec hr
  refine h.congr rfl (fun _ => rfl) (fun u w hw => ?_)
  obtain ⟨r, hm, hid⟩ := hw
  exact ⟨r, List.mem_append_left _ hm, hid⟩

end Invariant

section Runs

theorem entries_kept (db : Db) (ws : List Write) :
    db.ledgerEntries <+: (store.view db ws).ledgerEntries := by
  induction ws generalizing db with
  | nil => exact List.prefix_rfl
  | cons w ws ih =>
    have hw : db.ledgerEntries <+: (applyWrite db w).ledgerEntries := by
      cases w with
      | insertLedgerEntry e => exact List.prefix_append _ _
      | _ => exact List.prefix_rfl
    exact hw.trans (ih (applyWrite db w))

/-- No step of any operation updates or deletes a ledger entry. -/
theorem step_entries {s s' : Service} {l : Event} (h : s.step? (body cfg) l = some s') :
    s.db.ledgerEntries <+: s'.db.ledgerEntries := by
  cases Sys.step?_did (body cfg) h with
  | commit i t a ht hr => exact entries_kept s.db t.writes
  | external r db' hx =>
    obtain ⟨-, -, -, rfl⟩ := register_spec hx
    exact List.prefix_rfl
  | _ => exact List.prefix_rfl

theorem reach_entries {permits : Service → Event → Prop} {s s' : Service}
    (h : Sys.Reach (body cfg) permits s s') : s.db.ledgerEntries <+: s'.db.ledgerEntries := by
  induction h with
  | refl => exact List.prefix_rfl
  | tail l _ _ hs ih => exact ih.trans (step_entries hs)

/-- A start at which nothing refers to a transfer. -/
structure Blank (db : Db) : Prop extends Start db where
  assessments : db.riskAssessments = []
  events : ∀ e ∈ db.outboxEvents, e.transfer? = none
  audits : ∀ a ∈ db.auditEvents, a.transfer? = none

theorem Blank.booked (h₀ : Blank db₀) : Booked db₀ where
  complete t hm := by
    rw [h₀.transfers] at hm
    cases hm
  orphans id _ := by
    simp only [Db.dependants, h₀.ledgerEntries, h₀.assessments, Dependants.none,
      Dependants.mk.injEq]
    refine ⟨rfl, rfl, ?_, ?_⟩
    · exact List.filter_eq_nil_iff.2 (fun e hm => by simp [h₀.events e hm])
    · exact List.filter_eq_nil_iff.2 (fun a hm => by simp [h₀.audits a hm])

theorem booked (h₀ : Blank db₀)
    (h : Sys.Reach (body cfg) Open (Service.initial db₀ clock) s) : Booked s.db :=
  reachable_tables h₀.good h₀.booked (fun _ _ _ _ _ hg hj he => hj.effect hg.walletIds he)
    (fun _ _ _ _ hj hr => hj.register hr) h

/-- A row that refers to a transfer refers to one there is. -/
theorem Booked.referred (h : Booked v) (hd : v.dependants id ≠ .none) :
    ∃ t ∈ v.transfers, t.id = id := by
  by_contra hn
  exact hd (h.orphans id (fun t hm heq => hn ⟨t, hm, heq⟩))

/-- Every committed transfer is settled and has exactly the rows that belong to it,
no such row is without its transfer, and no ledger entry is ever changed. -/
theorem transfers_complete (h₀ : Blank db₀)
    (h : Sys.Reach (body cfg) Open (Service.initial db₀ clock) s) :
    (∀ t ∈ s.db.transfers, Complete s.db t) ∧
    (∀ e ∈ s.db.ledgerEntries, ∃ t ∈ s.db.transfers, t.id = e.transferId) ∧
    (∀ r ∈ s.db.riskAssessments, ∃ t ∈ s.db.transfers, t.id = r.transferId) ∧
    (∀ e ∈ s.db.outboxEvents, ∀ id, e.transfer? = some id → ∃ t ∈ s.db.transfers, t.id = id) ∧
    ∀ s', Sys.Reach (body cfg) Open s s' → s.db.ledgerEntries <+: s'.db.ledgerEntries := by
  have hb := booked h₀ h
  refine ⟨hb.complete, fun e he => hb.referred (fun hd => ?_),
    fun r hr => hb.referred (fun hd => ?_),
    fun e he id hid => hb.referred (fun hd => ?_), fun s' h' => reach_entries h'⟩
  · have hm : e ∈ (s.db.dependants e.transferId).entries := mem_rows.2 ⟨he, rfl⟩
    rw [hd] at hm
    cases hm
  · have hm : r ∈ (s.db.dependants r.transferId).assessments := mem_rows.2 ⟨hr, rfl⟩
    rw [hd] at hm
    cases hm
  · have hm : e ∈ (s.db.dependants id).events := mem_rows.2 ⟨he, hid⟩
    rw [hd] at hm
    cases hm

/-- A transfer that settles a request. -/
theorem transfers_complete_accepted : ∃ s : Service, s.db.transfers.length = 1 ∧
    ∀ t ∈ s.db.transfers, Complete s.db t := by
  have hrun : ((Service.initial sampleDb 50).run (body sampleConfig) accepted).any
      (fun s => s.db.transfers.length = 1) := by
    decide +kernel
  obtain ⟨s, hs, hlen⟩ := of_run hrun
  have hblank : Blank sampleDb := ⟨sampleDb_start, rfl, by simp [sampleDb], by simp [sampleDb]⟩
  exact ⟨s, of_decide_eq_true hlen, (transfers_complete hblank (open_of_run hs)).1⟩

end Runs

end MoneyMovement
