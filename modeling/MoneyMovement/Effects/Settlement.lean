import MoneyMovement.Service.Checks
import MoneyMovement.Store.Replies
import MoneyMovement.Txn.Clock

/-!
# What a settlement does when it succeeds

`settle`, run alone, either fails or does exactly one thing: it adds one
succeeded transfer with its ledger pair, moves the amount from the sender's to
the receiver's wallet, and records the risk assessment, the audit rows and the
events. `Settlement` lists what it has read, `Settles` what it has checked.
-/

namespace MoneyMovement

open Txn Prog IdempotencyService TransferService TransactionLimitService RiskEngineService

/-- Everything a settlement read or was given on its way. -/
structure Settlement where
  sender : LockedWallet
  receiver : LockedWallet
  limitNow : Time
  totals : SentTotals
  inserted : Draw Time Uuid
  completedAt : Time
  riskNow : Time
  recent : ℕ
  flagged : Draw Time Uuid
  succeeded : Draw Time Uuid

namespace Settlement

variable (z : Settlement) (input : SettleInput) (source : TransferSource)

def transfer : Transfer :=
  { pendingTransfer z.inserted (transferData input source z.sender z.receiver) with
    status := .SUCCEEDED, completedAt := some z.completedAt }

def risk : RiskEvaluation :=
  evaluate (riskContext z.sender z.receiver input.amountMinor z.riskNow z.recent)

def riskDto : RiskAssessmentDto where
  score := (z.risk input).score
  level := (z.risk input).level
  reasons := (z.risk input).reasons
  explanation := none

def receipt : TransferDto :=
  toTransferDto (z.transfer input source) (some (z.sender.balanceMinor - input.amountMinor))
    (some (z.riskDto input))

def assessment : RiskAssessment where
  transferId := z.inserted.id
  score := (z.risk input).score
  level := (z.risk input).level
  reasons := (z.risk input).reasons
  explanation := none

def audits : List AuditEvent :=
  (if (z.risk input).level ≠ .LOW then [riskAudit z.sender.userId z.inserted.id (z.risk input)]
    else []) ++
    [succeededAudit input source z.inserted.id z.sender z.receiver]

def events : List OutboxEvent :=
  (if (z.risk input).level = .HIGH then
      [storedEvent z.flagged (riskEvent z.inserted.id (z.risk input))]
    else []) ++
    [storedEvent z.succeeded (succeededEvent input source z.inserted.id z.sender z.receiver)]

def apply (v : Db) : Db :=
  { v with
    wallets := (v.wallets.map (Wallet.addBalance z.sender.id (-input.amountMinor))).map
      (Wallet.addBalance z.receiver.id input.amountMinor)
    transfers := v.transfers ++ [z.transfer input source]
    ledgerEntries := v.ledgerEntries ++
      [debitEntry input z.inserted.id z.sender, creditEntry input z.inserted.id z.receiver]
    riskAssessments := v.riskAssessments ++ [z.assessment input]
    auditEvents := v.auditEvents ++ z.audits input source
    outboxEvents := v.outboxEvents ++ z.events input source }

end Settlement

/-- What has been checked and read when a settlement succeeds on `v`. -/
structure Settles (cfg : Config) (input : SettleInput) (source : TransferSource) (v : Db)
    (ds : List (Draw Time Uuid)) (z : Settlement) : Prop where
  other : input.receiverUserId ≠ input.senderUserId
  senderId : parseUuid input.senderUserId = some z.sender.userId
  receiverId : parseUuid input.receiverUserId = some z.receiver.userId
  sender : v.probe z.sender.userId = some z.sender
  receiver : v.probe z.receiver.userId = some z.receiver
  owners : z.sender.ownerStatus = .ACTIVE ∧ z.receiver.ownerStatus = .ACTIVE
  wallets : z.sender.status = .ACTIVE ∧ z.receiver.status = .ACTIVE
  amount : 0 < input.amountMinor ∧ input.amountMinor ≤ z.sender.balanceMinor
  totals : execSumSent v z.sender.userId (windowsSince z.limitNow) = .ok z.totals
  within : WithinLimits cfg z.totals input.amountMinor
  distinct : z.sender.userId ≠ z.receiver.userId
  fresh : ∀ t ∈ v.transfers, t.id ≠ z.inserted.id
  recent : z.recent = ((z.apply input source v).sentSince z.sender.userId
    (z.riskNow - HIGH_VELOCITY_WINDOW_MINUTES * 60000)).length
  drawn : z.inserted ∈ ds
  ordered : InOrder ds → z.limitNow ≤ z.inserted.now ∧ z.inserted.now ≤ z.completedAt ∧
    z.completedAt ≤ z.riskNow

/-- The risk rules read the clock six statements after the transfer is inserted. -/
def AssessedAt (ds : List (Draw Time Uuid)) (inserted : Draw Time Uuid) (riskNow : Time) : Prop :=
  ∃ before after d, ds = before ++ inserted :: after ∧ after[5]? = some d ∧ d.now = riskNow

theorem AssessedAt.append {ds : List (Draw Time Uuid)} {inserted : Draw Time Uuid} {riskNow : Time}
    (h : AssessedAt ds inserted riskNow) (first last : List (Draw Time Uuid)) :
    AssessedAt (first ++ (ds ++ last)) inserted riskNow := by
  obtain ⟨before, after, d, rfl, hd, hnow⟩ := h
  refine ⟨first ++ before, after ++ last, d, by simp only [List.append_assoc, List.cons_append],
    ?_, hnow⟩
  rw [List.getElem?_append_left (List.getElem?_eq_some_iff.1 hd).1]
  exact hd

section Pieces

variable {v v' : Db} {ds : List (Draw Time Uuid)}

theorem returns_check {α : Type} {c : Prop} {p : TxM Unit} {f : Unit → TxM α} {a : α}
    (hp : Checks c p) (h : store.Returns (p >>= f) v ds a v') :
    c ∧ store.Returns (f ()) v ds a v' := by
  cases hp with
  | pass hc => exact ⟨hc, h⟩
  | refuse _ e _ => exact h.elim

/-- The re-read of a wallet found by a probe finds the same wallet. -/
theorem wallet?_of_probe (hids : (v.wallets.map Wallet.id).Nodup) {u : Uuid} {w : LockedWallet}
    (h : v.probe u = some w) :
    w.userId = u ∧ (v.wallet? w.id).bind v.joinOwner = some w ∧
      ∃ r ∈ v.wallets, r.id = w.id ∧ r.userId = u ∧ r.balanceMinor = w.balanceMinor := by
  obtain ⟨r, hr, hj⟩ := Option.bind_eq_some_iff.1 h
  obtain ⟨hm, hu⟩ := walletOf?_spec hr
  have hj' := hj
  obtain ⟨o, ho, rfl⟩ := Option.map_eq_some_iff.1 hj'
  have hfind : v.wallet? r.id = some r := find?_eq_of_nodup hids hm
  exact ⟨hu, by rw [hfind]; exact hj, r, hm, rfl, hu, rfl⟩

theorem lockWalletById_returns {id : Uuid} {w : LockedWallet}
    (h : store.Returns (lockWalletById id) v ds w v') :
    v' = v ∧ (v.wallet? id).bind v.joinOwner = some w ∧ ds.length = 2 := by
  obtain ⟨d₁, ds₁, r₁, ws₁, rfl, hx₁, d₂, ds₂, r₂, ws₂, rfl, hx₂, h⟩ := h
  cases hx₁
  cases hx₂
  simp only [Engine.view_nil, Prog.bind] at h
  cases hw : (v.wallet? id).bind v.joinOwner with
  | none => rw [hw] at h; exact h.elim
  | some r =>
    rw [hw] at h
    obtain ⟨rfl, rfl, rfl⟩ := h
    exact ⟨rfl, rfl, rfl⟩

theorem lockBoth_returns {a b : Uuid} {p : LockedWallet × LockedWallet}
    (h : store.Returns (lockBoth a b) v ds p v') (hids : (v.wallets.map Wallet.id).Nodup)
    {wa wb : LockedWallet} {ua ub : Uuid} (ha : v.probe ua = some wa) (hb : v.probe ub = some wb)
    (hia : wa.id = a) (hib : wb.id = b) : v' = v ∧ p = (wa, wb) ∧ ds.length = 4 := by
  subst hia hib
  obtain ⟨_, _, first, v₁, rfl, hl₁, hr₁⟩ := store.returns_bind h
  obtain ⟨rfl, hfirst, hlen₁⟩ := lockWalletById_returns hl₁
  obtain ⟨_, _, second, v₂, rfl, hl₂, hr₂⟩ := store.returns_bind hr₁
  obtain ⟨rfl, hsecond, hlen₂⟩ := lockWalletById_returns hl₂
  obtain ⟨rfl, rfl, rfl⟩ := hr₂
  obtain ⟨-, hra, -⟩ := wallet?_of_probe hids ha
  obtain ⟨-, hrb, -⟩ := wallet?_of_probe hids hb
  refine ⟨rfl, ?_, by simp [hlen₁, hlen₂]⟩
  unfold sortIds at hfirst hsecond
  split at hfirst
  · next hlt =>
    rw [if_pos hlt] at hsecond
    rw [hrb] at hfirst
    rw [hra] at hsecond
    cases hfirst
    cases hsecond
    have hne : wb.id ≠ wa.id := fun he => lt_irrefl _ (he ▸ hlt)
    rw [if_neg hne, if_pos rfl]
  · next hlt =>
    rw [if_neg hlt] at hsecond
    rw [hra] at hfirst
    rw [hrb] at hsecond
    cases hfirst
    cases hsecond
    rw [if_pos rfl]
    split_ifs with he
    · rw [← he, hra] at hrb
      cases hrb
      rfl
    · rfl

theorem auditRisk_returns {transferId u : Uuid} {r : RiskEvaluation}
    (h : store.Returns (auditRisk transferId u r) v ds () v') :
    v' = { v with
      auditEvents :=
        v.auditEvents ++ if r.level ≠ .LOW then [riskAudit u transferId r] else [] } := by
  unfold auditRisk at h
  split_ifs at h ⊢ with hl
  · obtain ⟨d, rest, _, ws, -, hx, -, -, rfl⟩ := h
    obtain rfl := insertAuditEvent_ok hx
    rfl
  · obtain ⟨-, -, rfl⟩ := h
    simp

theorem flagRisk_returns {transferId : Uuid} {r : RiskEvaluation}
    (h : store.Returns (flagRisk transferId r) v ds () v') :
    ∃ d, v' = { v with
      outboxEvents := v.outboxEvents ++
        if r.level = .HIGH then [storedEvent d (riskEvent transferId r)] else [] } := by
  unfold flagRisk at h
  split_ifs at h ⊢ with hl
  · obtain ⟨d, rest, _, ws, -, hx, -, -, rfl⟩ := h
    cases hx
    exact ⟨d, rfl⟩
  · obtain ⟨-, -, rfl⟩ := h
    exact ⟨⟨0, 0⟩, by simp⟩

theorem recordRisk_returns {transferId u : Uuid} {r : RiskEvaluation} {dto : RiskAssessmentDto}
    (h : store.Returns (recordRisk transferId u r) v ds dto v') :
    dto = ⟨r.score, r.level, r.reasons, none⟩ ∧ ∃ d, v' = { v with
      riskAssessments := v.riskAssessments ++ [⟨transferId, r.score, r.level, r.reasons, none⟩]
      auditEvents := v.auditEvents ++ if r.level ≠ .LOW then [riskAudit u transferId r] else []
      outboxEvents := v.outboxEvents ++
        if r.level = .HIGH then [storedEvent d (riskEvent transferId r)] else [] } := by
  obtain ⟨d, rest, _, ws, -, hx, h⟩ := h
  cases hx
  change store.Returns (auditRisk transferId u r >>= fun _ => flagRisk transferId r >>= fun _ =>
    .ret _) _ _ _ _ at h
  obtain ⟨_, _, _, v₁, -, haudit, h₁⟩ := store.returns_bind h
  obtain ⟨_, _, _, v₂, -, hflag, -, rfl, rfl⟩ := store.returns_bind h₁
  obtain rfl := auditRisk_returns haudit
  obtain ⟨d', rfl⟩ := flagRisk_returns hflag
  exact ⟨rfl, d', rfl⟩

theorem assessRisk_returns {transferId : Uuid} {sender receiver : LockedWallet} {amountMinor : ℤ}
    {dto : RiskAssessmentDto}
    (h : store.Returns (assessRisk transferId sender receiver amountMinor) v ds dto v') :
    ∃ d rest flagged, ds = d :: rest ∧
      let r := evaluate (riskContext sender receiver amountMinor d.now
        (v.sentSince sender.userId (d.now - HIGH_VELOCITY_WINDOW_MINUTES * 60000)).length)
      dto = ⟨r.score, r.level, r.reasons, none⟩ ∧
      v' = { v with
        riskAssessments := v.riskAssessments ++ [⟨transferId, r.score, r.level, r.reasons, none⟩]
        auditEvents := v.auditEvents ++
          if r.level ≠ .LOW then [riskAudit sender.userId transferId r] else []
        outboxEvents := v.outboxEvents ++
          if r.level = .HIGH then [storedEvent flagged (riskEvent transferId r)] else [] } := by
  obtain ⟨d₁, ds₁, now, ws₁, rfl, hx₁, d₂, ds₂, recent, ws₂, rfl, hx₂, h⟩ := h
  cases hx₁
  cases hx₂
  obtain ⟨hdto, flagged, hv⟩ := recordRisk_returns h
  exact ⟨d₁, _, flagged, rfl, hdto, hv⟩

theorem assertWithinLimits_returns {cfg : Config} {u : Uuid} {amountMinor : ℤ}
    (h : store.Returns (assertWithinLimits cfg u amountMinor) v ds () v') :
    ∃ d d' totals, ds = [d, d'] ∧ v' = v ∧
      execSumSent v u (windowsSince d.now) = .ok totals ∧ WithinLimits cfg totals amountMinor := by
  obtain ⟨d₁, ds₁, now, ws₁, rfl, hx₁, d₂, ds₂, totals, ws₂, rfl, hx₂, h⟩ := h
  cases hx₁
  obtain ⟨ht, rfl⟩ := sumSentByWindow_ok hx₂
  have hc := assertWindows_checks cfg totals amountMinor
  change store.Returns (assertWindows cfg totals amountMinor) v ds₂ () v' at h
  generalize assertWindows cfg totals amountMinor = p at h hc
  cases hc with
  | refuse _ e _ => exact h.elim
  | pass hw =>
    obtain ⟨rfl, -, rfl⟩ := h
    exact ⟨d₁, d₂, totals, rfl, rfl, ht, hw⟩

theorem applyBalanceDelta_returns {id : Uuid} {delta : ℤ} {r : Unit} {d : Draw Time Uuid}
    {ws : List Write} (h : store.exec (.applyBalanceDelta id delta) v d = .ok (r, ws))
    (hw : ∃ w ∈ v.wallets, w.id = id) :
    ws = [.addBalance id delta] := by
  rcases applyBalanceDelta_ok h with ⟨-, hnone⟩ | hws
  · obtain ⟨w, hw, hid⟩ := hw
    exact absurd hid (by simpa using List.find?_eq_none.1 hnone w hw)
  · exact hws

theorem succeed_fresh {transfers : List Transfer} (t : Transfer) (at_ : Time)
    (hf : ∀ t' ∈ transfers, t'.id ≠ t.id) :
    (transfers ++ [t]).map (Transfer.succeed t.id at_) =
      transfers ++ [{ t with status := .SUCCEEDED, completedAt := some at_ }] := by
  rw [List.map_append, List.map_singleton, Transfer.succeed, if_pos rfl]
  congr 1
  exact (List.map_congr_left (fun t' ht' => if_neg (hf t' ht'))).trans (List.map_id _)

theorem report_returns {input : SettleInput} {source : TransferSource} {id : Uuid}
    {sender receiver : LockedWallet} {f : RiskAssessmentDto → TransferDto} {dto : TransferDto}
    (h : store.Returns (assessRisk id sender receiver input.amountMinor >>= fun risk => do
      query (.insertOutboxEvent (succeededEvent input source id sender receiver))
      query (.insertAuditEvent (succeededAudit input source id sender receiver))
      return f risk) v ds dto v') :
    ∃ d rest flagged succeeded, ds = d :: rest ∧
      let r := evaluate (riskContext sender receiver input.amountMinor d.now
        (v.sentSince sender.userId (d.now - HIGH_VELOCITY_WINDOW_MINUTES * 60000)).length)
      dto = f ⟨r.score, r.level, r.reasons, none⟩ ∧
      v' = { v with
        riskAssessments := v.riskAssessments ++ [⟨id, r.score, r.level, r.reasons, none⟩]
        auditEvents := v.auditEvents ++
          ((if r.level ≠ .LOW then [riskAudit sender.userId id r] else []) ++
            [succeededAudit input source id sender receiver])
        outboxEvents := v.outboxEvents ++
          ((if r.level = .HIGH then [storedEvent flagged (riskEvent id r)] else []) ++
            [storedEvent succeeded (succeededEvent input source id sender receiver)]) } := by
  obtain ⟨ds₁, ds₂, risk, v₁, rfl, hrisk, hend⟩ := store.returns_bind h
  obtain ⟨d, rest, flagged, rfl, rfl, rfl⟩ := assessRisk_returns hrisk
  obtain ⟨d₁, _, _, ws₁, rfl, hx₁, d₂, _, _, ws₂, rfl, hx₂, rfl, rfl, rfl⟩ := hend
  obtain rfl := insertOutboxEvent_ok hx₁
  obtain rfl := insertAuditEvent_ok hx₂
  refine ⟨d, _, flagged, d₁, rfl, rfl, ?_⟩
  simp only [← List.append_assoc]
  rfl

/-- What `moveMoney` alone does, as the settlement that read `totals` at `limitNow`. -/
structure Moves (input : SettleInput) (source : TransferSource) (v : Db)
    (ds : List (Draw Time Uuid)) (z : Settlement) : Prop where
  distinct : z.sender.userId ≠ z.receiver.userId
  fresh : ∀ t ∈ v.transfers, t.id ≠ z.inserted.id
  recent : z.recent = ((z.apply input source v).sentSince z.sender.userId
    (z.riskNow - HIGH_VELOCITY_WINDOW_MINUTES * 60000)).length
  first : ds.head? = some z.inserted
  ordered : InOrder ds → z.inserted.now ≤ z.completedAt ∧ z.completedAt ≤ z.riskNow

theorem moveMoney_returns {input : SettleInput} {source : TransferSource}
    {sender receiver : LockedWallet} {dto : TransferDto} (limitNow : Time) (totals : SentTotals)
    (hs : ∃ w ∈ v.wallets, w.id = sender.id) (hr : ∃ w ∈ v.wallets, w.id = receiver.id)
    (h : store.Returns (moveMoney input source sender receiver) v ds dto v') :
    ∃ z : Settlement, (z.sender = sender ∧ z.receiver = receiver ∧ z.limitNow = limitNow ∧
      z.totals = totals) ∧ Moves input source v ds z ∧ AssessedAt ds z.inserted z.riskNow ∧
      dto = z.receipt input source ∧ v' = z.apply input source v := by
  obtain ⟨d₁, _, t, ws₁, rfl, hx₁, d₂, _, _, ws₂, rfl, hx₂, d₃, _, _, ws₃, rfl, hx₃, h⟩ := h
  obtain ⟨rfl, rfl, hne, hfresh⟩ := insertPendingTransfer_ok hx₁
  obtain rfl := insertLedgerEntry_ok hx₂
  obtain rfl := insertLedgerEntry_ok hx₃
  obtain ⟨d₄, _, _, ws₄, rfl, hx₄, d₅, _, _, ws₅, rfl, hx₅, d₆, _, settled, ws₆, rfl, hx₆, h⟩ := h
  obtain rfl := applyBalanceDelta_returns hx₄ hs
  have hr' : ∃ w ∈ v.wallets.map (Wallet.addBalance sender.id (-input.amountMinor)),
      w.id = receiver.id := by
    obtain ⟨w, hw, hid⟩ := hr
    refine ⟨_, List.mem_map_of_mem hw, ?_⟩
    rw [← hid, Wallet.addBalance]
    split <;> rfl
  obtain rfl := applyBalanceDelta_returns hx₅ hr'
  obtain ⟨row, hrow, rfl, rfl⟩ := markSucceeded_ok hx₆
  have hfind :
      (v.transfers ++ [pendingTransfer d₁ (transferData input source sender receiver)]).find?
        (·.id = d₁.id) = some (pendingTransfer d₁ (transferData input source sender receiver)) := by
    rw [List.find?_append, List.find?_eq_none.2 (by simpa using hfresh)]
    simp [pendingTransfer]
  obtain rfl := Option.some.inj (hfind.symm.trans hrow)
  have hsettled :=
    succeed_fresh (pendingTransfer d₁ (transferData input source sender receiver)) d₆.now hfresh
  -- What the first six statements have left, with the pending row already settled.
  let t : Transfer := { pendingTransfer d₁ (transferData input source sender receiver) with
    status := .SUCCEEDED, completedAt := some d₆.now }
  have hview : store.view v [.insertTransfer (pendingTransfer d₁
        (transferData input source sender receiver)),
      .insertLedgerEntry (debitEntry input d₁.id sender),
      .insertLedgerEntry (creditEntry input d₁.id receiver),
      .addBalance sender.id (-input.amountMinor), .addBalance receiver.id input.amountMinor,
      .succeedTransfer d₁.id d₆.now] = { v with
        wallets := (v.wallets.map (Wallet.addBalance sender.id (-input.amountMinor))).map
          (Wallet.addBalance receiver.id input.amountMinor)
        transfers := v.transfers ++ [t]
        ledgerEntries := v.ledgerEntries ++
          [debitEntry input d₁.id sender, creditEntry input d₁.id receiver] } := by
    simp only [store, Engine.view_cons, Engine.view_nil, applyWrite, List.append_assoc,
      List.cons_append, List.nil_append, Db.mk.injEq, true_and, and_true]
    exact hsettled
  change store.Returns _ (store.view v [_, .insertLedgerEntry (debitEntry input d₁.id sender),
    .insertLedgerEntry (creditEntry input d₁.id receiver), _, _, .succeedTransfer d₁.id d₆.now])
    _ _ _ at h
  rw [hview] at h
  obtain ⟨d₇, rest, flagged, d₈, rfl, rfl, rfl⟩ := report_returns h
  refine ⟨⟨sender, receiver, limitNow, totals, d₁, d₆.now, d₇.now, _, flagged, d₈⟩,
    ⟨rfl, rfl, rfl, rfl⟩, ⟨hne, hfresh, rfl, rfl, fun hp => ?_⟩, ⟨[], _, d₇, rfl, rfl, rfl⟩, ?_,
    rfl⟩
  · simp only [InOrder, List.pairwise_cons, List.mem_cons, forall_eq_or_imp] at hp
    exact ⟨hp.1.2.2.2.2.1, hp.2.2.2.2.2.1.1⟩
  · rw [Transfer.succeed, if_pos rfl]
    rfl

theorem settle_returns {cfg : Config} {input : SettleInput} {source : TransferSource}
    {dto : TransferDto} (hids : (v.wallets.map Wallet.id).Nodup)
    (h : store.Returns (settle input source cfg) v ds dto v') :
    ∃ z, Settles cfg input source v ds z ∧ ds[8]? = some z.inserted ∧
      AssessedAt ds z.inserted z.riskNow ∧ dto = z.receipt input source ∧
      v' = z.apply input source v := by
  unfold settle at h
  split_ifs at h with hself
  · exact h.elim
  obtain ⟨d₁, _, s, ws₁, rfl, hx₁, d₂, ds₂, r, ws₂, rfl, hx₂, h⟩ := h
  obtain ⟨us, hus, rfl, rfl⟩ := findWalletByUserId_ok hx₁
  obtain ⟨ur, hur, rfl, rfl⟩ := findWalletByUserId_ok hx₂
  simp only [Engine.view_nil, Prog.bind] at h
  cases hs : v.probe us with
  | none => rw [hs] at h; exact h.elim
  | some sender =>
    cases hr : v.probe ur with
    | none => rw [hs, hr] at h; exact h.elim
    | some receiver =>
      rw [hs, hr] at h
      simp only at h
      obtain ⟨ds₃, ds₄, p, v₁, rfl, hlock, hlocked⟩ := store.returns_bind h
      obtain ⟨rfl, rfl, hlen⟩ := lockBoth_returns hlock hids hs hr rfl rfl
      obtain ⟨rfl, -, rs, hrs, hrsid, -, -⟩ := wallet?_of_probe hids hs
      obtain ⟨rfl, -, rr, hrr, hrrid, -, -⟩ := wallet?_of_probe hids hr
      obtain ⟨howners, h₁⟩ := returns_check (assertParticipantsActive_checks _ _) hlocked
      obtain ⟨hwallets, h₂⟩ := returns_check (assertWalletsSpendable_checks _ _) h₁
      obtain ⟨hamount, h₃⟩ := returns_check (assertAmountAndBalance_checks _ _) h₂
      obtain ⟨ds₅, ds₆, _, v₂, rfl, hlimits, hmove⟩ := store.returns_bind h₃
      obtain ⟨d₃, d₄, totals, rfl, rfl, htotals, hwithin⟩ := assertWithinLimits_returns hlimits
      obtain ⟨z, ⟨rfl, rfl, hnow, rfl⟩, hm, hassessed, hdto, hv⟩ :=
        moveMoney_returns d₃.now totals ⟨rs, hrs, hrsid⟩ ⟨rr, hrr, hrrid⟩ hmove
      refine ⟨z, ⟨hself, hus, hur, hs, hr, howners, hwallets, hamount, hnow ▸ htotals, hwithin,
        hm.distinct, hm.fresh, hm.recent, ?_, fun hp => ?_⟩, ?_, ?_, hdto, hv⟩
      · have := List.mem_of_head? hm.first
        simp [this]
      · have hp₃ :=
          (List.pairwise_append.1 (List.pairwise_cons.1 (List.pairwise_cons.1 hp).2).2).2.1
        have hp₆ := List.pairwise_append.1 hp₃
        exact ⟨hnow ▸ hp₆.2.2 d₃ (by simp) z.inserted (List.mem_of_head? hm.first),
          hm.ordered hp₆.2.1⟩
      · -- Two probes, four statements for the locks, two for the limits.
        have hskip : (ds₃ ++ ([d₃, d₄] ++ ds₆))[6]? = ds₆.head? := by
          rw [List.getElem?_append_right (by omega), hlen, List.head?_eq_getElem?]
          rfl
        exact hskip.trans hm.first
      · have happend := hassessed.append (d₁ :: d₂ :: (ds₃ ++ [d₃, d₄])) []
        simpa only [List.append_nil, List.cons_append, List.append_assoc, List.nil_append]
          using happend

/-- A longer list of draws orders the readings just as well. -/
theorem Settles.of_sublist {cfg : Config} {input : SettleInput} {source : TransferSource}
    {ds' : List (Draw Time Uuid)} {z : Settlement} (h : Settles cfg input source v ds' z)
    (hs : ds'.Sublist ds) : Settles cfg input source v ds z :=
  { h with drawn := hs.subset h.drawn, ordered := fun hp => h.ordered (hp.sublist hs) }

/-- Records and requests play no part in a settlement. -/
theorem Settles.of_tables {cfg : Config} {input : SettleInput} {source : TransferSource}
    {z : Settlement} (h : Settles cfg input source v ds z) (hu : v'.users = v.users)
    (hw : v'.wallets = v.wallets) (ht : v'.transfers = v.transfers) :
    Settles cfg input source v' ds z := by
  have hjoin : v'.joinOwner = v.joinOwner := by
    funext w
    simp only [Db.joinOwner, Db.user?, hu]
  have hprobe : v'.probe = v.probe := by
    funext u
    simp only [Db.probe, Db.walletOf?, hw, hjoin]
  have hsent : v'.sentSince = v.sentSince := by
    funext u since
    simp only [Db.sentSince, ht]
  have hsum : ∀ w, execSumSent v' z.sender.userId w = execSumSent v z.sender.userId w := by
    intro w
    unfold execSumSent
    rw [hsent]
  refine { h with
    sender := hprobe ▸ h.sender
    receiver := hprobe ▸ h.receiver
    totals := (hsum _).trans h.totals
    fresh := fun t hm => h.fresh t (ht ▸ hm)
    recent := h.recent.trans ?_ }
  simp only [Db.sentSince, Settlement.apply, ht]

end Pieces

end MoneyMovement
