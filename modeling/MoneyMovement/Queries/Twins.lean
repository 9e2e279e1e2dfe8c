import MoneyMovement.Queries.Histories
import MoneyMovement.Queries.Outsiders

/-!
# Databases that differ in one balance

Two databases are twins when users find them the same but for the balance of one. An
operation takes twins to twins as long as what that user pays is a large share of the one
balance if it is one of the other.
-/

namespace MoneyMovement

open Txn Paging TransferService MoneyRequestService RiskEngineService

section Claim

/-- The same answers to everything a user can ask for. -/
structure SameFor (rcfg : ReadConfig) (scfg : SearchConfig) (userId : Uuid) (v v' : Books) :
    Prop where
  transfer : ∀ text, TransferQueryService.getForParticipant v.db text userId =
    TransferQueryService.getForParticipant v'.db text userId
  request : ∀ now text, MoneyRequestQueryService.getForParticipant v.db now text userId =
    MoneyRequestQueryService.getForParticipant v'.db now text userId
  incoming : ∀ now query, MoneyRequestQueryService.listIncoming rcfg v.db now userId query =
    MoneyRequestQueryService.listIncoming rcfg v'.db now userId query
  outgoing : ∀ now query, MoneyRequestQueryService.listOutgoing rcfg v.db now userId query =
    MoneyRequestQueryService.listOutgoing rcfg v'.db now userId query
  activity : ∀ now query, ActivityQueryService.listForUser rcfg v.db now userId query =
    ActivityQueryService.listForUser rcfg v'.db now userId query
  notifications : ∀ query, NotificationsService.listForUser rcfg v.notifications userId query =
    NotificationsService.listForUser rcfg v'.notifications userId query
  search : ∀ query, UsersService.search scfg v.db query userId =
    UsersService.search scfg v'.db query userId

def Db.payment? (db : Db) : Command → Option (Uuid × Uuid × ℤ)
  | .createDirectTransfer c => (parseUuid c.receiverUserId).map (c.actorUserId, ·, c.amountMinor)
  | .accept c => ((parseUuid c.requestId).bind db.request?).map fun r =>
    (r.payerUserId, r.requesterUserId, r.amountMinor)
  | _ => none

def Db.LargeShare (db : Db) (userId : Uuid) (amountMinor : ℤ) : Prop :=
  ∃ w, db.walletOf? userId = some w ∧ 0 < w.balanceMinor ∧
    w.balanceMinor * 7 ≤ amountMinor * 10

/-- What the user pays, to whomever, is a large share of both balances or of none. -/
def SameShare (sender : Uuid) : Operation → Books → Books → Prop
  | .call c _, v, v' => v.db.record? c.key = none → ∀ receiver amountMinor,
      v.db.payment? c = some (sender, receiver, amountMinor) →
        (v.db.LargeShare sender amountMinor ↔ v'.db.LargeShare sender amountMinor)
  | _, _, _ => True

end Claim

section Risk

variable {context : RiskContext} {balanceMinor : ℤ}

/-- When the first of the rules fires. -/
def RiskEngineService.RiskContext.LargeShare (context : RiskContext) : Prop :=
  0 < context.senderBalanceBeforeMinor ∧
    context.senderBalanceBeforeMinor * 7 ≤ context.amountMinor * 10

instance (context : RiskContext) : Decidable context.LargeShare :=
  inferInstanceAs (Decidable (_ ∧ _))

/-- No other rule looks at the balance. -/
theorem fires_congr : ∀ rule ∈ RULES.tail,
    rule.fires { context with senderBalanceBeforeMinor := balanceMinor } = rule.fires context := by
  simp only [RULES, List.tail_cons, List.forall_mem_cons, List.not_mem_nil, false_implies,
    implies_true, and_true]

theorem evaluate_congr
    (h : ({ context with senderBalanceBeforeMinor := balanceMinor } : RiskContext).LargeShare ↔
      context.LargeShare) :
    evaluate { context with senderBalanceBeforeMinor := balanceMinor } = evaluate context := by
  have hfired : RULES.filter
      (·.fires { context with senderBalanceBeforeMinor := balanceMinor }) =
      RULES.filter (·.fires context) :=
    List.filter_congr (List.forall_mem_cons.2 ⟨decide_eq_decide.2 h, fires_congr⟩)
  simp only [evaluate, hfired]

/-- The reasons tell whether the first rule has fired. -/
theorem largeShare_of_reasons
    (h : (evaluate { context with senderBalanceBeforeMinor := balanceMinor }).reasons =
      (evaluate context).reasons) :
    ({ context with senderBalanceBeforeMinor := balanceMinor } : RiskContext).LargeShare ↔
      context.LargeShare := by
  have hlength (context : RiskContext) : (evaluate context).reasons.length =
      (if context.LargeShare then 1 else 0) + (RULES.tail.filter (·.fires context)).length := by
    rw [evaluate, List.length_map]
    change ((RULES.head (List.cons_ne_nil _ _) :: RULES.tail).filter (·.fires context)).length = _
    have hfires : (RULES.head (List.cons_ne_nil _ _)).fires context = decide context.LargeShare :=
      rfl
    rw [List.filter_cons, hfires]
    by_cases hl : context.LargeShare
    · rw [if_pos (decide_eq_true hl), if_pos hl, List.length_cons, Nat.add_comm]
    · rw [if_neg (by simpa using hl), if_neg hl, Nat.zero_add]
  have hsame := congrArg List.length h
  rw [hlength, hlength, List.filter_congr fires_congr, Nat.add_right_cancel_iff] at hsame
  split_ifs at hsame with h₁ h₂ h₂
  · exact iff_of_true h₁ h₂
  · exact iff_of_false h₁ h₂

end Risk

section Twins

def Wallet.hide (userId : Uuid) (w : Wallet) : Wallet :=
  if w.userId = userId then { w with balanceMinor := 0 } else w

def LockedWallet.hide (userId : Uuid) (w : LockedWallet) : LockedWallet :=
  if w.userId = userId then { w with balanceMinor := 0 } else w

/-- The same database, but for the balance of one user and what nobody else can read. -/
structure Twin (hidden : Uuid) (v v' : Db) : Prop where
  users : v'.users = v.users
  wallets : v'.wallets.map (Wallet.hide hidden) = v.wallets.map (Wallet.hide hidden)
  transfers : v'.transfers = v.transfers
  moneyRequests : v'.moneyRequests = v.moneyRequests
  keys : v'.idempotencyRecords.map IdempotencyRecord.key =
    v.idempotencyRecords.map IdempotencyRecord.key
  outboxEvents : v'.outboxEvents = v.outboxEvents
  riskAssessments : v'.riskAssessments = v.riskAssessments

variable {hidden : Uuid} {v v' : Db}

theorem Twin.symm (h : Twin hidden v v') : Twin hidden v' v where
  users := h.users.symm
  wallets := h.wallets.symm
  transfers := h.transfers.symm
  moneyRequests := h.moneyRequests.symm
  keys := h.keys.symm
  outboxEvents := h.outboxEvents.symm
  riskAssessments := h.riskAssessments.symm

theorem Wallet.hide_seeded (seed : ℕ) (w : Wallet) :
    (w.seeded hidden seed).hide hidden = w.hide hidden := by
  unfold Wallet.seeded
  split_ifs with hu
  · rw [Wallet.hide, Wallet.hide, if_pos hu, if_pos hu]
  · rfl

theorem twin_seeded (seed seed' : ℕ) (v : Db) :
    Twin hidden (v.seeded hidden seed) (v.seeded hidden seed') where
  users := rfl
  wallets := by
    have hseeded (seed : ℕ) : (v.seeded hidden seed).wallets.map (Wallet.hide hidden) =
        v.wallets.map (Wallet.hide hidden) := by
      rw [Db.seeded, List.map_map]
      exact List.map_congr_left fun w _ => w.hide_seeded seed
    rw [hseeded, hseeded]
  transfers := rfl
  moneyRequests := rfl
  keys := rfl
  outboxEvents := rfl
  riskAssessments := rfl

theorem Wallet.hide_userId (w : Wallet) : (w.hide hidden).userId = w.userId := by
  unfold Wallet.hide
  split_ifs <;> rfl

/-- A wallet of somebody else is as it is; of the user's own only the balance is hidden. -/
theorem LockedWallet.of_hide {w w' : LockedWallet} (h : w'.hide hidden = w.hide hidden) :
    w' = { w with balanceMinor := w'.balanceMinor } ∧
      (w.userId ≠ hidden → w'.balanceMinor = w.balanceMinor) := by
  obtain ⟨id, userId, balanceMinor, status, currency, owner, created, verified⟩ := w
  obtain ⟨id', userId', balanceMinor', status', currency', owner', created', verified'⟩ := w'
  unfold LockedWallet.hide at h
  split_ifs at h with h₁ h₂ h₂
  · cases h
    exact ⟨rfl, fun hne => absurd h₂ hne⟩
  · cases h
    exact absurd h₁ h₂
  · cases h
    exact absurd h₂ h₁
  · cases h
    exact ⟨rfl, fun _ => rfl⟩

theorem joinOwner_hide (v : Db) (w : Wallet) :
    (v.joinOwner w).map (LockedWallet.hide hidden) = v.joinOwner (w.hide hidden) := by
  rw [Db.joinOwner, Db.joinOwner, w.hide_userId, Option.map_map]
  refine congrArg (Option.map · (v.user? w.userId)) (funext fun u => ?_)
  simp only [Function.comp_apply, LockedWallet.hide, Wallet.hide]
  split_ifs <;> rfl

theorem probe_hide (v : Db) (userId : Uuid) :
    (v.probe userId).map (LockedWallet.hide hidden) =
      ((v.wallets.map (Wallet.hide hidden)).find? (·.userId = userId)).bind v.joinOwner := by
  rw [Db.probe, Option.map_bind, List.find?_map, Option.bind_map, Db.walletOf?]
  have hsame : (fun w : Wallet => decide (w.userId = userId)) ∘ Wallet.hide hidden =
      fun w => decide (w.userId = userId) := by
    funext w
    simp only [Function.comp_apply, w.hide_userId]
  rw [hsame]
  exact congrArg _ (funext fun w => joinOwner_hide v w)

theorem Twin.probe (h : Twin hidden v v') {userId : Uuid} {w w' : LockedWallet}
    (hw : v.probe userId = some w) (hw' : v'.probe userId = some w') :
    w' = { w with balanceMinor := w'.balanceMinor } ∧
      (w.userId ≠ hidden → w'.balanceMinor = w.balanceMinor) := by
  have hjoin : v'.joinOwner = v.joinOwner := by
    funext w
    simp only [Db.joinOwner, Db.user?, h.users]
  have hsame : (v'.probe userId).map (LockedWallet.hide hidden) =
      (v.probe userId).map (LockedWallet.hide hidden) := by
    rw [probe_hide, probe_hide, h.wallets, hjoin]
  rw [hw, hw'] at hsame
  exact LockedWallet.of_hide (Option.some.inj hsame)

end Twins

section Settlements

variable {cfg : Config} {hidden : Uuid} {v v' : Db} {input : SettleInput}
  {source : TransferSource} {ds ds' : List (Draw Time Uuid)} {z z' : Settlement}

def Settlement.context (z : Settlement) (input : SettleInput) : RiskContext :=
  riskContext z.sender z.receiver input.amountMinor z.riskNow z.recent

theorem hide_addBalance (id : Uuid) (delta : ℤ) (ws : List Wallet) :
    (ws.map (Wallet.addBalance id delta)).map (Wallet.hide hidden) =
      ((ws.map (Wallet.hide hidden)).map (Wallet.addBalance id delta)).map
        (Wallet.hide hidden) := by
  rw [List.map_map, List.map_map, List.map_map]
  refine List.map_congr_left fun w _ => ?_
  simp only [Function.comp_apply, Wallet.hide, Wallet.addBalance]
  split_ifs <;> simp_all

/-- Two settlements of one input over two databases that look the same. -/
structure Paired (hidden : Uuid) (z z' : Settlement) : Prop where
  sender : z'.sender = { z.sender with balanceMinor := z'.sender.balanceMinor }
  receiver : z'.receiver = { z.receiver with balanceMinor := z'.receiver.balanceMinor }
  balance : z.sender.userId ≠ hidden → z'.sender.balanceMinor = z.sender.balanceMinor
  inserted : z'.inserted = z.inserted
  completedAt : z'.completedAt = z.completedAt
  riskNow : z'.riskNow = z.riskNow
  flagged : z'.flagged = z.flagged
  succeeded : z'.succeeded = z.succeeded

theorem draw_ext {d d' : Draw Time Uuid} (hnow : d'.now = d.now) (hid : d'.id = d.id) : d' = d := by
  obtain ⟨now, id⟩ := d
  obtain ⟨now', id'⟩ := d'
  cases hnow
  cases hid
  rfl

theorem Twin.paired (h : Twin hidden v v') (hz : Settles cfg input source v ds z)
    (hz' : Settles cfg input source v' ds' z') (hr : z'.readings = z.readings) :
    Paired hidden z z' := by
  have hsender : z'.sender.userId = z.sender.userId :=
    Option.some.inj (hz'.senderId.symm.trans hz.senderId)
  have hreceiver : z'.receiver.userId = z.receiver.userId :=
    Option.some.inj (hz'.receiverId.symm.trans hz.receiverId)
  obtain ⟨hs, hbalance⟩ := h.probe hz.sender (hsender ▸ hz'.sender)
  obtain ⟨hr', -⟩ := h.probe hz.receiver (hreceiver ▸ hz'.receiver)
  simp only [Settlement.readings, Readings.mk.injEq, List.cons.injEq, and_true] at hr
  obtain ⟨⟨hinsertedAt, hcompletedAt, hriskNow, hflaggedAt, hsucceededAt⟩, hinserted, hflagged,
    hsucceeded⟩ := hr
  exact
    { sender := hs
      receiver := hr'
      balance := hbalance
      inserted := draw_ext hinsertedAt hinserted
      completedAt := hcompletedAt
      riskNow := hriskNow
      flagged := draw_ext hflaggedAt hflagged
      succeeded := draw_ext hsucceededAt hsucceeded }

theorem Paired.transfer (h : Paired hidden z z') :
    z'.transfer input source = z.transfer input source := by
  rw [Settlement.transfer, Settlement.transfer, h.sender, h.receiver, h.inserted, h.completedAt]
  rfl

theorem Paired.context (h : Paired hidden z z') (hrecent : z'.recent = z.recent)
    (input : SettleInput) : z'.context input =
      { z.context input with senderBalanceBeforeMinor := z'.sender.balanceMinor } := by
  rw [Settlement.context, h.sender, h.receiver, h.riskNow, hrecent]
  rfl

theorem Paired.recent (h : Paired hidden z z') (ht : v'.transfers = v.transfers)
    (hz : Settles cfg input source v ds z) (hz' : Settles cfg input source v' ds' z') :
    z'.recent = z.recent := by
  have hsender : z'.sender.userId = z.sender.userId := by rw [h.sender]
  rw [hz.recent, hz'.recent, hsender, h.riskNow]
  simp only [Db.sentSince, Settlement.apply, ht, h.transfer]

/-- The two assessments differ only where the sender is the hidden user and the amount is
a large share of one balance. -/
theorem Paired.risk (h : Paired hidden z z') (hrecent : z'.recent = z.recent)
    (hshare : z.sender.userId = hidden →
      ((z'.context input).LargeShare ↔ (z.context input).LargeShare)) :
    z'.risk input = z.risk input := by
  change evaluate (z'.context input) = evaluate (z.context input)
  have hcontext := h.context hrecent input
  by_cases hsender : z.sender.userId = hidden
  · have hlarge := hshare hsender
    rw [hcontext] at hlarge ⊢
    exact evaluate_congr hlarge
  · rw [hcontext, h.balance hsender]
    rfl

/-- A transfer is found under its id from its settlement on. -/
theorem Settles.transfer? (hz : Settles cfg input source v ds z) {u : Db}
    (hu : u.transfers = v.transfers ++ [z.transfer input source]) :
    u.transfer? z.inserted.id = some (z.transfer input source) := by
  have hnone : v.transfers.find? (·.id = z.inserted.id) = none :=
    List.find?_eq_none.2 fun t ht => by simpa using hz.fresh t ht
  rw [Db.transfer?, hu, List.find?_append, hnone, List.find?_singleton]
  exact if_pos (decide_eq_true rfl)

/-- Of two settlements with the same risk all events are the same. -/
theorem Paired.events (h : Paired hidden z z') (hrisk : z'.risk input = z.risk input) :
    z'.events input source = z.events input source := by
  rw [Settlement.events, Settlement.events, hrisk, h.inserted, h.flagged, h.succeeded,
    succeededEvent, succeededEvent, h.sender, h.receiver]

theorem Twin.settle (h : Twin hidden v v') (hz : Settles cfg input source v ds z)
    (hz' : Settles cfg input source v' ds' z') (hr : z'.readings = z.readings)
    (hshare : z.sender.userId = hidden →
      ((z'.context input).LargeShare ↔ (z.context input).LargeShare)) :
    Twin hidden (z.apply input source v) (z'.apply input source v') := by
  have hp := h.paired hz hz' hr
  have hsender : z'.sender.id = z.sender.id := by rw [hp.sender]
  have hreceiver : z'.receiver.id = z.receiver.id := by rw [hp.receiver]
  have hrisk : z'.risk input = z.risk input := hp.risk (hp.recent h.transfers hz hz') hshare
  refine ⟨h.users, ?_, ?_, h.moneyRequests, h.keys, ?_, ?_⟩
  · change ((v'.wallets.map _).map _).map _ = ((v.wallets.map _).map _).map _
    rw [hide_addBalance, hide_addBalance z'.sender.id, hide_addBalance z.receiver.id,
      hide_addBalance z.sender.id, h.wallets, hsender, hreceiver]
  · change v'.transfers ++ _ = v.transfers ++ _
    rw [h.transfers, hp.transfer]
  · change v'.outboxEvents ++ _ = v.outboxEvents ++ _
    rw [h.outboxEvents, hp.events hrisk]
  · change v'.riskAssessments ++ [z'.assessment input] = v.riskAssessments ++ [z.assessment input]
    rw [h.riskAssessments, Settlement.assessment, Settlement.assessment, hrisk, hp.inserted]

end Settlements

section Actions

variable {cfg : Config} {hidden : Uuid} {v v' : Db} {c : Command} {a a' : Action}
  {input : SettleInput} {source : TransferSource} {ds ds' : List (Draw Time Uuid)}
  {z z' : Settlement}

def Action.settlement? : Action → Option (SettleInput × TransferSource × Settlement)
  | .transfer input z => some (input, DIRECT_SOURCE, z)
  | .accept _ r z _ _ _ => some (requestInput r, ⟨some r.id⟩, z)
  | _ => none

/-- An action that settles pays what the call asks for. -/
theorem Does.settles (h : Does cfg v ds c a) (hs : a.settlement? = some (input, source, z)) :
    Settles cfg input source v ds z ∧
      v.payment? c = some (z.sender.userId, z.receiver.userId, input.amountMinor) := by
  cases h with
  | transfer c z hz =>
    cases hs
    have hsender := Option.some.inj ((parseUuid_text c.actorUserId).symm.trans hz.senderId)
    have hreceiver : parseUuid c.receiverUserId = some z.receiver.userId := hz.receiverId
    refine ⟨hz, ?_⟩
    rw [Db.payment?, hreceiver, ← hsender]
    rfl
  | accept c r z resolvedAt event now hr hdeadline hz =>
    cases hs
    have hsender := Option.some.inj ((parseUuid_text r.payerUserId).symm.trans hz.senderId)
    have hreceiver :=
      Option.some.inj ((parseUuid_text r.requesterUserId).symm.trans hz.receiverId)
    refine ⟨hz, ?_⟩
    rw [Db.payment?, hr.id, Option.bind_some, hr.found, ← hsender, ← hreceiver]
    rfl
  | _ => cases hs

/-- And a call that asks for a payment settles. -/
theorem Does.settlement (h : Does cfg v ds c a) {payment : Uuid × Uuid × ℤ}
    (hp : v.payment? c = some payment) :
    ∃ input source z, a.settlement? = some (input, source, z) := by
  cases h with
  | transfer c z hz => exact ⟨_, _, z, rfl⟩
  | accept c r z resolvedAt event now hr hdeadline hz => exact ⟨_, _, z, rfl⟩
  | _ => cases hp

theorem largeShare_iff {userId : Uuid} {w : LockedWallet} (h : v.probe userId = some w)
    (amountMinor : ℤ) : v.LargeShare userId amountMinor ↔
      0 < w.balanceMinor ∧ w.balanceMinor * 7 ≤ amountMinor * 10 := by
  obtain ⟨row, u, hrow, -, -, -, hbalance, -⟩ := probe_some h
  rw [← hbalance]
  constructor
  · rintro ⟨row', hrow', hlarge⟩
    obtain rfl := Option.some.inj (hrow.symm.trans hrow')
    exact hlarge
  · exact fun hlarge => ⟨row, hrow, hlarge⟩

/-- The same change of requests with the same event. -/
theorem Twin.emit (h : Twin hidden v v') (requests : List MoneyRequest) (e : OutboxEvent)
    (audits audits' : List AuditEvent) :
    Twin hidden
      { v with moneyRequests := requests, outboxEvents := v.outboxEvents ++ [e],
               auditEvents := audits }
      { v' with moneyRequests := requests, outboxEvents := v'.outboxEvents ++ [e],
                auditEvents := audits' } where
  users := h.users
  wallets := h.wallets
  transfers := h.transfers
  moneyRequests := rfl
  keys := h.keys
  outboxEvents := congrArg (· ++ [e]) h.outboxEvents
  riskAssessments := h.riskAssessments

theorem Twin.record (h : Twin hidden v v') {r r' : IdempotencyRecord} (hr : r'.key = r.key) :
    Twin hidden (v.withRecord r) (v'.withRecord r') where
  users := h.users
  wallets := h.wallets
  transfers := h.transfers
  moneyRequests := h.moneyRequests
  keys := by
    rw [Db.withRecord, Db.withRecord, List.map_append, List.map_append, h.keys, List.map_singleton,
      List.map_singleton, hr]
  outboxEvents := h.outboxEvents
  riskAssessments := h.riskAssessments

theorem Twin.located (h : Twin hidden v v') {c : ResolveMoneyRequestCommand}
    {role : ParticipantRole} {r r' : MoneyRequest} (hr : Locates v c role r)
    (hr' : Locates v' c role r') : r' = r := by
  have hid := Option.some.inj (hr'.id.symm.trans hr.id)
  have hfound := hr'.found
  rw [Db.request?, h.moneyRequests, hid] at hfound
  exact Option.some.inj (hfound.symm.trans hr.found)

theorem Twin.resolve (h : Twin hidden v v') {c : ResolveMoneyRequestCommand}
    {opts : ResolveOpts} {r : MoneyRequest} {resolvedAt resolvedAt' now now' : Time}
    {event event' : Draw Time Uuid}
    (hr : (Action.resolve c opts r resolvedAt' event' now').readings =
      (Action.resolve c opts r resolvedAt event now).readings) :
    Twin hidden ((Action.resolve c opts r resolvedAt event now).apply v)
      ((Action.resolve c opts r resolvedAt' event' now').apply v') := by
  simp only [Action.readings, Readings.mk.injEq, List.cons.injEq, and_true] at hr
  obtain ⟨⟨rfl, heventAt⟩, hevent⟩ := hr
  obtain rfl := draw_ext heventAt hevent
  rw [Action.apply, Action.apply, h.moneyRequests]
  exact h.emit _ _ _ _

theorem Twin.act (h : Twin hidden v v') (hdoes : Does cfg v ds c a)
    (hdoes' : Does cfg v' ds' c a') (hr : a'.readings = a.readings)
    (hshare : ∀ receiver amountMinor, v.payment? c = some (hidden, receiver, amountMinor) →
      (v.LargeShare hidden amountMinor ↔ v'.LargeShare hidden amountMinor)) :
    Twin hidden (a.apply v) (a'.apply v') := by
  have hlarge {input : SettleInput} {source : TransferSource} {z z' : Settlement}
      (hs : a.settlement? = some (input, source, z))
      (hs' : a'.settlement? = some (input, source, z')) :
      z.sender.userId = hidden →
        ((z'.context input).LargeShare ↔ (z.context input).LargeShare) := by
    rintro rfl
    obtain ⟨hz, hpayment⟩ := hdoes.settles hs
    obtain ⟨hz', -⟩ := hdoes'.settles hs'
    have hsender : z'.sender.userId = z.sender.userId :=
      Option.some.inj (hz'.senderId.symm.trans hz.senderId)
    exact (largeShare_iff (hsender ▸ hz'.sender) _).symm.trans
      ((hshare _ _ hpayment).symm.trans (largeShare_iff hz.sender _))
  cases hdoes with
  | transfer c z hz =>
    cases hdoes' with
    | transfer _ z' hz' => exact h.settle hz hz' hr (hlarge rfl rfl)
  | create c payer user inserted event now hself hdeadline hpayer =>
    cases hdoes' with
    | create _ payer' user' inserted' event' now' hself' hdeadline' hpayer' =>
      obtain rfl := Option.some.inj (hpayer'.symm.trans hpayer)
      simp only [Action.readings, Readings.mk.injEq, List.cons.injEq, and_true] at hr
      obtain ⟨⟨hinsertedAt, heventAt⟩, hinserted, hevent⟩ := hr
      obtain rfl := draw_ext hinsertedAt hinserted
      obtain rfl := draw_ext heventAt hevent
      rw [Action.apply, Action.apply, h.moneyRequests]
      exact h.emit _ _ _ _
  | accept c r z resolvedAt event now hlocated hdeadline hz =>
    cases hdoes' with
    | accept _ r' z' resolvedAt' event' now' hlocated' hdeadline' hz' =>
      obtain rfl := h.located hlocated hlocated'
      simp only [Action.readings, Readings.mk.injEq] at hr
      obtain ⟨htimes, hids⟩ := hr
      obtain ⟨hsettledAt, hat⟩ := List.append_inj htimes rfl
      obtain ⟨hsettled, hevent⟩ := List.append_inj hids rfl
      simp only [List.cons.injEq, and_true] at hat hevent
      obtain ⟨rfl, heventAt⟩ := hat
      obtain rfl := draw_ext heventAt hevent
      have hsame : z'.readings = z.readings := congrArg₂ Readings.mk hsettledAt hsettled
      have htwin := h.settle hz hz' hsame (hlarge rfl rfl)
      rw [Action.apply, Action.apply, h.moneyRequests, (h.paired hz hz' hsame).inserted]
      exact htwin.emit _ _ _ _
  | decline c r resolvedAt event now hlocated =>
    cases hdoes' with
    | decline _ r' resolvedAt' event' now' hlocated' =>
      obtain rfl := h.located hlocated hlocated'
      exact h.resolve hr
  | cancel c r resolvedAt event now hlocated =>
    cases hdoes' with
    | cancel _ r' resolvedAt' event' now' hlocated' =>
      obtain rfl := h.located hlocated hlocated'
      exact h.resolve hr

end Actions

end MoneyMovement
