import MoneyMovement.Queries.Twins

/-!
# What a balance lets others see

Two histories of the same operations that differ in the seed balance of one user are the
same for everybody else, as long as nothing that user pays is a large share of the one
balance and not of the other: the receiver of a transfer is told whether it was, and a
risk event more is one that the polls of a worker have to get through.
-/

namespace MoneyMovement

open Txn Paging TransferService MoneyRequestService RiskEngineService

section Workers

variable {hidden : Uuid} {v v' : Books}

/-- Two histories as everybody else finds them. -/
structure Twins (hidden : Uuid) (v v' : Books) : Prop where
  db : Twin hidden v.db v'.db
  notifications : v'.notifications = v.notifications

theorem Twin.updateEvents {v v' : Db} (h : Twin hidden v v') (f : OutboxEvent → OutboxEvent) :
    Twin hidden (v.updateEvents f) (v'.updateEvents f) :=
  { h with outboxEvents := congrArg (List.map f) h.outboxEvents }

theorem Twin.updateAssessments {v v' : Db} (h : Twin hidden v v')
    (f : RiskAssessment → RiskAssessment) :
    Twin hidden (v.updateAssessments f) (v'.updateAssessments f) :=
  { h with riskAssessments := congrArg (List.map f) h.riskAssessments }

/-- A handler finds the same users and the same notifications. -/
theorem Twins.dispatch (h : Twins hidden v v') (event : ClaimedOutboxEvent) (p : Poll) :
    v'.dispatch event p = v.dispatch event p := by
  rw [Books.dispatch, Books.dispatch, h.db.users, h.notifications]

theorem Twins.tryExplain (h : Twins hidden v v') (event : ClaimedOutboxEvent)
    (explanation : Option JsString) :
    Twins hidden (v.tryExplain event explanation) (v'.tryExplain event explanation) := by
  cases explanation with
  | none => exact h
  | some text =>
    unfold Books.tryExplain
    dsimp only
    split_ifs
    · exact ⟨h.db.updateAssessments _, h.notifications⟩
    · exact h

theorem Twins.process (h : Twins hidden v v') (event : ClaimedOutboxEvent) (p : Poll) :
    Twins hidden (v.process event p) (v'.process event p) := by
  unfold Books.process
  rw [h.dispatch event p]
  cases v.dispatch event p with
  | error error =>
    unfold Books.recordFailure
    dsimp only
    split_ifs
    · exact ⟨h.db.updateEvents _, h.notifications⟩
    · exact h
  | ok rows =>
    have hmarked : Twins hidden (v.markProcessed event rows p) (v'.markProcessed event rows p) :=
      ⟨h.db.updateEvents _, congrArg (· ++ rows) h.notifications⟩
    exact hmarked.tryExplain event p.explanation

/-- The polls of both take the same events. -/
theorem Twins.processNext (h : Twins hidden v v') (claim : ClaimNext) (p : Poll) :
    Twins hidden (v.processNext claim p) (v'.processNext claim p) := by
  unfold Books.processNext
  rw [h.db.outboxEvents]
  cases claim.next? v.db.outboxEvents p.now with
  | none => exact h
  | some e => exact h.process _ p

end Workers

section Histories

variable {cfg : Config} {claim : ClaimNext} {hidden : Uuid} {seed seed' : ℕ}
  {v v' u u' : Books} {op : Operation}

/-- Every assessment is of a transfer. -/
def Assessed (v : Db) : Prop := ∀ r ∈ v.riskAssessments, ∃ t ∈ v.transfers, t.id = r.transferId

theorem Does.assessed {v : Db} {ds : List (Draw Time Uuid)} {c : Command} {a : Action}
    (h : Assessed v) (hdoes : Does cfg v ds c a) : Assessed (a.apply v) := by
  have hsettled (input : SettleInput) (source : TransferSource) (z : Settlement) :
      ∀ r ∈ v.riskAssessments ++ [z.assessment input],
        ∃ t ∈ v.transfers ++ [z.transfer input source], t.id = r.transferId := by
    intro r hr
    rcases List.mem_append.1 hr with hr | hr
    · obtain ⟨t, ht, hid⟩ := h r hr
      exact ⟨t, List.mem_append_left _ ht, hid⟩
    · obtain rfl := List.mem_singleton.1 hr
      exact ⟨_, List.mem_append_right _ List.mem_cons_self, rfl⟩
  cases hdoes with
  | transfer c z hz => exact hsettled _ _ z
  | accept c r z => exact hsettled _ _ z
  | create => exact h
  | decline => exact h
  | cancel => exact h

theorem Assessed.explain {v : Db} (h : Assessed v) (id : Uuid) (text : JsString) :
    Assessed (v.updateAssessments (RiskAssessment.explain id text)) := by
  intro r hr
  obtain ⟨r₀, hr₀, rfl⟩ := List.mem_map.1 hr
  obtain ⟨t, ht, hid⟩ := h r₀ hr₀
  refine ⟨t, ht, hid.trans ?_⟩
  rw [RiskAssessment.explain]
  split_ifs <;> rfl

theorem Assessed.process (h : Assessed v.db) (event : ClaimedOutboxEvent) (p : Poll) :
    Assessed (v.process event p).db := by
  unfold Books.process
  cases v.dispatch event p with
  | error error =>
    unfold Books.recordFailure
    dsimp only
    split_ifs
    · exact h
    · exact h
  | ok rows =>
    cases htext : p.explanation with
    | none => exact h
    | some text =>
      unfold Books.tryExplain
      dsimp only
      split_ifs
      · exact Assessed.explain (v := (v.markProcessed event rows p).db) h _ _
      · exact h

theorem Happens.assessed (h : Assessed v.db) (hs : Happens cfg claim hidden seed v op u) :
    Assessed u.db := by
  cases hs with
  | replay => exact h
  | act c a ds recordId hclaim hdoes => exact hdoes.assessed h
  | refused => exact h
  | register r db hr =>
    obtain ⟨-, -, -, rfl⟩ := register_spec hr
    exact h
  | setStatus => exact h
  | setVerification => exact h
  | poll p =>
    unfold Books.processNext
    cases claim.next? v.db.outboxEvents p.now with
    | none => exact h
    | some e => exact h.process _ p
  | reopen => exact h
  | markRead => exact h

theorem Twin.register {v v' db db' : Db} (h : Twin hidden v v') {r : Registration}
    (hr : register (r.seeded hidden seed) v = some db)
    (hr' : register (r.seeded hidden seed') v' = some db') : Twin hidden db db' := by
  have hseeded (n : ℕ) : (r.seeded hidden n).userId = r.userId ∧
      (r.seeded hidden n).walletId = r.walletId ∧ (r.seeded hidden n).email = r.email ∧
      (r.seeded hidden n).displayName = r.displayName ∧ (r.seeded hidden n).now = r.now ∧
      (r.userId ≠ hidden →
        (r.seeded hidden n).initialWalletBalanceMinor = r.initialWalletBalanceMinor) := by
    unfold Registration.seeded
    split_ifs with hu
    · exact ⟨rfl, rfl, rfl, rfl, rfl, fun hne => absurd hu hne⟩
    · exact ⟨rfl, rfl, rfl, rfl, rfl, fun _ => rfl⟩
  obtain ⟨-, -, -, rfl⟩ := register_spec hr
  obtain ⟨-, -, -, rfl⟩ := register_spec hr'
  obtain ⟨huser, hwallet, hemail, hname, hnow, hbalance⟩ := hseeded seed
  obtain ⟨huser', hwallet', hemail', hname', hnow', hbalance'⟩ := hseeded seed'
  refine ⟨?_, ?_, h.transfers, h.moneyRequests, h.keys, h.outboxEvents,
    h.riskAssessments⟩
  · simp only [h.users, huser, huser', hemail, hemail', hname, hname', hnow, hnow']
  · simp only [List.map_append, h.wallets, List.map_singleton, huser, huser', hwallet, hwallet']
    congr 2
    unfold Wallet.hide
    split_ifs with hu
    · rfl
    · rw [hbalance hu, hbalance' hu]

/-- A key that is used in one history is used in the other. -/
theorem Twin.claimed_twice {v v' : Db} (h : Twin hidden v v') {r : IdempotencyRecord}
    (hr : r ∈ v.idempotencyRecords) {recordId : Uuid} (hclaim : Claims v' r.key recordId) :
    False := by
  have hm : r.key ∈ v'.idempotencyRecords.map IdempotencyRecord.key :=
    h.keys ▸ List.mem_map_of_mem hr
  obtain ⟨r', hr', hkey⟩ := List.mem_map.1 hm
  exact hclaim.unused r' hr' hkey

/-- One operation in both histories. -/
theorem Twins.step (h : Twins hidden v v') (hop : Happens cfg claim hidden seed v op u)
    (hop' : Happens cfg claim hidden seed' v' op u') (hshare : SameShare hidden op v v') :
    Twins hidden u u' := by
  cases hop with
  | replay c readings r hr hkey =>
    cases hop' with
    | replay => exact h
    | act _ a' ds' recordId' hclaim' => exact (h.db.claimed_twice hr (hkey ▸ hclaim')).elim
  | act c a ds recordId hclaim hdoes =>
    generalize hreadings : a.readings = readings at hop'
    cases hop' with
    | replay _ _ r' hr' hkey' => exact (h.db.symm.claimed_twice hr' (hkey' ▸ hclaim)).elim
    | act _ a' ds' recordId' hclaim' hdoes' =>
      have hunused : v.db.record? c.key = none :=
        List.find?_eq_none.2 fun r hr => by simpa using hclaim.unused r hr
      exact ⟨(h.db.act hdoes hdoes' hreadings.symm (hshare hunused)).record rfl, h.notifications⟩
  | refused c =>
    cases hop'
    exact h
  | register r db hr =>
    cases hop' with
    | register _ db' hr' => exact ⟨h.db.register hr hr', h.notifications⟩
  | setStatus userId status =>
    cases hop'
    exact ⟨{ h.db with users := congrArg (List.map _) h.db.users }, h.notifications⟩
  | setVerification userId status =>
    cases hop'
    exact ⟨{ h.db with users := congrArg (List.map _) h.db.users }, h.notifications⟩
  | poll p =>
    cases hop'
    exact h.processNext claim p
  | reopen eventId =>
    cases hop'
    exact ⟨h.db.updateEvents _, h.notifications⟩
  | markRead notificationId userId now =>
    cases hop'
    refine ⟨h.db, ?_⟩
    rw [Books.markRead, Books.markRead, h.notifications]

theorem Twins.sameFor (h : Twins hidden v v') (rcfg : ReadConfig) (scfg : SearchConfig)
    (viewer : Uuid) : SameFor rcfg scfg viewer v v' := by
  have hagree : Agree viewer v.db v'.db := by
    refine ⟨by rw [h.db.transfers], by rw [h.db.moneyRequests], fun id => ?_⟩
    rw [Db.user?, Db.user?, h.db.users]
  refine ⟨fun text => ?_, fun now text => ?_, fun now => hagree.requests rcfg now .payer,
    fun now => hagree.requests rcfg now .requester, fun now => hagree.activity rcfg now,
    fun query => by rw [h.notifications], fun query => ?_⟩
  · unfold TransferQueryService.getForParticipant
    rw [h.db.transfers, h.db.riskAssessments]
  · unfold MoneyRequestQueryService.getForParticipant
    rw [h.db.moneyRequests]
  · unfold UsersService.search
    rw [h.db.users]

theorem settlement_tables {v : Db} {a : Action} {input : SettleInput} {source : TransferSource}
    {z : Settlement} (hs : a.settlement? = some (input, source, z)) :
    (a.apply v).transfers = v.transfers ++ [z.transfer input source] ∧
      (a.apply v).riskAssessments = v.riskAssessments ++ [z.assessment input] := by
  cases a with
  | transfer input z =>
    cases hs
    exact ⟨rfl, rfl⟩
  | accept c r z resolvedAt event now =>
    cases hs
    exact ⟨rfl, rfl⟩
  | _ => cases hs

/-- The call settles the same payment in both histories. -/
theorem Twin.settlement {v v' : Db} {ds ds' : List (Draw Time Uuid)} {c : Command} {a a' : Action}
    {input : SettleInput} {source : TransferSource} {z : Settlement}
    (h : Twin hidden v v') (hdoes : Does cfg v ds c a) (hdoes' : Does cfg v' ds' c a')
    (hr : a'.readings = a.readings) (hs : a.settlement? = some (input, source, z)) :
    ∃ z', a'.settlement? = some (input, source, z') ∧ z'.readings = z.readings := by
  cases hdoes with
  | transfer c z hz =>
    cases hs
    cases hdoes' with
    | transfer _ z' hz' => exact ⟨z', rfl, hr⟩
  | accept c r z resolvedAt event now hlocated hdeadline hz =>
    cases hs
    cases hdoes' with
    | accept _ r' z' resolvedAt' event' now' hlocated' hdeadline' hz' =>
      obtain rfl := h.located hlocated hlocated'
      refine ⟨z', rfl, congrArg₂ Readings.mk ?_ ?_⟩
      · exact (List.append_inj (congrArg Readings.times hr) rfl).1
      · exact (List.append_inj (congrArg Readings.ids hr) rfl).1
  | _ => cases hs

/-- What the receiver is told of a transfer once it is settled. -/
theorem told_of_settled {v u : Db} {ds : List (Draw Time Uuid)} {input : SettleInput}
    {source : TransferSource} {z : Settlement} (hs : Assessed v)
    (hz : Settles cfg input source v ds z)
    (ht : u.transfers = v.transfers ++ [z.transfer input source])
    (hr : u.riskAssessments = v.riskAssessments ++ [z.assessment input]) :
    TransferQueryService.getForParticipant u z.inserted.id.text z.receiver.userId =
      .ok (toTransferDto (z.transfer input source) none (some (z.riskDto input))) := by
  have hfound : u.transfers.find? (·.id = z.inserted.id) = some (z.transfer input source) :=
    hz.transfer? ht
  have hassessed : u.riskAssessments.find? (·.transferId = z.inserted.id) =
      some (z.assessment input) := by
    have hnone : v.riskAssessments.find? (·.transferId = z.inserted.id) = none := by
      refine List.find?_eq_none.2 fun r hm hid => ?_
      obtain ⟨t, htransfer, htid⟩ := hs r hm
      exact hz.fresh t htransfer (htid.trans (of_decide_eq_true hid))
    rw [hr, List.find?_append, hnone, List.find?_singleton]
    exact if_pos (decide_eq_true rfl)
  have hinvolves : (z.transfer input source).senderUserId = z.receiver.userId ∨
      (z.transfer input source).receiverUserId = z.receiver.userId := Or.inr rfl
  simp only [TransferQueryService.getForParticipant, parseUuid_text, hfound, hassessed,
    if_pos hinvolves]
  rfl

/-- If nobody else can tell the histories apart, what the user has paid was no larger a share
of the one balance than of the other: the receiver would have been told. -/
theorem Twins.sameShare (h : Twins hidden v v') (hs : Assessed v.db) (hs' : Assessed v'.db)
    (hop : Happens cfg claim hidden seed v op u) (hop' : Happens cfg claim hidden seed' v' op u')
    {rcfg : ReadConfig} {scfg : SearchConfig}
    (hsame : ∀ viewer, viewer ≠ hidden → SameFor rcfg scfg viewer u u') :
    SameShare hidden op v v' := by
  cases hop with
  | replay c readings r hr hkey =>
    intro hunused
    exact absurd hkey (by simpa using List.find?_eq_none.1 hunused r hr)
  | act c a ds recordId hclaim hdoes =>
    generalize hreadings : a.readings = readings at hop'
    cases hop' with
    | replay _ _ r' hr' hkey' => exact (h.db.symm.claimed_twice hr' (hkey' ▸ hclaim)).elim
    | act _ a' ds' recordId' hclaim' hdoes' =>
      intro hunused receiver amountMinor hpayment
      obtain ⟨input, source, z, hset⟩ := hdoes.settlement hpayment
      obtain ⟨z', hset', hr⟩ := h.db.settlement hdoes hdoes' hreadings.symm hset
      obtain ⟨hz, hpaid⟩ := hdoes.settles hset
      obtain ⟨hz', -⟩ := hdoes'.settles hset'
      have hpair := h.db.paired hz hz' hr
      obtain ⟨ht, hrisk⟩ := settlement_tables (v := v.db) hset
      obtain ⟨ht', hrisk'⟩ := settlement_tables (v := v'.db) hset'
      rw [hpayment, Option.some.injEq, Prod.mk.injEq, Prod.mk.injEq] at hpaid
      obtain ⟨rfl, rfl, rfl⟩ := hpaid
      have hreceiver : z'.receiver.userId = z.receiver.userId := by rw [hpair.receiver]
      have hsender : z'.sender.userId = z.sender.userId := by rw [hpair.sender]
      have htold' := told_of_settled hs' hz' ht' hrisk'
      rw [hpair.inserted, hreceiver] at htold'
      have hdto := (told_of_settled hs hz ht hrisk).symm.trans
        (((hsame _ hz.distinct.symm).transfer z.inserted.id.text).trans htold')
      have hreasons : (z'.risk input).reasons = (z.risk input).reasons := by
        have hdtos := congrArg TransferDto.risk (Except.ok.inj hdto)
        exact (congrArg RiskAssessmentDto.reasons (Option.some.inj hdtos)).symm
      have hcontext := hpair.context (hpair.recent h.db.transfers hz hz') input
      change (evaluate (z'.context input)).reasons = (evaluate (z.context input)).reasons
        at hreasons
      rw [hcontext] at hreasons
      have hlarge := largeShare_of_reasons hreasons
      rw [← hcontext] at hlarge
      exact (largeShare_iff hz.sender _).trans
        (hlarge.symm.trans (largeShare_iff (hsender ▸ hz'.sender) _).symm)
  | _ => trivial

end Histories

section Main

/-- The same start, with another seed balance of one user. -/
def Books.seeded (seededId : Uuid) (seed : ℕ) (v : Books) : Books :=
  { v with db := v.db.seeded seededId seed }

/-- Two histories of the same operations, with two seed balances of one user, tell everybody
else the same in every state they reach if and only if nothing that user has paid has been a
large share of the one balance and not of the other. -/
theorem balance_hidden_iff (cfg : Config) (claim : ClaimNext) (rcfg : ReadConfig)
    (scfg : SearchConfig) (hidden : Uuid) (seed seed' : ℕ) {start : Books}
    (h₀ : Assessed start.db) :
    (∀ viewer, viewer ≠ hidden →
      SameFor rcfg scfg viewer (start.seeded hidden seed) (start.seeded hidden seed')) ∧
    ∀ log v v',
      (Ran (Happens cfg claim hidden seed) (start.seeded hidden seed) log v →
        Ran (Happens cfg claim hidden seed') (start.seeded hidden seed') log v' →
        Lockstep (Happens cfg claim hidden seed) (Happens cfg claim hidden seed')
          (fun _ _ _ _ _ => True) (start.seeded hidden seed) (start.seeded hidden seed')
          log v v') ∧
      (Lockstep (Happens cfg claim hidden seed) (Happens cfg claim hidden seed')
          (fun _ _ _ u u' => ∀ viewer, viewer ≠ hidden → SameFor rcfg scfg viewer u u')
          (start.seeded hidden seed) (start.seeded hidden seed') log v v' ↔
        Lockstep (Happens cfg claim hidden seed) (Happens cfg claim hidden seed')
          (fun op v v' _ _ => SameShare hidden op v v')
          (start.seeded hidden seed) (start.seeded hidden seed') log v v') := by
  have htwins : Twins hidden (start.seeded hidden seed) (start.seeded hidden seed') :=
    ⟨twin_seeded seed seed' start.db, rfl⟩
  refine ⟨fun viewer _ => htwins.sameFor rcfg scfg viewer,
    fun log v v' => ⟨fun h h' => lockstep_iff.2 ⟨h, h'⟩, ?_⟩⟩
  -- What is carried along: nobody else can tell the histories apart.
  refine (lockstep_congr
    (R := fun v v' => Twins hidden v v' ∧ Assessed v.db ∧ Assessed v'.db)
    ⟨htwins, h₀, h₀⟩ ?_ ?_).symm
  · rintro op v v' u u' ⟨h, hs, hs'⟩ hop hop' hshare
    exact ⟨h.step hop hop' hshare, hop.assessed hs, hop'.assessed hs'⟩
  · rintro op v v' u u' ⟨h, hs, hs'⟩ hop hop'
    constructor
    · intro hshare viewer _
      exact (h.step hop hop' hshare).sameFor rcfg scfg viewer
    · exact h.sameShare hs hs' hop hop'

def oldest? : List OutboxEvent → Option OutboxEvent
  | [] => none
  | e :: events =>
    match oldest? events with
    | none => some e
    | some e' => if e.occurredAt ≤ e'.occurredAt then some e else some e'

theorem oldest?_none {events : List OutboxEvent} (h : oldest? events = none) : events = [] := by
  cases events with
  | nil => rfl
  | cons e events =>
    rw [oldest?] at h
    split at h
    · cases h
    · split_ifs at h

theorem oldest?_some {events : List OutboxEvent} {e : OutboxEvent} (h : oldest? events = some e) :
    e ∈ events ∧ ∀ e' ∈ events, e.occurredAt ≤ e'.occurredAt := by
  induction events generalizing e with
  | nil => cases h
  | cons f events ih =>
    rw [oldest?] at h
    split at h
    · next hnone =>
      obtain rfl := oldest?_none hnone
      obtain rfl := Option.some.inj h
      simp
    · next g hg =>
      obtain ⟨hm, hold⟩ := ih hg
      split_ifs at h with hle
      · obtain rfl := Option.some.inj h
        refine ⟨List.mem_cons_self, List.forall_mem_cons.2 ⟨Int.le_refl _, fun e' he' => ?_⟩⟩
        exact Int.le_trans hle (hold e' he')
      · obtain rfl := Option.some.inj h
        refine ⟨List.mem_cons_of_mem _ hm, List.forall_mem_cons.2 ⟨?_, hold⟩⟩
        exact (Int.not_le.1 hle).le

/-- The query, with ties broken by the order of the table. -/
def firstOldest : ClaimNext where
  next? events now := oldest? (events.filter (·.Due now))
  due events now e h := by
    obtain ⟨hm, hdue⟩ := List.mem_filter.1 (oldest?_some h).1
    exact ⟨hm, of_decide_eq_true hdue⟩
  oldest events now e h e' he' hdue :=
    (oldest?_some h).2 e' (List.mem_filter.2 ⟨he', decide_eq_true hdue⟩)
  idle events now h e he hdue :=
    List.filter_eq_nil_iff.1 (oldest?_none h) e he (decide_eq_true hdue)

def sampleBooks : Books := ⟨sampleDb, []⟩

def samplePayment : CreateDirectTransferCommand := ⟨1, (2 : Uuid).text, 800, .BDT, none, js "k"⟩

def sampleSettlement (balance : ℤ) : Settlement where
  sender := ⟨11, 1, balance, .ACTIVE, .BDT, .ACTIVE, 0, .VERIFIED⟩
  receiver := ⟨12, 2, 1000, .ACTIVE, .BDT, .ACTIVE, 0, .VERIFIED⟩
  limitNow := 50
  totals := ⟨0, 0, 0⟩
  inserted := ⟨50, 109⟩
  completedAt := 50
  riskNow := 50
  recent := 1
  flagged := ⟨50, 119⟩
  succeeded := ⟨50, 120⟩

def sampleAction (balance : ℤ) : Action :=
  .transfer (transferInput samplePayment) (sampleSettlement balance)

def samplePaid (balance : ℕ) : Books where
  db := ((sampleAction balance).apply (sampleDb.seeded 1 balance)).withRecord
    (storedRecord (Command.createDirectTransfer samplePayment).key
      ((Command.createDirectTransfer samplePayment).hash sampleConfig)
      ((sampleAction balance).completion 100))
  notifications := []

theorem sampleSettlement_settles {balance : ℕ} (hamount : 800 ≤ balance) :
    Settles sampleConfig (transferInput samplePayment) DIRECT_SOURCE (sampleDb.seeded 1 balance)
      [⟨50, 109⟩] (sampleSettlement balance) where
  other h := absurd (Uuid.text_injective h) (by decide)
  senderId := parseUuid_text 1
  receiverId := parseUuid_text 2
  sender := rfl
  receiver := rfl
  owners := ⟨rfl, rfl⟩
  wallets := ⟨rfl, rfl⟩
  amount := ⟨by decide, Int.ofNat_le.2 hamount⟩
  totals := rfl
  within := ⟨show (0 : ℤ) + 800 ≤ 5000 by decide, show (0 : ℤ) + 800 ≤ 9000 by decide,
    show (0 : ℤ) + 800 ≤ 20000 by decide⟩
  distinct := show (1 : Uuid) ≠ 2 by decide
  fresh _ ht := (List.not_mem_nil ht).elim
  recent := rfl
  drawn := List.mem_cons_self
  ordered _ := ⟨le_rfl, le_rfl, le_rfl⟩

theorem samplePaid_ran {balance : ℕ} (hamount : 800 ≤ balance) :
    Ran (Happens sampleConfig firstOldest 1 balance) (sampleBooks.seeded 1 balance)
      [.call (.createDirectTransfer samplePayment) (sampleSettlement 0).readings]
      (samplePaid balance) :=
  Ran.nil.snoc _ (.act (.createDirectTransfer samplePayment) (sampleAction balance) _ 100
    ⟨fun _ hr => (List.not_mem_nil hr).elim, fun _ hr => (List.not_mem_nil hr).elim, rfl⟩
    (.transfer samplePayment (sampleSettlement balance) (sampleSettlement_settles hamount)))

/-- The receiver of 800 is told whether the sender has had 1000 or 10000. -/
theorem balance_share_told : ∃ (start v v' : Books) (log : List Operation) (text : JsString),
    Ran (Happens sampleConfig firstOldest 1 1000) (start.seeded 1 1000) log v ∧
    Ran (Happens sampleConfig firstOldest 1 10000) (start.seeded 1 10000) log v' ∧
    TransferQueryService.getForParticipant v.db text 2 ≠
      TransferQueryService.getForParticipant v'.db text 2 := by
  refine ⟨sampleBooks, samplePaid 1000, samplePaid 10000, _, (109 : Uuid).text,
    samplePaid_ran (by decide), samplePaid_ran (by decide), ?_⟩
  have htold (balance : ℕ) (hamount : 800 ≤ balance) :
      TransferQueryService.getForParticipant (samplePaid balance).db (109 : Uuid).text 2 =
        .ok (toTransferDto ((sampleSettlement balance).transfer (transferInput samplePayment)
          DIRECT_SOURCE) none
          (some ((sampleSettlement balance).riskDto (transferInput samplePayment)))) := by
    have hassessed : Assessed (sampleDb.seeded 1 balance) :=
      fun _ hr => (List.not_mem_nil hr).elim
    exact told_of_settled hassessed (sampleSettlement_settles hamount) rfl rfl
  rw [htold 1000 (by decide), htold 10000 (by decide)]
  intro heq
  have hlevel := congrArg (fun dto => dto.risk.map RiskAssessmentDto.level) (Except.ok.inj heq)
  revert hlevel
  decide

/-- The same for the seeds 1000 and 10000 of the first user. -/
theorem balance_hidden_iff_share : (∀ viewer, viewer ≠ 1 →
    SameFor ⟨fun _ => none⟩ sampleSearch viewer (sampleBooks.seeded 1 1000)
      (sampleBooks.seeded 1 10000)) ∧ ∀ log v v',
    (Ran (Happens sampleConfig firstOldest 1 1000) (sampleBooks.seeded 1 1000) log v →
      Ran (Happens sampleConfig firstOldest 1 10000) (sampleBooks.seeded 1 10000) log v' →
      Lockstep (Happens sampleConfig firstOldest 1 1000) (Happens sampleConfig firstOldest 1 10000)
        (fun _ _ _ _ _ => True) (sampleBooks.seeded 1 1000) (sampleBooks.seeded 1 10000)
        log v v') ∧
    (Lockstep (Happens sampleConfig firstOldest 1 1000) (Happens sampleConfig firstOldest 1 10000)
        (fun _ _ _ u u' => ∀ viewer, viewer ≠ 1 →
          SameFor ⟨fun _ => none⟩ sampleSearch viewer u u')
        (sampleBooks.seeded 1 1000) (sampleBooks.seeded 1 10000) log v v' ↔
      Lockstep (Happens sampleConfig firstOldest 1 1000) (Happens sampleConfig firstOldest 1 10000)
        (fun op v v' _ _ => SameShare 1 op v v')
        (sampleBooks.seeded 1 1000) (sampleBooks.seeded 1 10000) log v v') :=
  balance_hidden_iff sampleConfig firstOldest _ _ 1 1000 10000
    fun _ hr => (List.not_mem_nil hr).elim

end Main

end MoneyMovement
