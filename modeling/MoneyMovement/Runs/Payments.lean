import MoneyMovement.Runs.Direct
import MoneyMovement.Runs.Provenance
import MoneyMovement.Txn.Alone

/-!
# Payments one after the other

While nobody else calls, a user who has the money and is below the limits can pay another
any number of times, and each payment moves its amount and counts from the moment it was
made.
-/

namespace MoneyMovement

open Txn TransferService

section Resting

def Db.Able (v : Db) (u : Uuid) : Prop :=
  (v.user? u).any (·.status = .ACTIVE) ∧ (v.walletOf? u).any (·.status = .ACTIVE)

/-- Nobody is calling; there are the users and wallets of `db₀` with the balances `bal`, and
`sent` is what each user has sent since a time. -/
structure Resting (db₀ : Db) (n : ℕ) (bal : Uuid → ℤ) (sent : Uuid → Time → ℤ) (s : Service) :
    Prop where
  idle : s.Idle
  users : s.db.users = db₀.users
  wallets : s.db.wallets = db₀.wallets.map fun w => { w with balanceMinor := bal w.userId }
  rows : s.db.idempotencyRecords.length ≤ n ∧ s.db.transfers.length ≤ n
  sent : ∀ u since, amounts (s.db.sentSince u since) = sent u since

def moved (u w : Uuid) (amountMinor : ℤ) (bal : Uuid → ℤ) (v : Uuid) : ℤ :=
  if v = u then bal v - amountMinor else if v = w then bal v + amountMinor else bal v

def paidAt (u : Uuid) (now : Time) (amountMinor : ℤ) (sent : Uuid → Time → ℤ) (v : Uuid)
    (since : Time) : ℤ :=
  sent v since + if v = u ∧ since ≤ now then amountMinor else 0

variable {u w : Uuid} {bal : Uuid → ℤ} {sent : Uuid → Time → ℤ}

theorem moved_zero : moved u w 0 bal = bal := by
  funext v
  simp [moved]

theorem moved_moved (a b : ℤ) : moved u w a (moved u w b bal) = moved u w (b + a) bal := by
  funext v
  unfold moved
  split_ifs <;> omega

theorem paidAt_zero {now : Time} : paidAt u now 0 sent = sent := by
  funext v since
  simp [paidAt]

theorem paidAt_paidAt {now : Time} (a b : ℤ) :
    paidAt u now a (paidAt u now b sent) = paidAt u now (b + a) sent := by
  funext v since
  unfold paidAt
  split_ifs <;> omega

/-- Among so many ids there is one that the tables do not know. -/
theorem exists_new {l : List Uuid} (h : l.length < 16 ^ 32) : ∃ id, id ∉ l := by
  by_contra hall
  have huniv : (Finset.univ : Finset Uuid) ⊆ l.toFinset := by
    intro id _
    rw [List.mem_toFinset]
    exact not_not.1 fun hid => hall ⟨id, hid⟩
  have hcard := (Finset.card_le_card huniv).trans l.toFinset_card_le
  rw [Finset.card_univ, Fintype.card_fin] at hcard
  omega

end Resting

section Paying

/-- Calls that have passed their schemas may be started, and driven to their ends. -/
structure Allows (permits : Service → Event → Prop) : Prop where
  start : ∀ s c, c.Valid → permits s (.start c)
  step : ∀ s i id, permits s (.step i id)
  finish : ∀ s i, permits s (.finish i)

variable {cfg : Config} {db₀ : Db} {n : ℕ} {bal : Uuid → ℤ} {sent : Uuid → Time → ℤ} {s : Service}
  {u w : Uuid} {amountMinor : ℤ}

theorem Resting.walletOf? (h : Resting db₀ n bal sent s) (v : Uuid) :
    s.db.walletOf? v = (db₀.walletOf? v).map fun x => { x with balanceMinor := bal x.userId } := by
  rw [Db.walletOf?, h.wallets, List.find?_map]
  rfl

theorem Resting.able (h : Resting db₀ n bal sent s) {v : Uuid} (hv : db₀.Able v) :
    ∃ user wallet, s.db.user? v = some user ∧ user.status = .ACTIVE ∧
      s.db.walletOf? v = some wallet ∧ wallet.status = .ACTIVE ∧ wallet.balanceMinor = bal v := by
  obtain ⟨user, huser, hactive⟩ := (Option.any_eq_true _ _).1 hv.1
  obtain ⟨x, hx, hstatus⟩ := (Option.any_eq_true _ _).1 hv.2
  refine ⟨user, _, ?_, of_decide_eq_true hactive, (h.walletOf? v).trans (congrArg _ hx),
    of_decide_eq_true hstatus, ?_⟩
  · rw [Db.user?, h.users]
    exact huser
  · exact congrArg bal (walletOf?_spec hx).2

theorem Resting.constrained (h : Resting db₀ n bal sent s) (h₀ : Constrained db₀)
    (hbal : ∀ x ∈ db₀.wallets, 0 ≤ bal x.userId ∧ bal x.userId < 2 ^ 53) : Constrained s.db := by
  refine ⟨?_, ?_, fun x hx => ?_, fun x hx => ?_⟩
  · rw [h.wallets, List.map_map]
    exact h₀.walletIds
  · rw [h.wallets, List.map_map]
    exact h₀.owners
  all_goals
    rw [h.wallets] at hx
    obtain ⟨x₀, hx₀, rfl⟩ := List.mem_map.1 hx
  · rw [Db.user?, h.users]
    exact h₀.joined x₀ hx₀
  · have hb := hbal x₀ hx₀
    refine ⟨hb.1, ?_⟩
    simp only [InBigint]
    omega

/-- The terms of a payment that a user can afford. -/
structure Payable (cfg : Config) (db₀ : Db) (bal : Uuid → ℤ) (sent : Uuid → Time → ℤ) (now : Time)
    (u w : Uuid) (amountMinor : ℤ) : Prop where
  other : u ≠ w
  sender : db₀.Able u
  receiver : db₀.Able w
  balances : ∀ x ∈ db₀.wallets, 0 ≤ bal x.userId ∧ bal x.userId < 2 ^ 53
  funds : amountMinor ≤ bal u
  room : bal w + amountMinor < 2 ^ 53
  positive : ∀ p : Period, 0 ≤ sent u (now - p.span)
  limits : ∀ p : Period, sent u (now - p.span) + amountMinor ≤ p.limitMinor cfg ∧
    p.limitMinor cfg < 2 ^ 53

theorem Resting.passes (h : Resting db₀ n bal sent s)
    (hp : Payable cfg db₀ bal sent s.clock u w amountMinor)
    (hamount : RequestSchema.AmountMinor amountMinor) :
    (⟨cfg, u, w, amountMinor, s.clock⟩ : Deal).failing s.db conditions = none := by
  obtain ⟨sender, ws, hsender, hactive, hws, hwstatus, hbal⟩ := h.able hp.sender
  obtain ⟨receiver, wr, hreceiver, hractive, hwr, hrstatus, hrbal⟩ := h.able hp.receiver
  have hused (p : Period) : usedIn s.db u s.clock p = sent u (s.clock - p.span) := h.sent _ _
  have hfits (p : Period) : InBigint (sent u (s.clock - p.span)) := by
    have hpos := hp.positive p
    have hlimit := hp.limits p
    have hx := hamount.1
    unfold InBigint
    omega
  have hfunds := hp.funds
  have hroom := hp.room
  have hreceived : 0 ≤ bal w := by
    obtain ⟨x, hx, -⟩ := (Option.any_eq_true _ _).1 hp.receiver.2
    obtain ⟨hmem, huser⟩ := walletOf?_spec hx
    exact huser ▸ (hp.balances x hmem).1
  have hx := hamount.1
  rw [Deal.failing_eq_none]
  intro c _
  cases c with
  | actor => simp [Deal.holds, hsender]
  | other => simpa [Deal.holds] using hp.other.symm
  | senderWallet => simp [Deal.holds, hws]
  | receiverWallet => simp [Deal.holds, hwr]
  | senderOwner => simp [Deal.holds, hsender, hactive]
  | receiverOwner => simp [Deal.holds, hreceiver, hractive]
  | senderStatus => simp [Deal.holds, hws, hwstatus]
  | receiverStatus => simp [Deal.holds, hwr, hrstatus]
  | amount => simpa [Deal.holds] using hx
  | balance => simpa [Deal.holds, hws, hbal] using hfunds
  | sums => simpa [Deal.holds, hused] using ⟨hfits .daily, hfits .weekly, hfits .monthly⟩
  | window p => simpa [Deal.holds, hused] using (hp.limits p).1
  | credit =>
    have hcredit : InBigint (bal w + amountMinor) := by
      unfold InBigint
      omega
    simpa [Deal.holds, hwr, hrbal] using hcredit

/-- One of the ids that the tables do not know; its text is no key. -/
theorem Resting.exists_id (h : Resting db₀ n bal sent s) (hn : n < 16 ^ 31) : ∃ id : Uuid,
    (∀ r ∈ s.db.idempotencyRecords, r.id ≠ id ∧ r.key.idempotencyKey ≠ id.text) ∧
      ∀ t ∈ s.db.transfers, t.id ≠ id := by
  obtain ⟨hrecords, htransfers⟩ := h.rows
  let records := s.db.idempotencyRecords
  let known := records.map (·.id) ++ (records.filterMap (parseUuid ·.key.idempotencyKey) ++
    s.db.transfers.map (·.id))
  have hlength : known.length < 16 ^ 32 := by
    have hkeys := records.length_filterMap_le (parseUuid ·.key.idempotencyKey)
    simp only [known, List.length_append, List.length_map]
    simp only [records] at hkeys ⊢
    omega
  obtain ⟨id, hid⟩ := exists_new hlength
  simp only [known, List.mem_append, not_or] at hid
  obtain ⟨hids, hkeys, htids⟩ := hid
  refine ⟨id, fun r hr => ⟨fun he => hids ?_, fun he => hkeys ?_⟩, fun t ht he => htids ?_⟩
  · exact he ▸ List.mem_map_of_mem hr
  · exact List.mem_filterMap.2 ⟨r, hr, by rw [he, parseUuid_text]⟩
  · exact he ▸ List.mem_map_of_mem ht

structure Paid (v v' : Db) (u : Uuid) (amountMinor : ℤ) (now : Time) : Prop where
  users : v'.users = v.users
  records : v'.idempotencyRecords.length = v.idempotencyRecords.length + 1
  transfers : ∃ t, v'.transfers = v.transfers ++ [t] ∧ t.senderUserId = u ∧
    t.status = .SUCCEEDED ∧ t.createdAt = now ∧ t.amountMinor = amountMinor

theorem paid_of_returns {v v' : Db} {command : CreateDirectTransferCommand} {receiver : Uuid}
    {draws : ℕ → Draw Time Uuid} {ds : List (Draw Time Uuid)} {a : Response} {now : Time}
    (hg : Good [] v) (hc : Untried command receiver draws v) (hnow : ∀ d ∈ ds, d.now = now)
    (h : store.Returns (runTransfer cfg command) v ds a v') :
    Paid v v' command.actorUserId command.amountMinor now := by
  have heffect : Effect cfg v ds (.createDirectTransfer command) a v' := effect_of_returns hg h
  cases heffect with
  | replay r hr hkey hhash hinput => exact absurd hkey (hc.unused r hr)
  | act x recordId hclaim hdoes hinput =>
    cases hdoes with
    | transfer c z hz =>
      have hsender : command.actorUserId = z.sender.userId :=
        Option.some.inj ((parseUuid_text _).symm.trans hz.senderId)
      refine ⟨rfl, List.length_append, z.transfer (transferInput command) DIRECT_SOURCE, rfl,
        hsender.symm, rfl, hnow _ hz.drawn, rfl⟩

theorem Paid.sums {v v' : Db} {now : Time} (h : Paid v v' u amountMinor now) (x : Uuid)
    (since : Time) : amounts (v'.sentSince x since) =
      paidAt u now amountMinor (fun x since => amounts (v.sentSince x since)) x since := by
  obtain ⟨t, ht, rfl, hstatus, rfl, rfl⟩ := h.transfers
  simp only [Db.sentSince, amounts, ht, List.filter_append, List.map_append, List.sum_append,
    paidAt]
  congr 1
  by_cases hcount : x = t.senderUserId ∧ since ≤ t.createdAt
  · have hkept : decide (t.senderUserId = x ∧ t.status = .SUCCEEDED ∧ since ≤ t.createdAt) = true :=
      decide_eq_true ⟨hcount.1.symm, hstatus, hcount.2⟩
    rw [if_pos hcount, List.filter_singleton, hkept]
    exact add_zero _
  · have hdropped : decide (t.senderUserId = x ∧ t.status = .SUCCEEDED ∧ since ≤ t.createdAt) =
        false := decide_eq_false fun h => hcount ⟨h.1.symm, h.2.2⟩
    rw [if_neg hcount, List.filter_singleton, hdropped]
    rfl

theorem moved_eq (d : Deal) (bal : Uuid → ℤ) (x : Wallet) :
    d.after { x with balanceMinor := bal x.userId } =
      { x with balanceMinor := moved d.sender d.receiver d.amountMinor bal x.userId } := by
  unfold Deal.after moved
  split_ifs <;> rfl

variable {permits : Service → Event → Prop} {clock : Time}

theorem Resting.tick (h : Resting db₀ n bal sent s) (t : Time) :
    Resting db₀ n bal sent { s with clock := t } :=
  ⟨h.idle, h.users, h.wallets, h.rows, h.sent⟩

/-- One payment that can be afforded. -/
theorem Resting.pay (h : Resting db₀ n bal sent s) (hn : n < 16 ^ 31) (hall : Allows permits)
    (hg : Good [] s.db) (h₀ : Constrained db₀)
    (hp : Payable cfg db₀ bal sent s.clock u w amountMinor)
    (hamount : RequestSchema.AmountMinor amountMinor) :
    ∃ s', Sys.Reach (body cfg) permits s s' ∧ s'.clock = s.clock ∧
      Resting db₀ (n + 1) (moved u w amountMinor bal) (paidAt u s.clock amountMinor sent) s' := by
  obtain ⟨id, hrecords, htransfers⟩ := h.exists_id hn
  let command : CreateDirectTransferCommand := ⟨u, w.text, amountMinor, .BDT, none, id.text⟩
  let draws : ℕ → Draw Time Uuid := fun _ => ⟨s.clock, id⟩
  have hdb := h.constrained h₀ hp.balances
  have hc : Untried command w draws s.db :=
    ⟨rfl, fun r hr he => (hrecords r hr).2 (congrArg RecordKey.idempotencyKey he),
      fun _ r hr => (hrecords r hr).1, fun _ => htransfers⟩
  have hpass : store.refusal (runTransfer cfg command) s.db draws = none :=
    (runTransfer_refusal cfg hdb hc).trans (h.passes hp hamount)
  obtain ⟨a, db', k, -, hreturns⟩ := direct_done draws hpass
  have hdraws : (List.range k).map draws = (List.replicate k id).map (Draw.mk s.clock) := by
    rw [List.map_replicate, List.map_const', List.length_range]
  have hpaid : Paid s.db db' u amountMinor s.clock := by
    refine paid_of_returns hg hc (fun d hd => ?_) hreturns
    obtain ⟨_, -, rfl⟩ := List.mem_map.1 hd
    rfl
  have hmoved := (transferred_of_returns hdb hc hreturns).wallets
  have hvalid : (Command.createDirectTransfer command).Valid := by
    rintro x ⟨⟩
    exact hamount
  rw [hdraws] at hreturns
  obtain ⟨s', hreach, hidle, rfl, hclock⟩ : ∃ s', Sys.Reach (body cfg) permits s s' ∧
      s'.Idle ∧ s'.db = db' ∧ s'.clock = s.clock :=
    h.idle.reach_returns (c := .createDirectTransfer command) (hall.start s _ hvalid) hall.step
      hall.finish hreturns
  refine ⟨s', hreach, hclock, hidle, hpaid.users.trans h.users, ?_, ⟨?_, ?_⟩, fun x since => ?_⟩
  · rw [hmoved, h.wallets, List.map_map]
    exact List.map_congr_left fun x _ => moved_eq _ bal x
  · have hlength := hpaid.records
    have hbefore := h.rows.1
    omega
  · obtain ⟨t, ht, -⟩ := hpaid.transfers
    rw [ht, List.length_append, List.length_singleton]
    exact Nat.succ_le_succ h.rows.2
  · rw [hpaid.sums]
    simp only [paidAt, h.sent]

/-- Any number of payments, as long as all of them together can be afforded. -/
theorem Resting.pay_many (k : ℕ) (h : Resting db₀ n bal sent s) (hn : n + k < 16 ^ 31)
    (hall : Allows permits) (hg₀ : Good [] db₀) (h₀ : Constrained db₀)
    (hreach : Sys.Reach (body cfg) Open (Service.initial db₀ clock) s)
    (hp : Payable cfg db₀ bal sent s.clock u w (k * amountMinor))
    (hamount : RequestSchema.AmountMinor amountMinor) :
    ∃ s', Sys.Reach (body cfg) permits s s' ∧ s'.clock = s.clock ∧
      Resting db₀ (n + k) (moved u w (k * amountMinor) bal)
        (paidAt u s.clock (k * amountMinor) sent) s' := by
  induction k with
  | zero =>
    refine ⟨s, .refl, rfl, ?_⟩
    simpa only [Nat.cast_zero, zero_mul, moved_zero, paidAt_zero, add_zero] using h
  | succ k ih =>
    have hx := hamount.1
    have hfunds := hp.funds
    have hroom := hp.room
    have hother := hp.other
    push_cast at hp hfunds hroom ⊢
    obtain ⟨s₁, hreach₁, hclock₁, h₁⟩ := ih (by omega)
      { hp with
        funds := by linarith
        room := by linarith
        limits := fun p => ⟨by linarith [(hp.limits p).1], (hp.limits p).2⟩ }
    have hgood := (open_inv hg₀ (hreach.trans _ (hreach₁.mono _ fun _ _ _ => trivial))).good
    have hrest : Payable cfg db₀ (moved u w (k * amountMinor) bal)
        (paidAt u s.clock (k * amountMinor) sent) s₁.clock u w amountMinor := by
      rw [hclock₁]
      refine { hp with balances := fun y hy => ?_, funds := ?_, room := ?_, positive := fun p => ?_,
                       limits := fun p => ⟨?_, (hp.limits p).2⟩ }
      · have hv := hp.balances y hy
        have hkx : (0 : ℤ) ≤ k * amountMinor := by positivity
        unfold moved
        split_ifs with hu hw
        · rw [hu]
          rw [hu] at hv
          constructor <;> linarith
        · rw [hw]
          rw [hw] at hv
          constructor <;> linarith
        · exact hv
      · rw [moved, if_pos rfl]
        linarith
      · rw [moved, if_neg hother.symm, if_pos rfl]
        linarith
      · have hkx : (0 : ℤ) ≤ k * amountMinor := by positivity
        have hpos := hp.positive p
        unfold paidAt
        split_ifs <;> omega
      · have hlimit := (hp.limits p).1
        have hkx : (0 : ℤ) ≤ k * amountMinor := by positivity
        unfold paidAt
        split_ifs <;> linarith
    obtain ⟨s₂, hreach₂, hclock₂, h₂⟩ := h₁.pay (by omega) hall hgood h₀ hrest hamount
    refine ⟨s₂, hreach₁.trans _ hreach₂, hclock₂.trans hclock₁, ?_⟩
    rw [hclock₁, moved_moved, paidAt_paidAt, ← add_one_mul] at h₂
    exact h₂

end Paying

end MoneyMovement
