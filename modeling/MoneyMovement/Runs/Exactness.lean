import MoneyMovement.Queries.Reads
import MoneyMovement.Runs.Amounts
import MoneyMovement.Runs.Payments
import MoneyMovement.Runs.Replay

/-!
# Amounts are exact

When the seeds of all users together fit a JavaScript number, so does every balance, since
money only moves; and when the limits do, so does every window sum, since the limits hold.
Then nothing that the code sums or stores leaves a `BIGINT`, and no amount it shows was
rounded, save the sum of a window that `GET /wallet` has read the clock for before a
transfer and queried after it.
-/

namespace MoneyMovement

open Txn TransferService TransactionLimitService

variable {cfg : Config} {db₀ v v' : Db} {clock : Time} {s s' : Service} {ds : List (Draw Time Uuid)}
  {c : Command} {a : Response}

section Supply

structure Endowed (cfg : Config) (db : Db) : Prop extends Start db where
  funded : ∀ w ∈ db.wallets, w.balanceMinor = cfg.initialWalletBalanceMinor
  joined : ∀ w ∈ db.wallets, ∃ u ∈ db.users, u.id = w.userId

/-- What starts has passed its schema, and who registers gets the configured balance. -/
def Endowing (cfg : Config) (_ : Service) : Event → Prop
  | .start c => c.Valid
  | .external r => r.initialWalletBalanceMinor = cfg.initialWalletBalanceMinor
  | _ => True

instance (cfg : Config) (s : Service) : ∀ l, Decidable (Endowing cfg s l)
  | .start c => inferInstanceAs (Decidable c.Valid)
  | .external r =>
    inferInstanceAs (Decidable (r.initialWalletBalanceMinor = cfg.initialWalletBalanceMinor))
  | .tick _ | .step _ _ | .finish _ | .kill _ => inferInstanceAs (Decidable True)

theorem open_of_endowing (h : Sys.Reach (body cfg) (Endowing cfg) (Service.initial db₀ clock) s) :
    Sys.Reach (body cfg) Open (Service.initial db₀ clock) s :=
  h.mono _ fun _ _ _ => trivial

theorem endowed (h : Sys.Reach (body cfg) (Endowing cfg) (Service.initial db₀ clock) s) :
    s.Admitted Command.Valid
      (fun r => r.initialWalletBalanceMinor = cfg.initialWalletBalanceMinor) :=
  Sys.Admitted.reach (fun _ _ hc => hc) (fun _ _ hr => hr)
    ⟨fun i t ht => by simp [Service.initial, Sys.tx] at ht, fun e he => (List.not_mem_nil he).elim,
      fun x hx => (List.not_mem_nil hx).elim⟩ h

/-- Every wallet belongs to a user. -/
theorem wallets_joined (h₀ : Endowed cfg db₀)
    (h : Sys.Reach (body cfg) Open (Service.initial db₀ clock) s) :
    ∀ w ∈ s.db.wallets, ∃ u ∈ s.db.users, u.id = w.userId := by
  refine reachable_tables (J := fun v => ∀ w ∈ v.wallets, ∃ u ∈ v.users, u.id = w.userId)
    h₀.good h₀.joined (fun v ds c a v' _ hj he => ?_) (fun v r v' _ hj hr => ?_) h
  · rw [he.users]
    rcases he.money with ⟨hw, -, -⟩ | ⟨input, source, z, hz, hw, -, -⟩
    · rw [hw]
      exact hj
    · intro w hm
      rw [hw] at hm
      obtain ⟨w₁, hw₁, rfl⟩ := List.mem_map.1 hm
      obtain ⟨w₀, hw₀, rfl⟩ := List.mem_map.1 hw₁
      simpa using hj w₀ hw₀
  · obtain ⟨-, -, -, rfl⟩ := register_spec hr
    intro w hm
    rcases List.mem_append.1 hm with hm | hm
    · obtain ⟨u, hu, hid⟩ := hj w hm
      exact ⟨u, List.mem_append_left _ hu, hid⟩
    · rw [List.mem_singleton.1 hm]
      exact ⟨_, List.mem_append_right _ (List.mem_singleton_self _), rfl⟩

/-- There are no more wallets than users. -/
theorem wallets_le_users (h₀ : Endowed cfg db₀)
    (h : Sys.Reach (body cfg) Open (Service.initial db₀ clock) s) :
    s.db.wallets.length ≤ s.db.users.length := by
  have hsub : s.db.wallets.map Wallet.userId ⊆ s.db.users.map User.id := by
    intro u hu
    obtain ⟨w, hw, rfl⟩ := List.mem_map.1 hu
    exact List.mem_map.2 (wallets_joined h₀ h w hw)
  have hle := ((open_inv h₀.good h).good.owners.subperm hsub).length_le
  simpa using hle

/-- The money in all wallets is what the users were given. -/
theorem total_balance (h₀ : Endowed cfg db₀)
    (h : Sys.Reach (body cfg) (Endowing cfg) (Service.initial db₀ clock) s) :
    (s.db.wallets.map Wallet.balanceMinor).sum =
      s.db.wallets.length * (cfg.initialWalletBalanceMinor : ℤ) := by
  have hr := reconciled h₀.toStart (open_of_endowing h)
  have hseeds : ∀ n ∈ (seeds db₀ s.log).map Prod.snd, n = (cfg.initialWalletBalanceMinor : ℤ) := by
    intro n hn
    obtain ⟨p, hp, rfl⟩ := List.mem_map.1 hn
    rcases List.mem_append.1 hp with hp | hp
    · obtain ⟨w, hw, rfl⟩ := List.mem_map.1 hp
      exact h₀.funded w hw
    · obtain ⟨e, he, hx⟩ := List.mem_filterMap.1 hp
      cases e with
      | external r =>
        cases hx
        exact congrArg Nat.cast ((endowed h).external r he)
      | ended x => cases hx
      | killed c => cases hx
  have hlength : ((seeds db₀ s.log).map Prod.snd).length = s.db.wallets.length := by
    simpa using (congrArg List.length hr.ids).symm
  rw [hr.total, List.eq_replicate_of_mem hseeds, List.sum_replicate, hlength, nsmul_eq_mul]

/-- The seeds of all users together are a number that JavaScript shows exactly. -/
def Affordable (cfg : Config) (db : Db) : Prop :=
  cfg.initialWalletBalanceMinor * db.users.length < 2 ^ 53

theorem balances_bounded (h₀ : Endowed cfg db₀)
    (h : Sys.Reach (body cfg) (Endowing cfg) (Service.initial db₀ clock) s)
    (hs : Affordable cfg s.db) :
    ∀ w ∈ s.db.wallets, 0 ≤ w.balanceMinor ∧ w.balanceMinor < 2 ^ 53 := by
  have hopen := open_of_endowing h
  have hpos := (open_inv h₀.good hopen).good.balances
  intro w hw
  refine ⟨hpos w hw, ?_⟩
  have hpart : w.balanceMinor ≤ (s.db.wallets.map Wallet.balanceMinor).sum := by
    refine List.single_le_sum (fun n hn => ?_) _ (List.mem_map_of_mem hw)
    obtain ⟨w', hw', rfl⟩ := List.mem_map.1 hn
    exact hpos w' hw'
  have hwallets : s.db.wallets.length * cfg.initialWalletBalanceMinor < 2 ^ 53 := by
    refine lt_of_le_of_lt (Nat.mul_le_mul_right _ (wallets_le_users h₀ hopen)) ?_
    rw [Nat.mul_comm]
    exact hs
  rw [total_balance h₀ h] at hpart
  have hcast : (s.db.wallets.length : ℤ) * (cfg.initialWalletBalanceMinor : ℤ) < 2 ^ 53 := by
    exact_mod_cast hwallets
  exact lt_of_le_of_lt hpart hcast

end Supply

section Reaching

theorem users_length_le (h₀ : Good [] db₀)
    (h : Sys.Reach (body cfg) Open (Service.initial db₀ clock) s) {l : Event}
    (hs : s.step? (body cfg) l = some s') : s.db.users.length ≤ s'.db.users.length := by
  rcases step_tables (open_inv h₀ h) hs with heq | ⟨r, -, hr⟩ | ⟨i, t, a, -, -, -, he⟩
  · rw [heq]
  · obtain ⟨-, -, -, heq⟩ := register_spec hr
    rw [heq]
    simp
  · rw [he.users]

def Affording (cfg : Config) (s : Service) (l : Event) : Prop :=
  Endowing cfg s l ∧ ∀ s', s.step? (body cfg) l = some s' → Affordable cfg s'.db

/-- Users only ever come on top, so what is affordable now was so in every state before. -/
theorem affordable_before (h₀ : Good [] db₀)
    (h : Sys.Reach (body cfg) Open (Service.initial db₀ clock) s)
    (h' : Sys.Reach (body cfg) Open s s') (hsupply : Affordable cfg s'.db) :
    Affordable cfg s.db := by
  induction h' with
  | refl => exact hsupply
  | tail l hreach _ hstep ih =>
    have hle := users_length_le h₀ (h.trans _ hreach) hstep
    exact ih (lt_of_le_of_lt (Nat.mul_le_mul_left _ hle) hsupply)

theorem affording_of_endowing (h₀ : Good [] db₀)
    (h : Sys.Reach (body cfg) (Endowing cfg) (Service.initial db₀ clock) s)
    (hs : Affordable cfg s.db) : Affordable cfg db₀ ∧
      Sys.Reach (body cfg) (Affording cfg) (Service.initial db₀ clock) s := by
  have hstart : Sys.Reach (body cfg) Open (Service.initial db₀ clock)
      (Service.initial db₀ clock) := .refl
  refine ⟨affordable_before h₀ hstart (open_of_endowing h) hs, ?_⟩
  induction h with
  | refl => exact .refl
  | @tail s₁ s₂ l hreach hl hstep ih =>
    have hbefore : Affordable cfg s₁.db :=
      affordable_before h₀ (open_of_endowing hreach) (.tail l .refl trivial hstep) hs
    refine (ih hbefore).tail l ⟨hl, fun s'' hs'' => ?_⟩ hstep
    obtain rfl := Option.some.inj (hstep.symm.trans hs'')
    exact hs

theorem endowing_of_affording
    (h : Sys.Reach (body cfg) (Affording cfg) (Service.initial db₀ clock) s) :
    Sys.Reach (body cfg) (Endowing cfg) (Service.initial db₀ clock) s :=
  h.mono _ fun _ _ hl => hl.1

theorem affordable (hs₀ : Affordable cfg db₀)
    (h : Sys.Reach (body cfg) (Affording cfg) (Service.initial db₀ clock) s) :
    Affordable cfg s.db := by
  cases h with
  | refl => exact hs₀
  | tail l _ hl hstep => exact hl.2 s hstep

theorem sane (h₀ : Endowed cfg db₀) (hs₀ : Affordable cfg db₀)
    (h : Sys.Reach (body cfg) (Affording cfg) (Service.initial db₀ clock) s) :
    Sane cfg s.clock s.db := by
  have hendowing := endowing_of_affording h
  have hopen := open_of_endowing hendowing
  have hvalid := (made h₀.toStart hopen).valid (endowed hendowing)
  exact {
    walletIds := (open_inv h₀.good hopen).good.walletIds
    balances := balances_bounded h₀ hendowing (affordable hs₀ h)
    requested := hvalid.2
    limited := ⟨fun t ht => (hvalid.1 t ht).1, (rolling_limits_hold h₀.toStart hopen).1⟩
    past := fun t ht => ((created_since h₀.toStart hopen).1 t ht).2 }

theorem endowed_sane (h₀ : Endowed cfg db₀)
    (h : Sys.Reach (body cfg) (Endowing cfg) (Service.initial db₀ clock) s)
    (hs : Affordable cfg s.db) : Sane cfg s.clock s.db :=
  have haffording := affording_of_endowing h₀.good h hs
  sane h₀ haffording.1 haffording.2

/-- The amounts in the ledger fit, too: each was the balance of a wallet. -/
theorem entries_bounded (h₀ : Endowed cfg db₀) (hs₀ : Affordable cfg db₀)
    (h : Sys.Reach (body cfg) (Affording cfg) (Service.initial db₀ clock) s) :
    ∀ e ∈ s.db.ledgerEntries, e.balanceAfterMinor.natAbs < 2 ^ 53 := by
  induction h with
  | refl =>
    intro e he
    rw [show (Service.initial db₀ clock).db.ledgerEntries = [] from h₀.ledgerEntries] at he
    cases he
  | @tail s s' l hreach hl hstep ih =>
    have hinv := open_inv h₀.good (open_of_endowing (endowing_of_affording hreach))
    rcases step_tables hinv hstep with heq | ⟨r, -, hr⟩ | ⟨i, t, a, -, -, -, he⟩
    · rwa [heq]
    · obtain ⟨-, -, -, heq⟩ := register_spec hr
      rwa [heq]
    · rcases he.money with ⟨-, -, hledger⟩ | ⟨input, source, z, hz, hw, -, hledger⟩
      · rwa [hledger]
      · have hbefore := (sane h₀ hs₀ hreach).balances
        have hafter := (sane h₀ hs₀ (hreach.tail l hl hstep)).balances
        obtain ⟨x, hx, r, hr, -, -, hxb, hrid, -, hrb, hne⟩ :=
          hz.parties hinv.good.walletIds
        have hamount := hz.amount
        have hsender := hbefore x hx
        -- The receiver's new balance is that of a wallet after the step.
        have hcredited : (r.addBalance z.sender.id (-input.amountMinor)).addBalance z.receiver.id
            input.amountMinor ∈ s'.db.wallets := by
          rw [hw]
          exact List.mem_map_of_mem (List.mem_map_of_mem hr)
        have hreceiver := hafter _ hcredited
        rw [addBalance_of_ne (fun heq => hne (heq.symm.trans hrid)), Wallet.addBalance,
          if_pos hrid] at hreceiver
        intro e hm
        rw [hledger] at hm
        simp only [Settlement.apply, List.mem_append, List.mem_cons, List.not_mem_nil,
          or_false] at hm
        rcases hm with hm | rfl | rfl
        · exact ih e hm
        · simp only [debitEntry]
          omega
        · simp only [creditEntry]
          simp only at hreceiver
          omega

/-- The open transactions of a run raise mild errors only. -/
theorem tame_reach (h₀ : Endowed cfg db₀) (hs₀ : Affordable cfg db₀)
    (hlimits : ∀ p : Period, p.limitMinor cfg < 2 ^ 53)
    (h : Sys.Reach (body cfg) (Affording cfg) (Service.initial db₀ clock) s) (i : ℕ)
    (t : Tx store Command Response) (ht : s.tx i = some t) :
    TameFor cfg t.call.key.actorUserId (fun _ _ _ _ _ => True) t.rest t.held t.writes s.db
      s.clock :=
  Protocol.Tame.reach (P := protocol False) (I := Sane cfg)
    (Z := fun c => Mild cfg c.key.actorUserId) Command.Valid
    (fun _ hr => open_inv h₀.good (open_of_endowing (endowing_of_affording hr)))
    (fun _ hr => sane h₀ hs₀ hr) (fun c db now hc hsane => tame_body cfg hlimits c db now hc hsane)
    (fun _ _ hl => hl.1) (fun _ _ _ => id) (fun i => by simp [Service.initial, Sys.tx]) h i t ht

end Reaching

section Receipts

/-- The row of a transfer and the ledger entry of its sender that a receipt is about. -/
structure Receipted (v : Db) (dto : TransferDto) (t : Transfer) (e : LedgerEntry) : Prop where
  transfer : t ∈ v.transfers
  entry : e ∈ v.ledgerEntries
  id : dto.transferId = t.id
  amount : dto.amountMinor = number t.amountMinor
  debit : e.transferId = t.id ∧ e.direction = .DEBIT
  balance : dto.senderBalanceAfterMinor = some (number e.balanceAfterMinor)

/-- What a stored response says is in the tables. -/
structure Vouched (v : Db) : Prop where
  transfers : ∀ r ∈ v.idempotencyRecords, ∀ dto, r.responseBody = some (.transfer dto) →
    ∃ t e, Receipted v dto t e
  requests : ∀ r ∈ v.idempotencyRecords, ∀ dto, r.responseBody = some (.moneyRequest dto) →
    ∃ q ∈ v.moneyRequests, dto.requestId = q.id ∧ dto.amountMinor = number q.amountMinor

theorem Receipted.mono {dto : TransferDto} {t : Transfer} {e : LedgerEntry}
    (h : Receipted v dto t e) (ht : v.transfers ⊆ v'.transfers)
    (he : v.ledgerEntries ⊆ v'.ledgerEntries) : Receipted v' dto t e :=
  ⟨ht h.transfer, he h.entry, h.id, h.amount, h.debit, h.balance⟩

/-- One more record, and nothing vouched for is lost. -/
theorem Vouched.add (h : Vouched v) {r : IdempotencyRecord}
    (hr : v'.idempotencyRecords = v.idempotencyRecords ++ [r])
    (ht : v.transfers ⊆ v'.transfers) (he : v.ledgerEntries ⊆ v'.ledgerEntries)
    (hq : ∀ q ∈ v.moneyRequests, ∃ q' ∈ v'.moneyRequests, q'.id = q.id ∧
      q'.amountMinor = q.amountMinor)
    (htransfer : ∀ dto, r.responseBody = some (.transfer dto) → ∃ t e, Receipted v' dto t e)
    (hrequest : ∀ dto, r.responseBody = some (.moneyRequest dto) →
      ∃ q ∈ v'.moneyRequests, dto.requestId = q.id ∧ dto.amountMinor = number q.amountMinor) :
    Vouched v' := by
  refine ⟨fun x hx dto hdto => ?_, fun x hx dto hdto => ?_⟩
  · rw [hr] at hx
    rcases List.mem_append.1 hx with hx | hx
    · obtain ⟨t, e, hte⟩ := h.transfers x hx dto hdto
      exact ⟨t, e, hte.mono ht he⟩
    · obtain rfl := List.mem_singleton.1 hx
      exact htransfer dto hdto
  · rw [hr] at hx
    rcases List.mem_append.1 hx with hx | hx
    · obtain ⟨q, hmem, hid, hamount⟩ := h.requests x hx dto hdto
      obtain ⟨q', hmem', hid', hamount'⟩ := hq q hmem
      exact ⟨q', hmem', hid.trans hid'.symm, by rw [hamount, hamount']⟩
    · obtain rfl := List.mem_singleton.1 hx
      exact hrequest dto hdto

theorem Vouched.effect (h : Vouched v) (he : Effect cfg v ds c a v') : Vouched v' := by
  have self (q : MoneyRequest) (hq : q ∈ v.moneyRequests) :
      ∃ q' ∈ v.moneyRequests, q'.id = q.id ∧ q'.amountMinor = q.amountMinor := ⟨q, hq, rfl, rfl⟩
  have update {f : MoneyRequest → MoneyRequest} (hid : ∀ q, (f q).id = q.id)
      (hamount : ∀ q, (f q).amountMinor = q.amountMinor) (q : MoneyRequest)
      (hq : q ∈ v.moneyRequests) :
      ∃ q' ∈ v.moneyRequests.map f, q'.id = q.id ∧ q'.amountMinor = q.amountMinor :=
    ⟨f q, List.mem_map_of_mem hq, hid q, hamount q⟩
  have resolve (id : Uuid) (st : MoneyRequestStatus) (at_ : Time) (q : MoneyRequest) :
      (q.resolve id st at_).amountMinor = q.amountMinor := by
    unfold MoneyRequest.resolve
    split <;> rfl
  have accept (id t : Uuid) (at_ : Time) (q : MoneyRequest) :
      (q.accept id t at_).amountMinor = q.amountMinor := by
    unfold MoneyRequest.accept
    split <;> rfl
  cases he with
  | replay => exact h
  | act x recordId hclaim hdoes =>
    cases hdoes with
    | transfer c z hz =>
      refine h.add rfl (List.subset_append_left _ _) (List.subset_append_left _ _) self
        (fun dto hdto => ?_) (fun dto hdto => by cases hdto)
      cases hdto
      exact ⟨z.transfer (transferInput c) DIRECT_SOURCE,
        debitEntry (transferInput c) z.inserted.id z.sender,
        List.mem_append_right _ (List.mem_singleton_self _),
        List.mem_append_right _ List.mem_cons_self, rfl, rfl, ⟨rfl, rfl⟩, rfl⟩
    | create c payer user inserted event now =>
      refine h.add rfl (List.Subset.refl _) (List.Subset.refl _)
        (fun q hq => ⟨q, List.mem_append_left _ hq, rfl, rfl⟩) (fun dto hdto => by cases hdto)
        (fun dto hdto => ?_)
      cases hdto
      exact ⟨_, List.mem_append_right _ (List.mem_singleton_self _), rfl, rfl⟩
    | accept c r z resolvedAt event now hr =>
      refine h.add rfl (List.subset_append_left _ _) (List.subset_append_left _ _)
        (update (accept_id _ _ _) (accept _ _ _)) (fun dto hdto => by cases hdto)
        (fun dto hdto => ?_)
      cases hdto
      exact ⟨_, List.mem_map_of_mem (mem_of_request? hr.found), rfl, rfl⟩
    | decline c r resolvedAt event now hr =>
      refine h.add rfl (List.Subset.refl _) (List.Subset.refl _)
        (update (resolve_id _ _ _) (resolve _ _ _)) (fun dto hdto => by cases hdto)
        (fun dto hdto => ?_)
      cases hdto
      exact ⟨_, List.mem_map_of_mem (mem_of_request? hr.found), rfl, rfl⟩
    | cancel c r resolvedAt event now hr =>
      refine h.add rfl (List.Subset.refl _) (List.Subset.refl _)
        (update (resolve_id _ _ _) (resolve _ _ _)) (fun dto hdto => by cases hdto)
        (fun dto hdto => ?_)
      cases hdto
      exact ⟨_, List.mem_map_of_mem (mem_of_request? hr.found), rfl, rfl⟩

theorem vouched (h₀ : Start db₀)
    (h : Sys.Reach (body cfg) Open (Service.initial db₀ clock) s) : Vouched s.db := by
  refine reachable_tables h₀.good ?_ (fun _ _ _ _ _ _ hj he => hj.effect he)
    (fun v r v' _ hj hr => ?_) h
  · exact ⟨by simp [h₀.idempotencyRecords], by simp [h₀.idempotencyRecords]⟩
  · obtain ⟨-, -, -, rfl⟩ := register_spec hr
    refine ⟨fun r hr dto hdto => ?_, hj.requests⟩
    obtain ⟨t, e, hte⟩ := hj.transfers r hr dto hdto
    exact ⟨t, e, hte.mono (List.Subset.refl _) (List.Subset.refl _)⟩

end Receipts

section Numbers

/-- What the code adds up and stores fits a `BIGINT`, and what it shows was not rounded. -/
structure Precise (cfg : Config) (s : Service) : Prop where
  /-- No statement of an open transaction leaves its range. -/
  stored : ∀ i t st k id, s.tx i = some t → t.rest = .op st k →
    store.exec st (store.view s.db t.writes) ⟨s.clock, id⟩ ≠ .error (.db .outOfRange)
  /-- The details of a refused transfer are the caller's own sum, the limit and the amount. -/
  raised : ∀ i t e, s.tx i = some t → t.rest = .fail e → Mild cfg t.call.key.actorUserId s.db e
  ended : ∀ x ∈ s.ended, x.outcome ≠ .error (.db .outOfRange)
  transfers : ∀ t ∈ s.db.transfers, ∀ balance risk,
    (toTransferDto t balance risk).amountMinor = t.amountMinor
  moneyRequests : ∀ r ∈ s.db.moneyRequests, ∀ now,
    (toMoneyRequestDto r now).amountMinor = r.amountMinor
  activity : ∀ u, ∀ row ∈ ActivityRepository.union u s.db, ∀ counterparties now,
    (ActivityQueryService.toDto counterparties now row).amountMinor = row.amountMinor
  wallets : ∀ w ∈ s.db.wallets, InBigint w.balanceMinor ∧
    ∀ limits, (toWalletDto w limits).balanceMinor = w.balanceMinor
  past : ∀ t ∈ s.db.transfers, t.createdAt ≤ s.clock
  receipts : ∀ x ∈ s.ended, ∀ dto, x.outcome = .ok (.transfer dto) →
    ∃ t ∈ s.db.transfers, ∃ e ∈ s.db.ledgerEntries, dto.transferId = t.id ∧
      dto.amountMinor = t.amountMinor ∧ e.transferId = t.id ∧ e.direction = .DEBIT ∧
      dto.senderBalanceAfterMinor = some e.balanceAfterMinor
  answers : ∀ x ∈ s.ended, ∀ dto, x.outcome = .ok (.moneyRequest dto) →
    ∃ r ∈ s.db.moneyRequests, dto.requestId = r.id ∧ dto.amountMinor = r.amountMinor

theorem eq_some_of_getD {o : Option Response} (h : o.getD .null = a) (ha : a ≠ .null) :
    o = some a := by
  cases o with
  | none => exact absurd h.symm ha
  | some b => exact congrArg some h

/-- Nothing of the user's was made after this reading of the clock. -/
def UpToDate (v : Db) (u : Uuid) (now : Time) : Prop :=
  ∀ t ∈ v.transfers, t.senderUserId = u → t.createdAt ≤ now

/-- What `GET /wallet` shows that has read the wallet in `s₀`, the clock in `s₁` and the sums
in `s`. -/
structure ShownExactly (cfg : Config) (s₀ s₁ s : Service) (u : Uuid) (wallet : Wallet) :
    Prop where
  /-- The sums fit their type for as long as no query waits for years. -/
  shown : UpToDate s.db u s₁.clock ∨ s.clock ≤ s₁.clock + 1023 * DAY_MS →
    ∃ usage, getForUser cfg s₀.db s.db u s₁.clock =
        .ok ⟨wallet.id, wallet.currency, wallet.balanceMinor, wallet.status, usage⟩ ∧
      ∀ p, usage.window p = ⟨p.limitMinor cfg, number (usedIn s.db u s₁.clock p),
        headroom (usedIn s.db u s₁.clock p) (p.limitMinor cfg)⟩
  exact : UpToDate s.db u s₁.clock →
    ∀ p, number (usedIn s.db u s₁.clock p) = usedIn s.db u s₁.clock p

theorem toWindowDto_exact {usedMinor limitMinor : ℤ} (hu : 0 ≤ usedMinor)
    (hl : 0 < limitMinor) (hlimit : limitMinor < 2 ^ 53) :
    toWindowDto usedMinor limitMinor =
      ⟨limitMinor, number usedMinor, headroom usedMinor limitMinor⟩ := by
  have hremaining : number (headroom usedMinor limitMinor) = headroom usedMinor limitMinor :=
    number_exact (by unfold headroom; omega)
  have hshown := (toWindowDto_remaining usedMinor limitMinor).trans hremaining
  have hnumber : number limitMinor = limitMinor := number_exact (by omega)
  calc toWindowDto usedMinor limitMinor
      = ⟨number limitMinor, number usedMinor, (toWindowDto usedMinor limitMinor).remainingMinor⟩ :=
        rfl
    _ = ⟨limitMinor, number usedMinor, headroom usedMinor limitMinor⟩ := by rw [hshown, hnumber]

theorem Period.day_le_span (p : Period) : DAY_MS ≤ p.span := by
  cases p <;> decide

/-- The sums of a query that is years late at most. -/
theorem usedIn_fits {v : Db} {u : Uuid} {now last : Time}
    (hlimits : ∀ p : Period, p.limitMinor cfg < 2 ^ 53) (hl : Limited cfg v)
    (hpast : ∀ t ∈ v.transfers, t.createdAt ≤ last)
    (h : UpToDate v u now ∨ last ≤ now + 1023 * DAY_MS) (p : Period) :
    0 ≤ usedIn v u now p ∧ InBigint (usedIn v u now p) := by
  have hlimit := hlimits p
  rcases h with hnone | hsoon
  · obtain ⟨hpos, hle⟩ := usedIn_bounds hl hnone p
    exact ⟨hpos, inBigint_of_lt (by omega)⟩
  · have hspan := p.day_le_span
    obtain ⟨hpos, hle⟩ : 0 ≤ usedIn v u now p ∧
        usedIn v u now p ≤ ((1023 : ℕ) + 1) * p.limitMinor cfg :=
      usedIn_late hl (fun t ht _ => hpast t ht) p 1023 (by push_cast; linarith)
    refine ⟨hpos, ?_⟩
    unfold InBigint
    push_cast at hle
    omega

/-- A wallet was read in a state with exact balances. -/
theorem shownExactly {s₀ s₁ : Service} {u : Uuid} {wallet : Wallet}
    (hlimits : ∀ p : Period, p.limitMinor cfg < 2 ^ 53) (hsane₀ : Sane cfg s₀.clock s₀.db)
    (hsane : Sane cfg s.clock s.db) (hwallet : s₀.db.walletOf? u = some wallet) :
    ShownExactly cfg s₀ s₁ s u wallet := by
  refine ⟨fun h => ?_, fun h p => ?_⟩
  · have hfits := usedIn_fits hlimits hsane.limited hsane.past h
    have hsums : execSumSent s.db u (windowsSince s₁.clock) = .ok _ :=
      (execSumSent_eq s.db u s₁.clock).trans
        (if_pos ⟨(hfits .daily).2, (hfits .weekly).2, (hfits .monthly).2⟩)
    obtain ⟨usage, hshown, hwindow⟩ := getUsage_window cfg hsums
    have hbalance := hsane₀.balances wallet (walletOf?_spec hwallet).1
    have hnumber : number wallet.balanceMinor = wallet.balanceMinor :=
      number_exact (by omega)
    refine ⟨usage, ?_, fun p => ?_⟩
    · simp only [getForUser, hwallet, hshown]
      rw [← hnumber]
      exact congrArg Except.ok (congrArg₂ _ rfl rfl)
    · rw [hwindow p, ← toWindowDto_exact (hfits p).1 (p.limitMinor_pos cfg) (hlimits p)]
      cases p <;> rfl
  · obtain ⟨hpos, hle⟩ := usedIn_bounds hsane.limited h p
    have hlimit := hlimits p
    exact number_exact (by omega)

theorem precise (h₀ : Endowed cfg db₀) (hlimits : ∀ p : Period, p.limitMinor cfg < 2 ^ 53)
    (h : Sys.Reach (body cfg) (Endowing cfg) (Service.initial db₀ clock) s)
    (hsupply : Affordable cfg s.db) : Precise cfg s := by
  have hopen := open_of_endowing h
  obtain ⟨hs₀, hreach⟩ := affording_of_endowing h₀.good h hsupply
  have hsane := sane h₀ hs₀ hreach
  have hvalid := (made h₀.toStart hopen).valid (endowed h)
  have hvouched := vouched h₀.toStart hopen
  have hfails (s : Service) (i : ℕ) (t : Tx store Command Response) (e : Failure)
      (h : Sys.Reach (body cfg) (Affording cfg) (Service.initial db₀ clock) s)
      (ht : s.tx i = some t) (hr : t.rest = .fail e) :
      Mild cfg t.call.key.actorUserId s.db e := by
    have htame := tame_reach h₀ hs₀ hlimits h i t ht
    rw [hr] at htame
    exact htame s.db s.clock (Protocol.Onward.refl (sane h₀ hs₀ h))
  refine {
    stored := fun i t st k id ht hr hx => ?_
    raised := fun i t e ht hr => hfails s i t e hreach ht hr
    ended := fun x hx he => ?_
    transfers := fun t ht _ _ => number_exact (hvalid.1 t ht).natAbs_lt
    moneyRequests := fun r hr _ => number_exact (hvalid.2 r hr).natAbs_lt
    activity := fun u row hrow _ _ => ?_
    wallets := fun w hw => ?_
    past := hsane.past
    receipts := fun x hx dto hok => ?_
    answers := fun x hx dto hok => ?_ }
  · have htame := tame_reach h₀ hs₀ hlimits hreach i t ht
    rw [hr] at htame
    have hop := htame s.db s.clock (Protocol.Onward.refl hsane) id
    rw [hx] at hop
    exact hop s.db s.clock (Protocol.Onward.refl hsane) rfl
  · exact Protocol.failed_reach (Z := fun _ e => e ≠ .db .outOfRange)
      (fun s' i t e hs' ht hr hout => by
        subst hout
        exact hfails s' i t _ hs' ht hr rfl) rfl hreach x hx _ he rfl
  · rcases List.mem_append.1 hrow with hm | hm
    · obtain ⟨t, ht, rfl⟩ := List.mem_map.1 hm
      exact number_exact (hvalid.1 t (List.mem_of_mem_filter ht)).natAbs_lt
    · obtain ⟨r, hr, rfl⟩ := List.mem_map.1 hm
      exact number_exact (hvalid.2 r (List.mem_of_mem_filter hr)).natAbs_lt
  · have hb := hsane.balances w hw
    exact ⟨inBigint_of_lt (by omega), fun _ => number_exact (by omega)⟩
  · obtain ⟨r, hr⟩ := ended_answered h₀.toStart hopen hx hok
    obtain ⟨t, e, hte⟩ := hvouched.transfers r (List.mem_of_find?_eq_some hr.found) dto
      (eq_some_of_getD hr.body (by simp))
    refine ⟨t, hte.transfer, e, hte.entry, hte.id, ?_, hte.debit.1, hte.debit.2, ?_⟩
    · rw [hte.amount]
      exact number_exact (hvalid.1 t hte.transfer).natAbs_lt
    · rw [hte.balance, number_exact (entries_bounded h₀ hs₀ hreach e hte.entry)]
  · obtain ⟨r, hr⟩ := ended_answered h₀.toStart hopen hx hok
    obtain ⟨q, hq, hid, hamount⟩ := hvouched.requests r (List.mem_of_find?_eq_some hr.found) dto
      (eq_some_of_getD hr.body (by simp))
    refine ⟨q, hq, hid, ?_⟩
    rw [hamount]
    exact number_exact (hvalid.2 q hq).natAbs_lt

/-- While the seeds of all users together are at most `2^53 - 1`, and so is every limit, and
the amounts asked for have passed their schemas, no sum, difference or amount leaves a
`BIGINT`, and every amount shown is exact; in what `GET /wallet` shows, unless a transfer of
the user's was made between its reading of the clock and its query. -/
theorem amounts_exact (h₀ : Endowed cfg db₀) (hlimits : ∀ p : Period, p.limitMinor cfg < 2 ^ 53)
    (h : Sys.Reach (body cfg) (Endowing cfg) (Service.initial db₀ clock) s)
    (hsupply : Affordable cfg s.db) :
    Precise cfg s ∧ ∀ s₀ s₁,
      Sys.Reach (body cfg) (Endowing cfg) (Service.initial db₀ clock) s₀ →
      Sys.Reach (body cfg) (Endowing cfg) s₀ s₁ → Sys.Reach (body cfg) (Endowing cfg) s₁ s →
      ∀ u wallet, s₀.db.walletOf? u = some wallet → ShownExactly cfg s₀ s₁ s u wallet := by
  refine ⟨precise h₀ hlimits h hsupply, fun s₀ s₁ hs₀ hs₁ hs u wallet hwallet => ?_⟩
  have hlater : Sys.Reach (body cfg) Open s₀ s := (hs₁.trans _ hs).mono _ fun _ _ _ => trivial
  exact shownExactly hlimits
    (endowed_sane h₀ hs₀ (affordable_before h₀.good (open_of_endowing hs₀) hlater hsupply))
    (endowed_sane h₀ h hsupply) hwallet

theorem sampleDb_endowed : Endowed sampleConfig sampleDb :=
  { sampleDb_start with funded := by decide, joined := by decide }

/-- After two transfers that crossed, and while a third user registers. -/
theorem amounts_exact_crossing : ∃ s : Service, s.ended.length = 2 ∧ s.db.users.length = 3 ∧
    Precise sampleConfig s ∧ ∀ u wallet, s.db.walletOf? u = some wallet →
      ShownExactly sampleConfig s s s u wallet := by
  let run := .external sampleRegistration :: crossing
  have hrun : ((Service.initial sampleDb 50).run (body sampleConfig) run).any
      (fun s => s.ended.length = 2 ∧ s.db.users.length = 3) := by
    decide +kernel
  obtain ⟨s, hs, hstate⟩ := of_run hrun
  obtain ⟨hended, husers⟩ := of_decide_eq_true hstate
  have hsteps : ∀ l ∈ run, Endowing sampleConfig (Service.initial sampleDb 50) l := by
    decide +kernel
  have hreach : Sys.Reach (body sampleConfig) (Endowing sampleConfig)
      (Service.initial sampleDb 50) s := Sys.reach_of_run _ hs fun _ l hl => hsteps l hl
  have hsupply : Affordable sampleConfig s.db := by
    rw [Affordable, husers]
    decide
  obtain ⟨hprecise, hshown⟩ :=
    amounts_exact sampleDb_endowed (fun p => by cases p <;> decide) hreach hsupply
  exact ⟨s, hended, husers, hprecise, hshown s s hreach .refl .refl⟩

def fullConfig : Config where
  initialWalletBalanceMinor := 2 ^ 52 - 1
  dailyTransferLimitMinor := 2 ^ 53 - 1
  weeklyTransferLimitMinor := 2 ^ 53 - 1
  monthlyTransferLimitMinor := 2 ^ 53 - 1
  sha256 := id
  daily_pos := by decide
  weekly_pos := by decide
  monthly_pos := by decide

def endowedDb : Db :=
  { sampleDb with
    wallets := [⟨11, 1, .BDT, 2 ^ 52 - 1, .ACTIVE⟩, ⟨12, 2, .BDT, 2 ^ 52 - 1, .ACTIVE⟩] }

theorem endowedDb_endowed : Endowed fullConfig endowedDb :=
  { walletIds := by decide, owners := by decide, balances := by decide, transfers := rfl,
    ledgerEntries := rfl, moneyRequests := rfl, idempotencyRecords := rfl, funded := by decide,
    joined := by decide }

theorem endowing_allows : Allows (Endowing fullConfig) :=
  ⟨fun _ _ => id, fun _ _ _ => trivial, fun _ _ => trivial⟩

def instalment : ℤ := 549822930945

/-- Payments between the two users, from any state in which nobody calls. -/
theorem endowed_pays {s : Service} {n : ℕ} {bal : Uuid → ℤ} {sent : Uuid → Time → ℤ} {u w : Uuid}
    {x : ℤ} {t : Time} (k : ℕ) (h : Resting endowedDb n bal sent s) (ht : s.clock = t)
    (hs : Sys.Reach (body fullConfig) (Endowing fullConfig) (Service.initial endowedDb 0) s)
    (hn : n + k < 16 ^ 31) (hp : Payable fullConfig endowedDb bal sent t u w (k * x))
    (hx : RequestSchema.AmountMinor x) :
    ∃ s', Sys.Reach (body fullConfig) (Endowing fullConfig) s s' ∧ s'.clock = t ∧
      Resting endowedDb (n + k) (moved u w (k * x) bal) (paidAt u t (k * x) sent) s' := by
  subst ht
  exact h.pay_many k hn endowing_allows endowedDb_endowed.good
    ⟨by decide, by decide, by decide, by decide⟩ (open_of_endowing hs) hp hx

theorem endowed_able : endowedDb.Able 1 ∧ endowedDb.Able 2 :=
  ⟨⟨by decide, by decide⟩, by decide, by decide⟩

/-- The second user pays the first all it has, and the first pays all of it back. -/
theorem endowed_spent : ∃ s,
    Sys.Reach (body fullConfig) (Endowing fullConfig) (Service.initial endowedDb 0) s ∧
      s.clock = 0 ∧ Resting endowedDb 24573
        (moved 1 2 (16382 * instalment) (moved 2 1 (8191 * instalment) fun _ => 2 ^ 52 - 1))
        (paidAt 1 0 (16382 * instalment) (paidAt 2 0 (8191 * instalment) fun _ _ => 0)) s := by
  obtain ⟨h₁, h₂⟩ := endowed_able
  have hrest : Resting endowedDb 0 (fun _ => 2 ^ 52 - 1) (fun _ _ => 0)
      (Service.initial endowedDb 0) :=
    ⟨fun i => by simp [Service.initial, Sys.tx], rfl, rfl, ⟨le_rfl, le_rfl⟩, fun _ _ => rfl⟩
  obtain ⟨s, hs, hclock, hpaid⟩ := endowed_pays (u := 2) (w := 1) (x := instalment) (t := 0) 8191
    hrest rfl .refl (by decide)
    ⟨by decide, h₂, h₁, by decide, by decide, by decide, fun p => le_rfl,
      fun p => by cases p <;> decide⟩ (by decide)
  obtain ⟨s', hs', hclock', hback⟩ := endowed_pays (u := 1) (w := 2) (x := instalment) 16382
    hpaid hclock hs (by decide)
    ⟨by decide, h₁, h₂, by decide, by decide, by decide, fun p => by cases p <;> decide,
      fun p => by cases p <;> decide⟩ (by decide)
  exact ⟨s', hs.trans _ hs', hclock', hback⟩

/-- The clock is read as the window of a month begins at those payments. Three more are paid
before the query, within the limits of their own month, and the sum is shown as one less. -/
theorem amounts_exact_late : Endowed fullConfig endowedDb ∧
    (∀ p : Period, p.limitMinor fullConfig < 2 ^ 53) ∧
    ∃ s₁ s : Service,
      Sys.Reach (body fullConfig) (Endowing fullConfig) (Service.initial endowedDb 0) s₁ ∧
      Sys.Reach (body fullConfig) (Endowing fullConfig) s₁ s ∧ Affordable fullConfig s.db ∧
      usedIn s.db 1 s₁.clock .monthly = 2 ^ 53 + 1 ∧
      ∃ dto, getForUser fullConfig s₁.db s.db 1 s₁.clock = .ok dto ∧
        dto.limits.monthly.usedMinor = 2 ^ 53 := by
  obtain ⟨h₁, h₂⟩ := endowed_able
  have hlimits (p : Period) : p.limitMinor fullConfig < 2 ^ 53 := by cases p <;> decide
  obtain ⟨s₀, hs₀, hclock₀, hspent⟩ := endowed_spent
  let s₁ : Service := { s₀ with clock := Period.monthly.span }
  let s₂ : Service := { s₀ with clock := Period.monthly.span + 1 }
  have hs₁ : Sys.Reach (body fullConfig) (Endowing fullConfig)
      (Service.initial endowedDb 0) s₁ := by
    refine hs₀.tail (.tick _) trivial (if_pos ?_)
    rw [hclock₀]
    decide
  have hs₂ : Sys.Reach (body fullConfig) (Endowing fullConfig) s₁ s₂ :=
    .tail (.tick _) .refl trivial (if_pos (lt_add_one Period.monthly.span).le)
  have hstart := hs₁.trans _ hs₂
  -- The first user is paid the three that are missing, and pays them.
  obtain ⟨s₃, hs₃, hclock₃, hpaid⟩ := endowed_pays (s := s₂) (u := 2) (w := 1) (x := 3)
    (t := Period.monthly.span + 1) 1 (hspent.tick _) rfl hstart (by decide)
    ⟨by decide, h₂, h₁, by decide, by decide, by decide, fun p => by cases p <;> decide,
      fun p => by cases p <;> decide⟩ (by decide)
  obtain ⟨s, hs, hclock, hend⟩ := endowed_pays (u := 1) (w := 2) (x := 3) 1 hpaid hclock₃
    (hstart.trans _ hs₃) (by decide)
    ⟨by decide, h₁, h₂, by decide, by decide, by decide, fun p => by cases p <;> decide,
      fun p => by cases p <;> decide⟩ (by decide)
  have hlater := hs₂.trans _ (hs₃.trans _ hs)
  have hsupply : Affordable fullConfig s.db := by
    rw [Affordable, hend.users]
    decide
  have hused : usedIn s.db 1 s₁.clock .monthly = 2 ^ 53 + 1 :=
    (hend.sent 1 (Period.monthly.span - Period.monthly.span)).trans (by decide)
  have hview : ShownExactly fullConfig s₁ s₁ s 1 _ := shownExactly hlimits
    (endowed_sane endowedDb_endowed hs₁ (affordable_before endowedDb_endowed.good
      (open_of_endowing hs₁) (hlater.mono _ fun _ _ _ => trivial) hsupply))
    (endowed_sane endowedDb_endowed (hs₁.trans _ hlater) hsupply)
    ((hspent.walletOf? 1).trans rfl)
  obtain ⟨usage, hshown, hwindow⟩ := hview.shown (Or.inr (by
    rw [hclock, show s₁.clock = Period.monthly.span from rfl]
    decide))
  have hmonth : usage.monthly.usedMinor = number (usedIn s.db 1 s₁.clock .monthly) :=
    congrArg LimitWindowDto.usedMinor (hwindow .monthly)
  refine ⟨endowedDb_endowed, hlimits, s₁, s, hs₁, hlater, hsupply, hused, _, hshown, ?_⟩
  rw [hmonth, hused]
  decide +kernel

end Numbers

end MoneyMovement
