import MoneyMovement.Runs.Limits
import MoneyMovement.Txn.Faults

/-!
# What decides a direct transfer

A direct transfer under a new key, run alone, checks one condition after another and fails
with the error of the first that does not hold. `Deal` is all that the conditions look at;
how old an account is, whether it is verified and what the risk rules say is not among it.
-/

namespace MoneyMovement

open Txn Prog IdempotencyService TransferService TransactionLimitService RiskEngineService

/-- What the schema holds the tables to. -/
structure Constrained (v : Db) : Prop where
  walletIds : (v.wallets.map Wallet.id).Nodup
  owners : (v.wallets.map Wallet.userId).Nodup
  joined : ∀ w ∈ v.wallets, (v.user? w.userId).isSome
  balances : ∀ w ∈ v.wallets, 0 ≤ w.balanceMinor ∧ InBigint w.balanceMinor

section Conditions

/-- The conditions in the order of the code. `sums` and `credit` are the database's own: the
window sums and the receiver's new balance fit their type. -/
inductive Condition
  | actor | other
  | senderWallet | receiverWallet
  | senderOwner | receiverOwner
  | senderStatus | receiverStatus
  | amount | balance
  | sums | window (p : Period)
  | credit
  deriving DecidableEq

def conditions : List Condition :=
  [.actor, .other, .senderWallet, .receiverWallet, .senderOwner, .receiverOwner, .senderStatus,
    .receiverStatus, .amount, .balance, .sums, .window .daily, .window .weekly, .window .monthly,
    .credit]

/-- The record of a key cannot name an actor who is not there. -/
def unregistered : Failure :=
  .db (.foreignKeyViolation .idempotency_records_actor_user_id_fkey)

structure Deal where
  cfg : Config
  sender : Uuid
  receiver : Uuid
  amountMinor : ℤ
  /-- The reading of the clock that the limits are checked at. -/
  now : Time

namespace Deal

def holds (d : Deal) (v : Db) : Condition → Bool
  | .actor => (v.user? d.sender).isSome
  | .other => d.receiver ≠ d.sender
  | .senderWallet => (v.walletOf? d.sender).isSome
  | .receiverWallet => (v.walletOf? d.receiver).isSome
  | .senderOwner => (v.user? d.sender).all (·.status = .ACTIVE)
  | .receiverOwner => (v.user? d.receiver).all (·.status = .ACTIVE)
  | .senderStatus => (v.walletOf? d.sender).all (·.status = .ACTIVE)
  | .receiverStatus => (v.walletOf? d.receiver).all (·.status = .ACTIVE)
  | .amount => 0 < d.amountMinor
  | .balance => (v.walletOf? d.sender).all (d.amountMinor ≤ ·.balanceMinor)
  | .sums => InBigint (usedIn v d.sender d.now .daily) ∧
      InBigint (usedIn v d.sender d.now .weekly) ∧ InBigint (usedIn v d.sender d.now .monthly)
  | .window p => usedIn v d.sender d.now p + d.amountMinor ≤ p.limitMinor d.cfg
  | .credit => (v.walletOf? d.receiver).all fun w => InBigint (w.balanceMinor + d.amountMinor)

def error (d : Deal) (v : Db) : Condition → Failure
  | .actor => unregistered
  | .other => selfTransfer
  | .senderWallet => senderWalletNotFound
  | .receiverWallet => recipientNotFound
  | .senderOwner => refuse 403 .FORBIDDEN "Your account cannot send money right now."
  | .receiverOwner => recipientNotFound
  | .senderStatus => refuse 409 .WALLET_UNAVAILABLE "Your wallet is not active."
  | .receiverStatus =>
    refuse 409 .WALLET_UNAVAILABLE "The recipient's wallet cannot receive money right now."
  | .amount => refuse 422 .INVALID_TRANSFER "Transfer amount must be positive."
  | .balance => refuse 409 .INSUFFICIENT_BALANCE "Insufficient balance for this transfer."
  | .sums => .db .outOfRange
  | .window p => .app
      (limitExceeded p (usedIn v d.sender d.now p) d.amountMinor (p.limitMinor d.cfg))
  | .credit => .db .outOfRange

def failing (d : Deal) (v : Db) (cs : List Condition) : Option Failure :=
  (cs.find? fun c => !d.holds v c).map (d.error v)

variable {d : Deal} {v : Db}

/-- One condition decides, or those after it do. -/
theorem failing_cons {c : Condition} {cs : List Condition} {r : Option Failure}
    (hfail : d.holds v c = false → r = some (d.error v c))
    (hpass : d.holds v c = true → r = d.failing v cs) : r = d.failing v (c :: cs) := by
  cases h : d.holds v c with
  | false =>
    rw [hfail h]
    simp [failing, h]
  | true =>
    rw [hpass h]
    simp [failing, h]

theorem failing_eq_none {cs : List Condition} :
    d.failing v cs = none ↔ ∀ c ∈ cs, d.holds v c = true := by
  simp [failing]

end Deal

end Conditions

section Wallets

variable {v : Db}

theorem Constrained.probe_isSome (hv : Constrained v) (u : Uuid) :
    (v.probe u).isSome = (v.walletOf? u).isSome := by
  unfold Db.probe
  cases hw : v.walletOf? u with
  | none => rfl
  | some w =>
    have ho := hv.joined w (List.mem_of_find?_eq_some hw)
    simpa [Db.joinOwner] using ho

end Wallets

section Deciding

variable {v : Db}

theorem wallet?_addBalance {id id' : Uuid} (h : id ≠ id') (delta : ℤ) (ws : List Wallet) :
    (ws.map (Wallet.addBalance id delta)).find? (·.id = id') = ws.find? (·.id = id') := by
  rw [List.find?_map]
  simp only [Function.comp_def, addBalance_id]
  cases hw : ws.find? (·.id = id') with
  | none => rfl
  | some w =>
    have hid : w.id = id' := (find?_spec hw).2
    rw [Option.map_some, addBalance_of_ne (hid ▸ h.symm)]

theorem exec_applyBalanceDelta {id : Uuid} {delta : ℤ} {w : Wallet} (dr : Draw Time Uuid)
    (hw : v.wallet? id = some w) (hdelta : InBigint delta)
    (hfits : InBigint (w.balanceMinor + delta)) (hpos : 0 ≤ w.balanceMinor + delta) :
    store.exec (.applyBalanceDelta id delta) v dr = .ok ((), [.addBalance id delta]) := by
  change execApplyBalanceDelta v id delta = _
  rw [execApplyBalanceDelta, hw]
  simp only
  rw [if_neg (not_not.2 ⟨hdelta, hfits⟩), if_neg (not_lt.2 hpos)]

theorem exec_insertPendingTransfer {dr : Draw Time Uuid} (data : InsertTransferData)
    (hfits : InBigint data.amountMinor) (hpos : 0 < data.amountMinor)
    (hparties : data.senderUserId ≠ data.receiverUserId)
    (hfresh : ∀ t ∈ v.transfers, t.id ≠ dr.id) :
    store.exec (.insertPendingTransfer data) v dr =
      .ok (pendingTransfer dr data, [.insertTransfer (pendingTransfer dr data)]) := by
  have hnew : (v.transfer? dr.id).isSome = false := by simpa [Db.transfer?] using hfresh
  change execInsertTransfer v dr data = _
  simp only [execInsertTransfer, pendingTransfer, not_not.2 hfits, not_le.2 hpos, hparties, hnew,
    if_false, Bool.false_eq_true]

theorem execInsertLedgerEntry_ok {e : LedgerEntry} (hsign : e.SignMatches)
    (hpos : 0 < e.amountMinor) (hfits : InBigint e.amountMinor ∧ InBigint e.signedAmountMinor ∧
      InBigint e.balanceAfterMinor) :
    execInsertLedgerEntry e = .ok ((), [.insertLedgerEntry e]) := by
  rw [execInsertLedgerEntry, if_neg (not_not.2 hfits), if_neg (not_le.2 hpos),
    if_neg (not_not.2 hsign)]

theorem exec_markSucceeded {id : Uuid} (dr : Draw Time Uuid) (h : (v.transfer? id).isSome) :
    ∃ t, store.exec (.markSucceeded id) v dr = .ok (t, [.succeedTransfer id dr.now]) := by
  obtain ⟨t, ht⟩ := Option.isSome_iff_exists.1 h
  exact ⟨t.succeed id dr.now, by simp only [store, exec, ht]⟩

def KnownUser (u : Uuid) (v : Db) : Prop := (v.user? u).isSome

/-- No write of a transaction takes a user away. -/
theorem knownUser_keeps (u : Uuid) : store.Keeps (KnownUser u) := by
  intro v w h
  cases w <;> exact h

/-- The audit row of a registered actor goes in. -/
theorem insert_audit {u : Uuid} {e : AuditEvent} {d : Draw Time Uuid}
    (he : e.actorUserId = some u) (h : KnownUser u v) :
    store.exec (.insertAuditEvent e) v d = .ok ((), [.insertAuditEvent e]) :=
  insertAuditEvent_exec fun _ hu => Option.some.inj (he.symm.trans hu) ▸ h

theorem insertAuditEvent_unfailing {u : Uuid} {e : AuditEvent} {α : Type} {k : Unit → TxM α}
    (he : e.actorUserId = some u) (hk : store.Unfailing (KnownUser u) (k ())) :
    store.Unfailing (KnownUser u) (.op (.insertAuditEvent e) k) :=
  .op (knownUser_keeps u) (fun _ _ hv => ⟨_, insert_audit he hv⟩) fun _ => hk

theorem recordRisk_unfailing (transferId u : Uuid) (r : RiskEvaluation) :
    store.Unfailing (KnownUser u) (recordRisk transferId u r) := by
  have hkeeps := knownUser_keeps u
  have hend : store.Unfailing (KnownUser u) (Prog.ret ⟨r.score, r.level, r.reasons, none⟩ :
      TxM RiskAssessmentDto) := fun v draws _ => rfl
  have haudit : store.Unfailing (KnownUser u) (auditRisk transferId u r) := by
    unfold auditRisk
    split_ifs
    · exact insertAuditEvent_unfailing rfl fun v draws _ => rfl
    · exact fun v draws _ => rfl
  have hflag : store.Unfailing (KnownUser u) (flagRisk transferId r) := by
    unfold flagRisk
    split_ifs
    · exact .op hkeeps (fun v d _ => ⟨_, rfl⟩) (fun _ v draws _ => rfl)
    · exact fun v draws _ => rfl
  exact .op hkeeps (fun v d _ => ⟨_, rfl⟩)
    (fun _ => haudit.bind hkeeps fun _ => hflag.bind hkeeps fun _ => hend)

theorem assessRisk_unfailing (transferId : Uuid) (sender receiver : LockedWallet)
    (amountMinor : ℤ) : store.Unfailing (KnownUser sender.userId)
      (assessRisk transferId sender receiver amountMinor) :=
  .op (knownUser_keeps _) (fun _ _ _ => ⟨_, rfl⟩) fun now =>
    .op (knownUser_keeps _) (fun _ _ _ => ⟨_, rfl⟩) fun recent =>
      recordRisk_unfailing transferId sender.userId
        (evaluate (riskContext sender receiver amountMinor now recent))

/-- A locked wallet is the row of its owner. -/
theorem Constrained.probe {u : Uuid} {l : LockedWallet} (hv : Constrained v)
    (h : v.probe u = some l) : ∃ w, v.walletOf? u = some w ∧ v.wallet? l.id = some w ∧
      l.userId = u ∧ w.userId = u ∧ w.balanceMinor = l.balanceMinor ∧ 0 ≤ l.balanceMinor ∧
      InBigint l.balanceMinor := by
  obtain ⟨w, o, hw, -, hid, huser, hbalance, -, -⟩ := probe_some h
  have hm := List.mem_of_find?_eq_some hw
  obtain ⟨hpos, hfits⟩ := hv.balances w hm
  exact ⟨w, hw, hid ▸ find?_eq_of_nodup hv.walletIds hm, huser, (find?_spec hw).2,
    hbalance, hbalance ▸ hpos, hbalance ▸ hfits⟩

theorem Constrained.ids_ne {u u' : Uuid} {l l' : LockedWallet} (hv : Constrained v)
    (h : v.probe u = some l) (h' : v.probe u' = some l') (hne : u ≠ u') : l.id ≠ l'.id := by
  obtain ⟨w, -, hw, -, huser, -⟩ := hv.probe h
  obtain ⟨w', -, hw', -, huser', -⟩ := hv.probe h'
  intro he
  rw [he, hw'] at hw
  obtain rfl := Option.some.inj hw
  exact hne (huser.symm.trans huser')

/-- Once its row stands, a transfer is settled, and what comes after that decides. -/
theorem markSucceeded_refusal {α : Type} {id u : Uuid} {k : Transfer → TxM α}
    {draws : ℕ → Draw Time Uuid} (hk : ∀ settled, store.Unfailing (KnownUser u) (k settled))
    (hknown : KnownUser u v) (hsome : (v.transfer? id).isSome) :
    store.refusal (.op (.markSucceeded id) k) v draws = none := by
  obtain ⟨t, hsettled⟩ := exec_markSucceeded (draws 0) hsome
  rw [Engine.refusal_ok hsettled]
  exact hk _ _ _ ((knownUser_keeps u).view hknown _)

theorem succeeded_unfailing {input : SettleInput} {source : TransferSource}
    {sender receiver : LockedWallet} (id : Uuid) (dto : TransferDto) :
    store.Unfailing (KnownUser sender.userId) (do
      query (.insertOutboxEvent (succeededEvent input source id sender receiver))
      query (.insertAuditEvent (succeededAudit input source id sender receiver))
      return dto) :=
  .op (knownUser_keeps _) (fun _ _ _ => ⟨_, rfl⟩) fun _ =>
    insertAuditEvent_unfailing rfl fun _ _ _ => rfl

/-- With the ledger entries in, both balances are moved and the rest comes through. -/
theorem applyDeltas_refusal {input : SettleInput} {source : TransferSource}
    {sender receiver : LockedWallet} {ws wr : Wallet} {id : Uuid} {draws : ℕ → Draw Time Uuid}
    (hknown : KnownUser sender.userId v) (hne : sender.id ≠ receiver.id)
    (hs : v.wallet? sender.id = some ws) (hr : v.wallet? receiver.id = some wr)
    (hamount : InBigint input.amountMinor) (hpositive : 0 < input.amountMinor)
    (hbalance : input.amountMinor ≤ ws.balanceMinor) (hsfits : InBigint ws.balanceMinor)
    (hr0 : 0 ≤ wr.balanceMinor) (hrfits : InBigint (wr.balanceMinor + input.amountMinor))
    (hsome : (v.transfer? id).isSome) :
    store.refusal (do
      query (.applyBalanceDelta sender.id (-input.amountMinor))
      query (.applyBalanceDelta receiver.id input.amountMinor)
      let settled ← query (.markSucceeded id)
      let risk ← assessRisk id sender receiver input.amountMinor
      query (.insertOutboxEvent (succeededEvent input source id sender receiver))
      query (.insertAuditEvent (succeededAudit input source id sender receiver))
      return toTransferDto settled (some (sender.balanceMinor - input.amountMinor)) (some risk))
      v draws = none := by
  obtain ⟨hsmin, hsmax⟩ := hsfits
  have hout : store.exec (.applyBalanceDelta sender.id (-input.amountMinor)) v (draws 0) =
      .ok ((), [.addBalance sender.id (-input.amountMinor)]) :=
    exec_applyBalanceDelta _ hs (by unfold InBigint at hamount ⊢; omega)
      (by unfold InBigint; omega) (by omega)
  have hin : store.exec (.applyBalanceDelta receiver.id input.amountMinor)
      (applyWrite v (.addBalance sender.id (-input.amountMinor))) (draws 1) =
      .ok ((), [.addBalance receiver.id input.amountMinor]) := by
    refine exec_applyBalanceDelta _ ?_ hamount hrfits (by omega)
    exact (wallet?_addBalance hne _ _).trans hr
  refine (Engine.refusal_ok hout).trans ((Engine.refusal_ok hin).trans ?_)
  exact markSucceeded_refusal (fun settled => (assessRisk_unfailing _ _ _ _).bind
    (knownUser_keeps _) fun risk => succeeded_unfailing id _) hknown hsome

theorem moveMoney_refusal {d : Deal} {input : SettleInput} {source : TransferSource}
    {sender receiver : LockedWallet} {draws : ℕ → Draw Time Uuid} (hv : Constrained v)
    (hs : v.probe d.sender = some sender) (hr : v.probe d.receiver = some receiver)
    (hother : d.sender ≠ d.receiver) (hinput : input.amountMinor = d.amountMinor)
    (hpos : 0 < d.amountMinor) (hbalance : d.amountMinor ≤ sender.balanceMinor)
    (hfresh : ∀ t ∈ v.transfers, t.id ≠ (draws 0).id) :
    store.refusal (moveMoney input source sender receiver) v draws =
      d.failing v [.credit] := by
  obtain ⟨ws, -, hs?, husers, -, hbals, hs0, hsmin, hsmax⟩ := hv.probe hs
  obtain ⟨wr, hwr, hr?, huserr, -, hbalr, hr0, hrmin, hrmax⟩ := hv.probe hr
  have hknown : KnownUser sender.userId v := by
    obtain ⟨-, o, -, ho, -, huser, -⟩ := probe_some hs
    rw [KnownUser, huser, ho]
    rfl
  have hamount : InBigint input.amountMinor := by
    unfold InBigint
    omega
  have hpositive : 0 < input.amountMinor := by omega
  have hdistinct : sender.userId ≠ receiver.userId := husers ▸ huserr ▸ hother
  have hinsert := exec_insertPendingTransfer (transferData input source sender receiver) hamount
    hpositive hdistinct hfresh
  have hdebit : execInsertLedgerEntry (debitEntry input (draws 0).id sender) =
      .ok ((), [.insertLedgerEntry (debitEntry input (draws 0).id sender)]) := by
    refine execInsertLedgerEntry_ok (Or.inl ⟨rfl, rfl⟩) hpositive ⟨hamount, ?_, ?_⟩
    · simp only [debitEntry, InBigint]
      omega
    · simp only [debitEntry, InBigint]
      omega
  refine (Engine.refusal_ok hinsert).trans ((Engine.refusal_ok hdebit).trans ?_)
  refine Deal.failing_cons (fun hcredit => ?_) (fun hcredit => ?_)
  · have hout : ¬ InBigint (receiver.balanceMinor + input.amountMinor) := by
      simpa only [Deal.holds, hwr, Option.all_some, decide_eq_false_iff_not, hinput, ← hbalr]
        using hcredit
    exact Engine.refusal_error (if_pos fun h => hout h.2.2 :
      execInsertLedgerEntry (creditEntry input (draws 0).id receiver) = .error (.db .outOfRange))
  · have hfits : InBigint (receiver.balanceMinor + input.amountMinor) := by
      simpa only [Deal.holds, hwr, Option.all_some, decide_eq_true_eq, hinput, ← hbalr]
        using hcredit
    have hcredit : execInsertLedgerEntry (creditEntry input (draws 0).id receiver) =
        .ok ((), [.insertLedgerEntry (creditEntry input (draws 0).id receiver)]) :=
      execInsertLedgerEntry_ok (Or.inr ⟨rfl, rfl⟩) hpositive ⟨hamount, hamount, hfits⟩
    refine (Engine.refusal_ok hcredit).trans ?_
    refine applyDeltas_refusal hknown (hv.ids_ne hs hr hother) hs? hr? hamount hpositive
      (by omega) (by unfold InBigint; omega) (hbalr ▸ hr0) (hbalr ▸ hfits) ?_
    refine List.find?_isSome.2 ⟨_, List.mem_append_right _ List.mem_cons_self, ?_⟩
    simp [pendingTransfer]

variable {d : Deal} {draws : ℕ → Draw Time Uuid} {α : Type}

/-- A check without statements decides, or what comes after it does. -/
theorem refusal_check {c : Condition} {cs : List Condition} {p : TxM Unit} {k : Unit → TxM α}
    (hfail : d.holds v c = false → p = .fail (d.error v c))
    (hpass : d.holds v c = true → p = .ret ())
    (hrest : d.holds v c = true → store.refusal (k ()) v draws = d.failing v cs) :
    store.refusal (p >>= k) v draws = d.failing v (c :: cs) := by
  refine Deal.failing_cons (fun h => ?_) (fun h => ?_)
  · rw [hfail h]
    rfl
  · rw [hpass h]
    exact hrest h

theorem assertWithinLimits_refusal {k : Unit → TxM α} {cs : List Condition}
    (hnow : (draws 0).now = d.now)
    (hrest : store.refusal (k ()) v (fun n => draws (n + 2)) = d.failing v cs) :
    store.refusal (assertWithinLimits d.cfg d.sender d.amountMinor >>= k) v draws =
      d.failing v (.sums :: .window .daily :: .window .weekly :: .window .monthly :: cs) := by
  have hsums := execSumSent_eq v d.sender d.now
  refine Deal.failing_cons (fun h => ?_) (fun h => ?_)
  · have hno : ¬ (InBigint (usedIn v d.sender d.now .daily) ∧
        InBigint (usedIn v d.sender d.now .weekly) ∧ InBigint (usedIn v d.sender d.now .monthly)) :=
      of_decide_eq_false h
    rw [if_neg hno] at hsums
    have hexec : store.exec (.sumSentByWindow d.sender (windowsSince (draws 0).now)) v (draws 1) =
        .error (.db .outOfRange) := by
      rw [hnow]
      change (execSumSent v d.sender (windowsSince d.now)).map _ = _
      rw [hsums]
      rfl
    exact (Engine.refusal_ok rfl).trans (Engine.refusal_error hexec)
  · have hyes : InBigint (usedIn v d.sender d.now .daily) ∧
        InBigint (usedIn v d.sender d.now .weekly) ∧ InBigint (usedIn v d.sender d.now .monthly) :=
      of_decide_eq_true h
    rw [if_pos hyes] at hsums
    have hexec : store.exec (.sumSentByWindow d.sender (windowsSince (draws 0).now)) v (draws 1) =
        .ok (⟨usedIn v d.sender d.now .daily, usedIn v d.sender d.now .weekly,
          usedIn v d.sender d.now .monthly⟩, []) := by
      rw [hnow]
      change (execSumSent v d.sender (windowsSince d.now)).map _ = _
      rw [hsums]
      rfl
    have hwindow {p : Period} {cs : List Condition} {k : Unit → TxM α} {draws : ℕ → Draw Time Uuid}
        (h : store.refusal (k ()) v draws = d.failing v cs) :
        store.refusal (assertWindow p (usedIn v d.sender d.now p) d.amountMinor (p.limitMinor d.cfg)
          >>= k) v draws = d.failing v (.window p :: cs) :=
      refusal_check (fun hc => if_neg (of_decide_eq_false hc))
        (fun hc => if_pos (of_decide_eq_true hc)) (fun _ => h)
    refine (Engine.refusal_ok rfl).trans ((Engine.refusal_ok hexec).trans ?_)
    change store.refusal (assertWindows d.cfg _ d.amountMinor >>= k) v (fun n => draws (n + 2)) = _
    rw [assertWindows, bind_assoc]
    refine hwindow ?_
    rw [bind_assoc]
    exact hwindow (hwindow hrest)

/-- The same for a check of two conditions. -/
theorem refusal_checks (c c' : Condition) {cs : List Condition} {P P' : Prop} [Decidable P]
    [Decidable P'] {k : Unit → TxM α} (hc : d.holds v c = decide ¬ P)
    (hc' : d.holds v c' = decide ¬ P')
    (hrest : ¬ P → ¬ P' → store.refusal (k ()) v draws = d.failing v cs) :
    store.refusal ((if P then .fail (d.error v c) else if P' then .fail (d.error v c')
      else return ()) >>= k) v draws = d.failing v (c :: c' :: cs) := by
  refine Deal.failing_cons (fun h => ?_) (fun h => ?_)
  · rw [hc] at h
    rw [if_pos (not_not.1 (of_decide_eq_false h))]
    rfl
  · rw [hc] at h
    rw [if_neg (of_decide_eq_true h)]
    refine refusal_check (fun h' => ?_) (fun h' => ?_) (fun h' => ?_) <;> rw [hc'] at h'
    · exact if_pos (not_not.1 (of_decide_eq_false h'))
    · exact if_neg (of_decide_eq_true h')
    · exact hrest (of_decide_eq_true h) (of_decide_eq_true h')

theorem settleLocked_refusal {input : SettleInput} {source : TransferSource}
    {sender receiver : LockedWallet} (hv : Constrained v)
    (hs : v.probe d.sender = some sender) (hr : v.probe d.receiver = some receiver)
    (hother : d.sender ≠ d.receiver) (hinput : input.amountMinor = d.amountMinor)
    (hnow : (draws 0).now = d.now) (hfresh : ∀ t ∈ v.transfers, t.id ≠ (draws 2).id) :
    store.refusal (settleLocked input source d.cfg sender receiver) v draws =
      d.failing v [.senderOwner, .receiverOwner, .senderStatus, .receiverStatus, .amount, .balance,
        .sums, .window .daily, .window .weekly, .window .monthly, .credit] := by
  obtain ⟨ws, os, hws, hos, -, husers, hbals, hstatuss, howners⟩ := probe_some hs
  obtain ⟨wr, or, hwr, hor, -, -, -, hstatusr, hownerr⟩ := probe_some hr
  refine refusal_checks .senderOwner .receiverOwner ?_ ?_ (fun _ _ => ?_)
  · rw [Deal.holds, hos, Option.all_some, howners]
    simp
  · rw [Deal.holds, hor, Option.all_some, hownerr]
    simp
  refine refusal_checks .senderStatus .receiverStatus ?_ ?_ (fun _ _ => ?_)
  · rw [Deal.holds, hws, Option.all_some, hstatuss]
    simp
  · rw [Deal.holds, hwr, Option.all_some, hstatusr]
    simp
  rw [hinput]
  refine refusal_checks .amount .balance ?_ ?_ (fun hpos hbalance => ?_)
  · simp [Deal.holds]
  · rw [Deal.holds, hws, Option.all_some, hbals]
    simp
  rw [husers]
  exact assertWithinLimits_refusal hnow (moveMoney_refusal hv hs hr hother hinput (not_le.1 hpos)
    (not_lt.1 hbalance) hfresh)

theorem lockWalletById_refusal {id : Uuid} {l : LockedWallet} {k : LockedWallet → TxM α}
    (h : (v.wallet? id).bind v.joinOwner = some l) :
    store.refusal (lockWalletById id >>= k) v draws =
      store.refusal (k l) v (fun n => draws (n + 2)) := by
  have hexec (dr : Draw Time Uuid) :
      store.exec (.findWalletById id) v dr = .ok (some l, []) := by
    change Except.ok ((v.wallet? id).bind v.joinOwner, []) = _
    rw [h]
  have hread {k : Option LockedWallet → TxM α} {draws : ℕ → Draw Time Uuid} :
      store.refusal (.op (.findWalletById id) k) v draws =
        store.refusal (k (some l)) v (fun n => draws (n + 1)) := Engine.refusal_ok (hexec _)
  refine (Engine.refusal_ok rfl).trans ?_
  exact hread

/-- Whichever id sorts first, each wallet comes back in its role. -/
theorem lockBoth_refusal {u u' : Uuid} {sender receiver : LockedWallet}
    {k : LockedWallet × LockedWallet → TxM α} (hv : Constrained v) (hs : v.probe u = some sender)
    (hr : v.probe u' = some receiver) (hother : u ≠ u') :
    store.refusal (lockBoth sender.id receiver.id >>= k) v draws =
      store.refusal (k (sender, receiver)) v (fun n => draws (n + 4)) := by
  have hne := hv.ids_ne hs hr hother
  obtain ⟨-, hsread, -⟩ := wallet?_of_probe hv.walletIds hs
  obtain ⟨-, hrread, -⟩ := wallet?_of_probe hv.walletIds hr
  rw [lockBoth, bind_assoc]
  unfold sortIds
  split_ifs
  · rw [lockWalletById_refusal hrread, bind_assoc, lockWalletById_refusal hsread]
    rw [if_neg hne.symm, if_pos rfl]
    rfl
  · rw [lockWalletById_refusal hsread, bind_assoc, lockWalletById_refusal hrread]
    rw [if_neg hne, if_pos rfl]
    rfl

theorem settle_refusal {input : SettleInput} {source : TransferSource} (hv : Constrained v)
    (hsender : input.senderUserId = d.sender.text)
    (hreceiver : input.receiverUserId = d.receiver.text)
    (hinput : input.amountMinor = d.amountMinor) (hnow : (draws 6).now = d.now)
    (hfresh : ∀ t ∈ v.transfers, t.id ≠ (draws 8).id) :
    store.refusal (settle input source d.cfg) v draws = d.failing v conditions.tail := by
  have hread {u : Uuid} {dr : Draw Time Uuid} :
      store.exec (.findWalletByUserId u.text) v dr = .ok (v.probe u, []) := by
    change (castUuid u.text).map _ = _
    rw [castUuid, parseUuid_text]
    rfl
  refine Deal.failing_cons (fun h => ?_) (fun h => ?_)
  · have hself : d.receiver = d.sender := not_not.1 (of_decide_eq_false h)
    rw [settle, if_pos (by rw [hsender, hreceiver, hself])]
    rfl
  have hother : d.sender ≠ d.receiver := (of_decide_eq_true h : d.receiver ≠ d.sender).symm
  have hne : input.receiverUserId ≠ input.senderUserId := by
    rw [hsender, hreceiver]
    exact fun he => hother (Uuid.text_injective he).symm
  rw [settle, if_neg hne, hsender, hreceiver]
  refine (Engine.refusal_ok hread).trans ((Engine.refusal_ok hread).trans ?_)
  simp only [Engine.view_nil, Prog.bind]
  refine Deal.failing_cons (fun h => ?_) (fun h => ?_)
  · have hnone : v.probe d.sender = none := by
      have hsome := hv.probe_isSome d.sender
      rw [show (v.walletOf? d.sender).isSome = false from h] at hsome
      simpa using hsome
    rw [hnone]
    rfl
  obtain ⟨sender, hs⟩ := Option.isSome_iff_exists.1 ((hv.probe_isSome d.sender).trans h)
  refine Deal.failing_cons (fun h => ?_) (fun h => ?_)
  · have hnone : v.probe d.receiver = none := by
      have hsome := hv.probe_isSome d.receiver
      rw [show (v.walletOf? d.receiver).isSome = false from h] at hsome
      simpa using hsome
    rw [hs, hnone]
    rfl
  obtain ⟨receiver, hr⟩ := Option.isSome_iff_exists.1 ((hv.probe_isSome d.receiver).trans h)
  rw [hs, hr]
  change store.refusal (lockBoth sender.id receiver.id >>= fun p =>
    settleLocked input source d.cfg p.1 p.2) v (fun n => draws (n + 2)) = _
  rw [lockBoth_refusal hv hs hr hother]
  exact settleLocked_refusal hv hs hr hother hinput hnow hfresh

theorem failing_withRecord (d : Deal) (v : Db) (r : IdempotencyRecord) (cs : List Condition) :
    d.failing (v.withRecord r) cs = d.failing v cs := by
  have hholds : d.holds (v.withRecord r) = d.holds v := by
    funext c
    cases c <;> rfl
  have herror : d.error (v.withRecord r) = d.error v := by
    funext c
    cases c <;> rfl
  simp only [Deal.failing, hholds, herror]

/-- The key of the command is unused, its receiver is spelled as the database does, and the ids
drawn are new. -/
structure Untried (command : CreateDirectTransferCommand) (receiver : Uuid)
    (draws : ℕ → Draw Time Uuid) (v : Db) : Prop where
  spelled : command.receiverUserId = receiver.text
  unused : ∀ r ∈ v.idempotencyRecords, r.key ≠ (beginParams command).key
  records : ∀ n, ∀ r ∈ v.idempotencyRecords, r.id ≠ (draws n).id
  transfers : ∀ n, ∀ t ∈ v.transfers, t.id ≠ (draws n).id

/-- Of the draws of a transfer only the reading of the clock before its limits counts. -/
def Deal.of (cfg : Config) (command : CreateDirectTransferCommand) (receiver : Uuid)
    (draws : ℕ → Draw Time Uuid) : Deal :=
  ⟨cfg, command.actorUserId, receiver, command.amountMinor, (draws 7).now⟩

/-- A settlement decides, where nothing that follows it fails. -/
theorem settle_bind_refusal (d : Deal) (input : SettleInput) (source : TransferSource)
    {k : TransferDto → TxM α} (hv : Constrained v) (hsender : input.senderUserId = d.sender.text)
    (hreceiver : input.receiverUserId = d.receiver.text)
    (hinput : input.amountMinor = d.amountMinor) (hnow : (draws 6).now = d.now)
    (hfresh : ∀ t ∈ v.transfers, t.id ≠ (draws 8).id)
    (hk : ∀ (z : Settlement) receipt draws',
      store.refusal (k receipt) (z.apply input source v) draws' = none) :
    store.refusal (settle input source d.cfg >>= k) v draws = d.failing v conditions.tail := by
  have hsettle : store.refusal (settle input source d.cfg) v draws = _ :=
    settle_refusal hv hsender hreceiver hinput hnow hfresh
  rw [← hsettle]
  rcases Engine.refusal_bind (settle input source d.cfg) k v draws with
    ⟨e, he, hbind⟩ | ⟨n, receipt, v', hnone, hreturns, hbind⟩
  · rw [hbind, he]
  · rw [hbind, hnone]
    obtain ⟨z, -, -, -, -, rfl⟩ := settle_returns hv.walletIds hreturns
    exact hk z receipt _

theorem begin_unregistered {cfg : Config} {params : BeginParams} {k : BeginResult → TxM α}
    (hunused : v.record? params.key = none) (h : v.user? params.actorUserId = none) :
    store.refusal («begin» cfg params >>= k) v draws =
      some unregistered := by
  have hclaim : execTryClaim v (draws 0).id params.key (requestHash cfg params.payload) =
      .error unregistered := by
    simp only [execTryClaim, hunused]
    exact if_pos (Option.isNone_iff_eq_none.2 h)
  exact Engine.refusal_error hclaim

theorem begin_claimed {cfg : Config} {params : BeginParams} {k : BeginResult → TxM α}
    (hunused : v.record? params.key = none) (h : (v.user? params.actorUserId).isSome)
    (hnew : ∀ r ∈ v.idempotencyRecords, r.id ≠ (draws 0).id) :
    store.refusal («begin» cfg params >>= k) v draws =
      store.refusal (k (.claimed (draws 0).id)) (v.withRecord (claimedRecord (draws 0).id params.key
        (requestHash cfg params.payload))) (fun n => draws (n + 1)) := by
  have hactor : ¬ (v.user? params.actorUserId).isNone := by
    simpa [Option.isNone_iff_eq_none] using Option.isSome_iff_ne_none.1 h
  have hid : v.recordById? (draws 0).id = none := by simpa [Db.recordById?] using hnew
  have hclaim : store.exec (.tryClaim params.key (requestHash cfg params.payload)) v (draws 0) =
      .ok (some (draws 0).id, [.insertRecord (claimedRecord (draws 0).id params.key
        (requestHash cfg params.payload))]) := by
    change execTryClaim v (draws 0).id params.key (requestHash cfg params.payload) = _
    simp only [execTryClaim, hunused, hid]
    exact if_neg hactor
  exact Engine.refusal_ok hclaim

/-- A completion that finds its record does not fail, and what follows it decides. -/
theorem complete_refusal {p : CompleteParams} {k : Unit → TxM α} {record : IdempotencyRecord}
    (hk : ∀ v draws, store.refusal (k ()) v draws = none) (h : record ∈ v.idempotencyRecords)
    (hid : record.id = p.recordId) : store.refusal (.op (.complete p) k) v draws = none := by
  have hexec : store.exec (.complete p) v (draws 0) = .ok ((), [.completeRecord p]) :=
    if_pos (List.find?_isSome.2 ⟨record, h, decide_eq_true hid⟩)
  exact (Engine.refusal_ok hexec).trans (hk _ _)

theorem Constrained.withRecord (hv : Constrained v) (r : IdempotencyRecord) :
    Constrained (v.withRecord r) :=
  ⟨hv.walletIds, hv.owners, hv.joined, hv.balances⟩

/-- With its key claimed a transfer is in the hands of its settlement: what follows does not
fail, for the record is there to be completed. -/
theorem claimed_refusal {command : CreateDirectTransferCommand} {receiver : Uuid} {cfg : Config}
    {key : RecordKey} {hash : JsString} (hv : Constrained v)
    (hspelled : command.receiverUserId = receiver.text)
    (hnew : ∀ t ∈ v.transfers, t.id ≠ (draws 9).id) :
    store.refusal (settle (transferInput command) DIRECT_SOURCE cfg >>= fun receipt =>
      complete ⟨(draws 0).id, 201, .transfer receipt, .transfer, receipt.transferId⟩ >>= fun _ =>
        .ret (Response.transfer receipt)) (v.withRecord (claimedRecord (draws 0).id key hash))
      (fun n => draws (n + 1)) =
      (Deal.of cfg command receiver draws).failing v conditions.tail := by
  rw [← failing_withRecord _ v (claimedRecord (draws 0).id key hash)]
  refine settle_bind_refusal (Deal.of cfg command receiver draws) (transferInput command)
    DIRECT_SOURCE (hv.withRecord _) rfl hspelled rfl rfl hnew (fun z receipt draws' => ?_)
  exact complete_refusal (fun _ _ => rfl) (List.mem_append_right _ List.mem_cons_self) rfl

theorem runTransfer_refusal {command : CreateDirectTransferCommand} {receiver : Uuid} (cfg : Config)
    (hv : Constrained v) (hc : Untried command receiver draws v) :
    store.refusal (runTransfer cfg command) v draws =
      (Deal.of cfg command receiver draws).failing v conditions := by
  have hunused : v.record? (beginParams command).key = none := by
    simpa [Db.record?] using hc.unused
  refine Deal.failing_cons (fun h => ?_) (fun h => ?_)
  · have hnone : v.user? command.actorUserId = none := by
      have hno : (v.user? command.actorUserId).isSome = false := h
      simpa using hno
    exact begin_unregistered hunused hnone
  · exact (begin_claimed hunused h (hc.records 0)).trans
      (claimed_refusal hv hc.spelled (hc.transfers 9))

end Deciding

end MoneyMovement
