import MoneyMovement.Runs.Deals
import MoneyMovement.Runs.Retries

/-!
# The outcome of a direct transfer

`createDirectTransfer` under a new key and with nobody else present: when it comes through,
what it leaves then, and what has no say in it.
-/

namespace MoneyMovement

open Txn IdempotencyService TransferService

section Outcomes

def Environment.alone (draws auditDraws : ℕ → Draw Time Uuid) : Environment where
  draws _ := draws
  mishaps _ := ⟨fun _ => none, none⟩
  auditDraws := auditDraws
  audit := ⟨fun _ => none, none⟩

variable {cfg : Config} {db : Db} {command : CreateDirectTransferCommand} {receiver : Uuid}
  {draws : ℕ → Draw Time Uuid}

/-- A caller that retries has nothing to try again. -/
theorem retry_refused (auditDraws : ℕ → Draw Time Uuid) {p : TxM Response} {e : Failure} (left : ℕ)
    (h : store.refusal p db draws = some e) :
    retry isRetryableTransactionError (transaction (.alone draws auditDraws) p) left 1 db =
      ⟨[], .error e.thrown, db⟩ := by
  have hrun : ∀ n, transaction (.alone draws auditDraws) p n db = (.error e.thrown, db) :=
    fun n => Engine.transaction_refused h
  cases left with
  | zero => simp only [retry, hrun]
  | succ left =>
    simp only [retry, hrun, not_retryable]
    rfl

theorem retry_passed (auditDraws : ℕ → Draw Time Uuid) {p : TxM Response} (left : ℕ)
    (h : store.refusal p db draws = none) :
    ∃ a db' n,
      retry isRetryableTransactionError (transaction (.alone draws auditDraws) p) left 1 db =
        ⟨[], .ok a, db'⟩ ∧ store.Returns p db ((List.range n).map draws) a db' := by
  obtain ⟨a, db', hrun⟩ : ∃ a db', store.transaction Failure.thrown p draws
      ⟨fun _ => none, none⟩ db = (.ok a, db') := Engine.transaction_accepted h
  have hfirst : transaction (.alone draws auditDraws) p 1 db = (.ok a, db') := hrun
  obtain ⟨n, hn⟩ := Engine.transaction_ok hrun
  refine ⟨a, db', n, ?_, hn⟩
  cases left <;> simp only [retry, hfirst]

/-- The tables as a failed transfer leaves them; an actor who is not registered cannot be
audited. -/
def afterFailure (command : CreateDirectTransferCommand) (e : Failure) (v : Db) : Db :=
  if (v.user? command.actorUserId).isSome then
    { v with auditEvents := v.auditEvents ++ [failedAudit command e.thrown] }
  else v

theorem direct_failed (auditDraws : ℕ → Draw Time Uuid) {e : Failure}
    (h : store.refusal (runTransfer cfg command) db draws = some e) :
    createDirectTransfer cfg (.alone draws auditDraws) command db =
      ⟨[], .error e.thrown, afterFailure command e db⟩ := by
  have hattempts : TransferService.attempts cfg (.alone draws auditDraws) command db =
      ⟨[], .error e.thrown, db⟩ := retry_refused auditDraws _ h
  have haudit : recordDetached (.alone draws auditDraws) (failedAudit command e.thrown) db =
      afterFailure command e db := by
    rw [recordDetached_eq rfl]
    exact if_congr (and_iff_right ⟨rfl, rfl⟩) rfl rfl
  simp only [createDirectTransfer, hattempts, haudit]

theorem afterFailure_wallets (e : Failure) (v : Db) :
    (afterFailure command e v).wallets = v.wallets := by
  unfold afterFailure
  split_ifs <;> rfl

theorem direct_done (auditDraws : ℕ → Draw Time Uuid)
    (h : store.refusal (runTransfer cfg command) db draws = none) :
    ∃ a db' n, createDirectTransfer cfg (.alone draws auditDraws) command db = ⟨[], .ok a, db'⟩ ∧
      store.Returns (runTransfer cfg command) db ((List.range n).map draws) a db' := by
  obtain ⟨a, db', n, hretry, hreturns⟩ := retry_passed auditDraws (MAX_TRANSFER_ATTEMPTS - 1) h
  have hattempts : TransferService.attempts cfg (.alone draws auditDraws) command db =
      ⟨[], .ok a, db'⟩ := hretry
  exact ⟨a, db', n, by simp only [createDirectTransfer, hattempts], hreturns⟩

def Deal.after (d : Deal) (w : Wallet) : Wallet :=
  if w.userId = d.sender then { w with balanceMinor := w.balanceMinor - d.amountMinor }
  else if w.userId = d.receiver then { w with balanceMinor := w.balanceMinor + d.amountMinor }
  else w

/-- What a transfer that comes through leaves: the wallets, the ledger pair with the balances
they now have, and the sender's in the receipt. -/
structure Transferred (d : Deal) (v v' : Db) (a : Response) : Prop where
  wallets : v'.wallets = v.wallets.map d.after
  ledger : ∃ debit credit, v'.ledgerEntries = v.ledgerEntries ++ [debit, credit] ∧
    debit.direction = .DEBIT ∧ credit.direction = .CREDIT ∧
    (v'.walletOf? d.sender).map (fun w => (w.id, w.balanceMinor)) =
      some (debit.walletId, debit.balanceAfterMinor) ∧
    (v'.walletOf? d.receiver).map (fun w => (w.id, w.balanceMinor)) =
      some (credit.walletId, credit.balanceAfterMinor)
  receipt : ∃ dto w, a = .transfer dto ∧ v'.walletOf? d.sender = some w ∧
    dto.senderBalanceAfterMinor = some (number w.balanceMinor)

@[simp] theorem Deal.after_userId (d : Deal) (w : Wallet) : (d.after w).userId = w.userId := by
  unfold Deal.after
  split_ifs <;> rfl

/-- The wallets by id, as the statements update them, and by owner. -/
theorem addBalance_twice {v : Db} {d : Deal} {sender receiver : LockedWallet} (hv : Constrained v)
    (hs : v.probe d.sender = some sender) (hr : v.probe d.receiver = some receiver)
    (hother : d.sender ≠ d.receiver) :
    (v.wallets.map (Wallet.addBalance sender.id (-d.amountMinor))).map
      (Wallet.addBalance receiver.id d.amountMinor) = v.wallets.map d.after := by
  have hid {u : Uuid} {l : LockedWallet} (hl : v.probe u = some l) {w : Wallet}
      (hw : w ∈ v.wallets) : w.id = l.id ↔ w.userId = u := by
    obtain ⟨row, hrow, hread, -, huser, -⟩ := hv.probe hl
    have hrowid : row.id = l.id := (find?_spec hread).2
    have hmem := List.mem_of_find?_eq_some hrow
    constructor
    · intro he
      rw [eq_of_nodup_key hv.walletIds hw hmem (he.trans hrowid.symm), huser]
    · intro he
      rw [eq_of_nodup_key hv.owners hw hmem (he.trans huser.symm), hrowid]
  rw [List.map_map]
  refine List.map_congr_left (fun w hw => ?_)
  have hsend := hid hs hw
  have hrecv := hid hr hw
  rw [Function.comp_apply]
  unfold Deal.after
  split_ifs with h h'
  · have hne : w.id ≠ receiver.id := fun he => hother (h.symm.trans (hrecv.1 he))
    rw [Wallet.addBalance, Wallet.addBalance, if_pos (hsend.2 h), if_neg hne, sub_eq_add_neg]
  · rw [addBalance_of_ne (fun he => h (hsend.1 he)), Wallet.addBalance, if_pos (hrecv.2 h')]
  · rw [addBalance_of_ne (fun he => h (hsend.1 he)), addBalance_of_ne (fun he => h' (hrecv.1 he))]

theorem walletOf?_after {v v' : Db} {d : Deal} (h : v'.wallets = v.wallets.map d.after) (u : Uuid) :
    v'.walletOf? u = (v.walletOf? u).map d.after := by
  rw [Db.walletOf?, h, List.find?_map]
  simp only [Function.comp_def, Deal.after_userId]
  rfl

theorem transferred_of_returns {db' : Db} {ds : List (Draw Time Uuid)} {a : Response}
    (hv : Constrained db) (hc : Untried command receiver draws db)
    (h : store.Returns (runTransfer cfg command) db ds a db') :
    Transferred (Deal.of cfg command receiver draws) db db' a := by
  obtain ⟨dr, rest, claimed, ws, rfl, hx, hrest⟩ := h
  rcases tryClaim_ok hx with ⟨-, -, hsome⟩ | ⟨rfl, rfl, -⟩
  · obtain ⟨r, hr⟩ := Option.isSome_iff_exists.1 hsome
    exact absurd (find?_spec hr).2 (hc.unused r (List.mem_of_find?_eq_some hr))
  change store.Returns (settle (transferInput command) DIRECT_SOURCE cfg >>= fun receipt =>
    complete _ >>= fun _ => .ret (Response.transfer receipt)) (db.withRecord _) rest a db' at hrest
  obtain ⟨_, _, receipt, v', -, hsettle, hend⟩ := store.returns_bind hrest
  obtain ⟨_, _, _, v'', -, hcomplete, -, rfl, rfl⟩ := store.returns_bind hend
  obtain ⟨z, hz, -, -, rfl, rfl⟩ := settle_returns (v := db.withRecord _) hv.walletIds hsettle
  obtain rfl := complete_returns hcomplete
  have hz : Settles cfg (transferInput command) DIRECT_SOURCE db _ z := hz.of_tables rfl rfl rfl
  have hsender : command.actorUserId = z.sender.userId :=
    Option.some.inj ((parseUuid_text _).symm.trans hz.senderId)
  have hreceiver : receiver = z.receiver.userId := by
    have hparsed : parseUuid command.receiverUserId = some z.receiver.userId := hz.receiverId
    rw [hc.spelled, parseUuid_text] at hparsed
    exact Option.some.inj hparsed
  let d := Deal.of cfg command receiver draws
  have hs : db.probe d.sender = some z.sender :=
    (congrArg db.probe hsender).trans hz.sender
  have hr : db.probe d.receiver = some z.receiver :=
    (congrArg db.probe hreceiver).trans hz.receiver
  have hother : d.sender ≠ d.receiver := by
    have hdistinct := hz.distinct
    rwa [← hsender, ← hreceiver] at hdistinct
  have hwallets := addBalance_twice (d := d) hv hs hr hother
  obtain ⟨ws, hws, hsread, -, husers, hbals, -⟩ := hv.probe hs
  obtain ⟨wr, hwr, hrread, -, huserr, hbalr, -⟩ := hv.probe hr
  have hids : ws.id = z.sender.id := (find?_spec hsread).2
  have hidr : wr.id = z.receiver.id := (find?_spec hrread).2
  have hafters : d.after ws = { ws with balanceMinor := ws.balanceMinor - d.amountMinor } :=
    if_pos husers
  have hafterr : d.after wr = { wr with balanceMinor := wr.balanceMinor + d.amountMinor } := by
    rw [Deal.after, if_neg (fun he => hother (he.symm.trans huserr)), if_pos huserr]
  refine ⟨hwallets, ⟨debitEntry (transferInput command) z.inserted.id z.sender,
    creditEntry (transferInput command) z.inserted.id z.receiver, rfl, rfl, rfl, ?_, ?_⟩,
    _, d.after ws, rfl, ?_, ?_⟩
  · rw [walletOf?_after hwallets, hws, Option.map_some, hafters, Option.map_some, hids, hbals]
    rfl
  · rw [walletOf?_after hwallets, hwr, Option.map_some, hafterr, Option.map_some, hidr, hbalr]
    rfl
  · rw [walletOf?_after hwallets, hws]
    rfl
  · rw [hafters, hbals]
    rfl

/-- Two states that offer the same terms: wallets, standing of the owners, sums of the windows.
In all else, from the ages of the accounts to the risk of earlier transfers, they may differ. -/
structure SameTerms (d : Deal) (v : Db) (d' : Deal) (v' : Db) : Prop where
  wallets : v'.wallets = v.wallets
  owners : ∀ u, (v'.user? u).map User.status = (v.user? u).map User.status
  used : ∀ p, usedIn v' d'.sender d'.now p = usedIn v d.sender d.now p

theorem SameTerms.holds {v v' : Db} {draws' : ℕ → Draw Time Uuid}
    (h : SameTerms (.of cfg command receiver draws) v (.of cfg command receiver draws') v') :
    (Deal.of cfg command receiver draws').holds v' =
      (Deal.of cfg command receiver draws).holds v := by
  have hwallet (u : Uuid) : v'.walletOf? u = v.walletOf? u := by
    rw [Db.walletOf?, h.wallets]
    rfl
  have howner (u : Uuid) : (v'.user? u).all (·.status = .ACTIVE) =
      (v.user? u).all (·.status = .ACTIVE) := by
    have hstatus := congrArg (Option.all (· = .ACTIVE)) (h.owners u)
    simpa only [Option.all_map] using hstatus
  have hactor (u : Uuid) : (v'.user? u).isSome = (v.user? u).isSome := by
    simpa only [Option.isSome_map] using congrArg Option.isSome (h.owners u)
  funext c
  cases c with
  | actor => exact hactor _
  | other => rfl
  | senderWallet | receiverWallet => exact congrArg Option.isSome (hwallet _)
  | senderStatus | receiverStatus | balance | credit => exact congrArg (Option.all _) (hwallet _)
  | senderOwner | receiverOwner => exact howner _
  | amount => rfl
  | sums => simp only [Deal.holds, h.used]
  | window p => simp only [Deal.holds, h.used]; rfl

theorem direct_refused (auditDraws : ℕ → Draw Time Uuid) (hdb : Constrained db)
    (hc : Untried command receiver draws db) {e : Failure}
    (h : (Deal.of cfg command receiver draws).failing db conditions = some e) :
    createDirectTransfer cfg (.alone draws auditDraws) command db =
      ⟨[], .error e.thrown, afterFailure command e db⟩ :=
  direct_failed auditDraws ((runTransfer_refusal cfg hdb hc).trans h)

theorem direct_passed (auditDraws : ℕ → Draw Time Uuid) (hdb : Constrained db)
    (hc : Untried command receiver draws db)
    (h : (Deal.of cfg command receiver draws).failing db conditions = none) :
    ∃ a db', createDirectTransfer cfg (.alone draws auditDraws) command db = ⟨[], .ok a, db'⟩ ∧
      Transferred (.of cfg command receiver draws) db db' a := by
  obtain ⟨a, db', n, ht, hreturns⟩ :=
    direct_done auditDraws ((runTransfer_refusal cfg hdb hc).trans h)
  exact ⟨a, db', ht, transferred_of_returns hdb hc hreturns⟩

/-- A direct transfer under a new key, run alone, comes through exactly when all its conditions
hold, and then moves the amount; else it throws the error of the first that fails and leaves
the one audit row of a registered actor. Nothing outside of those conditions has a say. -/
theorem direct_transfer_exact (cfg : Config) (hdb : Constrained db)
    (hc : Untried command receiver draws db) (auditDraws : ℕ → Draw Time Uuid) :
    let d := Deal.of cfg command receiver draws
    let t := createDirectTransfer cfg (.alone draws auditDraws) command db
    (t.outcome.isOk ↔ ∀ c ∈ conditions, d.holds db c) ∧
    (∀ e, d.failing db conditions = some e → t.retried = [] ∧ t.outcome = .error e.thrown ∧
      t.db = if (db.user? command.actorUserId).isSome then
          { db with auditEvents := db.auditEvents ++ [failedAudit command e.thrown] }
        else db) ∧
    (∀ a, t.outcome = .ok a → Transferred d db t.db a) ∧
    ∀ db' draws' auditDraws', Constrained db' → Untried command receiver draws' db' →
      SameTerms d db (Deal.of cfg command receiver draws') db' →
      let t' := createDirectTransfer cfg (.alone draws' auditDraws') command db'
      (t'.outcome.isOk ↔ t.outcome.isOk) ∧ t'.db.wallets = t.db.wallets := by
  intro d t
  rw [← Deal.failing_eq_none]
  have hsame {db' : Db} {draws' : ℕ → Draw Time Uuid}
      (hterms : SameTerms d db (Deal.of cfg command receiver draws') db') :
      (Deal.of cfg command receiver draws').failing db' conditions = none ↔
        d.failing db conditions = none := by
    simp only [Deal.failing_eq_none, hterms.holds, d]
  cases hfail : d.failing db conditions with
  | some e =>
    have ht : t = _ := direct_refused auditDraws hdb hc hfail
    rw [ht]
    refine ⟨iff_of_false Bool.false_ne_true (Option.some_ne_none e), fun e' he => ?_,
      fun a ha => ?_, fun db' draws' auditDraws' hdb' hc' hterms => ?_⟩
    · obtain rfl := Option.some.inj he
      exact ⟨rfl, rfl, rfl⟩
    · cases ha
    · have hfail' : (Deal.of cfg command receiver draws').failing db' conditions ≠ none := by
        rw [Ne, hsame hterms, hfail]
        exact Option.some_ne_none e
      obtain ⟨e', he'⟩ := Option.ne_none_iff_exists'.1 hfail'
      rw [direct_refused auditDraws' hdb' hc' he']
      exact ⟨Iff.rfl, (afterFailure_wallets e' db').trans
        (hterms.wallets.trans (afterFailure_wallets e db).symm)⟩
  | none =>
    obtain ⟨a, db₁, ht, htransferred⟩ := direct_passed auditDraws hdb hc hfail
    rw [show t = _ from ht]
    refine ⟨iff_of_true rfl rfl, fun e he => ?_, fun a' ha => ?_,
      fun db' draws' auditDraws' hdb' hc' hterms => ?_⟩
    · cases he
    · cases ha
      exact htransferred
    · obtain ⟨a', db₂, ht', htransferred'⟩ :=
        direct_passed auditDraws' hdb' hc' ((hsame hterms).2 hfail)
      rw [ht']
      refine ⟨Iff.rfl, ?_⟩
      rw [htransferred.wallets, htransferred'.wallets, hterms.wallets]
      rfl

def sampleDraws (n : ℕ) : Draw Time Uuid := ⟨50, Fin.ofNat _ (200 + n)⟩

theorem direct_transfer_exact_sample :
    (createDirectTransfer sampleConfig (.alone sampleDraws sampleDraws) sampleDirect
      sampleDb).outcome.isOk := by
  have hdb : Constrained sampleDb := ⟨by decide, by decide, by decide, by decide⟩
  have hc : Untried sampleDirect 2 sampleDraws sampleDb :=
    ⟨rfl, fun r hr => (List.not_mem_nil hr).elim, fun _ r hr => (List.not_mem_nil hr).elim,
      fun _ t ht => (List.not_mem_nil ht).elim⟩
  exact (direct_transfer_exact sampleConfig hdb hc sampleDraws).1.2 (by decide +kernel)

def fullDb : Db :=
  { sampleDb with
    wallets := [⟨11, 1, .BDT, 2 ^ 53 + 301, .ACTIVE⟩, ⟨12, 2, .BDT, 2 ^ 63 - 1, .ACTIVE⟩,
      ⟨13, 3, .BDT, 0, .ACTIVE⟩]
    users := [sampleUser 1 "alice", sampleUser 2 "bob", sampleUser 3 "carol"] }

def shownBalance (t : Outcome) : Option ℤ :=
  match t.outcome with
  | .ok (.transfer dto) => dto.senderBalanceAfterMinor
  | _ => none

/-- With all conditions of the program met the database may still refuse the credit, and a
receipt may be off by one from the balance. -/
theorem direct_transfer_overflows : Constrained fullDb ∧
    (∀ c ∈ conditions, c ≠ .credit →
      (Deal.of sampleConfig sampleDirect 2 sampleDraws).holds fullDb c) ∧
    (createDirectTransfer sampleConfig (.alone sampleDraws sampleDraws) sampleDirect
      fullDb).outcome = .error (DbError.outOfRange).thrown ∧
    let t := createDirectTransfer sampleConfig (.alone sampleDraws sampleDraws)
      { sampleDirect with receiverUserId := (3 : Uuid).text } fullDb
    shownBalance t = some (2 ^ 53) ∧
      (t.db.walletOf? 1).map (·.balanceMinor) = some (2 ^ 53 + 1) := by
  refine ⟨⟨by decide, by decide, by decide, by decide⟩, ?_, ?_, ?_, ?_⟩
  · decide +kernel
  · decide +kernel
  · decide +kernel
  · decide +kernel

end Outcomes
end MoneyMovement
