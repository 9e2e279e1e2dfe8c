import MoneyMovement.Locking.Discipline
import MoneyMovement.Store.Replies
import MoneyMovement.Service.Checks

/-!
# Every money transaction keeps to the locking discipline

One rule for each kind of statement, then the programs of the services from the
bottom up: each may assume the locks and rows its caller holds, and says which
it holds when it returns.
-/

namespace MoneyMovement

open Txn Prog IdempotencyService TransferService MoneyRequestService TransactionLimitService

variable {closed : Prop} {α : Type} {Q : List Lock → Db → α → Prop} {L L' : List Lock} {v v' : Db}

section Statements

theorem throws_app {e : AppException} (he : e.code ≠ .IDEMPOTENCY_KEY_REUSED) :
    (protocol closed).Throws (.app e) := by
  rintro (h | h)
  · cases h
    exact he rfl
  · cases h

theorem throws_db {e : DbError} (he : e ≠ .checkViolation .wallets_balance_minor_check) :
    (protocol closed).Throws (.db e) := by
  rintro (h | h)
  · cases h
  · cases h
    exact he rfl

theorem disciplined_check {c : Prop} {p : TxM Unit} {f : Unit → TxM α} (hp : Checks c p)
    (h : c → (protocol closed).Disciplined Q (f ()) L v) :
    (protocol closed).Disciplined Q (p >>= f) L v := by
  cases hp with
  | pass hc => exact h hc
  | refuse _ e he => exact throws_app he

theorem disciplined_dateNow {k : Time → TxM α}
    (h : ∀ now, (protocol closed).Disciplined Q (k now) L v) :
    (protocol closed).Disciplined Q (.op .dateNow k) L v :=
  .settled _ not_false (fun _ _ _ => ⟨rfl, rfl⟩) (fun _ => List.nil_subset _)
    (fun d r ws hx => by cases hx; exact ⟨trivial, h d.now⟩) (fun d e hx => by cases hx)

theorem disciplined_newDate {k : Time → TxM α}
    (h : ∀ now, (protocol closed).Disciplined Q (k now) L v) :
    (protocol closed).Disciplined Q (.op .newDate k) L v :=
  .settled _ not_false (fun _ _ _ => ⟨rfl, rfl⟩) (fun _ => List.nil_subset _)
    (fun d r ws hx => by cases hx; exact ⟨trivial, h d.now⟩) (fun d e hx => by cases hx)

theorem disciplined_insertAssessment {r : RiskAssessment} {k : Unit → TxM α}
    (h : (protocol closed).Disciplined Q (k ()) L (applyWrite v (.insertAssessment r))) :
    (protocol closed).Disciplined Q (.op (.insertAssessment r) k) L v :=
  .settled _ not_false (fun _ _ _ => ⟨rfl, rfl⟩) (fun _ => List.nil_subset _)
    (fun d r ws hx => by cases hx; exact ⟨⟨trivial, trivial⟩, h⟩) (fun d e hx => by cases hx)

theorem disciplined_insertOutboxEvent {e : OutboxEventInput} {k : Unit → TxM α}
    (h : ∀ row, (protocol closed).Disciplined Q (k ()) L (applyWrite v (.insertOutboxEvent row))) :
    (protocol closed).Disciplined Q (.op (.insertOutboxEvent e) k) L v :=
  .settled _ not_false (fun _ _ _ => ⟨rfl, rfl⟩) (fun _ => List.nil_subset _)
    (fun d r ws hx => by cases hx; exact ⟨⟨trivial, trivial⟩, h _⟩) (fun d e hx => by cases hx)

theorem disciplined_insertLedgerEntry {e : LedgerEntry} {k : Unit → TxM α}
    (h : (protocol closed).Disciplined Q (k ()) L (applyWrite v (.insertLedgerEntry e))) :
    (protocol closed).Disciplined Q (.op (.insertLedgerEntry e) k) L v := by
  refine .settled _ not_false (fun _ _ _ => ⟨rfl, rfl⟩) (fun _ => List.nil_subset _)
    (fun d r ws hx => ?_) (fun d f hx => ?_)
  · simp only [store, exec, execInsertLedgerEntry] at hx
    split_ifs at hx
    cases hx
    exact ⟨⟨trivial, trivial⟩, h⟩
  · simp only [store, exec, execInsertLedgerEntry] at hx
    split_ifs at hx <;> cases hx <;> exact throws_db (by simp)

end Statements

section Wallets

/-- The row of a locked wallet still has the balance that was read under the lock. -/
structure Locked (L : List Lock) (wallets : List Wallet) (w : LockedWallet) : Prop where
  held : Lock.wallet w.id ∈ L
  row : ∃ r ∈ wallets, r.id = w.id ∧ r.userId = w.userId ∧ r.balanceMinor = w.balanceMinor

def Known (v : Db) (id : Uuid) : Prop := ∃ w ∈ v.wallets, w.id = id ∧ (v.user? w.userId).isSome

theorem Locked.mono (hL : L ⊆ L') {wallets : List Wallet} {w : LockedWallet}
    (h : Locked L wallets w) : Locked L' wallets w := ⟨hL h.held, h.row⟩

theorem Locked.evolves (he : Evolves closed L v v') {w : LockedWallet}
    (h : Locked L v.wallets w) : Locked L v'.wallets w := by
  obtain ⟨r, hr, hid, huser, hbal⟩ := h.row
  have hrows := he.wallets w.id h.held ⟨r, hr, hid⟩
  exact ⟨h.held, r, mem_of_rows_eq hrows.symm hr hid, hid, huser, hbal⟩

theorem Locked.sender {wallets : List Wallet} {w : LockedWallet} (h : Locked L wallets w) :
    SenderLocked L wallets w.userId := by
  obtain ⟨r, hr, hid, huser, -⟩ := h.row
  exact ⟨r, hr, huser, hid ▸ h.held⟩

theorem wallet?_of_mem (hg : Good L v) {w : Wallet} (hw : w ∈ v.wallets) :
    v.wallet? w.id = some w :=
  find?_eq_of_nodup hg.walletIds hw

theorem user?_kept (he : Evolves closed L v v') {id : Uuid} (h : (v.user? id).isSome) :
    v'.user? id = v.user? id := by
  obtain ⟨u, hu⟩ := Option.isSome_iff_exists.1 h
  rw [hu]
  exact he.users.find?_eq_some hu

/-- The foreign key of an audit row: users stay, so an actor who is there is not lost; one who
is not may be registered a moment later. -/
theorem disciplined_insertAuditEvent {e : AuditEvent} {k : Unit → TxM α}
    (h : ∀ v', Good L v' → Evolves closed L v v' →
      (protocol closed).Disciplined Q (k ()) L (applyWrite v' (.insertAuditEvent e))) :
    (protocol closed).Disciplined Q (.op (.insertAuditEvent e) k) L v := by
  intro v' hg he d
  refine ⟨not_false, fun o ho => (List.not_mem_nil ho).elim, ?_⟩
  have hexec (u : Db) : store.exec (.insertAuditEvent e) u d = execInsertAuditEvent u e := rfl
  have hsteady (hu : ∀ v'', Evolves closed L v' v'' → ∀ u, e.actorUserId = some u →
      v''.user? u = v'.user? u) : (protocol closed).Steady L v' (.insertAuditEvent e) d k := by
    intro v'' he'
    have hsame : execInsertAuditEvent v'' e = execInsertAuditEvent v' e := by
      unfold execInsertAuditEvent
      cases hactor : e.actorUserId with
      | none => rfl
      | some u => simp only [Option.any_some, hu v'' he' u hactor]
    simp only [Engine.next, hexec, hsame]
  by_cases hkey : e.actorUserId.any fun u => (v'.user? u).isNone
  · rw [hexec, execInsertAuditEvent, if_pos hkey]
    refine ⟨?_, throws_db (by decide)⟩
    by_cases hc : closed
    · exact Or.inl (hsteady fun v'' he' u _ => by simp only [Db.user?, (he'.settled hc).1])
    · exact Or.inr ⟨hc, by simp [Unsettled]⟩
  · rw [hexec, execInsertAuditEvent, if_neg hkey]
    refine ⟨Or.inl (hsteady fun v'' he' u hu => user?_kept he' ?_), ⟨trivial, trivial⟩, h v' hg he⟩
    simpa [hu, Option.isSome_iff_ne_none] using hkey

theorem Known.evolves (he : Evolves closed L v v') {id : Uuid} (h : Known v id) : Known v' id := by
  obtain ⟨w, hw, hid, hu⟩ := h
  obtain ⟨w', hw', hh⟩ := he.wallet_kept hw
  injection hh with hid' huser
  refine ⟨w', hw', hid'.trans hid, ?_⟩
  rw [huser, user?_kept he hu]
  exact hu

/-- Of what a probe finds, only the id is used. -/
theorem probe_id (v : Db) (u : Uuid) :
    (v.probe u).map (·.id) = ((v.wallets.map Wallet.head).find? (·.userId = u)).bind fun h =>
      (v.user? h.userId).map fun _ => h.id := by
  rw [List.find?_map]
  simp only [Db.probe, Db.walletOf?, Function.comp_def]
  change _ = (Option.map Wallet.head (List.find? (fun w => decide (w.userId = u)) v.wallets)).bind _
  cases List.find? (fun w => decide (w.userId = u)) v.wallets with
  | none => rfl
  | some w => cases h : v.user? w.userId <;> simp [Db.joinOwner, Wallet.head, h]

theorem probe_kept (he : Evolves closed L v v') {u id : Uuid}
    (h : (v.probe u).map (·.id) = some id) : (v'.probe u).map (·.id) = some id := by
  rw [probe_id] at h ⊢
  obtain ⟨w, hw, hx⟩ := Option.bind_eq_some_iff.1 h
  obtain ⟨o, ho, rfl⟩ := Option.map_eq_some_iff.1 hx
  rw [he.heads.find?_eq_some hw, Option.bind_some, user?_kept he (by rw [ho]; rfl), ho]
  rfl

theorem probe_settled (hc : closed) (he : Evolves closed L v v') (u : Uuid) :
    (v'.probe u).map (·.id) = (v.probe u).map (·.id) := by
  rw [probe_id, probe_id, (he.settled hc).2]
  simp only [Db.user?, (he.settled hc).1]

theorem known_of_probe {u : Uuid} {w : LockedWallet} (h : v.probe u = some w) : Known v w.id := by
  obtain ⟨r, o, hr, ho, hid, -⟩ := probe_some h
  obtain ⟨hmem, hu⟩ := walletOf?_spec hr
  exact ⟨r, hmem, hid, by rw [hu, ho]; rfl⟩

/-- A probe whose result is used for its id only. When it finds nothing, the
program must give up: the wallet may be registered a moment later. -/
theorem disciplined_findWalletByUserId {userId : JsString} {k : Option LockedWallet → TxM α}
    (hid : ∀ w w', w.id = w'.id → k (some w) = k (some w'))
    (hnone : ¬ closed → (protocol closed).GivenUp (k none))
    (h : ∀ v' r, Good L v' → Evolves closed L v v' → (∀ w ∈ r, Known v' w.id) →
      (protocol closed).Disciplined Q (k r) L v') :
    (protocol closed).Disciplined Q (.op (.findWalletByUserId userId) k) L v := by
  intro v' hg he d
  refine ⟨not_false, fun o ho => (List.not_mem_nil ho).elim, ?_⟩
  cases hp : castUuid userId with
  | error e =>
    have hx (u : Db) : store.exec (.findWalletByUserId userId) u d = .error e := by
      simp only [store, exec, hp, Except.map]
    rw [hx]
    refine ⟨Or.inl (fun v'' _ => by simp only [Engine.next, hx]), ?_⟩
    obtain rfl := castUuid_error hp
    exact throws_db (by simp)
  | ok u =>
    have hx (db : Db) : store.exec (.findWalletByUserId userId) db d = .ok (db.probe u, []) := by
      simp only [store, exec, hp, Except.map, Db.probe]
    rw [hx]
    refine ⟨?_, trivial, h v' _ hg he (fun w hw => known_of_probe hw)⟩
    have hsame (v'' : Db) (heq : (v''.probe u).map (·.id) = (v'.probe u).map (·.id)) :
        store.next v'' d (.findWalletByUserId userId) k =
          store.next v' d (.findWalletByUserId userId) k := by
      rw [Engine.next_ok _ (hx v''), Engine.next_ok _ (hx v')]
      cases hw : v'.probe u with
      | none =>
        rw [hw] at heq
        rw [Option.map_eq_none_iff.1 heq]
      | some w =>
        rw [hw] at heq
        obtain ⟨w', hw', hid'⟩ := Option.map_eq_some_iff.1 heq
        rw [hw', hid w' w hid']
    by_cases hc : closed
    · exact Or.inl (fun v'' he' => hsame v'' (probe_settled hc he' u))
    · cases hw : v'.probe u with
      | none => exact Or.inr (hnone hc)
      | some w =>
        have hm : (v'.probe u).map (·.id) = some w.id := by rw [hw]; rfl
        exact Or.inl (fun v'' he' => hsame v'' ((probe_kept he' hm).trans hm.symm))

theorem joinOwner_kept (he : Evolves closed L v v') {w : Wallet} (hu : (v.user? w.userId).isSome) :
    v'.joinOwner w = v.joinOwner w := by
  simp only [Db.joinOwner, user?_kept he hu]

/-- What the re-read of a locked wallet returns. -/
theorem read_locked (hg : Good L v) {id : Uuid} (hk : Known v id) :
    ∃ r ∈ v.wallets, ∃ w, r.id = id ∧ (v.user? r.userId).isSome ∧ v.wallet? id = some r ∧
      v.joinOwner r = some w ∧ w.id = id ∧ r.userId = w.userId ∧
        r.balanceMinor = w.balanceMinor := by
  obtain ⟨r, hr, rfl, hu⟩ := hk
  obtain ⟨o, ho⟩ := Option.isSome_iff_exists.1 hu
  exact ⟨r, hr, _, rfl, hu, wallet?_of_mem hg hr, by rw [Db.joinOwner, ho, Option.map_some],
    rfl, rfl, rfl⟩

theorem disciplined_lockWalletById {id : Uuid}
    (hl : Lock.wallet id ∈ L ∨ ∀ o ∈ L, Before o (.wallet id)) (hk : Known v id) :
    (protocol closed).Disciplined
      (fun L' v' w => L' = .wallet id :: L ∧ Evolves closed L v v' ∧ w.id = id ∧
        Locked L' v'.wallets w) (lockWalletById id) L v := by
  have hwants (v' : Db) (he : Evolves closed L v v') (d : Draw Time Uuid) :
      store.wants (.selectWalletForUpdate id) v' d = [.wallet id] := by
    obtain ⟨r, hr, hid, -⟩ := hk.evolves he
    have : (v'.wallet? id).isSome := List.find?_isSome.2 ⟨r, hr, by simpa using hid⟩
    simp only [store, wants, this, if_true]
  refine .locked _ not_false (fun v' d _ he => ?_) (fun _ _ _ _ _ _ => rfl)
    (fun v' d r ws hg he hx => ?_)
    (fun v' d e hg he hx => by cases hx)
  · rw [hwants v' he]
    intro o ho
    rw [List.mem_singleton.1 ho]
    exact hl
  · cases hx
    rw [hwants v' he, Engine.view_nil]
    refine ⟨trivial, ?_⟩
    have hk' := hk.evolves he
    have hmem : Lock.wallet id ∈ [Lock.wallet id] ++ L := List.mem_cons_self
    have hg' : Good ([Lock.wallet id] ++ L) v' := hg.mono (List.subset_append_right _ _)
    obtain ⟨row, hrow, w, hid, hu, hfind, hjoin, hwid, huser, hbal⟩ := read_locked hg' hk'
    have hexec (v'' : Db) (he' : Evolves closed ([Lock.wallet id] ++ L) v' v'') (d) :
        store.exec (.findWalletById id) v'' d = .ok (some w, []) := by
      have : v''.wallet? id = some row :=
        (find?_congr (he'.wallets id hmem ⟨row, hrow, hid⟩)).trans hfind
      simp only [store, exec, this, Option.bind_some, joinOwner_kept he' hu, hjoin]
    refine .settled _ not_false (fun v'' d he' => ?_) (fun _ => List.nil_subset _)
      (fun d r ws hx => ?_)
      (fun d e hx => ?_)
    · rw [hexec v'' he', hexec v' (Evolves.refl _ _ _)]
      exact ⟨rfl, rfl⟩
    · rw [hexec v' (Evolves.refl _ _ _)] at hx
      cases hx
      refine ⟨trivial, fun v'' hg'' he' => ?_⟩
      have he' : Evolves closed ([Lock.wallet id] ++ L) v' v'' := he'
      have hlock : Locked ([Lock.wallet id] ++ L) v'.wallets w :=
        ⟨hwid ▸ hmem, row, hrow, hid.trans hwid.symm, huser, hbal⟩
      exact ⟨rfl, he.trans (he'.anti (List.subset_append_right _ _)), hwid, hlock.evolves he'⟩
    · rw [hexec v' (Evolves.refl _ _ _)] at hx
      cases hx

/-- Both locks in order; a transfer to oneself under two spellings locks one wallet. -/
theorem disciplined_lockBoth {a b : Uuid} (hg : Good L v) (hl : ∀ o ∈ L, o.rank ≤ 2)
    (ha : Known v a) (hb : Known v b) :
    (protocol closed).Disciplined
      (fun L' v' p => (∀ o ∈ L', o.rank ≤ 3) ∧ Locked L' v'.wallets p.1 ∧ Locked L' v'.wallets p.2)
      (lockBoth a b) L v := by
  have hlow (c : Uuid) : ∀ o ∈ L, Before o (.wallet c) :=
    fun o ho => Or.inl (Nat.lt_succ_of_le (hl o ho))
  obtain ⟨hfirst, hsecond, hsort⟩ : Known v (sortIds a b).1 ∧ Known v (sortIds a b).2 ∧
      ((sortIds a b).1 = (sortIds a b).2 ∨ (sortIds a b).1.text < (sortIds a b).2.text) := by
    unfold sortIds
    split
    · next h => exact ⟨hb, ha, Or.inr h⟩
    · next h =>
      refine ⟨ha, hb, ?_⟩
      rcases (not_lt.1 h).lt_or_eq with hlt | heq
      · exact Or.inr hlt
      · exact Or.inl (Uuid.text_injective heq)
  refine .bind _ hg (disciplined_lockWalletById (Or.inr (hlow _)) hfirst) ?_
  rintro L₁ v₁ first hL₁ hg₁ ⟨rfl, he₁, hid₁, hlock₁⟩
  have hnext : Lock.wallet (sortIds a b).2 ∈ Lock.wallet (sortIds a b).1 :: L ∨
      ∀ o ∈ Lock.wallet (sortIds a b).1 :: L, Before o (.wallet (sortIds a b).2) := by
    rcases hsort with heq | hlt
    · exact Or.inl (by rw [heq]; exact List.mem_cons_self)
    · refine Or.inr (fun o ho => ?_)
      rcases List.mem_cons.1 ho with rfl | ho
      · exact Or.inr ⟨_, _, rfl, rfl, hlt⟩
      · exact hlow _ o ho
  refine .bind _ hg₁ (disciplined_lockWalletById hnext (hsecond.evolves he₁)) ?_
  rintro L₂ v₂ second hL₂ hg₂ ⟨rfl, he₂, hid₂, hlock₂⟩ v₃ hg₃ he₃
  have h₁ := ((hlock₁.evolves he₂).mono hL₂).evolves he₃
  have h₂ := hlock₂.evolves he₃
  refine ⟨fun o ho => ?_, ?_, ?_⟩
  · rcases List.mem_cons.1 ho with rfl | ho
    · exact le_rfl
    · rcases List.mem_cons.1 ho with rfl | ho
      · exact le_rfl
      · exact (hl o ho).trans (by decide)
  · change Locked _ _ (if first.id = a then first else second)
    split
    · exact h₁
    · exact h₂
  · change Locked _ _ (if first.id = b then first else second)
    split
    · exact h₁
    · exact h₂

end Wallets

section Transfers

theorem sentSince_congr {u : Uuid}
    (h : rows Transfer.senderUserId u v'.transfers = rows Transfer.senderUserId u v.transfers)
    (since : Time) : v'.sentSince u since = v.sentSince u since := by
  have split (db : Db) : db.sentSince u since =
      (rows Transfer.senderUserId u db.transfers).filter
        fun t => t.status = .SUCCEEDED ∧ since ≤ t.createdAt := by
    simp only [Db.sentSince, rows, List.filter_filter]
    refine List.filter_congr (fun t _ => ?_)
    by_cases h : t.senderUserId = u <;> simp [h]
  rw [split, split, h]

theorem disciplined_assertWithinLimits {cfg : Config} {u : Uuid} {amountMinor : ℤ}
    {f : Unit → TxM α} (hs : SenderLocked L v.wallets u)
    (h : (protocol closed).Disciplined Q (f ()) L v) :
    (protocol closed).Disciplined Q (assertWithinLimits cfg u amountMinor >>= f) L v := by
  refine disciplined_newDate (fun now => ?_)
  have hexec (db : Db) (d : Draw Time Uuid) :
      store.exec (.sumSentByWindow u (windowsSince now)) db d =
        (execSumSent db u (windowsSince now)).map fun totals => (totals, []) := rfl
  refine .settled _ not_false (fun v' d he => ?_) (fun _ => List.nil_subset _)
    (fun d totals ws hx => ?_) (fun d e hx => ?_)
  · have he : Evolves closed L v v' := he
    rw [hexec, hexec, execSumSent, execSumSent, sentSince_congr (he.sent u hs)]
    exact ⟨rfl, rfl⟩
  · rw [hexec] at hx
    cases ht : execSumSent v u (windowsSince now) with
    | error e => rw [ht] at hx; cases hx
    | ok r =>
      rw [ht] at hx
      cases hx
      exact ⟨trivial, disciplined_check (assertWindows_checks _ _ _) (fun _ => h)⟩
  · rw [hexec, execSumSent] at hx
    split_ifs at hx <;> cases hx
    exact throws_db (by decide)

theorem disciplined_assessRisk {transferId : Uuid} {sender receiver : LockedWallet}
    {amountMinor : ℤ} (hs : SenderLocked L v.wallets sender.userId) :
    (protocol closed).Disciplined (fun _ _ _ => True)
      (assessRisk transferId sender receiver amountMinor) L v := by
  have flag (r : RiskEngineService.RiskEvaluation) (dto : RiskAssessmentDto) (v₁ : Db) :
      (protocol closed).Disciplined (fun _ _ _ => True)
        (flagRisk transferId r >>= fun _ => .ret dto) L v₁ := by
    unfold flagRisk
    split
    · exact disciplined_insertOutboxEvent (fun row v' hg he => trivial)
    · exact fun v' hg he => trivial
  have record (r : RiskEngineService.RiskEvaluation) :
      (protocol closed).Disciplined (fun _ _ _ => True)
        (recordRisk transferId sender.userId r) L v := by
    refine disciplined_insertAssessment ?_
    change (protocol closed).Disciplined _ (auditRisk transferId sender.userId r >>= fun _ =>
      flagRisk transferId r >>= fun _ => .ret _) L _
    unfold auditRisk
    split
    · exact disciplined_insertAuditEvent fun v' _ _ => flag r _ _
    · exact flag r _ _
  refine disciplined_newDate (fun now => ?_)
  refine .settled _ not_false (fun v' d he => ?_) (fun _ => List.nil_subset _)
    (fun d recent ws hx => ?_) (fun d e hx => by cases hx)
  · have he : Evolves closed L v v' := he
    refine ⟨?_, rfl⟩
    simp only [store, exec, sentSince_congr (he.sent _ hs)]
  · cases hx
    exact ⟨trivial, record _⟩

theorem disciplined_insertPendingTransfer {data : InsertTransferData} {k : Transfer → TxM α}
    (hl : ∀ o ∈ L, o.rank ≤ 3) (hs : SenderLocked L v.wallets data.senderUserId)
    (h : ∀ v' (t : Transfer), Good L v' → Evolves closed L v v' →
      data.senderUserId ≠ data.receiverUserId → t.senderUserId = data.senderUserId →
      (∀ t' ∈ v'.transfers, t'.id ≠ t.id) →
      (protocol closed).Disciplined Q (k t) (.transfer t.id :: L)
        (applyWrite v' (.insertTransfer t))) :
    (protocol closed).Disciplined Q (.op (.insertPendingTransfer data) k) L v := by
  refine .locked _ not_false (fun v' d _ _ o ho => Or.inr (fun o' ho' => ?_))
    (fun v' d _ _ v'' he => ?_) (fun v' d t ws hg he hx => ?_) (fun v' d e _ _ hx => ?_)
  · rw [List.mem_singleton.1 ho]
    exact Or.inl (Nat.lt_succ_of_le (hl o' ho'))
  · have he : Evolves closed (.transfer d.id :: L) v' v'' := he
    have hfind : v''.transfer? d.id = v'.transfer? d.id :=
      find?_congr (he.transfers d.id List.mem_cons_self)
    simp only [store, exec, execInsertTransfer, hfind]
  · simp only [store, exec, execInsertTransfer] at hx
    split_ifs at hx with _ _ hne hid
    cases hx
    have he : Evolves closed L v v' := he
    have hfresh : ∀ t' ∈ v'.transfers, t'.id ≠ d.id := by
      simpa [Db.transfer?] using hid
    exact ⟨⟨⟨List.mem_cons_self, (hs.evolves he).mono (List.subset_cons_self _ _)⟩, trivial⟩,
      h v' _ hg he hne rfl hfresh⟩
  · simp only [store, exec, execInsertTransfer] at hx
    split_ifs at hx <;> cases hx <;> exact throws_db (by decide)

theorem disciplined_applyBalanceDelta {w : LockedWallet} {delta : ℤ} {k : Unit → TxM α}
    (hg : Good L v) (hw : Locked L v.wallets w) (hb : 0 ≤ w.balanceMinor + delta)
    (h : Good (.wallet w.id :: L) (applyWrite v (.addBalance w.id delta)) →
      (protocol closed).Disciplined Q (k ()) (.wallet w.id :: L)
        (applyWrite v (.addBalance w.id delta))) :
    (protocol closed).Disciplined Q (.op (.applyBalanceDelta w.id delta) k) L v := by
  obtain ⟨row, hrow, hid, -, hbal⟩ := hw.row
  have hfind : v.wallet? w.id = some row := hid ▸ wallet?_of_mem hg hrow
  have hwants (d : Draw Time Uuid) :
      store.wants (.applyBalanceDelta w.id delta) v d = [.wallet w.id] := by
    simp only [store, wants, hfind, Option.isSome_some, if_true]
  refine .settled _ not_false (fun v' d he => ?_) (fun d => ?_) (fun d r ws hx => ?_)
    (fun d e hx => ?_)
  · have he : Evolves closed L v v' := he
    have hfind' : v'.wallet? w.id = v.wallet? w.id :=
      find?_congr (he.wallets w.id hw.held ⟨row, hrow, hid⟩)
    simp only [store, exec, execApplyBalanceDelta, wants, hfind', and_self]
  · rw [hwants]
    exact List.cons_subset.2 ⟨hw.held, List.nil_subset _⟩
  · simp only [store, exec, execApplyBalanceDelta, hfind] at hx
    split_ifs at hx
    cases hx
    rw [hwants]
    have how : Owns (.wallet w.id :: L) v (.addBalance w.id delta) := by
      refine ⟨List.mem_cons_self, ⟨row, hrow, hid⟩, fun w' hw' hid' => ?_⟩
      rw [eq_of_nodup_key hg.walletIds hw' hrow (hid'.trans hid.symm), hbal]
      exact hb
    exact ⟨⟨how, trivial⟩, h ((hg.mono (List.subset_cons_self _ _)).apply how)⟩
  · simp only [store, exec, execApplyBalanceDelta, hfind, hbal] at hx
    split_ifs at hx with hbig hneg
    · exact absurd hb (not_le.2 hneg)
    · cases hx
      exact throws_db (by decide)

theorem disciplined_markSucceeded {t : Transfer} {k : Transfer → TxM α}
    (ht : t ∈ v.transfers) (hl : Lock.transfer t.id ∈ L)
    (hs : ∀ t' ∈ v.transfers, t'.id = t.id → SenderLocked L v.wallets t'.senderUserId)
    (h : ∀ t' at_, (protocol closed).Disciplined Q (k t') (.transfer t.id :: L)
      (applyWrite v (.succeedTransfer t.id at_))) :
    (protocol closed).Disciplined Q (.op (.markSucceeded t.id) k) L v := by
  obtain ⟨row, hfind⟩ : ∃ row, v.transfer? t.id = some row :=
    Option.isSome_iff_exists.1 (List.find?_isSome.2 ⟨t, ht, by simp⟩)
  have hwants (d : Draw Time Uuid) :
      store.wants (.markSucceeded t.id) v d = [.transfer t.id] := by
    simp only [store, wants, hfind, Option.isSome_some, if_true]
  refine .settled _ not_false (fun v' d he => ?_) (fun d => ?_) (fun d r ws hx => ?_)
    (fun d e hx => ?_)
  · have he : Evolves closed L v v' := he
    have hfind' : v'.transfer? t.id = v.transfer? t.id := find?_congr (he.transfers t.id hl)
    simp only [store, exec, wants, hfind', and_self]
  · rw [hwants]
    exact List.cons_subset.2 ⟨hl, List.nil_subset _⟩
  · simp only [store, exec, hfind] at hx
    cases hx
    rw [hwants]
    exact ⟨⟨⟨List.mem_cons_self, fun t' ht' hid => (hs t' ht' hid).mono
      (List.subset_cons_self _ _)⟩, trivial⟩, h _ _⟩
  · simp only [store, exec, hfind] at hx
    cases hx

theorem Locked.addBalance_ne {wallets : List Wallet} {w : LockedWallet} {id : Uuid} {delta : ℤ}
    (h : Locked L wallets w) (hne : w.id ≠ id) :
    Locked L (wallets.map (Wallet.addBalance id delta)) w := by
  obtain ⟨r, hr, hid, huser, hbal⟩ := h.row
  have hsame : r.addBalance id delta = r := addBalance_of_ne (fun he => hne (hid.symm.trans he))
  exact ⟨h.held, r, List.mem_map.2 ⟨r, hr, hsame⟩, hid, huser, hbal⟩

theorem Locked.id_ne (hg : Good L v) {w w' : LockedWallet} (h : Locked L v.wallets w)
    (h' : Locked L v.wallets w') (hne : w.userId ≠ w'.userId) : w'.id ≠ w.id := by
  intro hid
  obtain ⟨r, hr, hrid, huser, -⟩ := h.row
  obtain ⟨r', hr', hrid', huser', -⟩ := h'.row
  have : r = r' := eq_of_nodup_key hg.walletIds hr hr' (hrid.trans (hid.symm.trans hrid'.symm))
  exact hne (huser.symm.trans ((congrArg _ this).trans huser'))

theorem disciplined_moveMoney {input : SettleInput} {source : TransferSource}
    {sender receiver : LockedWallet} (hl : ∀ o ∈ L, o.rank ≤ 3)
    (hs : Locked L v.wallets sender) (hr : Locked L v.wallets receiver)
    (ha : 0 < input.amountMinor) (hb : input.amountMinor ≤ sender.balanceMinor) :
    (protocol closed).Disciplined (fun _ _ _ => True) (moveMoney input source sender receiver)
      L v := by
  refine disciplined_insertPendingTransfer hl hs.sender (fun v₁ t hg he hne hsender₁ hfresh => ?_)
  have hs₁ := hs.evolves he
  have hr₁ := hr.evolves he
  have hids : receiver.id ≠ sender.id := hs₁.id_ne hg hr₁ hne
  have hlift : L ⊆ Lock.transfer t.id :: L := List.subset_cons_self _ _
  have hpos : 0 ≤ receiver.balanceMinor + input.amountMinor := by
    obtain ⟨row, hrow, -, -, hbal⟩ := hr₁.row
    have := hg.balances row hrow
    omega
  refine disciplined_insertLedgerEntry (disciplined_insertLedgerEntry ?_)
  -- Neither the ledger nor the new transfer touches a wallet.
  have hg₂ : Good (.transfer t.id :: L) (applyWrite (applyWrite (applyWrite v₁ (.insertTransfer t))
      (.insertLedgerEntry (debitEntry input t.id sender)))
      (.insertLedgerEntry (creditEntry input t.id receiver))) :=
    (hg.mono hlift).congr rfl rfl
  refine disciplined_applyBalanceDelta hg₂ (hs₁.mono hlift) (by omega) (fun hg₃ => ?_)
  have hr₃ : Locked (.wallet sender.id :: .transfer t.id :: L)
      (v₁.wallets.map (Wallet.addBalance sender.id (-input.amountMinor))) receiver :=
    ((hr₁.mono hlift).mono (List.subset_cons_self _ _)).addBalance_ne hids
  refine disciplined_applyBalanceDelta hg₃ hr₃ hpos (fun hg₄ => ?_)
  -- The sender's wallet is still locked, whatever its balance is now.
  have hsender {L' : List Lock} (hL : Lock.transfer t.id :: L ⊆ L') : SenderLocked L'
      ((v₁.wallets.map (Wallet.addBalance sender.id (-input.amountMinor))).map
        (Wallet.addBalance receiver.id input.amountMinor)) sender.userId :=
    SenderLocked.addBalance.2
      (SenderLocked.addBalance.2 (hs₁.sender.mono (List.Subset.trans hlift hL)))
  have hup : Lock.transfer t.id :: L ⊆
      .wallet receiver.id :: .wallet sender.id :: .transfer t.id :: L :=
    List.Subset.trans (List.subset_cons_self _ _) (List.subset_cons_self _ _)
  refine disciplined_markSucceeded (List.mem_append_right _ List.mem_cons_self)
    (hup List.mem_cons_self) (fun t' ht' hid => ?_) (fun settled at_ => ?_)
  · rcases List.mem_append.1 ht' with ht' | ht'
    · exact absurd hid (hfresh t' ht')
    · rw [List.mem_singleton.1 ht', hsender₁]
      exact hsender hup
  · have hg₅ := hg₄.mono (List.subset_cons_self (Lock.transfer t.id) _)
    change (protocol closed).Disciplined _ (assessRisk t.id sender receiver input.amountMinor >>=
      fun _ => _) _ _
    refine .bind _ (hg₅.congr rfl rfl)
      (disciplined_assessRisk (hsender (List.Subset.trans hup (List.subset_cons_self _ _)))) ?_
    intro L' v' dto _ _ _
    exact disciplined_insertOutboxEvent fun row =>
      disciplined_insertAuditEvent fun _ _ _ _ _ _ => trivial

theorem disciplined_settleWallets {input : SettleInput} {source : TransferSource} {cfg : Config}
    {a b : Uuid} (hg : Good L v) (hl : ∀ o ∈ L, o.rank ≤ 2) (ha : Known v a) (hb : Known v b) :
    (protocol closed).Disciplined (fun _ _ _ => True) (settleWallets input source cfg a b) L v := by
  refine .bind _ hg (disciplined_lockBoth hg hl ha hb) ?_
  rintro L₁ v₁ ⟨sender, receiver⟩ hL₁ hg₁ ⟨hrank, hs, hr⟩
  refine disciplined_check (assertParticipantsActive_checks sender receiver) (fun _ => ?_)
  refine disciplined_check (assertWalletsSpendable_checks sender receiver) (fun _ => ?_)
  refine disciplined_check (assertAmountAndBalance_checks sender input.amountMinor) (fun h => ?_)
  exact disciplined_assertWithinLimits hs.sender (disciplined_moveMoney hrank hs hr h.1 h.2)

/-- Moving money needs no lock of its caller, and only locks of wallets and of the
new transfer come on top. -/
theorem disciplined_settle {input : SettleInput} {source : TransferSource} {cfg : Config}
    (hl : ∀ o ∈ L, o.rank ≤ 2) :
    (protocol closed).Disciplined (fun _ _ _ => True) (settle input source cfg) L v := by
  unfold settle
  split_ifs
  · exact throws_app (by decide)
  · refine disciplined_findWalletByUserId (fun w w' hw => ?_) (fun hc => ?_)
      (fun v₁ sender hg₁ he₁ hs => ?_)
    · refine congrArg (Prog.op _) (funext fun r => ?_)
      cases r with
      | none => rfl
      | some r => simp only [Prog.bind, hw]
    · exact ⟨⟨hc, _, rfl⟩, fun r => ⟨hc, Or.inl rfl⟩⟩
    refine disciplined_findWalletByUserId (fun w w' hw => ?_) (fun hc => ?_)
      (fun v₂ receiver hg₂ he₂ hr => ?_)
    · cases sender with
      | none => rfl
      | some s => simp only [Prog.bind, hw]
    · cases sender with
      | none => exact ⟨hc, Or.inl rfl⟩
      | some s => exact ⟨hc, Or.inr (Or.inl rfl)⟩
    cases sender with
    | none => exact throws_app (by decide)
    | some s =>
      cases receiver with
      | none => exact throws_app (by decide)
      | some r =>
        exact disciplined_settleWallets hg₂ hl ((hs s rfl).evolves he₂) (hr r rfl)

end Transfers

end MoneyMovement
