import MoneyMovement.Service.MoneyRequests
import MoneyMovement.Txn.Protocol
import MoneyMovement.Txn.Rows

/-!
# What a lock protects

The locking protocol of the money transactions. A key protects its idempotency
record, a request its row, a wallet its row and the transfers its owner sends.
Users and wallets are only ever added, by registrations, and a run is `closed`
when there are none: then even a user or wallet that is missing stays missing.
-/

namespace MoneyMovement

open Txn

section Rely

structure WalletHead where
  id : Uuid
  userId : Uuid
  currency : Currency
  status : WalletStatus

def Wallet.head (w : Wallet) : WalletHead := ⟨w.id, w.userId, w.currency, w.status⟩

def SenderLocked (L : List Lock) (wallets : List Wallet) (userId : Uuid) : Prop :=
  ∃ w ∈ wallets, w.userId = userId ∧ Lock.wallet w.id ∈ L

/-- What others can do while the locks `L` are held. -/
structure Evolves (closed : Prop) (L : List Lock) (v v' : Db) : Prop where
  users : v.users <+: v'.users
  heads : v.wallets.map Wallet.head <+: v'.wallets.map Wallet.head
  wallets : ∀ id, Lock.wallet id ∈ L → (∃ w ∈ v.wallets, w.id = id) →
    rows Wallet.id id v'.wallets = rows Wallet.id id v.wallets
  sent : ∀ u, SenderLocked L v.wallets u →
    rows Transfer.senderUserId u v'.transfers = rows Transfer.senderUserId u v.transfers
  transfers : ∀ id, Lock.transfer id ∈ L →
    rows Transfer.id id v'.transfers = rows Transfer.id id v.transfers
  requests : ∀ id, Lock.request id ∈ L →
    rows MoneyRequest.id id v'.moneyRequests = rows MoneyRequest.id id v.moneyRequests
  requestKept : ∀ r ∈ v.moneyRequests, ∃ r' ∈ v'.moneyRequests, r'.id = r.id
  records : ∀ id, Lock.record id ∈ L →
    rows IdempotencyRecord.id id v'.idempotencyRecords =
      rows IdempotencyRecord.id id v.idempotencyRecords
  keys : ∀ k, Lock.key k ∈ L →
    rows IdempotencyRecord.key k v'.idempotencyRecords =
      rows IdempotencyRecord.key k v.idempotencyRecords
  keyKept : ∀ r ∈ v.idempotencyRecords, ∃ r' ∈ v'.idempotencyRecords, r'.key = r.key
  settled : closed → v'.users = v.users ∧ v'.wallets.map Wallet.head = v.wallets.map Wallet.head

variable {closed : Prop} {L L' : List Lock} {v v' v'' : Db}

theorem Evolves.refl (closed : Prop) (L : List Lock) (v : Db) : Evolves closed L v v where
  users := List.prefix_rfl
  heads := List.prefix_rfl
  wallets _ _ _ := rfl
  sent _ _ := rfl
  transfers _ _ := rfl
  requests _ _ := rfl
  requestKept r hr := ⟨r, hr, rfl⟩
  records _ _ := rfl
  keys _ _ := rfl
  keyKept r hr := ⟨r, hr, rfl⟩
  settled _ := ⟨rfl, rfl⟩

theorem Evolves.wallet_kept (h : Evolves closed L v v') {w : Wallet} (hw : w ∈ v.wallets) :
    ∃ w' ∈ v'.wallets, w'.head = w.head :=
  List.mem_map.1 (h.heads.subset (List.mem_map_of_mem hw))

theorem SenderLocked.evolves (h : Evolves closed L v v') {u : Uuid}
    (hs : SenderLocked L' v.wallets u) : SenderLocked L' v'.wallets u := by
  obtain ⟨w, hw, hu, hl⟩ := hs
  obtain ⟨w', hw', hh⟩ := h.wallet_kept hw
  injection hh with hid huser
  exact ⟨w', hw', huser.trans hu, hid ▸ hl⟩

theorem SenderLocked.mono (hL : L ⊆ L') {wallets : List Wallet} {u : Uuid}
    (hs : SenderLocked L wallets u) : SenderLocked L' wallets u := by
  obtain ⟨w, hw, hu, hl⟩ := hs
  exact ⟨w, hw, hu, hL hl⟩

theorem Evolves.trans (h : Evolves closed L v v') (h' : Evolves closed L v' v'') :
    Evolves closed L v v'' where
  users := h.users.trans h'.users
  heads := h.heads.trans h'.heads
  wallets id hl hex := by
    obtain ⟨w, hw, hid⟩ := hex
    obtain ⟨w', hw', hh⟩ := h.wallet_kept hw
    injection hh with hid'
    exact (h'.wallets id hl ⟨w', hw', hid'.trans hid⟩).trans (h.wallets id hl ⟨w, hw, hid⟩)
  sent u hs := (h'.sent u (hs.evolves h)).trans (h.sent u hs)
  transfers id hl := (h'.transfers id hl).trans (h.transfers id hl)
  requests id hl := (h'.requests id hl).trans (h.requests id hl)
  requestKept r hr := by
    obtain ⟨r', hr', hid⟩ := h.requestKept r hr
    obtain ⟨r'', hr'', hid'⟩ := h'.requestKept r' hr'
    exact ⟨r'', hr'', hid'.trans hid⟩
  records id hl := (h'.records id hl).trans (h.records id hl)
  keys k hl := (h'.keys k hl).trans (h.keys k hl)
  keyKept r hr := by
    obtain ⟨r', hr', hk⟩ := h.keyKept r hr
    obtain ⟨r'', hr'', hk'⟩ := h'.keyKept r' hr'
    exact ⟨r'', hr'', hk'.trans hk⟩
  settled hc := ⟨(h'.settled hc).1.trans (h.settled hc).1, (h'.settled hc).2.trans (h.settled hc).2⟩

theorem Evolves.anti (hL : L ⊆ L') (h : Evolves closed L' v v') : Evolves closed L v v' where
  users := h.users
  heads := h.heads
  wallets id hl := h.wallets id (hL hl)
  sent u hs := h.sent u (hs.mono hL)
  transfers id hl := h.transfers id (hL hl)
  requests id hl := h.requests id (hL hl)
  requestKept := h.requestKept
  records id hl := h.records id (hL hl)
  keys k hl := h.keys k (hL hl)
  keyKept := h.keyKept
  settled := h.settled

end Rely

section Guarantee

/-- What holds of the tables as the holder of `L` sees them: the unique indexes and
the balance constraint, and only a held key can have an unfinished record. -/
structure Good (L : List Lock) (v : Db) : Prop where
  walletIds : (v.wallets.map Wallet.id).Nodup
  owners : (v.wallets.map Wallet.userId).Nodup
  balances : ∀ w ∈ v.wallets, 0 ≤ w.balanceMinor
  completed : ∀ r ∈ v.idempotencyRecords, Lock.key r.key ∉ L →
    r.state = .COMPLETED ∧ r.responseBody.isSome

/-- The locks a change needs. -/
def Owns (L : List Lock) (v : Db) : Write → Prop
  | .insertRecord r => Lock.key r.key ∈ L ∧ Lock.record r.id ∈ L
  | .completeRecord p => Lock.record p.recordId ∈ L ∧
      ∀ r ∈ v.idempotencyRecords, r.id = p.recordId → Lock.key r.key ∈ L
  | .reclaimRecord .. => False
  | .insertTransfer t => Lock.transfer t.id ∈ L ∧ SenderLocked L v.wallets t.senderUserId
  | .succeedTransfer id _ => Lock.transfer id ∈ L ∧
      ∀ t ∈ v.transfers, t.id = id → SenderLocked L v.wallets t.senderUserId
  | .addBalance id delta => Lock.wallet id ∈ L ∧ (∃ w ∈ v.wallets, w.id = id) ∧
      ∀ w ∈ v.wallets, w.id = id → 0 ≤ w.balanceMinor + delta
  | .insertMoneyRequest r => Lock.request r.id ∈ L
  | .acceptRequest id _ _ => Lock.request id ∈ L
  | .resolveRequest id _ _ => Lock.request id ∈ L
  | _ => True

variable {closed : Prop} {L L' : List Lock} {v v' : Db} {w : Write}

theorem Good.mono (hL : L ⊆ L') (h : Good L v) : Good L' v where
  walletIds := h.walletIds
  owners := h.owners
  balances := h.balances
  completed r hr hk := h.completed r hr (fun hm => hk (hL hm))

theorem Good.congr (h : Good L v) (hw : v'.wallets = v.wallets)
    (hr : v'.idempotencyRecords = v.idempotencyRecords) : Good L v' := by
  refine ⟨?_, ?_, ?_, ?_⟩
  · rw [hw]
    exact h.walletIds
  · rw [hw]
    exact h.owners
  · rw [hw]
    exact h.balances
  · rw [hr]
    exact h.completed

theorem Owns.mono (hL : L ⊆ L') (h : Owns L v w) : Owns L' v w := by
  cases w with
  | insertRecord r => exact ⟨hL h.1, hL h.2⟩
  | completeRecord p => exact ⟨hL h.1, fun r hr hid => hL (h.2 r hr hid)⟩
  | reclaimRecord => exact h
  | insertTransfer t => exact ⟨hL h.1, h.2.mono hL⟩
  | succeedTransfer id at_ => exact ⟨hL h.1, fun t ht hid => (h.2 t ht hid).mono hL⟩
  | addBalance id delta => exact ⟨hL h.1, h.2⟩
  | insertMoneyRequest r => exact hL h
  | acceptRequest id t at_ => exact hL h
  | resolveRequest id st at_ => exact hL h
  | _ => trivial

@[simp] theorem complete_key (p : CompleteParams) (r : IdempotencyRecord) :
    (r.complete p).key = r.key := by
  unfold IdempotencyRecord.complete
  split <;> rfl

@[simp] theorem complete_id (p : CompleteParams) (r : IdempotencyRecord) :
    (r.complete p).id = r.id := by
  unfold IdempotencyRecord.complete
  split <;> rfl

@[simp] theorem reclaim_key (id : Uuid) (hash : JsString) (r : IdempotencyRecord) :
    (r.reclaim id hash).key = r.key := by
  unfold IdempotencyRecord.reclaim
  split <;> rfl

@[simp] theorem reclaim_id (id : Uuid) (hash : JsString) (r : IdempotencyRecord) :
    (r.reclaim id hash).id = r.id := by
  unfold IdempotencyRecord.reclaim
  split <;> rfl

theorem complete_of_ne {p : CompleteParams} {r : IdempotencyRecord} (h : r.id ≠ p.recordId) :
    r.complete p = r := if_neg h

@[simp] theorem succeed_id (id : Uuid) (at_ : Time) (t : Transfer) :
    (t.succeed id at_).id = t.id := by
  unfold Transfer.succeed
  split <;> rfl

@[simp] theorem succeed_sender (id : Uuid) (at_ : Time) (t : Transfer) :
    (t.succeed id at_).senderUserId = t.senderUserId := by
  unfold Transfer.succeed
  split <;> rfl

theorem succeed_of_ne {id : Uuid} {at_ : Time} {t : Transfer} (h : t.id ≠ id) :
    t.succeed id at_ = t := if_neg h

@[simp] theorem addBalance_head (id : Uuid) (delta : ℤ) (w : Wallet) :
    (w.addBalance id delta).head = w.head := by
  unfold Wallet.addBalance
  split <;> rfl

@[simp] theorem addBalance_id (id : Uuid) (delta : ℤ) (w : Wallet) :
    (w.addBalance id delta).id = w.id := by
  unfold Wallet.addBalance
  split <;> rfl

@[simp] theorem addBalance_userId (id : Uuid) (delta : ℤ) (w : Wallet) :
    (w.addBalance id delta).userId = w.userId := by
  unfold Wallet.addBalance
  split <;> rfl

theorem addBalance_of_ne {id : Uuid} {delta : ℤ} {w : Wallet} (h : w.id ≠ id) :
    w.addBalance id delta = w := if_neg h

@[simp] theorem accept_id (id t : Uuid) (at_ : Time) (r : MoneyRequest) :
    (r.accept id t at_).id = r.id := by
  unfold MoneyRequest.accept
  split <;> rfl

theorem accept_of_ne {id t : Uuid} {at_ : Time} {r : MoneyRequest} (h : r.id ≠ id) :
    r.accept id t at_ = r := if_neg h

@[simp] theorem resolve_id (id : Uuid) (st : MoneyRequestStatus) (at_ : Time) (r : MoneyRequest) :
    (r.resolve id st at_).id = r.id := by
  unfold MoneyRequest.resolve
  split <;> rfl

theorem resolve_of_ne {id : Uuid} {st : MoneyRequestStatus} {at_ : Time} {r : MoneyRequest}
    (h : r.id ≠ id) : r.resolve id st at_ = r := if_neg h

@[simp] theorem heads_addBalance (id : Uuid) (delta : ℤ) (wallets : List Wallet) :
    (wallets.map (Wallet.addBalance id delta)).map Wallet.head = wallets.map Wallet.head := by
  simp [Function.comp_def]

theorem Good.apply (h : Good L v) (ho : Owns L v w) : Good L (applyWrite v w) := by
  cases w with
  | insertRecord r =>
    refine ⟨h.walletIds, h.owners, h.balances, fun r' hr' hk => ?_⟩
    rcases List.mem_append.1 hr' with hr' | hr'
    · exact h.completed r' hr' hk
    · rw [List.mem_singleton.1 hr'] at hk
      exact absurd ho.1 hk
  | completeRecord p =>
    refine ⟨h.walletIds, h.owners, h.balances, fun r' hr' hk => ?_⟩
    obtain ⟨r, hr, rfl⟩ := List.mem_map.1 hr'
    by_cases hid : r.id = p.recordId
    · simp [IdempotencyRecord.complete, hid]
    · rw [complete_of_ne hid] at hk ⊢
      exact h.completed r hr hk
  | reclaimRecord => exact ho.elim
  | addBalance id delta =>
    refine ⟨?_, ?_, fun w' hw' => ?_, h.completed⟩
    · simpa [applyWrite, Function.comp_def] using h.walletIds
    · simpa [applyWrite, Function.comp_def] using h.owners
    · obtain ⟨w, hw, rfl⟩ := List.mem_map.1 hw'
      by_cases hid : w.id = id
      · simpa [Wallet.addBalance, hid] using ho.2.2 w hw hid
      · rw [addBalance_of_ne hid]
        exact h.balances w hw
  | _ => exact ⟨h.walletIds, h.owners, h.balances, h.completed⟩

theorem Owns.evolves (h : Evolves closed L v v') (ho : Owns L v w) : Owns L v' w := by
  cases w with
  | completeRecord p =>
    exact ⟨ho.1, fun r hr hid => ho.2 r (mem_of_rows_eq (h.records _ ho.1) hr hid) hid⟩
  | insertTransfer t => exact ⟨ho.1, ho.2.evolves h⟩
  | succeedTransfer id at_ =>
    exact ⟨ho.1, fun t ht hid =>
      (ho.2 t (mem_of_rows_eq (h.transfers _ ho.1) ht hid) hid).evolves h⟩
  | addBalance id delta =>
    obtain ⟨hl, ⟨w₀, hw₀, hid₀⟩, hbal⟩ := ho
    obtain ⟨w', hw', hh⟩ := h.wallet_kept hw₀
    injection hh with hid'
    exact ⟨hl, ⟨w', hw', hid'.trans hid₀⟩, fun w hw hid =>
      hbal w (mem_of_rows_eq (h.wallets id hl ⟨w₀, hw₀, hid₀⟩) hw hid) hid⟩
  | _ => exact ho

theorem SenderLocked.addBalance {wallets : List Wallet} {u id : Uuid} {delta : ℤ} :
    SenderLocked L (wallets.map (Wallet.addBalance id delta)) u ↔ SenderLocked L wallets u := by
  constructor
  · rintro ⟨w', hw', hu, hl⟩
    obtain ⟨w, hw, rfl⟩ := List.mem_map.1 hw'
    exact ⟨w, hw, by simpa using hu, by simpa using hl⟩
  · rintro ⟨w, hw, hu, hl⟩
    exact ⟨_, List.mem_map_of_mem hw, by simpa using hu, by simpa using hl⟩

/-- The same change on both sides is not seen as a difference. -/
theorem Evolves.apply (h : Evolves closed L v v') :
    Evolves closed L (applyWrite v w) (applyWrite v' w) := by
  cases w with
  | insertRecord r =>
    exact ⟨h.users, h.heads, h.wallets, h.sent, h.transfers, h.requests, h.requestKept,
      fun id hl => rows_append_congr (h.records id hl) r,
      fun k hl => rows_append_congr (h.keys k hl) r, keysKept_append r h.keyKept, h.settled⟩
  | completeRecord p =>
    exact ⟨h.users, h.heads, h.wallets, h.sent, h.transfers, h.requests, h.requestKept,
      fun id hl => rows_map_congr (complete_id p) (h.records id hl),
      fun k hl => rows_map_congr (complete_key p) (h.keys k hl),
      keysKept_map (complete_key p) h.keyKept,
      h.settled⟩
  | reclaimRecord id hash =>
    exact ⟨h.users, h.heads, h.wallets, h.sent, h.transfers, h.requests, h.requestKept,
      fun id' hl => rows_map_congr (reclaim_id id hash) (h.records id' hl),
      fun k hl => rows_map_congr (reclaim_key id hash) (h.keys k hl),
      keysKept_map (reclaim_key id hash) h.keyKept, h.settled⟩
  | insertTransfer t =>
    exact ⟨h.users, h.heads, h.wallets, fun u hs => rows_append_congr (h.sent u hs) t,
      fun id hl => rows_append_congr (h.transfers id hl) t, h.requests, h.requestKept, h.records,
      h.keys, h.keyKept, h.settled⟩
  | succeedTransfer id at_ =>
    exact ⟨h.users, h.heads, h.wallets,
      fun u hs => rows_map_congr (succeed_sender id at_) (h.sent u hs),
      fun id' hl => rows_map_congr (succeed_id id at_) (h.transfers id' hl), h.requests,
      h.requestKept, h.records, h.keys, h.keyKept, h.settled⟩
  | addBalance id delta =>
    refine ⟨h.users, ?_, ?_, fun u hs => h.sent u (SenderLocked.addBalance.1 hs), h.transfers,
      h.requests, h.requestKept, h.records, h.keys, h.keyKept, ?_⟩
    · simpa only [applyWrite, heads_addBalance] using h.heads
    · rintro id' hl ⟨w', hw', hid⟩
      obtain ⟨w, hw, rfl⟩ := List.mem_map.1 hw'
      exact rows_map_congr (addBalance_id id delta) (h.wallets id' hl ⟨w, hw, by simpa using hid⟩)
    · simpa only [applyWrite, heads_addBalance] using h.settled
  | insertMoneyRequest r =>
    exact ⟨h.users, h.heads, h.wallets, h.sent, h.transfers,
      fun id hl => rows_append_congr (h.requests id hl) r,
      keysKept_append r h.requestKept, h.records, h.keys,
      h.keyKept, h.settled⟩
  | acceptRequest id t at_ =>
    exact ⟨h.users, h.heads, h.wallets, h.sent, h.transfers,
      fun id' hl => rows_map_congr (accept_id id t at_) (h.requests id' hl),
      keysKept_map (accept_id id t at_) h.requestKept, h.records, h.keys, h.keyKept, h.settled⟩
  | resolveRequest id st at_ =>
    exact ⟨h.users, h.heads, h.wallets, h.sent, h.transfers,
      fun id' hl => rows_map_congr (resolve_id id st at_) (h.requests id' hl),
      keysKept_map (resolve_id id st at_) h.requestKept, h.records, h.keys, h.keyKept, h.settled⟩
  | _ =>
    exact ⟨h.users, h.heads, h.wallets, h.sent, h.transfers, h.requests, h.requestKept, h.records,
      h.keys, h.keyKept, h.settled⟩

/-- An update of one request leaves what locks on others protect. -/
theorem Evolves.updateRequest (v : Db) {id : Uuid} (hne : ∀ id', Lock.request id' ∈ L' → id' ≠ id)
    {g : MoneyRequest → MoneyRequest} (hid : ∀ r, (g r).id = r.id)
    (hg : ∀ r, r.id ≠ id → g r = r) :
    Evolves closed L' v { v with moneyRequests := v.moneyRequests.map g } := by
  refine { Evolves.refl closed L' v with requests := ?_, requestKept := ?_ }
  · intro id' hl
    exact rows_map_eq hid fun r _ hr => hg r (hr ▸ hne id' hl)
  · exact fun r hr => ⟨_, List.mem_map_of_mem hr, hid r⟩

/-- A change covered by one set of locks leaves what disjoint locks protect. -/
theorem Owns.interferes (hg : Good L v) (ho : Owns L v w) (hd : ∀ o ∈ L, o ∉ L') :
    Evolves closed L' v (applyWrite v w) := by
  have h := Evolves.refl closed L' v
  -- The locks of `L'` are not those that cover the change.
  have key {o o' : Lock} (ho : o ∈ L) (ho' : o' ∈ L') : o' ≠ o := by
    rintro rfl
    exact hd _ ho ho'
  have other {u : Uuid} (hs : SenderLocked L v.wallets u) (hs' : SenderLocked L' v.wallets u) :
      False := by
    obtain ⟨w, hw, hu, hl⟩ := hs
    obtain ⟨w', hw', hu', hl'⟩ := hs'
    have : w = w' := eq_of_nodup_key hg.owners hw hw' (hu.trans hu'.symm)
    exact hd _ hl (this ▸ hl')
  cases w with
  | insertRecord r =>
    refine { h with records := ?_, keys := ?_, keyKept := ?_ }
    · intro id hl
      exact rows_insert_of_ne (fun hid => key ho.2 hl (by rw [hid]))
    · intro k hl
      exact rows_insert_of_ne (fun hk => key ho.1 hl (by rw [hk]))
    · exact fun r' hr' => ⟨r', List.mem_append_left _ hr', rfl⟩
  | completeRecord p =>
    refine { h with records := ?_, keys := ?_, keyKept := ?_ }
    · intro id hl
      refine rows_map_eq (complete_id p) (fun r _ hid => complete_of_ne ?_)
      rintro hp
      exact key ho.1 hl (by rw [← hid, hp])
    · intro k hl
      refine rows_map_eq (complete_key p) (fun r hr hk => complete_of_ne ?_)
      intro hp
      exact key (ho.2 r hr hp) hl (by rw [hk])
    · exact fun r hr => ⟨_, List.mem_map_of_mem hr, complete_key p r⟩
  | reclaimRecord => exact ho.elim
  | insertTransfer t =>
    refine { h with sent := ?_, transfers := ?_ }
    · intro u hs
      refine rows_insert_of_ne (fun hu => other ?_ hs)
      rw [← hu]
      exact ho.2
    · intro id hl
      exact rows_insert_of_ne (fun hid => key ho.1 hl (by rw [hid]))
  | succeedTransfer id at_ =>
    refine { h with sent := ?_, transfers := ?_ }
    · intro u hs
      refine rows_map_eq (succeed_sender id at_) (fun t ht hu => succeed_of_ne ?_)
      intro hid
      refine other ?_ hs
      rw [← hu]
      exact ho.2 t ht hid
    · intro id' hl
      refine rows_map_eq (succeed_id id at_) (fun t _ hid => succeed_of_ne ?_)
      intro hid'
      exact key ho.1 hl (by rw [← hid, hid'])
  | addBalance id delta =>
    refine { h with heads := ?_, wallets := ?_, settled := ?_ }
    · rw [applyWrite, heads_addBalance]
    · intro id' hl _
      refine rows_map_eq (addBalance_id id delta) (fun w _ hid => addBalance_of_ne ?_)
      intro hid'
      exact key ho.1 hl (by rw [← hid, hid'])
    · exact fun _ => ⟨rfl, heads_addBalance id delta v.wallets⟩
  | insertMoneyRequest r =>
    refine { h with requests := ?_, requestKept := ?_ }
    · intro id hl
      exact rows_insert_of_ne (fun hid => key ho hl (by rw [hid]))
    · exact fun r' hr' => ⟨r', List.mem_append_left _ hr', rfl⟩
  | acceptRequest id t at_ =>
    exact .updateRequest v (fun _ hl hid => key ho hl (by rw [hid])) (accept_id id t at_)
      fun _ => accept_of_ne
  | resolveRequest id st at_ =>
    exact .updateRequest v (fun _ hl hid => key ho hl (by rw [hid])) (resolve_id id st at_)
      fun _ => resolve_of_ne
  | _ => exact { h with }

end Guarantee

section Order

def Lock.rank : Lock → ℕ
  | .key _ => 0
  | .record _ => 1
  | .request _ => 2
  | .wallet _ => 3
  | .transfer _ => 4

/-- Keys before requests before wallets, and wallets by the text of their ids. -/
def Before (o o' : Lock) : Prop :=
  o.rank < o'.rank ∨ ∃ a b : Uuid, o = .wallet a ∧ o' = .wallet b ∧ a.text < b.text

theorem Before.irrefl (o : Lock) : ¬ Before o o := by
  rintro (h | ⟨a, b, rfl, hb, h⟩)
  · exact lt_irrefl _ h
  · cases hb
    exact lt_irrefl _ h

theorem Before.trans {o o' o'' : Lock} (h : Before o o') (h' : Before o' o'') : Before o o'' := by
  rcases h with h | ⟨a, b, rfl, rfl, h⟩
  · rcases h' with h' | ⟨c, d, rfl, rfl, _⟩
    · exact Or.inl (h.trans h')
    · exact Or.inl h
  · rcases h' with h' | ⟨c, d, hc, rfl, h'⟩
    · exact Or.inl h'
    · cases hc
      exact Or.inr ⟨a, d, rfl, rfl, h.trans h'⟩

end Order

section Registrations

variable {closed : Prop} {r : Registration} {db db' : Db}

theorem register_spec (h : register r db = some db') :
    (∀ u ∈ db.users, u.id ≠ r.userId) ∧ (∀ w ∈ db.wallets, w.id ≠ r.walletId) ∧
      (∀ w ∈ db.wallets, w.userId ≠ r.userId) ∧
      db' = { db with
        users := db.users ++ [{ id := r.userId, email := r.email, displayName := r.displayName,
                                status := .ACTIVE, createdAt := r.now,
                                verificationStatus := .UNVERIFIED }]
        wallets := db.wallets ++ [{ id := r.walletId, userId := r.userId, currency := .BDT,
                                    balanceMinor := r.initialWalletBalanceMinor,
                                    status := .ACTIVE }] } := by
  simp only [register] at h
  split at h
  · cases h
  · next hn =>
    simp only [Db.user?, Db.wallet?, Db.walletOf?, not_or, Bool.not_eq_true,
      Option.isSome_eq_false_iff, Option.isNone_iff_eq_none, List.find?_eq_none,
      decide_eq_true_eq] at hn
    exact ⟨hn.1, hn.2.2.1, hn.2.2.2, (Option.some.inj h).symm⟩

theorem register_good (hg : Good [] db) (h : register r db = some db') : Good [] db' := by
  obtain ⟨-, hid, howner, rfl⟩ := register_spec h
  refine ⟨?_, ?_, fun w hw => ?_, hg.completed⟩
  · simpa [List.nodup_append, hg.walletIds] using hid
  · simpa [List.nodup_append, hg.owners] using howner
  · rcases List.mem_append.1 hw with hw | hw
    · exact hg.balances w hw
    · simp [List.mem_singleton.1 hw]

theorem register_evolves (hc : ¬ closed) (h : register r db = some db') (L : List Lock) :
    Evolves closed L db db' := by
  obtain ⟨-, hid, -, rfl⟩ := register_spec h
  refine { Evolves.refl closed L db with users := ?_, heads := ?_, wallets := ?_, settled := ?_ }
  · exact List.prefix_append _ _
  · rw [List.map_append]
    exact List.prefix_append _ _
  · rintro id - ⟨w, hw, hwid⟩
    refine rows_insert_of_ne (fun heq => hid w hw ?_)
    rw [hwid, ← heq]
  · exact fun h => absurd h hc

end Registrations

section Instance

open IdempotencyService TransferService MoneyRequestService

/-- Failures that a registration or a request created in between could have avoided. -/
def Unsettled (e : Failure) : Prop :=
  e = senderWalletNotFound ∨ e = recipientNotFound ∨ e = payerNotFound ∨ e = notFound ∨
    (∃ k, e = .db (.foreignKeyViolation k)) ∨ e = .db .invalidUuid

/-- The error `begin` ends with after three attempts, and the balance constraint. -/
def Impossible (e : Failure) : Prop :=
  e = .app beingProcessed ∨ e = .db (.checkViolation .wallets_balance_minor_check)

def IsReclaim : Stmt → Prop
  | .reclaim .. => True
  | _ => False

def protocol (closed : Prop) : Protocol store where
  Good := Good
  Evolves := Evolves closed
  Owns := Owns
  Before := Before
  Probe s := ¬ closed ∧ ∃ u, s = .findWalletByUserId u
  Lost e := ¬ closed ∧ Unsettled e
  Throws e := ¬ Impossible e
  Permits s := ¬ IsReclaim s
  Allows _ := ¬ closed
  before_irrefl := Before.irrefl
  before_trans := Before.trans
  evolves_refl := Evolves.refl closed
  evolves_trans := Evolves.trans
  evolves_anti := Evolves.anti
  good_mono := Good.mono
  owns_mono := Owns.mono
  good_apply := Good.apply
  owns_evolves := Owns.evolves
  apply_evolves h _ := h.apply
  interferes := Owns.interferes
  probe_error := by
    rintro s v d e ⟨hc, u, rfl⟩ hx
    refine ⟨hc, ?_⟩
    simp only [store, exec, castUuid] at hx
    split at hx
    · cases hx
    · cases hx
      simp [Unsettled]
  others_good _ := register_good
  others_evolve hc _ h := register_evolves hc h

end Instance

end MoneyMovement
