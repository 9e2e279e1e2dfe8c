import MoneyMovement.Queries.Headroom
import MoneyMovement.Runs.Completeness
import MoneyMovement.Runs.Provenance
import MoneyMovement.Txn.Tame

/-!
# The amounts a transaction handles

While the committed balances, requests and window sums are in their bounds, no
statement of the five operations leaves the range of a `BIGINT`, and the details of a
refused transfer are the numbers that the check compared. The sums are those of a sender
whose wallet is locked since before the clock was read, so that the windows end there.
-/

namespace MoneyMovement

open Txn Prog IdempotencyService TransferService MoneyRequestService TransactionLimitService

section Bounds

/-- What is promised of the committed tables at a reading of the clock. -/
structure Sane (cfg : Config) (now : Time) (db : Db) : Prop where
  walletIds : (db.wallets.map Wallet.id).Nodup
  balances : ∀ w ∈ db.wallets, 0 ≤ w.balanceMinor ∧ w.balanceMinor < 2 ^ 53
  requested : ∀ r ∈ db.moneyRequests, RequestSchema.AmountMinor r.amountMinor
  limited : Limited cfg db
  past : ∀ t ∈ db.transfers, t.createdAt ≤ now

/-- The details of a refused amount are exact. -/
structure Itemized (cfg : Config) (actor : Uuid) (db : Db) (d : LimitDetails) : Prop where
  limit : d.limitMinor = d.period.limitMinor cfg
  used : ∃ now, d.usedMinor = usedIn db actor now d.period
  amount : RequestSchema.AmountMinor d.amountMinor

/-- No range is left, and details are exact. -/
def Mild (cfg : Config) (actor : Uuid) (db : Db) : Failure → Prop
  | .app e => ∀ d ∈ e.details, Itemized cfg actor db d
  | .db e => e ≠ .outOfRange
  | .walletDisappeared _ => True

def Failure.Bare : Failure → Prop
  | .app e => e.details = none
  | .db e => e ≠ .outOfRange
  | .walletDisappeared _ => True

theorem Failure.Bare.mild {e : Failure} (h : e.Bare) (cfg : Config) (actor : Uuid) (db : Db) :
    Mild cfg actor db e := by
  cases e with
  | app x =>
    intro d hd
    rw [show x.details = none from h] at hd
    cases hd
  | db e => exact h
  | walletDisappeared id => trivial

def Stmt.Ranged : Stmt → Prop
  | .sumSentByWindow .. | .insertPendingTransfer _ | .insertLedgerEntry _ | .applyBalanceDelta ..
  | .createMoneyRequest _ => True
  | _ => False

theorem not_ranged_of_record {s : Stmt} (h : s.kind = .record) : ¬ s.Ranged := by
  intro hranged
  cases s <;> first | exact False.elim hranged | cases h

theorem castUuid_bare {id : JsString} {e : Failure} (h : castUuid id = .error e) : e.Bare := by
  obtain rfl := castUuid_error h
  simp [Failure.Bare]

theorem exec_bare {s : Stmt} {v : Db} {d : Draw Time Uuid} {e : Failure} (hs : ¬ s.Ranged)
    (h : store.exec s v d = .error e) : e.Bare := by
  have cast {α : Type} {id : JsString} {f : Uuid → α}
      (hx : (castUuid id).map (fun u => (f u, ([] : List Write))) = .error e) : e.Bare := by
    cases hc : castUuid id with
    | ok u => rw [hc] at hx; cases hx
    | error e' => rw [hc] at hx; cases hx; exact castUuid_bare hc
  cases s with
  | tryClaim key hash =>
    simp only [store, exec, execTryClaim] at h
    split_ifs at h <;> cases h <;> simp [Failure.Bare]
  | reclaim id hash =>
    simp only [store, exec] at h
    split_ifs at h
    cases h
    simp [Failure.Bare]
  | complete p =>
    simp only [store, exec] at h
    split_ifs at h
    cases h
    simp [Failure.Bare]
  | insertAuditEvent entry =>
    simp only [store, exec, execInsertAuditEvent] at h
    split_ifs at h
    cases h
    simp [Failure.Bare]
  | markSucceeded id =>
    simp only [store, exec] at h
    split at h <;> cases h
    simp [Failure.Bare]
  | markAccepted id t =>
    simp only [store, exec] at h
    split at h <;> cases h
    simp [Failure.Bare]
  | markResolved id st =>
    simp only [store, exec] at h
    split at h <;> cases h
    simp [Failure.Bare]
  | findUserById id => exact cast h
  | findWalletByUserId id => exact cast h
  | selectRequestForUpdate id => exact cast h
  | findRequestById id => exact cast h
  | sumSentByWindow | insertPendingTransfer | insertLedgerEntry | applyBalanceDelta
  | createMoneyRequest => exact absurd trivial hs
  | _ => cases h

def Write.delta : Write → ℕ
  | .addBalance _ deltaMinor => deltaMinor.natAbs
  | _ => 0

def drift (ws : List Write) : ℕ := (ws.map Write.delta).sum

theorem drift_append (ws ws' : List Write) : drift (ws ++ ws') = drift ws + drift ws' := by
  simp only [drift, List.map_append, List.sum_append]

theorem delta_apply {db : Db} {x : Write} {w : Wallet} (hw : w ∈ (applyWrite db x).wallets) :
    ∃ w₀ ∈ db.wallets, (w.balanceMinor - w₀.balanceMinor).natAbs ≤ x.delta := by
  cases x with
  | addBalance id deltaMinor =>
    obtain ⟨w₀, hw₀, rfl⟩ := List.mem_map.1 hw
    refine ⟨w₀, hw₀, ?_⟩
    simp only [Wallet.addBalance, Write.delta]
    split_ifs <;> simp
  | _ => exact ⟨w, hw, by simp⟩

/-- A balance in the view of a transaction is close to a committed one. -/
theorem view_balance {db : Db} {ws : List Write} {w : Wallet}
    (hw : w ∈ (store.view db ws).wallets) :
    ∃ w₀ ∈ db.wallets, (w.balanceMinor - w₀.balanceMinor).natAbs ≤ drift ws := by
  induction ws generalizing db with
  | nil => exact ⟨w, hw, by simp⟩
  | cons x ws ih =>
    rw [Engine.view_cons] at hw
    obtain ⟨w₁, hw₁, hlast⟩ := ih hw
    obtain ⟨w₀, hw₀, hfirst⟩ := delta_apply hw₁
    refine ⟨w₀, hw₀, ?_⟩
    simp only [drift, List.map_cons, List.sum_cons] at hlast ⊢
    omega

section Records

variable {db : Db} {ws : List Write} (h : ∀ w ∈ ws, w.kind = .record)

include h

theorem drift_records : drift ws = 0 := by
  refine List.sum_eq_zero (fun n hn => ?_)
  obtain ⟨w, hw, rfl⟩ := List.mem_map.1 hn
  have hk := h w hw
  cases w <;> first | rfl | cases hk

theorem wallets_records : (store.view db ws).wallets = db.wallets :=
  view_unchanged Db.wallets (k := .money)
    (fun v w hw => by cases w <;> first | rfl | exact absurd rfl hw)
    (fun w hw => by rw [h w hw]; decide)

theorem transfers_records : (store.view db ws).transfers = db.transfers :=
  view_unchanged Db.transfers (k := .money)
    (fun v w hw => by cases w <;> first | rfl | exact absurd rfl hw)
    (fun w hw => by rw [h w hw]; decide)

theorem moneyRequests_records : (store.view db ws).moneyRequests = db.moneyRequests :=
  view_unchanged Db.moneyRequests (k := .request)
    (fun v w hw => by cases w <;> first | rfl | exact absurd rfl hw)
    (fun w hw => by rw [h w hw]; decide)

end Records

end Bounds

section Rules

variable {cfg : Config} {actor : Uuid} {α β : Type} {L : List Lock} {ws : List Write} {db : Db}
  {now : Time} {Q : List Lock → List Write → Db → Time → α → Prop}

abbrev TameFor (cfg : Config) (actor : Uuid)
    (Q : List Lock → List Write → Db → Time → α → Prop) (p : TxM α) (L : List Lock)
    (ws : List Write) (db : Db) (now : Time) : Prop :=
  (protocol False).Tame (Sane cfg) (Mild cfg actor) Q p L ws db now

abbrev OnwardFor (cfg : Config) (L : List Lock) (db : Db) (now : Time) (db' : Db) (now' : Time) :
    Prop :=
  (protocol False).Onward (Sane cfg) L db now db' now'

theorem tame_bare {e : Failure} (h : e.Bare) : TameFor cfg actor Q (.fail e : TxM α) L ws db now :=
  fun _ _ _ => h.mild cfg actor _

/-- A statement whose errors are bare. -/
theorem tame_op {s : Stmt} {k : Reply s → TxM α}
    (herr : ∀ db' now' id e, OnwardFor cfg L db now db' now' →
      store.exec s (store.view db' ws) ⟨now', id⟩ = .error e → e.Bare)
    (hok : ∀ db' now' id r ws', OnwardFor cfg L db now db' now' →
      store.exec s (store.view db' ws) ⟨now', id⟩ = .ok (r, ws') →
      TameFor cfg actor Q (k r) (store.wants s (store.view db' ws) ⟨now', id⟩ ++ L) (ws ++ ws')
        db' now') :
    TameFor cfg actor Q (.op s k) L ws db now :=
  .op hok (fun db' now' id e ho hx _ _ _ => (herr db' now' id e ho hx).mild cfg actor _)

/-- A program without amounts. -/
theorem tame_plain {p : TxM α} (hp : p.Plain (fun s => ¬ s.Ranged) Failure.Bare) :
    TameFor cfg actor (fun _ _ _ _ _ => True) p L ws db now := by
  have htame : TameFor cfg actor (fun _ ws' _ _ _ => ∀ w ∈ ws', (fun _ => True) w) p L ws db now :=
    .of_plain (fun hs hx => exec_bare hs hx) (fun _ _ _ _ => trivial)
      (fun h => h.mild cfg actor _) hp (fun _ _ => trivial)
  simpa only [implies_true] using htame

/-- A program that touches its records only. -/
theorem tame_records {p : TxM α} (hp : p.Plain (fun s => s.kind = .record) Failure.Bare)
    (hws : ∀ w ∈ ws, w.kind = .record) :
    TameFor cfg actor (fun _ ws' _ _ _ => ∀ w ∈ ws', w.kind = .record) p L ws db now :=
  .of_plain (fun hs hx => exec_bare (not_ranged_of_record hs) hx)
    (fun hs hx w hw => (exec_kind hx w hw).trans hs) (fun h => h.mild cfg actor _) hp hws

theorem tame_check {c : Prop} {p : TxM Unit} {f : Unit → TxM α} (hc : Checks c p)
    (hp : p.Plain (fun s => ¬ s.Ranged) Failure.Bare)
    (h : c → TameFor cfg actor Q (f ()) L ws db now) :
    TameFor cfg actor Q (p >>= f) L ws db now := by
  cases hc with
  | pass hc => exact h hc
  | refuse _ e _ => exact tame_bare hp

end Rules

section Plain

theorem attempts_plain (key : RecordKey) (hash : JsString) (left : ℕ) :
    (attempts key hash left).Plain (fun s => s.kind = .record) Failure.Bare := by
  induction left with
  | zero => exact rfl
  | succ left ih =>
    refine ⟨rfl, fun claimed => ?_⟩
    cases claimed with
    | some id => trivial
    | none =>
      refine ⟨rfl, fun existing => ?_⟩
      cases existing with
      | none => exact ih
      | some row =>
        change (resolveExisting row hash).Plain _ _
        unfold resolveExisting
        split_ifs
        · exact rfl
        · trivial
        · exact ⟨rfl, fun _ => trivial⟩

theorem begin_plain (cfg : Config) (params : BeginParams) :
    («begin» cfg params).Plain (fun s => s.kind = .record) Failure.Bare :=
  attempts_plain _ _ _

variable {S : Stmt → Prop}

theorem assertParticipantsActive_plain (sender receiver : LockedWallet) :
    (assertParticipantsActive sender receiver).Plain S Failure.Bare := by
  unfold assertParticipantsActive
  split_ifs <;> first | exact rfl | trivial

theorem assertWalletsSpendable_plain (sender receiver : LockedWallet) :
    (assertWalletsSpendable sender receiver).Plain S Failure.Bare := by
  unfold assertWalletsSpendable
  split_ifs <;> first | exact rfl | trivial

theorem assertAmountAndBalance_plain (amountMinor : ℤ) (sender : LockedWallet) :
    (assertAmountAndBalance amountMinor sender).Plain S Failure.Bare := by
  unfold assertAmountAndBalance
  split_ifs <;> first | exact rfl | trivial

theorem assertRequestId_plain (id : JsString) :
    (assertRequestId id).Plain S Failure.Bare := by
  unfold assertRequestId
  split_ifs <;> first | exact rfl | trivial

theorem assertActorRole_plain (request : MoneyRequest) (actorUserId : Uuid)
    (requiredRole : ParticipantRole) :
    (assertActorRole request actorUserId requiredRole).Plain S Failure.Bare := by
  unfold assertActorRole
  cases roleOf request actorUserId with
  | none => exact rfl
  | some role =>
    simp only
    split_ifs
    · cases requiredRole <;> exact rfl
    · trivial

theorem assertPending_plain (request : MoneyRequest) :
    (assertPending request).Plain S Failure.Bare := by
  unfold assertPending
  split_ifs <;> first | exact rfl | trivial

theorem assessRisk_plain (transferId : Uuid) (sender receiver : LockedWallet) (amountMinor : ℤ) :
    (assessRisk transferId sender receiver amountMinor).Plain (fun s => ¬ s.Ranged)
      Failure.Bare := by
  refine ⟨id, fun now => ⟨id, fun recent => ⟨id, fun _ => ?_⟩⟩⟩
  refine Plain.bind (p := auditRisk _ _ _) ?_
    (fun _ => Plain.bind (p := flagRisk _ _) ?_ fun _ => trivial)
  · unfold auditRisk
    split_ifs
    · exact ⟨id, fun _ => trivial⟩
    · trivial
  · unfold flagRisk
    split_ifs
    · exact ⟨id, fun _ => trivial⟩
    · trivial

theorem finishTransition_plain (recordId : Uuid) (request row : MoneyRequest)
    (event : OutboxEventInput) (audit : AuditEvent) :
    (finishTransition recordId request row event audit).Plain (fun s => ¬ s.Ranged)
      Failure.Bare :=
  ⟨id, fun _ => ⟨id, fun _ => ⟨id, fun _ => ⟨id, fun _ => trivial⟩⟩⟩⟩

theorem resolvePending_plain (cfg : Config) (command : ResolveMoneyRequestCommand)
    (opts : ResolveOpts) :
    (resolvePending command cfg opts).Plain (fun s => ¬ s.Ranged) Failure.Bare := by
  have locked (recordId : Uuid) (request : MoneyRequest) :
      (resolveLocked command opts recordId request).Plain (fun s => ¬ s.Ranged) Failure.Bare :=
    (assertActorRole_plain _ _ _).bind fun _ => (assertPending_plain _).bind fun _ =>
      ⟨id, fun _ => finishTransition_plain _ _ _ _ _⟩
  refine (assertRequestId_plain _).bind fun _ => ?_
  refine ((begin_plain _ _).mono fun _ => not_ranged_of_record).bind fun result => ?_
  cases result with
  | replayed status responseBody => trivial
  | claimed recordId =>
    refine ⟨id, fun found => ?_⟩
    cases found with
    | false => exact rfl
    | true =>
      refine ⟨id, fun request => ?_⟩
      cases request with
      | none => exact rfl
      | some request => exact locked recordId request

end Plain

section Wallets

variable {cfg : Config} {actor : Uuid} {L L' : List Lock} {ws : List Write} {db db' : Db}
  {now now' : Time}

structure Grasped (L : List Lock) (db : Db) (w : LockedWallet) : Prop where
  held : Lock.wallet w.id ∈ L
  row : db.Owns w.userId w.id
  balance : 0 ≤ w.balanceMinor ∧ w.balanceMinor < 2 ^ 53

theorem owns_onward {u id : Uuid} (ho : OnwardFor cfg L db now db' now') (h : db.Owns u id) :
    db'.Owns u id := by
  obtain ⟨w, hw, hid, hu⟩ := h
  obtain ⟨w', hw', hh⟩ := ho.evolves.wallet_kept hw
  injection hh with hid' huser
  exact ⟨w', hw', hid'.trans hid, huser.trans hu⟩

theorem owns_of_probe {u : Uuid} {w : LockedWallet} (h : db.probe u = some w) :
    db.Owns u w.id := by
  obtain ⟨r, o, hr, -, hid, -⟩ := probe_some h
  obtain ⟨hmem, hu⟩ := walletOf?_spec hr
  exact ⟨r, hmem, hid, hu⟩

theorem owns_unique {u u' id : Uuid} (hids : (db.wallets.map Wallet.id).Nodup)
    (h : db.Owns u id) (h' : db.Owns u' id) : u = u' := by
  obtain ⟨w, hw, hid, rfl⟩ := h
  obtain ⟨w', hw', hid', rfl⟩ := h'
  rw [eq_of_nodup_key hids hw hw' (hid.trans hid'.symm)]

theorem Grasped.onward {w : LockedWallet} (ho : OnwardFor cfg L db now db' now')
    (h : Grasped L' db w) : Grasped L' db' w :=
  ⟨h.held, owns_onward ho h.row, h.balance⟩

theorem Grasped.sender {w : LockedWallet} (h : Grasped L db w) :
    SenderLocked L db.wallets w.userId := by
  obtain ⟨r, hr, hid, hu⟩ := h.row
  exact ⟨r, hr, hu, hid ▸ h.held⟩

theorem tame_lockWalletById {id u : Uuid} (hws : ∀ w ∈ ws, w.kind = .record)
    (hk : db.Owns u id) :
    TameFor cfg actor (fun L' ws' db' now' w => ws' = ws ∧ w.id = id ∧ L ⊆ L' ∧
      OnwardFor cfg L db now db' now' ∧ Grasped L' db' w) (lockWalletById id) L ws db now := by
  refine tame_op (fun _ _ _ e _ hx => by cases hx) (fun db₁ now₁ id₁ r ws₁ ho₁ hx => ?_)
  cases hx
  have hwants : store.wants (.selectWalletForUpdate id) (store.view db₁ ws) ⟨now₁, id₁⟩ =
      [.wallet id] := by
    obtain ⟨r, hr, hid, -⟩ := owns_onward ho₁ hk
    refine if_pos ?_
    rw [Db.wallet?, wallets_records hws]
    exact List.find?_isSome.2 ⟨r, hr, by simpa using hid⟩
  rw [hwants, List.append_nil]
  refine tame_op (fun _ _ _ e _ hx => by cases hx) (fun db₂ now₂ id₂ r ws₂ ho₂ hx => ?_)
  cases hx
  rw [List.append_nil]
  cases hfound : ((store.view db₂ ws).wallet? id).bind (store.view db₂ ws).joinOwner with
  | none => exact tame_bare trivial
  | some w =>
    obtain ⟨row, hf, hj⟩ := Option.bind_eq_some_iff.1 hfound
    obtain ⟨o, ho, rfl⟩ := Option.map_eq_some_iff.1 hj
    have hid : row.id = id := (find?_spec hf).2
    have hsame : (store.view db₂ ws).wallets = db₂.wallets := wallets_records hws
    have hm : row ∈ db₂.wallets := hsame ▸ List.mem_of_find?_eq_some hf
    have hsub : L ⊆ [Lock.wallet id] ++ L := List.subset_append_right _ _
    intro db₃ now₃ ho₃
    refine ⟨rfl, hid, hsub, ho₁.trans ((ho₂.trans ho₃).anti hsub), ?_,
      owns_onward ho₃ ⟨row, hm, rfl, rfl⟩, ho₂.keeps.balances row hm⟩
    exact hid ▸ List.mem_cons_self

theorem tame_lockBoth {a b u u' : Uuid} (hsane : Sane cfg now db)
    (hws : ∀ w ∈ ws, w.kind = .record) (ha : db.Owns u a) (hb : db.Owns u' b) :
    TameFor cfg actor (fun L' ws' db' _ p => ws' = ws ∧ p.1.userId = u ∧ Grasped L' db' p.1 ∧
      Grasped L' db' p.2) (lockBoth a b) L ws db now := by
  obtain ⟨⟨u₁, hfirst⟩, ⟨u₂, hsecond⟩, hsort⟩ : (∃ x, db.Owns x (sortIds a b).1) ∧
      (∃ x, db.Owns x (sortIds a b).2) ∧ ((sortIds a b).1 = a ∨ (sortIds a b).2 = a) := by
    unfold sortIds
    split_ifs
    · exact ⟨⟨u', hb⟩, ⟨u, ha⟩, Or.inr rfl⟩
    · exact ⟨⟨u, ha⟩, ⟨u', hb⟩, Or.inl rfl⟩
  refine .bind hsane (tame_lockWalletById hws hfirst) ?_
  rintro L₁ ws₁ db₁ now₁ first hsane₁ ⟨rfl, hid₁, -, ho₁, hg₁⟩
  refine .bind hsane₁ (tame_lockWalletById hws (owns_onward ho₁ hsecond)) ?_
  rintro L₂ ws₂ db₂ now₂ second hsane₂ ⟨rfl, hid₂, hsub, ho₂, hg₂⟩ db₃ now₃ ho₃
  have hfirst₃ : Grasped L₂ db₃ first :=
    ⟨hsub hg₁.held, owns_onward ho₃ (owns_onward ho₂ hg₁.row), hg₁.balance⟩
  have hsecond₃ : Grasped L₂ db₃ second := hg₂.onward ho₃
  have howner {w : LockedWallet} (hw : Grasped L₂ db₃ w) (hid : w.id = a) : w.userId = u := by
    have hrow := hw.row
    rw [hid] at hrow
    exact owns_unique ho₃.keeps.walletIds hrow
      (owns_onward ho₃ (owns_onward ho₂ (owns_onward ho₁ ha)))
  refine ⟨rfl, ?_, ?_, ?_⟩
  · change (if first.id = a then first else second).userId = u
    split_ifs with hfa
    · exact howner hfirst₃ hfa
    · refine howner hsecond₃ (hid₂.trans (hsort.resolve_left ?_))
      rwa [← hid₁]
  · change Grasped L₂ db₃ (if first.id = a then first else second)
    split_ifs
    · exact hfirst₃
    · exact hsecond₃
  · change Grasped L₂ db₃ (if first.id = b then first else second)
    split_ifs
    · exact hfirst₃
    · exact hsecond₃

end Wallets

section Sums

variable {cfg : Config} {actor : Uuid} {α : Type} {L : List Lock} {ws : List Write} {db : Db}
  {now : Time} {Q : List Lock → List Write → Db → Time → α → Prop}

/-- A window that ends after the sender's last transfer is one the limits were checked for. -/
theorem usedIn_bounds {u : Uuid} (hl : Limited cfg db)
    (hpast : ∀ t ∈ db.transfers, t.senderUserId = u → t.createdAt ≤ now) (p : Period) :
    0 ≤ usedIn db u now p ∧ usedIn db u now p ≤ p.limitMinor cfg := by
  have hwindow : db.sentSince u (now - p.span) = db.sentBetween u (now - p.span) now := by
    refine List.filter_congr (fun t ht => ?_)
    rw [decide_eq_decide]
    constructor
    · rintro ⟨hu, hst, hle⟩
      exact ⟨hu, hst, hle, hpast t ht hu⟩
    · rintro ⟨hu, hst, hle, -⟩
      exact ⟨hu, hst, hle⟩
  refine ⟨List.sum_nonneg (fun n hn => ?_), ?_⟩
  · obtain ⟨t, ht, rfl⟩ := List.mem_map.1 hn
    exact (hl.positive t (List.mem_of_mem_filter ht)).le
  · rw [usedIn, hwindow]
    exact hl.within u now p

/-- What the later transfers add to a window is one that begins where it ends. -/
theorem usedIn_split {u : Uuid} (hl : Limited cfg db) (p : Period) :
    usedIn db u now p ≤ p.limitMinor cfg + usedIn db u (now + p.span) p := by
  have hcover : amounts (db.sentSince u (now - p.span)) ≤
      amounts (db.sentBetween u (now - p.span) now) + amounts (db.sentSince u now) := by
    refine amounts_filter_le_add (fun t ht => (hl.positive t ht).le) fun t ht => ?_
    simp only [decide_eq_true_eq] at ht ⊢
    obtain ⟨hu, hst, hsince⟩ := ht
    rcases le_total t.createdAt now with hle | hle
    · exact Or.inl ⟨hu, hst, hsince, hle⟩
    · exact Or.inr ⟨hu, hst, hle⟩
  have hbetween := hl.within u now p
  have hlater : usedIn db u (now + p.span) p = amounts (db.sentSince u now) := by
    rw [usedIn, add_sub_cancel_right]
  rw [hlater]
  exact hcover.trans (add_le_add_left hbetween _)

/-- A window that is summed late holds at most one limit for each of its spans since. -/
theorem usedIn_late {u : Uuid} {last : Time} (hl : Limited cfg db)
    (hpast : ∀ t ∈ db.transfers, t.senderUserId = u → t.createdAt ≤ last) (p : Period) (k : ℕ)
    (h : last ≤ now + k * p.span) :
    0 ≤ usedIn db u now p ∧ usedIn db u now p ≤ (k + 1) * p.limitMinor cfg := by
  refine ⟨List.sum_nonneg (fun n hn => ?_), ?_⟩
  · obtain ⟨t, ht, rfl⟩ := List.mem_map.1 hn
    exact (hl.positive t (List.mem_of_mem_filter ht)).le
  · induction k generalizing now with
    | zero =>
      have hnow : last ≤ now := by simpa using h
      have hbounds := usedIn_bounds hl (fun t ht hu => (hpast t ht hu).trans hnow) p
      simpa using hbounds.2
    | succ k ih =>
      have hlater : usedIn db u (now + p.span) p ≤ (k + 1) * p.limitMinor cfg :=
        ih (by push_cast at h; linarith)
      have hsplit : usedIn db u now p ≤ p.limitMinor cfg + usedIn db u (now + p.span) p :=
        usedIn_split hl p
      push_cast
      linarith

theorem inBigint_of_lt {n : ℤ} (h : n.natAbs < 2 ^ 62) : InBigint n := by
  unfold InBigint
  omega

/-- Where the sums stay under the limits, the query yields them. -/
theorem execSumSent_ok {u : Uuid} (hlimits : ∀ p : Period, p.limitMinor cfg < 2 ^ 53)
    (hl : Limited cfg db)
    (hpast : ∀ t ∈ db.transfers, t.senderUserId = u → t.createdAt ≤ now) :
    execSumSent db u (windowsSince now) =
      .ok ⟨usedIn db u now .daily, usedIn db u now .weekly, usedIn db u now .monthly⟩ := by
  have hfits (p : Period) : InBigint (usedIn db u now p) := by
    have hp := usedIn_bounds hl hpast p
    have hlimit := hlimits p
    exact inBigint_of_lt (by omega)
  rw [execSumSent_eq, if_pos ⟨hfits .daily, hfits .weekly, hfits .monthly⟩]

theorem usedIn_congr {db' : Db} {u : Uuid}
    (h : rows Transfer.senderUserId u db'.transfers = rows Transfer.senderUserId u db.transfers)
    (t : Time) (p : Period) : usedIn db' u t p = usedIn db u t p := by
  rw [usedIn, usedIn, sentSince_congr h]

theorem tame_assertWithinLimits {amountMinor : ℤ} {f : Unit → TxM α}
    (hlimits : ∀ p : Period, p.limitMinor cfg < 2 ^ 53)
    (hamount : RequestSchema.AmountMinor amountMinor) (hws : ∀ w ∈ ws, w.kind = .record)
    (hs : SenderLocked L db.wallets actor) (h : TameFor cfg actor Q (f ()) L ws db now) :
    TameFor cfg actor Q (assertWithinLimits cfg actor amountMinor >>= f) L ws db now := by
  refine tame_op (fun _ _ _ e _ hx => by cases hx) (fun db₁ now₁ id₁ r ws₁ ho₁ hx₁ => ?_)
  cases hx₁
  rw [List.append_nil]
  have hs₁ : SenderLocked L db₁.wallets actor := hs.evolves ho₁.evolves
  -- The wallet stays locked, so no transfer of the sender is later than this reading.
  have hexec (db₂ : Db) (now₂ : Time) (id₂ : Uuid) (ho₂ : OnwardFor cfg L db₁ now₁ db₂ now₂) :
      store.exec (.sumSentByWindow actor (windowsSince now₁)) (store.view db₂ ws) ⟨now₂, id₂⟩ =
        .ok (⟨usedIn db₂ actor now₁ .daily, usedIn db₂ actor now₁ .weekly,
          usedIn db₂ actor now₁ .monthly⟩, []) ∧
      ∀ p, 0 ≤ usedIn db₂ actor now₁ p ∧ usedIn db₂ actor now₁ p ≤ p.limitMinor cfg := by
    have hpast : ∀ t ∈ db₂.transfers, t.senderUserId = actor → t.createdAt ≤ now₁ :=
      fun t ht hu => ho₁.keeps.past t
        (mem_of_rows_eq (ho₂.evolves.sent actor hs₁) ht hu)
    have hview : execSumSent (store.view db₂ ws) actor (windowsSince now₁) =
        execSumSent db₂ actor (windowsSince now₁) := by
      have hsent (since : Time) : (store.view db₂ ws).sentSince actor since =
          db₂.sentSince actor since := by
        rw [Db.sentSince, transfers_records hws]
        rfl
      rw [execSumSent, execSumSent, hsent]
    refine ⟨?_, usedIn_bounds ho₂.keeps.limited hpast⟩
    change (execSumSent (store.view db₂ ws) actor (windowsSince now₁)).map _ = _
    rw [hview, execSumSent_ok hlimits ho₂.keeps.limited hpast]
    rfl
  refine .op (fun db₂ now₂ id₂ totals ws₂ ho₂ hx₂ => ?_) (fun db₂ now₂ id₂ e ho₂ hx₂ => ?_)
  · obtain ⟨hsum, hbounds⟩ := hexec db₂ now₂ id₂ ho₂
    cases hsum.symm.trans hx₂
    rw [List.append_nil]
    change TameFor cfg actor Q (assertWindows cfg _ amountMinor >>= f) L ws db₂ now₂
    rw [assertWindows_eq]
    split
    · exact h.onward (ho₁.trans ho₂)
    · next p _ =>
      intro db₃ now₃ ho₃ d hd
      obtain rfl := Option.some.inj hd
      have hsame := usedIn_congr (ho₃.evolves.sent actor (hs₁.evolves ho₂.evolves)) now₁ p
      have hb := hbounds p
      have hlimit := hlimits p
      have htotal : (⟨usedIn db₂ actor now₁ .daily, usedIn db₂ actor now₁ .weekly,
          usedIn db₂ actor now₁ .monthly⟩ : SentTotals).usedMinor p = usedIn db₂ actor now₁ p := by
        cases p <;> rfl
      refine ⟨number_exact (by omega), ⟨now₁, ?_⟩, ?_⟩
      · refine Eq.trans ?_ hsame.symm
        change number _ = _
        rw [htotal]
        exact number_exact (by omega)
      · change RequestSchema.AmountMinor (number amountMinor)
        rwa [number_exact hamount.natAbs_lt]
  · cases (hexec db₂ now₂ id₂ ho₂).1.symm.trans hx₂

end Sums

section Ranges

variable {db : Db} {d : Draw Time Uuid} {e : Failure}

theorem insertPendingTransfer_bare {data : InsertTransferData}
    (h : RequestSchema.AmountMinor data.amountMinor)
    (hx : store.exec (.insertPendingTransfer data) db d = .error e) : e.Bare := by
  have hfits : InBigint data.amountMinor :=
    inBigint_of_lt (h.natAbs_lt.trans (by decide))
  simp only [store, exec, execInsertTransfer, not_not.2 hfits, if_false] at hx
  split_ifs at hx <;> cases hx <;> simp [Failure.Bare]

theorem insertLedgerEntry_bare {entry : LedgerEntry} (ha : entry.amountMinor.natAbs < 2 ^ 62)
    (hs : entry.signedAmountMinor.natAbs < 2 ^ 62) (hb : entry.balanceAfterMinor.natAbs < 2 ^ 62)
    (hx : store.exec (.insertLedgerEntry entry) db d = .error e) : e.Bare := by
  have hfits : InBigint entry.amountMinor ∧ InBigint entry.signedAmountMinor ∧
      InBigint entry.balanceAfterMinor :=
    ⟨inBigint_of_lt ha, inBigint_of_lt hs, inBigint_of_lt hb⟩
  simp only [store, exec, execInsertLedgerEntry, not_not.2 hfits, if_false] at hx
  split_ifs at hx <;> cases hx <;> simp [Failure.Bare]

theorem createMoneyRequest_bare {data : CreateMoneyRequestData}
    (h : RequestSchema.AmountMinor data.amountMinor)
    (hx : store.exec (.createMoneyRequest data) db d = .error e) : e.Bare := by
  have hfits : InBigint data.amountMinor :=
    inBigint_of_lt (h.natAbs_lt.trans (by decide))
  simp only [store, exec, execCreateMoneyRequest] at hx
  split at hx
  · next hc =>
    cases hx
    exact castUuid_bare hc
  · rw [if_neg (not_not.2 hfits)] at hx
    split_ifs at hx <;> cases hx <;> simp [Failure.Bare]

/-- A change of a balance fits when the committed one is in bounds and neither it nor what
the transaction has changed before is large. -/
theorem applyBalanceDelta_bare {ws : List Write} {id : Uuid} {deltaMinor : ℤ}
    (hbalances : ∀ w ∈ db.wallets, 0 ≤ w.balanceMinor ∧ w.balanceMinor < 2 ^ 53)
    (hdelta : deltaMinor.natAbs < 2 ^ 53) (hdrift : drift ws < 2 ^ 53)
    (hx : store.exec (.applyBalanceDelta id deltaMinor) (store.view db ws) d = .error e) :
    e.Bare := by
  simp only [store, exec, execApplyBalanceDelta] at hx
  split at hx
  · cases hx
  · next w hw =>
    obtain ⟨w₀, hw₀, hnear⟩ := view_balance (List.mem_of_find?_eq_some hw)
    have hbound := hbalances w₀ hw₀
    have hfits : InBigint deltaMinor ∧ InBigint (w.balanceMinor + deltaMinor) :=
      ⟨inBigint_of_lt (by omega), inBigint_of_lt (by omega)⟩
    rw [if_neg (not_not.2 hfits)] at hx
    split_ifs at hx
    cases hx
    simp [Failure.Bare]

end Ranges

section Settling

variable {cfg : Config} {actor : Uuid} {L : List Lock} {ws : List Write} {db : Db} {now : Time}
  {input : SettleInput} {source : TransferSource}

theorem tame_moveMoney {sender receiver : LockedWallet}
    (hamount : RequestSchema.AmountMinor input.amountMinor)
    (hs : 0 ≤ sender.balanceMinor ∧ sender.balanceMinor < 2 ^ 53)
    (hr : 0 ≤ receiver.balanceMinor ∧ receiver.balanceMinor < 2 ^ 53) (hws : drift ws = 0) :
    TameFor cfg actor (fun _ _ _ _ _ => True) (moveMoney input source sender receiver) L ws db
      now := by
  have hsmall := hamount.natAbs_lt
  refine tame_op (fun _ _ _ e _ hx => insertPendingTransfer_bare hamount hx)
    (fun db₁ now₁ id₁ t ws₁ _ hx₁ => ?_)
  obtain ⟨-, rfl, -⟩ := insertPendingTransfer_ok hx₁
  refine tame_op (fun _ _ _ e _ hx => insertLedgerEntry_bare ?_ ?_ ?_ hx)
    (fun db₂ now₂ id₂ r ws₂ _ hx₂ => ?_)
  · simp only [debitEntry]
    omega
  · simp only [debitEntry]
    omega
  · simp only [debitEntry]
    omega
  obtain rfl := insertLedgerEntry_ok hx₂
  refine tame_op (fun _ _ _ e _ hx => insertLedgerEntry_bare ?_ ?_ ?_ hx)
    (fun db₃ now₃ id₃ r ws₃ _ hx₃ => ?_)
  · simp only [creditEntry]
    omega
  · simp only [creditEntry]
    omega
  · simp only [creditEntry]
    omega
  obtain rfl := insertLedgerEntry_ok hx₃
  have hnone : drift (ws ++ [.insertTransfer t] ++
      [.insertLedgerEntry (debitEntry input t.id sender)] ++
      [.insertLedgerEntry (creditEntry input t.id receiver)]) = 0 := by
    simp only [drift_append, hws]
    rfl
  refine tame_op (fun _ _ _ e ho hx => applyBalanceDelta_bare ho.keeps.balances (by omega)
    (by omega) hx) (fun db₄ now₄ id₄ r ws₄ _ hx₄ => ?_)
  have hdebited : drift ws₄ < 2 ^ 53 := by
    rcases applyBalanceDelta_ok hx₄ with ⟨rfl, -⟩ | rfl
    · decide
    · simpa [drift, Write.delta] using hsmall
  refine tame_op (fun _ _ _ e ho hx => applyBalanceDelta_bare ho.keeps.balances (by omega) ?_ hx)
    (fun db₅ now₅ id₅ r ws₅ _ _ => ?_)
  · rw [drift_append, hnone]
    omega
  refine tame_plain ⟨id, fun settled => ?_⟩
  exact (assessRisk_plain _ _ _ _).bind fun risk => ⟨id, fun _ => ⟨id, fun _ => trivial⟩⟩

theorem tame_settleLocked {sender receiver : LockedWallet}
    (hlimits : ∀ p : Period, p.limitMinor cfg < 2 ^ 53)
    (hamount : RequestSchema.AmountMinor input.amountMinor) (hws : ∀ w ∈ ws, w.kind = .record)
    (hactor : sender.userId = actor) (hs : Grasped L db sender) (hr : Grasped L db receiver) :
    TameFor cfg actor (fun _ _ _ _ _ => True) (settleLocked input source cfg sender receiver) L ws
      db now := by
  refine tame_check (assertParticipantsActive_checks _ _) (assertParticipantsActive_plain _ _)
    (fun _ => ?_)
  refine tame_check (assertWalletsSpendable_checks _ _) (assertWalletsSpendable_plain _ _)
    (fun _ => ?_)
  refine tame_check (assertAmountAndBalance_checks _ _) (assertAmountAndBalance_plain _ _)
    (fun _ => ?_)
  have hsender := hs.sender
  rw [hactor] at hsender ⊢
  exact tame_assertWithinLimits hlimits hamount hws hsender
    (tame_moveMoney hamount hs.balance hr.balance (drift_records hws))

theorem tame_settle (hlimits : ∀ p : Period, p.limitMinor cfg < 2 ^ 53)
    (hamount : RequestSchema.AmountMinor input.amountMinor)
    (hactor : parseUuid input.senderUserId = some actor) (hws : ∀ w ∈ ws, w.kind = .record) :
    TameFor cfg actor (fun _ _ _ _ _ => True) (settle input source cfg) L ws db now := by
  have howns {db₁ : Db} {u : Uuid} {w : LockedWallet}
      (h : (store.view db₁ ws).probe u = some w) : db₁.Owns u w.id := by
    have hv := owns_of_probe h
    rwa [Db.Owns, wallets_records hws] at hv
  unfold settle
  split_ifs
  · exact tame_bare rfl
  refine tame_op (fun _ _ _ e _ hx => exec_bare id hx) (fun db₁ now₁ id₁ s ws₁ ho₁ hx₁ => ?_)
  obtain ⟨u, hu, rfl, rfl⟩ := findWalletByUserId_ok hx₁
  obtain rfl := Option.some.inj (hactor.symm.trans hu)
  rw [List.append_nil]
  refine tame_op (fun _ _ _ e _ hx => exec_bare id hx) (fun db₂ now₂ id₂ r ws₂ ho₂ hx₂ => ?_)
  obtain ⟨u', hu', rfl, rfl⟩ := findWalletByUserId_ok hx₂
  rw [List.append_nil]
  cases hs : (store.view db₁ ws).probe actor with
  | none => exact tame_bare rfl
  | some sender =>
    cases hr : (store.view db₂ ws).probe u' with
    | none => exact tame_bare rfl
    | some receiver =>
      have hboth : TameFor cfg actor _ (lockBoth sender.id receiver.id) L ws db₂ now₂ :=
        tame_lockBoth ho₂.keeps hws (owns_onward ho₂ (howns hs)) (howns hr)
      change TameFor cfg actor _ (settleWallets input source cfg sender.id receiver.id) L ws
        db₂ now₂
      refine .bind ho₂.keeps hboth ?_
      rintro L₃ ws₃ db₃ now₃ ⟨first, second⟩ hsane₃ ⟨rfl, hfirst, hg₁, hg₂⟩
      exact tame_settleLocked hlimits hamount hws hfirst hg₁ hg₂

end Settling

section Bodies

variable {cfg : Config} {actor : Uuid} {α : Type} {L : List Lock} {ws : List Write} {db : Db}
  {now : Time} {Q : List Lock → List Write → Db → Time → α → Prop}

/-- The common beginning of the five operations. -/
theorem tame_begin {params : BeginParams} {f : Uuid → TxM Response} (hsane : Sane cfg now db)
    (h : ∀ L' ws' db' now' recordId, Sane cfg now' db' → (∀ w ∈ ws', w.kind = .record) →
      TameFor cfg actor (fun _ _ _ _ _ => True) (f recordId) L' ws' db' now') :
    TameFor cfg actor (fun _ _ _ _ _ => True)
      («begin» cfg params >>= fun result => match result with
        | .replayed _ responseBody => .ret responseBody
        | .claimed recordId => f recordId) [] [] db now := by
  refine .bind hsane (tame_records (begin_plain cfg params) (fun w hw => by cases hw)) ?_
  intro L' ws' db' now' result hsane' hws'
  cases result with
  | replayed status responseBody => exact fun _ _ _ => trivial
  | claimed recordId => exact h L' ws' db' now' recordId hsane' hws'

/-- The amount of a request that was read is one that a schema has let through. -/
theorem tame_lockById {requestId : JsString} {f : Option MoneyRequest → TxM α}
    (hws : ∀ w ∈ ws, w.kind = .record) (hnone : f none = .fail notFound)
    (h : ∀ L' db' now' r, Sane cfg now' db' → RequestSchema.AmountMinor r.amountMinor →
      TameFor cfg actor Q (f (some r)) L' ws db' now') :
    TameFor cfg actor Q (lockById requestId >>= f) L ws db now := by
  have missing {L' : List Lock} {db' : Db} {now' : Time} :
      TameFor cfg actor Q (f none) L' ws db' now' := by
    rw [hnone]
    exact tame_bare rfl
  refine tame_op (fun _ _ _ e _ hx => exec_bare id hx) (fun db₁ now₁ id₁ found ws₁ _ hx₁ => ?_)
  obtain ⟨u, hu, rfl, rfl⟩ := selectRequestForUpdate_ok hx₁
  rw [List.append_nil]
  cases ((store.view db₁ ws).request? u).isSome with
  | false => exact missing
  | true =>
    refine tame_op (fun _ _ _ e _ hx => exec_bare id hx) (fun db₂ now₂ id₂ r ws₂ ho₂ hx₂ => ?_)
    obtain ⟨u', hu', rfl, rfl⟩ := findRequestById_ok hx₂
    rw [List.append_nil]
    cases hr : (store.view db₂ ws).request? u' with
    | none => exact missing
    | some r =>
      have hsame : (store.view db₂ ws).moneyRequests = db₂.moneyRequests :=
        moneyRequests_records hws
      have hm : r ∈ db₂.moneyRequests := hsame ▸ mem_of_request? hr
      exact h _ db₂ now₂ r ho₂.keeps (ho₂.keeps.requested r hm)

theorem tame_assertNotExpired {request : MoneyRequest} {f : Unit → TxM α}
    (h : TameFor cfg actor Q (f ()) L ws db now) :
    TameFor cfg actor Q (assertNotExpired request >>= f) L ws db now := by
  unfold assertNotExpired
  cases request.expiresAt with
  | none => exact h
  | some deadline =>
    refine tame_op (fun _ _ _ e _ hx => by cases hx) (fun db₁ now₁ id₁ r ws₁ ho₁ hx₁ => ?_)
    cases hx₁
    rw [List.append_nil]
    change TameFor cfg actor Q ((if deadline ≤ now₁ then _ else _) >>= f) L ws db₁ now₁
    split_ifs
    · exact tame_bare rfl
    · exact h.onward ho₁

theorem tame_runTransfer {command : CreateDirectTransferCommand}
    (hlimits : ∀ p : Period, p.limitMinor cfg < 2 ^ 53)
    (hamount : RequestSchema.AmountMinor command.amountMinor) (hsane : Sane cfg now db) :
    TameFor cfg command.actorUserId (fun _ _ _ _ _ => True) (runTransfer cfg command) [] [] db
      now := by
  refine tame_begin hsane (fun L' ws' db' now' recordId hsane' hws' => ?_)
  refine .bind hsane' (tame_settle hlimits hamount (parseUuid_text _) hws') ?_
  intro L'' ws'' db'' now'' receipt _ _
  exact tame_plain ⟨id, fun _ => trivial⟩

theorem tame_insertRequest {command : CreateMoneyRequestCommand} {recordId : Uuid}
    (hamount : RequestSchema.AmountMinor command.amountMinor) :
    TameFor cfg actor (fun _ _ _ _ _ => True) (insertRequest command recordId) L ws db now :=
  tame_op (fun _ _ _ _ _ hx => createMoneyRequest_bare hamount hx) fun _ _ _ _ _ _ _ =>
    tame_plain ⟨id, fun _ => ⟨id, fun _ => ⟨id, fun _ => ⟨id, fun _ => trivial⟩⟩⟩⟩

theorem tame_create {command : CreateMoneyRequestCommand}
    (hamount : RequestSchema.AmountMinor command.amountMinor) (hsane : Sane cfg now db) :
    TameFor cfg actor (fun _ _ _ _ _ => True) (create command cfg) [] [] db now := by
  have hrun {db' : Db} {now' : Time} (hsane' : Sane cfg now' db') :
      TameFor cfg actor (fun _ _ _ _ _ => True) (runCreate command cfg) [] [] db' now' := by
    refine tame_begin hsane' (fun L' ws' db' now' recordId _ _ => ?_)
    refine tame_op (fun _ _ _ e _ hx => exec_bare id hx) (fun db₁ now₁ id₁ payer ws₁ _ _ => ?_)
    cases payer with
    | none => exact tame_bare rfl
    | some user =>
      change TameFor cfg actor _
        (if user.status ≠ .ACTIVE then .fail payerNotFound else insertRequest command recordId) _ _
        db₁ now₁
      split_ifs
      · exact tame_bare rfl
      · exact tame_insertRequest hamount
  unfold create
  split_ifs
  · exact tame_bare rfl
  · unfold assertDeadline
    cases command.expiresAt with
    | none => exact hrun hsane
    | some deadline =>
      refine tame_op (fun _ _ _ e _ hx => by cases hx) (fun db₁ now₁ id₁ r ws₁ ho₁ hx₁ => ?_)
      cases hx₁
      change TameFor cfg actor _
        ((if deadline ≤ now₁ then _ else _) >>= fun _ => runCreate command cfg) [] [] db₁ now₁
      split_ifs
      · exact tame_bare rfl
      · exact hrun ho₁.keeps

theorem tame_accept {command : ResolveMoneyRequestCommand}
    (hlimits : ∀ p : Period, p.limitMinor cfg < 2 ^ 53) (hsane : Sane cfg now db) :
    TameFor cfg command.actorUserId (fun _ _ _ _ _ => True) (accept command cfg) [] [] db now := by
  refine tame_check (assertRequestId_checks _) (assertRequestId_plain _) (fun _ => ?_)
  refine tame_begin hsane (fun L₁ ws₁ db₁ now₁ recordId hsane₁ hws₁ => ?_)
  refine tame_lockById hws₁ rfl (fun L₂ db₂ now₂ request hsane₂ hamount => ?_)
  refine tame_check (assertActorRole_checks _ _ _) (assertActorRole_plain _ _ _) (fun hrole => ?_)
  refine tame_check (assertPending_checks _) (assertPending_plain _) (fun _ => ?_)
  refine tame_assertNotExpired ?_
  have hpayer : parseUuid (settleCommand request).payerUserId.text = some command.actorUserId := by
    unfold roleOf at hrole
    split_ifs at hrole with hp
    · exact hp ▸ parseUuid_text _
    · cases hrole
  refine .bind hsane₂ (tame_settle hlimits hamount hpayer hws₁) ?_
  intro L₃ ws₃ db₃ now₃ transfer _ _
  exact tame_plain ⟨id, fun row => finishTransition_plain _ _ _ _ _⟩

/-- The limits of a transfer are those of the caller. -/
theorem tame_body (cfg : Config) (hlimits : ∀ p : Period, p.limitMinor cfg < 2 ^ 53) (c : Command)
    (db : Db) (now : Time) (hc : c.Valid) (hsane : Sane cfg now db) :
    TameFor cfg c.key.actorUserId (fun _ _ _ _ _ => True) (body cfg c) [] [] db now := by
  cases c with
  | createDirectTransfer c => exact tame_runTransfer hlimits (hc _ rfl) hsane
  | create c => exact tame_create (hc _ rfl) hsane
  | accept c => exact tame_accept hlimits hsane
  | decline c => exact tame_plain (resolvePending_plain _ _ _)
  | cancel c => exact tame_plain (resolvePending_plain _ _ _)

end Bodies

end MoneyMovement
