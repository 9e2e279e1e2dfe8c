import MoneyMovement.Effects.Operations
import MoneyMovement.Queries.Reads
import MoneyMovement.Runs.Interleavings
import MoneyMovement.Txn.Refusals

/-!
# What outsiders see

A user who takes no part in a transfer, a request or a notification gets the answer
that there is none, from every endpoint that takes its id, and nothing is written. The
pages of a user are made of the user's own rows and of names.
-/

namespace MoneyMovement

open Txn Paging IdempotencyService TransferService MoneyRequestService

def Transfer.Involves (t : Transfer) (userId : Uuid) : Prop :=
  t.senderUserId = userId ∨ t.receiverUserId = userId

instance (t : Transfer) (userId : Uuid) : Decidable (t.Involves userId) := instDecidableOr

def MoneyRequest.Involves (r : MoneyRequest) (userId : Uuid) : Prop :=
  r.requesterUserId = userId ∨ r.payerUserId = userId

instance (r : MoneyRequest) (userId : Uuid) : Decidable (r.Involves userId) := instDecidableOr

section Details

variable {db : Db} {text : JsString} {userId : Uuid}

theorem find?_id {α : Type} {rows : List α} {idOf : α → Uuid} {id : Uuid} {a : α}
    (h : rows.find? (fun a => idOf a = id) = some a) : a ∈ rows ∧ idOf a = id := by
  have hid := List.find?_some h
  exact ⟨List.mem_of_find?_eq_some h, of_decide_eq_true hid⟩

theorem transfer_not_found
    (h : ∀ t ∈ db.transfers, parseUuid text = some t.id → ¬ t.Involves userId) :
    TransferQueryService.getForParticipant db text userId =
      .error TransferQueryService.notFound := by
  cases hid : parseUuid text with
  | none => simp only [TransferQueryService.getForParticipant, hid]
  | some id =>
    cases ht : db.transfers.find? (·.id = id) with
    | none => simp only [TransferQueryService.getForParticipant, hid, ht]
    | some t =>
      obtain ⟨hm, rfl⟩ := find?_id ht
      have hout : ¬ (t.senderUserId = userId ∨ t.receiverUserId = userId) := h t hm hid
      simp only [TransferQueryService.getForParticipant, hid, ht, if_neg hout]

theorem request_not_found (now : Time)
    (h : ∀ r ∈ db.moneyRequests, parseUuid text = some r.id → ¬ r.Involves userId) :
    MoneyRequestQueryService.getForParticipant db now text userId = .error notFound := by
  cases hid : parseUuid text with
  | none => simp only [MoneyRequestQueryService.getForParticipant, hid]
  | some id =>
    cases hr : db.moneyRequests.find? (·.id = id) with
    | none => simp only [MoneyRequestQueryService.getForParticipant, hid, hr]
    | some r =>
      obtain ⟨hm, rfl⟩ := find?_id hr
      have hout : ¬ (r.requesterUserId = userId ∨ r.payerUserId = userId) := h r hm hid
      simp only [MoneyRequestQueryService.getForParticipant, hid, hr, if_neg hout]

theorem notification_not_found {notifications : List Notification} (now : Time)
    (h : ∀ n ∈ notifications, parseUuid text = some n.id → n.userId ≠ userId) :
    NotificationsService.markRead notifications now text userId =
      (notifications, .error NotificationsService.notFound) := by
  cases hid : parseUuid text with
  | none => simp only [NotificationsService.markRead, hid]
  | some id =>
    have hother : ∀ n ∈ notifications, ¬ (n.id = id ∧ n.userId = userId) := by
      rintro n hn ⟨rfl, hu⟩
      exact h n hn hid hu
    have hsame : notifications.map (NotificationsRepository.markRead id userId now) =
        notifications := by
      refine (List.map_congr_left fun n hn => if_neg ?_).trans (List.map_id _)
      rintro ⟨hn₁, hn₂, -⟩
      exact hother n hn ⟨hn₁, hn₂⟩
    have hnone : notifications.find? (fun n => n.id = id ∧ n.userId = userId) = none :=
      List.find?_eq_none.2 fun n hn => by simpa using hother n hn
    simp only [NotificationsService.markRead, hid, hsame, hnone]

end Details

section Commands

variable {cfg : Config}

/-- The user of a command has not used its key, and has no part in a request with the id. -/
structure Outside (c : Command) (text : JsString) (db : Db) : Prop where
  user : (db.user? c.key.actorUserId).isSome
  unused : db.record? c.key = none
  stranger : ∀ r ∈ db.moneyRequests, parseUuid text = some r.id →
    ¬ r.Involves c.key.actorUserId

def DrawsNew (db : Db) (d : Draw Time Uuid) : Prop := db.recordById? d.id = none

theorem roleOf_stranger {r : MoneyRequest} {userId : Uuid} (h : ¬ r.Involves userId) :
    roleOf r userId = none := by
  obtain ⟨hrequester, hpayer⟩ := not_or.1 h
  rw [roleOf, if_neg hpayer, if_neg hrequester]

/-- Locking the request finds none, or one that others take part in. -/
theorem refused_lockById {id : JsString} {u : Uuid} {g : Option MoneyRequest → TxM Response}
    {F : Db → Prop} (hid : parseUuid id = some u) (hnone : g none = .fail notFound)
    (hsome : ∀ db r, F db → r ∈ db.moneyRequests → r.id = u → g (some r) = .fail notFound)
    {ws : List Write} (hws : ∀ db, (store.view db ws).moneyRequests = db.moneyRequests) :
    Refused store F DrawsNew notFound (lockById id >>= g) ws := by
  have hcast : castUuid id = .ok u := by
    rw [castUuid, hid]
  have hlock (v : Db) (d : Draw Time Uuid) : store.exec (.selectRequestForUpdate id) v d =
      .ok ((v.request? u).isSome, []) := by
    simp only [store, exec, hcast, Except.map]
  have hfind (v : Db) (d : Draw Time Uuid) : store.exec (.findRequestById id) v d =
      .ok (v.request? u, []) := by
    simp only [store, exec, hcast, Except.map]
  intro db d _ _
  refine ⟨_, [], hlock _ _, ?_⟩
  cases (Db.request? (store.view db ws) u).isSome with
  | false =>
    show Refused store F DrawsNew notFound (g none) _
    rw [hnone]
    rfl
  | true =>
    intro db' d' hdb' _
    refine ⟨_, [], hfind _ _, ?_⟩
    show Refused store F DrawsNew notFound (g _) _
    cases hr : Db.request? (store.view db' (ws ++ [])) u with
    | none =>
      rw [hnone]
      rfl
    | some r =>
      obtain ⟨hm, hru⟩ := find?_id hr
      rw [List.append_nil, hws] at hm
      rw [hsome db' r hdb' hm hru]
      rfl

/-- The common beginning of accept, decline and cancel. -/
theorem refused_resolveBegin {params : BeginParams} {id : JsString} {u : Uuid}
    {f : Uuid → MoneyRequest → TxM Response} {F : Db → Prop} (hid : parseUuid id = some u)
    (huser : ∀ db, F db → (db.user? params.key.actorUserId).isSome)
    (hunused : ∀ db, F db → db.record? params.key = none)
    (hf : ∀ db recordId r, F db → r ∈ db.moneyRequests → r.id = u →
      f recordId r = .fail notFound) :
    Refused store F DrawsNew notFound
      («begin» cfg params >>= fun result => match result with
        | .replayed _ responseBody => .ret responseBody
        | .claimed recordId => lockById id >>= fun request => match request with
          | none => .fail notFound
          | some request => f recordId request) [] := by
  intro db d hdb hd
  have hclaim : store.exec (.tryClaim params.key (requestHash cfg params.payload)) db d =
      .ok (some d.id, [.insertRecord (claimedRecord d.id params.key
        (requestHash cfg params.payload))]) := by
    have hnew : db.recordById? d.id = none := hd
    have hnobody : ¬ (db.user? params.key.actorUserId).isNone := by
      rw [Option.isNone_iff_eq_none]
      exact Option.isSome_iff_ne_none.1 (huser db hdb)
    simp only [store, exec, execTryClaim, hunused db hdb, hnew, if_neg hnobody, Option.isSome_none,
      Bool.false_eq_true, if_false]
    rfl
  refine ⟨_, _, hclaim, refused_lockById hid rfl (fun db' r hdb' => hf db' d.id r hdb') ?_⟩
  exact fun db' => rfl

/-- The check of the id, and what comes after it. -/
theorem refused_assertRequestId {text : JsString} {p : TxM Response} {F : Db → Prop}
    (h : ∀ u, parseUuid text = some u → Refused store F DrawsNew notFound p []) :
    Refused store F DrawsNew notFound (assertRequestId text >>= fun _ => p) [] := by
  cases hid : parseUuid text with
  | none =>
    have hfail : assertRequestId text = .fail notFound := by
      rw [assertRequestId, hid]
      rfl
    rw [hfail]
    rfl
  | some u =>
    have hpass : assertRequestId text = .ret () := by
      rw [assertRequestId, hid]
      rfl
    rw [hpass]
    exact h u hid

/-- Who has no part in a request with the id cannot accept, decline or cancel it. -/
theorem refused_body {c : Command} {text : JsString} (hc : c.requestId? = some text) :
    Refused store (Outside c text) DrawsNew notFound (body cfg c) [] := by
  have hrole {command : ResolveMoneyRequestCommand} {db : Db} {r : MoneyRequest} {u : Uuid}
      (hu : c.key.actorUserId = command.actorUserId) (hid : parseUuid text = some u)
      (h : Outside c text db) (hr : r ∈ db.moneyRequests) (hru : r.id = u)
      (required : ParticipantRole) :
      assertActorRole r command.actorUserId required = .fail notFound := by
    have hstranger := h.stranger r hr (hid.trans (congrArg some hru.symm))
    rw [assertActorRole, ← hu, roleOf_stranger hstranger]
  cases c with
  | createDirectTransfer c => cases hc
  | create c => cases hc
  | accept c =>
    cases hc
    refine refused_assertRequestId fun u hid => ?_
    refine refused_resolveBegin hid (fun _ h => h.user) (fun _ h => h.unused) ?_
    intro db recordId r h hr hru
    rw [acceptLocked, hrole rfl hid h hr hru]
    rfl
  | decline c =>
    cases hc
    refine refused_assertRequestId fun u hid => ?_
    refine refused_resolveBegin hid (fun _ h => h.user) (fun _ h => h.unused) ?_
    intro db recordId r h hr hru
    rw [resolveLocked, hrole rfl hid h hr hru]
    rfl
  | cancel c =>
    cases hc
    refine refused_assertRequestId fun u hid => ?_
    refine refused_resolveBegin hid (fun _ h => h.user) (fun _ h => h.unused) ?_
    intro db recordId r h hr hru
    rw [resolveLocked, hrole rfl hid h hr hru]
    rfl

end Commands

section Pages

variable {db db' : Db} {userId : Uuid}

/-- Two databases with the same rows of the user, and the same names. -/
structure Agree (userId : Uuid) (db db' : Db) : Prop where
  transfers : db.transfers.filter (·.Involves userId) = db'.transfers.filter (·.Involves userId)
  moneyRequests : db.moneyRequests.filter (·.Involves userId) =
    db'.moneyRequests.filter (·.Involves userId)
  names : ∀ id, (db.user? id).map User.displayName = (db'.user? id).map User.displayName

/-- A narrower filter reads nothing but what the wider one lets through. -/
theorem filter_congr_of_imp {α : Type} {l l' : List α} {p q : α → Bool} (h : ∀ a, p a → q a)
    (hl : l.filter q = l'.filter q) : l.filter p = l'.filter p := by
  have hnarrow (l : List α) : l.filter p = (l.filter q).filter p := by
    rw [List.filter_filter]
    refine List.filter_congr fun a _ => ?_
    cases hp : p a with
    | false => rfl
    | true => rw [h a hp, Bool.and_self]
  rw [hnarrow l, hnarrow l', hl]

theorem find?_counterparty {rows : List ActivityRow} {row : ActivityRow} (h : row ∈ rows) :
    (ActivityQueryService.resolveCounterparties db rows).find? (·.userId = row.counterpartyId) =
      (db.user? row.counterpartyId).map fun u => ⟨u.id, u.displayName⟩ := by
  rw [ActivityQueryService.resolveCounterparties, List.find?_map, List.find?_filter, Db.user?]
  congr 1
  refine List.find?_congr fun u _ => ?_
  by_cases hu : u.id = row.counterpartyId
  · have hm : u.id ∈ rows.map ActivityRow.counterpartyId := hu ▸ List.mem_map_of_mem h
    simp only [Function.comp_apply, hu, List.contains_iff_mem.2 (hu ▸ hm), decide_true, and_self]
  · simp only [Function.comp_apply, hu, decide_false, Bool.false_eq_true, and_false]

theorem Agree.union (h : Agree userId db db') :
    ActivityRepository.union userId db = ActivityRepository.union userId db' := by
  have ht : db.transfers.filter (fun t => t.senderUserId = userId ∨ t.receiverUserId = userId) =
      db'.transfers.filter (fun t => t.senderUserId = userId ∨ t.receiverUserId = userId) :=
    h.transfers
  have hr : db.moneyRequests.filter (fun r => r.requesterUserId = userId ∨ r.payerUserId = userId) =
      db'.moneyRequests.filter (fun r => r.requesterUserId = userId ∨ r.payerUserId = userId) :=
    h.moneyRequests
  rw [ActivityRepository.union, ActivityRepository.union, ht, hr]

theorem Agree.toDto (h : Agree userId db db') (now : Time) {rows : List ActivityRow}
    {row : ActivityRow} (hrow : row ∈ rows) :
    ActivityQueryService.toDto (ActivityQueryService.resolveCounterparties db rows) now row =
      ActivityQueryService.toDto (ActivityQueryService.resolveCounterparties db' rows) now row := by
  have hnamed (v : Db) : (v.user? row.counterpartyId).map
      (fun u => (⟨u.id, u.displayName⟩ : ActivityCounterparty)) =
      ((v.user? row.counterpartyId).map User.displayName).map fun name =>
        ⟨row.counterpartyId, name⟩ := by
    cases hu : v.user? row.counterpartyId with
    | none => rfl
    | some u =>
      obtain ⟨-, hid⟩ := find?_id hu
      rw [Option.map_some, Option.map_some, Option.map_some, hid]
  rw [ActivityQueryService.toDto, ActivityQueryService.toDto, find?_counterparty hrow,
    find?_counterparty hrow, hnamed, hnamed, h.names]

theorem Agree.activity (h : Agree userId db db') (cfg : ReadConfig) (now : Time)
    (query : ListActivityQuery) :
    ActivityQueryService.listForUser cfg db now userId query =
      ActivityQueryService.listForUser cfg db' now userId query := by
  have hlist (cursor : Option KeysetCursor) (take : ℕ) :
      ActivityRepository.list userId cursor query.type take db =
        ActivityRepository.list userId cursor query.type take db' := by
    rw [ActivityRepository.list, ActivityRepository.list, h.union]
  unfold ActivityQueryService.listForUser
  cases decodeCursor? cfg query.cursor with
  | error e => rfl
  | ok cursor =>
    simp only [ok_bind, hlist, Page.map]
    refine congrArg (fun data => Except.ok (Page.mk data _)) ?_
    exact List.map_congr_left fun row hrow => h.toDto now hrow

theorem Agree.requests (h : Agree userId db db') (cfg : ReadConfig) (now : Time)
    (role : ParticipantRole) (query : MoneyRequestQueryService.ListMoneyRequestsQuery) :
    MoneyRequestQueryService.list cfg db now role userId query =
      MoneyRequestQueryService.list cfg db' now role userId query := by
  have hlist (cursor : Option KeysetCursor) (take : ℕ) :
      MoneyRequestQueryService.listForParticipant role userId query.status cursor take db =
        MoneyRequestQueryService.listForParticipant role userId query.status cursor take db' := by
    unfold MoneyRequestQueryService.listForParticipant
    rw [filter_congr_of_imp (fun r hr => ?_) h.moneyRequests]
    obtain ⟨⟨hrole, -⟩, -⟩ := of_decide_eq_true hr
    cases role with
    | payer => exact decide_eq_true (Or.inr hrole)
    | requester => exact decide_eq_true (Or.inl hrole)
  unfold MoneyRequestQueryService.list
  cases decodeCursor? cfg query.cursor with
  | error e => rfl
  | ok cursor => simp only [ok_bind, hlist]

theorem notifications_agree {notifications notifications' : List Notification}
    (h : notifications.filter (·.userId = userId) = notifications'.filter (·.userId = userId))
    (cfg : ReadConfig) (query : ListNotificationsQuery) :
    NotificationsService.listForUser cfg notifications userId query =
      NotificationsService.listForUser cfg notifications' userId query := by
  have hlist (cursor : Option KeysetCursor) (take : ℕ) :
      NotificationsService.list userId query.unreadOnly cursor take notifications =
        NotificationsService.list userId query.unreadOnly cursor take notifications' := by
    unfold NotificationsService.list
    rw [filter_congr_of_imp (fun n hn => ?_) h]
    exact decide_eq_true (of_decide_eq_true hn).1
  unfold NotificationsService.listForUser
  cases decodeCursor? cfg query.cursor with
  | error e => rfl
  | ok cursor => simp only [ok_bind, hlist]

end Pages

/-- Whoever has no part in a resource, whether there is one or not, is told that there is
none and changes nothing, alone and among other calls; and the pages of a user are a
function of the user's own rows and of names. -/
theorem outsiders_see_nothing (cfg : Config) (rcfg : ReadConfig) :
    (∀ (db : Db) text userId,
      (∀ t ∈ db.transfers, parseUuid text = some t.id → ¬ t.Involves userId) →
      TransferQueryService.getForParticipant db text userId =
        .error TransferQueryService.notFound) ∧
    (∀ (db : Db) now text userId,
      (∀ r ∈ db.moneyRequests, parseUuid text = some r.id → ¬ r.Involves userId) →
      MoneyRequestQueryService.getForParticipant db now text userId = .error notFound) ∧
    (∀ (c : Command) text, c.requestId? = some text →
      (∀ db draws, Outside c text db → (∀ n, DrawsNew db (draws n)) →
        ∃ n, store.alone db (body cfg c) db ((List.range n).map draws) =
          some (.error notFound, db)) ∧
      ∀ (s s' s'' : Service) t,
        Sys.Reach (body cfg) (Keeping (Outside c text) DrawsNew)
          { s with txs := s.txs ++ [some (Tx.fresh (body cfg) c)] } s' →
        s'.tx s.txs.length = some t →
        s'.step? (body cfg) (.finish s.txs.length) = some s'' →
        s''.db = s'.db ∧ s''.log = s'.log ++ [.ended ⟨c, t.draws, .error notFound⟩]) ∧
    (∀ notifications now text userId,
      (∀ n ∈ notifications, parseUuid text = some n.id → n.userId ≠ userId) →
      NotificationsService.markRead notifications now text userId =
        (notifications, .error NotificationsService.notFound)) ∧
    (∀ db db' userId, Agree userId db db' → ∀ now,
      (∀ query, ActivityQueryService.listForUser rcfg db now userId query =
        ActivityQueryService.listForUser rcfg db' now userId query) ∧
      ∀ query, MoneyRequestQueryService.listIncoming rcfg db now userId query =
          MoneyRequestQueryService.listIncoming rcfg db' now userId query ∧
        MoneyRequestQueryService.listOutgoing rcfg db now userId query =
          MoneyRequestQueryService.listOutgoing rcfg db' now userId query) ∧
    ∀ (notifications notifications' : List Notification) userId,
      notifications.filter (·.userId = userId) = notifications'.filter (·.userId = userId) →
      ∀ query, NotificationsService.listForUser rcfg notifications userId query =
        NotificationsService.listForUser rcfg notifications' userId query := by
  refine ⟨fun _ _ _ h => transfer_not_found h, fun _ now _ _ h => request_not_found now h,
    fun c text hc => ⟨fun db draws h hnew => (refused_body hc).alone h hnew, ?_⟩,
    fun _ now _ _ h => notification_not_found now h,
    fun _ _ _ h now => ⟨h.activity rcfg now, fun query => ⟨h.requests rcfg now .payer query,
      h.requests rcfg now .requester query⟩⟩,
    fun _ _ _ h => notifications_agree h rcfg⟩
  intro s s' s'' t hreach ht hend
  have hnew : ({ s with txs := s.txs ++ [some (Tx.fresh (body cfg) c)] } : Service).tx
      s.txs.length = some (Tx.fresh (body cfg) c) := by simp [Sys.tx]
  obtain ⟨-, hall⟩ := Refusing.reach hnew (refused_body hc) hreach
  obtain ⟨hcall, hrefusing⟩ := hall t ht
  obtain rfl := hrefusing.finish ht hend
  have hcalled : t.call = c := hcall
  exact ⟨rfl, by rw [hcalled]; rfl⟩

end MoneyMovement
