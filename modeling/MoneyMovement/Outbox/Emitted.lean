import MoneyMovement.Outbox.Notifications
import MoneyMovement.Runs.Completeness
import MoneyMovement.Txn.Hidden

/-!
# What the events of the operations ask for

`Owed` says, from the rows of the database, whom an event has to be told to.
Every event the operations emit carries what `plan` needs to plan just that.
-/

namespace MoneyMovement

open Txn TransferService MoneyRequestService NotificationConsumer NotificationsRepository

section Owed

/-- A notification without its own id, times and event. -/
structure Notice where
  userId : Uuid
  type : NotificationType
  title : JsString
  body : JsString
  resourceType : ResourceType
  resourceId : Uuid
  deriving DecidableEq

def Notification.notice (n : Notification) : Notice where
  userId := n.userId
  type := n.type
  title := n.title
  body := n.body
  resourceType := n.resourceType
  resourceId := n.resourceId

def Notice.planned (n : Notice) : PlannedNotification where
  userId := n.userId.text
  type := n.type
  title := n.title
  body := n.body
  resourceType := n.resourceType
  resourceId := n.resourceId.text

def showing (userId : Uuid) (type : NotificationType) (title before after : String)
    (amountMinor : ℤ) (currency : Currency) (resourceType : ResourceType) (resourceId : Uuid) :
    Notice where
  userId := userId
  type := type
  title := js title
  body := js before ++ formatMinorUnits amountMinor currency.text ++ js after
  resourceType := resourceType
  resourceId := resourceId

def Transfer.received (t : Transfer) : Notice :=
  showing t.receiverUserId .money_received "Money received" "You received " "." t.amountMinor
    t.currency .transfer t.id

/-- The notice of a request event: the payer hears of a new or a cancelled request,
the requester of an accepted or a declined one. -/
def MoneyRequest.notice? (r : MoneyRequest) : EventType → Option Notice
  | .moneyRequestCreated => some (showing r.payerUserId .money_request_received "Money requested"
      "Someone requested " " from you." r.amountMinor r.currency .moneyRequest r.id)
  | .moneyRequestAccepted => some (showing r.requesterUserId .money_request_accepted
      "Request accepted" "Your request for " " was accepted and paid." r.amountMinor r.currency
      .moneyRequest r.id)
  | .moneyRequestDeclined => some (showing r.requesterUserId .money_request_declined
      "Request declined" "Your request for " " was declined." r.amountMinor r.currency
      .moneyRequest r.id)
  | .moneyRequestCancelled => some (showing r.payerUserId .money_request_cancelled
      "Request cancelled" "A request for " " was cancelled." r.amountMinor r.currency
      .moneyRequest r.id)
  | .transferSucceeded | .transferRiskFlagged => none

/-- The notices of an event, by the row it is about. -/
inductive Owed (db : Db) (e : OutboxEvent) : List Notice → Prop
  | direct (t : Transfer) (ht : t ∈ db.transfers) (hid : t.id = e.aggregateId)
      (htype : e.eventType = .transferSucceeded) (hsource : t.sourceType = .DIRECT) :
      Owed db e [t.received]
  | sourced (t : Transfer) (ht : t ∈ db.transfers) (hid : t.id = e.aggregateId)
      (htype : e.eventType = .transferSucceeded) (hsource : t.sourceType = .MONEY_REQUEST) :
      Owed db e []
  | flagged (htype : e.eventType = .transferRiskFlagged) : Owed db e []
  | request (r : MoneyRequest) (hr : r ∈ db.moneyRequests) (hid : r.id = e.aggregateId)
      (n : Notice) (hn : r.notice? e.eventType = some n) : Owed db e [n]

end Owed

variable {cfg : Config} {db₀ v v' : Db} {clock : Time} {s : Service} {ds : List (Draw Time Uuid)}
  {c : Command} {a : Response} {e : OutboxEvent} {notices : List Notice}

section Claims

/-- The event is owed these notices, and its payload plans them for users there are. -/
structure Emits (db : Db) (e : OutboxEvent) (notices : List Notice) : Prop where
  owed : Owed db e notices
  planned : ∀ n, plan (.of e n) = .ok (notices.map Notice.planned)
  users : ∀ n ∈ notices, (db.user? n.userId).isSome

/-- Every event emits what it is owed, and requests are between users there are. -/
structure Emitted (db : Db) : Prop where
  events : ∀ e ∈ db.outboxEvents, ∃ notices, Emits db e notices
  parties : ∀ r ∈ db.moneyRequests,
    (db.user? r.requesterUserId).isSome ∧ (db.user? r.payerUserId).isSome

theorem field?_of_mem {fields : List (JsString × Payload)} {k : JsString} {p : Payload}
    (hn : (fields.map Prod.fst).Nodup) (hm : (k, p) ∈ fields) :
    (Json.obj fields).field? k = some p := by
  have hfind : fields.find? (·.1 = k) = some (k, p) := find?_eq_of_nodup hn hm
  simp only [Json.field?, hfind, Option.map_some]

/-- An amount that travels as text is planned as it is. -/
theorem notify_ok {c : ClaimedOutboxEvent} {u w : Uuid} {n : ℤ} {currency : Currency}
    {user resource title before after : String} {type : NotificationType} {rt : ResourceType}
    (hamount : c.payload.field? (js "amountMinor") = some (.str (decimal n)))
    (hcurrency : c.payload.field? (js "currency") = some (.str currency.text))
    (huser : c.payload.field? (js user) = some (.str u.text))
    (hresource : c.payload.field? (js resource) = some (.str w.text)) :
    notify c user type title before after rt resource =
      .ok ([showing u type title before after n currency rt w].map Notice.planned) := by
  simp only [notify, amount, hamount, hcurrency, huser, hresource, stringOf?, stringOf, orBDT,
    bigInt_decimal, Except.map]
  rfl

theorem text_ne_nil (u : Uuid) : u.text ≠ [] := by
  intro h
  have hparse := parseUuid_text u
  rw [h] at hparse
  cases hparse

theorem plan_transfer {t : Transfer} (hp : e.payload = .obj t.announced)
    (ht : e.eventType = .transferSucceeded) (n : ℕ) : plan (.of e n) =
      .ok ((if t.sourceRequestId = none then [t.received] else []).map Notice.planned) := by
  have hkeys : (t.announced.map Prod.fst).Nodup := by
    simp only [Transfer.announced, List.map_cons, List.map_nil]
    decide
  have hfield {k : JsString} {p : Payload} (hm : (k, p) ∈ t.announced) :
      (ClaimedOutboxEvent.of e n).payload.field? k = some p :=
    (congrArg (Json.field? · k) hp).trans (field?_of_mem hkeys hm)
  have htype : (ClaimedOutboxEvent.of e n).eventType = .transferSucceeded := ht
  have hsource := hfield (k := js "sourceRequestId") (p := jsonRequestId t.sourceRequestId)
    (by simp [Transfer.announced])
  simp only [plan, htype, onTransferSucceeded, hsource]
  cases hs : t.sourceRequestId with
  | some id => simp [truthy, jsonRequestId, text_ne_nil]
  | none =>
    rw [if_neg (by simp [truthy, jsonRequestId]), if_pos rfl]
    exact notify_ok (hfield (by simp [Transfer.announced])) (hfield (by simp [Transfer.announced]))
      (hfield (by simp [Transfer.announced])) (hfield (by simp [Transfer.announced]))

theorem plan_request {r : MoneyRequest} {rest : List (JsString × Payload)} {notice : Notice}
    (hp : e.payload = .obj (eventPayload r ++ rest))
    (hkeys : ((eventPayload r ++ rest).map Prod.fst).Nodup)
    (hn : r.notice? e.eventType = some notice) (n : ℕ) :
    plan (.of e n) = .ok ([notice].map Notice.planned) := by
  have hfield {k : JsString} {p : Payload} (hm : (k, p) ∈ eventPayload r) :
      (ClaimedOutboxEvent.of e n).payload.field? k = some p :=
    (congrArg (Json.field? · k) hp).trans (field?_of_mem hkeys (List.mem_append_left _ hm))
  have hamount := hfield (k := js "amountMinor") (p := .str (decimal r.amountMinor))
    (by simp [eventPayload])
  have hcurrency := hfield (k := js "currency") (p := .str r.currency.text)
    (by simp [eventPayload])
  have hpayer := hfield (k := js "payerUserId") (p := .str r.payerUserId.text)
    (by simp [eventPayload])
  have hrequester := hfield (k := js "requesterUserId") (p := .str r.requesterUserId.text)
    (by simp [eventPayload])
  have hresource := hfield (k := js "requestId") (p := .str r.id.text) (by simp [eventPayload])
  have htype : (ClaimedOutboxEvent.of e n).eventType = e.eventType := rfl
  cases ht : e.eventType with
  | transferSucceeded => rw [ht] at hn; cases hn
  | transferRiskFlagged => rw [ht] at hn; cases hn
  | moneyRequestCreated =>
    rw [ht] at hn htype
    cases hn
    simp only [plan, htype]
    exact notify_ok hamount hcurrency hpayer hresource
  | moneyRequestAccepted =>
    rw [ht] at hn htype
    cases hn
    simp only [plan, htype]
    exact notify_ok hamount hcurrency hrequester hresource
  | moneyRequestDeclined =>
    rw [ht] at hn htype
    cases hn
    simp only [plan, htype]
    exact notify_ok hamount hcurrency hrequester hresource
  | moneyRequestCancelled =>
    rw [ht] at hn htype
    cases hn
    simp only [plan, htype]
    exact notify_ok hamount hcurrency hpayer hresource

end Claims

section Effects

/-- Rows stay, but for what a transition changes of a request. -/
structure Keeps (v v' : Db) : Prop where
  transfers : ∀ t ∈ v.transfers, t ∈ v'.transfers
  requests : ∀ r ∈ v.moneyRequests, ∃ r' ∈ v'.moneyRequests,
    r'.id = r.id ∧ ∀ type, r'.notice? type = r.notice? type
  users : ∀ u, (v.user? u).isSome → (v'.user? u).isSome

theorem Owed.mono (h : Owed v e notices) (hk : Keeps v v') : Owed v' e notices := by
  cases h with
  | direct t ht hid htype hsource => exact .direct t (hk.transfers t ht) hid htype hsource
  | sourced t ht hid htype hsource => exact .sourced t (hk.transfers t ht) hid htype hsource
  | flagged htype => exact .flagged htype
  | request r hr hid n hn =>
    obtain ⟨r', hr', hid', hsame⟩ := hk.requests r hr
    exact .request r' hr' (hid'.trans hid) n ((hsame _).trans hn)

theorem Emits.mono (h : Emits v e notices) (hk : Keeps v v') : Emits v' e notices :=
  ⟨h.owed.mono hk, h.planned, fun n hn => hk.users _ (h.users n hn)⟩

/-- New events over rows that stay. -/
theorem Emitted.extend (h : Emitted v) (events : List OutboxEvent) (hk : Keeps v v')
    (hevents : v'.outboxEvents = v.outboxEvents ++ events)
    (hnew : ∀ e ∈ events, ∃ notices, Emits v' e notices)
    (hparties : ∀ r ∈ v'.moneyRequests,
      (v.user? r.requesterUserId).isSome ∧ (v.user? r.payerUserId).isSome) : Emitted v' where
  events e he := by
    rw [hevents] at he
    rcases List.mem_append.1 he with he | he
    · obtain ⟨notices, hn⟩ := h.events e he
      exact ⟨notices, hn.mono hk⟩
    · exact hnew e he
  parties r hr := (hparties r hr).imp (hk.users _) (hk.users _)

theorem probe_user {u : Uuid} {w : LockedWallet} (h : v.probe u = some w) :
    (v.user? u).isSome := by
  obtain ⟨r, o, -, ho, -⟩ := probe_some h
  exact Option.isSome_of_mem ho

theorem Settlement.emits {input : SettleInput} {source : TransferSource} {z : Settlement}
    (hz : Settles cfg input source v ds z) (hk : Keeps v v')
    (ht : z.transfer input source ∈ v'.transfers) (he : e ∈ z.events input source) :
    ∃ notices, Emits v' e notices := by
  rcases List.mem_append.1 he with he | he
  · split_ifs at he
    · rw [List.mem_singleton.1 he]
      exact ⟨[], .flagged rfl, fun n => rfl, by simp⟩
    · cases he
  · obtain rfl := List.mem_singleton.1 he
    have hplan := plan_transfer (e := storedEvent z.succeeded
      (succeededEvent input source z.inserted.id z.sender z.receiver))
      (t := z.transfer input source) rfl rfl
    cases hsource : source.requestId with
    | none =>
      have htype : (z.transfer input source).sourceType = .DIRECT := by
        simp [Settlement.transfer, pendingTransfer, transferData, TransferSource.type, hsource]
      refine ⟨[(z.transfer input source).received], .direct _ ht rfl rfl htype, fun n => ?_, ?_⟩
      · rw [hplan n, if_pos (show (z.transfer input source).sourceRequestId = none from hsource)]
      · intro n hn
        rw [List.mem_singleton.1 hn]
        exact hk.users _ (probe_user hz.receiver)
    | some id =>
      have htype : (z.transfer input source).sourceType = .MONEY_REQUEST := by
        simp [Settlement.transfer, pendingTransfer, transferData, TransferSource.type, hsource]
      refine ⟨[], .sourced _ ht rfl rfl htype, fun n => ?_, by simp⟩
      rw [hplan n, if_neg]
      rw [show (z.transfer input source).sourceRequestId = some id from hsource]
      exact Option.some_ne_none id

theorem keeps_settle {input : SettleInput} {source : TransferSource} {z : Settlement} :
    Keeps v (z.apply input source v) :=
  ⟨fun _ ht => List.mem_append_left _ ht, fun r hr => ⟨r, hr, rfl, fun _ => rfl⟩, fun _ hu => hu⟩

theorem request_emits {r : MoneyRequest} (rest : List (JsString × Payload)) {d : Draw Time Uuid}
    {type : EventType} {notice : Notice} (hr : ∃ r' ∈ v'.moneyRequests,
      r'.id = r.id ∧ ∀ type, r'.notice? type = r.notice? type)
    (hkeys : ((eventPayload r ++ rest).map Prod.fst).Nodup) (hn : r.notice? type = some notice)
    (hu : (v'.user? r.requesterUserId).isSome ∧ (v'.user? r.payerUserId).isSome) :
    ∃ notices, Emits v' (storedEvent d (requestEvent r type (eventPayload r ++ rest))) notices := by
  obtain ⟨r', hr', hid, hsame⟩ := hr
  refine ⟨[notice], .request r' hr' hid notice ((hsame type).trans hn),
    plan_request rfl hkeys hn, fun n hm => ?_⟩
  rw [List.mem_singleton.1 hm]
  cases type <;> cases hn
  · exact hu.2
  · exact hu.1
  · exact hu.1
  · exact hu.2

theorem keeps_map {f : MoneyRequest → MoneyRequest}
    (hf : ∀ r, (f r).id = r.id ∧ ∀ type, (f r).notice? type = r.notice? type)
    (ht : ∀ t ∈ v.transfers, t ∈ v'.transfers)
    (hr : v'.moneyRequests = v.moneyRequests.map f) (hu : v'.users = v.users) : Keeps v v' where
  transfers := ht
  requests r hm := ⟨f r, hr ▸ List.mem_map_of_mem hm, hf r⟩
  users u h := by simpa only [Db.user?, hu] using h

theorem accept_notice (id t : Uuid) (at_ : Time) (r : MoneyRequest) :
    (r.accept id t at_).id = r.id ∧
      ∀ type, (r.accept id t at_).notice? type = r.notice? type := by
  unfold MoneyRequest.accept
  split_ifs
  · exact ⟨rfl, fun type => by cases type <;> rfl⟩
  · exact ⟨rfl, fun _ => rfl⟩

theorem resolve_notice (id : Uuid) (st : MoneyRequestStatus) (at_ : Time) (r : MoneyRequest) :
    (r.resolve id st at_).id = r.id ∧
      ∀ type, (r.resolve id st at_).notice? type = r.notice? type := by
  unfold MoneyRequest.resolve
  split_ifs
  · exact ⟨rfl, fun type => by cases type <;> rfl⟩
  · exact ⟨rfl, fun _ => rfl⟩

theorem Emitted.settle {input : SettleInput} {source : TransferSource} {z : Settlement}
    (h : Emitted v) (hz : Settles cfg input source v ds z) : Emitted (z.apply input source v) :=
  h.extend _ keeps_settle rfl
    (fun _ he => Settlement.emits hz keeps_settle
      (List.mem_append_right _ (List.mem_singleton_self _)) he) h.parties

/-- A transition of a request, with its event. -/
theorem Emitted.transition (h : Emitted v) {r : MoneyRequest} (hr : r ∈ v.moneyRequests)
    {f : MoneyRequest → MoneyRequest}
    (hf : ∀ r, (f r).id = r.id ∧ ∀ type, (f r).notice? type = r.notice? type)
    (hsame : ∀ r, (f r).requesterUserId = r.requesterUserId ∧ (f r).payerUserId = r.payerUserId)
    (type : EventType) {notice : Notice} (rest : List (JsString × Payload)) {d : Draw Time Uuid}
    (hn : r.notice? type = some notice) (hkeys : ((eventPayload r ++ rest).map Prod.fst).Nodup)
    (ht : v'.transfers = v.transfers) (hreq : v'.moneyRequests = v.moneyRequests.map f)
    (hu : v'.users = v.users) (hevents : v'.outboxEvents =
      v.outboxEvents ++ [storedEvent d (requestEvent r type (eventPayload r ++ rest))]) :
    Emitted v' := by
  have hk : Keeps v v' := keeps_map hf (fun t hm => ht ▸ hm) hreq hu
  refine h.extend _ hk hevents (fun e he => ?_) (fun r' hr' => ?_)
  · rw [List.mem_singleton.1 he]
    exact request_emits _ (hk.requests r hr) hkeys hn
      ((h.parties r hr).imp (hk.users _) (hk.users _))
  · rw [hreq] at hr'
    obtain ⟨r₀, hr₀, rfl⟩ := List.mem_map.1 hr'
    rw [(hsame r₀).1, (hsame r₀).2]
    exact h.parties r₀ hr₀

theorem accept_parties (id t : Uuid) (at_ : Time) (r : MoneyRequest) :
    (r.accept id t at_).requesterUserId = r.requesterUserId ∧
      (r.accept id t at_).payerUserId = r.payerUserId := by
  unfold MoneyRequest.accept
  split_ifs <;> exact ⟨rfl, rfl⟩

theorem resolve_parties (id : Uuid) (st : MoneyRequestStatus) (at_ : Time) (r : MoneyRequest) :
    (r.resolve id st at_).requesterUserId = r.requesterUserId ∧
      (r.resolve id st at_).payerUserId = r.payerUserId := by
  unfold MoneyRequest.resolve
  split_ifs <;> exact ⟨rfl, rfl⟩

theorem eventPayload_keys (r : MoneyRequest) :
    ((eventPayload r ++ []).map Prod.fst).Nodup := by
  simp only [eventPayload, List.append_nil, List.map_cons, List.map_nil]
  decide

theorem acceptedPayload_keys (r : MoneyRequest) (id : Uuid) :
    ((eventPayload r ++ [(js "acceptedTransferId", Json.str id.text)]).map Prod.fst).Nodup := by
  simp only [eventPayload, List.cons_append, List.nil_append, List.map_cons, List.map_nil]
  decide

theorem Does.emitted {x : Action} (h : Emitted v) (hdoes : Does cfg v ds c x)
    (hactor : (v.user? c.key.actorUserId).isSome) : Emitted (x.apply v) := by
  cases hdoes with
  | transfer c z hz => exact h.settle hz
  | create c payer user inserted event now _ _ _ huser =>
    have hparties : (v.user? c.actorUserId).isSome ∧ (v.user? payer).isSome :=
      ⟨hactor, by rw [huser]; rfl⟩
    have hk : Keeps v ((Action.create c payer inserted event now).apply v) :=
      ⟨fun _ ht => ht, fun r hr => ⟨r, List.mem_append_left _ hr, rfl, fun _ => rfl⟩,
        fun _ hu => hu⟩
    refine h.extend _ hk rfl (fun e he => ?_) (fun r hr => ?_)
    · rw [List.mem_singleton.1 he]
      exact request_emits [] ⟨_, List.mem_append_right _ (List.mem_singleton_self _),
        rfl, fun _ => rfl⟩ (eventPayload_keys _) rfl (hparties.imp (hk.users _) (hk.users _))
    · rcases List.mem_append.1 hr with hr | hr
      · exact h.parties r hr
      · rw [List.mem_singleton.1 hr]
        exact hparties
  | accept c r z resolvedAt event _ hr _ hz =>
    exact (h.settle hz).transition (v := z.apply (requestInput r) ⟨some r.id⟩ v)
      (mem_of_request? hr.found) (accept_notice _ _ _) (accept_parties _ _ _)
      .moneyRequestAccepted _ rfl (acceptedPayload_keys r z.inserted.id) rfl rfl rfl rfl
  | decline c r resolvedAt event _ hr =>
    exact h.transition (mem_of_request? hr.found) (resolve_notice _ _ _) (resolve_parties _ _ _)
      .moneyRequestDeclined [] rfl (eventPayload_keys r) rfl rfl rfl rfl
  | cancel c r resolvedAt event _ hr =>
    exact h.transition (mem_of_request? hr.found) (resolve_notice _ _ _) (resolve_parties _ _ _)
      .moneyRequestCancelled [] rfl (eventPayload_keys r) rfl rfl rfl rfl

/-- Tables that look the same emit the same. -/
theorem Emitted.congr (h : Emitted v) (he : v'.outboxEvents = v.outboxEvents)
    (hr : v'.moneyRequests = v.moneyRequests) (ht : v'.transfers = v.transfers)
    (hu : ∀ u, (v.user? u).isSome → (v'.user? u).isSome) : Emitted v' := by
  have hk : Keeps v v' := ⟨fun t hm => ht ▸ hm, fun r hm => ⟨r, hr ▸ hm, rfl, fun _ => rfl⟩, hu⟩
  exact h.extend [] hk (by rw [he, List.append_nil])
    (fun e hm => (List.not_mem_nil hm).elim) (fun r hm => h.parties r (hr ▸ hm))

theorem Emitted.effect (h : Emitted v) (he : Effect cfg v ds c a v') : Emitted v' := by
  cases he with
  | replay r hr hkey hhash => exact h
  | act x recordId hclaim hdoes =>
    exact (hdoes.emitted h hclaim.actor).congr rfl rfl rfl (fun _ hu => hu)

theorem Emitted.register {r : Registration} (h : Emitted v) (hr : register r v = some v') :
    Emitted v' := by
  obtain ⟨-, -, -, rfl⟩ := register_spec hr
  refine h.congr rfl rfl rfl (fun u hu => ?_)
  simp only [Db.user?, List.find?_append, Option.isSome_or, Bool.or_eq_true]
  exact Or.inl hu

/-- A start with no event to tell anybody. -/
structure Quiet (db : Db) : Prop extends Start db where
  outboxEvents : db.outboxEvents = []

theorem emitted (h₀ : Quiet db₀)
    (h : Sys.Reach (body cfg) Open (Service.initial db₀ clock) s) : Emitted s.db := by
  have hstart : Emitted db₀ := by
    refine ⟨fun e he => ?_, fun r hr => ?_⟩
    · rw [h₀.outboxEvents] at he
      cases he
    · rw [h₀.moneyRequests] at hr
      cases hr
  exact reachable_tables h₀.good hstart (fun _ _ _ _ _ _ hj he => hj.effect he)
    (fun _ _ _ _ hj hr => hj.register hr) h

end Effects

section Amounts

def Write.InRange : Write → Prop
  | .insertTransfer t => InBigint t.amountMinor
  | .insertMoneyRequest r => InBigint r.amountMinor
  | _ => True

theorem exec_inRange (st : Stmt) (v : Db) (d : Draw Time Uuid) (r : Reply st) (ws : List Write)
    (h : store.exec st v d = .ok (r, ws)) : ∀ w ∈ ws, w.InRange := by
  intro w hw
  rcases exec_produces h with rfl | ⟨w', rfl, hp⟩
  · cases hw
  · rw [List.mem_singleton.1 hw]
    cases hp with
    | insertPendingTransfer data t hrange => exact hrange
    | createMoneyRequest data r hrange => exact hrange
    | _ => trivial

structure InRange (db : Db) : Prop where
  transfers : ∀ t ∈ db.transfers, InBigint t.amountMinor
  requests : ∀ r ∈ db.moneyRequests, InBigint r.amountMinor

theorem InRange.apply (h : InRange v) {w : Write} (hw : w.InRange) : InRange (applyWrite v w) := by
  have mapped {α : Type} {rows : List α} {f : α → α} {amount : α → ℤ}
      (hf : ∀ x, amount (f x) = amount x) (hr : ∀ x ∈ rows, InBigint (amount x)) :
      ∀ x ∈ rows.map f, InBigint (amount x) := by
    intro x hx
    obtain ⟨y, hy, rfl⟩ := List.mem_map.1 hx
    exact hf y ▸ hr y hy
  cases w with
  | insertTransfer t =>
    refine ⟨fun t' ht => ?_, h.requests⟩
    rcases List.mem_append.1 ht with ht | ht
    · exact h.transfers t' ht
    · exact List.mem_singleton.1 ht ▸ hw
  | insertMoneyRequest r =>
    refine ⟨h.transfers, fun r' hr => ?_⟩
    rcases List.mem_append.1 hr with hr | hr
    · exact h.requests r' hr
    · exact List.mem_singleton.1 hr ▸ hw
  | succeedTransfer id at_ =>
    refine ⟨mapped (fun t => ?_) h.transfers, h.requests⟩
    unfold Transfer.succeed
    split_ifs <;> rfl
  | acceptRequest id t at_ =>
    refine ⟨h.transfers, mapped (fun r => ?_) h.requests⟩
    unfold MoneyRequest.accept
    split_ifs <;> rfl
  | resolveRequest id st at_ =>
    refine ⟨h.transfers, mapped (fun r => ?_) h.requests⟩
    unfold MoneyRequest.resolve
    split_ifs <;> rfl
  | _ => exact ⟨h.transfers, h.requests⟩

theorem InRange.view (h : InRange v) {ws : List Write} (hws : ∀ w ∈ ws, w.InRange) :
    InRange (store.view v ws) := by
  induction ws generalizing v with
  | nil => exact h
  | cons w ws ih =>
    exact ih (h.apply (hws w List.mem_cons_self))
      (fun w' hw' => hws w' (List.mem_cons_of_mem _ hw'))

theorem inRange (h₀ : Start db₀)
    (h : Sys.Reach (body cfg) Open (Service.initial db₀ clock) s) : InRange s.db := by
  induction h with
  | refl =>
    refine ⟨fun t ht => ?_, fun r hr => ?_⟩
    · rw [show (Service.initial db₀ clock).db.transfers = [] from h₀.transfers] at ht
      cases ht
    · rw [show (Service.initial db₀ clock).db.moneyRequests = [] from h₀.moneyRequests] at hr
      cases hr
  | tail l hreach _ hs ih =>
    have hpending := pending_reach exec_inRange
      (fun i w hw => by simp [Sys.pending, Service.initial, Sys.tx] at hw) hreach
    cases Sys.step?_did (body cfg) hs with
    | commit i t a ht hr => exact ih.view (pending_of_tx ht ▸ hpending i)
    | external r db' hx =>
      obtain ⟨-, -, -, rfl⟩ := register_spec hx
      exact ⟨ih.transfers, ih.requests⟩
    | _ => exact ih

theorem InBigint.natAbs_lt {n : ℤ} (h : InBigint n) : n.natAbs < 10 ^ 20 := by
  have hlow := h.1
  have hhigh := h.2
  omega

end Amounts

end MoneyMovement
