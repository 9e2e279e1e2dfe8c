import MoneyMovement.Queries.Reads

/-!
# Walks over the lists

The activity feed, the two lists of money requests and the list of notifications are
pages by descending position. Following `nextCursor`, whatever is written in between,
shows each row that stays exactly once, in order, and comes to an end.
-/

namespace MoneyMovement

open Paging

/-- What a fetch finds: ids are unique, and the columns hold instants. -/
structure Snapshot where
  db : Db
  notifications : List Notification
  now : Time
  ids : (db.transfers.map Transfer.id ++ db.moneyRequests.map MoneyRequest.id).Nodup
  notificationIds : (notifications.map Notification.id).Nodup
  transferDates : ∀ t ∈ db.transfers, IsDate t.createdAt
  requestDates : ∀ r ∈ db.moneyRequests, IsDate r.createdAt
  notificationDates : ∀ n ∈ notifications, IsDate n.createdAt

section Cursors

def anchor (k : Position) : KeysetCursor := ⟨(ofLex k).1, (ofLex k).2⟩

def encodePosition (k : Position) : JsString := encodeKeysetCursor (anchor k)

def shownAt (cfg : ReadConfig) (createdAt : JsString) (id : Uuid) : Position :=
  position ((parseDate cfg.otherDate createdAt).getD 0) id

variable {cfg : ReadConfig}

theorem shownAt_toISOString {createdAt : Time} {id : Uuid} (h : IsDate createdAt) :
    shownAt cfg (toISOString createdAt) id = position createdAt id := by
  rw [shownAt, parseDate_toISOString h, Option.getD_some]

theorem tupleBefore_iff {k : Position} {createdAt : Time} {id : Uuid} :
    tupleBefore (anchor k) createdAt id ↔ position createdAt id < k := by
  rw [Prod.Lex.lt_iff]
  show ite (createdAt = (ofLex k).1) (id < (ofLex k).2) (createdAt < (ofLex k).1) ↔
    createdAt < (ofLex k).1 ∨ createdAt = (ofLex k).1 ∧ id < (ofLex k).2
  split_ifs with h
  · rw [← h]
    simp only [lt_irrefl, true_and, false_or]
  · simp only [h, false_and, or_false]

theorem orBefore_iff {k : Position} {createdAt : Time} {id : Uuid} :
    orBefore (anchor k) createdAt id ↔ position createdAt id < k := by
  rw [Prod.Lex.lt_iff]
  exact Iff.rfl

theorem all_anchor (before : KeysetCursor → Prop) [DecidablePred before] {k : Position}
    (cursor : Option Position) (h : ∀ c, before (anchor c) ↔ k < c) :
    (cursor.map anchor).all (before ·) ↔ Below cursor k := by
  cases cursor with
  | none => simp [Below]
  | some c => simp [Below, h]

/-- The cursor comes back as the position it was made of. -/
theorem decodeCursor?_encode (cursor : Option Position) (h : ∀ k ∈ cursor, IsDate (ofLex k).1) :
    decodeCursor? cfg (cursor.map encodePosition) = .ok (cursor.map anchor) := by
  cases cursor with
  | none => rfl
  | some k =>
    have hread : decodeKeysetCursor cfg.otherDate (encodePosition k) = some (anchor k) :=
      decodeKeysetCursor_encode (h k rfl)
    have hne : encodePosition k ≠ [] := by
      intro hnil
      have hempty : decodeKeysetCursor cfg.otherDate [] = none := rfl
      rw [hnil, hempty] at hread
      cases hread
    simp only [decodeCursor?, Option.map_some, Option.filter_some, hne, ne_eq, not_false_eq_true,
      decide_true, if_true, hread]

/-- A page whose cursor is made of the last row is one whose cursor is its position. -/
theorem cut_position {α β : Type} (createdAt : α → Time) (idOf : α → Uuid) (f : α → β) (n : ℕ)
    (rows : List α) : (cut n (fun a => encodeKeysetCursor ⟨createdAt a, idOf a⟩) rows).map f id =
      (cut n (fun a => position (createdAt a) (idOf a)) rows).map f encodePosition := by
  have hcursor : (fun a => encodeKeysetCursor ⟨createdAt a, idOf a⟩) =
      fun a => encodePosition (position (createdAt a) (idOf a)) := rfl
  rw [hcursor]
  exact cut_comp f encodePosition

theorem nodup_positions {α : Type} {rows : List α} (createdAt : α → Time) (id : α → Uuid)
    (h : (rows.map id).Nodup) : (rows.map fun a => position (createdAt a) (id a)).Nodup := by
  refine List.Nodup.of_map (fun k : Position => (ofLex k).2) ?_
  rw [List.map_map]
  exact h

end Cursors

section Endpoints

variable {cfg : ReadConfig} {S α β : Type} {rows : S → List α} {createdAt : α → Time}
  {id : α → Uuid} {limit : Limit} {get : S → Option JsString → Except Failure (CursorPage β)}
  {createdOf : β → JsString} {idOf : β → Uuid}

/-- An endpoint that pages the rows with instants and unique ids below the cursor it is sent. -/
theorem serves_position (hids : ∀ s, ((rows s).map id).Nodup)
    (hdates : ∀ s, ∀ a ∈ rows s, IsDate (createdAt a))
    (hget : ∀ s (cursor : Option Position),
      decodeCursor? cfg (cursor.map encodePosition) = .ok (cursor.map anchor) → ∃ dto : α → β,
        get s (cursor.map encodePosition) = .ok ((page (fun a => position (createdAt a) (id a))
          cursor limit.val (rows s)).map dto encodePosition) ∧
        ∀ a, createdOf (dto a) = toISOString (createdAt a) ∧ idOf (dto a) = id a) :
    Serves get rows (fun a => position (createdAt a) (id a)) limit.val
      (fun dto => shownAt cfg (createdOf dto) (idOf dto)) encodePosition where
  positive := limit.property.1
  keys s := nodup_positions createdAt id (hids s)
  serves s cursor hc := by
    have hdate : ∀ k ∈ cursor, IsDate (ofLex k).1 := by
      intro k hk
      obtain ⟨s', hs'⟩ := hc k hk
      obtain ⟨a, ha, rfl⟩ := List.mem_map.1 hs'
      exact hdates s' a ha
    obtain ⟨dto, hpage, hdto⟩ := hget s cursor (decodeCursor?_encode cursor hdate)
    refine ⟨dto, hpage, fun a ha => ?_⟩
    rw [(hdto a).1, (hdto a).2, shownAt_toISOString (hdates s a ha)]

end Endpoints

section Requests

open MoneyRequestQueryService MoneyRequestService

variable {cfg : ReadConfig} {userId : Uuid} {role : ParticipantRole}
  {status : Option MoneyRequestStatus} {limit : Limit}

def listed (role : ParticipantRole) (userId : Uuid) (status : Option MoneyRequestStatus)
    (s : Snapshot) : List MoneyRequest :=
  s.db.moneyRequests.filter fun r => Lists role userId status r

theorem listForParticipant_eq (cursor : Option Position) (s : Snapshot) :
    listForParticipant role userId status (cursor.map anchor) (limit.val + 1) s.db =
      fetch (fun r : MoneyRequest => position r.createdAt r.id) cursor limit.val
        (listed role userId status s) := by
  refine (fetch_filter fun r _ => ?_).symm
  rw [all_anchor (orBefore · r.createdAt r.id) cursor (fun c => orBefore_iff), and_comm]

theorem requests_serves : Serves
    (fun (s : Snapshot) cursor => list cfg s.db s.now role userId ⟨status, cursor, limit⟩)
    (listed role userId status) (fun r => position r.createdAt r.id) limit.val
    (fun dto => shownAt cfg dto.createdAt dto.requestId) encodePosition := by
  refine serves_position (fun s => ?_) (fun s r hr => ?_) (fun s cursor hcursor => ?_)
  · exact s.ids.of_append_right.sublist (List.filter_sublist.map _)
  · exact s.requestDates r (List.mem_of_mem_filter hr)
  · refine ⟨(toMoneyRequestDto · s.now), ?_, fun r => ⟨rfl, rfl⟩⟩
    simp only [list, hcursor, ok_bind, listForParticipant_eq,
      cut_position MoneyRequest.createdAt MoneyRequest.id]
    rfl

end Requests

section Activity

open ActivityQueryService

variable {cfg : ReadConfig} {userId : Uuid} {type : Option ActivityType} {limit : Limit}

def feed (userId : Uuid) (type : Option ActivityType) (db : Db) : List ActivityRow :=
  (ActivityRepository.union userId db).filter fun act => type.all (act.kind = ·) = true

def activity (userId : Uuid) (type : Option ActivityType) (s : Snapshot) : List ActivityRow :=
  (ActivityRepository.union userId s.db).filter fun act => type.all (act.kind = ·) = true

def ActivityRow.position (act : ActivityRow) : Position :=
  MoneyMovement.position act.createdAt act.referenceId

theorem activity_list_eq (cursor : Option Position) (db : Db) :
    ActivityRepository.list userId (cursor.map anchor) type (limit.val + 1) db =
      fetch ActivityRow.position cursor limit.val (feed userId type db) := by
  refine (fetch_filter fun act _ => ?_).symm
  rw [all_anchor (tupleBefore · act.createdAt act.referenceId) cursor (fun c => tupleBefore_iff)]

/-- The page of the feed from a cursor, with the counterparties looked up once for it. -/
theorem listForUser_eq {db : Db} {now : Time} {cursor : Option Position}
    (hcursor : decodeCursor? cfg (cursor.map encodePosition) = .ok (cursor.map anchor)) :
    listForUser cfg db now userId ⟨type, cursor.map encodePosition, limit⟩ =
      let shown := page ActivityRow.position cursor limit.val (feed userId type db)
      .ok (shown.map (toDto (resolveCounterparties db shown.data) now) encodePosition) := by
  simp only [listForUser, hcursor, ok_bind, activity_list_eq,
    cut_position ActivityRow.createdAt ActivityRow.referenceId]
  rw [data_cut_congr _ ActivityRow.position]
  rfl

theorem feed_serves {S : Type} {db : S → Db} (now : S → Time)
    (hids : ∀ s, ((feed userId type (db s)).map ActivityRow.referenceId).Nodup)
    (hdates : ∀ s, ∀ act ∈ feed userId type (db s), IsDate act.createdAt) : Serves
    (fun (s : S) cursor => listForUser cfg (db s) (now s) userId ⟨type, cursor, limit⟩)
    (fun s => feed userId type (db s)) ActivityRow.position limit.val
    (fun dto => shownAt cfg dto.createdAt dto.referenceId) encodePosition :=
  serves_position hids hdates fun _ _ hcursor =>
    ⟨_, listForUser_eq hcursor, fun _ => ⟨rfl, rfl⟩⟩

theorem union_ids (userId : Uuid) (s : Snapshot) :
    ((ActivityRepository.union userId s.db).map ActivityRow.referenceId).Nodup := by
  rw [ActivityRepository.union, List.map_append, List.map_map, List.map_map]
  exact s.ids.sublist ((List.filter_sublist.map _).append (List.filter_sublist.map _))

theorem union_dates {userId : Uuid} {db : Db} (ht : ∀ t ∈ db.transfers, IsDate t.createdAt)
    (hr : ∀ r ∈ db.moneyRequests, IsDate r.createdAt) {act : ActivityRow}
    (h : act ∈ ActivityRepository.union userId db) : IsDate act.createdAt := by
  rcases List.mem_append.1 h with h | h
  · obtain ⟨t, hm, rfl⟩ := List.mem_map.1 h
    exact ht t (List.mem_of_mem_filter hm)
  · obtain ⟨r, hm, rfl⟩ := List.mem_map.1 h
    exact hr r (List.mem_of_mem_filter hm)

theorem activity_serves : Serves
    (fun (s : Snapshot) cursor => listForUser cfg s.db s.now userId ⟨type, cursor, limit⟩)
    (activity userId type) (fun act => position act.createdAt act.referenceId) limit.val
    (fun dto => shownAt cfg dto.createdAt dto.referenceId) encodePosition :=
  feed_serves _ (fun s => (union_ids userId s).sublist (List.filter_sublist.map _))
    fun s _ hact => union_dates s.transferDates s.requestDates (List.mem_of_mem_filter hact)

end Activity

section Notifications

open NotificationsService

variable {cfg : ReadConfig} {userId : Uuid} {unreadOnly : Bool} {limit : Limit}

def notified (userId : Uuid) (unreadOnly : Bool) (s : Snapshot) : List Notification :=
  s.notifications.filter fun n => n.userId = userId ∧ (unreadOnly → n.readAt = none)

theorem notification_list_eq (cursor : Option Position) (s : Snapshot) :
    NotificationsService.list userId unreadOnly (cursor.map anchor) (limit.val + 1)
        s.notifications =
      fetch (fun n : Notification => position n.createdAt n.id) cursor limit.val
        (notified userId unreadOnly s) := by
  refine (fetch_filter fun n _ => ?_).symm
  rw [all_anchor (orBefore · n.createdAt n.id) cursor (fun c => orBefore_iff), ← and_assoc,
    and_comm]

theorem notifications_serves : Serves
    (fun (s : Snapshot) cursor =>
      listForUser cfg s.notifications userId ⟨unreadOnly, cursor, limit⟩)
    (notified userId unreadOnly) (fun n => position n.createdAt n.id) limit.val
    (fun dto => shownAt cfg dto.createdAt dto.notificationId) encodePosition := by
  refine serves_position (fun s => ?_) (fun s n hn => ?_) (fun s cursor hcursor => ?_)
  · exact s.notificationIds.sublist (List.filter_sublist.map _)
  · exact s.notificationDates n (List.mem_of_mem_filter hn)
  · refine ⟨toNotificationDto, ?_, fun n => ⟨rfl, rfl⟩⟩
    simp only [listForUser, hcursor, ok_bind, notification_list_eq,
      cut_position Notification.createdAt Notification.id]
    rfl

end Notifications

/-- A walk over the activity feed, the incoming or outgoing requests or the notifications
loses and repeats nothing, whatever changes between its pages. -/
theorem walks_lose_nothing (cfg : ReadConfig) (userId : Uuid) (limit : Limit) :
    (∀ type, LosesNothing
      (fun (s : Snapshot) cursor =>
        ActivityQueryService.listForUser cfg s.db s.now userId ⟨type, cursor, limit⟩)
      (activity userId type) (fun act => position act.createdAt act.referenceId)
      (fun dto => shownAt cfg dto.createdAt dto.referenceId)) ∧
    (∀ status,
      LosesNothing
        (fun (s : Snapshot) cursor =>
          MoneyRequestQueryService.listIncoming cfg s.db s.now userId ⟨status, cursor, limit⟩)
        (listed .payer userId status) (fun r => position r.createdAt r.id)
        (fun dto => shownAt cfg dto.createdAt dto.requestId) ∧
      LosesNothing
        (fun (s : Snapshot) cursor =>
          MoneyRequestQueryService.listOutgoing cfg s.db s.now userId ⟨status, cursor, limit⟩)
        (listed .requester userId status) (fun r => position r.createdAt r.id)
        (fun dto => shownAt cfg dto.createdAt dto.requestId)) ∧
    ∀ unreadOnly, LosesNothing
      (fun (s : Snapshot) cursor =>
        NotificationsService.listForUser cfg s.notifications userId ⟨unreadOnly, cursor, limit⟩)
      (notified userId unreadOnly) (fun n => position n.createdAt n.id)
      (fun dto => shownAt cfg dto.createdAt dto.notificationId) :=
  ⟨fun _ => activity_serves.losesNothing,
    fun _ => ⟨requests_serves.losesNothing, requests_serves.losesNothing⟩,
    fun _ => notifications_serves.losesNothing⟩

end MoneyMovement
