import MoneyMovement.Outbox.Shadow

/-!
# Every event is told exactly once

An event's row is locked from its claim to the commit of what it has been planned
to tell, so that nobody else tells it meanwhile; and what has been told once is
never told again. The invariant compares the notifications of each event with
those it is owed.
-/

namespace MoneyMovement

open Txn NotificationConsumer NotificationsRepository

def told (w : World) (eventId : Uuid) : List Notice :=
  (rows Notification.sourceEventId eventId w.notifications).map Notification.notice

/-- No two workers are at the same event, for what `key` takes to be at it. -/
def Exclusive (key : Phase → Option Uuid) (workers : List Worker) : Prop :=
  ∀ (i j : ℕ) (k k' : Worker) (id : Uuid), workers[i]? = some k → workers[j]? = some k' →
    key k.phase = some id → key k'.phase = some id → i = j

def IsClaim (w : World) (c : ClaimedOutboxEvent) : Prop :=
  ∃ e ∈ w.db.outboxEvents, c = .of e c.attemptCount

/-- What a worker knows of the event it is at. -/
def Handles (w : World) : Phase → Prop
  | .idle => True
  | .claimed c _ => IsClaim w c
  | .inserting c _ planned new => IsClaim w c ∧ (∀ n ∈ new, n.sourceEventId = c.id) ∧
      ∃ notices, plan c = .ok (notices.map Notice.planned) ∧
        ((planned = notices.map Notice.planned ∧ new = []) ∨
          (planned = [] ∧ told w c.id ++ new.map Notification.notice = notices))
  | .failed c _ => IsClaim w c
  | .processed c => IsClaim w c

/-- All or nothing of what an event plans has been told, and all if it is processed. -/
structure ToldAll (w : World) (e : OutboxEvent) (notices : List Notice) : Prop where
  planned : ∀ n, plan (.of e n) = .ok (notices.map Notice.planned)
  told : told w e.id = [] ∨ told w e.id = notices
  processed : e.processedAt.isSome → MoneyMovement.told w e.id = notices

structure Delivering (w : World) : Prop where
  events : ∀ e ∈ w.db.outboxEvents, ∃ notices, ToldAll w e notices
  sources : ∀ n ∈ w.notifications, ∃ e ∈ w.db.outboxEvents, e.id = n.sourceEventId
  exclusive : Exclusive Phase.lock? w.workers
  handles : ∀ k ∈ w.workers, Handles w k.phase

variable {cfg : Config} {db₀ : Db} {clock : Time} {n : ℕ} {w w' : World}
  {permits : World → Move → Prop}

section Plans

theorem planned_injective : Function.Injective Notice.planned := by
  intro a b h
  obtain ⟨u, type, title, body, resource, id⟩ := a
  obtain ⟨u', type', title', body', resource', id'⟩ := b
  simp only [Notice.planned, PlannedNotification.mk.injEq] at h
  obtain ⟨hu, rfl, rfl, rfl, rfl, hid⟩ := h
  rw [Uuid.text_injective hu, Uuid.text_injective hid]

/-- An event plans one list of notices. -/
theorem plan_unique {c : ClaimedOutboxEvent} {a b : List Notice}
    (ha : plan c = .ok (a.map Notice.planned)) (hb : plan c = .ok (b.map Notice.planned)) :
    a = b := by
  rw [ha] at hb
  exact (List.map_injective_iff.2 planned_injective) (Except.ok.inj hb)

theorem Owed.length_le {v : Db} {e : OutboxEvent} {notices : List Notice} (h : Owed v e notices) :
    notices.length ≤ 1 := by
  cases h <;> simp

def Notice.Fits (n : Notice) : Prop := characters n.title ≤ 160 ∧ characters n.body ≤ 500

theorem showing_fits {u id : Uuid} {type : NotificationType} {title before after : String}
    {amount : ℤ} {currency : Currency} {resource : ResourceType} (hamount : InBigint amount)
    (htitle : (js title).length ≤ 160) (hbefore : (js before).length ≤ 200)
    (hafter : (js after).length ≤ 200) :
    (showing u type title before after amount currency resource id).Fits := by
  have hshown : (formatMinorUnits amount currency.text).length ≤ 41 := by
    cases currency
    exact length_formatMinorUnits hamount.natAbs_lt
  refine ⟨(characters_le _).trans htitle, (characters_le _).trans ?_⟩
  simp only [showing, List.length_append]
  omega

theorem Owed.fits {v : Db} {e : OutboxEvent} {notices : List Notice} (h : Owed v e notices)
    (hr : InRange v) : ∀ n ∈ notices, n.Fits := by
  intro n hn
  cases h with
  | direct t ht =>
    rw [List.mem_singleton.1 hn]
    exact showing_fits (hr.transfers t ht) (by decide) (by decide) (by decide)
  | sourced => cases hn
  | flagged => cases hn
  | request r hm hid m hm' =>
    rw [List.mem_singleton.1 hn]
    have hamount := hr.requests r hm
    cases ht : e.eventType <;> rw [ht] at hm' <;> cases hm'
    all_goals exact showing_fits hamount (by decide) (by decide) (by decide)

/-- A planned notice is refused by nobody, and written unless its event has told its user. -/
theorem insertIfAbsent_planned {users : List User} {notice : Notice}
    (visible : List Notification) (id eventId : Uuid) (now : Time) (hfits : notice.Fits)
    (huser : (users.find? (·.id = notice.userId)).isSome) :
    insertIfAbsent users visible notice.planned id eventId now =
      .ok (if visible.any (fun m => m.sourceEventId = eventId ∧ m.userId = notice.userId) then []
        else [inserted notice.planned notice.userId notice.resourceId id eventId now]) := by
  have huserId : parseUuid notice.planned.userId = some notice.userId := parseUuid_text _
  have hresource : parseUuid notice.planned.resourceId = some notice.resourceId := parseUuid_text _
  have hlong : ¬ (160 < characters notice.planned.title ∨
      500 < characters notice.planned.body) := by
    have htitle : characters notice.planned.title ≤ 160 := hfits.1
    have hbody : characters notice.planned.body ≤ 500 := hfits.2
    omega
  have hsome : ¬ (users.find? (·.id = notice.userId)).isNone := by
    rw [Option.isNone_iff_eq_none]
    exact Option.isSome_iff_ne_none.1 huser
  simp only [insertIfAbsent, huserId, hresource, if_neg hlong, if_neg hsome]
  split_ifs <;> rfl

end Plans

section Frames

theorem isClaim_mono {c : ClaimedOutboxEvent} (h : IsClaim w c)
    (hev : ∀ e ∈ w.db.outboxEvents, ∃ e' ∈ w'.db.outboxEvents, e'.asInserted = e.asInserted) :
    IsClaim w' c := by
  obtain ⟨e, he, hc⟩ := h
  obtain ⟨e', he', hsame⟩ := hev e he
  exact ⟨e', he', hc.trans (congrArg (ClaimedOutboxEvent.of · c.attemptCount) hsame.symm :)⟩

/-- What a worker knows stays true while the event it has locked is not told further. -/
theorem Handles.mono {phase : Phase} (h : Handles w phase)
    (hev : ∀ e ∈ w.db.outboxEvents, ∃ e' ∈ w'.db.outboxEvents, e'.asInserted = e.asInserted)
    (htold : ∀ id, phase.lock? = some id → told w' id = told w id) : Handles w' phase := by
  cases phase with
  | idle => trivial
  | claimed c now => exact isClaim_mono h hev
  | inserting c now planned new =>
    obtain ⟨hc, hnew, hplan⟩ := h
    refine ⟨isClaim_mono hc hev, hnew, ?_⟩
    rw [htold c.id rfl]
    exact hplan
  | failed c error => exact isClaim_mono h hev
  | processed c => exact isClaim_mono h hev

theorem getElem?_set_of_getElem? {α : Type} {l : List α} {i : ℕ} {a b : α} (h : l[i]? = some a) :
    (l.set i b)[i]? = some b :=
  List.getElem?_set_self (List.getElem?_eq_some_iff.1 h).1

theorem Exclusive.set {key : Phase → Option Uuid} {workers : List Worker}
    (h : Exclusive key workers) {i : ℕ} {k k' : Worker} (hk : workers[i]? = some k)
    (hlock : ∀ id, key k'.phase = some id →
      key k.phase = some id ∨ ∀ x ∈ workers, key x.phase ≠ some id) :
    Exclusive key (workers.set i k') := by
  -- The new phase is not at an event that another worker is at.
  have hother {j : ℕ} {x : Worker} {id : Uuid} (hj : j ≠ i) (hx : workers[j]? = some x)
      (hid : key k'.phase = some id) (hxid : key x.phase = some id) : False := by
    rcases hlock id hid with hkid | hfree
    · exact hj (h j i x k id hx hk hxid hkid)
    · exact hfree x (List.mem_of_getElem? hx) hxid
  have hself := getElem?_set_of_getElem? (b := k') hk
  intro a b x y id hx hy hxid hyid
  by_cases ha : i = a
  · subst ha
    by_cases hb : i = b
    · exact hb
    · rw [List.getElem?_set_ne hb] at hy
      obtain rfl := Option.some.inj (hself.symm.trans hx)
      exact (hother (Ne.symm hb) hy hxid hyid).elim
  · rw [List.getElem?_set_ne ha] at hx
    by_cases hb : i = b
    · subst hb
      obtain rfl := Option.some.inj (hself.symm.trans hy)
      exact (hother (Ne.symm ha) hx hyid hxid).elim
    · rw [List.getElem?_set_ne hb] at hy
      exact h a b x y id hx hy hxid hyid

/-- A change that tells nothing and marks nothing as processed. -/
theorem Delivering.congr (h : Delivering w) {f : OutboxEvent → OutboxEvent}
    (hf : ∀ e, (f e).asInserted = e.asInserted)
    (hp : ∀ e, (f e).processedAt.isSome → e.processedAt.isSome)
    (hev : w'.db.outboxEvents = w.db.outboxEvents.map f) (htold : ∀ id, told w' id = told w id)
    (hsources : ∀ n ∈ w'.notifications, ∃ n₀ ∈ w.notifications, n₀.sourceEventId = n.sourceEventId)
    (hex : Exclusive Phase.lock? w'.workers) (hhandles : ∀ k ∈ w'.workers, Handles w' k.phase) :
    Delivering w' where
  events e' he' := by
    rw [hev] at he'
    obtain ⟨e, he, rfl⟩ := List.mem_map.1 he'
    obtain ⟨notices, ht⟩ := h.events e he
    have hid : (f e).id = e.id := (congrArg OutboxEvent.id (hf e) :)
    refine ⟨notices, fun n => ?_, ?_, fun hs => ?_⟩
    · rw [show ClaimedOutboxEvent.of (f e) n = .of e n from
        (congrArg (ClaimedOutboxEvent.of · n) (hf e) :)]
      exact ht.planned n
    · rw [hid, htold]
      exact ht.told
    · rw [hid, htold]
      exact ht.processed (hp e hs)
  sources n hn := by
    obtain ⟨n₀, hn₀, hsame⟩ := hsources n hn
    obtain ⟨e, he, hid⟩ := h.sources n₀ hn₀
    refine ⟨f e, hev ▸ List.mem_map_of_mem he, ?_⟩
    exact ((congrArg OutboxEvent.id (hf e) :) : (f e).id = e.id).trans (hid.trans hsame)
  exclusive := hex
  handles := hhandles

theorem events_kept {f : OutboxEvent → OutboxEvent} (hf : ∀ e, (f e).asInserted = e.asInserted)
    (hev : w'.db.outboxEvents = w.db.outboxEvents.map f) :
    ∀ e ∈ w.db.outboxEvents, ∃ e' ∈ w'.db.outboxEvents, e'.asInserted = e.asInserted :=
  fun e he => ⟨f e, hev ▸ List.mem_map_of_mem he, hf e⟩

/-- A worker goes on to another phase, and nothing is told. -/
theorem Delivering.put (h : Delivering w) {f : OutboxEvent → OutboxEvent}
    (hf : ∀ e, (f e).asInserted = e.asInserted)
    (hp : ∀ e, (f e).processedAt.isSome → e.processedAt.isSome)
    (hev : w'.db.outboxEvents = w.db.outboxEvents.map f) (hn : w'.notifications = w.notifications)
    {i : ℕ} {k q : Worker} (hk : w.workers[i]? = some k) (hw : w'.workers = w.workers.set i q)
    (hlock : ∀ id, q.phase.lock? = some id → k.phase.lock? = some id ∨ ¬ w.Locked id)
    (hhandles : Handles w q.phase) : Delivering w' := by
  have htold (id : Uuid) : told w' id = told w id := by
    simp only [told, hn]
  have hmono (phase : Phase) (hx : Handles w phase) : Handles w' phase :=
    hx.mono (events_kept hf hev) (fun id _ => htold id)
  refine h.congr hf hp hev htold (fun n hm => ⟨n, hn ▸ hm, rfl⟩) ?_ (fun x hx => ?_)
  · rw [hw]
    refine h.exclusive.set hk (fun id hid => (hlock id hid).imp_right (fun hfree x hx hxid => ?_))
    exact hfree ⟨x, hx, hxid⟩
  · rw [hw] at hx
    rcases List.mem_or_eq_of_mem_set hx with hx | rfl
    · exact hmono _ (h.handles x hx)
    · exact hmono _ hhandles

theorem Delivering.phase (h : Delivering w) {i left : ℕ} {k : Worker} {phase : Phase}
    (hk : w.workers[i]? = some k)
    (hlock : ∀ id, phase.lock? = some id → k.phase.lock? = some id ∨ ¬ w.Locked id)
    (hhandles : Handles w phase) : Delivering (w.put i left phase) :=
  h.put (f := id) (fun _ => rfl) (fun _ hs => hs) (List.map_id _).symm rfl hk rfl hlock hhandles

end Frames

section Steps

/-- The claimed event of a worker, with the notices it is owed. -/
theorem Delivering.claimed (h : Delivering w) {c : ClaimedOutboxEvent} (hc : IsClaim w c)
    {notices : List Notice} (hplan : plan c = .ok (notices.map Notice.planned)) :
    told w c.id = [] ∨ told w c.id = notices := by
  obtain ⟨e, he, hce⟩ := hc
  obtain ⟨notices', ht⟩ := h.events e he
  have hid : c.id = e.id := (congrArg ClaimedOutboxEvent.id hce :)
  rw [hce] at hplan
  rw [hid, plan_unique hplan (ht.planned _)]
  exact ht.told

theorem told_row {w : World} {id : Uuid} {n : Notification} (hn : n ∈ w.notifications)
    (hid : n.sourceEventId = id) : n.notice ∈ told w id :=
  List.mem_map_of_mem (mem_rows.2 ⟨hn, hid⟩)

/-- The insert of the one planned notice completes what the event has to tell. -/
theorem Delivering.insert (h : Delivering w) {c : ClaimedOutboxEvent} {now : Time}
    {p : PlannedNotification} {planned : List PlannedNotification} {new₀ : List Notification}
    (id : Uuid) (hemits : ∀ e ∈ w.db.outboxEvents, ∃ notices, Emits w.db e notices)
    (hrange : InRange w.db) (hc : Handles w (.inserting c now (p :: planned) new₀)) :
    ∃ new, insertIfAbsent w.db.users (w.notifications ++ new₀) p id c.id now = .ok new ∧
      Handles w (.inserting c now planned (new₀ ++ new)) := by
  obtain ⟨⟨e, he, hce⟩, -, notices, hplan, hstate⟩ := hc
  obtain ⟨notices', hem⟩ := hemits e he
  obtain rfl : notices = notices' := plan_unique hplan (hce ▸ hem.planned _)
  rcases hstate with ⟨hp, rfl⟩ | ⟨hp, -⟩
  · -- One notice at most is planned, and it has not been inserted yet.
    obtain ⟨notice, rfl⟩ : ∃ notice, notices = [notice] := by
      have hlen := hem.owed.length_le
      cases notices with
      | nil => cases hp
      | cons a rest =>
        cases rest with
        | nil => exact ⟨a, rfl⟩
        | cons b rest => simp at hlen
    obtain ⟨rfl, rfl⟩ := List.cons.inj hp
    have hx := insertIfAbsent_planned (w.notifications ++ []) id c.id now
      (hem.owed.fits hrange notice (List.mem_singleton_self _))
      (hem.users notice (List.mem_singleton_self _))
    refine ⟨_, hx, ⟨e, he, hce⟩, ?_, [notice], hplan, Or.inr ⟨rfl, ?_⟩⟩
    · intro n hn
      rw [List.nil_append] at hn
      split_ifs at hn
      · cases hn
      · rw [List.mem_singleton.1 hn]
        rfl
    · have htold := h.claimed ⟨e, he, hce⟩ hplan
      rw [List.nil_append, List.append_nil]
      split_ifs with hany
      · -- The event has told its user before.
        obtain ⟨m, hm, hmatch⟩ := List.any_eq_true.1 hany
        have hsource : m.sourceEventId = c.id := (of_decide_eq_true hmatch).1
        rcases htold with hnil | hall
        · have hmem := told_row hm hsource
          rw [hnil] at hmem
          cases hmem
        · simpa using hall
      · rcases htold with hnil | hall
        · rw [hnil]
          rfl
        · exfalso
          have hmem : notice ∈ told w c.id := by
            rw [hall]
            exact List.mem_singleton_self _
          obtain ⟨m, hm, hnotice⟩ := List.mem_map.1 hmem
          obtain ⟨hm, hsource⟩ := mem_rows.1 hm
          refine hany (List.any_eq_true.2 ⟨m, hm, decide_eq_true ⟨hsource, ?_⟩⟩)
          exact (congrArg Notice.userId hnotice :)
  · cases hp

/-- The rows a worker commits complete what its event has to tell. -/
theorem Delivering.complete (h : Delivering w) {c : ClaimedOutboxEvent} {now : Time}
    {new : List Notification} (hc : Handles w (.inserting c now [] new)) :
    ∃ notices, plan c = .ok (notices.map Notice.planned) ∧
      told w c.id ++ new.map Notification.notice = notices := by
  obtain ⟨hclaim, -, notices, hplan, hstate⟩ := hc
  refine ⟨notices, hplan, ?_⟩
  rcases hstate with ⟨hp, rfl⟩ | ⟨-, htold⟩
  · obtain rfl : notices = [] := by simpa using hp.symm
    rw [List.map_nil, List.append_nil]
    exact (h.claimed hclaim hplan).elim id id
  · exact htold

theorem Delivering.commit (h : Delivering w) (hids : (w.db.outboxEvents.map OutboxEvent.id).Nodup)
    {i left : ℕ} {c : ClaimedOutboxEvent} {now : Time} {new : List Notification}
    (hk : w.workers[i]? = some ⟨left, .inserting c now [] new⟩) :
    Delivering (w.commit i left c new) := by
  have hc : Handles w (.inserting c now [] new) := h.handles _ (List.mem_of_getElem? hk)
  obtain ⟨notices, hplan, hall⟩ := h.complete hc
  obtain ⟨⟨e₀, he₀, hce⟩, hsource, -⟩ := hc
  have hcid : c.id = e₀.id := (congrArg ClaimedOutboxEvent.id hce :)
  have htold (id : Uuid) : told (w.commit i left c new) id =
      told w id ++ if id = c.id then new.map Notification.notice else [] := by
    have hnotes : (w.commit i left c new).notifications = w.notifications ++ new := rfl
    simp only [told, hnotes, rows_append, List.map_append]
    congr 1
    split_ifs with hid
    · rw [rows, List.filter_eq_self.2 (fun n hn => by simp [hsource n hn, hid])]
    · rw [rows, List.filter_eq_nil_iff.2 (fun n hn => by simpa [hsource n hn] using Ne.symm hid)]
      rfl
  have hother {id : Uuid} (hid : id ≠ c.id) : told (w.commit i left c new) id = told w id := by
    rw [htold, if_neg hid, List.append_nil]
  have hself : told (w.commit i left c new) c.id = notices := by
    rw [htold, if_pos rfl, hall]
  have hf (e : OutboxEvent) : (e.markProcessed c.id w.clock).asInserted = e.asInserted :=
    markProcessed_asInserted _ _ e
  refine ⟨fun e' he' => ?_, fun n hn => ?_, ?_, fun x hx => ?_⟩
  · obtain ⟨e, he, rfl⟩ := List.mem_map.1 he'
    have hid : (e.markProcessed c.id w.clock).id = e.id := (congrArg OutboxEvent.id (hf e) :)
    have hof (n : ℕ) : ClaimedOutboxEvent.of (e.markProcessed c.id w.clock) n = .of e n :=
      (congrArg (ClaimedOutboxEvent.of · n) (hf e) :)
    by_cases hec : e.id = c.id
    · -- The event itself is the one that was claimed.
      obtain rfl : e = e₀ := eq_of_nodup_key hids he he₀ (hec.trans hcid)
      refine ⟨notices, fun n => ?_, Or.inr ?_, fun _ => ?_⟩
      · obtain ⟨notices', ht⟩ := h.events e he
        obtain rfl : notices' = notices := plan_unique (hce ▸ ht.planned _) hplan
        rw [hof, ht.planned n]
      · rw [hid, hec, hself]
      · rw [hid, hec, hself]
    · obtain ⟨notices', ht⟩ := h.events e he
      have hsame : e.markProcessed c.id w.clock = e := if_neg hec
      rw [hsame]
      refine ⟨notices', ht.planned, ?_, fun hs => ?_⟩
      · rw [hother hec]
        exact ht.told
      · rw [hother hec]
        exact ht.processed hs
  · rcases List.mem_append.1 hn with hn | hn
    · obtain ⟨e, he, hid⟩ := h.sources n hn
      refine ⟨_, List.mem_map_of_mem he, ?_⟩
      exact ((congrArg OutboxEvent.id (hf e) :) : _ = e.id).trans hid
    · have hid : (e₀.markProcessed c.id w.clock).id = e₀.id := (congrArg OutboxEvent.id (hf e₀) :)
      exact ⟨_, List.mem_map_of_mem he₀, hid.trans (hcid.symm.trans (hsource n hn).symm)⟩
  · exact h.exclusive.set hk (fun id hid => by cases hid)
  · obtain ⟨j, hj⟩ := List.mem_iff_getElem?.1 hx
    by_cases hji : i = j
    · subst hji
      obtain rfl := Option.some.inj ((getElem?_set_of_getElem? hk).symm.trans hj)
      exact isClaim_mono ⟨e₀, he₀, hce⟩ (events_kept hf rfl)
    · -- Another worker has locked another event.
      have hj₀ : w.workers[j]? = some x := (List.getElem?_set_ne hji).symm.trans hj
      refine (h.handles x (List.mem_of_getElem? hj₀)).mono (events_kept hf rfl)
        (fun id hid => hother ?_)
      rintro rfl
      exact hji (h.exclusive i j _ _ _ hk hj₀ rfl hid)

/-- The API adds events that nobody has been told of. -/
theorem Delivering.service (h : Delivering w) {s : Service} {new : List OutboxEvent}
    (hev : s.db.outboxEvents = w.db.outboxEvents ++ new)
    (hnew : ∀ e ∈ new, e.processedAt = none ∧ e.attemptCount = 0)
    (hids : (s.db.outboxEvents.map OutboxEvent.id).Nodup)
    (hemits : ∀ e ∈ s.db.outboxEvents, ∃ notices, Emits s.db e notices) :
    Delivering { w with service := s } where
  events e he := by
    have hm := he
    rw [show ({ w with service := s } : World).db.outboxEvents = s.db.outboxEvents from rfl,
      hev] at hm
    rcases List.mem_append.1 hm with hm | hm
    · obtain ⟨notices, ht⟩ := h.events e hm
      exact ⟨notices, ht.planned, ht.told, ht.processed⟩
    · obtain ⟨notices, hn⟩ := hemits e he
      refine ⟨notices, hn.planned, Or.inl ?_, fun hs => ?_⟩
      · rw [told, rows, List.filter_eq_nil_iff.2, List.map_nil]
        intro m hmem hsource
        obtain ⟨e', he', hid⟩ := h.sources m hmem
        rw [hev, List.map_append, List.nodup_append'] at hids
        exact hids.2.2 (List.mem_map_of_mem he')
          (hid.trans (of_decide_eq_true hsource) ▸ List.mem_map_of_mem hm)
      · rw [(hnew e hm).1] at hs
        cases hs
  sources m hm := by
    obtain ⟨e, he, hid⟩ := h.sources m hm
    exact ⟨e, hev ▸ List.mem_append_left _ he, hid⟩
  exclusive := h.exclusive
  handles k hk := (h.handles k hk).mono
    (fun e he => ⟨e, hev ▸ List.mem_append_left _ he, rfl⟩) (fun _ _ => rfl)

theorem Delivering.worked (h : Delivering w) (hids : (w.db.outboxEvents.map OutboxEvent.id).Nodup)
    (hemits : ∀ e ∈ w.db.outboxEvents, ∃ notices, Emits w.db e notices) (hrange : InRange w.db)
    {i : ℕ} {k : Worker} {m : WorkerMove} (hk : w.workers[i]? = some k)
    (hw : Worked w i k m w') : Delivering w' := by
  have hhandles : Handles w k.phase := h.handles k (List.mem_of_getElem? hk)
  have hnone {phase : Phase} (hp : phase.lock? = none) :
      ∀ id, phase.lock? = some id → k.phase.lock? = some id ∨ ¬ w.Locked id := by
    intro id hid
    rw [hp] at hid
    cases hid
  cases hw with
  | drain n => exact h.phase hk (hnone rfl) trivial
  | claim left e he hdue hfree =>
    refine Delivering.put (w := w) (f := id) (q := ⟨left, .claimed (.of e e.attemptCount) w.clock⟩)
      h (fun _ => rfl) (fun _ hs => hs) (List.map_id _).symm rfl hk rfl (fun id hid => ?_)
      ⟨e, he, rfl⟩
    cases hid
    exact Or.inr hfree
  | idle left => exact h.phase hk (hnone rfl) trivial
  | handle left c now planned hp =>
    obtain ⟨e, he, hce⟩ := hhandles
    obtain ⟨notices, ht⟩ := h.events e he
    have hplan : plan c = .ok (notices.map Notice.planned) := hce ▸ ht.planned _
    obtain rfl := Except.ok.inj (hp.symm.trans hplan)
    exact h.phase hk (fun id hid => Or.inl hid)
      ⟨⟨e, he, hce⟩, fun n hn => (List.not_mem_nil hn).elim, notices, hplan, Or.inl ⟨rfl, rfl⟩⟩
  | throw left c now error hp => exact h.phase hk (hnone rfl) hhandles
  | insert left c now p planned rows new id refusal hid hx =>
    obtain ⟨new', hx', hinv⟩ := h.insert id hemits hrange hhandles
    obtain rfl := Except.ok.inj (hx.symm.trans hx')
    exact h.phase hk (fun id hid => Or.inl hid) hinv
  | refuse left c now p planned rows id refusal r hx => exact h.phase hk (hnone rfl) hhandles.1
  | fault left phase c error hc =>
    refine h.phase hk (hnone rfl) ?_
    rcases hc with ⟨now, rfl⟩ | ⟨now, planned, rows, rfl⟩
    · exact hhandles
    · exact hhandles.1
  | commit left c now rows => exact h.commit hids hk
  | recordFailure left c error hfree =>
    refine h.put (q := ⟨left, .idle⟩) (recordFailure_asInserted _ _ _ _) (fun e hs => ?_) rfl rfl
      hk rfl (hnone rfl) trivial
    unfold OutboxEvent.recordFailure at hs
    split_ifs at hs <;> exact hs
  | loseFailure left c error => exact h.phase hk (hnone rfl) trivial
  | explain left c text =>
    exact h.put (f := id) (q := ⟨left, .idle⟩) (fun _ => rfl) (fun _ hs => hs)
      (List.map_id _).symm rfl hk rfl (hnone rfl) trivial
  | skip left c text => exact h.phase hk (hnone rfl) trivial
  | crash => exact h.phase hk (hnone rfl) trivial

theorem told_read (w : World) (notificationId userId id : Uuid) :
    told (w.read notificationId userId) id = told w id := by
  have hrow (m : Notification) : (markRead notificationId userId w.clock m).sourceEventId =
      m.sourceEventId ∧ (markRead notificationId userId w.clock m).notice = m.notice := by
    unfold markRead
    split_ifs <;> exact ⟨rfl, rfl⟩
  simp only [told, World.read]
  rw [rows_map (fun m => (hrow m).1), List.map_map]
  exact List.map_congr_left (fun m _ => (hrow m).2)

theorem delivering (h₀ : Quiet db₀)
    (h : World.Reached cfg permits (World.initial db₀ clock n) w) : Delivering w := by
  induction h with
  | refl =>
    have hev : (World.initial db₀ clock n).db.outboxEvents = [] := h₀.outboxEvents
    have hidle : ∀ k ∈ (World.initial db₀ clock n).workers, k = ⟨0, .idle⟩ :=
      fun k hk => List.eq_of_mem_replicate hk
    refine ⟨fun e he => ?_, fun m hm => (List.not_mem_nil hm).elim, ?_, fun k hk => ?_⟩
    · rw [hev] at he
      cases he
    · intro i j k k' id hi _ hid
      rw [hidle k (List.mem_of_getElem? hi)] at hid
      cases hid
    · rw [hidle k hk]
      trivial
  | @tail w w' m hreach hok hs ih =>
    have hreach' := hreach.tail m hok hs
    cases step?_moved hs with
    | service l s hf hstep =>
      obtain ⟨new, hev, hnew⟩ := service_events hreach hstep
      exact ih.service hev hnew (event_ids h₀ hreach') (emits h₀ hreach')
    | markRead notificationId userId =>
      refine ih.congr (f := id) (fun _ => rfl) (fun _ hs => hs) (List.map_id _).symm
        (told_read w notificationId userId) (fun m hm => ?_) ih.exclusive (fun k hk => ?_)
      · obtain ⟨m₀, hm₀, rfl⟩ := List.mem_map.1 hm
        refine ⟨m₀, hm₀, ?_⟩
        unfold markRead
        split_ifs <;> rfl
      · exact (ih.handles k hk).mono (fun e he => ⟨e, he, rfl⟩)
          (fun id _ => told_read w notificationId userId id)
    | reopen id hfree =>
      refine ih.congr (reopen_asInserted id) (fun e hs => ?_) rfl (fun _ => rfl)
        (fun m hm => ⟨m, hm, rfl⟩) ih.exclusive (fun k hk => ?_)
      · unfold OutboxEvent.reopen at hs
        split_ifs at hs
        · cases hs
        · exact hs
      · exact (ih.handles k hk).mono (events_kept (reopen_asInserted id) rfl) (fun _ _ => rfl)
    | worker i k m w' hk hw =>
      exact ih.worked (event_ids h₀ hreach) (emits h₀ hreach) (amounts_inRange h₀ hreach) hk hw

end Steps

section Claims

theorem told_length (h₀ : Quiet db₀) (h : World.Reached cfg permits (World.initial db₀ clock n) w)
    (id : Uuid) : (rows Notification.sourceEventId id w.notifications).length ≤ 1 := by
  by_cases he : ∃ e ∈ w.db.outboxEvents, e.id = id
  · obtain ⟨e, he, rfl⟩ := he
    obtain ⟨notices, ht⟩ := (delivering h₀ h).events e he
    obtain ⟨notices', hn⟩ := emits h₀ h e he
    obtain rfl := plan_unique (ht.planned 0) (hn.planned 0)
    have hlen : (told w e.id).length ≤ 1 := by
      rcases ht.told with hnil | hall
      · rw [hnil]
        exact Nat.zero_le 1
      · rw [hall]
        exact hn.owed.length_le
    rwa [told, List.length_map] at hlen
  · rw [rows, List.filter_eq_nil_iff.2]
    · exact Nat.zero_le 1
    · intro m hm hsource
      obtain ⟨e, hem, hid⟩ := (delivering h₀ h).sources m hm
      exact he ⟨e, hem, hid.trans (of_decide_eq_true hsource)⟩

/-- With one row at most for each key, no two rows agree in the key. -/
theorem nodup_of_rows {α κ : Type} [DecidableEq κ] {key : α → κ} {table : List α}
    (h : ∀ k, (rows key k table).length ≤ 1) : (table.map key).Nodup := by
  induction table with
  | nil => exact List.nodup_nil
  | cons a rest ih =>
    rw [List.map_cons, List.nodup_cons]
    refine ⟨fun hm => ?_, ih (fun k => ?_)⟩
    · obtain ⟨b, hb, hkey⟩ := List.mem_map.1 hm
      have hlen := h (key a)
      rw [rows, List.filter_cons_of_pos (by simp), List.length_cons] at hlen
      have hmem : b ∈ rest.filter (key · = key a) := List.mem_filter.2 ⟨hb, decide_eq_true hkey⟩
      have hpos := List.length_pos_of_mem hmem
      omega
    · refine le_trans ?_ (h k)
      exact (List.Sublist.filter _ (List.sublist_cons_self a rest)).length_le

/-- A notice shows the amount it is about, to the last minor unit. -/
theorem showing_amount {u id : Uuid} {type : NotificationType} {title before after : String}
    {amount : ℤ} {currency : Currency} {resource : ResourceType}
    (hbefore : (js before).filterMap (digitValue 10) = [])
    (hafter : (js after).filterMap (digitValue 10) = []) :
    shown (showing u type title before after amount currency resource id).body =
      amount.natAbs := by
  cases currency
  exact shown_formatMinorUnits amount hbefore hafter

theorem notices_show (t : Transfer) (r : MoneyRequest) :
    shown t.received.body = t.amountMinor.natAbs ∧
      ∀ type notice, r.notice? type = some notice → shown notice.body = r.amountMinor.natAbs := by
  refine ⟨showing_amount (by decide) (by decide), fun type notice hn => ?_⟩
  cases type <;> cases hn
  all_goals exact showing_amount (by decide) (by decide)

/-- However the workers interleave, fail, crash and redeliver: no user is told twice
of an event, no event of the operations fails its handler, and once an event is
processed exactly those it concerns have been told, with its amount. No worker
touches the money. -/
theorem outbox_to_notifications (h₀ : Quiet db₀)
    (h : World.Reached cfg (fun _ _ => True) (World.initial db₀ clock n) w) :
    (w.notifications.map fun m => (m.sourceEventId, m.userId)).Nodup ∧
    (∀ e ∈ w.db.outboxEvents, ∀ attempts, ∃ planned, plan (.of e attempts) = .ok planned ∧
      ∀ p ∈ planned, ∀ visible id now, ∃ new,
        insertIfAbsent w.db.users visible p id e.id now = .ok new) ∧
    (∀ e ∈ w.db.outboxEvents, e.processedAt.isSome →
      ∃ notices, Owed w.db e notices ∧ told w e.id = notices) ∧
    (∀ (t : Transfer) (r : MoneyRequest), shown t.received.body = t.amountMinor.natAbs ∧
      ∀ type notice, r.notice? type = some notice → shown notice.body = r.amountMinor.natAbs) ∧
    ∀ i m w', w.step? cfg (.worker i m) = some w' →
      w'.db.wallets = w.db.wallets ∧ w'.db.transfers = w.db.transfers ∧
      w'.db.ledgerEntries = w.db.ledgerEntries ∧ w'.db.moneyRequests = w.db.moneyRequests ∧
      w'.db.idempotencyRecords = w.db.idempotencyRecords := by
  have hd := delivering h₀ h
  have hemits := emits h₀ h
  refine ⟨?_, fun e he attempts => ?_, fun e he hs => ?_, notices_show, fun i m w' hs => ?_⟩
  · have hsources := nodup_of_rows (told_length h₀ h)
    refine List.Nodup.of_map Prod.fst ?_
    rw [List.map_map]
    exact hsources
  · obtain ⟨notices, hn⟩ := hemits e he
    refine ⟨notices.map Notice.planned, hn.planned attempts, fun p hp visible id now => ?_⟩
    obtain ⟨notice, hm, rfl⟩ := List.mem_map.1 hp
    exact ⟨_, insertIfAbsent_planned _ _ _ _ (hn.owed.fits (amounts_inRange h₀ h) notice hm)
      (hn.users notice hm)⟩
  · obtain ⟨notices, ht⟩ := hd.events e he
    obtain ⟨notices', hn⟩ := hemits e he
    obtain rfl := plan_unique (ht.planned 0) (hn.planned 0)
    exact ⟨notices, hn.owed, ht.processed hs⟩
  · rcases (step?_moved hs).sameForApi with ⟨l, s, hl, -⟩ |
      ⟨v, ⟨events, assessments, rfl, -, -⟩, hw⟩
    · cases hl
    · rw [World.db, hw]
      exact ⟨rfl, rfl, rfl, rfl, rfl⟩

theorem outbox_to_notifications_delivered : ∃ w : World, w.notifications.length = 1 ∧
    ∀ e ∈ w.db.outboxEvents, e.processedAt.isSome →
      ∃ notices, Owed w.db e notices ∧ told w e.id = notices := by
  have hrun : (runs (World.step? sampleConfig) sampleWorld delivered).any
      (fun w => w.notifications.length = 1) := by
    decide +kernel
  obtain ⟨w, hs, hlen⟩ := (Option.any_eq_true _ _).1 hrun
  have hreach : World.Reached sampleConfig (fun _ _ => True) sampleWorld w :=
    reaches_of_runs hs (fun _ _ _ => trivial)
  exact ⟨w, of_decide_eq_true hlen,
    (outbox_to_notifications ⟨sampleDb_start, rfl⟩ hreach).2.2.1⟩

end Claims

end MoneyMovement
