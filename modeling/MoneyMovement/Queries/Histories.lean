import MoneyMovement.Outbox.Poller
import MoneyMovement.Queries.Search
import MoneyMovement.Txn.Lockstep

/-!
# Histories

What is committed, one operation after the other: calls, registrations, changes of users
and the polls of a worker, each of which takes whatever event is then the oldest. Every
run of the API is such a history, and so is what a worker does alone.
-/

namespace MoneyMovement

open Txn NotificationConsumer NotificationsRepository

section Model

/-- The clock readings and ids of a call that end in its rows or decide what they say.
Those of a risk event are free where the transfer has none. -/
structure Readings where
  times : List Time
  ids : List Uuid

def Settlement.readings (z : Settlement) : Readings where
  times := [z.inserted.now, z.completedAt, z.riskNow, z.flagged.now, z.succeeded.now]
  ids := [z.inserted.id, z.flagged.id, z.succeeded.id]

def Action.readings : Action → Readings
  | .transfer _ z => z.readings
  | .create _ _ inserted event _ => ⟨[inserted.now, event.now], [inserted.id, event.id]⟩
  | .accept _ _ z resolvedAt event _ =>
    ⟨z.readings.times ++ [resolvedAt, event.now], z.readings.ids ++ [event.id]⟩
  | .resolve _ _ _ resolvedAt event _ => ⟨[resolvedAt, event.now], [event.id]⟩

/-- The query of `claimNext`. Which of several oldest events it returns is up to the
database. -/
structure ClaimNext where
  next? : List OutboxEvent → Time → Option OutboxEvent
  due : ∀ events now e, next? events now = some e → e ∈ events ∧ e.Due now
  oldest : ∀ events now e, next? events now = some e →
    ∀ e' ∈ events, e'.Due now → e.occurredAt ≤ e'.occurredAt
  idle : ∀ events now, next? events now = none → ∀ e ∈ events, ¬ e.Due now

/-- What one `processNext` meets: the ids of the rows it inserts, the database's `now()`
and the time of what it writes last, the error if a statement fails by itself, the
message of a refused insert, whether a failure gets recorded, and the answer of the
explanation service. -/
structure Poll where
  ids : ℕ → Uuid
  now : Time
  endedAt : Time
  fault : Option JsString
  refusal : JsString
  recorded : Bool
  explanation : Option JsString

structure Books where
  db : Db
  notifications : List Notification

inductive Operation
  | call (command : Command) (readings : Readings)
  /-- A call that fails. -/
  | refused (command : Command)
  | register (r : Registration)
  | setStatus (userId : Uuid) (status : UserStatus)
  | setVerification (userId : Uuid) (status : VerificationStatus)
  | poll (p : Poll)
  | reopen (eventId : Uuid)
  | markRead (notificationId : JsString) (userId : Uuid) (now : Time)

def Registration.seeded (seededId : Uuid) (seed : ℕ) (r : Registration) : Registration :=
  if r.userId = seededId then { r with initialWalletBalanceMinor := seed } else r

def Wallet.seeded (seededId : Uuid) (seed : ℕ) (w : Wallet) : Wallet :=
  if w.userId = seededId then { w with balanceMinor := seed } else w

def Db.seeded (seededId : Uuid) (seed : ℕ) (db : Db) : Db :=
  { db with wallets := db.wallets.map (Wallet.seeded seededId seed) }

def User.withVerification (userId : Uuid) (status : VerificationStatus) (u : User) : User :=
  if u.id = userId then { u with verificationStatus := status } else u

def insertAll (users : List User) (eventId : Uuid) (now : Time) :
    List Notification → List PlannedNotification → (ℕ → Uuid) →
      Except Refusal (List Notification)
  | _, [], _ => .ok []
  | visible, p :: planned, ids =>
    match insertIfAbsent users visible p (ids 0) eventId now with
    | .error refusal => .error refusal
    | .ok new =>
      (insertAll users eventId now (visible ++ new) planned fun n => ids (n + 1)).map (new ++ ·)

namespace Books

variable (v : Books)

/-- The handler: the notifications it inserts, or the error that rolls them back. -/
def dispatch (event : ClaimedOutboxEvent) (p : Poll) : Except JsString (List Notification) :=
  match p.fault with
  | some error => .error error
  | none =>
    match plan event with
    | .error error => .error error
    | .ok planned =>
      match insertAll v.db.users event.id p.now v.notifications planned p.ids with
      | .error _ => .error p.refusal
      | .ok rows => .ok rows

def recordFailure (event : ClaimedOutboxEvent) (error : JsString) (p : Poll) : Books :=
  if p.recorded then
    let backoffSeconds := BASE_BACKOFF_SECONDS * 2 ^ event.attemptCount
    { v with
      db := v.db.updateEvents
        (OutboxEvent.recordFailure event.id error backoffSeconds p.endedAt) }
  else v

def markProcessed (event : ClaimedOutboxEvent) (rows : List Notification) (p : Poll) : Books where
  db := v.db.updateEvents (OutboxEvent.markProcessed event.id p.endedAt)
  notifications := v.notifications ++ rows

def tryExplain (event : ClaimedOutboxEvent) (explanation : Option JsString) : Books :=
  match explanation with
  | some text =>
    if event.eventType = .transferRiskFlagged ∧ text ≠ [] then
      { v with
        db := v.db.updateAssessments (RiskAssessment.explain event.aggregateId text) }
    else v
  | none => v

def process (event : ClaimedOutboxEvent) (p : Poll) : Books :=
  match v.dispatch event p with
  | .error error => v.recordFailure event error p
  | .ok rows => (v.markProcessed event rows p).tryExplain event p.explanation

def processNext (claim : ClaimNext) (p : Poll) : Books :=
  match claim.next? v.db.outboxEvents p.now with
  | none => v
  | some e => v.process (.of e e.attemptCount) p

def markRead (notificationId : JsString) (userId : Uuid) (now : Time) : Books :=
  { v with
    notifications :=
      (NotificationsService.markRead v.notifications now notificationId userId).1 }

end Books

/-- What one operation can do, when `seededId` gets `seed` at registration. -/
inductive Happens (cfg : Config) (claim : ClaimNext) (seededId : Uuid) (seed : ℕ) (v : Books) :
    Operation → Books → Prop
  | replay (c : Command) (readings : Readings) (r : IdempotencyRecord)
      (hr : r ∈ v.db.idempotencyRecords) (hkey : r.key = c.key) :
      Happens cfg claim seededId seed v (.call c readings) v
  | act (c : Command) (a : Action) (ds : List (Draw Time Uuid)) (recordId : Uuid)
      (hclaim : Claims v.db c.key recordId) (hdoes : Does cfg v.db ds c a) :
      Happens cfg claim seededId seed v (.call c a.readings)
        { db := (a.apply v.db).withRecord
            (storedRecord c.key (c.hash cfg) (a.completion recordId))
          notifications := v.notifications }
  | refused (c : Command) : Happens cfg claim seededId seed v (.refused c) v
  | register (r : Registration) (db : Db)
      (hr : MoneyMovement.register (r.seeded seededId seed) v.db = some db) :
      Happens cfg claim seededId seed v (.register r) { v with db := db }
  | setStatus (userId : Uuid) (status : UserStatus) :
      Happens cfg claim seededId seed v (.setStatus userId status)
        { v with db := { v.db with users := v.db.users.map (User.withStatus userId status) } }
  | setVerification (userId : Uuid) (status : VerificationStatus) :
      Happens cfg claim seededId seed v (.setVerification userId status)
        { v with
          db := { v.db with users := v.db.users.map (User.withVerification userId status) } }
  | poll (p : Poll) : Happens cfg claim seededId seed v (.poll p) (v.processNext claim p)
  | reopen (eventId : Uuid) :
      Happens cfg claim seededId seed v (.reopen eventId)
        { v with db := v.db.updateEvents (OutboxEvent.reopen eventId) }
  | markRead (notificationId : JsString) (userId : Uuid) (now : Time) :
      Happens cfg claim seededId seed v (.markRead notificationId userId now)
        (v.markRead notificationId userId now)

end Model

section Runs

variable {cfg : Config} {claim : ClaimNext} {db₀ : Db} {clock : Time} {s : Service}
  {seededId : Uuid} {seed : ℕ}

def Seeding (seededId : Uuid) (seed : ℕ) (_ : Service) (l : Event) : Prop :=
  ∀ r, l = .external r → r.seeded seededId seed = r

/-- What the API has committed in a run is a history, whatever the interleaving. -/
theorem history (h₀ : Good [] db₀)
    (h : Sys.Reach (body cfg) (Seeding seededId seed) (Service.initial db₀ clock) s) :
    ∃ log, Ran (Happens cfg claim seededId seed) ⟨db₀, []⟩ log ⟨s.db, []⟩ := by
  induction h with
  | refl => exact ⟨[], .nil⟩
  | @tail s s' l hr ho hs ih =>
    obtain ⟨log, hlog⟩ := ih
    have hi := open_inv h₀ (hr.mono _ fun _ _ _ => trivial)
    rcases step_tables hi hs with hsame | ⟨r, rfl, hreg⟩ | ⟨i, t, a, rfl, ht, hret, heff⟩
    · rw [hsame]
      exact ⟨log, hlog⟩
    · refine ⟨_, hlog.snoc (.register r) (.register r _ ?_)⟩
      rw [ho r rfl]
      exact hreg
    · generalize s'.db = db' at heff ⊢
      cases heff with
      | replay r hr hkey hhash hinput =>
        exact ⟨_, hlog.snoc _ (.replay t.call ⟨[], []⟩ r hr hkey)⟩
      | act x recordId hclaim hdoes hinput =>
        exact ⟨_, hlog.snoc _ (.act t.call x t.draws recordId hclaim hdoes)⟩

end Runs

section Workers

variable {cfg : Config} {claim : ClaimNext} {w w' : World} {v : Books} {c : ClaimedOutboxEvent}
  {now : Time} {phase : Phase} {left : ℕ} {m : WorkerMove}

/-- What the query returns is what a worker may claim when no event is locked. -/
theorem ClaimNext.proceeds (claim : ClaimNext) :
    match claim.next? w.db.outboxEvents w.clock with
    | some e => w.Proceeds (.claim e.id)
    | none => w.Proceeds .idle := by
  cases hnext : claim.next? w.db.outboxEvents w.clock with
  | some e =>
    have hold := claim.oldest _ _ e hnext
    exact ⟨e, (claim.due _ _ e hnext).1, rfl, fun e' he' hclaimable => hold e' he' hclaimable.1⟩
  | none => exact fun e he hclaimable => claim.idle _ _ hnext e he hclaimable.1

def World.books (w : World) : Books := ⟨w.db, w.notifications⟩

def WorkerMove.GoesOn : WorkerMove → Prop
  | .handle | .insert _ _ | .fault _ | .commit | .recordFailure | .loseFailure | .explain _ => True
  | _ => False

theorem put_workers {k : Worker} (hw : w.workers = [k]) :
    (w.put 0 left phase).workers = [⟨left, phase⟩] := by
  rw [World.put, hw, List.set_cons_zero]

theorem worked_of_step {i : ℕ} {k : Worker} (hk : w.workers[i]? = some k)
    (h : w.step? cfg (.worker i m) = some w') : Worked w i k m w' := by
  rw [World.step?, hk, Option.bind_some] at h
  exact work?_worked h

def Poll.at (now : Time) (ids : ℕ → Uuid) (fault : Option JsString) (refusal : JsString) : Poll :=
  ⟨ids, now, now, fault, refusal, false, none⟩

theorem dispatch_of_insertAll {planned : List PlannedNotification} {ids : ℕ → Uuid}
    (refusal : JsString) (hplan : plan c = .ok planned) :
    v.dispatch c (.at now ids none refusal) =
      (insertAll v.db.users c.id now v.notifications planned ids).mapError fun _ => refusal := by
  simp only [Books.dispatch, Poll.at, hplan]
  cases insertAll v.db.users c.id now v.notifications planned ids with
  | error r => rfl
  | ok rows => rfl

def drawnFirst (id : Uuid) (ids : ℕ → Uuid) : ℕ → Uuid
  | 0 => id
  | n + 1 => ids n

section Inserts

variable {users : List User} {eventId id : Uuid} {visible new : List Notification}
  {q : PlannedNotification} {rest : List PlannedNotification}

theorem insertAll_drawn (ids : ℕ → Uuid)
    (hx : insertIfAbsent users visible q id eventId now = .ok new) :
    insertAll users eventId now visible (q :: rest) (drawnFirst id ids) =
      (insertAll users eventId now (visible ++ new) rest ids).map (new ++ ·) := by
  simp only [insertAll, drawnFirst, hx]

theorem insertAll_refused {r : Refusal} (ids : ℕ → Uuid)
    (hx : insertIfAbsent users visible q id eventId now = .error r) :
    insertAll users eventId now visible (q :: rest) (drawnFirst id ids) = .error r := by
  simp only [insertAll, drawnFirst, hx]

end Inserts

def Inserts (v : Books) (c : ClaimedOutboxEvent) (now : Time)
    (planned rest : List PlannedNotification) (rows : List Notification) : Prop :=
  ∀ ids', ∃ ids, insertAll v.db.users c.id now v.notifications planned ids =
    (insertAll v.db.users c.id now (v.notifications ++ rows) rest ids').map (rows ++ ·)

variable {planned rest : List PlannedNotification} {rows new : List Notification}

theorem Inserts.start : Inserts v c now planned planned [] := by
  intro ids
  refine ⟨ids, ?_⟩
  rw [List.append_nil]
  cases insertAll v.db.users c.id now v.notifications planned ids with
  | error r => rfl
  | ok rows => rfl

theorem Inserts.insert {q : PlannedNotification} {id : Uuid}
    (h : Inserts v c now planned (q :: rest) rows)
    (hx : insertIfAbsent v.db.users (v.notifications ++ rows) q id c.id now = .ok new) :
    Inserts v c now planned rest (rows ++ new) := by
  intro ids'
  obtain ⟨ids, hids⟩ := h (drawnFirst id ids')
  refine ⟨ids, hids.trans ?_⟩
  rw [insertAll_drawn ids' hx, List.append_assoc]
  cases insertAll v.db.users c.id now (v.notifications ++ (rows ++ new)) rest ids' with
  | error r => rfl
  | ok more => simp only [Except.map, List.append_assoc]

theorem Inserts.refuse {q : PlannedNotification} {id : Uuid} {r : Refusal}
    (h : Inserts v c now planned (q :: rest) rows)
    (hx : insertIfAbsent v.db.users (v.notifications ++ rows) q id c.id now = .error r) :
    ∃ ids, insertAll v.db.users c.id now v.notifications planned ids = .error r := by
  obtain ⟨ids, hids⟩ := h (drawnFirst id fun _ => id)
  rw [insertAll_refused _ hx] at hids
  exact ⟨ids, hids⟩

theorem Inserts.all (h : Inserts v c now planned [] rows) :
    ∃ ids, insertAll v.db.users c.id now v.notifications planned ids = .ok rows := by
  obtain ⟨ids, hids⟩ := h fun _ => c.id
  refine ⟨ids, hids.trans ?_⟩
  simp only [insertAll, Except.map, List.append_nil]

/-- How far a worker has come with an event, and the books by then. -/
inductive Midway (v : Books) (c : ClaimedOutboxEvent) (now : Time) : Phase → Books → Prop
  | claimed : Midway v c now (.claimed c now) v
  | inserting (planned rest : List PlannedNotification) (rows : List Notification)
      (hplan : plan c = .ok planned) (hrest : Inserts v c now planned rest rows) :
      Midway v c now (.inserting c now rest rows) v
  | failed (p : Poll) (error : JsString) (hnow : p.now = now) (hend : p.endedAt = now)
      (hd : v.dispatch c p = .error error) : Midway v c now (.failed c error) v
  | processed (p : Poll) (rows : List Notification) (hnow : p.now = now) (hend : p.endedAt = now)
      (hd : v.dispatch c p = .ok rows) :
      Midway v c now (.processed c) (v.markProcessed c rows p)
  | done (p : Poll) (hnow : p.now = now) : Midway v c now .idle (v.process c p)

theorem Midway.fault (v : Books) (c : ClaimedOutboxEvent) (now : Time) (error : JsString) :
    Midway v c now (.failed c error) v :=
  .failed (.at now (fun _ => c.id) (some error) []) error rfl rfl rfl

def Stands (v : Books) (c : ClaimedOutboxEvent) (now : Time) (left : ℕ) (w : World) : Prop :=
  ∃ phase, w.workers = [⟨left, phase⟩] ∧ w.clock = now ∧ Midway v c now phase w.books

theorem Midway.stands (hw : w.workers = [⟨left, phase⟩]) (hclock : w.clock = now) {phase' : Phase}
    (h : Midway v c now phase' w.books) : Stands v c now left (w.put 0 left phase') :=
  ⟨phase', put_workers hw, hclock, h⟩

theorem stands_claimed (hv : w.books = v) (hw : w.workers = [⟨left, .claimed c now⟩])
    (hclock : w.clock = now) (hm : m.GoesOn)
    (h : Worked w 0 ⟨left, .claimed c now⟩ m w') : Stands v c now left w' := by
  subst hv
  cases h with
  | handle _ _ _ planned hplan =>
    exact Midway.stands hw hclock (.inserting planned planned [] hplan .start)
  | throw _ _ _ error hplan =>
    refine Midway.stands hw hclock (.failed (.at now (fun _ => c.id) none []) error rfl rfl ?_)
    simp only [Books.dispatch, Poll.at, hplan]
  | fault _ _ c' error hc =>
    obtain rfl : c = c' := by
      rcases hc with ⟨now, hphase⟩ | ⟨now, planned, rows, hphase⟩
      · cases hphase
        rfl
      · cases hphase
    exact Midway.stands hw hclock (.fault _ c _ error)
  | crash => exact hm.elim

theorem stands_inserting (hv : w.books = v) (hw : w.workers = [⟨left, .inserting c now rest rows⟩])
    (hclock : w.clock = now) (hm : m.GoesOn) (hplan : plan c = .ok planned)
    (hrest : Inserts v c now planned rest rows)
    (h : Worked w 0 ⟨left, .inserting c now rest rows⟩ m w') : Stands v c now left w' := by
  subst hv
  cases h with
  | insert _ _ _ q rest _ new id refusal hid hx =>
    exact Midway.stands hw hclock (.inserting planned rest (rows ++ new) hplan (hrest.insert hx))
  | refuse _ _ _ q rest _ id refusal r hx =>
    obtain ⟨ids, hids⟩ := hrest.refuse hx
    refine Midway.stands hw hclock (.failed (.at now ids none refusal) refusal rfl rfl ?_)
    rw [dispatch_of_insertAll refusal hplan, hids]
    rfl
  | fault _ _ c' error hc =>
    obtain rfl : c = c' := by
      rcases hc with ⟨now, hphase⟩ | ⟨now, planned, rows, hphase⟩
      · cases hphase
      · cases hphase
        rfl
    exact Midway.stands hw hclock (.fault _ c _ error)
  | commit =>
    obtain ⟨ids, hids⟩ := hrest.all
    subst hclock
    refine ⟨_, put_workers hw, rfl, .processed (.at w.clock ids none []) rows rfl rfl ?_⟩
    rw [dispatch_of_insertAll [] hplan, hids]
    rfl
  | crash => exact hm.elim

theorem stands_failed {p : Poll} {error : JsString} (hv : w.books = v)
    (hw : w.workers = [⟨left, .failed c error⟩]) (hclock : w.clock = now) (hm : m.GoesOn)
    (hnow : p.now = now) (hend : p.endedAt = now) (hd : v.dispatch c p = .error error)
    (h : Worked w 0 ⟨left, .failed c error⟩ m w') : Stands v c now left w' := by
  have hdone (recorded : Bool) : Midway v c now .idle
      (v.recordFailure c error { p with recorded := recorded }) := by
    have hsame : v.dispatch c { p with recorded := recorded } = .error error := hd
    have hprocess := Midway.done (v := v) (c := c) { p with recorded := recorded } hnow
    rwa [Books.process, hsame] at hprocess
  subst hv
  cases h with
  | recordFailure _ _ _ hfree =>
    have hrecorded := hdone true
    rw [Books.recordFailure, if_pos rfl, hend, ← hclock] at hrecorded
    exact ⟨_, put_workers hw, hclock, hclock ▸ hrecorded⟩
  | loseFailure =>
    have hlost := hdone false
    rw [Books.recordFailure, if_neg Bool.false_ne_true] at hlost
    exact Midway.stands hw hclock hlost
  | fault _ _ c' error' hc =>
    rcases hc with ⟨now, hphase⟩ | ⟨now, planned, rows, hphase⟩
    · cases hphase
    · cases hphase
  | crash => exact hm.elim

theorem explain_books (w : World) (i left : ℕ) (c : ClaimedOutboxEvent)
    (explanation : Option JsString) :
    (w.explain i left c explanation).books = w.books.tryExplain c explanation := by
  cases explanation with
  | none => rfl
  | some text =>
    unfold World.explain Books.tryExplain
    dsimp only
    split_ifs <;> rfl

theorem explain_workers {k : Worker} (hw : w.workers = [k]) (c : ClaimedOutboxEvent)
    (explanation : Option JsString) :
    (w.explain 0 left c explanation).workers = [⟨left, .idle⟩] := by
  unfold World.explain
  split
  · split_ifs
    · exact put_workers hw
    · exact put_workers hw
  · exact put_workers hw

theorem explain_clock (w : World) (i left : ℕ) (c : ClaimedOutboxEvent)
    (explanation : Option JsString) : (w.explain i left c explanation).clock = w.clock := by
  unfold World.explain
  split
  · split_ifs <;> rfl
  · rfl

theorem stands_processed {p : Poll} (hv : w.books = v.markProcessed c rows p)
    (hw : w.workers = [⟨left, .processed c⟩]) (hclock : w.clock = now) (hm : m.GoesOn)
    (hnow : p.now = now) (hd : v.dispatch c p = .ok rows)
    (h : w.work? 0 ⟨left, .processed c⟩ m = some w') : Stands v c now left w' := by
  cases m with
  | explain explanation =>
    simp only [World.work?, Option.some.injEq] at h
    subst h
    have hsame : v.dispatch c { p with explanation := explanation } = .ok rows := hd
    have hdone := Midway.done (v := v) (c := c) { p with explanation := explanation } hnow
    rw [Books.process, hsame] at hdone
    refine ⟨.idle, explain_workers hw c explanation, (explain_clock ..).trans hclock, ?_⟩
    rw [explain_books, hv]
    exact hdone
  | crash => exact hm.elim
  | _ => simp only [World.work?, reduceCtorEq] at h

theorem Stands.step (h : Stands v c now left w) (hm : m.GoesOn)
    (hs : w.step? cfg (.worker 0 m) = some w') : Stands v c now left w' := by
  obtain ⟨phase, hw, hclock, hmid⟩ := h
  have hk : w.workers[0]? = some ⟨left, phase⟩ := by rw [hw, List.getElem?_cons_zero]
  generalize hv : w.books = u at hmid
  cases hmid with
  | claimed => exact stands_claimed hv hw hclock hm (worked_of_step hk hs)
  | inserting planned rest rows hplan hrest =>
    exact stands_inserting hv hw hclock hm hplan hrest (worked_of_step hk hs)
  | failed p error hnow hend hd =>
    exact stands_failed hv hw hclock hm hnow hend hd (worked_of_step hk hs)
  | processed p rows hnow hend hd =>
    rw [World.step?, hk, Option.bind_some] at hs
    exact stands_processed hv hw hclock hm hnow hd hs
  | done p hnow =>
    rw [World.step?, hk, Option.bind_some] at hs
    cases m with
    | drain => exact hm.elim
    | claim => exact hm.elim
    | idle => exact hm.elim
    | crash => exact hm.elim
    | _ => simp only [World.work?, reduceCtorEq] at hs

theorem Stands.runs {ms : List WorkerMove} (h : Stands v c now left w) (hm : ∀ m ∈ ms, m.GoesOn)
    (hr : Txn.runs (World.step? cfg) w (ms.map (.worker 0)) = some w') :
    Stands v c now left w' := by
  induction ms generalizing w with
  | nil =>
    cases hr
    exact h
  | cons m ms ih =>
    obtain ⟨w₁, hs, hrest⟩ := Option.bind_eq_some_iff.1 hr
    exact ih (h.step (hm m List.mem_cons_self) hs)
      (fun m' hm' => hm m' (List.mem_cons_of_mem _ hm')) hrest

/-- A worker that claims what the query returns, and is left alone until it is idle again,
has made one poll. -/
theorem processNext_of_runs (hids : (w.db.outboxEvents.map OutboxEvent.id).Nodup)
    (hw : w.workers = [⟨left + 1, .idle⟩]) {e : OutboxEvent}
    (hnext : claim.next? w.db.outboxEvents w.clock = some e) {ms : List WorkerMove}
    (hm : ∀ m ∈ ms, m.GoesOn)
    (h : runs (World.step? cfg) w (.worker 0 (.claim e.id) :: ms.map (.worker 0)) = some w')
    (hend : w'.workers = [⟨left, .idle⟩]) :
    ∃ p : Poll, p.now = w.clock ∧ w'.books = w.books.processNext claim p := by
  obtain ⟨w₁, hclaim, hrest⟩ := Option.bind_eq_some_iff.1 h
  have hstart : Stands w.books (.of e e.attemptCount) w.clock left w₁ := by
    have hworked := worked_of_step (by rw [hw, List.getElem?_cons_zero]) hclaim
    generalize hid : e.id = eventId at hworked
    cases hworked with
    | claim left e' he' hdue hfree =>
      obtain rfl := eq_of_nodup_key hids he' (claim.due _ _ _ hnext).1 hid.symm
      exact ⟨_, put_workers hw, rfl, .claimed⟩
  obtain ⟨phase, hphase, -, hmid⟩ := hstart.runs hm hrest
  rw [hend] at hphase
  cases hphase
  generalize hv : w'.books = u at hmid
  cases hmid with
  | done p hnow =>
    refine ⟨p, hnow, ?_⟩
    have hsame : claim.next? w.books.db.outboxEvents p.now = some e := hnow ▸ hnext
    rw [Books.processNext, hsame]

end Workers

end MoneyMovement
