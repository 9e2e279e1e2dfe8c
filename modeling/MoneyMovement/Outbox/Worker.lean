import MoneyMovement.Outbox.Notifications
import MoneyMovement.Runs.Interleavings
import MoneyMovement.Txn.Hidden
import MoneyMovement.Txn.Reaches

/-!
# The outbox worker

The API and any number of workers over one database. A worker claims an event and
keeps its row locked while it plans and inserts notifications; the event is marked
in the commit. A failure rolls back first and is recorded afterwards, on its own.
-/

namespace MoneyMovement

open Txn NotificationConsumer NotificationsRepository

section Updates

def MAX_ATTEMPTS : ℕ := 5

def BASE_BACKOFF_SECONDS : ℕ := 2

def OutboxEvent.markProcessed (eventId : Uuid) (now : Time) (e : OutboxEvent) : OutboxEvent :=
  if e.id = eventId then { e with processedAt := some now, lastError := none } else e

def OutboxEvent.recordFailure (eventId : Uuid) (error : JsString) (backoffSeconds : ℕ) (now : Time)
    (e : OutboxEvent) : OutboxEvent :=
  if e.id = eventId then
    { e with attemptCount := e.attemptCount + 1, lastError := some (error.take 1000),
             nextAttemptAt := now + backoffSeconds * 1000 }
  else e

/-- A redelivery: the processed flag is lost. -/
def OutboxEvent.reopen (eventId : Uuid) (e : OutboxEvent) : OutboxEvent :=
  if e.id = eventId then { e with processedAt := none } else e

def RiskAssessment.explain (transferId : Uuid) (explanation : JsString) (r : RiskAssessment) :
    RiskAssessment :=
  if r.transferId = transferId then { r with explanation := some explanation } else r

def Db.updateEvents (db : Db) (f : OutboxEvent → OutboxEvent) : Db :=
  { db with outboxEvents := db.outboxEvents.map f }

def Db.updateAssessments (db : Db) (f : RiskAssessment → RiskAssessment) : Db :=
  { db with riskAssessments := db.riskAssessments.map f }

/-- The `WHERE` clause of `claimNext`. -/
def OutboxEvent.Due (e : OutboxEvent) (now : Time) : Prop :=
  e.processedAt = none ∧ e.attemptCount < MAX_ATTEMPTS ∧ e.nextAttemptAt ≤ now

instance (e : OutboxEvent) (now : Time) : Decidable (e.Due now) :=
  inferInstanceAs (Decidable (_ ∧ _))

end Updates

section States

inductive Phase
  | idle
  /-- The event is locked, in a transaction begun at `now`. -/
  | claimed (event : ClaimedOutboxEvent) (now : Time)
  | inserting (event : ClaimedOutboxEvent) (now : Time) (planned : List PlannedNotification)
      (rows : List Notification)
  /-- Rolled back, the failure still to be recorded. -/
  | failed (event : ClaimedOutboxEvent) (error : JsString)
  /-- Committed, the explanation still to be tried. -/
  | processed (event : ClaimedOutboxEvent)

def Phase.lock? : Phase → Option Uuid
  | .claimed c _ | .inserting c _ _ _ => some c.id
  | _ => none

def Phase.rows : Phase → List Notification
  | .inserting _ _ _ rows => rows
  | _ => []

/-- A worker and the number of events its `drain` may still take. -/
structure Worker where
  left : ℕ
  phase : Phase

structure World where
  service : Service
  notifications : List Notification
  workers : List Worker
  /-- The events whose handler has been started, the oldest first. -/
  started : List Uuid

inductive WorkerMove
  | drain (batchSize : ℕ)
  | claim (eventId : Uuid)
  /-- Nothing to claim, or the claim fails. -/
  | idle
  | handle
  /-- The next planned notification; `refusal` is the message if the database refuses it. -/
  | insert (id : Uuid) (refusal : JsString)
  /-- The handler or a statement of the transaction fails. -/
  | fault (error : JsString)
  | commit
  | recordFailure
  | loseFailure
  /-- `tryExplain`, with what the explanation service has answered. -/
  | explain (explanation : Option JsString)
  | crash

inductive Move
  | service (l : Event)
  | markRead (notificationId userId : Uuid)
  | reopen (eventId : Uuid)
  | worker (i : ℕ) (m : WorkerMove)

def Write.eventId? : Write → Option Uuid
  | .insertOutboxEvent e => some e.id
  | _ => none

def Service.eventIds (s : Service) : List Uuid :=
  s.db.outboxEvents.map OutboxEvent.id ++
    (List.range s.txs.length).flatMap fun i => (s.pending i).filterMap Write.eventId?

/-- `gen_random_uuid()` draws no id of an event again; if it did, the primary key
would refuse the event and its transaction would be rolled back. -/
def Service.Fresh (s : Service) : Event → Prop
  | .step _ id => id ∉ Service.eventIds s
  | _ => True

instance (s : Service) (l : Event) : Decidable (Service.Fresh s l) := by
  cases l <;> unfold Service.Fresh <;> infer_instance

end States

namespace World

variable (w : World)

def db : Db := w.service.db

def clock : Time := w.service.clock

def update (db : Db) : World := { w with service := { w.service with db := db } }

def put (i : ℕ) (left : ℕ) (phase : Phase) : World :=
  { w with workers := w.workers.set i ⟨left, phase⟩ }

/-- `markReadForOwner`, one statement. -/
def read (notificationId userId : Uuid) : World :=
  { w with notifications := w.notifications.map (markRead notificationId userId w.clock) }

def Locked (eventId : Uuid) : Prop := ∃ k ∈ w.workers, k.phase.lock? = some eventId

instance (eventId : Uuid) : Decidable (w.Locked eventId) :=
  inferInstanceAs (Decidable (∃ k ∈ w.workers, _))

def Unused (id : Uuid) : Prop :=
  (∀ n ∈ w.notifications, n.id ≠ id) ∧ ∀ k ∈ w.workers, ∀ n ∈ k.phase.rows, n.id ≠ id

instance (id : Uuid) : Decidable (w.Unused id) := inferInstanceAs (Decidable (_ ∧ _))

/-- `claimNext`. Which due event is the oldest is left open: a worker may skip
events that others have locked. -/
def claim? (i left : ℕ) (eventId : Uuid) : Option World :=
  match w.db.outboxEvents.find? (·.id = eventId) with
  | none => none
  | some e =>
    if e.Due w.clock ∧ ¬ w.Locked eventId then
      let event := ClaimedOutboxEvent.of e e.attemptCount
      some ({ w with started := w.started ++ [eventId] }.put i left (.claimed event w.clock))
    else none

/-- `handle`, up to its first insert. -/
def handle (i left : ℕ) (event : ClaimedOutboxEvent) (now : Time) : World :=
  match plan event with
  | .ok planned => w.put i left (.inserting event now planned [])
  | .error error => w.put i left (.failed event error)

def insert (i left : ℕ) (event : ClaimedOutboxEvent) (now : Time) (p : PlannedNotification)
    (planned : List PlannedNotification) (rows : List Notification) (id : Uuid)
    (refusal : JsString) : World :=
  match insertIfAbsent w.db.users (w.notifications ++ rows) p id event.id now with
  | .ok new => w.put i left (.inserting event now planned (rows ++ new))
  | .error _ => w.put i left (.failed event refusal)

/-- `markProcessed` and the commit. -/
def commit (i left : ℕ) (event : ClaimedOutboxEvent) (rows : List Notification) : World :=
  { w.update (w.db.updateEvents (OutboxEvent.markProcessed event.id w.clock)) with
    notifications := w.notifications ++ rows }.put i left (.processed event)

/-- `recordFailure`, which waits for the lock on the row. -/
def recordFailure? (i left : ℕ) (event : ClaimedOutboxEvent) (error : JsString) : Option World :=
  if w.Locked event.id then none
  else
    let backoffSeconds := BASE_BACKOFF_SECONDS * 2 ^ event.attemptCount
    let failed := OutboxEvent.recordFailure event.id error backoffSeconds w.clock
    some ((w.update (w.db.updateEvents failed)).put i left .idle)

/-- `tryExplain`: only a flagged transfer gets an explanation, and no empty one. -/
def explain (i left : ℕ) (event : ClaimedOutboxEvent) (explanation : Option JsString) : World :=
  match explanation with
  | some text =>
    if event.eventType = .transferRiskFlagged ∧ text ≠ [] then
      (w.update (w.db.updateAssessments (RiskAssessment.explain event.aggregateId text))).put i
        left .idle
    else w.put i left .idle
  | none => w.put i left .idle

def work? (i : ℕ) : Worker → WorkerMove → Option World
  | ⟨0, .idle⟩, .drain batchSize => some (w.put i batchSize .idle)
  | ⟨left + 1, .idle⟩, .claim eventId => w.claim? i left eventId
  | ⟨_ + 1, .idle⟩, .idle => some (w.put i 0 .idle)
  | ⟨left, .claimed c now⟩, .handle => some (w.handle i left c now)
  | ⟨left, .inserting c now (p :: planned) rows⟩, .insert id refusal =>
    if w.Unused id then some (w.insert i left c now p planned rows id refusal) else none
  | ⟨left, .claimed c _⟩, .fault error => some (w.put i left (.failed c error))
  | ⟨left, .inserting c _ _ _⟩, .fault error => some (w.put i left (.failed c error))
  | ⟨left, .inserting c _ [] rows⟩, .commit => some (w.commit i left c rows)
  | ⟨left, .failed c error⟩, .recordFailure => w.recordFailure? i left c error
  | ⟨left, .failed _ _⟩, .loseFailure => some (w.put i left .idle)
  | ⟨left, .processed c⟩, .explain explanation => some (w.explain i left c explanation)
  | _, .crash => some (w.put i 0 .idle)
  | _, _ => none

def initial (db : Db) (clock : Time) (n : ℕ) : World where
  service := Service.initial db clock
  notifications := []
  workers := List.replicate n ⟨0, .idle⟩
  started := []

end World

def World.step? (cfg : Config) (w : World) : Move → Option World
  | .service l =>
    if Service.Fresh w.service l then
      (w.service.step? (body cfg) l).map fun s => { w with service := s }
    else none
  | .markRead notificationId userId => some (w.read notificationId userId)
  | .reopen eventId =>
    if w.Locked eventId then none
    else some (w.update (w.db.updateEvents (OutboxEvent.reopen eventId)))
  | .worker i m => w.workers[i]?.bind fun k => w.work? i k m

section Sample

def transferred : List Event := .start (sampleTransfer 1 2 300) :: steps 0 22 100 ++ [.finish 0]

def sampleWorld : World := World.initial sampleDb 50 2

def delivered : List Move :=
  transferred.map .service ++ [.worker 0 (.drain 50), .worker 0 (.claim 119), .worker 0 .handle,
    .worker 0 (.insert 900 []), .worker 0 .commit]

end Sample

end MoneyMovement
