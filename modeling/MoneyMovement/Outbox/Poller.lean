import MoneyMovement.Outbox.Attempts

/-!
# The poll loop of a worker process

Each process drives its worker by a timer: a tick drains a batch and sets the next timeout when
it is through. The processes share the database with the API and with one another, and may be
stopped or killed and started again. The loop of a process never has two drains or two timeouts
at a time, never dies unless it is stopped, and drains once a second at most.
-/

namespace MoneyMovement

open Txn

section Process

def POLL_INTERVAL_MS : ℕ := 1000

def ERROR_BACKOFF_MS : ℕ := 5000

def DEFAULT_BATCH_SIZE : ℕ := 50

/-- The fields of `OutboxPoller`, and the timeouts of the event loop around it: the handle and
the time of each that is set, and the number of handles and of drains so far. -/
structure OutboxPoller where
  timer : Option ℕ
  running : Bool
  stopped : Bool
  timeouts : List (ℕ × Time)
  handles : ℕ
  polls : ℕ
  deriving DecidableEq

namespace OutboxPoller

def clearTimeout (handle : ℕ) (p : OutboxPoller) : OutboxPoller :=
  { p with timeouts := p.timeouts.filter (·.1 ≠ handle) }

def scheduleNext (delayMs : ℕ) (now : Time) (p : OutboxPoller) : OutboxPoller :=
  if p.stopped then p
  else
    { p with
      timer := some p.handles
      timeouts := p.timeouts ++ [(p.handles, now + delayMs)]
      handles := p.handles + 1 }

/-- A process that has just been started, in the place of one that drained `polls` times. -/
def created (polls : ℕ) : OutboxPoller := ⟨none, false, false, [], 0, polls⟩

def onModuleInit (now : Time) (p : OutboxPoller) : OutboxPoller := p.scheduleNext 0 now

def onApplicationShutdown (p : OutboxPoller) : OutboxPoller :=
  match p.timer with
  | none => { p with stopped := true }
  | some handle => { p.clearTimeout handle with stopped := true, timer := none }

/-- The end of a `tick` that has drained: the next one is scheduled. -/
def settle (delayMs : ℕ) (now : Time) (p : OutboxPoller) : OutboxPoller :=
  { p.scheduleNext delayMs now with running := false }

end OutboxPoller

end Process

section Fleet

/-- The database with the workers, and the process of each worker. -/
structure Fleet where
  world : World
  processes : List OutboxPoller

inductive FleetMove
  /-- Anything but a move of a worker. -/
  | world (m : Move)
  /-- A timeout of process `i` fires. -/
  | fire (i handle : ℕ)
  | work (i : ℕ) (m : WorkerMove)
  /-- The claim throws, which ends the drain like an empty outbox. -/
  | claimFails (i : ℕ)
  /-- The drain is through. -/
  | finish (i : ℕ)
  /-- The drain throws. -/
  | fail (i : ℕ)
  | shutdown (i : ℕ)
  /-- Process `i` is killed, wherever it stands, and started again. -/
  | restart (i : ℕ)

/-- An event that `claimNext` may return. -/
def World.Claimable (w : World) (e : OutboxEvent) : Prop := e.Due w.clock ∧ ¬ w.Locked e.id

instance (w : World) (e : OutboxEvent) : Decidable (w.Claimable e) :=
  inferInstanceAs (Decidable (_ ∧ _))

/-- The moves that go on with a drain: a claim takes one of the oldest events, and none only
if there is none. -/
def World.Proceeds (w : World) : WorkerMove → Prop
  | .claim eventId => ∃ e ∈ w.db.outboxEvents, e.id = eventId ∧
      ∀ e' ∈ w.db.outboxEvents, w.Claimable e' → e.occurredAt ≤ e'.occurredAt
  | .idle => ∀ e ∈ w.db.outboxEvents, ¬ w.Claimable e
  | .drain _ => False
  | .crash => False
  | _ => True

instance (w : World) : DecidablePred w.Proceeds := fun m => by
  unfold World.Proceeds
  split <;> infer_instance

namespace Fleet

variable (cfg : Config)

def put (f : Fleet) (i : ℕ) (p : OutboxPoller) : Fleet :=
  { f with processes := f.processes.set i p }

def withWorld (f : Fleet) (w : World) : Fleet := { f with world := w }

def tick? (f : Fleet) (i : ℕ) (p : OutboxPoller) : Option Fleet :=
  if p.running ∨ p.stopped then some (f.put i p)
  else
    (f.world.step? cfg (.worker i (.drain DEFAULT_BATCH_SIZE))).map fun w =>
      (f.withWorld w).put i { p with running := true, polls := p.polls + 1 }

def fire? (f : Fleet) (i handle : ℕ) : Option Fleet :=
  f.processes[i]?.bind fun p =>
    match p.timeouts.find? (·.1 = handle) with
    | none => none
    | some timeout =>
      if timeout.2 ≤ f.world.clock then f.tick? cfg i (p.clearTimeout handle) else none

def step? (f : Fleet) : FleetMove → Option Fleet
  | .world (.worker _ _) => none
  | .world m => (f.world.step? cfg m).map f.withWorld
  | .fire i handle => f.fire? cfg i handle
  | .work i m =>
    if f.world.Proceeds m then (f.world.step? cfg (.worker i m)).map f.withWorld else none
  | .claimFails i => (f.world.step? cfg (.worker i .idle)).map f.withWorld
  | .finish i =>
    match f.processes[i]?, f.world.workers[i]? with
    | some p, some ⟨0, .idle⟩ =>
      if p.running then some (f.put i (p.settle POLL_INTERVAL_MS f.world.clock)) else none
    | _, _ => none
  | .fail i =>
    match f.processes[i]?, f.world.workers[i]? with
    | some p, some ⟨_, .processed _⟩ =>
      (f.world.step? cfg (.worker i .crash)).map fun w =>
        (f.withWorld w).put i (p.settle ERROR_BACKOFF_MS w.clock)
    | _, _ => none
  | .shutdown i => f.processes[i]?.map fun p => f.put i p.onApplicationShutdown
  | .restart i =>
    f.processes[i]?.bind fun p => (f.world.step? cfg (.worker i .crash)).map fun w =>
      (f.withWorld w).put i ((OutboxPoller.created p.polls).onModuleInit w.clock)

def initial (db : Db) (clock : Time) (n : ℕ) : Fleet where
  world := World.initial db clock n
  processes := List.replicate n ((OutboxPoller.created 0).onModuleInit clock)

end Fleet

abbrev Fleet.Reached (cfg : Config) (permits : Fleet → FleetMove → Prop) : Fleet → Fleet → Prop :=
  Reaches (Fleet.step? cfg) permits

end Fleet

section Steps

variable {cfg : Config} {f f' : Fleet}

inductive Polled (cfg : Config) (f : Fleet) : FleetMove → Fleet → Prop
  | world (m : Move) (w : World) (hm : ∀ i x, m ≠ .worker i x) (hw : Moved cfg f.world m w) :
      Polled cfg f (.world m) (f.withWorld w)
  | tick (i : ℕ) (p : OutboxPoller) (timeout : ℕ × Time) (hp : f.processes[i]? = some p)
      (ht : timeout ∈ p.timeouts) (hdue : timeout.2 ≤ f.world.clock) (hr : p.running = false)
      (hs : p.stopped = false) (hk : f.world.workers[i]? = some ⟨0, .idle⟩) :
      Polled cfg f (.fire i timeout.1)
        ((f.withWorld (f.world.put i DEFAULT_BATCH_SIZE .idle)).put i
          { p.clearTimeout timeout.1 with running := true, polls := p.polls + 1 })
  | turnedAway (i : ℕ) (p : OutboxPoller) (timeout : ℕ × Time) (hp : f.processes[i]? = some p)
      (ht : timeout ∈ p.timeouts) (hr : p.running = true ∨ p.stopped = true) :
      Polled cfg f (.fire i timeout.1) (f.put i (p.clearTimeout timeout.1))
  | work (i : ℕ) (k : Worker) (m : WorkerMove) (w : World) (hm : f.world.Proceeds m)
      (hk : f.world.workers[i]? = some k) (hw : Worked f.world i k m w) :
      Polled cfg f (.work i m) (f.withWorld w)
  | claimFails (i left : ℕ) (hk : f.world.workers[i]? = some ⟨left + 1, .idle⟩) :
      Polled cfg f (.claimFails i) (f.withWorld (f.world.put i 0 .idle))
  | finish (i : ℕ) (p : OutboxPoller) (hp : f.processes[i]? = some p) (hr : p.running = true)
      (hk : f.world.workers[i]? = some ⟨0, .idle⟩) :
      Polled cfg f (.finish i) (f.put i (p.settle POLL_INTERVAL_MS f.world.clock))
  | fail (i left : ℕ) (c : ClaimedOutboxEvent) (p : OutboxPoller)
      (hp : f.processes[i]? = some p) (hk : f.world.workers[i]? = some ⟨left, .processed c⟩) :
      Polled cfg f (.fail i) ((f.withWorld (f.world.put i 0 .idle)).put i
        (p.settle ERROR_BACKOFF_MS f.world.clock))
  | shutdown (i : ℕ) (p : OutboxPoller) (hp : f.processes[i]? = some p) :
      Polled cfg f (.shutdown i) (f.put i p.onApplicationShutdown)
  | restart (i : ℕ) (k : Worker) (p : OutboxPoller) (hp : f.processes[i]? = some p)
      (hk : f.world.workers[i]? = some k) :
      Polled cfg f (.restart i) ((f.withWorld (f.world.put i 0 .idle)).put i
        ((OutboxPoller.created p.polls).onModuleInit f.world.clock))

theorem step?_worked {w w' : World} {i : ℕ} {m : WorkerMove}
    (h : w.step? cfg (.worker i m) = some w') :
    ∃ k, w.workers[i]? = some k ∧ Worked w i k m w' := by
  obtain ⟨k, hk, hw⟩ := Option.bind_eq_some_iff.1 h
  exact ⟨k, hk, work?_worked hw⟩

theorem Fleet.step?_polled {m : FleetMove} (h : f.step? cfg m = some f') : Polled cfg f m f' := by
  cases m with
  | world m =>
    cases m with
    | worker i x => cases h
    | _ =>
      simp only [Fleet.step?] at h
      obtain ⟨w, hw, rfl⟩ := Option.map_eq_some_iff.1 h
      exact .world _ w nofun (step?_moved hw)
  | fire i handle =>
    obtain ⟨p, hp, h⟩ := Option.bind_eq_some_iff.1 h
    split at h
    · cases h
    · next timeout ht =>
      obtain ⟨hmem, rfl⟩ := find?_spec ht
      split_ifs at h with hdue
      unfold Fleet.tick? at h
      split_ifs at h with hr
      · cases h
        exact .turnedAway i p timeout hp hmem hr
      · obtain ⟨w, hw, rfl⟩ := Option.map_eq_some_iff.1 h
        obtain ⟨k, hk, hw⟩ := step?_worked hw
        obtain ⟨hrunning, hstopped⟩ := not_or.1 hr
        cases hw with
        | drain n =>
          exact .tick i p timeout hp hmem hdue (Bool.eq_false_iff.2 hrunning)
            (Bool.eq_false_iff.2 hstopped) hk
  | work i m =>
    simp only [Fleet.step?] at h
    split_ifs at h with hm
    obtain ⟨w, hw, rfl⟩ := Option.map_eq_some_iff.1 h
    obtain ⟨k, hk, hw⟩ := step?_worked hw
    exact .work i k m w hm hk hw
  | claimFails i =>
    obtain ⟨w, hw, rfl⟩ := Option.map_eq_some_iff.1 h
    obtain ⟨k, hk, hw⟩ := step?_worked hw
    cases hw with
    | idle left => exact .claimFails i left hk
  | finish i =>
    simp only [Fleet.step?] at h
    split at h
    · next p hp hk =>
      split_ifs at h with hr
      cases h
      exact .finish i p hp hr hk
    · cases h
  | fail i =>
    simp only [Fleet.step?] at h
    split at h
    · next p left c hp hk =>
      obtain ⟨w, hw, rfl⟩ := Option.map_eq_some_iff.1 h
      obtain ⟨k, -, hw⟩ := step?_worked hw
      cases hw with
      | crash => exact .fail i left c p hp hk
    · cases h
  | shutdown i =>
    obtain ⟨p, hp, rfl⟩ := Option.map_eq_some_iff.1 h
    exact .shutdown i p hp
  | restart i =>
    obtain ⟨p, hp, h⟩ := Option.bind_eq_some_iff.1 h
    obtain ⟨w, hw, rfl⟩ := Option.map_eq_some_iff.1 h
    obtain ⟨k, hk, hw⟩ := step?_worked hw
    cases hw with
    | crash => exact .restart i k p hp hk

theorem Worked.workers {w w' : World} {i : ℕ} {k : Worker} {m : WorkerMove}
    (h : Worked w i k m w') : ∃ q, w'.workers = w.workers.set i q := by
  cases h <;> exact ⟨_, rfl⟩

theorem Moved.workers {w w' : World} {m : Move} (h : Moved cfg w m w')
    (hm : ∀ i x, m ≠ .worker i x) : w'.workers = w.workers := by
  cases h with
  | worker i k x w' hk hw => exact (hm i x rfl).elim
  | _ => rfl

/-- A worker whose drain is through goes on only by a new one. -/
theorem Worked.not_idle {w w' : World} {i : ℕ} {m : WorkerMove} (hm : w.Proceeds m) :
    ¬ Worked w i ⟨0, .idle⟩ m w' := by
  intro h
  cases h with
  | drain n => exact hm
  | fault left phase c error hc => rcases hc with ⟨now, h⟩ | ⟨now, planned, rows, h⟩ <;> cases h
  | crash => exact hm

end Steps

section Loop

/-- Where the loop of a process can be, beside its worker. -/
inductive OutboxPoller.Looping (k : Worker) : OutboxPoller → Prop
  | draining (timer : Option ℕ) (stopped : Bool) (handles polls : ℕ) :
      Looping k ⟨timer, true, stopped, [], handles, polls⟩
  | waiting (handle : ℕ) (due : Time) (handles polls : ℕ) (hk : k = ⟨0, .idle⟩) :
      Looping k ⟨some handle, false, false, [(handle, due)], handles, polls⟩
  | stopped (timer : Option ℕ) (handles polls : ℕ) (hk : k = ⟨0, .idle⟩) :
      Looping k ⟨timer, false, true, [], handles, polls⟩

open OutboxPoller

variable {p : OutboxPoller} {k k' : Worker}

theorem looping_onModuleInit (polls : ℕ) (now : Time) (hk : k = ⟨0, .idle⟩) :
    ((created polls).onModuleInit now).Looping k := .waiting _ _ _ _ hk

theorem OutboxPoller.Looping.settle (h : p.Looping k) (hr : p.running = true) (delayMs : ℕ)
    (now : Time) (hk : k' = ⟨0, .idle⟩) : (p.settle delayMs now).Looping k' := by
  cases h with
  | draining timer stopped handles polls =>
    cases stopped with
    | true => exact .stopped _ _ _ hk
    | false => exact .waiting _ _ _ _ hk
  | waiting handle due handles polls hk' => cases hr
  | stopped timer handles polls hk' => cases hr

theorem OutboxPoller.Looping.shutdown (h : p.Looping k) : p.onApplicationShutdown.Looping k := by
  cases h with
  | draining timer stopped handles polls =>
    cases timer with
    | none => exact .draining _ _ _ _
    | some handle => exact .draining _ _ _ _
  | waiting handle due handles polls hk =>
    have hclear : [(handle, due)].filter (·.1 ≠ handle) = [] := by simp
    simp only [onApplicationShutdown, clearTimeout, hclear]
    exact .stopped _ _ _ hk
  | stopped timer handles polls hk =>
    cases timer with
    | none => exact .stopped _ _ _ hk
    | some handle => exact .stopped _ _ _ hk

/-- A timeout is set only while the loop waits, so its tick is never turned away. -/
theorem OutboxPoller.Looping.waits (h : p.Looping k) {timeout : ℕ × Time}
    (ht : timeout ∈ p.timeouts) : p.running = false ∧ p.stopped = false ∧
      (p.clearTimeout timeout.1).timeouts = [] := by
  cases h with
  | draining timer stopped handles polls => exact (List.not_mem_nil ht).elim
  | waiting handle due handles polls hk =>
    obtain rfl := List.mem_singleton.1 ht
    exact ⟨rfl, rfl, by simp [clearTimeout]⟩
  | stopped timer handles polls hk => exact (List.not_mem_nil ht).elim

/-- A worker at work is in a drain of its loop. -/
theorem OutboxPoller.Looping.busy (h : p.Looping k) (hk : k ≠ ⟨0, .idle⟩) :
    p.running = true ∧ ∀ k', p.Looping k' := by
  cases h with
  | draining timer stopped handles polls => exact ⟨rfl, fun _ => .draining _ _ _ _⟩
  | waiting handle due handles polls hidle => exact (hk hidle).elim
  | stopped timer handles polls hidle => exact (hk hidle).elim

structure Fleet.Alive (f : Fleet) : Prop where
  count : f.processes.length = f.world.workers.length
  loops : ∀ (i : ℕ) p k, f.processes[i]? = some p → f.world.workers[i]? = some k → p.Looping k

variable {cfg : Config} {f f' : Fleet} {permits : Fleet → FleetMove → Prop}

theorem set_of_getElem? {α : Type} {l : List α} {i : ℕ} {a : α} (h : l[i]? = some a) :
    l.set i a = l := by
  obtain ⟨hlt, rfl⟩ := List.getElem?_eq_some_iff.1 h
  exact List.set_getElem_self hlt

/-- Process `i` and its worker have gone on, the others are as they were. -/
theorem Fleet.Alive.set (h : f.Alive) {i : ℕ} {q : OutboxPoller} {k : Worker}
    (hp : f'.processes = f.processes.set i q)
    (hk : f'.world.workers = f.world.workers.set i k) (hq : q.Looping k) : f'.Alive := by
  refine ⟨by rw [hp, hk, List.length_set, List.length_set, h.count], fun j p x hj hx => ?_⟩
  rw [hp] at hj
  rw [hk] at hx
  by_cases hij : i = j
  · subst hij
    rw [List.getElem?_set_self (by have := (List.getElem?_eq_some_iff.1 hj).1; simpa using this)]
      at hj
    rw [List.getElem?_set_self (by have := (List.getElem?_eq_some_iff.1 hx).1; simpa using this)]
      at hx
    cases hj
    cases hx
    exact hq
  · rw [List.getElem?_set_ne hij] at hj hx
    exact h.loops j p x hj hx

theorem Fleet.Alive.process (h : f.Alive) {i : ℕ} {k : Worker}
    (hk : f.world.workers[i]? = some k) : ∃ p, f.processes[i]? = some p := by
  have hlt := (List.getElem?_eq_some_iff.1 hk).1
  exact ⟨_, List.getElem?_eq_getElem (h.count ▸ hlt)⟩

theorem Fleet.Alive.worker (h : f.Alive) {i : ℕ} (hp : f.processes[i]? = some p) :
    ∃ k, f.world.workers[i]? = some k := by
  have hlt := (List.getElem?_eq_some_iff.1 hp).1
  exact ⟨_, List.getElem?_eq_getElem (h.count ▸ hlt)⟩

/-- The worker of process `i` goes on with its drain. -/
theorem Fleet.Alive.work (h : f.Alive) {i : ℕ} {w : World} {q : Worker}
    (hk : f.world.workers[i]? = some k) (hbusy : k ≠ ⟨0, .idle⟩)
    (hw : w.workers = f.world.workers.set i q) : (f.withWorld w).Alive := by
  obtain ⟨p, hp⟩ := h.process hk
  exact h.set (set_of_getElem? hp).symm hw (((h.loops i p k hp hk).busy hbusy).2 q)

theorem Fleet.Alive.step (h : f.Alive) {m : FleetMove} (hs : f.step? cfg m = some f') :
    f'.Alive := by
  cases Fleet.step?_polled hs with
  | world m w hm hw =>
    have hworkers : (f.withWorld w).world.workers = f.world.workers := hw.workers hm
    exact ⟨h.count.trans (by rw [hworkers]), fun i p k hp hk => h.loops i p k hp (hworkers ▸ hk)⟩
  | tick i p timeout hp ht hdue hr hst hk =>
    refine h.set (i := i) rfl rfl ?_
    obtain ⟨-, -, hnone⟩ := (h.loops i p _ hp hk).waits ht
    simp only [hnone]
    exact .draining _ _ _ _
  | turnedAway i p timeout hp ht hr =>
    obtain ⟨k, hk⟩ := h.worker hp
    obtain ⟨hrunning, hstopped, -⟩ := (h.loops i p k hp hk).waits ht
    simp [hrunning, hstopped] at hr
  | work i k m w hm hk hw =>
    obtain ⟨q, hq⟩ := hw.workers
    exact h.work hk (fun hidle => Worked.not_idle hm (hidle ▸ hw)) hq
  | claimFails i left hk => exact h.work (q := ⟨0, .idle⟩) hk (by simp) rfl
  | finish i p hp hr hk =>
    exact h.set (i := i) rfl (set_of_getElem? hk).symm ((h.loops i p _ hp hk).settle hr _ _ rfl)
  | fail i left c p hp hk =>
    have hloop := h.loops i p _ hp hk
    exact h.set (i := i) rfl rfl (hloop.settle (hloop.busy (by simp)).1 _ _ rfl)
  | shutdown i p hp =>
    obtain ⟨k, hk⟩ := h.worker hp
    exact h.set (i := i) rfl (set_of_getElem? hk).symm (h.loops i p k hp hk).shutdown
  | restart i k p hp hk =>
    exact h.set (i := i) rfl rfl (looping_onModuleInit _ _ rfl)

theorem Fleet.Alive.reach {db₀ : Db} {clock : Time} {n : ℕ}
    (h : Fleet.Reached cfg permits (Fleet.initial db₀ clock n) f) : f.Alive := by
  induction h with
  | refl =>
    refine ⟨by simp [Fleet.initial, World.initial], fun i p k hp hk => ?_⟩
    obtain ⟨-, rfl⟩ := List.mem_replicate.1 (List.mem_of_getElem? hp)
    obtain ⟨-, rfl⟩ := List.mem_replicate.1 (List.mem_of_getElem? hk)
    exact looping_onModuleInit _ _ rfl
  | tail m _ _ hs ih => exact ih.step hs

end Loop

section Pace

open OutboxPoller

/-- No drain of the process starts before. -/
def OutboxPoller.earliest (now : Time) (p : OutboxPoller) : Time :=
  if p.running then now + POLL_INTERVAL_MS
  else match p.timeouts with
    | [] => now
    | timeout :: _ => max timeout.2 now

inductive Paced (now now' : Time) (p p' : OutboxPoller) : Prop
  | kept (hnow : now ≤ now') (hpolls : p'.polls = p.polls)
    (hstopped : p.stopped = true → p'.stopped = true)
    (hearliest : p'.stopped = false → p.earliest now ≤ p'.earliest now')
  | polled (hnow : now' = now) (hpolls : p'.polls = p.polls + 1) (hopen : p.stopped = false)
    (hdue : p.earliest now = now) (hnext : p'.earliest now' = now + POLL_INTERVAL_MS)

variable {cfg : Config} {f f' : Fleet} {permits : Fleet → FleetMove → Prop} {p q : OutboxPoller}
  {k : Worker} {now now' : Time}

theorem earliest_mono (p : OutboxPoller) (h : now ≤ now') : p.earliest now ≤ p.earliest now' := by
  unfold OutboxPoller.earliest
  split_ifs
  · exact add_le_add_left h _
  · split
    · exact h
    · exact max_le_max_left _ h

theorem le_earliest (p : OutboxPoller) (now : Time) : now ≤ p.earliest now := by
  unfold OutboxPoller.earliest
  split_ifs
  · exact Int.le_add_of_nonneg_right (Int.natCast_nonneg _)
  · split
    · exact le_rfl
    · exact le_max_right _ _

theorem Paced.refl (p : OutboxPoller) (h : now ≤ now') : Paced now now' p p :=
  .kept h rfl id fun _ => earliest_mono p h

theorem OutboxPoller.Looping.settle_paced (h : p.Looping k) (hr : p.running = true) {delayMs : ℕ}
    (hdelay : POLL_INTERVAL_MS ≤ delayMs) : Paced now now p (p.settle delayMs now) := by
  cases h with
  | draining timer stopped handles polls =>
    cases stopped with
    | true => exact .kept le_rfl rfl id nofun
    | false =>
      refine .kept le_rfl rfl id fun _ => le_trans ?_ (le_max_left _ _)
      exact add_le_add_right (Int.ofNat_le.2 hdelay) now
  | waiting handle due handles polls hk => cases hr
  | stopped timer handles polls hk => cases hr

theorem OutboxPoller.Looping.tick_paced (h : p.Looping k) {timeout : ℕ × Time}
    (ht : timeout ∈ p.timeouts) (hdue : timeout.2 ≤ now) : Paced now now p
      { p.clearTimeout timeout.1 with running := true, polls := p.polls + 1 } := by
  cases h with
  | draining timer stopped handles polls => exact (List.not_mem_nil ht).elim
  | waiting handle due handles polls hk =>
    obtain rfl := List.mem_singleton.1 ht
    exact .polled rfl rfl rfl (max_eq_right hdue) rfl
  | stopped timer handles polls hk => exact (List.not_mem_nil ht).elim

theorem shutdown_paced (p : OutboxPoller) : Paced now now p p.onApplicationShutdown := by
  cases ht : p.timer with
  | none =>
    simp only [onApplicationShutdown, ht]
    exact .kept le_rfl rfl (fun _ => rfl) nofun
  | some handle =>
    simp only [onApplicationShutdown, ht]
    exact .kept le_rfl rfl (fun _ => rfl) nofun

theorem Worked.clock {w w' : World} {i : ℕ} {m : WorkerMove} (h : Worked w i k m w') :
    w'.clock = w.clock := by
  cases h <;> rfl

theorem Moved.clock_le {w w' : World} {m : Move} (h : Moved cfg w m w') : w.clock ≤ w'.clock := by
  cases h with
  | service l s hf hs =>
    have hreach : Sys.Reach (body cfg) (fun _ _ => True) w.service s := .tail l .refl trivial hs
    exact Sys.clock_mono hreach
  | worker i k x w' hk hw => exact hw.clock.ge
  | _ => exact le_rfl

/-- Process `j` after a move, unless the move starts it again. -/
theorem Fleet.Alive.paced (h : f.Alive) {m : FleetMove} (hs : f.step? cfg m = some f') {j : ℕ}
    (hj : m ≠ .restart j) (hp : f.processes[j]? = some p) :
    ∃ p', f'.processes[j]? = some p' ∧ Paced f.world.clock f'.world.clock p p' := by
  have same {f' : Fleet} (hproc : f'.processes = f.processes)
      (hclock : f.world.clock ≤ f'.world.clock) :
      ∃ p', f'.processes[j]? = some p' ∧ Paced f.world.clock f'.world.clock p p' :=
    ⟨p, hproc ▸ hp, .refl p hclock⟩
  have set {f' : Fleet} {i : ℕ} {q : OutboxPoller} (hproc : f'.processes = f.processes.set i q)
      (hclock : f'.world.clock = f.world.clock)
      (hq : i = j → Paced f.world.clock f.world.clock p q) :
      ∃ p', f'.processes[j]? = some p' ∧ Paced f.world.clock f'.world.clock p p' := by
    rw [hproc, hclock]
    by_cases hij : i = j
    · subst hij
      exact ⟨q, getElem?_set_of_getElem? hp, hq rfl⟩
    · exact ⟨p, (List.getElem?_set_ne hij).trans hp, .refl p le_rfl⟩
  cases Fleet.step?_polled hs with
  | world m w hm hw => exact same rfl hw.clock_le
  | tick i p' timeout hp' ht hdue hr hst hk =>
    refine set (i := i) rfl rfl fun hij => ?_
    subst hij
    obtain rfl := Option.some.inj (hp.symm.trans hp')
    exact (h.loops i p _ hp hk).tick_paced ht hdue
  | turnedAway i p' timeout hp' ht hr =>
    obtain ⟨k, hk⟩ := h.worker hp'
    obtain ⟨hrunning, hstopped, -⟩ := (h.loops i p' k hp' hk).waits ht
    simp [hrunning, hstopped] at hr
  | work i k m w hm hk hw => exact same rfl hw.clock.ge
  | claimFails i left hk => exact same rfl le_rfl
  | finish i p' hp' hr hk =>
    refine set (i := i) rfl rfl fun hij => ?_
    subst hij
    obtain rfl := Option.some.inj (hp.symm.trans hp')
    exact (h.loops i p _ hp hk).settle_paced hr le_rfl
  | fail i left c p' hp' hk =>
    refine set (i := i) rfl rfl fun hij => ?_
    subst hij
    obtain rfl := Option.some.inj (hp.symm.trans hp')
    have hloop := h.loops i p _ hp hk
    exact hloop.settle_paced (hloop.busy (by simp)).1 (by decide)
  | shutdown i p' hp' =>
    refine set (i := i) rfl rfl fun hij => ?_
    subst hij
    obtain rfl := Option.some.inj (hp.symm.trans hp')
    exact shutdown_paced p
  | restart i k p' hp' hk =>
    exact set (i := i) rfl rfl fun hij => (hj (hij ▸ rfl)).elim

/-- The drains of a process since it had done `polls` at `start`. -/
structure OutboxPoller.Rate (polls : ℕ) (start now : Time) (p : OutboxPoller) : Prop where
  bound : (POLL_INTERVAL_MS : ℤ) * p.polls ≤
    POLL_INTERVAL_MS * polls + (now - start) + POLL_INTERVAL_MS
  next : p.stopped = false →
    (POLL_INTERVAL_MS : ℤ) * p.polls ≤ POLL_INTERVAL_MS * polls + (p.earliest now - start)

theorem OutboxPoller.Rate.step {polls : ℕ} {start : Time} (h : p.Rate polls start now)
    (hp : Paced now now' p q) : q.Rate polls start now' := by
  cases hp with
  | kept hnow hpolls hstopped hearliest =>
    refine ⟨?_, fun hq => ?_⟩
    · rw [hpolls]
      linarith [h.bound]
    · have hopen : p.stopped = false := by
        by_contra hp
        rw [hstopped (Bool.eq_true_of_not_eq_false hp)] at hq
        cases hq
      rw [hpolls]
      linarith [h.next hopen, hearliest hq]
  | polled hnow hpolls hopen hdue hnext =>
    have hlast := h.next hopen
    rw [hdue] at hlast
    refine ⟨?_, fun _ => ?_⟩
    · rw [hpolls, hnow]
      push_cast
      linarith
    · rw [hpolls, hnext]
      push_cast
      linarith

def FleetMove.Spares (i : ℕ) : FleetMove → Prop
  | .restart j => j ≠ i
  | _ => True

instance (i : ℕ) : DecidablePred (FleetMove.Spares i) := fun m => by
  unfold FleetMove.Spares
  split <;> infer_instance

theorem Fleet.Alive.rate (h : f.Alive) {i : ℕ} (hp : f.processes[i]? = some p)
    (h' : Fleet.Reached cfg (fun _ m => m.Spares i) f f') : f'.Alive ∧ ∃ p',
      f'.processes[i]? = some p' ∧ p'.Rate p.polls f.world.clock f'.world.clock ∧
        (p.stopped = true → p'.stopped = true ∧ p'.polls = p.polls) := by
  induction h' with
  | refl =>
    refine ⟨h, p, hp, ⟨?_, fun _ => ?_⟩, fun hs => ⟨hs, rfl⟩⟩
    · simp [POLL_INTERVAL_MS]
    · linarith [le_earliest p f.world.clock]
  | tail m _ hok hs ih =>
    obtain ⟨halive, p', hp', hrate, hstopped⟩ := ih
    have hspares : m ≠ .restart i := by
      rintro rfl
      exact hok rfl
    obtain ⟨p'', hp'', hpaced⟩ := halive.paced hs hspares hp'
    refine ⟨halive.step hs, p'', hp'', hrate.step hpaced, fun hstop => ?_⟩
    obtain ⟨hstop', hpolls⟩ := hstopped hstop
    cases hpaced with
    | kept hnow hkept hkeeps hearliest => exact ⟨hkeeps hstop', hkept.trans hpolls⟩
    | polled hnow hmore hopen hdue hnext =>
      rw [hopen] at hstop'
      cases hstop'

/-- A process drains or waits for one timeout, the one its poller knows of, and does neither
only when it has been stopped; and while it does not drain its worker holds nothing. -/
structure OneLoop (f : Fleet) (i : ℕ) (p : OutboxPoller) : Prop where
  running : p.running = true → p.timeouts = []
  waiting : p.running = false → p.stopped = false →
    ∃ handle due, p.timeouts = [(handle, due)] ∧ p.timer = some handle
  stopped : p.stopped = true → p.timeouts = []
  idle : p.running = false → f.world.workers[i]? = some ⟨0, .idle⟩

theorem OutboxPoller.Looping.one {i : ℕ} (h : p.Looping k)
    (hk : f.world.workers[i]? = some k) : OneLoop f i p := by
  cases h with
  | draining timer stopped handles polls => exact ⟨fun _ => rfl, nofun, fun _ => rfl, nofun⟩
  | waiting handle due handles polls hidle =>
    exact ⟨nofun, fun _ _ => ⟨handle, due, rfl, rfl⟩, nofun, fun _ => hidle ▸ hk⟩
  | stopped timer handles polls hidle => exact ⟨nofun, nofun, fun _ => rfl, fun _ => hidle ▸ hk⟩

/-- However the processes, the API and one another's failures interleave, the loop of a
process is one loop; it starts a drain a second at most, and none once it is stopped. -/
theorem polls_once_a_second {db₀ : Db} {clock : Time} {n : ℕ}
    (h : Fleet.Reached cfg permits (Fleet.initial db₀ clock n) f) {i : ℕ}
    (hp : f.processes[i]? = some p) :
    OneLoop f i p ∧ ∀ f', Fleet.Reached cfg (fun _ m => m.Spares i) f f' →
      ∃ p', f'.processes[i]? = some p' ∧
        (1000 : ℤ) * p'.polls ≤ 1000 * p.polls + (f'.world.clock - f.world.clock) + 1000 ∧
        (p.stopped = true → p'.polls = p.polls) := by
  have halive := Fleet.Alive.reach h
  obtain ⟨k, hk⟩ := halive.worker hp
  refine ⟨(halive.loops i p k hp hk).one hk, fun f' h' => ?_⟩
  obtain ⟨-, p', hp', hrate, hstopped⟩ := halive.rate hp h'
  exact ⟨p', hp', hrate.bound, fun hs => (hstopped hs).2⟩

def sampleFleet : Fleet := Fleet.initial sampleDb 50 2

def emptyPolls : List FleetMove :=
  [.fire 0 0, .work 0 .idle, .finish 0, .world (.service (.tick 1050)), .fire 0 1]

theorem polls_once_a_second_empty : ∃ (f' : Fleet) (p' : OutboxPoller),
    f'.processes[0]? = some p' ∧ p'.polls = 2 ∧
    (1000 : ℤ) * p'.polls ≤ 1000 * 0 + (f'.world.clock - 50) + 1000 := by
  have hrun : (runs (permitted (Fleet.step? sampleConfig) fun _ m => m.Spares 0) sampleFleet
      emptyPolls).any (fun f' => (f'.processes[0]?.map OutboxPoller.polls) = some 2) := by
    decide +kernel
  obtain ⟨f', hf', hend⟩ := (Option.any_eq_true _ _).1 hrun
  obtain ⟨p', hp', hpolls⟩ := Option.map_eq_some_iff.1 (of_decide_eq_true hend)
  have hstart : Fleet.Reached sampleConfig (fun _ _ => True) sampleFleet sampleFleet := .refl
  have hall := (polls_once_a_second hstart (i := 0) rfl).2 f' (reaches_of_permitted hf')
  obtain ⟨p'', hp'', hbound, -⟩ := hall
  obtain rfl := Option.some.inj (hp'.symm.trans hp'')
  exact ⟨f', p', hp', hpolls, hbound⟩

end Pace

end MoneyMovement
