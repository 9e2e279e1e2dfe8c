import MoneyMovement.Outbox.Poller

/-!
# No event starves

One worker takes the oldest due event, and an event that fails waits a little longer each time.
So an event that keeps failing holds the others up for its few attempts only: as long as the
bookkeeping works, an event is settled within a number of polls that depends on the events that
are not younger.
-/

namespace MoneyMovement

open Txn

section Conditions

/-- The moves in which only handlers fail: no event is reopened, no claim and no record of a
failure is lost, and the process is not killed. -/
def FleetMove.healthy : FleetMove → Bool
  | .world (.reopen _) => false
  | .work _ .loseFailure => false
  | .claimFails _ => false
  | .fail _ => false
  | .restart _ => false
  | _ => true

def Healthy (m : FleetMove) : Prop := m.healthy = true

instance : DecidablePred Healthy := fun m => inferInstanceAs (Decidable (m.healthy = true))

def Phase.claim? : Phase → Option ClaimedOutboxEvent
  | .claimed c _ | .inserting c _ _ _ | .failed c _ => some c
  | _ => none

/-- The attempts that have come to their end, of an event that occurred by `latest`. -/
def OutboxEvent.spent (latest : Time) (e : OutboxEvent) : ℕ :=
  if e.occurredAt ≤ latest then e.attemptCount + if e.processedAt.isSome then 1 else 0 else 0

def World.spent (latest : Time) (w : World) : ℕ :=
  (w.db.outboxEvents.map (OutboxEvent.spent latest)).sum

def OutboxEvent.Unsettled (e : OutboxEvent) : Prop :=
  e.processedAt = none ∧ e.attemptCount < MAX_ATTEMPTS

instance (e : OutboxEvent) : Decidable e.Unsettled := inferInstanceAs (Decidable (_ ∧ _))

/-- The time from the next poll until `due`, rounded up to a poll. -/
def gap (due earliest : Time) : ℤ :=
  if due ≤ earliest then 0 else due - earliest + (POLL_INTERVAL_MS - 1)

/-- For how long polls may still come before the event is due. -/
def OutboxPoller.wait (now : Time) (p : OutboxPoller) (e : OutboxEvent) : ℤ :=
  if p.stopped then 0 else gap e.nextAttemptAt (p.earliest now)

/-- The drain under way tries an event that is not younger: the event is due and nothing has
been claimed yet, or what has been claimed is not younger. -/
def World.Fruitful (w : World) (k : Worker) (e : OutboxEvent) : Prop :=
  (k.left = DEFAULT_BATCH_SIZE ∧ k.phase = .idle ∧ e.nextAttemptAt ≤ w.clock) ∨
    ∃ c, k.phase.claim? = some c ∧ ∃ e' ∈ w.db.outboxEvents, e'.id = c.id ∧
      e'.occurredAt ≤ e.occurredAt

end Conditions

section Waits

variable {cfg : Config} {w w' : World} {p q : OutboxPoller} {k : Worker} {now now' : Time}
  {e : OutboxEvent}

theorem gap_nonneg (due earliest : Time) : 0 ≤ gap due earliest := by
  unfold gap
  split_ifs with hle
  · exact le_rfl
  · have hpos : (1 : ℤ) ≤ POLL_INTERVAL_MS := by decide
    linarith

theorem gap_antitone {due earliest later : Time} (h : earliest ≤ later) :
    gap due later ≤ gap due earliest := by
  unfold gap
  split_ifs with hlater hearliest hearliest
  · exact le_rfl
  · have hpos : (1 : ℤ) ≤ POLL_INTERVAL_MS := by decide
    linarith
  · exact (hlater (hearliest.trans h)).elim
  · linarith

/-- A poll before the event is due takes its share of the gap. -/
theorem gap_poll {due : Time} (h : now < due) :
    POLL_INTERVAL_MS + gap due (now + POLL_INTERVAL_MS) ≤ gap due now := by
  have hnext : (now + 1 : ℤ) ≤ due := h
  unfold gap
  rw [if_neg (not_le.2 h)]
  split_ifs <;> linarith

/-- A backoff of so many seconds lets as many polls pass. -/
theorem gap_backoff (now : Time) (seconds : ℕ) :
    gap (now + seconds * 1000) (now + POLL_INTERVAL_MS) ≤ POLL_INTERVAL_MS * seconds := by
  have hms : (POLL_INTERVAL_MS : ℤ) = 1000 := rfl
  have hseconds : (0 : ℤ) ≤ seconds := Int.natCast_nonneg _
  unfold gap
  rw [hms]
  split_ifs <;> linarith

theorem wait_nonneg (p : OutboxPoller) (now : Time) (e : OutboxEvent) : 0 ≤ p.wait now e := by
  unfold OutboxPoller.wait
  split_ifs
  · exact le_rfl
  · exact gap_nonneg _ _

/-- An event that is due is not waited for. -/
theorem wait_of_due (p : OutboxPoller) (h : e.nextAttemptAt ≤ now) : p.wait now e = 0 := by
  unfold OutboxPoller.wait gap
  rw [if_pos (h.trans (le_earliest p now)), ite_self]

theorem Paced.wait_le (h : Paced now now' p q) (hpolls : q.polls = p.polls) (e : OutboxEvent) :
    q.wait now' e ≤ p.wait now e := by
  cases h with
  | kept hnow _ hstopped hearliest =>
    unfold OutboxPoller.wait
    cases hq : q.stopped with
    | true =>
      rw [if_pos rfl]
      exact wait_nonneg p now e
    | false =>
      have hopen : p.stopped = false := by
        by_contra hp
        rw [hstopped (Bool.eq_true_of_not_eq_false hp)] at hq
        cases hq
      rw [hopen]
      exact gap_antitone (hearliest hq)
  | polled _ hmore => omega

end Waits

section Sole

variable {cfg : Config} {db₀ : Db} {clock : Time} {f f' : Fleet} {p : OutboxPoller} {k : Worker}

/-- One process with one worker, which holds an event as it was when it was claimed. -/
structure Fleet.Sole (f : Fleet) (p : OutboxPoller) (k : Worker) : Prop where
  alive : f.Alive
  processes : f.processes = [p]
  workers : f.world.workers = [k]
  bounded : Bounded f.world
  ids : (f.world.db.outboxEvents.map OutboxEvent.id).Nodup
  held : ∀ c, k.phase.claim? = some c → ∃ e ∈ f.world.db.outboxEvents, e.id = c.id ∧
    e.attemptCount = c.attemptCount ∧ e.processedAt = none

theorem getElem?_singleton {α : Type} {a b : α} {i : ℕ} (h : [a][i]? = some b) :
    i = 0 ∧ a = b := by
  cases i with
  | zero => exact ⟨rfl, Option.some.inj h⟩
  | succ i => cases h

theorem Fleet.Sole.here (h : f.Sole p k) : f.processes[0]? = some p ∧
    f.world.workers[0]? = some k ∧ p.Looping k := by
  have hp : f.processes[0]? = some p := by rw [h.processes]; rfl
  have hk : f.world.workers[0]? = some k := by rw [h.workers]; rfl
  exact ⟨hp, hk, h.alive.loops 0 p k hp hk⟩

theorem Fleet.Sole.process (h : f.Sole p k) {i : ℕ} {q : OutboxPoller}
    (hq : f.processes[i]? = some q) : i = 0 ∧ p = q := by
  rw [h.processes] at hq
  exact getElem?_singleton hq

theorem Fleet.Sole.worker (h : f.Sole p k) {i : ℕ} {x : Worker}
    (hx : f.world.workers[i]? = some x) : i = 0 ∧ k = x := by
  rw [h.workers] at hx
  exact getElem?_singleton hx

theorem Fleet.Sole.same_process (h : f.Sole p k) {p' : OutboxPoller} {k' : Worker}
    (h' : f'.Sole p' k') (hf : f'.processes = f.processes) : p = p' :=
  (List.cons.inj (h.processes.symm.trans (hf.symm.trans h'.processes))).1

theorem Fleet.Sole.same_worker (h : f.Sole p k) {p' : OutboxPoller} {k' : Worker}
    (h' : f'.Sole p' k') (hf : f'.world.workers = f.world.workers) : k = k' :=
  (List.cons.inj (h.workers.symm.trans (hf.symm.trans h'.workers))).1

theorem Fleet.Sole.set_process (h : f.Sole p k) {p' q : OutboxPoller} {k' : Worker}
    (h' : f'.Sole p' k') (hf : f'.processes = f.processes.set 0 q) : q = p' := by
  have hone := h'.processes
  rw [hf, h.processes] at hone
  exact (List.cons.inj hone).1

theorem Fleet.Sole.set_worker (h : f.Sole p k) {p' : OutboxPoller} {k' x : Worker}
    (h' : f'.Sole p' k') (hf : f'.world.workers = f.world.workers.set 0 x) : x = k' := by
  have hone := h'.workers
  rw [hf, h.workers] at hone
  exact (List.cons.inj hone).1

def FleetMove.move? : FleetMove → Option Move
  | .world m => some m
  | .fire i _ => some (.worker i (.drain DEFAULT_BATCH_SIZE))
  | .work i m => some (.worker i m)
  | .claimFails i => some (.worker i .idle)
  | .finish _ => none
  | .fail i => some (.worker i .crash)
  | .shutdown _ => none
  | .restart i => some (.worker i .crash)

theorem Fleet.step?_world {m : FleetMove} (h : f.step? cfg m = some f') :
    f'.world = f.world ∨ ∃ x, m.move? = some x ∧ f.world.step? cfg x = some f'.world := by
  cases m with
  | world m =>
    cases m with
    | worker i x => cases h
    | _ =>
      simp only [Fleet.step?] at h
      obtain ⟨w, hw, rfl⟩ := Option.map_eq_some_iff.1 h
      exact Or.inr ⟨_, rfl, hw⟩
  | fire i handle =>
    obtain ⟨p, hp, h⟩ := Option.bind_eq_some_iff.1 h
    split at h
    · cases h
    · split_ifs at h
      unfold Fleet.tick? at h
      split_ifs at h
      · cases h
        exact Or.inl rfl
      · obtain ⟨w, hw, rfl⟩ := Option.map_eq_some_iff.1 h
        exact Or.inr ⟨_, rfl, hw⟩
  | work i m =>
    simp only [Fleet.step?] at h
    split_ifs at h
    obtain ⟨w, hw, rfl⟩ := Option.map_eq_some_iff.1 h
    exact Or.inr ⟨_, rfl, hw⟩
  | claimFails i =>
    obtain ⟨w, hw, rfl⟩ := Option.map_eq_some_iff.1 h
    exact Or.inr ⟨_, rfl, hw⟩
  | finish i =>
    simp only [Fleet.step?] at h
    split at h
    · split_ifs at h
      cases h
      exact Or.inl rfl
    · cases h
  | fail i =>
    simp only [Fleet.step?] at h
    split at h
    · obtain ⟨w, hw, rfl⟩ := Option.map_eq_some_iff.1 h
      exact Or.inr ⟨_, rfl, hw⟩
    · cases h
  | shutdown i =>
    obtain ⟨p, hp, rfl⟩ := Option.map_eq_some_iff.1 h
    exact Or.inl rfl
  | restart i =>
    obtain ⟨p, hp, h⟩ := Option.bind_eq_some_iff.1 h
    obtain ⟨w, hw, rfl⟩ := Option.map_eq_some_iff.1 h
    exact Or.inr ⟨_, rfl, hw⟩

/-- A sole worker claims only when it has nothing to record. -/
theorem patient_of_sole {m : FleetMove} {x : Move} (hm : Healthy m) (hx : m.move? = some x)
    (hs : f.step? cfg m = some f') (hworkers : f.world.workers = [k]) :
    Patient f.world x := by
  cases Fleet.step?_polled hs with
  | world m w hworker hw =>
    cases hx
    cases x with
    | worker i y => exact (hworker i y rfl).elim
    | reopen id => exact (Bool.false_ne_true hm).elim
    | _ => exact ⟨trivial, trivial⟩
  | tick i p timeout hp ht hdue hr hst hk =>
    cases hx
    exact ⟨trivial, trivial⟩
  | turnedAway i p timeout hp ht hr =>
    cases hx
    exact ⟨trivial, trivial⟩
  | work i k' m w hproceeds hk hw =>
    cases hx
    rw [hworkers] at hk
    obtain ⟨-, rfl⟩ := getElem?_singleton hk
    cases hw with
    | claim left e he hdue hfree =>
      refine ⟨trivial, fun x hx => ?_⟩
      rw [hworkers] at hx
      rw [List.mem_singleton.1 hx]
      exact nofun
    | drain n => exact hproceeds.elim
    | loseFailure left c error => exact (Bool.false_ne_true hm).elim
    | crash => exact hproceeds.elim
    | _ => exact ⟨trivial, trivial⟩
  | finish i p hp hr hk => cases hx
  | shutdown i p hp => cases hx
  | _ => exact (Bool.false_ne_true hm).elim

/-- What the sole worker holds is in the table, after each of its moves. -/
theorem Worked.held {w w' : World} {i : ℕ} {k : Worker} {m : WorkerMove} (h : Worked w i k m w')
    (hk : w.workers[i]? = some k)
    (hheld : ∀ c, k.phase.claim? = some c → ∃ e ∈ w.db.outboxEvents, e.id = c.id ∧
      e.attemptCount = c.attemptCount ∧ e.processedAt = none) :
    ∃ q, w'.workers = w.workers.set i q ∧ ∀ c, q.phase.claim? = some c →
      ∃ e ∈ w'.db.outboxEvents, e.id = c.id ∧ e.attemptCount = c.attemptCount ∧
        e.processedAt = none := by
  cases h with
  | claim left e he hdue hfree =>
    refine ⟨_, rfl, fun c hc => ?_⟩
    cases hc
    exact ⟨e, he, rfl, rfl, hdue.1⟩
  | handle left c now planned hp => exact ⟨_, rfl, hheld⟩
  | throw left c now error hp => exact ⟨_, rfl, hheld⟩
  | insert left c now p planned rows new id refusal hid hx => exact ⟨_, rfl, hheld⟩
  | refuse left c now p planned rows id refusal r hx => exact ⟨_, rfl, hheld⟩
  | fault left phase c error hc =>
    refine ⟨_, rfl, fun c' hc' => hheld c' ?_⟩
    rcases hc with ⟨now, rfl⟩ | ⟨now, planned, rows, rfl⟩
    · exact hc'
    · exact hc'
  | _ => exact ⟨_, rfl, nofun⟩

theorem sole (h₀ : Quiet db₀)
    (h : Fleet.Reached cfg (fun _ => Healthy) (Fleet.initial db₀ clock 1) f) :
    World.Reached cfg Patient (World.initial db₀ clock 1) f.world ∧ ∃ p k, f.Sole p k := by
  induction h with
  | refl =>
    have hworld : World.Reached cfg Patient (World.initial db₀ clock 1)
      (Fleet.initial db₀ clock 1).world := .refl
    have hfleet : Fleet.Reached cfg (fun _ => Healthy) (Fleet.initial db₀ clock 1)
      (Fleet.initial db₀ clock 1) := .refl
    exact ⟨hworld, _, _, .reach hfleet, rfl, rfl, bounded h₀ hworld, event_ids h₀ hworld, nofun⟩
  | @tail f f' m hreach hok hs ih =>
    obtain ⟨hworld, p, k, hsole⟩ := ih
    have halive := hsole.alive.step hs
    have hreached : World.Reached cfg Patient (World.initial db₀ clock 1) f'.world := by
      rcases Fleet.step?_world hs with hsame | ⟨x, hx, hstep⟩
      · rw [hsame]
        exact hworld
      · exact hworld.tail x (patient_of_sole hok hx hs hsole.workers) hstep
    have hheld : ∃ k', f'.world.workers = [k'] ∧ ∀ c, k'.phase.claim? = some c →
        ∃ e ∈ f'.world.db.outboxEvents, e.id = c.id ∧ e.attemptCount = c.attemptCount ∧
          e.processedAt = none := by
      rcases Fleet.step?_world hs with hsame | ⟨x, hx, hstep⟩
      · rw [hsame]
        exact ⟨k, hsole.workers, hsole.held⟩
      · have hpatient := patient_of_sole hok hx hs hsole.workers
        generalize f'.world = w' at hstep
        cases step?_moved hstep with
        | service l s hf hservice =>
          obtain ⟨new, hev, -⟩ := service_events hworld hservice
          refine ⟨k, hsole.workers, fun c hc => ?_⟩
          obtain ⟨e, he, hsame⟩ := hsole.held c hc
          exact ⟨e, hev ▸ List.mem_append_left _ he, hsame⟩
        | markRead notificationId userId => exact ⟨k, hsole.workers, hsole.held⟩
        | reopen id hfree => exact hpatient.1.elim
        | worker i k' y w' hk' hw =>
          have hone := hk'
          rw [hsole.workers] at hone
          obtain ⟨rfl, rfl⟩ := getElem?_singleton hone
          obtain ⟨q, hq, hheld⟩ := hw.held hk' hsole.held
          rw [hsole.workers] at hq
          exact ⟨q, hq, hheld⟩
    obtain ⟨k', hk', hheld⟩ := hheld
    have hlength : f'.processes.length = 1 := by rw [halive.count, hk']; rfl
    obtain ⟨p', hp'⟩ := List.length_eq_one_iff.1 hlength
    exact ⟨hreached, p', k', halive, hp', hk', bounded h₀ hreached, event_ids h₀ hreached, hheld⟩

end Sole

section Budget

variable {cfg : Config} {db₀ : Db} {clock : Time} {f f' : Fleet} {p p' : OutboxPoller}
  {k k' : Worker} {e : OutboxEvent} {polls₀ spent₀ : ℕ}

/-- The time that `polls₀` polls, the attempts ended since then and the backoffs so far of an
event take up at a poll an interval. -/
def budget (polls₀ spent₀ : ℕ) (w : World) (e : OutboxEvent) : ℤ :=
  POLL_INTERVAL_MS *
    (polls₀ + ((w.spent e.occurredAt : ℤ) - spent₀) + (2 ^ (e.attemptCount + 1) - 2))

/-- The polls so far, and those to come before the event is due, are within the budget, but for
one that is under way and is about to make an attempt. -/
structure Fleet.Served (polls₀ spent₀ : ℕ) (f : Fleet) (p : OutboxPoller) (k : Worker)
    (e : OutboxEvent) : Prop where
  within : POLL_INTERVAL_MS * (p.polls : ℤ) + p.wait f.world.clock e ≤
    budget polls₀ spent₀ f.world e + POLL_INTERVAL_MS
  rest : ¬ f.world.Fruitful k e → POLL_INTERVAL_MS * (p.polls : ℤ) + p.wait f.world.clock e ≤
    budget polls₀ spent₀ f.world e

/-- A move that ends no attempt. -/
theorem Fleet.Served.same (h : f.Served polls₀ spent₀ p k e)
    (hp : Paced f.world.clock f'.world.clock p p') (hpolls : p'.polls = p.polls)
    (hspent : f'.world.spent e.occurredAt = f.world.spent e.occurredAt)
    (hfruit : f.world.Fruitful k e → f'.world.Fruitful k' e) :
    f'.Served polls₀ spent₀ p' k' e := by
  have hwait := hp.wait_le hpolls e
  have hbudget : budget polls₀ spent₀ f'.world e = budget polls₀ spent₀ f.world e := by
    unfold budget
    rw [hspent]
  refine ⟨?_, fun hnot => ?_⟩
  · rw [hpolls, hbudget]
    linarith [h.within]
  · rw [hpolls, hbudget]
    linarith [h.rest fun hf => hnot (hfruit hf)]

/-- An attempt of an event that is not younger comes to its end, or one of a younger event does
while the event is not due. -/
theorem Fleet.Served.ended (h : f.Served polls₀ spent₀ p k e)
    (hclock : f'.world.clock = f.world.clock)
    (hmore : f.world.spent e.occurredAt ≤ f'.world.spent e.occurredAt)
    (hfruit : f.world.Fruitful k e → f'.world.spent e.occurredAt = f.world.spent e.occurredAt + 1) :
    f'.Served polls₀ spent₀ p k' e := by
  have hle : POLL_INTERVAL_MS * (p.polls : ℤ) + p.wait f.world.clock e ≤
      budget polls₀ spent₀ f'.world e := by
    have hwithin := h.within
    have hms : (POLL_INTERVAL_MS : ℤ) = 1000 := rfl
    by_cases hf : f.world.Fruitful k e
    · unfold budget at hwithin ⊢
      rw [hfruit hf]
      push_cast
      linarith
    · have hrest := h.rest hf
      have hmore' : (f.world.spent e.occurredAt : ℤ) ≤ f'.world.spent e.occurredAt :=
        Int.ofNat_le.2 hmore
      unfold budget at hrest ⊢
      rw [hms] at hrest ⊢
      linarith
  rw [← hclock] at hle
  refine ⟨?_, fun _ => hle⟩
  have hpos : (0 : ℤ) ≤ POLL_INTERVAL_MS := Int.natCast_nonneg _
  linarith

/-- A poll starts: the event is due, or the poll is one of those that its backoff lets pass. -/
theorem Fleet.Served.polled (h : f.Served polls₀ spent₀ p ⟨0, .idle⟩ e)
    (hworld : f'.world = f.world.put 0 DEFAULT_BATCH_SIZE .idle)
    (hopen : p.stopped = false) (hopen' : p'.stopped = false) (hpolls : p'.polls = p.polls + 1)
    (hdue : p.earliest f.world.clock = f.world.clock)
    (hnext : p'.earliest f.world.clock = f.world.clock + POLL_INTERVAL_MS) :
    f'.Served polls₀ spent₀ p' ⟨DEFAULT_BATCH_SIZE, .idle⟩ e := by
  have hrest := h.rest (by
    rintro (⟨hleft, -⟩ | ⟨c, hc, -⟩)
    · cases hleft
    · cases hc)
  have hbudget : budget polls₀ spent₀ f'.world e = budget polls₀ spent₀ f.world e := by
    rw [hworld]
    rfl
  have hclock : f'.world.clock = f.world.clock := by
    rw [hworld]
    rfl
  rw [OutboxPoller.wait, hopen, hdue] at hrest
  have hgap : (if (false : Bool) then 0 else gap e.nextAttemptAt f.world.clock) =
    gap e.nextAttemptAt f.world.clock := rfl
  have hwait : p'.wait f'.world.clock e =
      gap e.nextAttemptAt (f.world.clock + POLL_INTERVAL_MS) := by
    rw [OutboxPoller.wait, hopen', hclock, hnext]
    rfl
  rw [hgap] at hrest
  rw [← hbudget] at hrest
  refine ⟨?_, fun hnot => ?_⟩
  · rw [hwait, hpolls]
    have hle : f.world.clock ≤ f.world.clock + POLL_INTERVAL_MS :=
      Int.le_add_of_nonneg_right (Int.natCast_nonneg _)
    have hanti : gap e.nextAttemptAt (f.world.clock + POLL_INTERVAL_MS) ≤
      gap e.nextAttemptAt f.world.clock := gap_antitone hle
    push_cast
    linarith
  · have hlate : f.world.clock < e.nextAttemptAt := by
      by_contra hle
      exact hnot (Or.inl ⟨rfl, rfl, by rw [hclock]; exact not_lt.1 hle⟩)
    have hpoll := gap_poll hlate
    rw [hwait, hpolls]
    push_cast
    linarith

/-- An attempt of the event itself fails, which lets as many polls pass as the backoff lasts. -/
theorem Fleet.Served.failed (h : f.Served polls₀ spent₀ p k e) (hr : p.running = true)
    (hclock : f'.world.clock = f.world.clock) {e' : OutboxEvent}
    (hoccurred : e'.occurredAt = e.occurredAt) (hcount : e'.attemptCount = e.attemptCount + 1)
    (hnext : e'.nextAttemptAt =
      f.world.clock + (BASE_BACKOFF_SECONDS * 2 ^ e.attemptCount : ℕ) * 1000)
    (hspent : f'.world.spent e.occurredAt = f.world.spent e.occurredAt + 1) :
    f'.Served polls₀ spent₀ p k' e' := by
  have hseconds : BASE_BACKOFF_SECONDS * 2 ^ e.attemptCount = 2 ^ (e.attemptCount + 1) :=
    (Nat.pow_succ').symm
  have hwait : p.wait f'.world.clock e' ≤ POLL_INTERVAL_MS * (2 ^ (e.attemptCount + 1) : ℕ) := by
    unfold OutboxPoller.wait
    split_ifs
    · exact Int.mul_nonneg (Int.natCast_nonneg _) (Int.natCast_nonneg _)
    · rw [hclock, OutboxPoller.earliest, if_pos hr, hnext, hseconds]
      exact gap_backoff _ _
  have hbudget : budget polls₀ spent₀ f'.world e' = budget polls₀ spent₀ f.world e +
      POLL_INTERVAL_MS + POLL_INTERVAL_MS * (2 ^ (e.attemptCount + 1) : ℕ) := by
    unfold budget
    rw [hoccurred, hcount, hspent]
    push_cast
    ring
  have hle : POLL_INTERVAL_MS * (p.polls : ℤ) + p.wait f'.world.clock e' ≤
      budget polls₀ spent₀ f'.world e' := by
    rw [hbudget]
    linarith [h.within, wait_nonneg p f.world.clock e]
  have hpos : (0 : ℤ) ≤ POLL_INTERVAL_MS := Int.natCast_nonneg _
  exact ⟨by linarith, fun _ => hle⟩

theorem spent_append {events new : List OutboxEvent} (latest : Time)
    (hnew : ∀ e ∈ new, e.processedAt = none ∧ e.attemptCount = 0) :
    ((events ++ new).map (OutboxEvent.spent latest)).sum =
      (events.map (OutboxEvent.spent latest)).sum := by
  have hzero : (new.map (OutboxEvent.spent latest)).sum = 0 := by
    refine List.sum_eq_zero fun n hn => ?_
    obtain ⟨e, he, rfl⟩ := List.mem_map.1 hn
    obtain ⟨hp, ha⟩ := hnew e he
    simp [OutboxEvent.spent, hp, ha]
  rw [List.map_append, List.sum_append, hzero, Nat.add_zero]

/-- One more attempt of one event is one more of those that are not younger, if it is one. -/
theorem spent_update {events : List OutboxEvent} {g : OutboxEvent → OutboxEvent}
    {y : OutboxEvent} (latest : Time) (hids : (events.map OutboxEvent.id).Nodup) (hy : y ∈ events)
    (hother : ∀ b, b.id ≠ y.id → g b = b) (hself : (g y).spent latest =
      y.spent latest + if y.occurredAt ≤ latest then 1 else 0) :
    ((events.map g).map (OutboxEvent.spent latest)).sum =
      (events.map (OutboxEvent.spent latest)).sum + if y.occurredAt ≤ latest then 1 else 0 := by
  have hsum := sum_update (g := OutboxEvent.spent latest) hids hy fun b _ hb => hother b hb
  rw [hself] at hsum
  omega

theorem spent_markProcessed {y : OutboxEvent} (latest now : Time) (hp : y.processedAt = none) :
    (y.markProcessed y.id now).spent latest =
      y.spent latest + if y.occurredAt ≤ latest then 1 else 0 := by
  rw [OutboxEvent.markProcessed, if_pos rfl]
  by_cases hy : y.occurredAt ≤ latest <;> simp [OutboxEvent.spent, hp, hy]

theorem spent_recordFailure {y : OutboxEvent} (latest now : Time) (error : JsString)
    (backoff : ℕ) : (y.recordFailure y.id error backoff now).spent latest =
      y.spent latest + if y.occurredAt ≤ latest then 1 else 0 := by
  rw [OutboxEvent.recordFailure, if_pos rfl]
  simp only [OutboxEvent.spent]
  split_ifs <;> omega

/-- What a step keeps of an event, in the fleet that it leaves. -/
def Fleet.StillServed (polls₀ spent₀ : ℕ) (f : Fleet) (p : OutboxPoller) (k : Worker)
    (id : Uuid) (occurredAt : Time) : Prop :=
  ∃ e ∈ f.world.db.outboxEvents, e.id = id ∧ e.occurredAt = occurredAt ∧
    (e.Unsettled → f.Served polls₀ spent₀ p k e)

/-- The event is due and the sole worker has nothing in hand, so it can be claimed. -/
theorem Fleet.Sole.claimable (h : f.Sole p k) (hidle : k.phase = .idle) (he : e.Unsettled)
    (hdue : e.nextAttemptAt ≤ f.world.clock) : f.world.Claimable e := by
  refine ⟨⟨he.1, he.2, hdue⟩, ?_⟩
  rintro ⟨x, hx, hlock⟩
  rw [h.workers] at hx
  rw [List.mem_singleton.1 hx, hidle] at hlock
  cases hlock

/-- The attempt of the sole worker ends: the row that it holds has one more behind it. -/
theorem Fleet.Sole.attempted (h : f.Sole p k) {c : ClaimedOutboxEvent}
    (hc : k.phase.claim? = some c) (hphase : k.phase ≠ .idle) {g : OutboxEvent → OutboxEvent}
    {w : World} (hw : w.db.outboxEvents = f.world.db.outboxEvents.map g)
    (hclock : w.clock = f.world.clock) (hother : ∀ b, b.id ≠ c.id → g b = b)
    (hself : ∀ y, y.id = c.id → y.processedAt = none → (g y).spent e.occurredAt =
      y.spent e.occurredAt + if y.occurredAt ≤ e.occurredAt then 1 else 0)
    (hserved : f.Served polls₀ spent₀ p k e) :
    (f.withWorld w).Served polls₀ spent₀ p k' e ∧ (e.id = c.id → e ∈ f.world.db.outboxEvents →
      (f.withWorld w).world.spent e.occurredAt = f.world.spent e.occurredAt + 1) := by
  obtain ⟨y, hy, hid, -, hnone⟩ := h.held c hc
  have hspent : w.spent e.occurredAt =
      f.world.spent e.occurredAt + if y.occurredAt ≤ e.occurredAt then 1 else 0 := by
    unfold World.spent
    rw [hw]
    exact spent_update e.occurredAt h.ids hy (fun b hb => hother b (hid ▸ hb)) (hself y hid hnone)
  refine ⟨hserved.ended hclock (by rw [Fleet.withWorld, hspent]; omega) ?_, fun heid he => ?_⟩
  · rintro (⟨-, hidle, -⟩ | ⟨c', hc', x, hx, hxid, hold⟩)
    · exact (hphase hidle).elim
    · obtain rfl := Option.some.inj (hc.symm.trans hc')
      obtain rfl := eq_of_nodup_key h.ids hx hy (hxid.trans hid.symm)
      rw [Fleet.withWorld, hspent, if_pos hold]
  · obtain rfl := eq_of_nodup_key h.ids he hy (heid.trans hid.symm)
    rw [Fleet.withWorld, hspent, if_pos le_rfl]

theorem Fleet.Sole.committed (h : f.Sole p k) {c : ClaimedOutboxEvent}
    (hc : k.phase.claim? = some c) (hphase : k.phase ≠ .idle) {w : World}
    (hw : w.db.outboxEvents =
      f.world.db.outboxEvents.map (OutboxEvent.markProcessed c.id f.world.clock))
    (hclock : w.clock = f.world.clock) (he : e ∈ f.world.db.outboxEvents)
    (hserved : e.Unsettled → f.Served polls₀ spent₀ p k e) :
    (f.withWorld w).StillServed polls₀ spent₀ p k' e.id e.occurredAt := by
  have hmem : OutboxEvent.markProcessed c.id f.world.clock e ∈ w.db.outboxEvents :=
    hw.symm ▸ List.mem_map_of_mem he
  by_cases hid : e.id = c.id
  · rw [OutboxEvent.markProcessed, if_pos hid] at hmem
    exact ⟨_, hmem, rfl, rfl, fun hopen => by cases hopen.1⟩
  · rw [OutboxEvent.markProcessed, if_neg hid] at hmem
    refine ⟨e, hmem, rfl, rfl, fun hopen => ?_⟩
    refine (h.attempted hc hphase hw hclock (fun b hb => if_neg hb) (fun y hy hnone => ?_)
      (hserved hopen)).1
    rw [← hy]
    exact spent_markProcessed _ _ hnone

theorem Fleet.Sole.recorded (h : f.Sole p k) {c : ClaimedOutboxEvent}
    (hc : k.phase.claim? = some c) (hphase : k.phase ≠ .idle) {error : JsString} {w : World}
    (hw : w.db.outboxEvents = f.world.db.outboxEvents.map (OutboxEvent.recordFailure c.id error
      (BASE_BACKOFF_SECONDS * 2 ^ c.attemptCount) f.world.clock))
    (hclock : w.clock = f.world.clock) (he : e ∈ f.world.db.outboxEvents)
    (hserved : e.Unsettled → f.Served polls₀ spent₀ p k e) :
    (f.withWorld w).StillServed polls₀ spent₀ p k' e.id e.occurredAt := by
  obtain ⟨-, -, hloop⟩ := h.here
  have hmem : OutboxEvent.recordFailure c.id error (BASE_BACKOFF_SECONDS * 2 ^ c.attemptCount)
      f.world.clock e ∈ w.db.outboxEvents := hw.symm ▸ List.mem_map_of_mem he
  have hattempt (hopen : e.Unsettled) : (f.withWorld w).Served polls₀ spent₀ p k' e ∧
      (e.id = c.id → e ∈ f.world.db.outboxEvents →
        w.spent e.occurredAt = f.world.spent e.occurredAt + 1) :=
    h.attempted hc hphase hw hclock (fun b hb => if_neg hb)
      (fun y hy _ => by rw [← hy]; exact spent_recordFailure _ _ _ _) (hserved hopen)
  by_cases hid : e.id = c.id
  · obtain ⟨y, hy, hyid, hcount, hnone⟩ := h.held c hc
    obtain rfl := eq_of_nodup_key h.ids he hy (hid.trans hyid.symm)
    rw [OutboxEvent.recordFailure, if_pos hid] at hmem
    refine ⟨_, hmem, rfl, rfl, fun hopen => ?_⟩
    have hunsettled : e.Unsettled := ⟨hnone, Nat.lt_of_succ_lt hopen.2⟩
    refine (hserved hunsettled).failed (hloop.busy fun hk => hphase ?_).1 hclock rfl rfl ?_
      ((hattempt hunsettled).2 hid he)
    · rw [hk]
    · rw [hcount]
  · rw [OutboxEvent.recordFailure, if_neg hid] at hmem
    exact ⟨e, hmem, rfl, rfl, fun hopen => (hattempt hopen).1⟩

theorem Fleet.Sole.worked (h : f.Sole p k) {m : WorkerMove} (hm : f.world.Proceeds m)
    (hlose : m ≠ .loseFailure) {w : World} (hw : Worked f.world 0 k m w)
    (he : e ∈ f.world.db.outboxEvents) (hserved : e.Unsettled → f.Served polls₀ spent₀ p k e)
    (hk' : w.workers = [k']) :
    (f.withWorld w).StillServed polls₀ spent₀ p k' e.id e.occurredAt := by
  have put {q : Worker} (hq : w.workers = f.world.workers.set 0 q) : k' = q := by
    rw [hq, h.workers] at hk'
    exact (List.cons.inj hk').1.symm
  -- A move within an attempt, or one that ends the drain.
  have same (hclock : w.clock = f.world.clock) (hev : w.db.outboxEvents = f.world.db.outboxEvents)
      (hfruit : e.Unsettled → f.world.Fruitful k e → w.Fruitful k' e) :
      (f.withWorld w).StillServed polls₀ spent₀ p k' e.id e.occurredAt := by
    refine ⟨e, hev.symm ▸ he, rfl, rfl, fun hopen => ?_⟩
    refine (hserved hopen).same (.refl p hclock.ge) rfl ?_ (hfruit hopen)
    unfold World.spent
    rw [Fleet.withWorld, hev]
  cases hw with
  | drain n => exact hm.elim
  | claim left e₁ he₁ hdue hfree =>
    obtain rfl := put rfl
    refine same rfl rfl fun hopen hfruit => ?_
    obtain ⟨e₂, he₂, hid, holdest⟩ := hm
    rcases hfruit with ⟨-, hidle, hdue'⟩ | ⟨c, hc, -⟩
    · exact Or.inr ⟨_, rfl, e₂, he₂, hid, holdest e he (h.claimable hidle hopen hdue')⟩
    · cases hc
  | idle left =>
    refine same rfl rfl fun hopen hfruit => ?_
    rcases hfruit with ⟨-, hidle, hdue⟩ | ⟨c, hc, -⟩
    · exact (hm e he (h.claimable hidle hopen hdue)).elim
    · cases hc
  | commit left c now rows => exact h.committed rfl nofun rfl rfl he hserved
  | recordFailure left c error hfree => exact h.recorded rfl nofun rfl rfl he hserved
  | loseFailure left c error => exact (hlose rfl).elim
  | crash => exact hm.elim
  | fault left phase c error hc =>
    obtain rfl := put rfl
    refine same rfl rfl fun _ hfruit => ?_
    rcases hc with ⟨now, rfl⟩ | ⟨now, planned, rows, rfl⟩
    · rcases hfruit with ⟨-, hidle, -⟩ | hheld
      · cases hidle
      · exact Or.inr hheld
    · rcases hfruit with ⟨-, hidle, -⟩ | hheld
      · cases hidle
      · exact Or.inr hheld
  | explain left c text =>
    refine same rfl rfl fun _ hfruit => ?_
    rcases hfruit with ⟨-, hidle, -⟩ | ⟨c', hc', -⟩
    · cases hidle
    · cases hc'
  | skip left c text =>
    refine same rfl rfl fun _ hfruit => ?_
    rcases hfruit with ⟨-, hidle, -⟩ | ⟨c', hc', -⟩
    · cases hidle
    · cases hc'
  | _ =>
    obtain rfl := put rfl
    refine same rfl rfl fun _ hfruit => ?_
    rcases hfruit with ⟨-, hidle, -⟩ | hheld
    · cases hidle
    · exact Or.inr hheld

theorem settle_polls (p : OutboxPoller) (delayMs : ℕ) (now : Time) :
    (p.settle delayMs now).polls = p.polls := by
  unfold OutboxPoller.settle OutboxPoller.scheduleNext
  split_ifs <;> rfl

theorem shutdown_polls (p : OutboxPoller) : p.onApplicationShutdown.polls = p.polls := by
  unfold OutboxPoller.onApplicationShutdown
  split <;> rfl

/-- A move that only the timers of the process know of. -/
theorem Fleet.StillServed.paced (he : e ∈ f.world.db.outboxEvents)
    (hserved : e.Unsettled → f.Served polls₀ spent₀ p k e)
    (hp : Paced f.world.clock f'.world.clock p p') (hpolls : p'.polls = p.polls)
    (hworld : f'.world = f.world) : f'.StillServed polls₀ spent₀ p' k e.id e.occurredAt := by
  refine ⟨e, hworld.symm ▸ he, rfl, rfl, fun hopen => ?_⟩
  exact (hserved hopen).same hp hpolls (by rw [hworld]) fun hfruit => by rwa [hworld]

/-- A call of the API adds events that nothing has been spent on. -/
theorem Fleet.StillServed.serviced
    (hworld : World.Reached cfg Patient (World.initial db₀ clock 1) f.world)
    (he : e ∈ f.world.db.outboxEvents) (hserved : e.Unsettled → f.Served polls₀ spent₀ p k e)
    {l : Event} {s : Service} (hs : f.world.service.step? (body cfg) l = some s)
    {w : World} (hdb : w.db = s.db) (hclock : f.world.clock ≤ w.clock) :
    (f.withWorld w).StillServed polls₀ spent₀ p k e.id e.occurredAt := by
  obtain ⟨new, hev, hnew⟩ := service_events hworld hs
  rw [← hdb] at hev
  have hsub {x : OutboxEvent} (hx : x ∈ f.world.db.outboxEvents) : x ∈ w.db.outboxEvents :=
    hev ▸ List.mem_append_left _ hx
  refine ⟨e, hsub he, rfl, rfl, fun hopen => ?_⟩
  refine (hserved hopen).same (.refl p hclock) rfl ?_ ?_
  · change (w.db.outboxEvents.map _).sum = _
    rw [hev]
    exact spent_append _ hnew
  · rintro (⟨hleft, hidle, hdue⟩ | ⟨c, hc, x, hx, hold⟩)
    · exact Or.inl ⟨hleft, hidle, hdue.trans hclock⟩
    · exact Or.inr ⟨c, hc, x, hsub hx, hold⟩

/-- A move that is no worker's. -/
theorem Fleet.StillServed.moved
    (hworld : World.Reached cfg Patient (World.initial db₀ clock 1) f.world)
    (he : e ∈ f.world.db.outboxEvents) (hserved : e.Unsettled → f.Served polls₀ spent₀ p k e)
    {m : Move} (hok : Healthy (.world m)) (hm : ∀ i x, m ≠ .worker i x) {w : World}
    (hw : Moved cfg f.world m w) :
    (f.withWorld w).StillServed polls₀ spent₀ p k e.id e.occurredAt := by
  cases hw with
  | service l s hf hs =>
    exact .serviced hworld he hserved hs rfl (Moved.service l s hf hs).clock_le
  | markRead notificationId userId =>
    exact ⟨e, he, rfl, rfl, fun hopen => (hserved hopen).same (.refl p le_rfl) rfl rfl id⟩
  | reopen id hfree => exact (Bool.false_ne_true hok).elim
  | worker i x y w hx hw => exact (hm i y rfl).elim

/-- The timer fires and a poll starts. -/
theorem Fleet.StillServed.polled (he : e ∈ f.world.db.outboxEvents)
    (hserved : e.Unsettled → f.Served polls₀ spent₀ p ⟨0, .idle⟩ e) (hloop : p.Looping ⟨0, .idle⟩)
    {timeout : ℕ × Time} (ht : timeout ∈ p.timeouts) (hdue : timeout.2 ≤ f.world.clock)
    (hopen : p.stopped = false)
    (hp' : { p.clearTimeout timeout.1 with running := true, polls := p.polls + 1 } = p')
    (hworld : f'.world = f.world.put 0 DEFAULT_BATCH_SIZE .idle) :
    f'.StillServed polls₀ spent₀ p' ⟨DEFAULT_BATCH_SIZE, .idle⟩ e.id e.occurredAt := by
  subst hp'
  refine ⟨e, hworld.symm ▸ he, rfl, rfl, fun hunsettled => ?_⟩
  cases hloop.tick_paced ht hdue with
  | kept _ hpolls => exact (Nat.succ_ne_self _ hpolls).elim
  | polled _ hpolls _ hearliest hnext =>
    exact (hserved hunsettled).polled hworld hopen hopen hpolls hearliest hnext

theorem Fleet.Sole.served_step
    (hworld : World.Reached cfg Patient (World.initial db₀ clock 1) f.world)
    (h : f.Sole p k) (h' : f'.Sole p' k') {m : FleetMove} (hok : Healthy m)
    (hs : f.step? cfg m = some f') (he : e ∈ f.world.db.outboxEvents)
    (hserved : e.Unsettled → f.Served polls₀ spent₀ p k e) :
    f'.StillServed polls₀ spent₀ p' k' e.id e.occurredAt := by
  obtain ⟨-, -, hloop⟩ := h.here
  cases Fleet.step?_polled hs with
  | world m w hm hw =>
    obtain rfl := h.same_process h' rfl
    obtain rfl := h.same_worker h' (hw.workers hm)
    exact .moved hworld he hserved hok hm hw
  | tick i q timeout hq ht hdue hr hst hk =>
    obtain ⟨rfl, rfl⟩ := h.process hq
    obtain ⟨-, rfl⟩ := h.worker hk
    obtain rfl := h.set_worker h' rfl
    exact .polled he hserved hloop ht hdue hst (h.set_process h' rfl) rfl
  | turnedAway i q timeout hq ht hr =>
    obtain ⟨rfl, rfl⟩ := h.process hq
    obtain ⟨hrunning, hstopped, -⟩ := hloop.waits ht
    simp [hrunning, hstopped] at hr
  | work i x m w hm hx hw =>
    obtain ⟨rfl, rfl⟩ := h.worker hx
    obtain rfl := h.same_process h' rfl
    refine h.worked hm ?_ hw he hserved h'.workers
    rintro rfl
    exact Bool.false_ne_true hok
  | finish i q hq hr hk =>
    obtain ⟨rfl, rfl⟩ := h.process hq
    obtain rfl := h.same_worker h' rfl
    obtain rfl := h.set_process h' rfl
    exact .paced he hserved (hloop.settle_paced hr le_rfl) (settle_polls _ _ _) rfl
  | shutdown i q hq =>
    obtain ⟨rfl, rfl⟩ := h.process hq
    obtain rfl := h.same_worker h' rfl
    obtain rfl := h.set_process h' rfl
    exact .paced he hserved (shutdown_paced p) (shutdown_polls p) rfl
  | _ => exact (Bool.false_ne_true hok).elim

end Budget

section Progress

variable {cfg : Config} {db₀ : Db} {clock : Time} {f f' : Fleet} {p p' : OutboxPoller}
  {e : OutboxEvent}

def World.byThen (latest : Time) (w : World) : List OutboxEvent :=
  w.db.outboxEvents.filter (·.occurredAt ≤ latest)

theorem Bounded.spent_le {w : World} (h : Bounded w) (latest : Time) :
    w.spent latest ≤ MAX_ATTEMPTS * (w.byThen latest).length := by
  have hone : ∀ e ∈ w.db.outboxEvents, e.spent latest ≤
      if e.occurredAt ≤ latest then MAX_ATTEMPTS else 0 := by
    intro e he
    have hcount := h.events e he
    unfold OutboxEvent.spent
    split_ifs with hle hp
    · exact hcount.processed hp
    · exact hcount.bounded
    · exact le_rfl
  unfold World.spent World.byThen
  generalize w.db.outboxEvents = events at hone
  induction events with
  | nil => exact le_rfl
  | cons e events ih =>
    have hrest := ih fun x hx => hone x (List.mem_cons_of_mem _ hx)
    have hhead := hone e List.mem_cons_self
    rw [List.map_cons, List.sum_cons, List.filter_cons]
    by_cases hle : e.occurredAt ≤ latest
    · simp only [hle, decide_true, if_true, List.length_cons] at hhead ⊢
      rw [Nat.mul_succ]
      omega
    · simp only [hle, decide_false, if_false, Bool.false_eq_true] at hhead ⊢
      omega

theorem served_reach (h₀ : Quiet db₀)
    (h : Fleet.Reached cfg (fun _ => Healthy) (Fleet.initial db₀ clock 1) f)
    (hp : f.processes[0]? = some p) (he : e ∈ f.world.db.outboxEvents)
    (hdue : e.nextAttemptAt ≤ f.world.clock)
    (h' : Fleet.Reached cfg (fun _ => Healthy) f f') {k' : Worker} (hsole' : f'.Sole p' k') :
    f'.StillServed p.polls (f.world.spent e.occurredAt) p' k' e.id e.occurredAt := by
  induction h' generalizing p' k' with
  | refl =>
    obtain rfl : p = p' := Option.some.inj (hp.symm.trans hsole'.here.1)
    have hle : POLL_INTERVAL_MS * (p.polls : ℤ) + p.wait f.world.clock e ≤
        budget p.polls (f.world.spent e.occurredAt) f.world e := by
      have hpow : (2 : ℤ) ≤ 2 ^ (e.attemptCount + 1) := le_self_pow₀ (by norm_num) (by omega)
      have hms : (POLL_INTERVAL_MS : ℤ) = 1000 := rfl
      unfold budget
      rw [wait_of_due p hdue, hms]
      linarith
    have hpos : (0 : ℤ) ≤ POLL_INTERVAL_MS := Int.natCast_nonneg _
    exact ⟨e, he, rfl, rfl, fun _ => ⟨by linarith, fun _ => hle⟩⟩
  | @tail f₁ f' m hreach hok hs ih =>
    obtain ⟨hworld, p₁, k₁, hsole⟩ := sole h₀ (h.trans hreach)
    obtain ⟨e₁, he₁, hid, hoccurred, hserved⟩ := ih hsole
    have hstep := hsole.served_step hworld hsole' hok hs he₁ hserved
    rw [hid, hoccurred] at hstep
    exact hstep

/-- With one worker and while only handlers fail, an event that is due is processed or out of
attempts before the process has started so many polls more, whatever the API adds and whichever
events keep failing: five for each event that is not younger, and thirty-one for its own
backoffs. -/
theorem no_event_starves (h₀ : Quiet db₀)
    (h : Fleet.Reached cfg (fun _ => Healthy) (Fleet.initial db₀ clock 1) f)
    (hp : f.processes[0]? = some p) (he : e ∈ f.world.db.outboxEvents)
    (hdue : e.Due f.world.clock) (h' : Fleet.Reached cfg (fun _ => Healthy) f f')
    (hp' : f'.processes[0]? = some p') :
    ∃ x ∈ f'.world.db.outboxEvents, x.id = e.id ∧ (x.Unsettled →
      p'.polls ≤ p.polls + (MAX_ATTEMPTS * (f'.world.byThen e.occurredAt).length + 31)) := by
  obtain ⟨-, q, k', hsole⟩ := sole h₀ (h.trans h')
  obtain rfl : q = p' := Option.some.inj (hsole.here.1.symm.trans hp')
  obtain ⟨x, hx, hid, hoccurred, hserved⟩ := served_reach h₀ h hp he hdue.2.2 h' hsole
  refine ⟨x, hx, hid, fun hopen => ?_⟩
  have hwithin := (hserved hopen).within
  have hspent : (f'.world.spent e.occurredAt : ℤ) ≤
      (MAX_ATTEMPTS * (f'.world.byThen e.occurredAt).length : ℕ) :=
    Int.ofNat_le.2 (hsole.bounded.spent_le e.occurredAt)
  have hpow : (2 : ℤ) ^ (x.attemptCount + 1) ≤ 2 ^ 5 :=
    pow_le_pow_right₀ (by norm_num) hopen.2
  have hms : (POLL_INTERVAL_MS : ℤ) = 1000 := rfl
  unfold budget at hwithin
  rw [hoccurred, hms] at hwithin
  have hwait := wait_nonneg q f'.world.clock x
  omega

def failedPoll : List FleetMove :=
  [.fire 0 0, .work 0 (.claim 119), .work 0 (.fault []), .work 0 .recordFailure, .work 0 .idle,
    .finish 0, .world (.service (.tick 1100)), .fire 0 1]

theorem no_event_starves_failed : ∃ (f' : Fleet) (p' : OutboxPoller) (x : OutboxEvent),
    f'.processes[0]? = some p' ∧ p'.polls = 2 ∧ x ∈ f'.world.db.outboxEvents ∧ x.Unsettled ∧
    p'.polls ≤ 0 + (MAX_ATTEMPTS * (f'.world.byThen 50).length + 31) := by
  have hrun : (runs (permitted (Fleet.step? sampleConfig) fun _ => Healthy)
      (Fleet.initial sampleDb 50 1) (transferred.map fun l => .world (.service l))).any (fun f =>
        ((f.processes[0]?.map OutboxPoller.polls) = some 0 ∧ ∃ e ∈ f.world.db.outboxEvents,
          e.occurredAt = 50 ∧ e.Due f.world.clock ∧
          (runs (permitted (Fleet.step? sampleConfig) fun _ => Healthy) f failedPoll).any (fun f' =>
            (f'.processes[0]?.map OutboxPoller.polls) = some 2 ∧
            ∀ x ∈ f'.world.db.outboxEvents, x.id = e.id → x.Unsettled))) := by
    decide +kernel
  obtain ⟨f, hf, hstart⟩ := (Option.any_eq_true _ _).1 hrun
  obtain ⟨hpolls, e, he, hoccurred, hdue, hlater⟩ := of_decide_eq_true hstart
  obtain ⟨f', hf', hend⟩ := (Option.any_eq_true _ _).1 hlater
  obtain ⟨hpolls', hopen⟩ := of_decide_eq_true hend
  obtain ⟨p, hp, hzero⟩ := Option.map_eq_some_iff.1 hpolls
  obtain ⟨p', hp', htwo⟩ := Option.map_eq_some_iff.1 hpolls'
  obtain ⟨x, hx, hid, hbound⟩ := no_event_starves ⟨sampleDb_start, rfl⟩ (reaches_of_permitted hf)
    hp he hdue (reaches_of_permitted hf') hp'
  have hunsettled := hopen x hx hid
  rw [hoccurred, hzero] at hbound
  exact ⟨f', p', x, hp', htwo, hx, hunsettled, hbound hunsettled⟩

end Progress

end MoneyMovement
