import MoneyMovement.Outbox.Deliveries

/-!
# Attempts of a delivery

A worker that fails rolls back, which unlocks the event, and records the attempt
afterwards. As long as nobody claims the event in between, its handler is started
`MAX_ATTEMPTS` times at most and a processed event is left alone; a claim in that
gap breaks both.
-/

namespace MoneyMovement

open Txn NotificationConsumer NotificationsRepository

section Conditions

/-- The moves of workers that do not crash and lose no failure. -/
def Ordinary : Move → Prop
  | .reopen _ => False
  | .worker _ .crash => False
  | .worker _ .loseFailure => False
  | _ => True

instance : DecidablePred Ordinary := fun m => by
  unfold Ordinary
  split <;> infer_instance

def Phase.failure? : Phase → Option Uuid
  | .failed c _ => some c.id
  | _ => none

/-- An event is claimed only when no worker has still to record a failure of it. -/
def AfterRecording (w : World) : Move → Prop
  | .worker _ (.claim eventId) => ∀ k ∈ w.workers, k.phase.failure? ≠ some eventId
  | _ => True

instance (w : World) : DecidablePred (AfterRecording w) := fun m => by
  unfold AfterRecording
  split <;> infer_instance

def Patient (w : World) (m : Move) : Prop := Ordinary m ∧ AfterRecording w m

instance (w : World) : DecidablePred (Patient w) := fun m =>
  inferInstanceAs (Decidable (Ordinary m ∧ AfterRecording w m))

def Phase.attempt? : Phase → Option Uuid
  | .claimed c _ | .inserting c _ _ _ | .failed c _ => some c.id
  | _ => none

def World.Trying (w : World) (eventId : Uuid) : Prop :=
  ∃ k ∈ w.workers, k.phase.attempt? = some eventId

end Conditions

/-- The starts of a handler are the attempts recorded, and one under way or completed. -/
structure Counted (w : World) (e : OutboxEvent) : Prop where
  bounded : e.attemptCount ≤ MAX_ATTEMPTS
  trying : w.Trying e.id → e.processedAt = none ∧ e.attemptCount < MAX_ATTEMPTS
  processed : e.processedAt.isSome → e.attemptCount < MAX_ATTEMPTS
  spent : w.started.count e.id ≤ e.attemptCount ∨
    ((w.Trying e.id ∨ e.processedAt.isSome) ∧ w.started.count e.id ≤ e.attemptCount + 1)

structure Bounded (w : World) : Prop where
  single : Exclusive Phase.attempt? w.workers
  events : ∀ e ∈ w.db.outboxEvents, Counted w e
  started : ∀ id ∈ w.started, ∃ e ∈ w.db.outboxEvents, e.id = id
  tried : ∀ id, w.Trying id → ∃ e ∈ w.db.outboxEvents, e.id = id

variable {cfg : Config} {db₀ : Db} {clock : Time} {n : ℕ} {w w' : World}

section Trying

def OtherTrying (w : World) (i : ℕ) (id : Uuid) : Prop :=
  ∃ j k, j ≠ i ∧ w.workers[j]? = some k ∧ k.phase.attempt? = some id

theorem trying_iff {i : ℕ} {k : Worker} (hk : w.workers[i]? = some k) (id : Uuid) :
    w.Trying id ↔ k.phase.attempt? = some id ∨ OtherTrying w i id := by
  constructor
  · rintro ⟨x, hx, hid⟩
    obtain ⟨j, hj⟩ := List.mem_iff_getElem?.1 hx
    by_cases hji : j = i
    · subst hji
      obtain rfl := Option.some.inj (hk.symm.trans hj)
      exact Or.inl hid
    · exact Or.inr ⟨j, x, hji, hj, hid⟩
  · rintro (hid | ⟨j, x, -, hj, hid⟩)
    · exact ⟨k, List.mem_of_getElem? hk, hid⟩
    · exact ⟨x, List.mem_of_getElem? hj, hid⟩

/-- After worker `i` has gone on, the event is tried by it or by the others as before. -/
theorem trying_set {i : ℕ} {k q : Worker} (hk : w.workers[i]? = some k)
    (hw : w'.workers = w.workers.set i q) (id : Uuid) :
    w'.Trying id ↔ q.phase.attempt? = some id ∨ OtherTrying w i id := by
  have hself : w'.workers[i]? = some q := by
    rw [hw]
    exact getElem?_set_of_getElem? hk
  rw [trying_iff hself]
  have hothers : OtherTrying w' i id ↔ OtherTrying w i id := by
    simp only [OtherTrying, hw]
    constructor
    · rintro ⟨j, x, hj, hx, hid⟩
      exact ⟨j, x, hj, (List.getElem?_set_ne (Ne.symm hj)).symm.trans hx, hid⟩
    · rintro ⟨j, x, hj, hx, hid⟩
      exact ⟨j, x, hj, (List.getElem?_set_ne (Ne.symm hj)).trans hx, hid⟩
  rw [hothers]

theorem not_otherTrying (h : Exclusive Phase.attempt? w.workers) {i : ℕ} {k : Worker} {id : Uuid}
    (hk : w.workers[i]? = some k) (hid : k.phase.attempt? = some id) : ¬ OtherTrying w i id := by
  rintro ⟨j, x, hj, hx, hxid⟩
  exact hj (h j i x k id hx hk hxid hid)

end Trying

section Steps

/-- Neither the attempts nor their count change for an event. -/
theorem Counted.congr {e e' : OutboxEvent} (h : Counted w e) (hid : e'.id = e.id)
    (hattempts : e'.attemptCount = e.attemptCount) (hp : e'.processedAt = e.processedAt)
    (hs : w'.started.count e.id = w.started.count e.id) (ht : w'.Trying e.id ↔ w.Trying e.id) :
    Counted w' e' := by
  obtain ⟨hb, ht₀, hp₀, hspent⟩ := h
  refine ⟨hattempts ▸ hb, fun h => ?_, fun h => ?_, ?_⟩
  · rw [hp, hattempts]
    exact ht₀ (ht.1 (hid ▸ h))
  · rw [hattempts]
    exact hp₀ (hp ▸ h)
  · rw [hid, hs, ht, hp, hattempts]
    exact hspent

/-- A move that leaves the events and the attempts under way as they are. -/
theorem Bounded.congr (h : Bounded w) (hsingle : Exclusive Phase.attempt? w'.workers)
    (hev : w'.db.outboxEvents = w.db.outboxEvents) (hs : w'.started = w.started)
    (ht : ∀ id, w'.Trying id ↔ w.Trying id) : Bounded w' where
  single := hsingle
  events e he := (h.events e (hev ▸ he)).congr rfl rfl rfl (by rw [hs]) (ht e.id)
  started id hid := by
    rw [hev]
    exact h.started id (hs ▸ hid)
  tried id hid := by
    rw [hev]
    exact h.tried id ((ht id).1 hid)

theorem Bounded.phase (h : Bounded w) {i : ℕ} {k q : Worker} (hk : w.workers[i]? = some k)
    (hw : w'.workers = w.workers.set i q) (hev : w'.db.outboxEvents = w.db.outboxEvents)
    (hs : w'.started = w.started) (hsame : q.phase.attempt? = k.phase.attempt?) : Bounded w' := by
  refine h.congr ?_ hev hs (fun id => ?_)
  · rw [hw]
    exact h.single.set hk (fun id hid => Or.inl (hsame ▸ hid))
  · rw [trying_set hk hw, trying_iff hk, hsame]

theorem Bounded.claim (h : Bounded w) (hids : (w.db.outboxEvents.map OutboxEvent.id).Nodup)
    {i left : ℕ} {k : Worker} {e : OutboxEvent} (hk : w.workers[i]? = some k)
    (hidle : k.phase.attempt? = none) (he : e ∈ w.db.outboxEvents)
    (hdue : e.Due w.clock) (hfree : ¬ w.Trying e.id) {c : ClaimedOutboxEvent} (hc : c.id = e.id)
    {now : Time} :
    Bounded ({ w with started := w.started ++ [e.id] }.put i left (.claimed c now)) := by
  have hattempt (id : Uuid) :
      (Phase.claimed c now).attempt? = some id ↔ e.id = id := by
    simp [Phase.attempt?, hc]
  have htrying (id : Uuid) :
      ({ w with started := w.started ++ [e.id] }.put i left (.claimed c now)).Trying id ↔
        e.id = id ∨ w.Trying id := by
    rw [trying_set (w := w) (q := ⟨left, .claimed c now⟩) hk rfl, trying_iff hk, hidle, hattempt]
    simp
  refine ⟨?_, fun x hx => ?_, fun id hid => ?_, fun id hid => ?_⟩
  · refine h.single.set hk (fun id hid => Or.inr (fun x hx hxid => ?_))
    obtain rfl := (hattempt id).1 hid
    exact hfree ⟨x, hx, hxid⟩
  · have hcount := h.events x hx
    by_cases hxe : e.id = x.id
    · -- The claimed event, which nobody tried and which is not processed.
      obtain rfl : x = e := eq_of_nodup_key hids hx he hxe.symm
      have hspent : w.started.count x.id ≤ x.attemptCount := by
        rcases hcount.spent with hs | ⟨ht | hp, -⟩
        · exact hs
        · exact (hfree ht).elim
        · rw [hdue.1] at hp
          cases hp
      refine ⟨hcount.bounded, fun _ => ⟨hdue.1, hdue.2.1⟩, hcount.processed, Or.inr ⟨Or.inl ?_, ?_⟩⟩
      · exact (htrying x.id).2 (Or.inl rfl)
      · change (w.started ++ [x.id]).count x.id ≤ x.attemptCount + 1
        rw [List.count_append, List.count_singleton_self]
        omega
    · refine hcount.congr rfl rfl rfl ?_ ?_
      · change (w.started ++ [e.id]).count x.id = w.started.count x.id
        have hzero : [e.id].count x.id = 0 := List.count_eq_zero.2 (by simpa using Ne.symm hxe)
        rw [List.count_append, hzero, Nat.add_zero]
      · rw [htrying]
        simp [hxe]
  · rcases List.mem_append.1 hid with hid | hid
    · exact h.started id hid
    · exact ⟨e, he, (List.mem_singleton.1 hid).symm⟩
  · rcases (htrying id).1 hid with rfl | hid
    · exact ⟨e, he, rfl⟩
    · exact h.tried id hid

/-- An attempt comes to its end: the event is processed, or has one attempt more. -/
theorem Bounded.finish (h : Bounded w) {i : ℕ} {k q : Worker} {id : Uuid}
    {f : OutboxEvent → OutboxEvent} (hk : w.workers[i]? = some k)
    (hid : k.phase.attempt? = some id) (hw : w'.workers = w.workers.set i q)
    (hdone : q.phase.attempt? = none) (hs : w'.started = w.started)
    (hev : w'.db.outboxEvents = w.db.outboxEvents.map f) (hfid : ∀ e, (f e).id = e.id)
    (hother : ∀ e, e.id ≠ id → f e = e)
    (hself : ∀ e, e.id = id → e.processedAt = none →
      ((f e).processedAt.isSome ∧ (f e).attemptCount = e.attemptCount) ∨
        ((f e).processedAt = none ∧ (f e).attemptCount = e.attemptCount + 1)) : Bounded w' := by
  have htrying (x : Uuid) : w'.Trying x ↔ OtherTrying w i x := by
    rw [trying_set hk hw, hdone]
    simp
  have hnot : ¬ w'.Trying id := by
    rw [htrying]
    exact not_otherTrying h.single hk hid
  refine ⟨?_, fun e' he' => ?_, fun x hx => ?_, fun x hx => ?_⟩
  · rw [hw]
    exact h.single.set hk (fun x hx => by rw [hdone] at hx; cases hx)
  · rw [hev] at he'
    obtain ⟨e, he, rfl⟩ := List.mem_map.1 he'
    have hcount := h.events e he
    by_cases heid : e.id = id
    · have htry : w.Trying e.id := ⟨k, List.mem_of_getElem? hk, heid ▸ hid⟩
      obtain ⟨hnone, hlt⟩ := hcount.trying htry
      have hspent : w'.started.count e.id ≤ e.attemptCount + 1 := by
        rw [hs]
        rcases hcount.spent with hsp | ⟨-, hsp⟩
        · omega
        · exact hsp
      have hnot' : ¬ w'.Trying (f e).id := by
        rw [hfid, heid]
        exact hnot
      rcases hself e heid hnone with ⟨hp, ha⟩ | ⟨hp, ha⟩
      · refine ⟨ha ▸ hcount.bounded, fun ht => (hnot' ht).elim, fun _ => ha ▸ hlt,
          Or.inr ⟨Or.inr hp, ?_⟩⟩
        rw [hfid, ha]
        exact hspent
      · refine ⟨?_, fun ht => (hnot' ht).elim, fun hsome => ?_, Or.inl ?_⟩
        · rw [ha]
          exact hlt
        · rw [hp] at hsome
          cases hsome
        · rw [hfid, ha]
          exact hspent
    · rw [hother e heid]
      refine hcount.congr rfl rfl rfl (by rw [hs]) ?_
      rw [htrying, trying_iff hk, hid]
      simp [Ne.symm heid]
  · obtain ⟨e, he, heq⟩ := h.started x (hs ▸ hx)
    exact ⟨f e, hev ▸ List.mem_map_of_mem he, (hfid e).trans heq⟩
  · have hx' : w.Trying x := (trying_iff hk x).2 (Or.inr ((htrying x).1 hx))
    obtain ⟨e, he, heq⟩ := h.tried x hx'
    exact ⟨f e, hev ▸ List.mem_map_of_mem he, (hfid e).trans heq⟩

/-- The API adds events that nobody has tried. -/
theorem Bounded.service (h : Bounded w) {s : Service} {new : List OutboxEvent}
    (hev : s.db.outboxEvents = w.db.outboxEvents ++ new)
    (hnew : ∀ e ∈ new, e.processedAt = none ∧ e.attemptCount = 0)
    (hids : (s.db.outboxEvents.map OutboxEvent.id).Nodup) :
    Bounded { w with service := s } where
  single := h.single
  events e he := by
    rw [show ({ w with service := s } : World).db.outboxEvents = s.db.outboxEvents from rfl,
      hev] at he
    rcases List.mem_append.1 he with he | he
    · exact (h.events e he).congr rfl rfl rfl rfl Iff.rfl
    · obtain ⟨hp, ha⟩ := hnew e he
      rw [hev, List.map_append, List.nodup_append'] at hids
      -- What has been tried or started is an older event, with another id.
      have hother (e₀ : OutboxEvent) (he₀ : e₀ ∈ w.db.outboxEvents) : e₀.id ≠ e.id := by
        intro hid
        exact hids.2.2 (List.mem_map_of_mem he₀) (hid ▸ List.mem_map_of_mem he)
      have hzero : w.started.count e.id = 0 := by
        rw [List.count_eq_zero]
        intro hm
        obtain ⟨e₀, he₀, hid⟩ := h.started _ hm
        exact hother e₀ he₀ hid
      refine ⟨by omega, fun ht => ?_, fun hs => ?_, Or.inl ?_⟩
      · obtain ⟨e₀, he₀, hid⟩ := h.tried _ ht
        exact (hother e₀ he₀ hid).elim
      · rw [hp] at hs
        cases hs
      · exact hzero.trans_le (Nat.zero_le _)
  started id hid := by
    obtain ⟨e, he, heq⟩ := h.started id hid
    exact ⟨e, hev ▸ List.mem_append_left _ he, heq⟩
  tried id hid := by
    obtain ⟨e, he, heq⟩ := h.tried id hid
    exact ⟨e, hev ▸ List.mem_append_left _ he, heq⟩

/-- An event that a patient worker claims is tried by nobody. -/
theorem not_trying {i : ℕ} {e : OutboxEvent} (hfree : ¬ w.Locked e.id)
    (hok : Patient w (.worker i (.claim e.id))) : ¬ w.Trying e.id := by
  rintro ⟨k, hk, hid⟩
  cases hphase : k.phase with
  | claimed c now => exact hfree ⟨k, hk, by rw [hphase] at hid ⊢; exact hid⟩
  | inserting c now planned rows => exact hfree ⟨k, hk, by rw [hphase] at hid ⊢; exact hid⟩
  | failed c error =>
    rw [hphase] at hid
    exact hok.2 k hk (hphase ▸ hid)
  | idle =>
    rw [hphase] at hid
    cases hid
  | processed c =>
    rw [hphase] at hid
    cases hid

theorem Bounded.worked (h : Bounded w) (hids : (w.db.outboxEvents.map OutboxEvent.id).Nodup)
    {i : ℕ} {k : Worker} {m : WorkerMove} (hk : w.workers[i]? = some k)
    (hok : Patient w (.worker i m)) (hw : Worked w i k m w') : Bounded w' := by
  cases hw with
  | drain n => exact h.phase hk rfl rfl rfl rfl
  | claim left e he hdue hfree => exact h.claim hids hk rfl he hdue (not_trying hfree hok) rfl
  | idle left => exact h.phase hk rfl rfl rfl rfl
  | handle left c now planned hp => exact h.phase hk rfl rfl rfl rfl
  | throw left c now error hp => exact h.phase hk rfl rfl rfl rfl
  | insert left c now p planned rows new id refusal hid hx => exact h.phase hk rfl rfl rfl rfl
  | refuse left c now p planned rows id refusal r hx => exact h.phase hk rfl rfl rfl rfl
  | fault left phase c error hc =>
    rcases hc with ⟨now, rfl⟩ | ⟨now, planned, rows, rfl⟩
    · exact h.phase hk rfl rfl rfl rfl
    · exact h.phase hk rfl rfl rfl rfl
  | commit left c now rows =>
    refine h.finish (q := ⟨left, .processed c⟩) (f := OutboxEvent.markProcessed c.id w.clock) hk
      rfl rfl rfl rfl rfl (fun e => ?_) (fun e he => if_neg he) (fun e he _ => Or.inl ?_)
    · exact (congrArg OutboxEvent.id (markProcessed_asInserted c.id w.clock e) :)
    · rw [OutboxEvent.markProcessed, if_pos he]
      exact ⟨rfl, rfl⟩
  | recordFailure left c error hfree =>
    refine h.finish (q := ⟨left, .idle⟩) (f := OutboxEvent.recordFailure c.id error
      (BASE_BACKOFF_SECONDS * 2 ^ c.attemptCount) w.clock) hk rfl rfl rfl rfl rfl (fun e => ?_)
      (fun e he => if_neg he) (fun e he hp => Or.inr ?_)
    · exact (congrArg OutboxEvent.id (recordFailure_asInserted c.id error _ w.clock e) :)
    · rw [OutboxEvent.recordFailure, if_pos he]
      exact ⟨hp, rfl⟩
  | loseFailure left c error => exact hok.1.elim
  | explain left c text => exact h.phase (q := ⟨left, .idle⟩) hk rfl rfl rfl rfl
  | skip left c text => exact h.phase hk rfl rfl rfl rfl
  | crash => exact hok.1.elim

theorem bounded (h₀ : Quiet db₀)
    (h : World.Reached cfg Patient (World.initial db₀ clock n) w) : Bounded w := by
  induction h with
  | refl =>
    have hev : (World.initial db₀ clock n).db.outboxEvents = [] := h₀.outboxEvents
    have hidle : ∀ k ∈ (World.initial db₀ clock n).workers, k = ⟨0, .idle⟩ :=
      fun k hk => List.eq_of_mem_replicate hk
    refine ⟨?_, fun e he => ?_, fun id hid => (List.not_mem_nil hid).elim, ?_⟩
    · intro i j k k' id hi _ hid
      rw [hidle k (List.mem_of_getElem? hi)] at hid
      cases hid
    · rw [hev] at he
      cases he
    · rintro id ⟨k, hk, hid⟩
      rw [hidle k hk] at hid
      cases hid
  | @tail w w' m hreach hok hs ih =>
    cases step?_moved hs with
    | service l s hf hstep =>
      obtain ⟨new, hev, hnew⟩ := service_events hreach hstep
      exact ih.service hev hnew (event_ids h₀ (hreach.tail _ hok hs))
    | markRead notificationId userId => exact ih.congr ih.single rfl rfl (fun _ => Iff.rfl)
    | reopen id hfree => exact hok.1.elim
    | worker i k m w' hk hw => exact ih.worked (event_ids h₀ hreach) hk hok hw

end Steps

section Processed

def Settled (w : World) (e : OutboxEvent) : Prop :=
  ∃ e' ∈ w.db.outboxEvents, e'.id = e.id ∧ e'.processedAt = e.processedAt ∧
    e'.attemptCount = e.attemptCount ∧ e'.lastError = e.lastError

/-- The commit and the failure of an attempt touch no processed event. -/
theorem Bounded.untouched (h : Bounded w) {i : ℕ} {k : Worker} {id : Uuid}
    (hk : w.workers[i]? = some k) (hid : k.phase.attempt? = some id) {e : OutboxEvent}
    (he : e ∈ w.db.outboxEvents) (hp : e.processedAt.isSome) : e.id ≠ id := by
  rintro rfl
  have hnone := ((h.events e he).trying ⟨k, List.mem_of_getElem? hk, hid⟩).1
  rw [hnone] at hp
  cases hp

theorem Bounded.settled (h : Bounded w) {e : OutboxEvent} (hp : e.processedAt.isSome)
    (he : Settled w e) {cfg : Config} {permits : World → Move → Prop} {m : Move}
    (hreach : World.Reached cfg permits (World.initial db₀ clock n) w) (hok : Patient w m)
    (hs : w.step? cfg m = some w') : Settled w' e := by
  obtain ⟨e', he', hid, hp', hsame⟩ := he
  have hsome : e'.processedAt.isSome := hp' ▸ hp
  have hkept {v : World} (hv : e' ∈ v.db.outboxEvents) : Settled v e := ⟨e', hv, hid, hp', hsame⟩
  have hmapped {v : World} {f : OutboxEvent → OutboxEvent} (hf : f e' = e')
      (hv : v.db.outboxEvents = w.db.outboxEvents.map f) : Settled v e :=
    hkept (hv ▸ List.mem_map.2 ⟨e', he', hf⟩)
  cases step?_moved hs with
  | service l s hf hstep =>
    obtain ⟨new, hev, -⟩ := service_events hreach hstep
    exact hkept (hev ▸ List.mem_append_left _ he')
  | markRead notificationId userId => exact hkept he'
  | reopen id hfree => exact hok.1.elim
  | worker i k m w' hk hw =>
    cases hw with
    | commit left c now rows =>
      exact hmapped (f := OutboxEvent.markProcessed c.id w.clock)
        (if_neg (h.untouched hk rfl he' hsome)) rfl
    | recordFailure left c error hfree =>
      exact hmapped (f := OutboxEvent.recordFailure c.id error
        (BASE_BACKOFF_SECONDS * 2 ^ c.attemptCount) w.clock)
        (if_neg (h.untouched hk rfl he' hsome)) rfl
    | loseFailure left c error => exact hok.1.elim
    | crash => exact hok.1.elim
    | _ => exact hkept he'

theorem settled (h₀ : Quiet db₀) (h : World.Reached cfg Patient (World.initial db₀ clock n) w)
    (h' : World.Reached cfg Patient w w') {e : OutboxEvent} (he : e ∈ w.db.outboxEvents)
    (hp : e.processedAt.isSome) : Settled w' e := by
  induction h' with
  | refl => exact ⟨e, he, rfl, rfl, rfl, rfl⟩
  | tail m h' hok hs ih =>
    exact (bounded h₀ (h.trans h')).settled hp ih (h.trans h') hok hs

end Processed

section Claims

/-- While no event is claimed that a worker has failed and not yet recorded, no
handler is started more than `MAX_ATTEMPTS` times and a processed event keeps its
attempts and its error. -/
theorem delivery_attempts_bounded (h₀ : Quiet db₀)
    (h : World.Reached cfg Patient (World.initial db₀ clock n) w) :
    (∀ id, w.started.count id ≤ MAX_ATTEMPTS) ∧
    ∀ w', World.Reached cfg Patient w w' → ∀ e ∈ w.db.outboxEvents, e.processedAt.isSome →
      ∃ e' ∈ w'.db.outboxEvents, e'.id = e.id ∧ e'.processedAt = e.processedAt ∧
        e'.attemptCount = e.attemptCount ∧ e'.lastError = e.lastError := by
  have hb := bounded h₀ h
  refine ⟨fun id => ?_, fun w' h' e he hp => settled h₀ h h' he hp⟩
  by_cases hid : id ∈ w.started
  · obtain ⟨e, he, rfl⟩ := hb.started id hid
    have hcount := hb.events e he
    rcases hcount.spent with hs | ⟨ht | hp, hs⟩
    · exact hs.trans hcount.bounded
    · have hlt := (hcount.trying ht).2
      omega
    · have hlt := hcount.processed hp
      omega
  · rw [List.count_eq_zero.2 hid]
    exact Nat.zero_le _

theorem delivery_attempts_bounded_delivered : ∃ w : World, w.started = [119] ∧
    ∀ id, w.started.count id ≤ MAX_ATTEMPTS := by
  have hrun : (runs (permitted (World.step? sampleConfig) Patient) sampleWorld delivered).any
      (fun w => w.started = [119]) := by
    decide +kernel
  obtain ⟨w, hs, hstarted⟩ := (Option.any_eq_true _ _).1 hrun
  exact ⟨w, of_decide_eq_true hstarted,
    (delivery_attempts_bounded ⟨sampleDb_start, rfl⟩ (reaches_of_permitted hs)).1⟩

def failing (now : Time) : List Move :=
  [.service (.tick now), .worker 0 (.claim 119), .worker 0 (.fault [])]

def overtaking : List Move :=
  transferred.map .service ++ [.worker 0 (.drain 50), .worker 1 (.drain 50)] ++
    [100000, 200000, 300000, 400000].flatMap (failing · ++ [.worker 0 .recordFailure]) ++
    failing 500000 ++
    [.worker 1 (.claim 119), .worker 1 .handle, .worker 1 (.insert 900 []), .worker 1 .commit]

/-- The event has been tried six times, and is charged the fifth after it is processed. -/
theorem delivery_attempts_bounded_overtaken : ∃ w w',
    World.Reached sampleConfig (fun _ => Ordinary) sampleWorld w ∧
    World.Reached sampleConfig (fun _ => Ordinary) w w' ∧ MAX_ATTEMPTS < w'.started.count 119 ∧
    ∃ e ∈ w.db.outboxEvents, e.processedAt.isSome ∧ ∃ e' ∈ w'.db.outboxEvents,
      e'.id = e.id ∧ e.attemptCount < e'.attemptCount ∧ e'.lastError ≠ e.lastError := by
  have hrun : (runs (permitted (World.step? sampleConfig) (fun _ => Ordinary)) sampleWorld
      overtaking).any (fun w => (w.step? sampleConfig (.worker 0 .recordFailure)).any fun w' =>
        MAX_ATTEMPTS < w'.started.count 119 ∧ ∃ e ∈ w.db.outboxEvents, e.processedAt.isSome ∧
          ∃ e' ∈ w'.db.outboxEvents, e'.id = e.id ∧ e.attemptCount < e'.attemptCount ∧
            e'.lastError ≠ e.lastError) := by
    decide +kernel
  obtain ⟨w, hw, hnext⟩ := (Option.any_eq_true _ _).1 hrun
  obtain ⟨w', hw', hall⟩ := (Option.any_eq_true _ _).1 hnext
  have hone : World.Reached sampleConfig (fun _ => Ordinary) w w' :=
    .tail (.worker 0 .recordFailure) .refl trivial hw'
  exact ⟨w, w', reaches_of_permitted hw, hone, of_decide_eq_true hall⟩

end Claims

end MoneyMovement
