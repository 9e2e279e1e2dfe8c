import MoneyMovement.Runs.Records
import MoneyMovement.Txn.Readers
import MoneyMovement.Basic.Reading

/-!
# Retries

Once a call has committed, its record stays. A later call with the same key only
reads: it replays the stored response, or is refused because its payload has
another hash. What it checks before it consults the key comes first, though, and
one of these checks reads the clock.
-/

namespace MoneyMovement

open Txn Prog IdempotencyService TransferService MoneyRequestService

variable {cfg : Config} {db₀ : Db} {clock : Time} {s s' s'' : Service}

section Answers

/-- What a later call with the key of the record comes to, by the draws it gets. -/
def Command.answer (cfg : Config) (r : IdempotencyRecord) (c : Command)
    (ds : List (Draw Time Uuid)) : Except Failure Response :=
  match c.inputError ds with
  | some e => .error e
  | none => if r.requestHash = c.hash cfg then .ok (r.responseBody.getD .null)
    else .error (.app keyReused)

def Answered (key : RecordKey) (r : IdempotencyRecord) (v : Db) : Prop :=
  v.record? key = some r ∧ r.state = .COMPLETED

variable {r : IdempotencyRecord} {c : Command}

theorem begin_reads {f : BeginResult → TxM Response}
    (hreplay : ∀ status responseBody, f (.replayed status responseBody) = .ret responseBody) :
    Reads store (Answered c.key r) («begin» cfg c.params >>= f) (fun _ =>
      if r.requestHash = c.hash cfg then .ok (r.responseBody.getD .null)
      else .error (.app keyReused)) := by
  rintro v d ⟨hr, hstate⟩
  refine ⟨none, ?_, ?_⟩
  · change execTryClaim v d.id c.params.key _ = _
    rw [execTryClaim, if_pos (by rw [show v.record? c.params.key = _ from hr]; rfl)]
  · rintro v' d' ⟨hr', -⟩
    refine ⟨some r, congrArg (fun x => Except.ok (x, [])) hr', ?_⟩
    change Reads store _ (resolveExisting r (c.hash cfg) >>= f) _
    unfold resolveExisting
    by_cases hh : r.requestHash = c.hash cfg
    · rw [if_neg (not_not.2 hh), if_pos hstate, if_pos hh]
      change Reads store _ (f (.replayed _ _)) _
      rw [hreplay]
      rfl
    · rw [if_pos hh, if_neg hh]
      rfl

theorem answer_of_input {ds : List (Draw Time Uuid)} (h : c.inputError ds = none) :
    c.answer cfg r ds = if r.requestHash = c.hash cfg then .ok (r.responseBody.getD .null)
      else .error (.app keyReused) := by
  rw [Command.answer, h]

theorem answer_of_error {ds : List (Draw Time Uuid)} {e : Failure} (h : c.inputError ds = some e) :
    c.answer cfg r ds = .error e := by
  rw [Command.answer, h]

theorem begin_answers {f : BeginResult → TxM Response} {o : List (Draw Time Uuid) → _}
    (hreplay : ∀ status responseBody, f (.replayed status responseBody) = .ret responseBody)
    (ho : ∀ ds, o ds = if r.requestHash = c.hash cfg then .ok (r.responseBody.getD .null)
      else .error (.app keyReused)) :
    Reads store (Answered c.key r) («begin» cfg c.params >>= f) o :=
  (funext ho : o = _) ▸ begin_reads hreplay

/-- Accept, decline and cancel check the spelling of the id first. -/
theorem resolve_reads {m : ResolveMoneyRequestCommand} {f : BeginResult → TxM Response}
    (hinput : ∀ ds, c.inputError ds =
      if (parseUuid m.requestId).isNone then some notFound else none)
    (hreplay : ∀ status responseBody, f (.replayed status responseBody) = .ret responseBody) :
    Reads store (Answered c.key r)
      (assertRequestId m.requestId >>= fun _ => «begin» cfg c.params >>= f) (c.answer cfg r) := by
  unfold assertRequestId
  by_cases hid : (parseUuid m.requestId).isNone
  · rw [if_pos hid]
    exact answer_of_error ((hinput []).trans (if_pos hid))
  · rw [if_neg hid]
    exact begin_answers hreplay (fun ds => answer_of_input ((hinput ds).trans (if_neg hid)))

theorem create_reads (m : CreateMoneyRequestCommand) :
    Reads store (Answered (Command.create m).key r) (create m cfg)
      ((Command.create m).answer cfg r) := by
  unfold create
  by_cases hself : m.payerUserId = m.actorUserId.text
  · rw [if_pos hself]
    exact answer_of_error (if_pos hself)
  · rw [if_neg hself]
    unfold assertDeadline
    cases he : m.expiresAt with
    | none =>
      refine begin_answers (c := .create m) (fun _ _ => rfl) (fun ds => answer_of_input ?_)
      simp only [Command.inputError, if_neg hself, he]
    | some deadline =>
      rintro v d -
      have hinput (ds : List (Draw Time Uuid)) : (Command.create m).inputError (d :: ds) =
          if deadline ≤ d.now then some expiresInThePast else none := by
        simp only [Command.inputError, if_neg hself, he]
      refine ⟨d.now, rfl, ?_⟩
      change Reads store _ ((if deadline ≤ d.now then .fail expiresInThePast else .ret ()) >>=
        fun _ => runCreate m cfg) _
      by_cases hd : deadline ≤ d.now
      · rw [if_pos hd]
        exact answer_of_error ((hinput []).trans (if_pos hd))
      · rw [if_neg hd]
        exact begin_answers (c := .create m) (fun _ _ => rfl)
          (fun ds => answer_of_input ((hinput ds).trans (if_neg hd)))

/-- Every later call with the key only reads. -/
theorem body_reads (c : Command) :
    Reads store (Answered c.key r) (body cfg c) (c.answer cfg r) := by
  cases c with
  | createDirectTransfer m =>
    exact begin_answers (c := .createDirectTransfer m) (fun _ _ => rfl)
      (fun _ => answer_of_input rfl)
  | create m => exact create_reads m
  | accept m => exact resolve_reads (c := .accept m) (fun _ => rfl) (fun _ _ => rfl)
  | decline m => exact resolve_reads (c := .decline m) (fun _ => rfl) (fun _ _ => rfl)
  | cancel m => exact resolve_reads (c := .cancel m) (fun _ => rfl) (fun _ _ => rfl)

end Answers

section Committed

/-- Records are only ever added. -/
theorem Effect.records {v v' : Db} {ds : List (Draw Time Uuid)} {c : Command} {a : Response}
    (h : Effect cfg v ds c a v') : v.idempotencyRecords <+: v'.idempotencyRecords := by
  cases h with
  | replay => exact List.prefix_rfl
  | act x recordId =>
    rw [Db.withRecord, apply_records]
    exact List.prefix_append _ _

theorem record?_prefix {v v' : Db} {key : RecordKey} {r : IdempotencyRecord}
    (h : v.idempotencyRecords <+: v'.idempotencyRecords) (hr : v.record? key = some r) :
    v'.record? key = some r := by
  obtain ⟨tail, ht⟩ := h
  rw [Db.record?, ← ht, List.find?_append, show v.idempotencyRecords.find? _ = some r from hr]
  rfl

theorem answered_kept (h₀ : Start db₀)
    (h : Sys.Reach (body cfg) Open (Service.initial db₀ clock) s)
    (h' : Sys.Reach (body cfg) Open s s') {key : RecordKey} {r : IdempotencyRecord}
    (hr : Answered key r s.db) : Answered key r s'.db := by
  refine ⟨?_, hr.2⟩
  induction h' with
  | refl => exact hr.1
  | tail l hreach _ hs ih =>
    rcases step_tables (open_inv h₀.good (h.trans _ hreach)) hs with hdb | ⟨x, -, hx⟩ |
      ⟨i, t, a, -, -, -, he⟩
    · rw [hdb]
      exact ih
    · obtain ⟨-, -, -, hdb⟩ := register_spec hx
      rw [hdb]
      exact ih
    · exact record?_prefix he.records ih

structure Answers (cfg : Config) (r : IdempotencyRecord) (x : Ended store Command Response)
    (a : Response) (v : Db) : Prop where
  found : v.record? x.call.key = some r
  hash : r.requestHash = x.call.hash cfg
  body : r.responseBody.getD .null = a
  input : x.call.inputError x.draws = none

theorem Effect.answers {v v' : Db} {ds : List (Draw Time Uuid)} {c : Command} {a : Response}
    (h : Effect cfg v ds c a v') (hr : Recorded v') :
    ∃ r, Answers cfg r ⟨c, ds, .ok a⟩ a v' := by
  cases h with
  | replay r hmem hkey hhash hinput =>
    have hfound : v.record? r.key = some r := find?_eq_of_nodup hr.keys hmem
    exact ⟨r, hkey ▸ hfound, hhash, rfl, hinput⟩
  | act x recordId hclaim hdoes hinput =>
    have hmem : storedRecord c.key (c.hash cfg) (x.completion recordId) ∈
        ((x.apply v).withRecord
          (storedRecord c.key (c.hash cfg) (x.completion recordId))).idempotencyRecords :=
      List.mem_append_right _ (List.mem_singleton_self _)
    exact ⟨_, find?_eq_of_nodup hr.keys hmem, rfl, rfl, hinput⟩

/-- A call that has committed has left a record that answers for it. -/
theorem ended_answered (h₀ : Start db₀)
    (h : Sys.Reach (body cfg) Open (Service.initial db₀ clock) s) {x : Ended store Command Response}
    {a : Response} (hx : x ∈ s.ended) (hok : x.outcome = .ok a) : ∃ r, Answers cfg r x a s.db := by
  have hinv := explained_induction
    (motive := fun log v => Recorded v ∧ ∀ x ∈ log.filterMap Event.ended?, ∀ a, x.outcome = .ok a →
      ∃ r, Answers cfg r x a v) h₀.good ⟨h₀.recorded, by simp⟩
    (fun log v c ds a v' _ ih he => ?_) (fun log v r v' _ ih hr => ?_)
    (fun log v c ds e _ ih => ⟨ih.1, fun x hx a hok => ?_⟩)
    (fun log v c ih => ⟨ih.1, fun x hx a hok => ?_⟩) (open_inv h₀.good h).explained
  · exact hinv.2 x hx a hok
  · refine ⟨ih.1.effect he, fun x hx a' hok => ?_⟩
    rcases Sys.mem_ended_snoc.1 hx with hx | hx
    · obtain ⟨r, hr⟩ := ih.2 x hx a' hok
      exact ⟨r, record?_prefix he.records hr.found, hr.hash, hr.body, hr.input⟩
    · cases hx
      cases hok
      exact he.answers (ih.1.effect he)
  · refine ⟨ih.1.register hr, fun x hx a hok => ?_⟩
    obtain ⟨-, -, -, rfl⟩ := register_spec hr
    rcases Sys.mem_ended_snoc.1 hx with hx | hx
    · obtain ⟨r', hr'⟩ := ih.2 x hx a hok
      exact ⟨r', hr'.found, hr'.hash, hr'.body, hr'.input⟩
    · cases hx
  · rcases Sys.mem_ended_snoc.1 hx with hx | hx
    · exact ih.2 x hx a hok
    · cases hx
      cases hok
  · rcases Sys.mem_ended_snoc.1 hx with hx | hx
    · exact ih.2 x hx a hok
    · cases hx

end Committed

section Payloads

/-- The canonical payload of a command, field by field. -/
def Command.fields : Command → List (JsString × Option JsString)
  | .createDirectTransfer c =>
    [(js "receiverUserId", some c.receiverUserId), (js "amountMinor", some (decimal c.amountMinor)),
      (js "currency", some c.currency.text), (js "note", c.note)]
  | .create c =>
    [(js "payerUserId", some c.payerUserId), (js "amountMinor", some (decimal c.amountMinor)),
      (js "currency", some c.currency.text), (js "note", c.note),
      (js "expiresAt", c.expiresAt.map toISOString)]
  | .accept c | .decline c | .cancel c => [(js "requestId", some c.requestId)]

theorem payload_eq_flat (c : Command) : c.params.payload = flat c.fields := by
  have htext (o : Option JsString) : jsonText o = flatValue o := by
    cases o <;> rfl
  cases c with
  | createDirectTransfer c =>
    simp only [Command.params, TransferService.beginParams, canonicalPayload, htext]
    rfl
  | create c =>
    simp only [Command.params, createParams, createPayload, htext]
    rfl
  | _ => rfl

theorem fields_keys {c c' : Command} (h : c.key.routeKey = c'.key.routeKey) :
    c.fields.map Prod.fst = c'.fields.map Prod.fst := by
  cases c <;> cases c' <;> cases h <;> rfl

theorem fields_nodup (c : Command) : (c.fields.map Prod.fst).Nodup := by
  cases c <;> simp only [Command.fields, List.map_cons, List.map_nil] <;> decide

def Command.payloadText (c : Command) : JsString := stableStringify decimal c.params.payload

theorem payloadText_injective {c c' : Command} (h : c.key.routeKey = c'.key.routeKey)
    (ht : c.payloadText = c'.payloadText) : c.params.payload = c'.params.payload := by
  rw [Command.payloadText, Command.payloadText, payload_eq_flat, payload_eq_flat] at ht
  rw [payload_eq_flat, payload_eq_flat, flat_injective decimal (fields_keys h) (fields_nodup c) ht]

end Payloads

/-- A create whose deadline the first reading of the clock has reached. -/
def Command.Overdue (c : Command) (ds : List (Draw Time Uuid)) : Prop :=
  ∃ m deadline d, c = .create m ∧ m.expiresAt = some deadline ∧ ds.head? = some d ∧
    deadline ≤ d.now

/-- A command that has once passed its input checks passes them later unless overdue. -/
theorem inputError_again {c : Command} {ds ds' : List (Draw Time Uuid)}
    (h : c.inputError ds = none) : c.inputError ds' = none ↔ ¬ c.Overdue ds' := by
  cases c with
  | create m =>
    have hself : m.payerUserId ≠ m.actorUserId.text := by
      intro hself
      simp only [Command.inputError, if_pos hself] at h
      cases h
    simp only [Command.inputError, if_neg hself]
    constructor
    · rintro hin ⟨m', deadline, d, hm, he, hd, hle⟩
      cases hm
      obtain ⟨rest, rfl⟩ := List.head?_eq_some_iff.1 hd
      simp only [he, if_pos hle] at hin
      cases hin
    · intro hnot
      cases he : m.expiresAt with
      | none => rfl
      | some deadline =>
        cases ds' with
        | nil => rfl
        | cons d rest => exact if_neg (fun hle => hnot ⟨m, deadline, d, rfl, he, rfl, hle⟩)
  | _ =>
    refine ⟨fun _ => ?_, fun _ => h⟩
    rintro ⟨m', deadline, d, hm, -⟩
    cases hm

/-- A later call with the key of a committed one. The same command replays the stored
response and changes nothing, unless it is an overdue create; a command with another
payload, whose digest does not collide, is refused and changes nothing. -/
theorem retry_replays (h₀ : Start db₀)
    (h : Sys.Reach (body cfg) Open (Service.initial db₀ clock) s)
    {x : Ended store Command Response} {a : Response} (hx : x ∈ s.ended) (hok : x.outcome = .ok a)
    {c : Command} (hkey : c.key = x.call.key)
    (h' : Sys.Reach (body cfg) Open { s with txs := s.txs ++ [some (Tx.fresh (body cfg) c)] } s')
    {t : Tx store Command Response} (ht : s'.tx s.txs.length = some t)
    (hend : s'.step? (body cfg) (.finish s.txs.length) = some s'') :
    (c = x.call →
      ((s''.log = s'.log ++ [.ended ⟨c, t.draws, .ok a⟩] ∧ s''.db = s'.db) ↔
        ¬ c.Overdue t.draws)) ∧
    (c.params.payload ≠ x.call.params.payload →
      (cfg.sha256 c.payloadText = cfg.sha256 x.call.payloadText →
        c.payloadText = x.call.payloadText) →
      s''.db = s'.db ∧ ∃ e, s''.log = s'.log ++ [.ended ⟨c, t.draws, .error e⟩] ∧
        (c.inputError t.draws = none → e = .app keyReused)) := by
  obtain ⟨r, hr⟩ := ended_answered h₀ h hx hok
  have hstate : r.state = .COMPLETED :=
    ((open_inv h₀.good h).good.completed r (List.mem_of_find?_eq_some hr.found) List.not_mem_nil).1
  -- From the start of the later call on, the record stands under its key.
  have hstart : Sys.Reach (body cfg) Open (Service.initial db₀ clock)
      { s with txs := s.txs ++ [some (Tx.fresh (body cfg) c)] } := h.tail (.start c) trivial rfl
  have hF : ∀ s', Sys.Reach (body cfg) Open
      { s with txs := s.txs ++ [some (Tx.fresh (body cfg) c)] } s' → Answered c.key r s'.db :=
    fun s' h' => answered_kept h₀ hstart h' ⟨hkey ▸ hr.found, hstate⟩
  have hnew : ({ s with txs := s.txs ++ [some (Tx.fresh (body cfg) c)] } : Service).tx
      s.txs.length = some (Tx.fresh (body cfg) c) := by simp [Sys.tx]
  obtain ⟨-, hall⟩ := Reading.reach hF hnew (.fresh (body_reads c)) h'
  obtain ⟨hcall, hread⟩ := hall t ht
  obtain rfl := Reading.finish ht hread hend
  rw [show t.call = c from hcall]
  refine ⟨?_, fun hpayload hcollide => ⟨rfl, ?_⟩⟩
  · rintro rfl
    rw [← inputError_again hr.input]
    constructor
    · rintro ⟨hlog, -⟩
      have ho := (Event.ended.inj (List.singleton_inj.1 (List.append_cancel_left hlog)))
      cases hin : x.call.inputError t.draws with
      | none => rfl
      | some e =>
        rw [answer_of_error hin] at ho
        cases ho
    · intro hin
      rw [answer_of_input hin, if_pos hr.hash, hr.body]
      exact ⟨rfl, rfl⟩
  · have hhash : ¬ r.requestHash = c.hash cfg := by
      intro heq
      exact hpayload (payloadText_injective (congrArg RecordKey.routeKey hkey)
        (hcollide (heq.symm.trans hr.hash)))
    cases hin : c.inputError t.draws with
    | none =>
      rw [answer_of_input hin, if_neg hhash]
      exact ⟨.app keyReused, rfl, fun _ => rfl⟩
    | some e =>
      rw [answer_of_error hin]
      exact ⟨e, rfl, fun hnone => by cases hnone⟩

/-- The same create again, ten units of time after the first. -/
theorem retry_replays_requested : ∃ s s' s'' : Service, ∃ x ∈ s.ended, ∃ a ds,
    x.outcome = .ok a ∧ s''.log = s'.log ++ [.ended ⟨sampleRequest, ds, .ok a⟩] ∧
      s''.db = s'.db := by
  let retried (s : Service) : Service :=
    { s with txs := s.txs ++ [some (Tx.fresh (body sampleConfig) sampleRequest)] }
  have hrun : ((Service.initial sampleDb 50).run (body sampleConfig) requested).any (fun s =>
      s.ended.any (fun x => x.call = sampleRequest ∧ x.outcome.isOk) &&
        ((retried s).run (body sampleConfig) (.tick 60 :: steps 1 3 200)).any (fun s' =>
          (s'.tx s.txs.length).any (fun t => t.draws.head?.map Draw.now = some 60) &&
            (s'.step? (body sampleConfig) (.finish s.txs.length)).isSome)) := by
    decide +kernel
  obtain ⟨s, hs, hboth⟩ := of_run hrun
  obtain ⟨hany, hlater⟩ := Bool.and_eq_true_iff.1 hboth
  obtain ⟨x, hx, hfacts⟩ := List.any_eq_true.1 hany
  obtain ⟨hcall, hok⟩ := of_decide_eq_true hfacts
  obtain ⟨s', hs', hlast⟩ := of_run hlater
  obtain ⟨hdraws, hfinish⟩ := Bool.and_eq_true_iff.1 hlast
  obtain ⟨t, ht, hnow⟩ := (Option.any_eq_true _ _).1 hdraws
  obtain ⟨s'', hend⟩ := Option.isSome_iff_exists.1 hfinish
  obtain ⟨a, ha⟩ : ∃ a, x.outcome = .ok a := by
    cases ho : x.outcome with
    | ok a => exact ⟨a, rfl⟩
    | error e =>
      rw [ho] at hok
      cases hok
  have hdue : ¬ sampleRequest.Overdue t.draws := by
    rintro ⟨m, deadline, d, hm, hdeadline, hd, hle⟩
    cases hm
    cases hdeadline
    have h60 := of_decide_eq_true hnow
    rw [hd, Option.map_some, Option.some.injEq] at h60
    rw [h60] at hle
    exact absurd hle (by decide)
  have hreplay := retry_replays sampleDb_start (open_of_run hs) hx ha
    (congrArg Command.key hcall.symm) (open_of_run hs') ht hend
  obtain ⟨hlog, hdb⟩ := (hreplay.1 hcall.symm).2 hdue
  exact ⟨s, s', s'', x, hx, a, t.draws, ha, hlog, hdb⟩

/-- A create that has committed is refused when it is retried after its deadline. -/
theorem overdue_create_refused : ∃ s : Service,
    Sys.Reach (body sampleConfig) Open (Service.initial sampleDb 50) s ∧
    s.ended.map (·.call) = [sampleRequest, sampleRequest] ∧
    s.ended.map (·.outcome.isOk) = [true, false] ∧
    (s.ended.map (·.outcome)).getLast? = some (.error expiresInThePast) := by
  have hrun : ((Service.initial sampleDb 50).run (body sampleConfig)
      (requested ++ .tick 200 :: .start sampleRequest :: steps 1 1 200 ++ [.finish 1])).any
        (fun s => s.ended.map (·.call) = [sampleRequest, sampleRequest] ∧
          s.ended.map (·.outcome.isOk) = [true, false] ∧
          (s.ended.map (·.outcome)).getLast? = some (.error expiresInThePast)) := by
    decide +kernel
  obtain ⟨s, hs, hfacts⟩ := of_run hrun
  exact ⟨s, open_of_run hs, of_decide_eq_true hfacts⟩

end MoneyMovement
