import MoneyMovement.Runs.Direct
import MoneyMovement.Runs.Obstacles
import MoneyMovement.Runs.Replay

/-!
# Spellings of one id

A `uuid` column reads the digits of an id in either case, but the services compare and hash
its text. Two spellings of one id are answered alike only where both are refused alike.
-/

namespace MoneyMovement

open Txn IdempotencyService TransferService MoneyRequestService

section Spellings

/-- The id that a command names, as it is spelled. -/
def Command.named : Command → JsString
  | .createDirectTransfer c => c.receiverUserId
  | .create c => c.payerUserId
  | .accept c | .decline c | .cancel c => c.requestId

def Command.respell (id : JsString) : Command → Command
  | .createDirectTransfer c => .createDirectTransfer { c with receiverUserId := id }
  | .create c => .create { c with payerUserId := id }
  | .accept c => .accept { c with requestId := id }
  | .decline c => .decline { c with requestId := id }
  | .cancel c => .cancel { c with requestId := id }

@[simp] theorem respell_key (id : JsString) (c : Command) : (c.respell id).key = c.key := by
  cases c <;> rfl

@[simp] theorem respell_named (id : JsString) (c : Command) : (c.respell id).named = id := by
  cases c <;> rfl

/-- The text of the id is part of what is hashed. -/
theorem named_of_payloadText {c : Command} {id : JsString}
    (h : c.payloadText = (c.respell id).payloadText) : c.named = id := by
  have hroute : c.key.routeKey = (c.respell id).key.routeKey := by rw [respell_key]
  have hpayload := payloadText_injective hroute h
  cases c with
  | _ =>
    injection hpayload with hfields
    injection hfields with hfirst
    injection hfirst with _ htext
    injection htext

def serve (cfg : Config) (env : Environment) (c : Command) (db : Db) : Outcome :=
  match c with
  | .createDirectTransfer c => createDirectTransfer cfg env c db
  | .accept c => acceptRetrying cfg env c db
  | _ =>
    let attempt := transaction env (body cfg c) 1 db
    ⟨[], attempt.1, attempt.2⟩

def Alike (cfg : Config) (env : Environment) (db : Db) (c c' : Command) : Prop :=
  (serve cfg env c db).outcome = (serve cfg env c' db).outcome ∧
    (serve cfg env c db).db = (serve cfg env c' db).db

/-- A request to oneself, in the spelling of one's own token. -/
def Command.NamesItself : Command → Prop
  | .create c => c.payerUserId = c.actorUserId.text
  | _ => False

/-- A command whose failure is not audited: one about a request, or a transfer of an actor who
is not registered. -/
def Command.Unaudited (db : Db) (c : Command) : Prop :=
  c.key.routeKey = .transfers → db.user? c.key.actorUserId = none

/-- No audited transfer, no request that one spelling alone tells to be to oneself, and refused
in both spellings: by a deadline, by the payload under a key in use, or by the rows. -/
structure RefusedAlike (cfg : Config) (db : Db) (draws : ℕ → Draw Time Uuid) (named : Uuid)
    (c c' : Command) : Prop where
  unaudited : c.Unaudited db
  other : ¬ c.NamesItself ∧ ¬ c'.NamesItself
  refused : c.Overdue [draws 0] ∨ match db.record? c.key with
    | some r => r.requestHash ≠ c.hash cfg ∧ r.requestHash ≠ c'.hash cfg
    | none => (c.obstacle cfg db draws named).isSome

end Spellings

section Serving

variable {cfg : Config} {db : Db} {draws : ℕ → Draw Time Uuid} {c c' : Command} {named : Uuid}

/-- An accept has looked at the form of its id before it is tried. -/
theorem accept_eq {m : ResolveMoneyRequestCommand} (h : parseUuid m.requestId = some named) :
    accept m cfg = runAccept m cfg := by
  rw [accept, assertRequestId, if_neg (by rw [h]; exact Bool.false_ne_true)]
  rfl

theorem serve_refused (auditDraws : ℕ → Draw Time Uuid) (hc : parseUuid c.named = some named)
    (haudit : c.Unaudited db) {e : Failure}
    (h : store.refusal (body cfg c) db draws = some e) :
    serve cfg (.alone draws auditDraws) c db = ⟨[], .error e.thrown, db⟩ := by
  cases c with
  | createDirectTransfer m =>
    have hactor : db.user? m.actorUserId = none := haudit rfl
    have hsame : afterFailure m e db = db :=
      if_neg (by rw [hactor]; exact Bool.false_ne_true)
    exact (direct_failed auditDraws h).trans (by rw [hsame])
  | accept m =>
    have hrefusal : store.refusal (runAccept m cfg) db draws = some e := accept_eq hc ▸ h
    have hid : ¬ (parseUuid m.requestId).isNone := by
      rw [show parseUuid m.requestId = _ from hc]
      exact Bool.false_ne_true
    exact (if_neg hid).trans (retry_refused auditDraws _ hrefusal)
  | create m => exact retry_refused auditDraws 0 h
  | decline m => exact retry_refused auditDraws 0 h
  | cancel m => exact retry_refused auditDraws 0 h

theorem serve_passed (auditDraws : ℕ → Draw Time Uuid) (hc : parseUuid c.named = some named)
    (h : store.refusal (body cfg c) db draws = none) :
    ∃ a db' n, serve cfg (.alone draws auditDraws) c db = ⟨[], .ok a, db'⟩ ∧
      store.Returns (body cfg c) db ((List.range n).map draws) a db' := by
  cases c with
  | createDirectTransfer m => exact direct_done auditDraws h
  | accept m =>
    have hbody : body cfg (.accept m) = runAccept m cfg := accept_eq hc
    rw [hbody] at h ⊢
    obtain ⟨a, db', n, hretry, hreturns⟩ := retry_passed auditDraws (MAX_ACCEPT_ATTEMPTS - 1) h
    have hid : ¬ (parseUuid m.requestId).isNone := by
      rw [show parseUuid m.requestId = _ from hc]
      exact Bool.false_ne_true
    exact ⟨a, db', n, (if_neg hid).trans hretry, hreturns⟩
  | create m => exact retry_passed auditDraws 0 h
  | decline m => exact retry_passed auditDraws 0 h
  | cancel m => exact retry_passed auditDraws 0 h

/-- Two calls with one key that leave the same tables have one digest. -/
theorem hash_of_effects {ds ds' : List (Draw Time Uuid)} {a a' : Response} {db₁ db₂ : Db}
    (hkeys : (db.idempotencyRecords.map IdempotencyRecord.key).Nodup) (hkey : c'.key = c.key)
    (h : Effect cfg db ds c a db₁) (h' : Effect cfg db ds' c' a' db₂) (hsame : db₁ = db₂) :
    c.hash cfg = c'.hash cfg := by
  cases h with
  | replay r hr hrkey hhash hinput =>
    cases h' with
    | replay r' hr' hrkey' hhash' hinput' =>
      obtain rfl := eq_of_nodup_key hkeys hr hr' (hrkey.trans (hkey.symm.trans hrkey'.symm))
      exact hhash.symm.trans hhash'
    | act x recordId hclaim hdoes hinput' =>
      exact absurd (hrkey.trans hkey.symm) (hclaim.unused r hr)
  | act x recordId hclaim hdoes hinput =>
    cases h' with
    | replay r' hr' hrkey' hhash' hinput' =>
      exact absurd (hrkey'.trans hkey) (hclaim.unused r' hr')
    | act x' recordId' hclaim' hdoes' hinput' =>
      have hrecords := congrArg Db.idempotencyRecords hsame
      simp only [Db.withRecord, apply_records, List.append_cancel_left_eq, List.cons.injEq,
        and_true] at hrecords
      exact congrArg IdempotencyRecord.requestHash hrecords

/-- A transfer keeps the spelling: of one that comes through in the digest of its record, of one
that fails in its audit row. -/
theorem transfers_differ {m m' : CreateDirectTransferCommand} (env : Environment)
    (haudit : env.audit.statement 0 = none ∧ env.audit.commit = none)
    (hactor : (db.user? m.actorUserId).isSome) (hg : Good [] db)
    (hkeys : (db.idempotencyRecords.map IdempotencyRecord.key).Nodup)
    (hkey : (Command.createDirectTransfer m').key = (Command.createDirectTransfer m).key)
    (hhash : (Command.createDirectTransfer m).hash cfg ≠ (Command.createDirectTransfer m').hash cfg)
    (htext : m.receiverUserId ≠ m'.receiverUserId) :
    ¬ Alike cfg env db (.createDirectTransfer m) (.createDirectTransfer m') := by
  rintro ⟨hout, hdb⟩
  obtain ⟨-, -, -, hok, herror⟩ := direct_all_or_nothing cfg env hg m
  obtain ⟨-, -, -, hok', herror'⟩ := direct_all_or_nothing cfg env hg m'
  cases ht : (createDirectTransfer cfg env m db).outcome with
  | ok a =>
    obtain ⟨ds, -, heffect, -⟩ := hok a ht
    obtain ⟨ds', -, heffect', -⟩ := hok' a (hout.symm.trans ht)
    exact hhash (hash_of_effects hkeys hkey heffect heffect' hdb)
  | error e =>
    have hleft := herror e ht
    have hright := herror' e (hout.symm.trans ht)
    have hactor' : (db.user? m'.actorUserId).isSome := by
      rw [show m'.actorUserId = m.actorUserId from congrArg RecordKey.actorUserId hkey]
      exact hactor
    rw [if_pos ⟨haudit, hactor⟩] at hleft
    rw [if_pos ⟨haudit, hactor'⟩] at hright
    have haudits := congrArg Db.auditEvents (hleft.symm.trans (Eq.trans hdb hright))
    simp only [List.append_cancel_left_eq, List.cons.injEq, and_true] at haudits
    have hmeta := congrArg AuditEvent.metadata haudits
    simp only [failedAudit, Json.obj.injEq, List.cons.injEq, Prod.mk.injEq, Json.str.injEq] at hmeta
    exact htext hmeta.1.2

/-- The checks that a command makes of its own input, whatever its spelling. -/
theorem inputError_respell {id : JsString} {ds : List (Draw Time Uuid)}
    (hc : parseUuid c.named = some named) (hid : parseUuid id = some named)
    (hother : ¬ c.NamesItself) (hother' : ¬ (c.respell id).NamesItself) :
    (c.respell id).inputError ds = c.inputError ds := by
  cases c with
  | createDirectTransfer m => rfl
  | create m =>
    have hself : m.payerUserId ≠ m.actorUserId.text := hother
    have hself' : id ≠ m.actorUserId.text := hother'
    simp only [Command.respell, Command.inputError, if_neg hself, if_neg hself']
  | accept m | decline m | cancel m =>
    have hparse : parseUuid m.requestId = some named := hc
    simp only [Command.respell, Command.inputError, hparse, hid]

theorem obstacle_respell (id : JsString) (draws : ℕ → Draw Time Uuid) :
    (c.respell id).obstacle cfg db draws named = c.obstacle cfg db draws named := by
  cases c <;> rfl

theorem overdue_iff {ds : List (Draw Time Uuid)} (hc : parseUuid c.named = some named)
    (hother : ¬ c.NamesItself) : c.inputError ds = none ↔ ¬ c.Overdue ds := by
  have hnil : c.inputError [] = none := by
    cases c with
    | createDirectTransfer m => rfl
    | create m =>
      simp only [Command.inputError, if_neg (show m.payerUserId ≠ m.actorUserId.text from hother)]
      cases m.expiresAt <;> rfl
    | accept m | decline m | cancel m =>
      have hparse : parseUuid m.requestId = some named := hc
      simp only [Command.inputError, isNone_of_some hparse]
      rfl
  exact inputError_again hnil

/-- Only a request to oneself, in the spelling of the token, fails with its error. -/
theorem selfRequest_only {e : Failure} (hv : Constrained db)
    (hdone : ∀ r ∈ db.idempotencyRecords, r.state = .COMPLETED) (hnew : NewIds db draws)
    {m : CreateMoneyRequestCommand} (hc : parseUuid m.payerUserId = some named)
    (hother : m.payerUserId ≠ m.actorUserId.text)
    (h : store.refusal (body cfg (.create m)) db draws = some e) :
    e.thrown ≠ selfRequest.thrown := by
  have hspells : (Command.create m).Spells named := hc
  rw [body_refusal hv hdone hnew hspells] at h
  rcases Option.or_eq_some_iff.1 h with hinput | ⟨-, hrest⟩
  · simp only [Command.inputError, if_neg hother] at hinput
    cases he : m.expiresAt with
    | none => simp [he] at hinput
    | some deadline =>
      simp only [he] at hinput
      split_ifs at hinput
      obtain rfl := Option.some.inj hinput
      decide
  · cases hr : db.record? (Command.create m).key with
    | some r =>
      simp only [hr, keyRefusal_some] at hrest
      split_ifs at hrest
      obtain rfl := Option.some.inj hrest
      decide
    | none =>
      simp only [hr, keyRefusal_none, Command.obstacle, createObstacle] at hrest
      split_ifs at hrest <;> obtain rfl := Option.some.inj hrest <;> decide

/-- Calls that both come through differ in the digest that is kept of them. -/
theorem served_differ {id : JsString} (auditDraws : ℕ → Draw Time Uuid) (hg : Good [] db)
    (hkeys : (db.idempotencyRecords.map IdempotencyRecord.key).Nodup)
    (hhash : c.hash cfg ≠ (c.respell id).hash cfg) (hc : parseUuid c.named = some named)
    (hid : parseUuid id = some named) (h : store.refusal (body cfg c) db draws = none)
    (h' : store.refusal (body cfg (c.respell id)) db draws = none) :
    ¬ Alike cfg (.alone draws auditDraws) db c (c.respell id) := by
  rintro ⟨-, hdb⟩
  obtain ⟨a, db₁, n, hserve, hreturns⟩ := serve_passed auditDraws hc h
  have hnamed : parseUuid (c.respell id).named = some named := by rw [respell_named, hid]
  obtain ⟨a', db₂, n', hserve', hreturns'⟩ :=
    serve_passed auditDraws hnamed h'
  rw [hserve, hserve'] at hdb
  exact hhash (hash_of_effects hkeys (respell_key id c) (effect_of_returns hg hreturns)
    (effect_of_returns hg hreturns') hdb)

theorem Command.Unaudited.respell (id : JsString) (h : c.Unaudited db) :
    (c.respell id).Unaudited db := by
  unfold Command.Unaudited at h ⊢
  rwa [respell_key]

theorem alike_of_refused {id : JsString} (auditDraws : ℕ → Draw Time Uuid)
    (hc : parseUuid c.named = some named) (hid : parseUuid id = some named)
    (haudit : c.Unaudited db) {e : Failure}
    (h : store.refusal (body cfg c) db draws = some e)
    (h' : store.refusal (body cfg (c.respell id)) db draws = some e) :
    Alike cfg (.alone draws auditDraws) db c (c.respell id) := by
  have hnamed : parseUuid (c.respell id).named = some named := by rw [respell_named, hid]
  rw [Alike, serve_refused auditDraws hc haudit h,
    serve_refused auditDraws hnamed (haudit.respell id) h']
  exact ⟨rfl, rfl⟩

/-- Two spellings are alike only when both are refused. -/
theorem refused_of_alike {id : JsString} (auditDraws : ℕ → Draw Time Uuid) (hg : Good [] db)
    (hkeys : (db.idempotencyRecords.map IdempotencyRecord.key).Nodup)
    (hhash : c.hash cfg ≠ (c.respell id).hash cfg) (hc : parseUuid c.named = some named)
    (hid : parseUuid id = some named) (haudit : c.Unaudited db)
    (halike : Alike cfg (.alone draws auditDraws) db c (c.respell id)) :
    ∃ e e', store.refusal (body cfg c) db draws = some e ∧
      store.refusal (body cfg (c.respell id)) db draws = some e' ∧ e.thrown = e'.thrown := by
  have hnamed : parseUuid (c.respell id).named = some named := by rw [respell_named, hid]
  have haudit' := haudit.respell id
  cases h : store.refusal (body cfg c) db draws with
  | none =>
    cases h' : store.refusal (body cfg (c.respell id)) db draws with
    | none => exact absurd halike (served_differ auditDraws hg hkeys hhash hc hid h h')
    | some e' =>
      obtain ⟨a, db', n, hserve, -⟩ := serve_passed auditDraws hc h
      have hout := halike.1
      rw [hserve, serve_refused auditDraws hnamed haudit' h'] at hout
      cases hout
  | some e =>
    cases h' : store.refusal (body cfg (c.respell id)) db draws with
    | none =>
      obtain ⟨a, db', n, hserve, -⟩ := serve_passed auditDraws hnamed h'
      have hout := halike.1
      rw [hserve, serve_refused auditDraws hc haudit h] at hout
      cases hout
    | some e' =>
      have hout := halike.1
      rw [serve_refused auditDraws hc haudit h, serve_refused auditDraws hnamed haudit' h'] at hout
      exact ⟨e, e', rfl, rfl, Except.error.inj hout⟩

/-- What such a command is refused with, in whatever spelling. -/
theorem unaudited_refusal (cfg : Config) (hv : Constrained db)
    (hdone : ∀ r ∈ db.idempotencyRecords, r.state = .COMPLETED) (hnew : NewIds db draws)
    (hc : parseUuid c.named = some named) (haudit : c.Unaudited db) :
    store.refusal (body cfg c) db draws = (c.inputError [draws 0]).or
      (keyRefusal (db.record? c.key) (c.hash cfg) (c.obstacle cfg db draws named)) := by
  cases c with
  | createDirectTransfer m =>
    refine keyed_refusal (c := .createDirectTransfer m) hdone (hnew.records 0) (fun _ _ => rfl)
      (fun hactor => ?_)
    rw [KnownUser, haudit rfl] at hactor
    cases hactor
  | _ => exact body_refusal hv hdone hnew hc

/-- One spelling names its actor, and the other fails differently. -/
theorem notOwn_of_alike {id : JsString} {e e' : Failure} (hv : Constrained db)
    (hdone : ∀ r ∈ db.idempotencyRecords, r.state = .COMPLETED) (hnew : NewIds db draws)
    (hc : parseUuid c.named = some named) (hid : parseUuid id = some named) (hne : id ≠ c.named)
    (h : store.refusal (body cfg c) db draws = some e)
    (h' : store.refusal (body cfg (c.respell id)) db draws = some e')
    (hsame : e.thrown = e'.thrown) : ¬ c.NamesItself ∧ ¬ (c.respell id).NamesItself := by
  cases c with
  | create m =>
    have hself (m : CreateMoneyRequestCommand) {x : Failure}
        (hm : m.payerUserId = m.actorUserId.text)
        (hx : store.refusal (body cfg (.create m)) db draws = some x) : x = selfRequest := by
      have hcreate : body cfg (.create m) = .fail selfRequest := if_pos hm
      rw [hcreate] at hx
      exact (Option.some.inj hx).symm
    refine ⟨fun hown => ?_, fun hown => ?_⟩
    · have hother : id ≠ m.actorUserId.text := fun he => hne (he.trans hown.symm)
      rw [hself m hown h] at hsame
      exact selfRequest_only hv hdone hnew hid hother h' hsame.symm
    · have hother : m.payerUserId ≠ m.actorUserId.text := fun he => hne (Eq.trans hown he.symm)
      rw [hself _ hown h'] at hsame
      exact selfRequest_only hv hdone hnew hc hother h hsame
  | _ => exact ⟨not_false, not_false⟩

/-- What decides between the two spellings, once neither names its actor. -/
theorem refusals (cfg : Config) {id : JsString} (hv : Constrained db)
    (hdone : ∀ r ∈ db.idempotencyRecords, r.state = .COMPLETED) (hnew : NewIds db draws)
    (hc : parseUuid c.named = some named) (hid : parseUuid id = some named)
    (haudit : c.Unaudited db) (hother : ¬ c.NamesItself)
    (hother' : ¬ (c.respell id).NamesItself) :
    store.refusal (body cfg c) db draws = (c.inputError [draws 0]).or
      (keyRefusal (db.record? c.key) (c.hash cfg) (c.obstacle cfg db draws named)) ∧
    store.refusal (body cfg (c.respell id)) db draws = (c.inputError [draws 0]).or
      (keyRefusal (db.record? c.key) ((c.respell id).hash cfg)
        (c.obstacle cfg db draws named)) := by
  have hnamed : parseUuid (c.respell id).named = some named := by rw [respell_named, hid]
  refine ⟨unaudited_refusal cfg hv hdone hnew hc haudit, ?_⟩
  rw [unaudited_refusal cfg hv hdone hnew hnamed (haudit.respell id), respell_key,
    obstacle_respell, inputError_respell hc hid hother hother']

theorem unaudited_alike_iff {id : JsString} (auditDraws : ℕ → Draw Time Uuid) (hg : Good [] db)
    (hv : Constrained db) (hkeys : (db.idempotencyRecords.map IdempotencyRecord.key).Nodup)
    (hnew : NewIds db draws) (hhash : c.hash cfg ≠ (c.respell id).hash cfg)
    (hc : parseUuid c.named = some named) (hid : parseUuid id = some named) (hne : id ≠ c.named)
    (haudit : c.Unaudited db) :
    Alike cfg (.alone draws auditDraws) db c (c.respell id) ↔
      RefusedAlike cfg db draws named c (c.respell id) := by
  have hdone : ∀ r ∈ db.idempotencyRecords, r.state = .COMPLETED :=
    fun r hr => (hg.completed r hr List.not_mem_nil).1
  constructor
  · intro halike
    obtain ⟨e, e', h, h', hsame⟩ :=
      refused_of_alike auditDraws hg hkeys hhash hc hid haudit halike
    obtain ⟨hother, hother'⟩ := notOwn_of_alike hv hdone hnew hc hid hne h h' hsame
    obtain ⟨href, href'⟩ := refusals cfg hv hdone hnew hc hid haudit hother hother'
    refine ⟨haudit, ⟨hother, hother'⟩, ?_⟩
    by_cases hover : c.Overdue [draws 0]
    · exact Or.inl hover
    · right
      rw [(overdue_iff hc hother).2 hover, Option.none_or] at href href'
      cases hr : db.record? c.key with
      | some r =>
        rw [hr] at href href'
        refine ⟨fun hx => ?_, fun hx => ?_⟩
        · rw [keyRefusal_some, if_pos hx] at href
          cases h.symm.trans href
        · rw [keyRefusal_some, if_pos hx] at href'
          cases h'.symm.trans href'
      | none =>
        rw [hr, keyRefusal_none] at href
        simp only
        rw [← href, h]
        rfl
  · rintro ⟨-, ⟨hother, hother'⟩, hrefused⟩
    obtain ⟨href, href'⟩ := refusals cfg hv hdone hnew hc hid haudit hother hother'
    have hcommon : ∃ e, store.refusal (body cfg c) db draws = some e ∧
        store.refusal (body cfg (c.respell id)) db draws = some e := by
      cases hinput : c.inputError [draws 0] with
      | some e =>
        rw [hinput] at href href'
        exact ⟨e, href, href'⟩
      | none =>
        rw [hinput, Option.none_or] at href href'
        have hrest := hrefused.resolve_left ((overdue_iff hc hother).1 hinput)
        cases hr : db.record? c.key with
        | some r =>
          rw [hr] at href href' hrest
          rw [keyRefusal_some, if_neg hrest.1] at href
          rw [keyRefusal_some, if_neg hrest.2] at href'
          exact ⟨_, href, href'⟩
        | none =>
          rw [hr] at href href' hrest
          obtain ⟨e, he⟩ := Option.isSome_iff_exists.1 hrest
          exact ⟨e, href.trans he, href'.trans he⟩
    obtain ⟨e, h, h'⟩ := hcommon
    exact alike_of_refused auditDraws hc hid haudit h h'

/-- Of two spellings of one id a call of the services makes different things, unless both are
refused and neither refusal is audited: the same answer and the same tables come of them
exactly then. -/
theorem letter_case_matters (cfg : Config) (hg : Good [] db) (hv : Constrained db)
    (hkeys : (db.idempotencyRecords.map IdempotencyRecord.key).Nodup) (hnew : NewIds db draws)
    (auditDraws : ℕ → Draw Time Uuid) {id : JsString} (hc : parseUuid c.named = some named)
    (hid : parseUuid id = some named) (hne : id ≠ c.named)
    (hdigest : cfg.sha256 c.payloadText = cfg.sha256 (c.respell id).payloadText →
      c.payloadText = (c.respell id).payloadText) :
    Alike cfg (.alone draws auditDraws) db c (c.respell id) ↔
      RefusedAlike cfg db draws named c (c.respell id) := by
  have hhash : c.hash cfg ≠ (c.respell id).hash cfg :=
    fun h => hne (named_of_payloadText (hdigest h)).symm
  by_cases haudit : c.Unaudited db
  · exact unaudited_alike_iff auditDraws hg hv hkeys hnew hhash hc hid hne haudit
  · refine iff_of_false ?_ (fun h => haudit h.unaudited)
    obtain ⟨hroute, hactor⟩ := Classical.not_imp.1 haudit
    cases c with
    | createDirectTransfer m =>
      exact transfers_differ _ ⟨rfl, rfl⟩ (Option.isSome_iff_ne_none.2 hactor) hg hkeys rfl hhash
        (fun h => hne h.symm)
    | _ => cases hroute

def letteredDb : Db :=
  { sampleDb with
    users := [sampleUser 10 "alice", sampleUser 11 "bob"]
    wallets := [⟨20, 10, .BDT, 1000, .ACTIVE⟩, ⟨21, 11, .BDT, 1000, .ACTIVE⟩] }

def upperCase (s : JsString) : JsString :=
  s.map fun u => if 0x61 ≤ u.val ∧ u.val ≤ 0x66 then Fin.ofNat _ (u.val - 0x20) else u

def acceptUnknown : Command := .accept ⟨10, (12 : Uuid).text, js "k"⟩

/-- A request that does not exist is not found in either spelling. -/
theorem letter_case_matters_unknown :
    Alike sampleConfig (.alone sampleDraws sampleDraws) letteredDb acceptUnknown
      (acceptUnknown.respell (upperCase (12 : Uuid).text)) := by
  have hg : Good [] letteredDb :=
    ⟨by decide, by decide, by decide, fun _ hr => (List.not_mem_nil hr).elim⟩
  have hv : Constrained letteredDb := ⟨by decide, by decide, by decide, by decide⟩
  have hnew : NewIds letteredDb sampleDraws :=
    ⟨fun _ r hr => (List.not_mem_nil hr).elim, fun _ t ht => (List.not_mem_nil ht).elim,
      fun _ r hr => (List.not_mem_nil hr).elim⟩
  have hid : parseUuid (upperCase (12 : Uuid).text) = some 12 := by decide +kernel
  have hne : upperCase (12 : Uuid).text ≠ acceptUnknown.named := by decide +kernel
  refine (letter_case_matters sampleConfig hg hv (by decide) hnew sampleDraws
    (c := acceptUnknown) (parseUuid_text 12) hid hne (fun h => h)).2 ?_
  have hobstacle : (acceptUnknown.obstacle sampleConfig letteredDb sampleDraws 12).isSome := by
    decide +kernel
  exact ⟨fun hroute => absurd hroute (by decide), ⟨not_false, not_false⟩, Or.inr hobstacle⟩

def answered (c : Command) (db : Db) : Except Thrown Response :=
  (serve sampleConfig (.alone sampleDraws sampleDraws) c db).outcome

def transferTo (id : JsString) : Command := .createDirectTransfer ⟨10, id, 300, .BDT, none, js "k"⟩

def requestFrom (id : JsString) : Command := .create ⟨10, id, 300, .BDT, none, none, js "k"⟩

/-- A transfer to oneself, a request to oneself and the retry of a transfer, each as the token
spells the id and in upper case. -/
theorem letter_case_slips :
    parseUuid (upperCase (10 : Uuid).text) = some 10 ∧
    parseUuid (upperCase (11 : Uuid).text) = some 11 ∧
    answered (transferTo (10 : Uuid).text) letteredDb = .error selfTransfer.thrown ∧
    answered (transferTo (upperCase (10 : Uuid).text)) letteredDb =
      .error (DbError.checkViolation .transfers_distinct_parties).thrown ∧
    answered (requestFrom (10 : Uuid).text) letteredDb = .error selfRequest.thrown ∧
    answered (requestFrom (upperCase (10 : Uuid).text)) letteredDb =
      .error (DbError.checkViolation .money_requests_distinct_parties).thrown ∧
    let first := serve sampleConfig (.alone sampleDraws sampleDraws)
      (transferTo (11 : Uuid).text) letteredDb
    first.outcome.isOk ∧ answered (transferTo (11 : Uuid).text) first.db = first.outcome ∧
      answered (transferTo (upperCase (11 : Uuid).text)) first.db =
        .error (Failure.app keyReused).thrown := by
  refine ⟨?_, ?_, ?_, ?_, ?_, ?_, ?_, ?_, ?_⟩
  · decide +kernel
  · decide +kernel
  · decide +kernel
  · decide +kernel
  · decide +kernel
  · decide +kernel
  · decide +kernel
  · decide +kernel
  · decide +kernel

end Serving

end MoneyMovement
