import MoneyMovement.Locking.Programs
import MoneyMovement.Txn.Replay

/-!
# The five operations keep to the locking discipline

`begin` leaves the caller either with the replayed response or with a claimed
key, whose unfinished record nobody else can reach until `complete`. Between the
two, requests and wallets are locked in that order.
-/

namespace MoneyMovement

open Txn Prog IdempotencyService TransferService MoneyRequestService

variable {closed : Prop} {α : Type} {Q : List Lock → Db → α → Prop} {L L' : List Lock} {v v' : Db}

section Keys

/-- The record `id` is the only one of the key, and the only one that may be
unfinished. -/
structure Claimed (key : RecordKey) (id : Uuid) (L : List Lock) (v : Db) : Prop where
  keyHeld : Lock.key key ∈ L
  recordHeld : Lock.record id ∈ L
  only : ∀ k, Lock.key k ∈ L → k = key
  mine : ∀ r ∈ v.idempotencyRecords, r.id = id ↔ r.key = key
  row : ∃ r ∈ v.idempotencyRecords, r.id = id

variable {key : RecordKey} {id : Uuid}

/-- While keys are held their records stay as they are: finished, if they were. -/
theorem Good.finished (h : Good [] v) (hg : Good L v') (he : Evolves closed L v v') :
    Good [] v' := by
  refine ⟨hg.walletIds, hg.owners, hg.balances, fun r hr _ => ?_⟩
  by_cases hk : Lock.key r.key ∈ L
  · exact h.completed r (mem_of_rows_eq (he.keys _ hk) hr rfl) List.not_mem_nil
  · exact hg.completed r hr hk

theorem Claimed.congr (h : Claimed key id L v)
    (hr : v'.idempotencyRecords = v.idempotencyRecords) : Claimed key id L v' := by
  refine ⟨h.keyHeld, h.recordHeld, h.only, ?_, ?_⟩
  · rw [hr]
    exact h.mine
  · rw [hr]
    exact h.row

theorem Claimed.evolves (he : Evolves closed L v v') (h : Claimed key id L v) :
    Claimed key id L v' where
  keyHeld := h.keyHeld
  recordHeld := h.recordHeld
  only := h.only
  mine r hr := by
    constructor
    · intro hid
      exact (h.mine r (mem_of_rows_eq (he.records id h.recordHeld) hr hid)).1 hid
    · intro hk
      exact (h.mine r (mem_of_rows_eq (he.keys key h.keyHeld) hr hk)).2 hk
  row := by
    obtain ⟨r, hr, hid⟩ := h.row
    exact ⟨r, mem_of_rows_eq (he.records id h.recordHeld).symm hr hid, hid⟩

theorem Claimed.frame {s : Stmt} {d : Draw Time Uuid} {r : Reply s} {ws : List Write}
    (hk : s.kind ≠ .record) (hx : store.exec s v d = .ok (r, ws)) (h : Claimed key id L v) :
    Claimed key id (store.wants s v d ++ L) (store.view v ws) where
  keyHeld := List.mem_append_right _ h.keyHeld
  recordHeld := List.mem_append_right _ h.recordHeld
  only k hm := (List.mem_append.1 hm).elim (fun hw => absurd hw (wants_key hk v d k)) (h.only k)
  mine := by
    rw [records_unchanged hx hk]
    exact h.mine
  row := by
    rw [records_unchanged hx hk]
    exact h.row

theorem disciplined_complete {params : CompleteParams} {a : α} (hg : Good L v)
    (h : Claimed key params.recordId L v) :
    (protocol closed).Disciplined (fun _ v' _ => Good [] v')
      (complete params >>= fun _ => .ret a) L v := by
  obtain ⟨row, hrow, hid⟩ := h.row
  have hfind (v' : Db) (he : Evolves closed L v v') :
      ∃ r, v'.recordById? params.recordId = some r ∧ r.key = key := by
    have h' := h.evolves he
    obtain ⟨r, hr, hrid⟩ := h'.row
    obtain ⟨r', hf⟩ := Option.isSome_iff_exists.1
      (List.find?_isSome.2 ⟨r, hr, by simpa using hrid⟩ :
        (v'.recordById? params.recordId).isSome)
    have hid' : r'.id = params.recordId := (find?_spec hf).2
    exact ⟨r', hf, (h'.mine r' (List.mem_of_find?_eq_some hf)).1 hid'⟩
  have hwants (v' : Db) (he : Evolves closed L v v') (d : Draw Time Uuid) :
      store.wants (.complete params) v' d = [.key key] := by
    obtain ⟨r, hf, hk⟩ := hfind v' he
    simp only [store, wants, hf, Option.toList_some, List.map_cons, hk, List.map_nil]
  have hexec (v' : Db) (he : Evolves closed L v v') (d : Draw Time Uuid) :
      store.exec (.complete params) v' d = .ok ((), [.completeRecord params]) := by
    obtain ⟨r, hf, -⟩ := hfind v' he
    simp only [store, exec, hf, Option.isSome_some, if_true]
  have he₀ : Evolves closed L v v := Evolves.refl closed L v
  refine .settled _ not_false (fun v' d he => ?_) (fun d => ?_) (fun d r ws hx => ?_)
    (fun d e hx => ?_)
  · rw [hexec v' he, hexec v he₀, hwants v' he, hwants v he₀]
    exact ⟨rfl, rfl⟩
  · rw [hwants v he₀]
    exact List.cons_subset.2 ⟨h.keyHeld, List.nil_subset _⟩
  · rw [hexec v he₀] at hx
    cases hx
    rw [hwants v he₀]
    have how : Owns (.key key :: L) v (.completeRecord params) := by
      refine ⟨List.mem_cons_of_mem _ h.recordHeld, fun r hr hrid => ?_⟩
      rw [(h.mine r hr).1 hrid]
      exact List.mem_cons_self
    have hdone : Good [] (applyWrite v (.completeRecord params)) := by
      refine ⟨hg.walletIds, hg.owners, hg.balances, fun r hr _ => ?_⟩
      obtain ⟨r₀, hr₀, rfl⟩ := List.mem_map.1 hr
      by_cases hid : r₀.id = params.recordId
      · simp [IdempotencyRecord.complete, hid]
      · rw [complete_of_ne hid]
        exact hg.completed r₀ hr₀ (fun hm => hid ((h.mine r₀ hr₀).2 (h.only _ hm)))
    exact ⟨⟨how, trivial⟩, fun v' hg' he' => hdone.finished hg' he'⟩
  · rw [hexec v he₀] at hx
    cases hx

def Begun (key : RecordKey) (L : List Lock) (v : Db) : BeginResult → Prop
  | .claimed id => (∀ o ∈ L, o.rank ≤ 1) ∧ Claimed key id L v
  | .replayed _ _ => Good [] v

theorem record?_kept (he : Evolves closed L v v') (h : (v.record? key).isSome) :
    (v'.record? key).isSome := by
  obtain ⟨r, hr, hk⟩ := List.find?_isSome.1 h
  obtain ⟨r', hr', hk'⟩ := he.keyKept r hr
  exact List.find?_isSome.2 ⟨r', hr', by simpa [hk'] using hk⟩

/-- A record found while nothing is held is finished, so its holder replays it or
rejects another payload: it never takes the record over. -/
theorem disciplined_lockExisting {hash : JsString} {retry : TxM BeginResult}
    (h : (v.record? key).isSome) :
    (protocol closed).Disciplined (Begun key) (query (.lockExisting key) >>= fun existing =>
      match existing with
      | none => retry
      | some row => resolveExisting row hash) [] v := by
  have hwants (v' : Db) (he : Evolves closed [] v v') (d : Draw Time Uuid) :
      store.wants (.lockExisting key) v' d = [.key key] := by
    simp only [store, wants, record?_kept he h, if_true]
  refine .locked _ not_false
    (fun v' d _ _ o _ => Or.inr (fun o' ho' => (List.not_mem_nil ho').elim))
    (fun v' d _ he v'' he' => ?_) (fun v' d r ws hg he hx => ?_) (fun v' d e _ _ hx => by cases hx)
  · rw [hwants v' he] at he'
    have he' : Evolves closed [.key key] v' v'' := he'
    have hfind : v''.record? key = v'.record? key :=
      find?_congr (he'.keys key List.mem_cons_self)
    simp only [store, exec, hfind]
  · cases hx
    rw [hwants v' he]
    refine ⟨trivial, ?_⟩
    have hg : Good [] v' := hg
    obtain ⟨row, hrow⟩ := Option.isSome_iff_exists.1 (record?_kept he h)
    have hdone := hg.completed row (List.mem_of_find?_eq_some hrow) List.not_mem_nil
    rw [hrow]
    change (protocol closed).Disciplined _ (resolveExisting row hash) _ _
    unfold resolveExisting
    split_ifs with hhash
    · rintro (hi | hi)
      · simp [keyReused, beingProcessed] at hi
      · cases hi
    · intro v'' hg' he'
      exact hg.finished hg' he'
    · exact absurd hdone.1 ‹_›

/-- A record of a fresh id under a key that is not used. -/
theorem claimed_insertRecord (row : IdempotencyRecord)
    (hkey : ∀ r ∈ v.idempotencyRecords, r.key ≠ row.key)
    (hid : ∀ r ∈ v.idempotencyRecords, r.id ≠ row.id) :
    Claimed row.key row.id [.key row.key, .record row.id] (applyWrite v (.insertRecord row)) := by
  refine ⟨List.mem_cons_self, List.mem_cons_of_mem _ List.mem_cons_self, fun k hk => ?_,
    fun r hr => ?_, row, List.mem_append_right _ List.mem_cons_self, rfl⟩
  · rcases List.mem_cons.1 hk with he | hk
    · injection he
    · cases List.mem_singleton.1 hk
  · rcases List.mem_append.1 hr with hr | hr
    · exact iff_of_false (hid r hr) (hkey r hr)
    · rw [List.mem_singleton.1 hr]
      exact iff_of_true rfl rfl

/-- Under its locks the claim of a key can only be told another answer about the actor. -/
theorem steady_tryClaim {hash : JsString} {d : Draw Time Uuid} {k : Option Uuid → TxM BeginResult}
    (hu : ∀ v', Evolves closed [.key key, .record d.id] v v' →
      v'.user? key.actorUserId = v.user? key.actorUserId) :
    (protocol closed).Steady [.key key, .record d.id] v (.tryClaim key hash) d k := by
  intro v' he
  have he : Evolves closed [.key key, .record d.id] v v' := he
  have hkey : v'.record? key = v.record? key :=
    find?_congr (he.keys key List.mem_cons_self)
  have hid : v'.recordById? d.id = v.recordById? d.id :=
    find?_congr (he.records d.id (List.mem_cons_of_mem _ List.mem_cons_self))
  simp only [Engine.next, store, exec, execTryClaim, hkey, hu v' he, hid]

/-- The loop ends in its first round. -/
theorem disciplined_attempts (hash : JsString) (left : ℕ) :
    (protocol closed).Disciplined (Begun key) (attempts key hash (left + 1)) [] v := by
  intro v' hg he d
  refine ⟨not_false, fun o ho => Or.inr (fun o' ho' => (List.not_mem_nil ho').elim), ?_⟩
  cases hr : v'.record? key with
  | some r =>
    have hexec (v'' : Db) (he' : Evolves closed [] v' v'') :
        store.exec (.tryClaim key hash) v'' d = .ok (none, []) := by
      have := record?_kept he' (by rw [hr]; rfl : (v'.record? key).isSome)
      simp only [store, exec, execTryClaim, this, if_true]
    have hwants : store.wants (.tryClaim key hash) v' d = [] := by
      simp only [store, wants, hr, Option.isSome_some, if_true]
    rw [hexec v' (Evolves.refl _ _ _), hwants]
    refine ⟨Or.inl (fun v'' he' => ?_), trivial,
      disciplined_lockExisting (by rw [Engine.view_nil, hr]; rfl)⟩
    rw [Engine.next_ok _ (hexec v'' he'), Engine.next_ok _ (hexec v' (Evolves.refl _ _ _))]
  | none =>
    have hwants : store.wants (.tryClaim key hash) v' d = [.key key, .record d.id] := by
      simp [store, wants, hr]
    rw [hwants]
    cases hu : v'.user? key.actorUserId with
    | none =>
      have hx : store.exec (.tryClaim key hash) v' d = .error
          (.db (.foreignKeyViolation .idempotency_records_actor_user_id_fkey)) := by
        simp [store, exec, execTryClaim, hr, hu]
      rw [hx]
      refine ⟨?_, throws_db (by decide)⟩
      by_cases hc : closed
      · exact Or.inl (steady_tryClaim fun v'' he' => by simp only [Db.user?, (he'.settled hc).1])
      · exact Or.inr ⟨hc, by simp [Unsettled]⟩
    | some u =>
      have husers (v'' : Db) (he' : Evolves closed [.key key, .record d.id] v' v'') :
          v''.user? key.actorUserId = v'.user? key.actorUserId :=
        user?_kept he' (by rw [hu]; rfl)
      cases hid : v'.recordById? d.id with
      | some r =>
        have hx : store.exec (.tryClaim key hash) v' d = .error (.db .uniqueViolation) := by
          simp [store, exec, execTryClaim, hr, hu, hid]
        rw [hx]
        exact ⟨Or.inl (steady_tryClaim husers), throws_db (by decide)⟩
      | none =>
        let row : IdempotencyRecord :=
          { id := d.id, key, requestHash := hash, state := .PROCESSING, responseStatus := none,
            responseBody := none, resourceType := none, resourceId := none }
        have hx : store.exec (.tryClaim key hash) v' d = .ok (some d.id, [.insertRecord row]) := by
          simp [store, exec, execTryClaim, hr, hu, hid, row]
        have hnokey : ∀ r ∈ v'.idempotencyRecords, r.key ≠ key := by
          simpa [Db.record?] using hr
        have hnoid : ∀ r ∈ v'.idempotencyRecords, r.id ≠ d.id := by
          simpa [Db.recordById?] using hid
        rw [hx]
        refine ⟨Or.inl (steady_tryClaim husers), ⟨⟨List.mem_cons_self,
          List.mem_cons_of_mem _ List.mem_cons_self⟩, trivial⟩, fun v'' _ he' => ?_⟩
        have hclaimed := claimed_insertRecord row hnokey hnoid
        refine ⟨fun o ho => ?_, hclaimed.evolves he'⟩
        rcases List.mem_cons.1 ho with rfl | ho
        · exact Nat.zero_le _
        · rw [List.mem_singleton.1 ho]
          exact le_rfl

theorem disciplined_begin (cfg : Config) (params : BeginParams) :
    (protocol closed).Disciplined (Begun params.key) («begin» cfg params) [] v :=
  disciplined_attempts _ 2

end Keys

section Requests

structure Pinned (id : Uuid) (L : List Lock) (v : Db) : Prop where
  held : Lock.request id ∈ L
  row : ∃ r ∈ v.moneyRequests, r.id = id

theorem Pinned.evolves {id : Uuid} (he : Evolves closed L v v') (h : Pinned id L v) :
    Pinned id L v' := by
  obtain ⟨r, hr, hid⟩ := h.row
  exact ⟨h.held, r, mem_of_rows_eq (he.requests id h.held).symm hr hid, hid⟩

theorem Pinned.frame {id : Uuid} {s : Stmt} {d : Draw Time Uuid} {r : Reply s} {ws : List Write}
    (hk : s.kind ≠ .request) (hx : store.exec s v d = .ok (r, ws)) (h : Pinned id L v) :
    Pinned id (store.wants s v d ++ L) (store.view v ws) := by
  refine ⟨List.mem_append_right _ h.held, ?_⟩
  rw [requests_unchanged hx hk]
  exact h.row

variable {key : RecordKey} {recordId : Uuid}

theorem disciplined_insertRequest {command : CreateMoneyRequestCommand}
    (hl : ∀ o ∈ L, o.rank ≤ 1) (h : Claimed key recordId L v) :
    (protocol closed).Disciplined (fun _ v' _ => Good [] v') (insertRequest command recordId) L
      v := by
  refine .locked _ not_false (fun v' d _ _ o ho => Or.inr (fun o' ho' => ?_))
    (fun v' d _ _ v'' he => ?_) (fun v' d row ws hg he hx => ?_) (fun v' d e _ _ hx => ?_)
  · rw [List.mem_singleton.1 ho]
    exact Or.inl (Nat.lt_succ_of_le (hl o' ho'))
  · have he : Evolves closed (.request d.id :: L) v' v'' := he
    have hfind : v''.request? d.id = v'.request? d.id :=
      find?_congr (he.requests d.id List.mem_cons_self)
    simp only [store, exec, execCreateMoneyRequest, hfind]
  · have hk := (h.evolves he).frame (by simp [Stmt.kind]) hx
    have hg : Good L v' := hg
    simp only [store, exec, execCreateMoneyRequest] at hx
    split at hx
    · cases hx
    · split_ifs at hx
      cases hx
      refine ⟨⟨List.mem_cons_self, trivial⟩, ?_⟩
      have hg' := hg.mono (List.subset_cons_self (Lock.request d.id) _)
      refine disciplined_insertOutboxEvent fun event =>
        disciplined_insertAuditEvent fun v'' hg'' he'' => ?_
      have hk'' : Claimed key recordId (.request d.id :: L) v'' :=
        Claimed.evolves he'' (hk.congr rfl)
      exact disciplined_newDate fun now =>
        disciplined_complete (hg''.congr rfl rfl) (hk''.congr rfl)
  · simp only [store, exec, execCreateMoneyRequest] at hx
    split at hx
    · next hc =>
      cases hx
      obtain rfl := castUuid_error hc
      exact throws_db (by decide)
    · split_ifs at hx <;> cases hx <;> exact throws_db (by decide)

theorem disciplined_createClaimed {command : CreateMoneyRequestCommand}
    (hl : ∀ o ∈ L, o.rank ≤ 1) (h : Claimed key recordId L v) :
    (protocol closed).Disciplined (fun _ v' _ => Good [] v') (createClaimed command recordId) L
      v := by
  intro v' hg he d
  refine ⟨not_false, fun o ho => (List.not_mem_nil ho).elim, ?_⟩
  cases hp : castUuid command.payerUserId with
  | error e =>
    have hx (db : Db) : store.exec (.findUserById command.payerUserId) db d = .error e := by
      simp only [store, exec, hp, Except.map]
    rw [hx]
    refine ⟨Or.inl (fun v'' _ => by simp only [Engine.next, hx]), ?_⟩
    obtain rfl := castUuid_error hp
    exact throws_db (by decide)
  | ok u =>
    have hx (db : Db) :
        store.exec (.findUserById command.payerUserId) db d = .ok (db.user? u, []) := by
      simp only [store, exec, hp, Except.map]
    have hsteady (hu : ∀ v'', Evolves closed L v' v'' → v''.user? u = v'.user? u)
        {k : Option User → TxM Response} :
        (protocol closed).Steady L v' (.findUserById command.payerUserId) d k := fun v'' he' => by
      simp only [Engine.next, hx, hu v'' he']
    rw [hx]
    cases hu : v'.user? u with
    | none =>
      refine ⟨?_, trivial, throws_app (by decide)⟩
      by_cases hc : closed
      · exact Or.inl (hsteady (fun v'' he' => by simp only [Db.user?, (he'.settled hc).1]))
      · exact Or.inr ⟨hc, by simp [Unsettled]⟩
    | some user =>
      refine ⟨Or.inl (hsteady (fun v'' he' => user?_kept he' (by rw [hu]; rfl))), trivial, ?_⟩
      change (protocol closed).Disciplined _
        (if user.status ≠ .ACTIVE then .fail payerNotFound else insertRequest command recordId) _ _
      split_ifs
      · exact throws_app (by decide)
      · exact disciplined_insertRequest hl (h.evolves he)

theorem disciplined_finishTransition {request row : MoneyRequest} {event : OutboxEventInput}
    {audit : AuditEvent} (h : Claimed key recordId L v) :
    (protocol closed).Disciplined (fun _ v' _ => Good [] v')
      (finishTransition recordId request row event audit) L v := by
  refine disciplined_insertOutboxEvent fun event =>
    disciplined_insertAuditEvent fun v' hg' he' => ?_
  have h' : Claimed key recordId L v' := Claimed.evolves he' (h.congr rfl)
  exact disciplined_newDate fun now => disciplined_complete (hg'.congr rfl rfl) (h'.congr rfl)

theorem disciplined_lockById {id : JsString} {f : Option MoneyRequest → TxM α}
    (hnone : f none = .fail notFound) (hl : ∀ o ∈ L, o.rank ≤ 1)
    (hknown : closed → ∀ u, parseUuid id = some u → ∃ r ∈ v.moneyRequests, r.id = u)
    (h : ∀ v' r, Good (.request r.id :: L) v' → Evolves closed L v v' → r ∈ v'.moneyRequests →
      (protocol closed).Disciplined Q (f (some r)) (.request r.id :: L) v') :
    (protocol closed).Disciplined Q (lockById id >>= f) L v := by
  intro v' hg he d
  have hg : Good L v' := hg
  have he : Evolves closed L v v' := he
  cases hp : parseUuid id with
  | none =>
    have hx (db : Db) :
        store.exec (.selectRequestForUpdate id) db d = .error (.db .invalidUuid) := by
      simp only [store, exec, castUuid, hp, Except.map]
    refine ⟨not_false, fun o ho => ?_, ?_⟩
    · simp only [store, wants, hp] at ho
      cases ho
    · rw [hx]
      exact ⟨Or.inl (fun v'' _ => by simp only [Engine.next, hx]), throws_db (by decide)⟩
  | some u =>
    have hx (db : Db) : store.exec (.selectRequestForUpdate id) db d =
        .ok ((db.request? u).isSome, []) := by
      simp only [store, exec, castUuid, hp, Except.map]
    cases hr : v'.request? u with
    | none =>
      have hwants : store.wants (.selectRequestForUpdate id) v' d = [] := by
        simp [store, wants, hp, hr]
      have hc : ¬ closed := by
        intro hc
        obtain ⟨r, hm, hid⟩ := hknown hc u hp
        obtain ⟨r', hm', hid'⟩ := he.requestKept r hm
        exact List.find?_eq_none.1 hr r' hm' (by simp [hid', hid])
      rw [hwants, hx, hr]
      refine ⟨not_false, fun o ho => (List.not_mem_nil ho).elim, Or.inr ?_, trivial, ?_⟩
      · change (protocol closed).GivenUp (f none)
        rw [hnone]
        exact ⟨hc, by simp [Unsettled]⟩
      · change (protocol closed).Disciplined _ (f none) _ _
        rw [hnone]
        exact throws_app (by decide)
    | some r =>
      have hwants : store.wants (.selectRequestForUpdate id) v' d = [.request u] := by
        simp [store, wants, hp, hr]
      have hid : r.id = u := (find?_spec hr).2
      subst hid
      have hm : r ∈ v'.moneyRequests := List.mem_of_find?_eq_some hr
      have hfind (v'' : Db) (he' : Evolves closed (.request r.id :: L) v' v'') :
          v''.request? r.id = some r :=
        (find?_congr (he'.requests r.id List.mem_cons_self)).trans hr
      rw [hwants, hx, hr]
      refine ⟨not_false, fun o ho => Or.inr (fun o' ho' => ?_), Or.inl (fun v'' he' => ?_),
        trivial, ?_⟩
      · rw [List.mem_singleton.1 ho]
        exact Or.inl (Nat.lt_succ_of_le (hl o' ho'))
      · simp only [Engine.next, hx, hfind v'' he', hr]
      · change (protocol closed).Disciplined Q (query (.findRequestById id) >>= f)
          (.request r.id :: L) v'
        have hexec (v'' : Db) (he' : Evolves closed (.request r.id :: L) v' v'') (d) :
            store.exec (.findRequestById id) v'' d = .ok (some r, []) := by
          simp only [store, exec, castUuid, hp, Except.map, hfind v'' he']
        refine .settled _ not_false (fun v'' d he' => ?_) (fun _ => List.nil_subset _)
          (fun d out ws hx => ?_) (fun d e hx => ?_)
        · rw [hexec v'' he', hexec v' (Evolves.refl _ _ _)]
          exact ⟨rfl, rfl⟩
        · rw [hexec v' (Evolves.refl _ _ _)] at hx
          cases hx
          exact ⟨trivial, h v' r (hg.mono (List.subset_cons_self _ _)) he hm⟩
        · rw [hexec v' (Evolves.refl _ _ _)] at hx
          cases hx

theorem Pinned.find {id : Uuid} (h : Pinned id L v) : ∃ r, v.request? id = some r := by
  obtain ⟨r, hr, hid⟩ := h.row
  exact Option.isSome_iff_exists.1 (List.find?_isSome.2 ⟨r, hr, by simpa using hid⟩)

/-- A statement that updates a pinned request. -/
theorem disciplined_update {st : Stmt} {id : Uuid} {k : Reply st → TxM α} {write : Time → Write}
    (reply : MoneyRequest → Time → Reply st) (hp : (protocol closed).Permits st)
    (h : Pinned id L v)
    (hexec : ∀ v d r, Db.request? v id = some r →
      store.exec st v d = .ok (reply r d.now, [write d.now]))
    (hwants : ∀ v d r, Db.request? v id = some r → store.wants st v d = [.request id])
    (howns : ∀ now, Owns (.request id :: L) v (write now))
    (hk : ∀ r now, (protocol closed).Disciplined Q (k r) (.request id :: L)
      (applyWrite v (write now))) :
    (protocol closed).Disciplined Q (.op st k) L v := by
  obtain ⟨r, hr⟩ := h.find
  refine .settled _ hp (fun v' d he => ?_) (fun d => ?_) (fun d out ws hx => ?_)
    (fun d e hx => ?_)
  · have he : Evolves closed L v v' := he
    have hr' : v'.request? id = some r := (find?_congr (he.requests id h.held)).trans hr
    rw [hexec v' d r hr', hexec v d r hr, hwants v' d r hr', hwants v d r hr]
    exact ⟨rfl, rfl⟩
  · rw [hwants v d r hr]
    exact List.cons_subset.2 ⟨h.held, List.nil_subset _⟩
  · rw [hexec v d r hr] at hx
    cases hx
    rw [hwants v d r hr]
    exact ⟨⟨howns d.now, trivial⟩, hk _ _⟩
  · rw [hexec v d r hr] at hx
    cases hx

theorem disciplined_markAccepted {id transferId : Uuid} {k : MoneyRequest → TxM α}
    (h : Pinned id L v)
    (hk : ∀ r at_, (protocol closed).Disciplined Q (k r) (.request id :: L)
      (applyWrite v (.acceptRequest id transferId at_))) :
    (protocol closed).Disciplined Q (.op (.markAccepted id transferId) k) L v :=
  disciplined_update (fun r now => r.accept id transferId now) not_false h
    (fun v d r hr => by simp only [store, exec, hr])
    (fun v d r hr => by simp only [store, wants, hr, Option.isSome_some, if_true])
    (fun _ => List.mem_cons_self) hk

theorem disciplined_markResolved {id : Uuid} {status : MoneyRequestStatus}
    {k : MoneyRequest → TxM α} (h : Pinned id L v)
    (hk : ∀ r at_, (protocol closed).Disciplined Q (k r) (.request id :: L)
      (applyWrite v (.resolveRequest id status at_))) :
    (protocol closed).Disciplined Q (.op (.markResolved id status) k) L v :=
  disciplined_update (fun r now => r.resolve id status now) not_false h
    (fun v d r hr => by simp only [store, exec, hr])
    (fun v d r hr => by simp only [store, wants, hr, Option.isSome_some, if_true])
    (fun _ => List.mem_cons_self) hk

theorem disciplined_assertNotExpired {request : MoneyRequest} {f : Unit → TxM α}
    (h : (protocol closed).Disciplined Q (f ()) L v) :
    (protocol closed).Disciplined Q (assertNotExpired request >>= f) L v := by
  unfold assertNotExpired
  cases request.expiresAt with
  | none => exact h
  | some deadline =>
    refine disciplined_dateNow fun now => ?_
    change (protocol closed).Disciplined Q ((if deadline ≤ now then _ else _) >>= f) L v
    split_ifs
    · exact throws_app (by decide)
    · exact h

theorem Claimed.cons (h : Claimed key recordId L v) (id : Uuid) :
    Claimed key recordId (.request id :: L) v where
  keyHeld := List.mem_cons_of_mem _ h.keyHeld
  recordHeld := List.mem_cons_of_mem _ h.recordHeld
  only k hm := by
    rcases List.mem_cons.1 hm with he | hm
    · cases he
    · exact h.only k hm
  mine := h.mine
  row := h.row

theorem disciplined_acceptLocked {command : ResolveMoneyRequestCommand} {cfg : Config}
    {request : MoneyRequest} (hg : Good L v) (hl : ∀ o ∈ L, o.rank ≤ 2)
    (h : Claimed key recordId L v) (hp : Pinned request.id L v) :
    (protocol closed).Disciplined (fun _ v' _ => Good [] v')
      (acceptLocked command cfg recordId request) L v := by
  refine disciplined_check (assertActorRole_checks _ _ _) (fun _ => ?_)
  refine disciplined_check (assertPending_checks _) (fun _ => ?_)
  refine disciplined_assertNotExpired ?_
  -- Settling keeps the claimed key and the locked request as they are.
  have hsettle : (protocol closed).Disciplined
      (fun L' v' _ => True ∧ Claimed key recordId L' v' ∧ Pinned request.id L' v')
      (settleMoneyRequest cfg (settleCommand request)) L v := by
    have hkind {s : Stmt} (hS : s.kind = .money ∨ s.kind = .other) :
        s.kind ≠ .record ∧ s.kind ≠ .request := by
      rcases hS with hs | hs <;> rw [hs] <;> decide
    have hev {L : List Lock} {v v' : Db} (he : Evolves closed L v v')
        (hF : Claimed key recordId L v ∧ Pinned request.id L v) :
        Claimed key recordId L v' ∧ Pinned request.id L v' :=
      ⟨hF.1.evolves he, hF.2.evolves he⟩
    unfold settleMoneyRequest
    exact (disciplined_settle hl).frame _ (fun _ => hev)
      (fun hS hx hF => ⟨hF.1.frame (hkind hS).1 hx, hF.2.frame (hkind hS).2 hx⟩)
      (settle_issues _ _ _) ⟨h, hp⟩
  refine .bind _ hg hsettle (fun L₁ v₁ transfer _ _ hF => ?_)
  exact disciplined_markAccepted hF.2.2 fun row at_ =>
    disciplined_finishTransition ((hF.2.1.cons request.id).congr rfl)

theorem disciplined_resolveLocked {command : ResolveMoneyRequestCommand} {opts : ResolveOpts}
    {request : MoneyRequest} (h : Claimed key recordId L v) (hp : Pinned request.id L v) :
    (protocol closed).Disciplined (fun _ v' _ => Good [] v')
      (resolveLocked command opts recordId request) L v := by
  refine disciplined_check (assertActorRole_checks _ _ _) (fun _ => ?_)
  refine disciplined_check (assertPending_checks _) (fun _ => ?_)
  exact disciplined_markResolved hp fun row at_ =>
    disciplined_finishTransition ((h.cons request.id).congr rfl)

end Requests

section Commands

def Command.requestId? : Command → Option JsString
  | .createDirectTransfer _ | .create _ => none
  | .accept c | .decline c | .cancel c => some c.requestId

/-- When nobody registers, a request that is named must exist already. -/
def Admits (closed : Prop) (db : Db) (c : Command) : Prop :=
  closed → ∀ id u, c.requestId? = some id → parseUuid id = some u →
    ∃ r ∈ db.moneyRequests, r.id = u

/-- The common beginning of accept, decline and cancel. -/
theorem disciplined_resolveBegin {cfg : Config} {params : BeginParams} {id : JsString}
    {f : Uuid → MoneyRequest → TxM Response} (hg : Good [] v)
    (hknown : closed → ∀ u, parseUuid id = some u → ∃ r ∈ v.moneyRequests, r.id = u)
    (h : ∀ L' v' recordId r, (∀ o ∈ L', o.rank ≤ 2) → Good L' v' →
      Claimed params.key recordId L' v' → Pinned r.id L' v' →
      (protocol closed).Disciplined (fun _ v' _ => Good [] v') (f recordId r) L' v') :
    (protocol closed).Disciplined (fun _ v' _ => Good [] v')
      («begin» cfg params >>= fun result => match result with
        | .replayed _ responseBody => .ret responseBody
        | .claimed recordId => lockById id >>= fun request => match request with
          | none => .fail notFound
          | some request => f recordId request) [] v := by
  have hev {L : List Lock} {v v' : Db} (he : Evolves closed L v v')
      (hF : closed → ∀ u, parseUuid id = some u → ∃ r ∈ v.moneyRequests, r.id = u) :
      closed → ∀ u, parseUuid id = some u → ∃ r ∈ v'.moneyRequests, r.id = u := by
    intro hc u hu
    obtain ⟨r, hr, hid⟩ := hF hc u hu
    obtain ⟨r', hr', hid'⟩ := he.requestKept r hr
    exact ⟨r', hr', hid'.trans hid⟩
  have hdisc : (protocol closed).Disciplined (Begun params.key) («begin» cfg params) [] v :=
    disciplined_begin cfg params
  have hbegin := hdisc.frame _
    (F := fun _ v => closed → ∀ u, parseUuid id = some u → ∃ r ∈ v.moneyRequests, r.id = u)
    (fun _ he hF => hev he hF)
    (fun hS hx hF => by rwa [requests_unchanged hx (by rw [hS]; decide)]) (begin_issues _ _) hknown
  refine .bind _ hg hbegin (fun L₁ v₁ result _ hg₁ hres => ?_)
  obtain ⟨hres, hknown₁⟩ := hres
  cases result with
  | replayed status body => exact fun v' hg' he' => Good.finished hres hg' he'
  | claimed recordId =>
    refine disciplined_lockById rfl hres.1 hknown₁ (fun v₂ r hg₂ he₂ hr => ?_)
    refine h _ _ recordId r (fun o ho => ?_) hg₂ ((hres.2.evolves he₂).cons r.id)
      ⟨List.mem_cons_self, r, hr, rfl⟩
    rcases List.mem_cons.1 ho with rfl | ho
    · exact le_rfl
    · exact (hres.1 o ho).trans (by decide)

theorem disciplined_runTransfer {cfg : Config} {command : CreateDirectTransferCommand}
    (hg : Good [] v) :
    (protocol closed).Disciplined (fun _ v' _ => Good [] v') (runTransfer cfg command) [] v := by
  refine .bind _ hg (disciplined_begin cfg _) (fun L₁ v₁ result _ hg₁ hres => ?_)
  cases result with
  | replayed status body => exact fun v' hg' he' => Good.finished hres hg' he'
  | claimed recordId =>
    have hkind {s : Stmt} (hS : s.kind = .money ∨ s.kind = .other) : s.kind ≠ .record := by
      rcases hS with hs | hs <;> rw [hs] <;> decide
    have hdisc (input : SettleInput) (source : TransferSource) : (protocol closed).Disciplined
        (fun _ _ _ => True) (settle input source cfg) L₁ v₁ :=
      disciplined_settle (fun o ho => (hres.1 o ho).trans (by decide))
    have hsettle (input : SettleInput) (source : TransferSource) :=
      (hdisc input source).frame _
        (F := Claimed (beginParams command).key recordId)
        (fun _ he hF => Claimed.evolves he hF)
        (fun hS hx hF => Claimed.frame (hkind hS) hx hF) (settle_issues _ _ _) hres.2
    refine .bind _ hg₁ (hsettle _ _) (fun L₂ v₂ receipt _ hg₂ hF => ?_)
    exact disciplined_complete hg₂ hF.2

theorem disciplined_create {cfg : Config} {command : CreateMoneyRequestCommand} (hg : Good [] v) :
    (protocol closed).Disciplined (fun _ v' _ => Good [] v') (create command cfg) [] v := by
  have hrun : (protocol closed).Disciplined (fun _ v' _ => Good [] v') (runCreate command cfg)
      [] v := by
    refine .bind _ hg (disciplined_begin cfg _) (fun L₁ v₁ result _ hg₁ hres => ?_)
    cases result with
    | replayed status body => exact fun v' hg' he' => Good.finished hres hg' he'
    | claimed recordId => exact disciplined_createClaimed hres.1 hres.2
  unfold create
  split_ifs
  · exact throws_app (by decide)
  · unfold assertDeadline
    cases command.expiresAt with
    | none => exact hrun
    | some deadline =>
      refine disciplined_dateNow fun now => ?_
      change (protocol closed).Disciplined _
        ((if deadline ≤ now then _ else _) >>= fun _ => runCreate command cfg) _ v
      split_ifs
      · exact throws_app (by decide)
      · exact hrun

theorem disciplined_accept {cfg : Config} {command : ResolveMoneyRequestCommand} (hg : Good [] v)
    (hknown : closed → ∀ u, parseUuid command.requestId = some u →
      ∃ r ∈ v.moneyRequests, r.id = u) :
    (protocol closed).Disciplined (fun _ v' _ => Good [] v') (accept command cfg) [] v :=
  disciplined_check (assertRequestId_checks _) fun _ =>
    disciplined_resolveBegin hg hknown fun _ _ _ _ hl hg' hc hp =>
      disciplined_acceptLocked hg' hl hc hp

theorem disciplined_resolvePending {cfg : Config} {command : ResolveMoneyRequestCommand}
    {opts : ResolveOpts} (hg : Good [] v)
    (hknown : closed → ∀ u, parseUuid command.requestId = some u →
      ∃ r ∈ v.moneyRequests, r.id = u) :
    (protocol closed).Disciplined (fun _ v' _ => Good [] v') (resolvePending command cfg opts)
      [] v :=
  disciplined_check (assertRequestId_checks _) fun _ =>
    disciplined_resolveBegin hg hknown fun _ _ _ _ _ _ hc hp =>
      disciplined_resolveLocked hc hp

/-- Every operation, started with nothing locked, is disciplined. -/
theorem disciplined_body (cfg : Config) (db : Db) (c : Command) (hg : Good [] db)
    (ha : Admits closed db c) :
    (protocol closed).Disciplined (protocol closed).Final (body cfg c) [] db := by
  have hknown (id : JsString) (hid : c.requestId? = some id) :
      closed → ∀ u, parseUuid id = some u → ∃ r ∈ db.moneyRequests, r.id = u :=
    fun hc u hu => ha hc id u hid hu
  cases c with
  | createDirectTransfer c => exact disciplined_runTransfer hg
  | create c => exact disciplined_create hg
  | accept c => exact disciplined_accept hg (hknown _ rfl)
  | decline c => exact disciplined_resolvePending hg (hknown _ rfl)
  | cancel c => exact disciplined_resolvePending hg (hknown _ rfl)

end Commands

end MoneyMovement
