import MoneyMovement.Http.Envelope
import MoneyMovement.Txn.Tame

/-!
# The errors of the services

Whatever the store replies, a service fails only with exceptions of the application that
have an error status, or with an error of the database.
-/

namespace MoneyMovement

open Txn Prog IdempotencyService TransferService MoneyRequestService TransactionLimitService

/-- An exception of the application with the status of an error, or any other error. -/
def Failure.IsError : Failure → Prop
  | .app e => 400 ≤ e.status
  | _ => True

theorem refuse_isError {status : ℕ} (h : 400 ≤ status) (code : ErrorCode) (message : String) :
    (refuse status code message).IsError := h

section Statements

variable {v : Db} {d : Draw Time Uuid} {e : Failure}

theorem castUuid_isError {id : JsString} (h : castUuid id = .error e) : e.IsError := by
  obtain rfl := castUuid_error h
  trivial

/-- The statements raise errors of the database only. -/
theorem exec_isError {s : Stmt} (h : store.exec s v d = .error e) : e.IsError := by
  have cast {α : Type} {id : JsString} {f : Uuid → α}
      (hx : (castUuid id).map (fun u => (f u, ([] : List Write))) = .error e) : e.IsError := by
    cases hc : castUuid id with
    | ok u =>
      rw [hc] at hx
      cases hx
    | error e' =>
      rw [hc] at hx
      cases hx
      exact castUuid_isError hc
  cases s with
  | findUserById id => exact cast h
  | findWalletByUserId id => exact cast h
  | selectRequestForUpdate id => exact cast h
  | findRequestById id => exact cast h
  | tryClaim key hash =>
    simp only [store, exec, execTryClaim] at h
    split_ifs at h <;> cases h <;> trivial
  | reclaim id hash =>
    simp only [store, exec] at h
    split_ifs at h
    cases h
    trivial
  | complete params =>
    simp only [store, exec] at h
    split_ifs at h
    cases h
    trivial
  | sumSentByWindow id windows =>
    simp only [store, exec, execSumSent] at h
    split_ifs at h
    · cases h
    · cases h
      trivial
  | insertPendingTransfer data =>
    simp only [store, exec, execInsertTransfer] at h
    split_ifs at h <;> cases h <;> trivial
  | insertLedgerEntry entry =>
    simp only [store, exec, execInsertLedgerEntry] at h
    split_ifs at h <;> cases h <;> trivial
  | applyBalanceDelta id delta =>
    simp only [store, exec, execApplyBalanceDelta] at h
    split at h
    · cases h
    · split_ifs at h <;> cases h <;> trivial
  | insertAuditEvent entry =>
    simp only [store, exec, execInsertAuditEvent] at h
    split_ifs at h
    cases h
    trivial
  | createMoneyRequest data =>
    simp only [store, exec, execCreateMoneyRequest] at h
    split at h
    · next hc =>
      cases h
      exact castUuid_isError hc
    · split_ifs at h <;> cases h <;> trivial
  | markSucceeded id =>
    simp only [store, exec] at h
    split at h <;> cases h
    trivial
  | markAccepted id transferId =>
    simp only [store, exec] at h
    split at h <;> cases h
    trivial
  | markResolved id status =>
    simp only [store, exec] at h
    split at h <;> cases h
    trivial
  | _ => cases h

end Statements

section Services

abbrev FailsWell {α : Type} (p : TxM α) : Prop := p.Plain (fun _ => True) Failure.IsError

theorem attempts_failsWell (key : RecordKey) (hash : JsString) (left : ℕ) :
    FailsWell (attempts key hash left) := by
  have hconflict : 400 ≤ 409 := by decide
  induction left with
  | zero => exact hconflict
  | succ left ih =>
    refine ⟨trivial, fun claimed => ?_⟩
    cases claimed with
    | some id => trivial
    | none =>
      refine ⟨trivial, fun existing => ?_⟩
      cases existing with
      | none => exact ih
      | some row =>
        change FailsWell (resolveExisting row hash)
        unfold resolveExisting
        split_ifs
        · exact hconflict
        · trivial
        · exact ⟨trivial, fun _ => trivial⟩

theorem begin_failsWell (cfg : Config) (params : BeginParams) :
    FailsWell («begin» cfg params) := attempts_failsWell _ _ _

theorem assertParticipantsActive_failsWell (sender receiver : LockedWallet) :
    FailsWell (assertParticipantsActive sender receiver) := by
  unfold assertParticipantsActive
  split_ifs
  · exact refuse_isError (by decide) _ _
  · exact refuse_isError (by decide) _ _
  · trivial

theorem assertWalletsSpendable_failsWell (sender receiver : LockedWallet) :
    FailsWell (assertWalletsSpendable sender receiver) := by
  unfold assertWalletsSpendable
  split_ifs
  · exact refuse_isError (by decide) _ _
  · exact refuse_isError (by decide) _ _
  · trivial

theorem assertAmountAndBalance_failsWell (amountMinor : ℤ) (sender : LockedWallet) :
    FailsWell (assertAmountAndBalance amountMinor sender) := by
  unfold assertAmountAndBalance
  split_ifs
  · exact refuse_isError (by decide) _ _
  · exact refuse_isError (by decide) _ _
  · trivial

theorem assertWindow_failsWell (period : Period) (usedMinor amountMinor limitMinor : ℤ) :
    FailsWell (assertWindow period usedMinor amountMinor limitMinor) := by
  unfold assertWindow
  split_ifs
  · trivial
  · exact (by decide : 400 ≤ 409)

theorem assertWithinLimits_failsWell (cfg : Config) (senderUserId : Uuid) (amountMinor : ℤ) :
    FailsWell (assertWithinLimits cfg senderUserId amountMinor) :=
  ⟨trivial, fun _ => ⟨trivial, fun _ => (assertWindow_failsWell _ _ _ _).bind fun _ =>
    (assertWindow_failsWell _ _ _ _).bind fun _ => assertWindow_failsWell _ _ _ _⟩⟩

theorem assertRequestId_failsWell (id : JsString) : FailsWell (assertRequestId id) := by
  unfold assertRequestId
  split_ifs
  · exact refuse_isError (by decide) _ _
  · trivial

theorem assertActorRole_failsWell (request : MoneyRequest) (actorUserId : Uuid)
    (requiredRole : ParticipantRole) :
    FailsWell (assertActorRole request actorUserId requiredRole) := by
  unfold assertActorRole
  cases roleOf request actorUserId with
  | none => exact refuse_isError (by decide) _ _
  | some role =>
    simp only
    split_ifs
    · cases requiredRole <;> exact refuse_isError (by decide) _ _
    · trivial

theorem assertPending_failsWell (request : MoneyRequest) :
    FailsWell (assertPending request) := by
  unfold assertPending
  split_ifs
  · exact refuse_isError (by decide) _ _
  · trivial

theorem assertNotExpired_failsWell (request : MoneyRequest) :
    FailsWell (assertNotExpired request) := by
  unfold assertNotExpired
  cases request.expiresAt with
  | none => trivial
  | some deadline =>
    refine ⟨trivial, fun now => ?_⟩
    change FailsWell (if _ then _ else _)
    split_ifs
    · exact refuse_isError (by decide) _ _
    · trivial

theorem assessRisk_failsWell (transferId : Uuid) (sender receiver : LockedWallet)
    (amountMinor : ℤ) : FailsWell (assessRisk transferId sender receiver amountMinor) := by
  refine ⟨trivial, fun now => ⟨trivial, fun recent => ⟨trivial, fun _ => ?_⟩⟩⟩
  refine Plain.bind (p := auditRisk _ _ _) ?_
    (fun _ => Plain.bind (p := flagRisk _ _) ?_ fun _ => trivial)
  · unfold auditRisk
    split_ifs
    · exact ⟨trivial, fun _ => trivial⟩
    · trivial
  · unfold flagRisk
    split_ifs
    · exact ⟨trivial, fun _ => trivial⟩
    · trivial

theorem moveMoney_failsWell (input : SettleInput) (source : TransferSource)
    (sender receiver : LockedWallet) : FailsWell (moveMoney input source sender receiver) := by
  refine ⟨trivial, fun t => ⟨trivial, fun _ => ⟨trivial, fun _ => ⟨trivial, fun _ =>
    ⟨trivial, fun _ => ⟨trivial, fun settled => ?_⟩⟩⟩⟩⟩⟩
  exact Plain.bind (p := assessRisk t.id sender receiver input.amountMinor)
    (assessRisk_failsWell _ _ _ _)
    (fun dto => ⟨trivial, fun _ => ⟨trivial, fun _ => trivial⟩⟩)

theorem lockWalletById_failsWell (id : Uuid) : FailsWell (lockWalletById id) :=
  ⟨trivial, fun _ => ⟨trivial, fun row => by cases row <;> trivial⟩⟩

theorem settle_failsWell (input : SettleInput) (source : TransferSource) (cfg : Config) :
    FailsWell (settle input source cfg) := by
  have locked (sender receiver : LockedWallet) :
      FailsWell (settleLocked input source cfg sender receiver) :=
    (assertParticipantsActive_failsWell _ _).bind fun _ =>
      (assertWalletsSpendable_failsWell _ _).bind fun _ =>
        (assertAmountAndBalance_failsWell _ _).bind fun _ =>
          (assertWithinLimits_failsWell _ _ _).bind fun _ => moveMoney_failsWell _ _ _ _
  unfold settle
  split_ifs
  · exact refuse_isError (by decide) _ _
  refine ⟨trivial, fun s => ⟨trivial, fun r => ?_⟩⟩
  cases s with
  | none => exact refuse_isError (by decide) _ _
  | some s =>
    cases r with
    | none => exact refuse_isError (by decide) _ _
    | some r =>
      refine Plain.bind (p := lockBoth s.id r.id) ?_ (fun p => locked p.1 p.2)
      exact (lockWalletById_failsWell _).bind fun first =>
        (lockWalletById_failsWell _).bind fun second => trivial

theorem runTransfer_failsWell (cfg : Config) (command : CreateDirectTransferCommand) :
    FailsWell (runTransfer cfg command) := by
  refine (begin_failsWell _ _).bind fun result => ?_
  cases result with
  | replayed status responseBody => trivial
  | claimed recordId =>
    exact (settle_failsWell _ _ _).bind fun receipt => ⟨trivial, fun _ => trivial⟩

theorem insertRequest_failsWell (command : CreateMoneyRequestCommand) (recordId : Uuid) :
    FailsWell (insertRequest command recordId) :=
  ⟨trivial, fun _ => ⟨trivial, fun _ => ⟨trivial, fun _ => ⟨trivial, fun _ =>
    ⟨trivial, fun _ => trivial⟩⟩⟩⟩⟩

theorem createClaimed_failsWell (command : CreateMoneyRequestCommand) (recordId : Uuid) :
    FailsWell (createClaimed command recordId) := by
  refine ⟨trivial, fun payer => ?_⟩
  cases payer with
  | none => exact refuse_isError (by decide) _ _
  | some user =>
    change FailsWell (if _ then _ else _)
    split_ifs
    · exact refuse_isError (by decide) _ _
    · exact insertRequest_failsWell _ _

theorem create_failsWell (command : CreateMoneyRequestCommand) (cfg : Config) :
    FailsWell (create command cfg) := by
  have hdeadline : FailsWell (assertDeadline command) := by
    unfold assertDeadline
    cases command.expiresAt with
    | none => trivial
    | some deadline =>
      refine ⟨trivial, fun now => ?_⟩
      change FailsWell (if _ then _ else _)
      split_ifs
      · exact refuse_isError (by decide) _ _
      · trivial
  unfold create
  split_ifs
  · exact refuse_isError (by decide) _ _
  · refine hdeadline.bind fun _ => (begin_failsWell _ _).bind fun result => ?_
    cases result with
    | replayed status responseBody => trivial
    | claimed recordId => exact createClaimed_failsWell _ _

theorem finishTransition_failsWell (recordId : Uuid) (request row : MoneyRequest)
    (event : OutboxEventInput) (audit : AuditEvent) :
    FailsWell (finishTransition recordId request row event audit) :=
  ⟨trivial, fun _ => ⟨trivial, fun _ => ⟨trivial, fun _ => ⟨trivial, fun _ => trivial⟩⟩⟩⟩

theorem lockById_failsWell (id : JsString) : FailsWell (lockById id) := by
  refine ⟨trivial, fun found => ?_⟩
  cases found with
  | false => trivial
  | true => exact ⟨trivial, fun _ => trivial⟩

theorem accept_failsWell (command : ResolveMoneyRequestCommand) (cfg : Config) :
    FailsWell (accept command cfg) := by
  refine (assertRequestId_failsWell _).bind fun _ => (begin_failsWell _ _).bind fun result => ?_
  cases result with
  | replayed status responseBody => trivial
  | claimed recordId =>
    refine (lockById_failsWell _).bind fun found => ?_
    cases found with
    | none => exact refuse_isError (by decide) _ _
    | some request =>
      exact (assertActorRole_failsWell _ _ _).bind fun _ => (assertPending_failsWell _).bind
        fun _ => (assertNotExpired_failsWell _).bind fun _ => (settle_failsWell _ _ _).bind
        fun transfer => ⟨trivial, fun accepted => finishTransition_failsWell _ _ _ _ _⟩

theorem resolvePending_failsWell (command : ResolveMoneyRequestCommand) (cfg : Config)
    (opts : ResolveOpts) : FailsWell (resolvePending command cfg opts) := by
  refine (assertRequestId_failsWell _).bind fun _ => (begin_failsWell _ _).bind fun result => ?_
  cases result with
  | replayed status responseBody => trivial
  | claimed recordId =>
    refine (lockById_failsWell _).bind fun found => ?_
    cases found with
    | none => exact refuse_isError (by decide) _ _
    | some request =>
      exact (assertActorRole_failsWell _ _ _).bind fun _ => (assertPending_failsWell _).bind
        fun _ => ⟨trivial, fun resolved => finishTransition_failsWell _ _ _ _ _⟩

theorem body_failsWell (cfg : Config) (command : Command) : FailsWell (body cfg command) := by
  cases command with
  | createDirectTransfer c => exact runTransfer_failsWell cfg c
  | create c => exact create_failsWell c cfg
  | accept c => exact accept_failsWell c cfg
  | decline c => exact resolvePending_failsWell c cfg declineOpts
  | cancel c => exact resolvePending_failsWell c cfg cancelOpts

end Services

end MoneyMovement
