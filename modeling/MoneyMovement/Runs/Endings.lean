import MoneyMovement.Runs.Commits
import MoneyMovement.Txn.Endings

/-!
# Every call comes to its end

Whatever the store replies, a command issues a bounded number of statements, an accept the
most. As no transactions ever wait for one another in a circle, a call can be held up by others
only for as long as these go on, and all calls that are open end when they are let run.
-/

namespace MoneyMovement

open Txn Prog IdempotencyService TransferService MoneyRequestService TransactionLimitService

section Bounds

/-- A check with no statements. -/
theorem Checks.within {c : Prop} {p : TxM Unit} (h : Checks c p) : p.Within 0 := by
  cases h <;> trivial

/-- Two statements for each attempt, and one to take over a record. -/
theorem attempts_within (key : RecordKey) (hash : JsString) (left : ℕ) :
    (attempts key hash left).Within (2 * left + 1) := by
  induction left with
  | zero => trivial
  | succ left ih =>
    refine within_op (n := 2 * left + 2) fun claimed => ?_
    cases claimed with
    | some id => trivial
    | none =>
      refine within_op fun existing => ?_
      cases existing with
      | none => exact ih
      | some row =>
        change (resolveExisting row hash).Within _
        unfold resolveExisting
        split_ifs
        · trivial
        · trivial
        · exact within_op fun _ => trivial

theorem begin_within (cfg : Config) (params : BeginParams) :
    («begin» cfg params).Within 7 := attempts_within _ _ 3

theorem assessRisk_within (transferId : Uuid) (sender receiver : LockedWallet)
    (amountMinor : ℤ) : (assessRisk transferId sender receiver amountMinor).Within 5 := by
  refine within_op fun now => within_op fun recent => within_op fun _ => ?_
  have haudit (r : RiskEngineService.RiskEvaluation) :
      (auditRisk transferId sender.userId r).Within 1 := by
    unfold auditRisk
    split_ifs
    · exact within_op fun _ => trivial
    · trivial
  have hflag (r : RiskEngineService.RiskEvaluation) : (flagRisk transferId r).Within 1 := by
    unfold flagRisk
    split_ifs
    · exact within_op fun _ => trivial
    · trivial
  exact (haudit _).bind 1 fun _ => (hflag _).bind 0 fun _ => within_ret _ _

theorem moveMoney_within (input : SettleInput) (source : TransferSource)
    (sender receiver : LockedWallet) : (moveMoney input source sender receiver).Within 13 := by
  refine within_op fun t => within_op fun _ => within_op fun _ => within_op fun _ =>
    within_op fun _ => within_op fun settled => ?_
  exact (assessRisk_within _ _ _ _).bind 2 fun dto =>
    within_op fun _ => within_op fun _ => within_ret _ _

theorem lockWalletById_within (id : Uuid) : (lockWalletById id).Within 2 :=
  within_op fun _ => within_op fun row => by cases row <;> trivial

theorem settle_within (input : SettleInput) (source : TransferSource) (cfg : Config) :
    (settle input source cfg).Within 21 := by
  have locked (sender receiver : LockedWallet) :
      (settleLocked input source cfg sender receiver).Within 15 := by
    have hlimits : (assertWithinLimits cfg sender.userId input.amountMinor).Within 2 :=
      within_op fun now => within_op fun totals => (assertWindows_checks _ _ _).within
    exact (assertParticipantsActive_checks _ _).within.bind 15 fun _ =>
      (assertWalletsSpendable_checks _ _).within.bind 15 fun _ =>
        (assertAmountAndBalance_checks _ _).within.bind 15 fun _ =>
          hlimits.bind 13 fun _ => moveMoney_within _ _ _ _
  unfold settle
  split_ifs
  · trivial
  refine within_op fun s => within_op fun r => ?_
  cases s with
  | none => trivial
  | some s =>
    cases r with
    | none => trivial
    | some r =>
      have hboth : (lockBoth s.id r.id).Within 4 :=
        (lockWalletById_within _).bind 2 fun first =>
          (lockWalletById_within _).bind 0 fun _ => within_ret _ _
      exact hboth.bind 15 fun p => locked p.1 p.2

theorem runTransfer_within (cfg : Config) (command : CreateDirectTransferCommand) :
    (runTransfer cfg command).Within 29 := by
  refine (begin_within _ _).bind 22 fun result => ?_
  cases result with
  | replayed status responseBody => trivial
  | claimed recordId =>
    exact (settle_within _ _ _).bind 1 fun receipt => within_op fun _ => within_ret _ _

theorem insertRequest_within (command : CreateMoneyRequestCommand) (recordId : Uuid) :
    (insertRequest command recordId).Within 5 :=
  within_op fun _ => within_op fun _ => within_op fun _ => within_op fun _ => within_op fun _ =>
    within_ret _ _

theorem createClaimed_within (command : CreateMoneyRequestCommand) (recordId : Uuid) :
    (createClaimed command recordId).Within 6 := by
  refine within_op fun payer => ?_
  cases payer with
  | none => trivial
  | some user =>
    change Within (if _ then _ else _) _
    split_ifs
    · trivial
    · exact insertRequest_within _ _

theorem create_within (command : CreateMoneyRequestCommand) (cfg : Config) :
    (create command cfg).Within 14 := by
  have hdeadline : (assertDeadline command).Within 1 := by
    unfold assertDeadline
    cases command.expiresAt with
    | none => trivial
    | some deadline =>
      refine within_op fun now => ?_
      change Within (if _ then _ else _) _
      split_ifs <;> trivial
  unfold create
  split_ifs
  · trivial
  · refine hdeadline.bind 13 fun _ => (begin_within _ _).bind 6 fun result => ?_
    cases result with
    | replayed status responseBody => trivial
    | claimed recordId => exact createClaimed_within _ _

theorem finishTransition_within (recordId : Uuid) (request row : MoneyRequest)
    (event : OutboxEventInput) (audit : AuditEvent) :
    (finishTransition recordId request row event audit).Within 4 :=
  within_op fun _ => within_op fun _ => within_op fun _ => within_op fun _ => within_ret _ _

theorem lockById_within (id : JsString) : (lockById id).Within 2 := by
  refine within_op fun found => ?_
  cases found with
  | false => trivial
  | true => exact within_op fun _ => within_ret _ _

theorem assertNotExpired_within (request : MoneyRequest) :
    (assertNotExpired request).Within 1 := by
  unfold assertNotExpired
  cases request.expiresAt with
  | none => trivial
  | some deadline =>
    refine within_op fun now => ?_
    change Within (if _ then _ else _) _
    split_ifs <;> trivial

theorem accept_within (command : ResolveMoneyRequestCommand) (cfg : Config) :
    (accept command cfg).Within 36 := by
  refine (assertRequestId_checks _).within.bind 36 fun _ =>
    (begin_within _ _).bind 29 fun result => ?_
  cases result with
  | replayed status responseBody => trivial
  | claimed recordId =>
    refine (lockById_within _).bind 27 fun found => ?_
    cases found with
    | none => trivial
    | some request =>
      exact (assertActorRole_checks _ _ _).within.bind 27 fun _ =>
        (assertPending_checks _).within.bind 27 fun _ =>
          (assertNotExpired_within _).bind 26 fun _ => (settle_within _ _ _).bind 5 fun transfer =>
            within_op fun accepted => finishTransition_within _ _ _ _ _

theorem resolvePending_within (command : ResolveMoneyRequestCommand) (cfg : Config)
    (opts : ResolveOpts) : (resolvePending command cfg opts).Within 14 := by
  refine (assertRequestId_checks _).within.bind 14 fun _ =>
    (begin_within _ _).bind 7 fun result => ?_
  cases result with
  | replayed status responseBody => trivial
  | claimed recordId =>
    refine (lockById_within _).bind 5 fun found => ?_
    cases found with
    | none => trivial
    | some request =>
      exact (assertActorRole_checks _ _ _).within.bind 5 fun _ =>
        (assertPending_checks _).within.bind 5 fun _ => within_op fun resolved =>
          finishTransition_within _ _ _ _ _

def MAX_STATEMENTS : ℕ := 36

theorem body_within (cfg : Config) (command : Command) :
    (body cfg command).Within MAX_STATEMENTS := by
  cases command with
  | createDirectTransfer c => exact (runTransfer_within cfg c).mono (by decide)
  | create c => exact (create_within c cfg).mono (by decide)
  | accept c => exact accept_within c cfg
  | decline c => exact (resolvePending_within c cfg declineOpts).mono (by decide)
  | cancel c => exact (resolvePending_within c cfg cancelOpts).mono (by decide)

end Bounds

section Endings

variable {cfg : Config} {db₀ : Db} {clock : Time} {s : Service}

theorem initial_bounded (db : Db) (clock : Time) :
    (Service.initial db clock).Bounded MAX_STATEMENTS := fun i t ht => by
  simp [Service.initial, Sys.tx] at ht

/-- While calls are open one of them can go on, whatever id it draws; without new calls the
others can be taken on no more than 37 times for each that is open, and when they are let run
all of them end. -/
theorem every_call_ends (h₀ : Good [] db₀)
    (h : Sys.Reach (body cfg) Open (Service.initial db₀ clock) s) :
    (∀ i, (s.tx i).isSome → ∃ j, (s.tx j).isSome ∧ ((s.step? (body cfg) (.finish j)).isSome ∨
      ∀ id, (s.step? (body cfg) (.step j id)).isSome)) ∧
    (∀ ls s', s.run (body cfg) ls = some s' → (∀ l ∈ ls, l.starts = false) →
      (ls.filter Label.drives).length ≤ (MAX_STATEMENTS + 1) * s.opened) ∧
    ∃ s', Sys.Reach (body cfg) (fun _ l => l.drives = true) s s' ∧ ∀ i, s'.tx i = none := by
  have hinv := open_inv h₀ h
  have hbounded := (initial_bounded db₀ clock).reach (body_within cfg) h
  refine ⟨fun i ht => ?_, fun ls s' hrun hls => ?_, hinv.drains (body_within cfg) hbounded⟩
  · obtain ⟨t, ht⟩ := Option.isSome_iff_exists.1 ht
    exact hinv.progress ht
  · have hwork := Sys.work_run (body_within cfg) hbounded hls hrun
    exact (Nat.le_add_left _ _).trans (hwork.trans (Sys.work_le _ s))

/-- While one of two crossing transfers waits for a wallet of the other. -/
theorem every_call_ends_contending : ∃ s s' : Service,
    (Service.initial sampleDb 50).run (body sampleConfig) contending = some s ∧
    s.opened = 2 ∧ (s.step? (body sampleConfig) (.step 1 203)).isNone ∧
    Sys.Reach (body sampleConfig) (fun _ l => l.drives = true) s s' ∧ ∀ i, s'.tx i = none := by
  have hrun : ((Service.initial sampleDb 50).run (body sampleConfig) contending).any
      (fun s => s.opened = 2 ∧ (s.step? (body sampleConfig) (.step 1 203)).isNone) := by
    decide +kernel
  obtain ⟨s, hs, hfacts⟩ := of_run hrun
  obtain ⟨hopen, hwaits⟩ := of_decide_eq_true hfacts
  obtain ⟨-, -, s', hreach, hnone⟩ := every_call_ends sampleDb_good (open_of_run hs)
  exact ⟨s, s', hs, hopen, hwaits, hreach, hnone⟩

end Endings

end MoneyMovement
