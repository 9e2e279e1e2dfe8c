import MoneyMovement.Service.MoneyRequests
import MoneyMovement.Store.Kinds

/-!
# What the checks of the services decide, and what the services touch

Each `assert…` without statements either passes, exactly when its condition
holds, or refuses with an error of its own. The second half says which kinds of
statements each service issues.
-/

namespace MoneyMovement

open Txn Prog IdempotencyService TransferService MoneyRequestService TransactionLimitService

inductive Checks (c : Prop) : TxM Unit → Prop
  | pass (h : c) : Checks c (.ret ())
  | refuse (h : ¬ c) (e : AppException) (he : e.code ≠ .IDEMPOTENCY_KEY_REUSED) :
      Checks c (.fail (.app e))

theorem Checks.and {c c' : Prop} {p q : TxM Unit} (hp : Checks c p) (hq : Checks c' q) :
    Checks (c ∧ c') (p >>= fun _ => q) := by
  cases hp with
  | refuse h e he => exact .refuse (fun hc => h hc.1) e he
  | pass h =>
    cases hq with
    | pass h' => exact .pass ⟨h, h'⟩
    | refuse h' e he => exact .refuse (fun hc => h' hc.2) e he

section Transfers

variable (sender receiver : LockedWallet)

theorem assertParticipantsActive_checks :
    Checks (sender.ownerStatus = .ACTIVE ∧ receiver.ownerStatus = .ACTIVE)
      (assertParticipantsActive sender receiver) := by
  unfold assertParticipantsActive
  split_ifs with hs hr
  · exact .refuse (fun h => hs h.1) _ (by decide)
  · exact .refuse (fun h => hr h.2) _ (by decide)
  · exact .pass ⟨not_not.1 hs, not_not.1 hr⟩

theorem assertWalletsSpendable_checks :
    Checks (sender.status = .ACTIVE ∧ receiver.status = .ACTIVE)
      (assertWalletsSpendable sender receiver) := by
  unfold assertWalletsSpendable
  split_ifs with hs hr
  · exact .refuse (fun h => hs h.1) _ (by decide)
  · exact .refuse (fun h => hr h.2) _ (by decide)
  · exact .pass ⟨not_not.1 hs, not_not.1 hr⟩

theorem assertAmountAndBalance_checks (amountMinor : ℤ) :
    Checks (0 < amountMinor ∧ amountMinor ≤ sender.balanceMinor)
      (assertAmountAndBalance amountMinor sender) := by
  unfold assertAmountAndBalance
  split_ifs with hp hb
  · exact .refuse (fun h => absurd h.1 (not_lt.2 hp)) _ (by decide)
  · exact .refuse (fun h => absurd h.2 (not_le.2 hb)) _ (by decide)
  · exact .pass ⟨not_le.1 hp, not_lt.1 hb⟩

theorem assertWindow_checks (period : Period) (usedMinor amountMinor limitMinor : ℤ) :
    Checks (usedMinor + amountMinor ≤ limitMinor)
      (assertWindow period usedMinor amountMinor limitMinor) := by
  unfold assertWindow
  split_ifs with h
  · exact .pass h
  · exact .refuse h _ (by simp [limitExceeded])

def WithinLimits (cfg : Config) (totals : SentTotals) (amountMinor : ℤ) : Prop :=
  totals.dailyMinor + amountMinor ≤ cfg.dailyTransferLimitMinor ∧
    totals.weeklyMinor + amountMinor ≤ cfg.weeklyTransferLimitMinor ∧
    totals.monthlyMinor + amountMinor ≤ cfg.monthlyTransferLimitMinor

theorem assertWindows_checks (cfg : Config) (totals : SentTotals) (amountMinor : ℤ) :
    Checks (WithinLimits cfg totals amountMinor) (assertWindows cfg totals amountMinor) :=
  (assertWindow_checks _ _ _ _).and
    ((assertWindow_checks _ _ _ _).and (assertWindow_checks _ _ _ _))

end Transfers

section Requests

theorem assertRequestId_checks (id : JsString) :
    Checks ((parseUuid id).isSome) (assertRequestId id) := by
  unfold assertRequestId
  split_ifs with h
  · exact .refuse (by simpa using h) _ (by decide)
  · exact .pass (by simpa [Option.isSome_iff_ne_none] using h)

theorem assertActorRole_checks (request : MoneyRequest) (actorUserId : Uuid)
    (requiredRole : ParticipantRole) :
    Checks (roleOf request actorUserId = some requiredRole)
      (assertActorRole request actorUserId requiredRole) := by
  unfold assertActorRole
  cases hr : roleOf request actorUserId with
  | none => exact .refuse (by simp) _ (by decide)
  | some role =>
    simp only
    split_ifs with h
    · cases requiredRole <;> exact .refuse (by simpa using h) _ (by decide)
    · exact .pass (by rw [not_not.1 h])

theorem assertPending_checks (request : MoneyRequest) :
    Checks (request.status = .PENDING) (assertPending request) := by
  unfold assertPending
  split_ifs with h
  · exact .refuse h _ (by decide)
  · exact .pass (not_not.1 h)

end Requests

section Issues

variable {S : Stmt → Prop}

theorem Checks.issues {c : Prop} {p : TxM Unit} (h : Checks c p) : p.Issues S := by
  cases h <;> trivial

theorem attempts_issues (key : RecordKey) (hash : JsString) (left : ℕ) :
    (attempts key hash left).Issues (·.kind = .record) := by
  induction left with
  | zero => trivial
  | succ left ih =>
    refine ⟨rfl, fun claimed => ?_⟩
    cases claimed with
    | some id => trivial
    | none =>
      refine ⟨rfl, fun existing => ?_⟩
      cases existing with
      | none => exact ih
      | some row =>
        change (resolveExisting row hash).Issues _
        unfold resolveExisting
        split_ifs
        · trivial
        · trivial
        · exact ⟨rfl, fun _ => trivial⟩

theorem begin_issues (cfg : Config) (params : BeginParams) :
    («begin» cfg params).Issues (·.kind = .record) :=
  attempts_issues _ _ _

theorem lockWalletById_issues (id : Uuid) : (lockWalletById id).Issues (·.kind = .money) :=
  ⟨rfl, fun _ => ⟨rfl, fun row => by cases row <;> trivial⟩⟩

theorem assessRisk_issues (transferId : Uuid) (sender receiver : LockedWallet) (amountMinor : ℤ) :
    (assessRisk transferId sender receiver amountMinor).Issues
      (fun s => s.kind = .money ∨ s.kind = .other) := by
  refine ⟨Or.inr rfl, fun now => ⟨Or.inl rfl, fun recent => ⟨Or.inl rfl, fun _ => ?_⟩⟩⟩
  refine Issues.bind (p := auditRisk _ _ _) ?_
    (fun _ => Issues.bind (p := flagRisk _ _) ?_ fun _ => trivial)
  · unfold auditRisk
    split_ifs
    · exact ⟨Or.inr rfl, fun _ => trivial⟩
    · trivial
  · unfold flagRisk
    split_ifs
    · exact ⟨Or.inr rfl, fun _ => trivial⟩
    · trivial

theorem moveMoney_issues (input : SettleInput) (source : TransferSource)
    (sender receiver : LockedWallet) : (moveMoney input source sender receiver).Issues
      (fun s => s.kind = .money ∨ s.kind = .other) := by
  refine ⟨Or.inl rfl, fun t => ⟨Or.inl rfl, fun _ => ⟨Or.inl rfl, fun _ => ⟨Or.inl rfl, fun _ =>
    ⟨Or.inl rfl, fun _ => ⟨Or.inl rfl, fun settled => ?_⟩⟩⟩⟩⟩⟩
  exact Issues.bind (p := assessRisk t.id sender receiver input.amountMinor)
    (assessRisk_issues _ _ _ _) (fun dto => ⟨Or.inr rfl, fun _ => ⟨Or.inr rfl, fun _ => trivial⟩⟩)

/-- Settling touches neither the keys nor the requests. -/
theorem settle_issues (input : SettleInput) (source : TransferSource) (cfg : Config) :
    (settle input source cfg).Issues (fun s => s.kind = .money ∨ s.kind = .other) := by
  have locked (sender receiver : LockedWallet) :
      (settleLocked input source cfg sender receiver).Issues
        (fun s => s.kind = .money ∨ s.kind = .other) := by
    refine (assertParticipantsActive_checks _ _).issues.bind (fun _ => ?_)
    refine (assertWalletsSpendable_checks _ _).issues.bind (fun _ => ?_)
    refine (assertAmountAndBalance_checks _ _).issues.bind (fun _ => ?_)
    refine Issues.bind ?_ (fun _ => moveMoney_issues _ _ _ _)
    exact ⟨Or.inr rfl, fun now => ⟨Or.inl rfl, fun t => (assertWindows_checks _ _ _).issues⟩⟩
  unfold settle
  split_ifs
  · trivial
  refine ⟨Or.inl rfl, fun s => ⟨Or.inl rfl, fun r => ?_⟩⟩
  cases s with
  | none => trivial
  | some s =>
    cases r with
    | none => trivial
    | some r =>
      refine Issues.bind (p := lockBoth s.id r.id) ?_ (fun p => locked p.1 p.2)
      refine ((lockWalletById_issues _).mono (fun _ h => Or.inl h)).bind (fun first => ?_)
      exact ((lockWalletById_issues _).mono (fun _ h => Or.inl h)).bind (fun second => trivial)

end Issues

end MoneyMovement
