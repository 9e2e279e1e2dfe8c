import MoneyMovement.Basic.Rounding
import MoneyMovement.Runs.Limits

/-!
# What is left to send

`GET /wallet` shows what the limits still allow, from the query that the check of a
transfer runs. Both read the same three sums. The headroom shown went through a
JavaScript number, so for amounts beyond `2^53` it can be off from the one enforced.
-/

namespace MoneyMovement

open Txn TransferService TransactionLimitService

structure LimitWindowDto where
  limitMinor : ℤ
  usedMinor : ℤ
  remainingMinor : ℤ

structure LimitUsageDto where
  daily : LimitWindowDto
  weekly : LimitWindowDto
  monthly : LimitWindowDto

structure WalletDto where
  walletId : Uuid
  currency : Currency
  balanceMinor : ℤ
  status : WalletStatus
  limits : LimitUsageDto

section Reading

def toWindowDto (usedMinor limitMinor : ℤ) : LimitWindowDto :=
  let remaining := limitMinor - usedMinor
  { limitMinor := number limitMinor
    usedMinor := number usedMinor
    remainingMinor := number (if remaining > 0 then remaining else 0) }

def getUsage (cfg : Config) (db : Db) (userId : Uuid) (now : Time) :
    Except Failure LimitUsageDto := do
  let totals ← execSumSent db userId (windowsSince now)
  return {
    daily := toWindowDto totals.dailyMinor cfg.dailyTransferLimitMinor
    weekly := toWindowDto totals.weeklyMinor cfg.weeklyTransferLimitMinor
    monthly := toWindowDto totals.monthlyMinor cfg.monthlyTransferLimitMinor }

def toWalletDto (wallet : Wallet) (limits : LimitUsageDto) : WalletDto where
  walletId := wallet.id
  currency := wallet.currency
  balanceMinor := number wallet.balanceMinor
  status := wallet.status
  limits := limits

def walletNotFound : Failure := refuse 500 .INTERNAL_ERROR "Wallet not found for user."

/-- The wallet is read in one statement and the sums in another, with the clock between. -/
def getForUser (cfg : Config) (atWallet atSums : Db) (userId : Uuid) (now : Time) :
    Except Failure WalletDto :=
  match atWallet.walletOf? userId with
  | none => .error walletNotFound
  | some wallet => do
    let limits ← getUsage cfg atSums userId now
    return toWalletDto wallet limits

end Reading

section Windows

/-- The order in which the windows are checked. -/
def periods : List Period := [.daily, .weekly, .monthly]

def LimitUsageDto.window (usage : LimitUsageDto) : Period → LimitWindowDto
  | .daily => usage.daily
  | .weekly => usage.weekly
  | .monthly => usage.monthly

def LimitUsageDto.leastRemaining (usage : LimitUsageDto) : ℤ :=
  min usage.daily.remainingMinor (min usage.weekly.remainingMinor usage.monthly.remainingMinor)

def headroom (usedMinor limitMinor : ℤ) : ℤ := max (limitMinor - usedMinor) 0

theorem le_leastRemaining_iff {usage : LimitUsageDto} {n : ℤ} :
    n ≤ usage.leastRemaining ↔ ∀ p, n ≤ (usage.window p).remainingMinor := by
  simp only [LimitUsageDto.leastRemaining, le_min_iff]
  constructor
  · rintro ⟨hdaily, hweekly, hmonthly⟩ p
    cases p <;> assumption
  · intro h
    exact ⟨h .daily, h .weekly, h .monthly⟩

theorem toWindowDto_remaining (usedMinor limitMinor : ℤ) :
    (toWindowDto usedMinor limitMinor).remainingMinor = number (headroom usedMinor limitMinor) := by
  have hmax : (if limitMinor - usedMinor > 0 then limitMinor - usedMinor else 0) =
      headroom usedMinor limitMinor := by
    unfold headroom
    split_ifs with h
    · rw [max_eq_left h.le]
    · rw [max_eq_right (not_lt.1 h)]
  simp only [toWindowDto, hmax]

theorem headroom_nonneg (usedMinor limitMinor : ℤ) : 0 ≤ headroom usedMinor limitMinor :=
  le_max_right _ _

theorem le_headroom_iff {usedMinor limitMinor amountMinor : ℤ} (h : 0 < amountMinor) :
    amountMinor ≤ headroom usedMinor limitMinor ↔ usedMinor + amountMinor ≤ limitMinor := by
  unfold headroom
  omega

/-- Up to `2^53`, no amount is on another side of a rounded number than of the number. -/
theorem le_number_iff {n amountMinor : ℤ} (hn : 0 ≤ n) (h : 0 < amountMinor)
    (hsmall : amountMinor ≤ 2 ^ 53 ∨ n ≤ 2 ^ 53) : amountMinor ≤ number n ↔ amountMinor ≤ n := by
  obtain ⟨n, rfl⟩ := Int.eq_ofNat_of_zero_le hn
  obtain ⟨a, rfl⟩ := Int.eq_ofNat_of_zero_le h.le
  rw [number_natCast, Nat.cast_le, Nat.cast_le]
  rcases hsmall with ha | hn
  · have hexact : nearest a = a := nearest_eq (by exact_mod_cast ha)
    constructor
    · intro hle
      by_contra hlt
      have hless : nearest n = n := nearest_eq (by omega)
      omega
    · intro hle
      rw [← hexact]
      exact nearest_mono hle
  · rw [nearest_eq (by exact_mod_cast hn)]

theorem getUsage_window (cfg : Config) {db : Db} {u : Uuid} {now : Time} {totals : SentTotals}
    (h : execSumSent db u (windowsSince now) = .ok totals) :
    ∃ usage, getUsage cfg db u now = .ok usage ∧
      ∀ p, usage.window p = toWindowDto (totals.usedMinor p) (p.limitMinor cfg) := by
  refine ⟨_, by rw [getUsage, h]; rfl, fun p => ?_⟩
  cases p <;> rfl

end Windows

section Enforcing

variable (cfg : Config)

/-- The first window, in the order of the checks, that the amount does not fit under. -/
def firstExceeded (totals : SentTotals) (amountMinor : ℤ) : Option Period :=
  periods.find? fun p => p.limitMinor cfg < totals.usedMinor p + amountMinor

def exceeded (totals : SentTotals) (amountMinor : ℤ) (p : Period) : Failure :=
  .app (limitExceeded p (totals.usedMinor p) amountMinor (p.limitMinor cfg))

theorem assertWindows_eq (totals : SentTotals) (amountMinor : ℤ) :
    assertWindows cfg totals amountMinor =
      match firstExceeded cfg totals amountMinor with
      | none => .ret ()
      | some p => .fail (exceeded cfg totals amountMinor p) := by
  have hwindow (p : Period) : assertWindow p (totals.usedMinor p) amountMinor (p.limitMinor cfg) =
      if p.limitMinor cfg < totals.usedMinor p + amountMinor then
        .fail (exceeded cfg totals amountMinor p) else .ret () := by
    unfold assertWindow
    split_ifs with hle hlt
    · omega
    · rfl
    · rfl
    · omega
  change (assertWindow .daily (totals.usedMinor .daily) amountMinor
        (Period.daily.limitMinor cfg) >>=
    fun _ => assertWindow .weekly (totals.usedMinor .weekly) amountMinor
        (Period.weekly.limitMinor cfg) >>=
      fun _ => assertWindow .monthly (totals.usedMinor .monthly) amountMinor
        (Period.monthly.limitMinor cfg)) = _
  simp only [hwindow, firstExceeded, periods, List.find?_cons, List.find?_nil]
  by_cases hdaily : Period.daily.limitMinor cfg < totals.usedMinor .daily + amountMinor
  · simp [hdaily]
  · by_cases hweekly : Period.weekly.limitMinor cfg < totals.usedMinor .weekly + amountMinor
    · simp [hdaily, hweekly]
    · by_cases hmonthly : Period.monthly.limitMinor cfg < totals.usedMinor .monthly + amountMinor
      · simp [hdaily, hweekly, hmonthly]
      · simp [hdaily, hweekly, hmonthly]

theorem firstExceeded_eq_none {totals : SentTotals} {amountMinor : ℤ} :
    firstExceeded cfg totals amountMinor = none ↔
      ∀ p : Period, totals.usedMinor p + amountMinor ≤ p.limitMinor cfg := by
  simp only [firstExceeded, periods, List.find?_eq_none, decide_eq_true_eq, not_lt]
  constructor
  · intro h p
    exact h p (by cases p <;> decide)
  · intro h p _
    exact h p

/-- The check, run alone at the instant of its first draw. -/
def enforced (db : Db) (u : Uuid) (d₁ d₂ : Draw Time Uuid) (amountMinor : ℤ) :
    Option (Except Failure Unit × Db) :=
  store.alone db (assertWithinLimits cfg u amountMinor) db [d₁, d₂]

variable {cfg} {db : Db} {u : Uuid} {d₁ d₂ : Draw Time Uuid}

theorem enforced_ok {totals : SentTotals}
    (h : execSumSent db u (windowsSince d₁.now) = .ok totals) (amountMinor : ℤ) :
    enforced cfg db u d₁ d₂ amountMinor = match firstExceeded cfg totals amountMinor with
      | none => some (.ok (), db)
      | some p => some (.error (exceeded cfg totals amountMinor p), db) := by
  have hsum : store.exec (.sumSentByWindow u (windowsSince d₁.now)) db d₂ = .ok (totals, []) := by
    change (execSumSent db u (windowsSince d₁.now)).map _ = _
    rw [h]
    rfl
  have hrun : enforced cfg db u d₁ d₂ amountMinor =
      store.alone db (assertWindows cfg totals amountMinor) db [] := by
    change store.alone db (.op (.sumSentByWindow u (windowsSince d₁.now)) _) db [d₂] = _
    rw [Engine.alone_op, store.next_ok hsum]
    rfl
  rw [hrun, assertWindows_eq]
  cases firstExceeded cfg totals amountMinor with
  | none => rfl
  | some p => rfl

theorem enforced_error {e : Failure} (h : execSumSent db u (windowsSince d₁.now) = .error e)
    (amountMinor : ℤ) : enforced cfg db u d₁ d₂ amountMinor = some (.error e, db) := by
  have hsum : store.exec (.sumSentByWindow u (windowsSince d₁.now)) db d₂ = .error e := by
    change (execSumSent db u (windowsSince d₁.now)).map _ = _
    rw [h]
    rfl
  change store.alone db (.op (.sumSentByWindow u (windowsSince d₁.now)) _) db [d₂] = _
  rw [Engine.alone_op, store.next_error hsum]
  rfl

end Enforcing

section Agreement

variable {cfg : Config} {db : Db} {u : Uuid} {d₁ d₂ : Draw Time Uuid}

/-- While the sums of the windows fit their type, the query yields them, and the check and
the read path draw the same line: of the amounts that a JavaScript number shows exactly, or
under limits that it shows exactly, those up to the least headroom pass. -/
structure Agrees (cfg : Config) (db : Db) (u : Uuid) (d₁ d₂ : Draw Time Uuid)
    (totals : SentTotals) (usage : LimitUsageDto) : Prop where
  queried : execSumSent db u (windowsSince d₁.now) = .ok totals
  sums : ∀ p, totals.usedMinor p = amounts (db.sentSince u (d₁.now - p.span))
  shown : getUsage cfg db u d₁.now = .ok usage
  passes : ∀ amountMinor, 0 < amountMinor →
    (amountMinor ≤ 2 ^ 53 ∨ ∀ p, headroom (totals.usedMinor p) (p.limitMinor cfg) ≤ 2 ^ 53) →
    (enforced cfg db u d₁ d₂ amountMinor = some (.ok (), db) ↔
      amountMinor ≤ usage.leastRemaining)
  refuses : ∀ amountMinor, 0 < amountMinor →
    enforced cfg db u d₁ d₂ amountMinor ≠ some (.ok (), db) →
      ∃ p, firstExceeded cfg totals amountMinor = some p ∧
        enforced cfg db u d₁ d₂ amountMinor = some (.error (exceeded cfg totals amountMinor p), db)

theorem enforced_iff {totals : SentTotals}
    (h : execSumSent db u (windowsSince d₁.now) = .ok totals) (amountMinor : ℤ) :
    enforced cfg db u d₁ d₂ amountMinor = some (.ok (), db) ↔
      ∀ p : Period, totals.usedMinor p + amountMinor ≤ p.limitMinor cfg := by
  rw [← firstExceeded_eq_none, enforced_ok h]
  cases firstExceeded cfg totals amountMinor with
  | none => simp
  | some p => simp

theorem agrees_of_ok {totals : SentTotals}
    (h : execSumSent db u (windowsSince d₁.now) = .ok totals) :
    ∃ usage, Agrees cfg db u d₁ d₂ totals usage := by
  obtain ⟨usage, hshown, hwindow⟩ := getUsage_window cfg h
  refine ⟨usage, h, execSumSent_used h, hshown, ?_, ?_⟩
  · intro amountMinor hpos hsmall
    rw [enforced_iff h, le_leastRemaining_iff]
    refine forall_congr' (fun p => ?_)
    have hsmall' : amountMinor ≤ 2 ^ 53 ∨
        headroom (totals.usedMinor p) (p.limitMinor cfg) ≤ 2 ^ 53 :=
      hsmall.imp_right (fun hall => hall p)
    rw [hwindow, toWindowDto_remaining, le_number_iff (headroom_nonneg _ _) hpos hsmall',
      le_headroom_iff hpos]
  · intro amountMinor _ hno
    rw [enforced_ok h] at hno ⊢
    cases hfirst : firstExceeded cfg totals amountMinor with
    | none => exact absurd (by rw [hfirst]) hno
    | some p => exact ⟨p, rfl, rfl⟩

/-- Reported headroom is enforced headroom. Where a sum leaves the type of the column, both
paths fail alike. -/
theorem headroom_enforced (cfg : Config) (db : Db) (u : Uuid) (d₁ d₂ : Draw Time Uuid) :
    if ∀ p ∈ periods, InBigint (amounts (db.sentSince u (d₁.now - p.span))) then
      ∃ totals usage, Agrees cfg db u d₁ d₂ totals usage
    else getUsage cfg db u d₁.now = .error (.db .outOfRange) ∧
      ∀ amountMinor, enforced cfg db u d₁ d₂ amountMinor = some (.error (.db .outOfRange), db) := by
  have hsums := execSumSent_eq db u d₁.now
  split_ifs with hfits
  · rw [if_pos ⟨hfits .daily (by decide), hfits .weekly (by decide),
      hfits .monthly (by decide)⟩] at hsums
    exact ⟨_, agrees_of_ok hsums⟩
  · rw [if_neg] at hsums
    · exact ⟨by rw [getUsage, hsums]; rfl, fun amountMinor => enforced_error hsums amountMinor⟩
    · rintro ⟨hdaily, hweekly, hmonthly⟩
      refine hfits (fun p _ => ?_)
      cases p <;> assumption

def sampleSent (id : Uuid) (amountMinor : ℤ) : Transfer where
  id := id
  senderUserId := 1
  receiverUserId := 2
  senderWalletId := 11
  receiverWalletId := 12
  amountMinor := amountMinor
  currency := .BDT
  status := .SUCCEEDED
  note := none
  sourceType := .DIRECT
  sourceRequestId := none
  createdAt := 0
  completedAt := some 0

def wideConfig : Config where
  initialWalletBalanceMinor := 1000
  dailyTransferLimitMinor := 2 ^ 54
  weeklyTransferLimitMinor := 2 ^ 54
  monthlyTransferLimitMinor := 2 ^ 54
  sha256 := id
  daily_pos := by decide
  weekly_pos := by decide
  monthly_pos := by decide

def smallHistory : Db := { sampleDb with transfers := [sampleSent 101 1] }

def hugeHistory : Db :=
  { sampleDb with transfers := [sampleSent 101 (2 ^ 62), sampleSent 102 (2 ^ 62)] }

/-- Under limits of `2^54` an amount is refused that the headroom shown covers; and two
transfers of `2^62` leave neither a sum nor a headroom. -/
theorem headroom_misreported :
    (∃ usage, getUsage wideConfig smallHistory 1 0 = .ok usage ∧
      2 ^ 54 ≤ usage.leastRemaining ∧
      enforced wideConfig smallHistory 1 ⟨0, 5⟩ ⟨0, 6⟩ (2 ^ 54) ≠ some (.ok (), smallHistory)) ∧
    getUsage sampleConfig hugeHistory 1 0 = .error (.db .outOfRange) := by
  have hsums : execSumSent smallHistory 1 (windowsSince (⟨0, 5⟩ : Draw Time Uuid).now) =
      .ok ⟨1, 1, 1⟩ := rfl
  refine ⟨⟨⟨⟨2 ^ 54, 1, 2 ^ 54⟩, ⟨2 ^ 54, 1, 2 ^ 54⟩, ⟨2 ^ 54, 1, 2 ^ 54⟩⟩, ?_, by decide, ?_⟩, ?_⟩
  · rfl
  · intro hpass
    have hroom := (enforced_iff hsums (2 ^ 54)).1 hpass .daily
    exact absurd hroom (by decide)
  · rfl

end Agreement

end MoneyMovement
