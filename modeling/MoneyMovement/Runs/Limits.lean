import MoneyMovement.Runs.Commits
import Mathlib.Algebra.Order.BigOperators.Group.List
import Mathlib.Algebra.Order.Group.Int

/-!
# Rolling send limits

The check looks back from the moment of one transfer. A window that contains that
transfer ends after the check, so it begins after the checked window did and holds
nothing else that was not summed; a window without it is the business of the
transfers before.
-/

namespace MoneyMovement

open Txn TransferService TransactionLimitService

section Windows

def Period.span : Period → Time
  | .daily => DAY_MS
  | .weekly => 7 * DAY_MS
  | .monthly => 30 * DAY_MS

def Period.limitMinor (cfg : Config) : Period → ℤ
  | .daily => cfg.dailyTransferLimitMinor
  | .weekly => cfg.weeklyTransferLimitMinor
  | .monthly => cfg.monthlyTransferLimitMinor

def SentTotals.usedMinor (totals : SentTotals) : Period → ℤ
  | .daily => totals.dailyMinor
  | .weekly => totals.weeklyMinor
  | .monthly => totals.monthlyMinor

theorem Period.limitMinor_pos (cfg : Config) (p : Period) : 0 < p.limitMinor cfg := by
  cases p with
  | daily => exact cfg.daily_pos
  | weekly => exact cfg.weekly_pos
  | monthly => exact cfg.monthly_pos

theorem Period.span_le_monthly (p : Period) : p.span ≤ Period.monthly.span := by
  cases p <;> decide

theorem WithinLimits.period {cfg : Config} {totals : SentTotals} {amountMinor : ℤ}
    (h : WithinLimits cfg totals amountMinor) (p : Period) :
    totals.usedMinor p + amountMinor ≤ p.limitMinor cfg := by
  cases p with
  | daily => exact h.1
  | weekly => exact h.2.1
  | monthly => exact h.2.2

theorem filter_sentSince {v : Db} {u : Uuid} {first since : Time} (h : first ≤ since) :
    (v.sentSince u first).filter (since ≤ ·.createdAt) = v.sentSince u since := by
  simp only [Db.sentSince, List.filter_filter]
  refine List.filter_congr (fun t _ => ?_)
  rw [← Bool.decide_and, decide_eq_decide]
  constructor
  · rintro ⟨hle, hu, hst, -⟩
    exact ⟨hu, hst, hle⟩
  · rintro ⟨hu, hst, hle⟩
    exact ⟨hle, hu, hst, h.trans hle⟩

/-- What the sender's succeeded transfers of the window that ends now sum to. -/
def usedIn (v : Db) (u : Uuid) (now : Time) (p : Period) : ℤ :=
  amounts (v.sentSince u (now - p.span))

/-- The one query for all windows sums each of them exactly. -/
theorem execSumSent_eq (v : Db) (u : Uuid) (now : Time) :
    execSumSent v u (windowsSince now) =
      if InBigint (usedIn v u now .daily) ∧ InBigint (usedIn v u now .weekly) ∧
          InBigint (usedIn v u now .monthly) then
        .ok ⟨usedIn v u now .daily, usedIn v u now .weekly, usedIn v u now .monthly⟩
      else .error (.db .outOfRange) := by
  have hsum (p : Period) :
      amounts ((v.sentSince u (now - Period.monthly.span)).filter (now - p.span ≤ ·.createdAt)) =
        usedIn v u now p :=
    congrArg amounts (filter_sentSince (sub_le_sub_left p.span_le_monthly now))
  rw [← hsum .daily, ← hsum .weekly, ← hsum .monthly]
  rfl

theorem execSumSent_used {v : Db} {u : Uuid} {now : Time} {totals : SentTotals}
    (h : execSumSent v u (windowsSince now) = .ok totals) (p : Period) :
    totals.usedMinor p = amounts (v.sentSince u (now - p.span)) := by
  rw [execSumSent_eq] at h
  split_ifs at h
  cases h
  cases p <;> rfl

end Windows

section Sums

variable {ts : List Transfer}

/-- A weaker filter keeps a larger sum. -/
theorem amounts_filter_le {p q : Transfer → Bool} (hpos : ∀ t ∈ ts, 0 ≤ t.amountMinor)
    (h : ∀ t, p t → q t) : amounts (ts.filter p) ≤ amounts (ts.filter q) := by
  refine ((List.monotone_filter_right ts h).map _).sum_le_sum (fun a ha => ?_)
  obtain ⟨t, ht, rfl⟩ := List.mem_map.1 ha
  exact hpos t (List.mem_of_mem_filter ht)

theorem amounts_filter (p : Transfer → Bool) :
    amounts (ts.filter p) = (ts.map fun t => if p t then t.amountMinor else 0).sum := by
  induction ts with
  | nil => rfl
  | cons t ts ih =>
    rw [List.map_cons, List.sum_cons, ← ih, List.filter_cons]
    split_ifs
    · exact List.sum_cons
    · exact (zero_add _).symm

/-- Two filters that let through what a third does keep at least its sum between them. -/
theorem amounts_filter_le_add {p q r : Transfer → Bool} (hpos : ∀ t ∈ ts, 0 ≤ t.amountMinor)
    (h : ∀ t, p t → q t ∨ r t) :
    amounts (ts.filter p) ≤ amounts (ts.filter q) + amounts (ts.filter r) := by
  rw [amounts_filter, amounts_filter, amounts_filter, ← List.sum_map_add]
  refine List.sum_le_sum fun t ht => ?_
  have hnonneg := hpos t ht
  have hcover := h t
  split_ifs <;> first | omega | simp_all

def Db.sentBetween (db : Db) (senderUserId : Uuid) (first last : Time) : List Transfer :=
  db.transfers.filter fun t =>
    t.senderUserId = senderUserId ∧ t.status = .SUCCEEDED ∧ first ≤ t.createdAt ∧
      t.createdAt ≤ last

end Sums

section Invariant

variable {cfg : Config} {db₀ db v v' : Db} {clock : Time} {s : Service}
  {ds : List (Draw Time Uuid)} {c : Command} {a : Response} {log : Log}

/-- The sums of every window that could be looked at. -/
structure Limited (cfg : Config) (v : Db) : Prop where
  positive : ∀ t ∈ v.transfers, 0 < t.amountMinor
  within : ∀ sender t (p : Period),
    amounts (v.sentBetween sender (t - p.span) t) ≤ p.limitMinor cfg

def Committed (log : Log) (v : Db) : Prop :=
  ∀ t ∈ v.transfers, ∃ e ∈ log.filterMap Event.ended?, (∃ a, e.outcome = .ok a) ∧
    ∃ d ∈ e.draws, d.id = t.id ∧ d.now = t.createdAt

theorem Limited.settle {input : SettleInput} {source : TransferSource} {z : Settlement}
    (h : Limited cfg v) (hz : Settles cfg input source v ds z) (ho : InOrder ds) :
    Limited cfg (z.apply input source v) := by
  refine ⟨fun t ht => ?_, fun sender t p => ?_⟩
  · rcases List.mem_append.1 ht with ht | ht
    · exact h.positive t ht
    · rw [List.mem_singleton.1 ht]
      exact hz.amount.1
  · have hsplit : (z.apply input source v).sentBetween sender (t - p.span) t =
        v.sentBetween sender (t - p.span) t ++ [z.transfer input source].filter (fun x =>
          x.senderUserId = sender ∧ x.status = .SUCCEEDED ∧ t - p.span ≤ x.createdAt ∧
            x.createdAt ≤ t) := List.filter_append ..
    rw [hsplit, amounts, List.map_append, List.sum_append, List.filter_cons]
    split_ifs with hin
    · obtain ⟨hsender, -, -, hlast⟩ := of_decide_eq_true hin
      have hnow : z.limitNow ≤ t := (hz.ordered ho).1.trans hlast
      have hused := execSumSent_used hz.totals p
      have hle : amounts (v.sentBetween sender (t - p.span) t) ≤
          amounts (v.sentSince z.sender.userId (z.limitNow - p.span)) := by
        refine amounts_filter_le (fun x hx => (h.positive x hx).le) (fun x hx => ?_)
        obtain ⟨hu, hst, hfirst, -⟩ := of_decide_eq_true hx
        have hz : z.sender.userId = sender := hsender
        exact decide_eq_true ⟨hu.trans hz.symm, hst, (sub_le_sub_right hnow _).trans hfirst⟩
      have hwithin := hz.within.period p
      simp only [amounts] at hle hused ⊢
      simp only [Settlement.transfer, pendingTransfer, transferData, List.filter_nil, List.map_cons,
        List.map_nil, List.sum_singleton]
      omega
    · simpa [amounts] using h.within sender t p

theorem Limited.effect (h : Limited cfg v) (he : Effect cfg v ds c a v') (ho : InOrder ds) :
    Limited cfg v' := by
  have congr {v₁ : Db} (h : Limited cfg v₁) (ht : v'.transfers = v₁.transfers) : Limited cfg v' :=
    ⟨ht ▸ h.positive, by simpa only [Db.sentBetween, ht] using h.within⟩
  rcases he.money with ⟨-, ht, -⟩ | ⟨input, source, z, hz, -, ht, -⟩
  · exact congr h ht
  · exact congr (h.settle hz ho) ht

theorem Committed.mono {e : Txn.Event store Command Response} (h : Committed log v)
    (ht : v'.transfers = v.transfers) : Committed (log ++ [e]) v' := by
  intro t hm
  obtain ⟨x, hx, hrest⟩ := h t (ht ▸ hm)
  exact ⟨x, Sys.mem_ended_snoc.2 (Or.inl hx), hrest⟩

theorem Committed.effect (h : Committed log v) (he : Effect cfg v ds c a v') :
    Committed (log ++ [.ended ⟨c, ds, .ok a⟩]) v' := by
  rcases he.money with ⟨-, ht, -⟩ | ⟨input, source, z, hz, -, ht, -⟩
  · exact h.mono ht
  · intro t hm
    rw [ht] at hm
    rcases List.mem_append.1 hm with hm | hm
    · obtain ⟨x, hx, hrest⟩ := h t hm
      exact ⟨x, Sys.mem_ended_snoc.2 (Or.inl hx), hrest⟩
    · rw [List.mem_singleton.1 hm]
      exact ⟨⟨c, ds, .ok a⟩, Sys.mem_ended_snoc.2 (Or.inr rfl), ⟨a, rfl⟩,
        z.inserted, hz.drawn, rfl, rfl⟩

/-- At every moment, for every sender and every window of one, seven or thirty days,
what the sender's succeeded transfers in it sum to is within the limit; and only
calls that succeeded count. -/
theorem rolling_limits_hold (h₀ : Start db₀)
    (h : Sys.Reach (body cfg) Open (Service.initial db₀ clock) s) :
    (∀ sender t (p : Period),
      amounts (s.db.sentBetween sender (t - p.span) t) ≤ p.limitMinor cfg) ∧
    ∀ x ∈ s.db.transfers, ∃ e ∈ s.ended, (∃ a, e.outcome = .ok a) ∧
      ∃ d ∈ e.draws, d.id = x.id ∧ d.now = x.createdAt := by
  have htimely := (initial_timely db₀ clock).reach h
  have hinv := explained_induction
    (motive := fun log v => (∀ e ∈ log.filterMap Event.ended?, InOrder e.draws) →
      Limited cfg v ∧ Committed log v) h₀.good ?_
    (fun log v c ds a v' hg hj he ho => ?_) (fun log v r v' _ hj hr ho => ?_)
    (fun log v c ds e _ hj ho => ?_) (fun log v c hj ho => ?_) (open_inv h₀.good h).explained
    htimely.ended
  · exact ⟨hinv.1.within, hinv.2⟩
  · refine fun _ => ⟨⟨by simp [h₀.transfers], fun sender t p => ?_⟩,
      by simp [Committed, h₀.transfers]⟩
    simpa [Db.sentBetween, h₀.transfers, amounts] using (p.limitMinor_pos cfg).le
  all_goals
    have hold := hj (fun e he => ho e (Sys.mem_ended_snoc.2 (Or.inl he)))
  · have hds : InOrder ds := ho ⟨c, ds, .ok a⟩ (Sys.mem_ended_snoc.2 (Or.inr rfl))
    exact ⟨hold.1.effect he hds, hold.2.effect he⟩
  · obtain ⟨-, -, -, rfl⟩ := register_spec hr
    exact ⟨⟨hold.1.positive, hold.1.within⟩, hold.2.mono rfl⟩
  · exact ⟨hold.1, hold.2.mono rfl⟩
  · exact ⟨hold.1, hold.2.mono rfl⟩

theorem rolling_limits_hold_crossing : ∃ s : Service, s.db.transfers.length = 2 ∧
    amounts (s.db.sentBetween 1 (50 - Period.daily.span) 50) ≤ 5000 := by
  have hrun : ((Service.initial sampleDb 50).run (body sampleConfig) crossing).any
      (fun s => s.db.transfers.length = 2) := by
    decide +kernel
  obtain ⟨s, hs, hlen⟩ := of_run hrun
  exact ⟨s, of_decide_eq_true hlen,
    (rolling_limits_hold sampleDb_start (open_of_run hs)).1 1 50 .daily⟩

end Invariant

end MoneyMovement
