import MoneyMovement.Runs.Records

/-!
# The velocity rule

The transfers of a sender are created in the order in which they are committed, since each
holds the sender's wallet from before its row is inserted until it commits. So those that were
settled before another are all created before its risk assessment, and the rule counts
them; but it counts the assessed transfer too.
-/

namespace MoneyMovement

open Txn TransferService RiskEngineService

variable {cfg : Config} {db₀ : Db} {clock : Time} {s s' : Service} {closed : Prop}

section Order

def Transfer.stamp (t : Transfer) : Uuid × Time := (t.senderUserId, t.createdAt)

def InTurn (x y : Uuid × Time) : Prop := x.1 = y.1 → x.2 ≤ y.2

def Write.newTransfer? : Write → Option Transfer
  | .insertTransfer t => some t
  | _ => none

def newTransfers (ws : List Write) : List Transfer := ws.filterMap Write.newTransfer?

theorem newTransfers_append (ws ws' : List Write) :
    newTransfers (ws ++ ws') = newTransfers ws ++ newTransfers ws' :=
  List.filterMap_append

@[simp] theorem succeed_stamp (id : Uuid) (at_ : Time) (t : Transfer) :
    (t.succeed id at_).stamp = t.stamp := by
  unfold Transfer.succeed
  split <;> rfl

theorem stamps_view (v : Db) (ws : List Write) :
    (store.view v ws).transfers.map Transfer.stamp =
      v.transfers.map Transfer.stamp ++ (newTransfers ws).map Transfer.stamp := by
  induction ws generalizing v with
  | nil => exact (List.append_nil _).symm
  | cons w ws ih =>
    rw [Engine.view_cons, ih]
    cases w with
    | insertTransfer t =>
      change (v.transfers ++ [t]).map Transfer.stamp ++ _ = _
      rw [List.map_append, List.append_assoc]
      rfl
    | succeedTransfer id at_ =>
      change (v.transfers.map (Transfer.succeed id at_)).map Transfer.stamp ++ _ = _
      rw [List.map_map]
      congr 1
      exact List.map_congr_left fun t _ => succeed_stamp id at_ t
    | _ => rfl

theorem newTransfers_exec {st : Stmt} {v : Db} {d : Draw Time Uuid} {r : Reply st}
    {ws : List Write} (h : exec st v d = .ok (r, ws)) :
    ∀ y ∈ newTransfers ws, y.createdAt = d.now := by
  rcases exec_produces h with rfl | ⟨w, rfl, hp⟩
  · rintro y ⟨⟩
  · cases hp with
    | insertPendingTransfer data t hrange =>
      obtain ⟨rfl, hws, -⟩ := insertPendingTransfer_ok h
      cases hws
      intro y hy
      rw [List.mem_singleton.1 hy]
      rfl
    | _ => rintro y ⟨⟩

/-- Who inserts a transfer has locked its sender's wallet. -/
theorem senderLocked_of_owns {L : List Lock} {v : Db} {ws : List Write}
    (h : (protocol closed).OwnsAll L v ws) {y : Transfer} (hy : y ∈ newTransfers ws) :
    SenderLocked L v.wallets y.senderUserId := by
  induction ws generalizing v with
  | nil => cases hy
  | cons w ws ih =>
    obtain ⟨how, hrest⟩ := h
    have hlater (hmem : y ∈ newTransfers ws) : SenderLocked L v.wallets y.senderUserId := by
      have hlocked := ih hrest hmem
      cases w with
      | addBalance id delta => exact SenderLocked.addBalance.1 hlocked
      | _ => exact hlocked
    cases w with
    | insertTransfer t =>
      rcases List.mem_cons.1 hy with rfl | hmem
      · exact how.2
      · exact hlater hmem
    | _ => exact hlater hy

/-- Transfers are created in the past, and those of one sender in turn. -/
structure CreatedInTurn (s : Service) : Prop where
  past : ∀ x ∈ s.db.transfers, x.createdAt ≤ s.clock
  committed : (s.db.transfers.map Transfer.stamp).Pairwise InTurn
  made : ∀ i t, s.tx i = some t → ∀ y ∈ newTransfers t.writes, y.createdAt ≤ s.clock
  after : ∀ i t, s.tx i = some t → ∀ y ∈ newTransfers t.writes, ∀ x ∈ s.db.transfers,
    InTurn x.stamp y.stamp
  within : ∀ i t, s.tx i = some t → ((newTransfers t.writes).map Transfer.stamp).Pairwise InTurn

theorem inTurn_of_le {x y : Transfer} (h : x.createdAt ≤ y.createdAt) : InTurn x.stamp y.stamp :=
  fun _ => h

theorem CreatedInTurn.issue (h : CreatedInTurn s) {i : ℕ} {id : Uuid}
    {t : Tx store Command Response} {st : Stmt} {k : Reply st → TxM Response}
    (ht : s.tx i = some t) :
    CreatedInTurn (s.put i (t.after s.db ⟨s.clock, id⟩ st k)) := by
  have hnew : ∀ y ∈ newTransfers (store.next (store.view s.db t.writes) ⟨s.clock, id⟩ st k).2,
      y.createdAt = s.clock := by
    cases hx : store.exec st (store.view s.db t.writes) ⟨s.clock, id⟩ with
    | error e =>
      rw [Engine.next_error _ hx]
      rintro y ⟨⟩
    | ok out =>
      rw [Engine.next_ok _ hx]
      exact newTransfers_exec hx
  have heach {j : ℕ} {u : Tx store Command Response}
      (hu : (s.put i (t.after s.db ⟨s.clock, id⟩ st k)).tx j = some u) :
      s.tx j = some u ∨ newTransfers u.writes = newTransfers t.writes ++
        newTransfers (store.next (store.view s.db t.writes) ⟨s.clock, id⟩ st k).2 := by
    by_cases hj : j = i
    · subst hj
      rw [Sys.tx_put_self ht, Option.some.injEq] at hu
      subst hu
      exact Or.inr (newTransfers_append _ _)
    · rw [Sys.tx_put_ne hj] at hu
      exact Or.inl hu
  refine ⟨h.past, h.committed, fun j u hu y hy => ?_, fun j u hu y hy x hx => ?_, fun j u hu => ?_⟩
  · rcases heach hu with hu | hws
    · exact h.made j u hu y hy
    · rw [hws] at hy
      rcases List.mem_append.1 hy with hy | hy
      · exact h.made i t ht y hy
      · exact (hnew y hy).le
  · rcases heach hu with hu | hws
    · exact h.after j u hu y hy x hx
    · rw [hws] at hy
      rcases List.mem_append.1 hy with hy | hy
      · exact h.after i t ht y hy x hx
      · exact inTurn_of_le ((h.past x hx).trans (hnew y hy).ge)
  · rcases heach hu with hu | hws
    · exact h.within j u hu
    · rw [hws, List.map_append]
      refine List.pairwise_append.2 ⟨h.within i t ht, ?_, fun a ha b hb => ?_⟩
      · refine List.Pairwise.map _ (R := fun x y => x.createdAt ≤ y.createdAt)
          (fun _ _ => inTurn_of_le) (List.pairwise_of_forall_mem_list fun x hx y hy => ?_)
        exact ((hnew x hx).trans (hnew y hy).symm).le
      · obtain ⟨x, hx, rfl⟩ := List.mem_map.1 ha
        obtain ⟨y, hy, rfl⟩ := List.mem_map.1 hb
        exact inTurn_of_le ((h.made i t ht x hx).trans (hnew y hy).ge)

/-- Two transactions that insert transfers insert those of different senders. -/
theorem senders_apart (hi : (protocol closed).Inv (body cfg) db₀ s) {i j : ℕ} (hij : i ≠ j)
    {t u : Tx store Command Response} (ht : s.tx i = some t) (hu : s.tx j = some u)
    {x y : Transfer} (hx : x ∈ newTransfers t.writes) (hy : y ∈ newTransfers u.writes) :
    x.senderUserId ≠ y.senderUserId := by
  intro heq
  obtain ⟨w, hw, hwx, hlock⟩ := senderLocked_of_owns (hi.each i t ht).owns hx
  obtain ⟨w', hw', hwy, hlock'⟩ := senderLocked_of_owns (hi.each j u hu).owns hy
  obtain rfl : w = w' := eq_of_nodup_key hi.good.owners hw hw' (hwx.trans (heq.trans hwy.symm))
  refine hi.apart i j hij (Lock.wallet w.id) ?_ ?_
  · rwa [Sys.held_of_tx ht]
  · rwa [Sys.held_of_tx hu]

theorem CreatedInTurn.commit (h : CreatedInTurn s) (hi : (protocol closed).Inv (body cfg) db₀ s)
    {i : ℕ} {t : Tx store Command Response} (ht : s.tx i = some t)
    (e : Txn.Event store Command Response) :
    CreatedInTurn (s.close i (store.view s.db t.writes) e) := by
  have hmem {x : Transfer} (hx : x ∈ (store.view s.db t.writes).transfers) :
      (∃ y ∈ s.db.transfers, y.stamp = x.stamp) ∨
        ∃ y ∈ newTransfers t.writes, y.stamp = x.stamp := by
    have hstamp := List.mem_map_of_mem (f := Transfer.stamp) hx
    rw [stamps_view] at hstamp
    exact (List.mem_append.1 hstamp).imp List.mem_map.1 List.mem_map.1
  refine ⟨fun x hx => ?_, ?_, fun j u hu => ?_, fun j u hu y hy x hx => ?_, fun j u hu => ?_⟩
  · rcases hmem hx with ⟨y, hy, hstamp⟩ | ⟨y, hy, hstamp⟩
    · exact (congrArg Prod.snd hstamp).ge.trans (h.past y hy)
    · exact (congrArg Prod.snd hstamp).ge.trans (h.made i t ht y hy)
  · rw [Sys.close_db, stamps_view]
    refine List.pairwise_append.2 ⟨h.committed, h.within i t ht, fun a ha b hb => ?_⟩
    obtain ⟨x, hx, rfl⟩ := List.mem_map.1 ha
    obtain ⟨y, hy, rfl⟩ := List.mem_map.1 hb
    exact h.after i t ht y hy x hx
  · exact h.made j u (Sys.tx_of_close hu).2
  · obtain ⟨hj, hu⟩ := Sys.tx_of_close hu
    rcases hmem hx with ⟨z, hz, hstamp⟩ | ⟨z, hz, hstamp⟩
    · exact hstamp ▸ h.after j u hu y hy z hz
    · intro hsame
      exact absurd ((congrArg Prod.fst hstamp).trans hsame)
        (senders_apart hi (Ne.symm hj) ht hu hz hy)
  · exact h.within j u (Sys.tx_of_close hu).2

theorem CreatedInTurn.step (h : CreatedInTurn s) (hi : (protocol closed).Inv (body cfg) db₀ s)
    {l : Event} (hs : s.step? (body cfg) l = some s') : CreatedInTurn s' := by
  have hclose (i : ℕ) (e : Txn.Event store Command Response) :
      CreatedInTurn (s.close i s.db e) :=
    ⟨h.past, h.committed, fun j u hu => h.made j u (Sys.tx_of_close hu).2,
      fun j u hu => h.after j u (Sys.tx_of_close hu).2,
      fun j u hu => h.within j u (Sys.tx_of_close hu).2⟩
  cases Sys.step?_did (body cfg) hs with
  | tick t hle =>
    exact ⟨fun x hx => (h.past x hx).trans hle, h.committed,
      fun i u hu y hy => (h.made i u hu y hy).trans hle, h.after, h.within⟩
  | start c =>
    have hfresh {j : ℕ} {u : Tx store Command Response}
        (hu : ({ s with txs := s.txs ++ [some (Tx.fresh (body cfg) c)] } : Service).tx j = some u) :
        s.tx j = some u ∨ newTransfers u.writes = [] := by
      rcases Sys.tx_of_start hu with ⟨-, rfl⟩ | hu
      · exact Or.inr rfl
      · exact Or.inl hu
    refine ⟨h.past, h.committed, fun j u hu y hy => ?_, fun j u hu y hy => ?_, fun j u hu => ?_⟩
    · rcases hfresh hu with hu | hnone
      · exact h.made j u hu y hy
      · rw [hnone] at hy
        cases hy
    · rcases hfresh hu with hu | hnone
      · exact h.after j u hu y hy
      · rw [hnone] at hy
        cases hy
    · rcases hfresh hu with hu | hnone
      · exact h.within j u hu
      · rw [hnone]
        exact List.Pairwise.nil
  | step i id t st k ht hr hf => exact h.issue ht
  | commit i t a ht hr => exact h.commit hi ht _
  | rollback i t e ht hr => exact hclose i _
  | kill i t ht => exact hclose i _
  | external r db' hx =>
    obtain ⟨-, -, -, rfl⟩ := register_spec hx
    exact ⟨h.past, h.committed, h.made, h.after, h.within⟩

/-- In every reachable state the transfers of a sender stand in the order of their creation. -/
theorem created_in_turn (h₀ : Start db₀)
    (h : Sys.Reach (body cfg) Open (Service.initial db₀ clock) s) : CreatedInTurn s := by
  induction h with
  | refl =>
    refine ⟨fun x hx => ?_, ?_, fun i t ht => ?_, fun i t ht => ?_, fun i t ht => ?_⟩
    · rw [Service.initial, h₀.transfers] at hx
      cases hx
    · rw [Service.initial, h₀.transfers]
      exact List.Pairwise.nil
    all_goals
      rw [Service.initial, Sys.tx, List.getElem?_nil] at ht
      cases ht
  | tail l hreach hok hs ih => exact ih.step (open_inv h₀.good hreach) hs

end Order

section Rule

def velocityReason : JsString := js "Sender has made several transfers in a short time window."

/-- The velocity rule is the only one with its reason. -/
theorem velocity_mem_iff (context : RiskContext) : velocityReason ∈ (evaluate context).reasons ↔
    HIGH_VELOCITY_THRESHOLD ≤ context.senderRecentTransferCount := by
  have hothers : ∀ rule ∈ RULES.dropLast, js rule.reason ≠ velocityReason := by decide +kernel
  have hsplit : RULES = RULES.dropLast ++ [RULES.getLast (by decide)] := by
    rw [List.dropLast_append_getLast]
  simp only [evaluate, List.mem_map, List.mem_filter]
  constructor
  · rintro ⟨rule, ⟨hrule, hfires⟩, hreason⟩
    rw [hsplit] at hrule
    rcases List.mem_append.1 hrule with hrule | hrule
    · exact absurd hreason (hothers rule hrule)
    · rw [List.mem_singleton.1 hrule] at hfires
      exact of_decide_eq_true hfires
  · intro hcount
    exact ⟨RULES.getLast (by decide), ⟨List.getLast_mem _, decide_eq_true hcount⟩, rfl⟩

/-- Which transfers the rule of an assessment at `now` counts. -/
def Recent (senderUserId : Uuid) (now : Time) (t : Transfer) : Prop :=
  t.senderUserId = senderUserId ∧ t.status = .SUCCEEDED ∧
    now - HIGH_VELOCITY_WINDOW_MINUTES * 60000 ≤ t.createdAt

instance (senderUserId : Uuid) (now : Time) : DecidablePred (Recent senderUserId now) :=
  fun _ => inferInstanceAs (Decidable (_ ∧ _ ∧ _))

structure Assessment (log : Log) (before : List Transfer) (x : Transfer) (a : RiskAssessment)
    (now : Time) : Prop where
  transferId : a.transferId = x.id
  settled : x.status = .SUCCEEDED
  reading : ∃ e ∈ log.filterMap Event.ended?, (∃ b, e.outcome = .ok b) ∧
    AssessedAt e.draws ⟨x.createdAt, x.id⟩ now
  later : x.createdAt ≤ now
  counted : velocityReason ∈ a.reasons ↔
    HIGH_VELOCITY_THRESHOLD ≤ ((before ++ [x]).filter (Recent x.senderUserId now)).length

structure AllAssessed (log : Log) (v : Db) : Prop where
  aligned : v.riskAssessments.map RiskAssessment.transferId = v.transfers.map Transfer.id
  each : ∀ before x after, v.transfers = before ++ x :: after →
    ∃ a ∈ v.riskAssessments, ∃ now, Assessment log before x a now

variable {log : Log} {v v' : Db} {ds : List (Draw Time Uuid)} {c : Command} {b : Response}

theorem Assessment.snoc {before : List Transfer} {x : Transfer} {a : RiskAssessment} {now : Time}
    (h : Assessment log before x a now) (e : Txn.Event store Command Response) :
    Assessment (log ++ [e]) before x a now := by
  obtain ⟨d, hd, hreading⟩ := h.reading
  exact { h with reading := ⟨d, Sys.mem_ended_snoc.2 (Or.inl hd), hreading⟩ }

theorem AllAssessed.congr (h : AllAssessed log v) (ht : v'.transfers = v.transfers)
    (hr : v'.riskAssessments = v.riskAssessments) (e : Txn.Event store Command Response) :
    AllAssessed (log ++ [e]) v' := by
  refine ⟨by rw [ht, hr, h.aligned], fun before x after hx => ?_⟩
  obtain ⟨a, ha, now, hassessed⟩ := h.each before x after (ht ▸ hx)
  exact ⟨a, hr ▸ ha, now, hassessed.snoc e⟩

theorem AllAssessed.returned (h : AllAssessed log v) (hadds : Assesses cfg v ds v')
    (ho : InOrder ds) : AllAssessed (log ++ [.ended ⟨c, ds, .ok b⟩]) v' := by
  rcases hadds with ⟨ht, hr⟩ | ⟨input, source, z, hz, hassessed, ht, hr⟩
  · exact h.congr ht hr _
  have htransfers : v'.transfers = v.transfers ++ [z.transfer input source] := ht
  have hrisks : v'.riskAssessments = v.riskAssessments ++ [z.assessment input] := hr
  refine ⟨?_, fun before x after hx => ?_⟩
  · rw [htransfers, hrisks, List.map_append, List.map_append, h.aligned]
    rfl
  rw [hrisks]
  rcases List.eq_nil_or_concat after with rfl | ⟨after, last, rfl⟩
  · -- The transfer that this call settled.
    rw [htransfers] at hx
    obtain ⟨rfl, hlast⟩ := List.append_inj' hx rfl
    cases hlast
    refine ⟨z.assessment input, List.mem_append_right _ (List.mem_singleton_self _), z.riskNow,
      rfl, rfl, ⟨⟨c, ds, .ok b⟩, ?_, ⟨b, rfl⟩, hassessed⟩,
      (hz.ordered ho).2.1.trans (hz.ordered ho).2.2, ?_⟩
    · exact Sys.mem_ended_snoc.2 (Or.inr rfl)
    · refine (velocity_mem_iff _).trans ?_
      change HIGH_VELOCITY_THRESHOLD ≤ z.recent ↔ _
      rw [hz.recent]
      exact Iff.rfl
  · rw [htransfers, List.concat_eq_append, ← List.cons_append, ← List.append_assoc] at hx
    obtain ⟨hx, -⟩ := List.append_inj' hx rfl
    obtain ⟨a, ha, now, hold⟩ := h.each before x after hx
    exact ⟨a, List.mem_append_left _ ha, now, hold.snoc _⟩

theorem all_assessed (h₀ : Start db₀) (hrisks : db₀.riskAssessments = [])
    (h : Sys.Reach (body cfg) Open (Service.initial db₀ clock) s) : AllAssessed s.log s.db := by
  have htimely := (initial_timely db₀ clock).reach h
  refine returned_induction
    (motive := fun log v => (∀ e ∈ log.filterMap Event.ended?, InOrder e.draws) →
      AllAssessed log v) h₀.good ?_
    (fun log v c ds b v' hg hj hr ho => ?_) (fun log v r v' _ hj hr ho => ?_)
    (fun log v c ds e _ hj ho => ?_) (fun log v c hj ho => ?_) (open_inv h₀.good h).explained
    htimely.ended
  · refine fun _ => ⟨by rw [hrisks, h₀.transfers]; rfl, fun before x after hx => ?_⟩
    rw [h₀.transfers] at hx
    exact absurd hx.symm (List.append_ne_nil_of_right_ne_nil _ (List.cons_ne_nil _ _))
  all_goals
    have hold := hj (fun e he => ho e (Sys.mem_ended_snoc.2 (Or.inl he)))
  · exact hold.returned (body_effect hg hr).2
      (ho ⟨c, ds, .ok b⟩ (Sys.mem_ended_snoc.2 (Or.inr rfl)))
  · obtain ⟨-, -, -, rfl⟩ := register_spec hr
    refine hold.congr ?_ ?_ _ <;> rfl
  · exact hold.congr rfl rfl _
  · exact hold.congr rfl rfl _

/-- The sender's transfers among `before` that were created in the ten minutes up to `now`. -/
def priorTransfers (before : List Transfer) (senderUserId : Uuid) (now : Time) : List Transfer :=
  before.filter fun t => Recent senderUserId now t ∧ t.createdAt ≤ now

/-- Every settled transfer has one assessment, made at a clock reading of the call that settled it.
The velocity reason stands in it as it should, for five prior transfers or more, except when
there are four and the transfer itself is the fifth that the rule counts. -/
theorem velocity_counts_itself (h₀ : Start db₀) (hrisks : db₀.riskAssessments = [])
    (h : Sys.Reach (body cfg) Open (Service.initial db₀ clock) s) {before after : List Transfer}
    {x : Transfer} (hx : s.db.transfers = before ++ x :: after) :
    ∃ a ∈ s.db.riskAssessments, a.transferId = x.id ∧
      (∀ a' ∈ s.db.riskAssessments, a'.transferId = x.id → a' = a) ∧
      ∃ e ∈ s.ended, (∃ b, e.outcome = .ok b) ∧
        ∃ now, AssessedAt e.draws ⟨x.createdAt, x.id⟩ now ∧
        ((velocityReason ∈ a.reasons ↔
            HIGH_VELOCITY_THRESHOLD ≤ (priorTransfers before x.senderUserId now).length) ↔
          ¬ ((priorTransfers before x.senderUserId now).length + 1 = HIGH_VELOCITY_THRESHOLD ∧
            now - HIGH_VELOCITY_WINDOW_MINUTES * 60000 ≤ x.createdAt)) := by
  have hall := all_assessed h₀ hrisks h
  obtain ⟨a, ha, now, hassessed⟩ := hall.each before x after hx
  obtain ⟨e, he, hok, hreading⟩ := hassessed.reading
  have hids : (s.db.riskAssessments.map RiskAssessment.transferId).Nodup :=
    hall.aligned ▸ (recorded h₀ h).transferIds
  refine ⟨a, ha, hassessed.transferId, fun a' ha' hid => ?_, e, he, hok, now, hreading, ?_⟩
  · exact eq_of_nodup_key hids ha' ha (hid.trans hassessed.transferId.symm)
  -- What was settled before was created no later than the transfer, so before its assessment.
  have hturn := (created_in_turn h₀ h).committed
  rw [hx, List.map_append, List.map_cons, List.pairwise_append] at hturn
  have hprior : priorTransfers before x.senderUserId now =
      before.filter (Recent x.senderUserId now) := by
    refine List.filter_congr fun t ht => ?_
    rw [decide_eq_decide, and_iff_left_iff_imp]
    rintro ⟨hsender, -⟩
    exact (hturn.2.2 _ (List.mem_map_of_mem ht) _ List.mem_cons_self hsender).trans hassessed.later
  have hself : Recent x.senderUserId now x ↔
      now - HIGH_VELOCITY_WINDOW_MINUTES * 60000 ≤ x.createdAt :=
    ⟨fun h => h.2.2, fun h => ⟨rfl, hassessed.settled, h⟩⟩
  rw [hassessed.counted, hprior, List.filter_append, List.length_append, List.filter_singleton,
    ← hself]
  by_cases hrecent : Recent x.senderUserId now x
  · rw [decide_eq_true hrecent]
    simp only [cond_true, List.length_singleton, hrecent, and_true]
    omega
  · rw [decide_eq_false hrecent]
    simp only [cond_false, List.length_nil, hrecent, and_false, not_false_eq_true, iff_true]
    exact Iff.rfl

theorem velocity_counts_itself_crossing : ∃ (s : Service) (x y : Transfer),
    s.db.transfers = [x, y] ∧ ∃ a ∈ s.db.riskAssessments, a.transferId = y.id ∧
      ∃ now, (velocityReason ∈ a.reasons ↔
        HIGH_VELOCITY_THRESHOLD ≤ (priorTransfers [x] y.senderUserId now).length) := by
  have hrun : ((Service.initial sampleDb 50).run (body sampleConfig) crossing).any
      (fun s => s.db.transfers.length = 2) := by
    decide +kernel
  obtain ⟨s, hs, hlen⟩ := of_run hrun
  obtain ⟨x, y, hxy⟩ := List.length_eq_two.1 (of_decide_eq_true hlen)
  have hsplit : s.db.transfers = [x] ++ y :: [] := hxy
  obtain ⟨a, ha, hid, -, -, -, -, now, -, hiff⟩ :=
    velocity_counts_itself sampleDb_start rfl (open_of_run hs) hsplit
  refine ⟨s, x, y, hxy, a, ha, hid, now, hiff.2 ?_⟩
  rintro ⟨hfour, -⟩
  have hle : (priorTransfers [x] y.senderUserId now).length ≤ [x].length :=
    List.length_filter_le _ _
  rw [List.length_singleton] at hle
  change _ + 1 = 5 at hfour
  omega

def repeated : List Event := (List.range 5).flatMap fun i =>
  .start (.createDirectTransfer ⟨1, (2 : Uuid).text, 10, .BDT, none, List.replicate (i + 1) 107⟩) ::
    steps i (if i = 4 then 23 else 22) (100 * (i + 1)) ++ [.finish i]

/-- The fifth has the reason, with four before it. -/
theorem velocity_reason_of_four : ∃ (s : Service) (before : List Transfer) (x : Transfer),
    (Service.initial sampleDb 50).run (body sampleConfig) repeated = some s ∧
    s.db.transfers = before ++ [x] ∧ before.length = 4 ∧
    ∃ a ∈ s.db.riskAssessments, a.transferId = x.id ∧ velocityReason ∈ a.reasons := by
  have hrun : ((Service.initial sampleDb 50).run (body sampleConfig) repeated).any
      (fun s => s.db.transfers.length = 5 ∧ s.db.transfers.getLast?.any (fun x =>
        s.db.riskAssessments.any fun a => a.transferId = x.id ∧
          a.reasons.contains velocityReason)) := by
    decide +kernel
  obtain ⟨s, hs, hend⟩ := of_run hrun
  obtain ⟨hlen, hlast⟩ := of_decide_eq_true hend
  obtain ⟨x, hx, hany⟩ := (Option.any_eq_true _ _).1 hlast
  obtain ⟨a, ha, hreason⟩ := List.any_eq_true.1 hany
  obtain ⟨hid, hreason⟩ := of_decide_eq_true hreason
  obtain ⟨before, hbefore⟩ := List.getLast?_eq_some_iff.1 hx
  refine ⟨s, before, x, hs, hbefore, ?_, a, ha, hid, List.contains_iff_mem.1 hreason⟩
  rw [hbefore, List.length_append, List.length_singleton] at hlen
  omega

end Rule

end MoneyMovement
