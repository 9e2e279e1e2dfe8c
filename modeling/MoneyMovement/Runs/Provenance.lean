import MoneyMovement.Runs.Ledger
import MoneyMovement.Runs.Records

/-!
# Where the rows come from

The schemas check the body of every call and registration. Each transfer and request was
made at a clock reading of a logged call, with an amount that one of them asked for,
between two registered users; and the balance of a wallet is its seed, what its owner
received and less what they sent.
-/

namespace MoneyMovement

open Txn TransferService

variable {cfg : Config} {db₀ v v' : Db} {clock : Time} {s : Service} {ds : List (Draw Time Uuid)}
  {c : Command} {a : Response} {log : Log}

section Schemas

namespace RequestSchema

def MAX_AMOUNT_MINOR : ℤ := 1000000000000

/-- `z.number().int().positive().max(MAX_AMOUNT_MINOR)`. -/
def AmountMinor (amountMinor : ℤ) : Prop := 0 < amountMinor ∧ amountMinor ≤ MAX_AMOUNT_MINOR

instance : DecidablePred AmountMinor := fun _ => inferInstanceAs (Decidable (_ ∧ _))

theorem AmountMinor.natAbs_lt {amountMinor : ℤ} (h : AmountMinor amountMinor) :
    amountMinor.natAbs < 2 ^ 53 := by
  obtain ⟨hpos, hmax⟩ := h
  simp only [MAX_AMOUNT_MINOR] at hmax
  omega

/-- `.refine((value) => value.length > 0)`. -/
def DisplayName (displayName : JsString) : Prop := 0 < displayName.length

instance : DecidablePred DisplayName := fun _ => inferInstanceAs (Decidable (_ < _))

end RequestSchema

def Command.amountMinor? : Command → Option ℤ
  | .createDirectTransfer c => some c.amountMinor
  | .create c => some c.amountMinor
  | _ => none

def Command.Valid (c : Command) : Prop := ∀ a ∈ c.amountMinor?, RequestSchema.AmountMinor a

def Registration.Valid (r : Registration) : Prop := RequestSchema.DisplayName r.displayName

/-- What starts, and who registers, has passed its schema. -/
def Validated (_ : Service) : Event → Prop
  | .start c => c.Valid
  | .external r => r.Valid
  | _ => True

instance (c : Command) : Decidable c.Valid := Option.decidableForallMem c.amountMinor?

instance (r : Registration) : Decidable r.Valid :=
  inferInstanceAs (Decidable (RequestSchema.DisplayName _))

instance (s : Service) : ∀ l, Decidable (Validated s l)
  | .start c => inferInstanceAs (Decidable c.Valid)
  | .external r => inferInstanceAs (Decidable r.Valid)
  | .tick _ | .step _ _ | .finish _ | .kill _ => inferInstanceAs (Decidable True)

theorem open_of_validated (h : Sys.Reach (body cfg) Validated (Service.initial db₀ clock) s) :
    Sys.Reach (body cfg) Open (Service.initial db₀ clock) s :=
  h.mono _ fun _ _ _ => trivial

theorem admitted (h : Sys.Reach (body cfg) Validated (Service.initial db₀ clock) s) :
    s.Admitted Command.Valid Registration.Valid :=
  Sys.Admitted.reach (fun _ _ hc => hc) (fun _ _ hr => hr)
    ⟨fun i t ht => by simp [Service.initial, Sys.tx] at ht, fun e he => (List.not_mem_nil he).elim,
      fun x hx => (List.not_mem_nil hx).elim⟩ h

theorem spanned (h : Sys.Reach (body cfg) Open (Service.initial db₀ clock) s) :
    s.Spanned clock :=
  Sys.Spanned.reach ⟨le_rfl, fun i t ht => by simp [Service.initial, Sys.tx] at ht,
    fun e he => (List.not_mem_nil he).elim⟩ h

end Schemas

section Rows

/-- A row made at a clock reading of a call that has ended, with the amount of one. -/
structure MadeBy (log : Log) (createdAt : Time) (amountMinor : ℤ) : Prop where
  read : ∃ e ∈ log.filterMap Event.ended?, ∃ d ∈ e.draws, d.now = createdAt
  asked : ∃ e ∈ log.filterMap Event.ended?, e.call.amountMinor? = some amountMinor

structure Made (log : Log) (v : Db) : Prop where
  transfers : ∀ t ∈ v.transfers, MadeBy log t.createdAt t.amountMinor
  moneyRequests : ∀ r ∈ v.moneyRequests, MadeBy log r.createdAt r.amountMinor

theorem MadeBy.mono {createdAt : Time} {amountMinor : ℤ} (h : MadeBy log createdAt amountMinor)
    (e : Txn.Event store Command Response) : MadeBy (log ++ [e]) createdAt amountMinor := by
  obtain ⟨⟨e₁, he₁, hd⟩, e₂, he₂, ha⟩ := h
  exact ⟨⟨e₁, Sys.mem_ended_snoc.2 (Or.inl he₁), hd⟩, e₂, Sys.mem_ended_snoc.2 (Or.inl he₂), ha⟩

theorem Made.mono (h : Made log v) (e : Txn.Event store Command Response)
    (ht : v'.transfers = v.transfers) (hr : v'.moneyRequests = v.moneyRequests) :
    Made (log ++ [e]) v' :=
  ⟨fun t hm => (h.transfers t (ht ▸ hm)).mono e, fun r hm => (h.moneyRequests r (hr ▸ hm)).mono e⟩

theorem Made.effect (h : Made log v) (he : Effect cfg v ds c a v') :
    Made (log ++ [.ended ⟨c, ds, .ok a⟩]) v' := by
  have hlast : (⟨c, ds, .ok a⟩ : Ended store Command Response) ∈
      (log ++ [Txn.Event.ended ⟨c, ds, .ok a⟩]).filterMap Event.ended? :=
    Sys.mem_ended_snoc.2 (Or.inr rfl)
  have hread {d : Draw Time Uuid} (hd : d ∈ ds) :
      ∃ e ∈ (log ++ [Txn.Event.ended ⟨c, ds, .ok a⟩]).filterMap Event.ended?,
        ∃ d' ∈ e.draws, d'.now = d.now := ⟨_, hlast, d, hd, rfl⟩
  have hasked {n : ℤ} (hn : c.amountMinor? = some n) :
      ∃ e ∈ (log ++ [Txn.Event.ended ⟨c, ds, .ok a⟩]).filterMap Event.ended?,
        e.call.amountMinor? = some n := ⟨_, hlast, hn⟩
  have kept (r : MoneyRequest) (hr : r ∈ v.moneyRequests) :
      MadeBy (log ++ [.ended ⟨c, ds, .ok a⟩]) r.createdAt r.amountMinor :=
    (h.moneyRequests r hr).mono _
  -- An update keeps when a request was made and for how much.
  have update {f : MoneyRequest → MoneyRequest} (hat : ∀ r, (f r).createdAt = r.createdAt)
      (hamount : ∀ r, (f r).amountMinor = r.amountMinor) :
      ∀ r ∈ v.moneyRequests.map f, MadeBy (log ++ [.ended ⟨c, ds, .ok a⟩]) r.createdAt
        r.amountMinor := by
    intro r hr
    obtain ⟨r₀, hr₀, rfl⟩ := List.mem_map.1 hr
    rw [hat, hamount]
    exact kept r₀ hr₀
  cases he with
  | replay => exact h.mono _ rfl rfl
  | act x recordId hclaim hdoes =>
    cases hdoes with
    | transfer c z hz =>
      refine ⟨fun t ht => ?_, kept⟩
      rcases List.mem_append.1 ht with ht | ht
      · exact (h.transfers t ht).mono _
      · rw [List.mem_singleton.1 ht]
        exact ⟨hread hz.drawn, hasked rfl⟩
    | create c payer user inserted event now _ _ _ _ _ _ _ _ hdrawn =>
      refine ⟨fun t ht => (h.transfers t ht).mono _, fun r hr => ?_⟩
      rcases List.mem_append.1 hr with hr | hr
      · exact kept r hr
      · rw [List.mem_singleton.1 hr]
        exact ⟨hread hdrawn, hasked rfl⟩
    | accept c r z resolvedAt event now hr hdeadline hz =>
      refine ⟨fun t ht => ?_, update (fun r' => ?_) fun r' => ?_⟩
      · rcases List.mem_append.1 ht with ht | ht
        · exact (h.transfers t ht).mono _
        · rw [List.mem_singleton.1 ht]
          exact ⟨hread hz.drawn, (kept r (mem_of_request? hr.found)).asked⟩
      · unfold MoneyRequest.accept
        split <;> rfl
      · unfold MoneyRequest.accept
        split <;> rfl
    | decline c r resolvedAt event now hr =>
      refine ⟨fun t ht => (h.transfers t ht).mono _, update (fun r' => ?_) fun r' => ?_⟩
      all_goals
        unfold MoneyRequest.resolve
        split <;> rfl
    | cancel c r resolvedAt event now hr =>
      refine ⟨fun t ht => (h.transfers t ht).mono _, update (fun r' => ?_) fun r' => ?_⟩
      all_goals
        unfold MoneyRequest.resolve
        split <;> rfl

theorem made (h₀ : Start db₀)
    (h : Sys.Reach (body cfg) Open (Service.initial db₀ clock) s) : Made s.log s.db := by
  refine explained_induction (motive := Made) h₀.good ?_
    (fun log v c ds a v' _ hj he => hj.effect he) (fun log v r v' _ hj hr => ?_)
    (fun log v c ds e _ hj => hj.mono _ rfl rfl) (fun log v c hj => hj.mono _ rfl rfl)
    (open_inv h₀.good h).explained
  · exact ⟨by simp [h₀.transfers], by simp [h₀.moneyRequests]⟩
  · obtain ⟨-, -, -, rfl⟩ := register_spec hr
    exact hj.mono _ rfl rfl

theorem Made.valid {Q : Registration → Prop} (hm : Made s.log s.db)
    (ha : s.Admitted Command.Valid Q) :
    (∀ t ∈ s.db.transfers, RequestSchema.AmountMinor t.amountMinor) ∧
      ∀ r ∈ s.db.moneyRequests, RequestSchema.AmountMinor r.amountMinor := by
  have valid {createdAt : Time} {amountMinor : ℤ} (h : MadeBy s.log createdAt amountMinor) :
      RequestSchema.AmountMinor amountMinor := by
    obtain ⟨e, he, hasked⟩ := h.asked
    exact ha.ended e he amountMinor hasked
  exact ⟨fun t ht => valid (hm.transfers t ht), fun r hr => valid (hm.moneyRequests r hr)⟩

/-- The amounts in the tables have passed the schemas. -/
theorem amounts_valid (h₀ : Start db₀)
    (h : Sys.Reach (body cfg) Validated (Service.initial db₀ clock) s) :
    (∀ t ∈ s.db.transfers, RequestSchema.AmountMinor t.amountMinor) ∧
      ∀ r ∈ s.db.moneyRequests, RequestSchema.AmountMinor r.amountMinor :=
  (made h₀ (open_of_validated h)).valid (admitted h)

/-- The rows were created between the start and now. -/
theorem created_since (h₀ : Start db₀)
    (h : Sys.Reach (body cfg) Open (Service.initial db₀ clock) s) :
    (∀ t ∈ s.db.transfers, clock ≤ t.createdAt ∧ t.createdAt ≤ s.clock) ∧
      ∀ r ∈ s.db.moneyRequests, clock ≤ r.createdAt ∧ r.createdAt ≤ s.clock := by
  have hmade := made h₀ h
  have between {createdAt : Time} {amountMinor : ℤ} (hm : MadeBy s.log createdAt amountMinor) :
      clock ≤ createdAt ∧ createdAt ≤ s.clock := by
    obtain ⟨e, he, d, hd, rfl⟩ := hm.read
    exact (spanned h).ended e he d hd
  exact ⟨fun t ht => between (hmade.transfers t ht), fun r hr => between (hmade.moneyRequests r hr)⟩

end Rows

section Parties

structure Parties (users : List User) (a b : Uuid) : Prop where
  distinct : a ≠ b
  first : ∃ u ∈ users, u.id = a
  second : ∃ u ∈ users, u.id = b

/-- The rows are between registered users, and a wallet belongs to each side of a transfer. -/
structure Peopled (v : Db) : Prop where
  transfers : ∀ t ∈ v.transfers, Parties v.users t.senderUserId t.receiverUserId
  moneyRequests : ∀ r ∈ v.moneyRequests, Parties v.users r.requesterUserId r.payerUserId
  wallets : ∀ t ∈ v.transfers, ∀ u, u = t.senderUserId ∨ u = t.receiverUserId →
    ∃ w ∈ v.wallets, w.userId = u

theorem Parties.mono {users users' : List User} {a b : Uuid} (h : Parties users a b)
    (hu : users ⊆ users') : Parties users' a b := by
  obtain ⟨hne, ⟨u, hm, hid⟩, w, hw, hwid⟩ := h
  exact ⟨hne, ⟨u, hu hm, hid⟩, w, hu hw, hwid⟩

theorem exists_of_user? {u : Uuid} {x : User} (h : v.user? u = some x) :
    ∃ x ∈ v.users, x.id = u :=
  ⟨x, find?_spec h⟩

/-- A wallet is probed together with its owner. -/
theorem exists_of_probe {u : Uuid} {w : LockedWallet} (h : v.probe u = some w) :
    (∃ x ∈ v.users, x.id = u) ∧ ∃ x ∈ v.wallets, x.userId = u := by
  obtain ⟨r, o, hr, ho, -⟩ := probe_some h
  exact ⟨exists_of_user? ho, r, walletOf?_spec hr⟩

theorem Peopled.settle {input : SettleInput} {source : TransferSource} {z : Settlement}
    (h : Peopled v) (hz : Settles cfg input source v ds z) :
    Peopled (z.apply input source v) := by
  have hwallet {u : Uuid} (hw : ∃ w ∈ v.wallets, w.userId = u) :
      ∃ w ∈ (z.apply input source v).wallets, w.userId = u := by
    obtain ⟨w, hw, hu⟩ := hw
    exact ⟨_, List.mem_map_of_mem (List.mem_map_of_mem hw), by simpa using hu⟩
  have hsender := exists_of_probe hz.sender
  have hreceiver := exists_of_probe hz.receiver
  refine ⟨fun t ht => ?_, h.moneyRequests, fun t ht u hu => ?_⟩
  · rcases List.mem_append.1 ht with ht | ht
    · exact h.transfers t ht
    · rw [List.mem_singleton.1 ht]
      exact ⟨hz.distinct, hsender.1, hreceiver.1⟩
  · rcases List.mem_append.1 ht with ht | ht
    · exact hwallet (h.wallets t ht u hu)
    · rw [List.mem_singleton.1 ht] at hu
      rcases hu with rfl | rfl
      · exact hwallet hsender.2
      · exact hwallet hreceiver.2

theorem Peopled.effect (h : Peopled v) (he : Effect cfg v ds c a v') : Peopled v' := by
  -- An update keeps who takes part.
  have update {f : MoneyRequest → MoneyRequest} (hrequester : ∀ r,
      (f r).requesterUserId = r.requesterUserId) (hpayer : ∀ r, (f r).payerUserId = r.payerUserId) :
      ∀ r ∈ v.moneyRequests.map f, Parties v.users r.requesterUserId r.payerUserId := by
    intro r hr
    obtain ⟨r₀, hr₀, rfl⟩ := List.mem_map.1 hr
    rw [hrequester, hpayer]
    exact h.moneyRequests r₀ hr₀
  cases he with
  | replay => exact h
  | act x recordId hclaim hdoes =>
    cases hdoes with
    | transfer c z hz =>
      have hs := h.settle hz
      exact ⟨hs.transfers, hs.moneyRequests, hs.wallets⟩
    | create c payer user inserted event now _ _ _ huser _ _ hne =>
      refine ⟨h.transfers, fun r hr => ?_, h.wallets⟩
      rcases List.mem_append.1 hr with hr | hr
      · exact h.moneyRequests r hr
      · rw [List.mem_singleton.1 hr]
        obtain ⟨actor, hactor⟩ := Option.isSome_iff_exists.1 hclaim.actor
        exact ⟨hne, exists_of_user? hactor, exists_of_user? huser⟩
    | accept c r z resolvedAt event now hr hdeadline hz =>
      have hs := h.settle hz
      refine ⟨hs.transfers, update (fun r' => ?_) fun r' => ?_, hs.wallets⟩
      all_goals
        unfold MoneyRequest.accept
        split <;> rfl
    | decline c r resolvedAt event now hr =>
      refine ⟨h.transfers, update (fun r' => ?_) fun r' => ?_, h.wallets⟩
      all_goals
        unfold MoneyRequest.resolve
        split <;> rfl
    | cancel c r resolvedAt event now hr =>
      refine ⟨h.transfers, update (fun r' => ?_) fun r' => ?_, h.wallets⟩
      all_goals
        unfold MoneyRequest.resolve
        split <;> rfl

theorem Peopled.register {r : Registration} (h : Peopled v) (hr : register r v = some v') :
    Peopled v' := by
  obtain ⟨-, -, -, rfl⟩ := register_spec hr
  refine ⟨fun t ht => (h.transfers t ht).mono (List.subset_append_left _ _),
    fun q hq => (h.moneyRequests q hq).mono (List.subset_append_left _ _), fun t ht u hu => ?_⟩
  obtain ⟨w, hw, hwu⟩ := h.wallets t ht u hu
  exact ⟨w, List.mem_append_left _ hw, hwu⟩

theorem peopled (h₀ : Start db₀)
    (h : Sys.Reach (body cfg) Open (Service.initial db₀ clock) s) : Peopled s.db :=
  reachable_tables h₀.good
    ⟨by simp [h₀.transfers], by simp [h₀.moneyRequests], by simp [h₀.transfers]⟩
    (fun _ _ _ _ _ _ hj he => hj.effect he) (fun _ _ _ _ hj hr => hj.register hr) h

def Joined (db₀ : Db) (log : Log) (u : User) : Prop :=
  u ∈ db₀.users ∨ ∃ r, Txn.Event.external r ∈ log ∧ u.displayName = r.displayName

theorem Joined.mono {u : User} (h : Joined db₀ log u) (e : Txn.Event store Command Response) :
    Joined db₀ (log ++ [e]) u := by
  rcases h with hu | ⟨r, hr, hn⟩
  · exact Or.inl hu
  · exact Or.inr ⟨r, List.mem_append_left _ hr, hn⟩

theorem users_joined (h₀ : Start db₀)
    (h : Sys.Reach (body cfg) Open (Service.initial db₀ clock) s) :
    ∀ u ∈ s.db.users, Joined db₀ s.log u := by
  refine explained_induction (motive := fun log v => ∀ u ∈ v.users, Joined db₀ log u) h₀.good
    (fun u hu => Or.inl hu) (fun log v c ds a v' _ hj he u hu => ?_)
    (fun log v r v' _ hj hr u hu => ?_) (fun log v c ds e _ hj u hu => (hj u hu).mono _)
    (fun log v c hj u hu => (hj u hu).mono _) (open_inv h₀.good h).explained
  · rw [he.users] at hu
    exact (hj u hu).mono _
  · obtain ⟨-, -, -, rfl⟩ := register_spec hr
    rcases List.mem_append.1 hu with hu | hu
    · exact (hj u hu).mono _
    · rw [List.mem_singleton.1 hu]
      exact Or.inr ⟨r, List.mem_append_right _ (List.mem_singleton_self _), rfl⟩

/-- Users have the names they registered with. -/
theorem users_named (h₀ : Start db₀)
    (hnamed : ∀ u ∈ db₀.users, RequestSchema.DisplayName u.displayName)
    (h : Sys.Reach (body cfg) Validated (Service.initial db₀ clock) s) :
    ∀ u ∈ s.db.users, RequestSchema.DisplayName u.displayName := by
  intro u hu
  rcases users_joined h₀ (open_of_validated h) u hu with hu | ⟨r, hr, hn⟩
  · exact hnamed u hu
  · rw [hn]
    exact (admitted h).external r hr

end Parties

section Balances

def Transfer.signedFor (userId : Uuid) (t : Transfer) : ℤ :=
  if t.senderUserId = userId then -t.amountMinor
  else if t.receiverUserId = userId then t.amountMinor else 0

/-- Every balance is the seed and what the transfers of the owner come to. -/
def Flows (seeds : List (Uuid × ℤ)) (v : Db) : Prop :=
  ∀ w ∈ v.wallets, ∃ seed, (w.id, seed) ∈ seeds ∧
    w.balanceMinor = seed + (v.transfers.map (Transfer.signedFor w.userId)).sum

theorem Flows.settle {seeds : List (Uuid × ℤ)} {input : SettleInput} {source : TransferSource}
    {z : Settlement} (h : Flows seeds v) (hg : Good [] v)
    (hz : Settles cfg input source v ds z) : Flows seeds (z.apply input source v) := by
  obtain ⟨s, hs, r, hr, hsid, hsu, -, hrid, hru, -, hne⟩ := hz.parties hg.walletIds
  intro w' hw'
  obtain ⟨w₁, hw₁, rfl⟩ := List.mem_map.1 hw'
  obtain ⟨w, hw, rfl⟩ := List.mem_map.1 hw₁
  obtain ⟨seed, hseed, hb⟩ := h w hw
  -- A user has one wallet.
  have same {x : Wallet} (hx : x ∈ v.wallets) : x.userId = w.userId ↔ x.id = w.id :=
    ⟨fun he => congrArg Wallet.id (eq_of_nodup_key hg.owners hx hw he),
      fun he => congrArg Wallet.userId (eq_of_nodup_key hg.walletIds hx hw he)⟩
  have hsum : ((z.apply input source v).transfers.map (Transfer.signedFor w.userId)).sum =
      (v.transfers.map (Transfer.signedFor w.userId)).sum +
        if s.id = w.id then -input.amountMinor
        else if r.id = w.id then input.amountMinor else 0 := by
    simp only [Settlement.apply, List.map_append, List.sum_append, List.map_cons, List.map_nil,
      List.sum_singleton, Transfer.signedFor, Settlement.transfer, pendingTransfer, transferData,
      ← hsu, ← hru, same hs, same hr]
  refine ⟨seed, by simpa using hseed, ?_⟩
  simp only [addBalance_userId, hsum]
  by_cases hws : s.id = w.id
  · have hwr : ¬ w.id = z.receiver.id := by
      rw [← hws, hsid]
      exact hne
    rw [if_pos hws, addBalance_of_ne (by simpa using hwr), Wallet.addBalance,
      if_pos (hws.symm.trans hsid)]
    simp only [hb]
    ring
  · have hnot : ¬ w.id = z.sender.id := fun he => hws (hsid.trans he.symm)
    rw [if_neg hws, addBalance_of_ne hnot]
    by_cases hwr : r.id = w.id
    · rw [if_pos hwr, Wallet.addBalance, if_pos (hwr.symm.trans hrid)]
      simp only [hb]
      ring
    · rw [if_neg hwr, addBalance_of_ne fun he => hwr (hrid.trans he.symm), add_zero, hb]

theorem Flows.effect {seeds : List (Uuid × ℤ)} (h : Flows seeds v) (hg : Good [] v)
    (he : Effect cfg v ds c a v') : Flows seeds v' := by
  rcases he.money with ⟨hw, ht, -⟩ | ⟨input, source, z, hz, hw, ht, -⟩
  · rw [Flows, hw, ht]
    exact h
  · rw [Flows, hw, ht]
    exact h.settle hg hz

theorem Flows.register {seeds : List (Uuid × ℤ)} {r : Registration} (h : Flows seeds v)
    (hp : Peopled v) (hr : register r v = some v') :
    Flows (seeds ++ [(r.walletId, (r.initialWalletBalanceMinor : ℤ))]) v' := by
  obtain ⟨-, -, howner, rfl⟩ := register_spec hr
  intro w hw
  rcases List.mem_append.1 hw with hw | hw
  · obtain ⟨seed, hseed, hb⟩ := h w hw
    exact ⟨seed, List.mem_append_left _ hseed, hb⟩
  · rw [List.mem_singleton.1 hw]
    refine ⟨r.initialWalletBalanceMinor, by simp, ?_⟩
    -- No transfer names a user who had no wallet.
    have hnone : ∀ t ∈ v.transfers, Transfer.signedFor r.userId t = 0 := by
      intro t ht
      have hother {u : Uuid} (hu : u = t.senderUserId ∨ u = t.receiverUserId) : u ≠ r.userId := by
        obtain ⟨w, hw, rfl⟩ := hp.wallets t ht u hu
        exact howner w hw
      rw [Transfer.signedFor, if_neg (hother (Or.inl rfl)), if_neg (hother (Or.inr rfl))]
    rw [List.map_congr_left hnone]
    simp

theorem flows (h₀ : Start db₀)
    (h : Sys.Reach (body cfg) Open (Service.initial db₀ clock) s) :
    Flows (seeds db₀ s.log) s.db := by
  have both := explained_induction
    (motive := fun log v => Peopled v ∧ Flows (seeds db₀ log) v) h₀.good ?_
    (fun log v c ds a v' hg hj he => ?_) (fun log v r v' _ hj hr => ?_)
    (fun log v c ds e _ hj => ?_) (fun log v c hj => ?_) (open_inv h₀.good h).explained
  · exact both.2
  · refine ⟨⟨by simp [h₀.transfers], by simp [h₀.moneyRequests], by simp [h₀.transfers]⟩,
      fun w hw => ⟨w.balanceMinor, by simpa [seeds] using ⟨w, hw, rfl, rfl⟩, ?_⟩⟩
    simp [h₀.transfers]
  · rw [seeds_snoc, List.append_nil]
    exact ⟨hj.1.effect he, hj.2.effect hg he⟩
  · rw [seeds_snoc]
    exact ⟨hj.1.register hr, hj.2.register hj.1 hr⟩
  · rw [seeds_snoc, List.append_nil]
    exact hj
  · rw [seeds_snoc, List.append_nil]
    exact hj

end Balances

end MoneyMovement
