import MoneyMovement.Locking.Operations
import MoneyMovement.Txn.Deadlock

/-!
# Interleavings of the five operations

Any number of calls, started at any time, take their statements in any order. In
a closed run nobody registers, and a call names only requests that have been
committed when it starts; in an open run registrations happen at any time.
-/

namespace MoneyMovement

open Txn

abbrev Service := Sys store Command Response

abbrev Event := Label Command Time Uuid Registration

def Service.initial (db : Db) (clock : Time) : Service := ⟨db, clock, [], []⟩

def Closed (s : Service) : Event → Prop
  | .start c => ∀ id u, c.requestId? = some id → parseUuid id = some u →
      ∃ r ∈ s.db.moneyRequests, r.id = u
  | .external _ => False
  | _ => True

def Open (_ : Service) (_ : Event) : Prop := True

variable {cfg : Config} {db₀ : Db} {clock : Time} {s : Service}

theorem closed_inv (h₀ : Good [] db₀)
    (h : Sys.Reach (body cfg) Closed (Service.initial db₀ clock) s) :
    (protocol True).Inv (body cfg) db₀ s := by
  refine Protocol.Inv.reach
    (fun db c hg (ha : Admits True db c) => disciplined_body cfg db c hg ha) (Protocol.Inv.init h₀)
    (h.mono _ (fun s l hl => ?_))
  cases l with
  | start c => exact fun _ => hl
  | external x => exact hl.elim
  | _ => trivial

theorem open_inv (h₀ : Good [] db₀)
    (h : Sys.Reach (body cfg) Open (Service.initial db₀ clock) s) :
    (protocol False).Inv (body cfg) db₀ s := by
  refine Protocol.Inv.reach
    (fun db c hg (ha : Admits False db c) => disciplined_body cfg db c hg ha) (Protocol.Inv.init h₀)
    (h.mono _ (fun s l _ => ?_))
  cases l with
  | start c => exact fun hc => hc.elim
  | external x => exact id
  | _ => trivial

section Sample

def sampleConfig : Config where
  initialWalletBalanceMinor := 1000
  dailyTransferLimitMinor := 5000
  weeklyTransferLimitMinor := 9000
  monthlyTransferLimitMinor := 20000
  sha256 := id
  daily_pos := by decide
  weekly_pos := by decide
  monthly_pos := by decide

def sampleUser (id : Uuid) (name : String) : User where
  id := id
  email := js name
  displayName := js name
  status := .ACTIVE
  createdAt := 0
  verificationStatus := .VERIFIED

def sampleDb : Db where
  users := [sampleUser 1 "alice", sampleUser 2 "bob"]
  wallets := [⟨11, 1, .BDT, 1000, .ACTIVE⟩, ⟨12, 2, .BDT, 1000, .ACTIVE⟩]
  transfers := []
  ledgerEntries := []
  moneyRequests := []
  idempotencyRecords := []
  outboxEvents := []
  auditEvents := []
  riskAssessments := []

theorem sampleDb_good : Good [] sampleDb :=
  ⟨by decide, by decide, by decide, fun _ hr => (List.not_mem_nil hr).elim⟩

def sampleTransfer (sender receiver : Uuid) (amountMinor : ℤ) : Command :=
  .createDirectTransfer ⟨sender, receiver.text, amountMinor, .BDT, none, js "k"⟩

def steps (i n id : ℕ) : List Event := (List.range n).map fun k => .step i (Fin.ofNat _ (id + k))

def crossing : List Event :=
  [.start (sampleTransfer 1 2 300), .start (sampleTransfer 2 1 200)] ++ steps 0 3 100 ++
    steps 1 3 200 ++ steps 0 19 103 ++ [.finish 0] ++ steps 1 19 203 ++ [.finish 1]

def contending : List Event :=
  [.start (sampleTransfer 1 2 300), .start (sampleTransfer 2 1 200)] ++ steps 0 4 100 ++
    steps 1 3 200

def sampleRequest : Command := .create ⟨1, (2 : Uuid).text, 300, .BDT, none, some 100, js "k"⟩

/-- A request for 300 until 100; its id is 103. -/
def requested : List Event := .start sampleRequest :: steps 0 8 100 ++ [.finish 0]

def sampleAccept : Command := .accept ⟨2, (103 : Uuid).text, js "k"⟩

def sampleDecline : Command := .decline ⟨2, (103 : Uuid).text, js "k"⟩

def accepted : List Event := requested ++ .start sampleAccept :: steps 1 29 200 ++ [.finish 1]

def direct : Event → Bool
  | .start c => c.requestId?.isNone
  | .external _ => false
  | _ => true

theorem closed_of_direct {l : Event} (hl : direct l) : Closed s l := by
  cases l with
  | start c => exact fun id u hid => by simp [direct, hid] at hl
  | external x => cases hl
  | _ => trivial

/-- What a run that has been evaluated reaches. -/
theorem of_run {s₀ : Service} {ls : List Event} {p : Service → Bool}
    (h : (s₀.run (body sampleConfig) ls).any p) :
    ∃ s, s₀.run (body sampleConfig) ls = some s ∧ p s :=
  (Option.any_eq_true _ _).1 h

theorem open_of_run {s₀ s : Service} {ls : List Event}
    (h : s₀.run (body sampleConfig) ls = some s) : Sys.Reach (body sampleConfig) Open s₀ s :=
  Sys.reach_of_run _ h (fun _ _ _ => trivial)

end Sample

/-- Money movement is serializable: what the ended calls returned, and all that is
committed, is what they return and leave when they run one at a time, in the order
in which their transactions ended, with the same clock readings and ids. -/
theorem money_movement_serializable (h₀ : Good [] db₀)
    (h : Sys.Reach (body cfg) Closed (Service.initial db₀ clock) s) :
    store.serial (body cfg) db₀ (s.ended.map fun e => (e.call, e.draws)) =
      some (s.ended.map (·.outcome), s.db) :=
  (closed_inv h₀ h).explained.serial (fun _ hl => hl.1 trivial) (fun _ hx => hx trivial)

theorem money_movement_serializable_crossing : ∃ s : Service, s.ended.length = 2 ∧
    store.serial (body sampleConfig) sampleDb (s.ended.map fun e => (e.call, e.draws)) =
      some (s.ended.map (·.outcome), s.db) := by
  have hrun : ((Service.initial sampleDb 50).run (body sampleConfig) crossing).any
      (fun s => s.ended.length = 2) := by
    decide +kernel
  obtain ⟨s, hs, hended⟩ := of_run hrun
  have hdirect : ∀ l ∈ crossing, direct l := by decide +kernel
  exact ⟨s, of_decide_eq_true hended, money_movement_serializable sampleDb_good
    (Sys.reach_of_run _ hs (fun _ l hl => closed_of_direct (hdirect l hl)))⟩

/-- No transaction ever waits, through others, for itself. -/
theorem no_deadlock (h₀ : Good [] db₀)
    (h : Sys.Reach (body cfg) Open (Service.initial db₀ clock) s) (i : ℕ) :
    ¬ Relation.TransGen s.WaitsFor i i :=
  (open_inv h₀ h).no_wait_cycle i

/-- While one of two crossing transfers waits for a wallet of the other. -/
theorem no_deadlock_crossing : ∃ s : Service,
    (Service.initial sampleDb 50).run (body sampleConfig) contending = some s ∧
    (s.step? (body sampleConfig) (.step 1 203)).isNone ∧ ¬ Relation.TransGen s.WaitsFor 0 0 := by
  have hrun : ((Service.initial sampleDb 50).run (body sampleConfig) contending).any
      (fun s => (s.step? (body sampleConfig) (.step 1 203)).isNone) := by
    decide +kernel
  obtain ⟨s, hs, hwaits⟩ := of_run hrun
  exact ⟨s, hs, hwaits,
    no_deadlock sampleDb_good (open_of_run hs) 0⟩

end MoneyMovement
