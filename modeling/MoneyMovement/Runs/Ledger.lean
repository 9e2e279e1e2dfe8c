import MoneyMovement.Runs.Commits
import MoneyMovement.Basic.RunningSums

/-!
# The ledger and the balances

Every wallet is an account that starts at its seed and whose ledger entries record
the running balance; settlements move money from one account to another.
-/

namespace MoneyMovement

open Txn RunningSums TransferService

variable {cfg : Config} {db₀ db : Db} {clock : Time} {s : Service}

def seeds (db₀ : Db) (log : Log) : List (Uuid × ℤ) :=
  db₀.wallets.map (fun w => (w.id, w.balanceMinor)) ++
    log.filterMap fun
      | .external r => some (r.walletId, (r.initialWalletBalanceMinor : ℤ))
      | _ => none

/-- The ledger entries of a wallet, in commit order. -/
def Db.entries (db : Db) (walletId : Uuid) : List LedgerEntry :=
  rows LedgerEntry.walletId walletId db.ledgerEntries

/-- The ledger agrees with the wallets, given what they were seeded with. -/
structure Reconciled (seeds : List (Uuid × ℤ)) (db : Db) : Prop where
  ids : db.wallets.map Wallet.id = seeds.map Prod.fst
  accounts : ∀ w ∈ db.wallets, ∃ seed, (w.id, seed) ∈ seeds ∧
    Follows LedgerEntry.signedAmountMinor LedgerEntry.balanceAfterMinor seed (db.entries w.id)
      w.balanceMinor
  owned : ∀ e ∈ db.ledgerEntries, ∃ w ∈ db.wallets, w.id = e.walletId
  recorded : ∀ e ∈ db.ledgerEntries, 0 ≤ e.balanceAfterMinor
  total : (db.wallets.map Wallet.balanceMinor).sum = (seeds.map Prod.snd).sum

section Settlements

variable {wallets : List Wallet}

/-- A balance delta on one wallet changes the total by as much. -/
theorem sum_addBalance {id : Uuid} {delta : ℤ} (hids : (wallets.map Wallet.id).Nodup)
    (h : ∃ w ∈ wallets, w.id = id) :
    ((wallets.map (Wallet.addBalance id delta)).map Wallet.balanceMinor).sum =
      (wallets.map Wallet.balanceMinor).sum + delta := by
  induction wallets with
  | nil =>
    obtain ⟨w, hw, -⟩ := h
    cases hw
  | cons w rest ih =>
    rw [List.map_cons, List.nodup_cons] at hids
    simp only [List.map_cons, List.sum_cons]
    by_cases hid : w.id = id
    · have hrest : rest.map (Wallet.addBalance id delta) = rest := by
        refine (List.map_congr_left (fun w' hw' => addBalance_of_ne ?_)).trans (List.map_id _)
        exact fun heq => hids.1 (List.mem_map.2 ⟨w', hw', heq.trans hid.symm⟩)
      rw [hrest, Wallet.addBalance, if_pos hid]
      dsimp only
      ring
    · obtain ⟨w', hw', hid'⟩ := h
      have hmem : w' ∈ rest := (List.mem_cons.1 hw').resolve_left (fun heq => hid (heq ▸ hid'))
      rw [ih hids.2 ⟨w', hmem, hid'⟩, addBalance_of_ne hid, add_assoc]

variable {v : Db} {ds : List (Draw Time Uuid)} {input : SettleInput} {source : TransferSource}
  {z : Settlement} {seeds : List (Uuid × ℤ)}

theorem entries_settle (id : Uuid) : (z.apply input source v).entries id = v.entries id ++
    ((if z.sender.id = id then [debitEntry input z.inserted.id z.sender] else []) ++
      if z.receiver.id = id then [creditEntry input z.inserted.id z.receiver] else []) := by
  simp only [Db.entries, Settlement.apply, rows_append]
  congr 1
  simp only [rows, List.filter_cons, List.filter_nil, debitEntry, creditEntry, decide_eq_true_eq]
  split_ifs <;> rfl

/-- One account across a settlement. -/
theorem Settles.follows (hg : Good [] v) (hz : Settles cfg input source v ds z) {w : Wallet}
    (hw : w ∈ v.wallets) {seed : ℤ}
    (h : Follows LedgerEntry.signedAmountMinor LedgerEntry.balanceAfterMinor seed (v.entries w.id)
      w.balanceMinor) :
    Follows LedgerEntry.signedAmountMinor LedgerEntry.balanceAfterMinor seed
      ((z.apply input source v).entries w.id)
      ((w.addBalance z.sender.id (-input.amountMinor)).addBalance z.receiver.id
        input.amountMinor).balanceMinor := by
  obtain ⟨s, hs, r, hr, hsid, -, hsb, hrid, -, hrb, hne⟩ := hz.parties hg.walletIds
  rw [entries_settle]
  by_cases hws : z.sender.id = w.id
  · obtain rfl : s = w := eq_of_nodup_key hg.walletIds hs hw (hsid.trans hws)
    have hwr : ¬ z.receiver.id = s.id := fun heq => hne (hws.trans heq.symm)
    rw [if_pos hws, if_neg hwr, List.append_nil, addBalance_of_ne (by simpa using Ne.symm hwr),
      Wallet.addBalance, if_pos hws.symm]
    have hd : (debitEntry input z.inserted.id z.sender).balanceAfterMinor =
        s.balanceMinor + (debitEntry input z.inserted.id z.sender).signedAmountMinor := by
      simp only [debitEntry, hsb]
      ring
    exact hd ▸ h.snoc hd
  · rw [if_neg hws, List.nil_append, addBalance_of_ne (Ne.symm hws)]
    by_cases hwr : z.receiver.id = w.id
    · obtain rfl : r = w := eq_of_nodup_key hg.walletIds hr hw (hrid.trans hwr)
      rw [if_pos hwr, Wallet.addBalance, if_pos hwr.symm]
      have hc : (creditEntry input z.inserted.id z.receiver).balanceAfterMinor =
          r.balanceMinor + (creditEntry input z.inserted.id z.receiver).signedAmountMinor := by
        simp only [creditEntry, hrb]
      exact hc ▸ h.snoc hc
    · rw [if_neg hwr, List.append_nil, addBalance_of_ne (Ne.symm hwr)]
      exact h

theorem Reconciled.settle (hg : Good [] v) (h : Reconciled seeds v)
    (hz : Settles cfg input source v ds z) : Reconciled seeds (z.apply input source v) := by
  obtain ⟨s, hs, r, hr, hsid, -, hsb, hrid, -, hrb, hne⟩ := hz.parties hg.walletIds
  refine ⟨?_, ?_, ?_, ?_, ?_⟩
  · simpa [Settlement.apply, Function.comp_def] using h.ids
  · intro w' hw'
    obtain ⟨w₁, hw₁, rfl⟩ := List.mem_map.1 hw'
    obtain ⟨w, hw, rfl⟩ := List.mem_map.1 hw₁
    obtain ⟨seed, hseed, hf⟩ := h.accounts w hw
    refine ⟨seed, by simpa using hseed, ?_⟩
    simpa only [addBalance_id] using hz.follows hg hw hf
  · intro e he
    have hkept (w : Wallet) (hw : w ∈ v.wallets) :
        ∃ w' ∈ (z.apply input source v).wallets, w'.id = w.id :=
      ⟨_, List.mem_map_of_mem (List.mem_map_of_mem hw), by simp⟩
    simp only [Settlement.apply, List.mem_append, List.mem_cons, List.not_mem_nil, or_false] at he
    rcases he with he | rfl | rfl
    · obtain ⟨w, hw, hid⟩ := h.owned e he
      exact hid ▸ hkept w hw
    · obtain ⟨w, hw, hid⟩ := hkept s hs
      exact ⟨w, hw, hid.trans hsid⟩
    · obtain ⟨w, hw, hid⟩ := hkept r hr
      exact ⟨w, hw, hid.trans hrid⟩
  · intro e he
    simp only [Settlement.apply, List.mem_append, List.mem_cons, List.not_mem_nil, or_false] at he
    have hb := hg.balances r hr
    have ha := hz.amount
    rcases he with he | rfl | rfl
    · exact h.recorded e he
    · simp only [debitEntry]
      omega
    · simp only [creditEntry]
      omega
  · have hr' : ∃ w ∈ v.wallets.map (Wallet.addBalance z.sender.id (-input.amountMinor)),
        w.id = z.receiver.id := ⟨_, List.mem_map_of_mem hr, by simpa using hrid⟩
    have hids' : ((v.wallets.map (Wallet.addBalance z.sender.id (-input.amountMinor))).map
        Wallet.id).Nodup := by simpa [Function.comp_def] using hg.walletIds
    calc ((z.apply input source v).wallets.map Wallet.balanceMinor).sum
        = (v.wallets.map Wallet.balanceMinor).sum + -input.amountMinor + input.amountMinor := by
          rw [← sum_addBalance hg.walletIds ⟨s, hs, hsid⟩, ← sum_addBalance hids' hr']
          rfl
      _ = (seeds.map Prod.snd).sum := by rw [neg_add_cancel_right, h.total]

end Settlements

theorem Reconciled.effect {seeds : List (Uuid × ℤ)} {v v' : Db} {ds : List (Draw Time Uuid)}
    {c : Command} {a : Response} (hg : Good [] v) (h : Reconciled seeds v)
    (he : Effect cfg v ds c a v') : Reconciled seeds v' := by
  have congr {v₁ : Db} (h : Reconciled seeds v₁) (hw : v'.wallets = v₁.wallets)
      (hl : v'.ledgerEntries = v₁.ledgerEntries) : Reconciled seeds v' := by
    refine ⟨hw ▸ h.ids, fun w hm => ?_, fun e hm => ?_, fun e hm => h.recorded e (hl ▸ hm),
      hw ▸ h.total⟩
    · rw [Db.entries, hl]
      exact h.accounts w (hw ▸ hm)
    · rw [hw]
      exact h.owned e (hl ▸ hm)
  rcases he.money with ⟨hw, -, hl⟩ | ⟨input, source, z, hz, hw, -, hl⟩
  · exact congr h hw hl
  · exact congr (h.settle hg hz) hw hl

theorem Reconciled.register {seeds : List (Uuid × ℤ)} {v v' : Db} {r : Registration}
    (h : Reconciled seeds v) (hr : register r v = some v') :
    Reconciled (seeds ++ [(r.walletId, (r.initialWalletBalanceMinor : ℤ))]) v' := by
  obtain ⟨-, hid, -, rfl⟩ := register_spec hr
  refine ⟨by simp [h.ids], fun w hm => ?_, fun e hm => ?_, h.recorded, by simp [h.total]⟩
  · rcases List.mem_append.1 hm with hm | hm
    · obtain ⟨seed, hseed, hf⟩ := h.accounts w hm
      exact ⟨seed, List.mem_append_left _ hseed, hf⟩
    · rw [List.mem_singleton.1 hm]
      refine ⟨r.initialWalletBalanceMinor, by simp, ?_⟩
      -- Nothing can have been booked on a wallet that did not exist.
      have hnone : v.entries r.walletId = [] := by
        refine List.filter_eq_nil_iff.2 (fun e he => ?_)
        obtain ⟨w, hw, hwid⟩ := h.owned e he
        simpa [← hwid] using hid w hw
      exact (congrArg (Follows _ _ _ · _) hnone).mpr rfl
  · obtain ⟨w, hw, hwid⟩ := h.owned e hm
    exact ⟨w, List.mem_append_left _ hw, hwid⟩

theorem seeds_snoc (log : Log) (e : Txn.Event store Command Response) :
    seeds db₀ (log ++ [e]) = seeds db₀ log ++
      match e with
      | .external r => [(r.walletId, (r.initialWalletBalanceMinor : ℤ))]
      | _ => [] := by
  simp only [seeds, List.filterMap_append, List.append_assoc]
  cases e <;> rfl

theorem reconciled (h₀ : Start db₀)
    (h : Sys.Reach (body cfg) Open (Service.initial db₀ clock) s) :
    Reconciled (seeds db₀ s.log) s.db := by
  refine explained_induction (motive := fun log v => Reconciled (seeds db₀ log) v) h₀.good ?_
    (fun log v c ds a v' hg hj he => ?_) (fun log v r v' _ hj hr => ?_)
    (fun log v c ds e _ hj => ?_) (fun log v c hj => ?_) (open_inv h₀.good h).explained
  · refine ⟨by simp [seeds, Function.comp_def], fun w hw => ?_, ?_, ?_,
      by simp [seeds, Function.comp_def]⟩
    · refine ⟨w.balanceMinor, by simpa [seeds] using ⟨w, hw, rfl, rfl⟩, ?_⟩
      rw [Db.entries, h₀.ledgerEntries]
      exact rfl
    · simp [h₀.ledgerEntries]
    · simp [h₀.ledgerEntries]
  · rw [seeds_snoc, List.append_nil]
    exact hj.effect hg he
  · rw [seeds_snoc]
    exact hj.register hr
  · rw [seeds_snoc, List.append_nil]
    exact hj
  · rw [seeds_snoc, List.append_nil]
    exact hj

/-- Every balance is its seed plus the signed amounts of its ledger entries, each
entry records the running sum, nothing is ever negative, and the total is that of
the seeds; so the balance constraint never rejects an operation. -/
theorem ledger_reconciles (h₀ : Start db₀)
    (h : Sys.Reach (body cfg) Open (Service.initial db₀ clock) s) :
    (∀ w ∈ s.db.wallets, ∃ seed, (w.id, seed) ∈ seeds db₀ s.log ∧
      let amounts := (s.db.entries w.id).map LedgerEntry.signedAmountMinor
      w.balanceMinor = seed + amounts.sum ∧
      amounts.scanl (· + ·) seed = seed :: (s.db.entries w.id).map LedgerEntry.balanceAfterMinor ∧
      (∀ e, (s.db.entries w.id).getLast? = some e → e.balanceAfterMinor = w.balanceMinor) ∧
      0 ≤ w.balanceMinor) ∧
    (∀ e ∈ s.db.ledgerEntries, 0 ≤ e.balanceAfterMinor) ∧
    (seeds db₀ s.log).map Prod.fst = s.db.wallets.map Wallet.id ∧
    (s.db.wallets.map Wallet.id).Nodup ∧
    (s.db.wallets.map Wallet.balanceMinor).sum = ((seeds db₀ s.log).map Prod.snd).sum ∧
    (∀ i t, s.tx i = some t →
      t.rest ≠ .fail (.db (.checkViolation .wallets_balance_minor_check))) ∧
    ∀ e ∈ s.ended, e.outcome ≠ .error (.db (.checkViolation .wallets_balance_minor_check)) := by
  have hr := reconciled h₀ h
  have hi := open_inv h₀.good h
  refine ⟨fun w hw => ?_, hr.recorded, hr.ids.symm, hi.good.walletIds, hr.total,
    fun i t ht hf => open_fails hi ht hf (Or.inr rfl),
    fun e he hf => ended_fails h₀.good h he hf (Or.inr rfl)⟩
  obtain ⟨seed, hseed, hf⟩ := hr.accounts w hw
  exact ⟨seed, hseed, hf.total, hf.scanl, fun e he => hf.getLast? he, hi.good.balances w hw⟩

def sampleRegistration : Registration := ⟨3, 13, js "carol", js "carol", 50, 1000⟩

/-- The crossing transfers, and a registration while they run. -/
theorem ledger_reconciles_crossing : ∃ s : Service, s.db.ledgerEntries.length = 4 ∧
    s.db.wallets.length = 3 ∧
    (s.db.wallets.map Wallet.balanceMinor).sum = ((seeds sampleDb s.log).map Prod.snd).sum := by
  have hrun : ((Service.initial sampleDb 50).run (body sampleConfig)
      (.external sampleRegistration :: crossing)).any
        (fun s => s.db.ledgerEntries.length = 4 ∧ s.db.wallets.length = 3) := by
    decide +kernel
  obtain ⟨s, hs, hlen⟩ := of_run hrun
  obtain ⟨-, -, -, -, htotal, -⟩ := ledger_reconciles sampleDb_start (open_of_run hs)
  obtain ⟨hentries, hwallets⟩ := of_decide_eq_true hlen
  exact ⟨s, hentries, hwallets, htotal⟩

end MoneyMovement
