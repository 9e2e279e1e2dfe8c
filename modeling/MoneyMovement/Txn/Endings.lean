import MoneyMovement.Txn.Deadlock
import Mathlib.Data.Fintype.EquivFin
import Mathlib.Order.WellFounded
import Mathlib.Tactic

/-!
# Calls come to their end

A program that issues at most `n` statements ends after as many steps. While transactions are
open one of them can always go on, as the locks allow no cycle of waiting; so without new calls
every schedule is finite, and it can only come to a halt when all calls have ended.
-/

namespace Txn

variable {Stmt : Type} {Reply : Stmt → Type} {Db Write Err Time Id Obj Ext : Type}
variable {E : Engine Reply Db Write Err Time Id Obj Ext} {Call α β : Type}

section Programs

def Prog.Within : Prog Reply Err α → ℕ → Prop
  | .ret _, _ => True
  | .fail _, _ => True
  | .op _ next, n => ∃ m, n = m + 1 ∧ ∀ r, (next r).Within m

theorem Prog.Within.mono {p : Prog Reply Err α} {m n : ℕ} (h : p.Within m) (hle : m ≤ n) :
    p.Within n := by
  induction p generalizing m n with
  | ret a => trivial
  | fail e => trivial
  | op s next ih =>
    obtain ⟨k, rfl, hnext⟩ := h
    obtain ⟨n, rfl⟩ := Nat.exists_eq_add_one.2 (Nat.zero_lt_of_lt hle)
    exact ⟨n, rfl, fun r => ih r (hnext r) (Nat.le_of_succ_le_succ hle)⟩

theorem Prog.Within.bind {p : Prog Reply Err α} {f : α → Prog Reply Err β} {m : ℕ} (n : ℕ)
    (hp : p.Within m) (hf : ∀ a, (f a).Within n) : (p >>= f).Within (m + n) := by
  induction p generalizing m with
  | ret a => exact (hf a).mono (Nat.le_add_left n m)
  | fail e => trivial
  | op s next ih =>
    obtain ⟨k, rfl, hnext⟩ := hp
    exact ⟨k + n, Nat.add_right_comm k 1 n, fun r => ih r (hnext r)⟩

theorem Prog.within_ret (a : α) (n : ℕ) : (Prog.ret a : Prog Reply Err α).Within n := trivial

theorem Prog.within_op {s : Stmt} {next : Reply s → Prog Reply Err α} {n : ℕ}
    (h : ∀ r, (next r).Within n) : (Prog.op s next).Within (n + 1) := ⟨n, rfl, h⟩

end Programs

section Labels

def Label.starts : Label Call Time Id Ext → Bool
  | .start _ => true
  | _ => false

def Label.drives : Label Call Time Id Ext → Bool
  | .step _ _ => true
  | .finish _ => true
  | _ => false

end Labels

namespace Sys

/-- What is left of a transaction of at most `n` statements, its end included. -/
def left (n : ℕ) : Option (Tx E Call α) → ℕ
  | some t => n + 1 - t.draws.length
  | none => 0

def work (n : ℕ) (s : Sys E Call α) : ℕ := (s.txs.map (left n)).sum

def opened (s : Sys E Call α) : ℕ := (s.txs.filter Option.isSome).length

def Bounded (n : ℕ) (s : Sys E Call α) : Prop :=
  ∀ i t, s.tx i = some t → ∃ m, t.draws.length + m = n ∧ t.rest.Within m

variable {n : ℕ} {s s' : Sys E Call α}

theorem getElem?_of_tx {i : ℕ} {t : Tx E Call α} (h : s.tx i = some t) :
    s.txs[i]? = some (some t) := Option.join_eq_some_iff.1 h

theorem sum_set {l : List ℕ} {i x : ℕ} (y : ℕ) (h : l[i]? = some x) :
    (l.set i y).sum + x = l.sum + y := by
  induction l generalizing i with
  | nil => cases h
  | cons a l ih =>
    cases i with
    | zero =>
      cases h
      simp only [List.set_cons_zero, List.sum_cons]
      omega
    | succ i =>
      have := ih h
      simp only [List.set_cons_succ, List.sum_cons]
      omega

/-- What replacing a transaction does to the work. -/
theorem work_set {i : ℕ} {t : Tx E Call α} (h : s.tx i = some t) (o : Option (Tx E Call α)) :
    ((s.txs.set i o).map (left n)).sum + left n (some t) = s.work n + left n o := by
  rw [List.map_set]
  refine sum_set _ ?_
  rw [List.getElem?_map, getElem?_of_tx h, Option.map_some]

theorem work_le (n : ℕ) (s : Sys E Call α) : s.work n ≤ (n + 1) * s.opened := by
  have hle (l : List (Option (Tx E Call α))) :
      (l.map (left n)).sum ≤ (n + 1) * (l.filter Option.isSome).length := by
    induction l with
    | nil => exact Nat.zero_le _
    | cons o l ih =>
      cases o with
      | none => simpa [left] using ih
      | some t =>
        have := Nat.sub_le (n + 1) t.draws.length
        simp only [List.map_cons, List.sum_cons, left, List.filter_cons_of_pos, Option.isSome_some,
          List.length_cons, Nat.mul_succ]
        omega
  exact hle s.txs

section Step

variable [DecidableEq Obj] [LinearOrder Time] {body : Call → Prog Reply Err α}

theorem Bounded.step {l : Label Call Time Id Ext} (h : s.Bounded n)
    (hbody : ∀ c, (body c).Within n) (hs : s.step? body l = some s') : s'.Bounded n := by
  cases step?_did body hs with
  | tick t hle => exact h
  | start c =>
    intro i t ht
    rcases tx_of_start ht with ⟨-, rfl⟩ | ht
    · exact ⟨n, Nat.zero_add n, hbody c⟩
    · exact h i t ht
  | step i id u st k hu hr hf =>
    intro j t ht
    by_cases hj : j = i
    · subst hj
      rw [tx_put_self hu, Option.some.injEq] at ht
      subst ht
      obtain ⟨m, hm, hwithin⟩ := h j u hu
      rw [hr] at hwithin
      obtain ⟨m, rfl, hnext⟩ := hwithin
      refine ⟨m, ?_, ?_⟩
      · simp only [Tx.after, List.length_append, List.length_singleton]
        omega
      · cases hx : E.exec st (E.view s.db u.writes) ⟨s.clock, id⟩ with
        | error e =>
          simp only [Tx.after, E.next_error hx]
          trivial
        | ok out =>
          simp only [Tx.after, E.next_ok hx]
          exact hnext out.1
    · rw [tx_put_ne hj] at ht
      exact h j t ht
  | commit i u a hu hr => exact fun j t ht => h j t (tx_of_close ht).2
  | rollback i u e hu hr => exact fun j t ht => h j t (tx_of_close ht).2
  | kill i u hu => exact fun j t ht => h j t (tx_of_close ht).2
  | external x db' hx => exact h

theorem Bounded.reach {ok : Sys E Call α → Label Call Time Id Ext → Prop} {s₀ : Sys E Call α}
    (hbody : ∀ c, (body c).Within n) (h₀ : s₀.Bounded n) (h : Sys.Reach body ok s₀ s) :
    s.Bounded n := by
  induction h with
  | refl => exact h₀
  | tail l _ _ hs ih => exact ih.step hbody hs

/-- Only new calls bring work, and what takes a transaction on lowers it. -/
theorem work_step {l : Label Call Time Id Ext} (h : s.Bounded n) (hl : l.starts = false)
    (hs : s.step? body l = some s') :
    s'.work n + (if l.drives then 1 else 0) ≤ s.work n := by
  have hclosed {i : ℕ} {t : Tx E Call α} {db : Db} {e : Event E Call α} (ht : s.tx i = some t) :
      (s.close i db e).work n + 1 ≤ s.work n := by
    obtain ⟨m, hm, -⟩ := h i t ht
    have hset := work_set (n := n) ht none
    simp only [left, Nat.add_zero] at hset
    simp only [work, close] at hset ⊢
    omega
  cases step?_did body hs with
  | tick t hle => exact le_rfl
  | start c => cases hl
  | step i id u st k hu hr hf =>
    obtain ⟨m, hm, hwithin⟩ := h i u hu
    rw [hr] at hwithin
    obtain ⟨m, rfl, -⟩ := hwithin
    have hset := work_set (n := n) hu (some (u.after s.db ⟨s.clock, id⟩ st k))
    have hlength : (u.after s.db ⟨s.clock, id⟩ st k).draws.length = u.draws.length + 1 := by
      simp only [Tx.after, List.length_append, List.length_singleton]
    simp only [left, hlength] at hset
    simp only [work, put, Label.drives, if_true] at hset ⊢
    omega
  | commit i u a hu hr => exact hclosed hu
  | rollback i u e hu hr => exact hclosed hu
  | kill i u hu => exact (Nat.le_succ _).trans (hclosed hu)
  | external x db' hx => exact le_rfl

/-- Without new calls a schedule takes transactions on no more often than there is work. -/
theorem work_run {ls : List (Label Call Time Id Ext)} (hbody : ∀ c, (body c).Within n)
    (h : s.Bounded n) (hls : ∀ l ∈ ls, l.starts = false) (hrun : s.run body ls = some s') :
    s'.work n + (ls.filter Label.drives).length ≤ s.work n := by
  induction ls generalizing s with
  | nil =>
    cases hrun
    exact le_rfl
  | cons l ls ih =>
    obtain ⟨s₁, hs, hrest⟩ := Option.bind_eq_some_iff.1 hrun
    have hstep := work_step h (hls l List.mem_cons_self) hs
    have hih := ih (h.step hbody hs) (fun l' hl' => hls l' (List.mem_cons_of_mem _ hl')) hrest
    rw [List.filter_cons]
    split_ifs at hstep ⊢ with hd
    · rw [List.length_cons]
      omega
    · omega

end Step

end Sys

namespace Protocol

variable {P : Protocol E} {body : Call → Prog Reply Err α} {db₀ : Db} {s : Sys E Call α} {n : ℕ}

/-- Of the open transactions, one waits for none. -/
theorem Inv.exists_unblocked (h : P.Inv body db₀ s) {i : ℕ} {t : Tx E Call α}
    (ht : s.tx i = some t) : ∃ j u, s.tx j = some u ∧ ∀ k, ¬ s.WaitsFor j k := by
  have htrans : IsTrans (Fin s.txs.length) fun a b => Relation.TransGen s.WaitsFor b a :=
    ⟨fun a b c hab hbc => hbc.trans hab⟩
  have hirrefl : Std.Irrefl fun a b : Fin s.txs.length => Relation.TransGen s.WaitsFor b a :=
    ⟨fun a => h.no_wait_cycle a⟩
  have hwf := Finite.wellFounded_of_trans_of_irrefl
    fun a b : Fin s.txs.length => Relation.TransGen s.WaitsFor b a
  obtain ⟨m, ⟨u, hu⟩, hmin⟩ := hwf.has_min {a | ∃ u, s.tx a = some u} ⟨⟨i, Sys.lt_of_tx ht⟩, t, ht⟩
  refine ⟨m, u, hu, fun k hk => ?_⟩
  obtain ⟨-, o, -, ho⟩ := id hk
  cases hv : s.tx k with
  | none =>
    simp only [Sys.held, hv] at ho
    cases ho
  | some v => exact hmin ⟨k, Sys.lt_of_tx hv⟩ ⟨v, hv⟩ (.single hk)

variable [DecidableEq Obj] [LinearOrder Time]

/-- While a transaction is open, one can be taken on, whatever its statement draws. -/
theorem Inv.progress (h : P.Inv body db₀ s) {i : ℕ} {t : Tx E Call α} (ht : s.tx i = some t) :
    ∃ j, (s.tx j).isSome ∧ ((s.step? body (.finish j)).isSome ∨
      ∀ id, (s.step? body (.step j id)).isSome) := by
  obtain ⟨j, u, hu, hfree⟩ := h.exists_unblocked ht
  refine ⟨j, by rw [hu]; rfl, ?_⟩
  cases hr : u.rest with
  | ret a =>
    left
    simp only [Sys.step?, Sys.finish?, hu, hr, Option.isSome_some]
  | fail e =>
    left
    simp only [Sys.step?, Sys.finish?, hu, hr, Option.isSome_some]
  | op st k =>
    refine Or.inr fun id => ?_
    have hf : s.Free j (E.wants st (E.view s.db u.writes) ⟨s.clock, id⟩) :=
      fun k' _ hne o ho hheld => hfree k' ⟨hne, o, ⟨u, st, k, id, hu, hr, ho⟩, hheld⟩
    simp only [Sys.step?, Sys.issue?, hu, hr, if_pos hf, Option.isSome_some]

/-- All that is open can be brought to its end, with nothing killed. -/
theorem Inv.drains [Inhabited Id] (h : P.Inv body db₀ s) (hbody : ∀ c, (body c).Within n)
    (hb : s.Bounded n) :
    ∃ s', Sys.Reach body (fun _ l => l.drives = true) s s' ∧ ∀ i, s'.tx i = none := by
  induction hw : s.work n using Nat.strong_induction_on generalizing s with
  | h w ih =>
    by_cases hopen : ∃ i t, s.tx i = some t
    · obtain ⟨i, t, ht⟩ := hopen
      have hgo {l : Label Call Time Id Ext} (hl : l.drives = true) (hstart : l.starts = false)
          (hok : P.Ok (fun _ _ => False) s l) (hs : (s.step? body l).isSome) :
          ∃ s', Sys.Reach body (fun _ l => l.drives = true) s s' ∧ ∀ i, s'.tx i = none := by
        obtain ⟨s₁, hs₁⟩ := Option.isSome_iff_exists.1 hs
        have hlt := Sys.work_step hb hstart hs₁
        rw [if_pos hl] at hlt
        obtain ⟨s', hreach, hnone⟩ := ih _ (by omega) (h.step (fun _ _ _ hc => hc.elim) hok hs₁)
          (hb.step hbody hs₁) rfl
        exact ⟨s', .head body hl hs₁ hreach, hnone⟩
      obtain ⟨j, -, hfinish | hstep⟩ := h.progress ht
      · exact hgo (l := .finish j) rfl rfl trivial hfinish
      · exact hgo (l := .step j default) rfl rfl trivial (hstep default)
    · refine ⟨s, .refl, fun i => ?_⟩
      cases ht : s.tx i with
      | none => rfl
      | some t => exact (hopen ⟨i, t, ht⟩).elim

end Protocol

end Txn
