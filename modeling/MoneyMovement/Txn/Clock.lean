import MoneyMovement.Txn.System

/-!
# The order of clock readings

The clock never goes back, so the readings of a transaction are ordered and none
lies in the future.
-/

namespace Txn

variable {Stmt : Type} {Reply : Stmt → Type} {Db Write Err Time Id Obj Ext : Type}
variable {E : Engine Reply Db Write Err Time Id Obj Ext} {Call α : Type} [LinearOrder Time]

def InOrder (ds : List (Draw Time Id)) : Prop := ds.Pairwise (fun d d' => d.now ≤ d'.now)

theorem InOrder.snoc {ds : List (Draw Time Id)} {d : Draw Time Id} (h : InOrder ds)
    (hd : ∀ d' ∈ ds, d'.now ≤ d.now) : InOrder (ds ++ [d]) :=
  List.pairwise_append.2 ⟨h, List.pairwise_singleton _ _, fun d' hd' e he => by
    rw [List.mem_singleton.1 he]
    exact hd d' hd'⟩

namespace Sys

structure Timely (s : Sys E Call α) : Prop where
  «open» : ∀ i t, s.tx i = some t → InOrder t.draws ∧ ∀ d ∈ t.draws, d.now ≤ s.clock
  ended : ∀ e ∈ s.ended, InOrder e.draws

theorem Timely.close {s : Sys E Call α} (h : s.Timely) {i : ℕ} {db : Db} {e : Event E Call α}
    (he : ∀ e' ∈ e.ended?, InOrder e'.draws) : (s.close i db e).Timely where
  «open» j t ht := h.open j t (tx_of_close ht).2
  ended e' hm := (mem_ended_snoc.1 hm).elim (h.ended e') (he e')

/-- The clock has been read between `first` and now. -/
structure Spanned (first : Time) (s : Sys E Call α) : Prop where
  clock : first ≤ s.clock
  «open» : ∀ i t, s.tx i = some t → ∀ d ∈ t.draws, first ≤ d.now ∧ d.now ≤ s.clock
  ended : ∀ e ∈ s.ended, ∀ d ∈ e.draws, first ≤ d.now ∧ d.now ≤ s.clock

theorem Spanned.close {first : Time} {s : Sys E Call α} (h : s.Spanned first) {i : ℕ} {db : Db}
    {e : Event E Call α} (he : ∀ e' ∈ e.ended?, ∀ d ∈ e'.draws, first ≤ d.now ∧ d.now ≤ s.clock) :
    (s.close i db e).Spanned first where
  clock := h.clock
  «open» j t ht := h.open j t (tx_of_close ht).2
  ended e' hm := (mem_ended_snoc.1 hm).elim (h.ended e') (he e')

variable [DecidableEq Obj] {body : Call → Prog Reply Err α}

theorem Timely.step {s s' : Sys E Call α} {l : Label Call Time Id Ext} (h : s.Timely)
    (hs : s.step? body l = some s') : s'.Timely := by
  cases step?_did body hs with
  | tick t hle =>
    exact ⟨fun j u hu => ⟨(h.open j u hu).1, fun d hd => ((h.open j u hu).2 d hd).trans hle⟩,
      h.ended⟩
  | start c =>
    refine ⟨fun j u hu => ?_, h.ended⟩
    rcases tx_of_start hu with ⟨-, rfl⟩ | hu
    · exact ⟨List.Pairwise.nil, fun d hd => by cases hd⟩
    · exact h.open j u hu
  | step i id t st k ht hr hf =>
    refine ⟨fun j u hu => ?_, h.ended⟩
    by_cases hj : j = i
    · subst hj
      rw [tx_put_self ht, Option.some.injEq] at hu
      subst hu
      obtain ⟨ho, hb⟩ := h.open j t ht
      refine ⟨ho.snoc hb, fun d hd => ?_⟩
      rcases List.mem_append.1 hd with hd | hd
      · exact hb d hd
      · rw [List.mem_singleton.1 hd]
        exact le_rfl
    · rw [tx_put_ne hj] at hu
      exact h.open j u hu
  | commit i t a ht hr =>
    exact h.close (fun e' he' => by cases he'; exact (h.open i t ht).1)
  | rollback i t e ht hr =>
    exact h.close (fun e' he' => by cases he'; exact (h.open i t ht).1)
  | kill i t ht => exact h.close (fun e' he' => by cases he')
  | external x db' hx =>
    refine ⟨h.open, fun e he => h.ended e ?_⟩
    simpa [Sys.ended, ended_snoc, Event.ended?] using he

theorem Timely.reach {ok : Sys E Call α → Label Call Time Id Ext → Prop} {s₀ s : Sys E Call α}
    (h₀ : s₀.Timely) (h : Reach body ok s₀ s) : s.Timely := by
  induction h with
  | refl => exact h₀
  | tail l _ _ hs ih => exact ih.step hs

theorem Spanned.step {first : Time} {s s' : Sys E Call α} {l : Label Call Time Id Ext}
    (h : s.Spanned first) (hs : s.step? body l = some s') : s'.Spanned first := by
  cases step?_did body hs with
  | tick t hle =>
    have later {d : Draw Time Id} (hd : first ≤ d.now ∧ d.now ≤ s.clock) :
        first ≤ d.now ∧ d.now ≤ t := ⟨hd.1, hd.2.trans hle⟩
    exact ⟨h.clock.trans hle, fun j u hu d hd => later (h.open j u hu d hd),
      fun e he d hd => later (h.ended e he d hd)⟩
  | start c =>
    refine ⟨h.clock, fun j u hu d hd => ?_, h.ended⟩
    rcases tx_of_start hu with ⟨-, rfl⟩ | hu
    · cases hd
    · exact h.open j u hu d hd
  | step i id t st k ht hr hf =>
    refine ⟨h.clock, fun j u hu d hd => ?_, h.ended⟩
    by_cases hj : j = i
    · subst hj
      rw [tx_put_self ht, Option.some.injEq] at hu
      subst hu
      rcases List.mem_append.1 hd with hd | hd
      · exact h.open j t ht d hd
      · rw [List.mem_singleton.1 hd]
        exact ⟨h.clock, le_rfl⟩
    · rw [tx_put_ne hj] at hu
      exact h.open j u hu d hd
  | commit i t a ht hr =>
    exact h.close (fun e' he' => by cases he'; exact h.open i t ht)
  | rollback i t e ht hr =>
    exact h.close (fun e' he' => by cases he'; exact h.open i t ht)
  | kill i t ht => exact h.close (fun e' he' => by cases he')
  | external x db' hx =>
    refine ⟨h.clock, h.open, fun e he => h.ended e ?_⟩
    simpa [Sys.ended, ended_snoc, Event.ended?] using he

theorem Spanned.reach {ok : Sys E Call α → Label Call Time Id Ext → Prop} {first : Time}
    {s₀ s : Sys E Call α} (h₀ : s₀.Spanned first) (h : Reach body ok s₀ s) : s.Spanned first := by
  induction h with
  | refl => exact h₀
  | tail l _ _ hs ih => exact ih.step hs

theorem clock_mono {ok : Sys E Call α → Label Call Time Id Ext → Prop} {s₀ s : Sys E Call α}
    (h : Reach body ok s₀ s) : s₀.clock ≤ s.clock := by
  induction h with
  | refl => exact le_rfl
  | tail l _ _ hs ih =>
    refine ih.trans ?_
    cases step?_did body hs with
    | tick t hle => exact hle
    | _ => exact le_rfl

end Sys
end Txn
