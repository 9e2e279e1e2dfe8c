import Mathlib.Data.List.Basic

/-!
# Runs of a step function

The states a step function reaches from a start by steps of a kind, and the
induction that carries an invariant along.
-/

namespace Txn

variable {S L : Type} (step? : S → L → Option S)

def runs (s : S) : List L → Option S
  | [] => some s
  | l :: ls => (step? s l).bind (fun s' => runs s' ls)

inductive Reaches (ok : S → L → Prop) (s₀ : S) : S → Prop
  | refl : Reaches ok s₀ s₀
  | tail {s s' : S} (l : L) : Reaches ok s₀ s → ok s l → step? s l = some s' → Reaches ok s₀ s'

variable {step?} {ok ok' : S → L → Prop} {s₀ s₁ s : S}

theorem Reaches.mono (h : Reaches step? ok s₀ s) (hok : ∀ s l, ok s l → ok' s l) :
    Reaches step? ok' s₀ s := by
  induction h with
  | refl => exact .refl
  | tail l _ ho hs ih => exact ih.tail l (hok _ l ho) hs

theorem Reaches.head {l : L} (ho : ok s₀ l) (hs : step? s₀ l = some s₁)
    (h : Reaches step? ok s₁ s) : Reaches step? ok s₀ s := by
  induction h with
  | refl => exact .tail l .refl ho hs
  | tail l' _ ho' hs' ih => exact ih.tail l' ho' hs'

theorem Reaches.trans (h₀ : Reaches step? ok s₀ s₁) (h : Reaches step? ok s₁ s) :
    Reaches step? ok s₀ s := by
  induction h with
  | refl => exact h₀
  | tail l _ ho hs ih => exact ih.tail l ho hs

theorem reaches_of_runs {ls : List L} (h : runs step? s₀ ls = some s)
    (hok : ∀ s, ∀ l ∈ ls, ok s l) : Reaches step? ok s₀ s := by
  induction ls generalizing s₀ with
  | nil =>
    cases h
    exact .refl
  | cons l ls ih =>
    obtain ⟨s₁, hs, hrest⟩ := Option.bind_eq_some_iff.1 h
    exact .head (hok s₀ l List.mem_cons_self) hs
      (ih hrest (fun s l' hl => hok s l' (List.mem_cons_of_mem _ hl)))

/-- The steps of a kind that can be decided. -/
def permitted (step? : S → L → Option S) (ok : S → L → Prop) [∀ s l, Decidable (ok s l)] (s : S)
    (l : L) : Option S :=
  if ok s l then step? s l else none

theorem reaches_of_permitted [∀ s l, Decidable (ok s l)] {ls : List L}
    (h : runs (permitted step? ok) s₀ ls = some s) : Reaches step? ok s₀ s := by
  induction ls generalizing s₀ with
  | nil =>
    cases h
    exact .refl
  | cons l ls ih =>
    obtain ⟨s₁, hs, hrest⟩ := Option.bind_eq_some_iff.1 h
    unfold permitted at hs
    split_ifs at hs with hok
    exact .head hok hs (ih hrest)

end Txn
