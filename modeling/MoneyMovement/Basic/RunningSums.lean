import Mathlib.Algebra.BigOperators.Group.List.Basic
import Mathlib.Data.List.Basic

/-!
# Running balances

An account is a starting balance and a list of entries, each with its amount and
the balance it records. `Follows` says that every recorded balance is the running
sum, and where the account ends.
-/

namespace RunningSums

variable {ε M : Type} [AddMonoid M] (amount after : ε → M)

/-- From the balance `b`, the entries record the running sums and end at `c`. -/
def Follows : M → List ε → M → Prop
  | b, [], c => c = b
  | b, e :: es, c => after e = b + amount e ∧ Follows (after e) es c

variable {amount after} {b c : M} {es : List ε} {e : ε}

theorem Follows.snoc (h : Follows amount after b es c) (he : after e = c + amount e) :
    Follows amount after b (es ++ [e]) (after e) := by
  induction es generalizing b with
  | nil =>
    obtain rfl : c = b := h
    exact ⟨he, rfl⟩
  | cons e' es ih => exact ⟨h.1, ih h.2⟩

theorem Follows.total (h : Follows amount after b es c) : c = b + (es.map amount).sum := by
  induction es generalizing b with
  | nil =>
    obtain rfl : c = b := h
    simp
  | cons e' es ih =>
    rw [ih h.2, h.1, List.map_cons, List.sum_cons, add_assoc]

theorem Follows.scanl (h : Follows amount after b es c) :
    (es.map amount).scanl (· + ·) b = b :: es.map after := by
  induction es generalizing b with
  | nil => rfl
  | cons e' es ih => rw [List.map_cons, List.map_cons, List.scanl_cons, ← h.1, ih h.2]

theorem Follows.getLast? (h : Follows amount after b es c) (he : es.getLast? = some e) :
    after e = c := by
  induction es generalizing b with
  | nil => cases he
  | cons e' es ih =>
    cases es with
    | nil =>
      cases he
      exact h.2.symm
    | cons e'' es => exact ih h.2 he

end RunningSums
