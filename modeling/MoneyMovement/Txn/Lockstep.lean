import Mathlib.Data.List.Basic

/-!
# Two runs side by side

Two systems take the same labels, one after the other. What relates their states is
carried along by one lemma about a step of each; and two conditions on the steps that
come to the same on related states come to the same for whole runs.
-/

namespace Txn

variable {S L : Type}

inductive Ran (Step : S → L → S → Prop) (s₀ : S) : List L → S → Prop
  | nil : Ran Step s₀ [] s₀
  | snoc {ls : List L} {s u : S} (l : L) (h : Ran Step s₀ ls s) (hs : Step s l u) :
      Ran Step s₀ (ls ++ [l]) u

/-- Two runs with the same labels. `P` is asked of each pair of steps: of the label, the
two states before and the two states after. -/
inductive Lockstep (Step Step' : S → L → S → Prop) (P : L → S → S → S → S → Prop) (s₀ s₀' : S) :
    List L → S → S → Prop
  | nil : Lockstep Step Step' P s₀ s₀' [] s₀ s₀'
  | snoc {ls : List L} {s s' u u' : S} (l : L) (h : Lockstep Step Step' P s₀ s₀' ls s s')
      (hs : Step s l u) (hs' : Step' s' l u') (hp : P l s s' u u') :
      Lockstep Step Step' P s₀ s₀' (ls ++ [l]) u u'

variable {Step Step' : S → L → S → Prop} {P Q : L → S → S → S → S → Prop} {R : S → S → Prop}
  {s₀ s₀' s s' : S} {ls : List L}

theorem Ran.of_nil (h : Ran Step s₀ [] s) : s = s₀ := by
  generalize hk : ([] : List L) = ks at h
  cases h with
  | nil => rfl
  | snoc l _ _ =>
    exact absurd hk.symm (List.append_ne_nil_of_right_ne_nil _ (List.cons_ne_nil l []))

theorem Ran.of_snoc {l : L} {u : S} (h : Ran Step s₀ (ls ++ [l]) u) :
    ∃ s, Ran Step s₀ ls s ∧ Step s l u := by
  generalize hl : ls ++ [l] = ks at h
  cases h with
  | nil => exact absurd hl (List.append_ne_nil_of_right_ne_nil ls (List.cons_ne_nil l []))
  | snoc k h hs =>
    obtain ⟨rfl, hk⟩ := List.append_inj' hl rfl
    cases hk
    exact ⟨_, h, hs⟩

/-- Any two runs with the same labels go side by side. -/
theorem lockstep_iff : Lockstep Step Step' (fun _ _ _ _ _ => True) s₀ s₀' ls s s' ↔
    Ran Step s₀ ls s ∧ Ran Step' s₀' ls s' := by
  constructor
  · intro h
    induction h with
    | nil => exact ⟨.nil, .nil⟩
    | snoc l _ hs hs' _ ih => exact ⟨ih.1.snoc l hs, ih.2.snoc l hs'⟩
  · rintro ⟨h, h'⟩
    induction h generalizing s' with
    | nil =>
      obtain rfl := h'.of_nil
      exact .nil
    | snoc l _ hs ih =>
      obtain ⟨t', ht', hs'⟩ := h'.of_snoc
      exact (ih ht').snoc l hs hs' trivial

/-- Steps as `P` asks keep `R`, and between states that `R` relates they are as `Q` asks. -/
theorem Lockstep.carry (h₀ : R s₀ s₀')
    (hstep : ∀ l s s' u u', R s s' → Step s l u → Step' s' l u' → P l s s' u u' →
      R u u' ∧ Q l s s' u u')
    (h : Lockstep Step Step' P s₀ s₀' ls s s') :
    R s s' ∧ Lockstep Step Step' Q s₀ s₀' ls s s' := by
  induction h with
  | nil => exact ⟨h₀, .nil⟩
  | snoc l _ hs hs' hp ih =>
    obtain ⟨hr, hq⟩ := ih
    obtain ⟨hr', hq'⟩ := hstep l _ _ _ _ hr hs hs' hp
    exact ⟨hr', hq.snoc l hs hs' hq'⟩

/-- Two conditions that agree on the steps between related states agree on runs. -/
theorem lockstep_congr (h₀ : R s₀ s₀')
    (hkeep : ∀ l s s' u u', R s s' → Step s l u → Step' s' l u' → P l s s' u u' → R u u')
    (hiff : ∀ l s s' u u', R s s' → Step s l u → Step' s' l u' →
      (P l s s' u u' ↔ Q l s s' u u')) :
    Lockstep Step Step' P s₀ s₀' ls s s' ↔ Lockstep Step Step' Q s₀ s₀' ls s s' := by
  constructor
  · intro h
    refine (h.carry h₀ fun l s s' u u' hr hs hs' hp => ?_).2
    exact ⟨hkeep l s s' u u' hr hs hs' hp, (hiff l s s' u u' hr hs hs').1 hp⟩
  · intro h
    refine (h.carry h₀ fun l s s' u u' hr hs hs' hq => ?_).2
    have hp := (hiff l s s' u u' hr hs hs').2 hq
    exact ⟨hkeep l s s' u u' hr hs hs' hp, hp⟩

end Txn
