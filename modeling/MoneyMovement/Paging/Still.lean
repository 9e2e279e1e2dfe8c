import Mathlib.Data.List.Forall2
import MoneyMovement.Paging.Keyset

/-!
# Walks over a table that stays

Where the rows do not change between the pages, a walk that comes to its end shows
all of them, one after the other by descending key.
-/

namespace Paging

section Rows

variable {α K : Type} [LinearOrder K] {key : α → K} {cursor : Option K} {limit : ℕ}
  {rows : List α}

theorem orderBy_perm : (orderBy key rows).Perm rows := List.perm_insertionSort _ rows

/-- The last page holds what is left, in order. -/
theorem page_last (hkeys : (rows.map key).Nodup) (hlimit : 0 < limit)
    (hend : (page key cursor limit rows).nextCursor = none) :
    (page key cursor limit rows).data = orderBy key (rows.filter fun a => Below cursor (key a)) :=
  eq_of_sorted (page_sorted hkeys) (below_sorted hkeys) fun a => by
    rw [mem_below]
    exact ⟨mem_of_page, fun ha => page_end hend hlimit ha.1 ha.2⟩

/-- A page that has a cursor is followed by what is below the cursor. -/
theorem page_append (hkeys : (rows.map key).Nodup) {c : K}
    (hnext : (page key cursor limit rows).nextCursor = some c) :
    orderBy key (rows.filter fun a => Below cursor (key a)) =
      (page key cursor limit rows).data ++
        orderBy key (rows.filter fun a => Below (some c) (key a)) := by
  obtain ⟨⟨last, hlast, hc⟩, hmin, hdown, -⟩ := page_next hkeys hnext
  have hlt {a : α} (ha : a ∈ orderBy key (rows.filter fun a => Below (some c) (key a))) :
      key a < c := (mem_below.1 ha).2 c rfl
  refine eq_of_sorted (below_sorted hkeys) ?_ fun a => ?_
  · refine List.pairwise_append.2 ⟨page_sorted hkeys, below_sorted hkeys, fun a ha b hb => ?_⟩
    exact (hlt hb).trans_le (hmin a ha)
  · rw [List.mem_append, mem_below]
    constructor
    · rintro ⟨ha, hb⟩
      by_cases hle : c ≤ key a
      · exact Or.inl (hdown a ha hb hle)
      · refine Or.inr (mem_below.2 ⟨ha, ?_⟩)
        rintro c' ⟨⟩
        exact lt_of_not_ge hle
    · rintro (ha | ha)
      · exact mem_of_page ha
      · refine ⟨(mem_below.1 ha).1, fun c' hc' => (hlt ha).trans ?_⟩
        exact hc ▸ (mem_of_page hlast).2 c' hc'

end Rows

section Walks

variable {S E α β C K : Type} [LinearOrder K]

/-- An endpoint that shows pages of the same rows in every state, and what `shows` says
of each row and what stands for it. -/
structure Shows (get : S → Option C → Except E (Page β C)) (rows : List α) (key : α → K)
    (limit : ℕ) (seen : β → K) (encode : K → C) (shows : α → β → Prop) : Prop extends
    Serves get (fun _ => rows) key limit seen encode where
  related : ∀ s cursor p, (∀ k ∈ cursor, k ∈ rows.map key) →
    get s (cursor.map encode) = .ok p →
    List.Forall₂ shows (page key cursor limit rows).data p.data

variable {get : S → Option C → Except E (Page β C)} {rows : List α} {key : α → K} {limit : ℕ}
  {seen : β → K} {encode : K → C} {shows : α → β → Prop}

def items (pages : List (Page β C)) : List β := pages.flatMap Page.data

theorem Shows.walked (h : Shows get rows key limit seen encode shows) (states : List S)
    (cursor : Option K) (hc : ∀ k ∈ cursor, k ∈ rows.map key) {pages : List (Page β C)}
    (hwalk : walk get states (cursor.map encode) = .ok pages) (hends : Ends pages) :
    List.Forall₂ shows (orderBy key (rows.filter fun a => Below cursor (key a))) (items pages) := by
  induction states generalizing cursor pages with
  | nil =>
    cases hwalk
    obtain ⟨p, hp, -⟩ := hends
    cases hp
  | cons s rest ih =>
    obtain ⟨dto, hget, -⟩ := h.serves s cursor fun k hk => ⟨s, hc k hk⟩
    have hshown := h.related s cursor _ hc hget
    have hkeys : (rows.map key).Nodup := h.keys s
    cases hnext : (page key cursor limit rows).nextCursor with
    | none =>
      have hlast : ((page key cursor limit rows).map dto encode).nextCursor = none := by
        rw [Page.map, hnext]
        rfl
      rw [walk_end hget hlast] at hwalk
      cases hwalk
      rw [page_last hkeys h.positive hnext] at hshown
      rwa [items, List.flatMap_cons, List.flatMap_nil, List.append_nil]
    | some c =>
      have hmore : ((page key cursor limit rows).map dto encode).nextCursor = some (encode c) := by
        rw [Page.map, hnext]
        rfl
      obtain ⟨a, ha, rfl⟩ := (page_next hkeys hnext).1
      have hcursor : ∀ k ∈ some (key a), k ∈ rows.map key := by
        rintro k ⟨⟩
        exact List.mem_map_of_mem (mem_of_page ha).1
      obtain ⟨later, hlater, -⟩ := h.toServes.walked rest (some (key a))
        fun k hk => ⟨s, hcursor k hk⟩
      rw [walk_next hget hmore hlater] at hwalk
      cases hwalk
      rw [page_append hkeys hnext]
      exact List.rel_append hshown (ih (some (key a)) hcursor hlater (hends.tail hmore))

/-- A walk from the start shows the rows in order, and comes to an end. -/
theorem Shows.all (h : Shows get rows key limit seen encode shows) :
    (∀ states pages, walk get states none = .ok pages → Ends pages →
      List.Forall₂ shows (orderBy key rows) (items pages)) ∧
    ∀ states : ℕ → S, ∃ n pages,
      walk get ((List.range n).map states) none = .ok pages ∧ Ends pages := by
  constructor
  · intro states pages hwalk hends
    have hall : (rows.filter fun a => Below (none : Option K) (key a)) = rows :=
      List.filter_eq_self.2 fun a _ => decide_eq_true (fun c hc => by cases hc)
    have hwalked := h.walked states none (fun k hk => by cases hk) hwalk hends
    rwa [hall] at hwalked
  · exact fun states => h.losesNothing.ends states (rows.map key).toFinset fun n a ha =>
      List.mem_toFinset.2 (List.mem_map_of_mem ha)

end Walks

section Sums

variable {α β γ : Type} {shows : α → β → Prop} {as : List α} {bs : List β}

theorem map_eq_map_of_forall₂ {f : α → γ} {g : β → γ} (h : List.Forall₂ shows as bs)
    (hfg : ∀ a b, shows a b → f a = g b) : as.map f = bs.map g := by
  rw [← List.forall₂_eq_eq_eq, List.forall₂_map_left_iff, List.forall₂_map_right_iff]
  exact h.imp hfg

theorem exists_left_of_forall₂ (h : List.Forall₂ shows as bs) {b : β} (hb : b ∈ bs) :
    ∃ a ∈ as, shows a b := by
  induction h with
  | nil => cases hb
  | cons hab _ ih =>
    rcases List.mem_cons.1 hb with rfl | hb
    · exact ⟨_, List.mem_cons_self, hab⟩
    · obtain ⟨a, ha, hab⟩ := ih hb
      exact ⟨a, List.mem_cons_of_mem _ ha, hab⟩

theorem exists_right_of_forall₂ (h : List.Forall₂ shows as bs) {a : α} (ha : a ∈ as) :
    ∃ b ∈ bs, shows a b :=
  exists_left_of_forall₂ h.flip ha

end Sums

end Paging
