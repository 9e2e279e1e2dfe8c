import Mathlib.Data.Finset.Card
import Mathlib.Data.List.Sort
import Mathlib.Data.List.Nodup
import Mathlib.Order.Lattice

/-!
# Keyset paging

A table is walked by descending key: each page begins below the last key of the page
before, and one row more than the page holds is fetched, to see whether there is a
next one. The table may change between the pages.
-/

namespace Paging

structure Page (α C : Type) where
  data : List α
  nextCursor : Option C
  deriving DecidableEq

section Cut

variable {α K C : Type}

/-- What is shown of the rows fetched, of which there is one more if there is a next page. -/
def cut (limit : ℕ) (cursorOf : α → C) (rows : List α) : Page α C :=
  let hasMore := limit < rows.length
  let page := if hasMore then rows.take limit else rows
  { data := page
    nextCursor := if hasMore then page.getLast?.map cursorOf else none }

def Page.map {β D : Type} (f : α → β) (p : Page α C) (g : C → D) : Page β D where
  data := p.data.map f
  nextCursor := p.nextCursor.map g

variable {limit : ℕ} {cursorOf : α → C} {rows : List α}

theorem cut_comp {β D : Type} (f : α → β) (g : C → D) :
    (cut limit (fun a => g (cursorOf a)) rows).map f id = (cut limit cursorOf rows).map f g := by
  simp only [cut, Page.map]
  split_ifs
  · simp only [Option.map_map, Function.comp_def, id_eq]
  · rfl

/-- What a page shows does not depend on how its cursor is made. -/
theorem data_cut_congr {D : Type} (f : α → C) (g : α → D) :
    (cut limit f rows).data = (cut limit g rows).data := rfl

theorem cut_data : (cut limit cursorOf (rows.take (limit + 1))).data = rows.take limit := by
  simp only [cut, List.length_take]
  split_ifs with h
  · rw [List.take_take, Nat.min_eq_left (Nat.le_succ limit)]
  · rw [List.take_of_length_le (by omega), List.take_of_length_le (by omega)]

theorem cut_last (h : limit < rows.length) :
    (cut limit cursorOf (rows.take (limit + 1))).nextCursor =
      (rows.take limit).getLast?.map cursorOf := by
  have hlen : limit < (rows.take (limit + 1)).length := by
    rw [List.length_take]
    omega
  rw [cut, if_pos hlen, if_pos hlen, List.take_take, Nat.min_eq_left (Nat.le_succ limit)]

theorem cut_end (h : rows.length ≤ limit) :
    (cut limit cursorOf (rows.take (limit + 1))).nextCursor = none := by
  have hlen : ¬ limit < (rows.take (limit + 1)).length := by
    rw [List.length_take]
    omega
  simp only [cut, if_neg hlen]

end Cut

section Pages

variable {α K : Type} [LinearOrder K]

def orderBy (key : α → K) (rows : List α) : List α :=
  rows.insertionSort (fun a b => key b ≤ key a)

def Below (cursor : Option K) (k : K) : Prop := ∀ c ∈ cursor, k < c

instance (cursor : Option K) (k : K) : Decidable (Below cursor k) :=
  Option.decidableForallMem cursor

def fetch (key : α → K) (cursor : Option K) (limit : ℕ) (rows : List α) : List α :=
  (orderBy key (rows.filter (fun a => Below cursor (key a)))).take (limit + 1)

def page (key : α → K) (cursor : Option K) (limit : ℕ) (rows : List α) : Page α K :=
  cut limit key (fetch key cursor limit rows)

variable {key : α → K} {cursor : Option K} {limit : ℕ} {rows : List α}

/-- One query for the rows of a filter that are below the cursor. -/
theorem fetch_filter {p q : α → Prop} [DecidablePred p] [DecidablePred q]
    (h : ∀ a ∈ rows, q a ↔ Below cursor (key a) ∧ p a) :
    fetch key cursor limit (rows.filter p) = (orderBy key (rows.filter q)).take (limit + 1) := by
  have hrows : (rows.filter p).filter (fun a => Below cursor (key a)) = rows.filter q := by
    rw [List.filter_filter]
    refine List.filter_congr fun a ha => ?_
    rw [← Bool.decide_and]
    exact decide_eq_decide.2 (h a ha).symm
  rw [fetch, hrows]

theorem mem_orderBy {a : α} : a ∈ orderBy key rows ↔ a ∈ rows := List.mem_insertionSort _

/-- Rows with keys of their own are in strict order. -/
theorem orderBy_sorted (h : (rows.map key).Nodup) :
    (orderBy key rows).Pairwise (fun a b => key b < key a) := by
  have htotal : Std.Total (fun a b : α => key b ≤ key a) := ⟨fun a b => le_total _ _⟩
  have htrans : IsTrans α (fun a b => key b ≤ key a) := ⟨fun a b c hab hbc => hbc.trans hab⟩
  have hle := List.pairwise_insertionSort (fun a b => key b ≤ key a) rows
  have hne : (orderBy key rows).Pairwise (fun a b => key a ≠ key b) := by
    rw [← List.pairwise_map]
    exact (((List.perm_insertionSort _ rows).map key).nodup_iff).2 h
  exact (hle.and hne).imp (fun hab => lt_of_le_of_ne hab.1 (Ne.symm hab.2))

/-- Rows in strict order are told by what they are. -/
theorem eq_of_sorted {l l' : List α} (h : l.Pairwise fun a b => key b < key a)
    (h' : l'.Pairwise fun a b => key b < key a) (hmem : ∀ a, a ∈ l ↔ a ∈ l') : l = l' := by
  have hirrefl : Std.Irrefl (fun a b : α => key b < key a) := ⟨fun a => lt_irrefl _⟩
  have hantisymm : Std.Antisymm (fun a b : α => key b < key a) :=
    ⟨fun a b hab hba => absurd hab hba.asymm⟩
  exact h.eq_of_mem_iff h' hmem

section Page

variable (h : (rows.map key).Nodup)

include h

theorem below_sorted :
    (orderBy key (rows.filter fun a => Below cursor (key a))).Pairwise fun a b => key b < key a :=
  orderBy_sorted (h.sublist (List.filter_sublist.map key))

theorem page_sorted : (page key cursor limit rows).data.Pairwise fun a b => key b < key a := by
  rw [page, fetch, cut_data]
  exact (below_sorted h).sublist (List.take_sublist _ _)

end Page

theorem mem_below {a : α} : a ∈ orderBy key (rows.filter fun a => Below cursor (key a)) ↔
    a ∈ rows ∧ Below cursor (key a) := by
  rw [mem_orderBy, List.mem_filter, decide_eq_true_iff]

theorem mem_of_page {a : α} (ha : a ∈ (page key cursor limit rows).data) :
    a ∈ rows ∧ Below cursor (key a) := by
  rw [page, fetch, cut_data] at ha
  exact mem_below.1 (List.mem_of_mem_take ha)

/-- Of a list in descending order, what is not taken is below all that is. -/
theorem lt_of_not_mem_take {l : List α} (h : l.Pairwise fun a b => key b < key a) {a b : α}
    (ha : a ∈ l) (hna : a ∉ l.take limit) (hb : b ∈ l.take limit) : key a < key b := by
  rw [← List.take_append_drop limit l] at h ha
  rcases List.mem_append.1 ha with ha | ha
  · exact (hna ha).elim
  · exact (List.pairwise_append.1 h).2.2 b hb a ha

/-- A page without a cursor shows all that is left. -/
theorem page_end {a : α} (hend : (page key cursor limit rows).nextCursor = none)
    (hlimit : 0 < limit) (ha : a ∈ rows) (hb : Below cursor (key a)) :
    a ∈ (page key cursor limit rows).data := by
  rw [page, fetch] at hend
  rw [page, fetch, cut_data]
  have hm := mem_below.2 ⟨ha, hb⟩
  by_cases hlen : limit < (orderBy key (rows.filter fun a => Below cursor (key a))).length
  · rw [cut_last hlen, Option.map_eq_none_iff, List.getLast?_eq_none_iff, List.take_eq_nil_iff]
      at hend
    rcases hend with h | h
    · omega
    · rw [h] at hm
      cases hm
  · rwa [List.take_of_length_le (Nat.le_of_not_lt hlen)]

/-- A page with a cursor shows all down to it, and there is more. -/
theorem page_next (h : (rows.map key).Nodup) {c : K}
    (hnext : (page key cursor limit rows).nextCursor = some c) :
    (∃ a ∈ (page key cursor limit rows).data, key a = c) ∧
    (∀ a ∈ (page key cursor limit rows).data, c ≤ key a) ∧
    (∀ a ∈ rows, Below cursor (key a) → c ≤ key a → a ∈ (page key cursor limit rows).data) ∧
    ∃ a ∈ rows, Below cursor (key a) ∧ key a < c := by
  rw [page, fetch] at hnext
  rw [page, fetch, cut_data]
  have hsorted : (orderBy key (rows.filter fun a => Below cursor (key a))).Pairwise
      fun a b => key b < key a := below_sorted h
  revert hnext hsorted
  generalize hl : orderBy key (rows.filter fun a => Below cursor (key a)) = l
  intro hnext hsorted
  have hmem {a : α} : a ∈ l ↔ a ∈ rows ∧ Below cursor (key a) := by rw [← hl, mem_below]
  by_cases hlen : limit < l.length
  · rw [cut_last hlen, Option.map_eq_some_iff] at hnext
    obtain ⟨last, hlast, rfl⟩ := hnext
    have hlm : last ∈ l.take limit := List.mem_of_getLast? hlast
    have hmin : ∀ a ∈ l.take limit, key last ≤ key a := by
      obtain ⟨front, hfront⟩ := List.getLast?_eq_some_iff.1 hlast
      intro a ha
      have htaken := hsorted.sublist (List.take_sublist limit l)
      rw [hfront] at ha htaken
      rcases List.mem_append.1 ha with ha | ha
      · exact ((List.pairwise_append.1 htaken).2.2 a ha last (List.mem_singleton_self _)).le
      · rw [List.mem_singleton.1 ha]
    refine ⟨⟨last, hlm, rfl⟩, hmin, fun a ha hb hle => ?_, ?_⟩
    · by_contra hna
      exact absurd (lt_of_not_mem_take hsorted (hmem.2 ⟨ha, hb⟩) hna hlm) (not_lt.2 hle)
    · -- The row fetched in excess.
      have hdrop : l[limit] ∈ l.drop limit := by
        rw [List.drop_eq_getElem_cons hlen]
        exact List.mem_cons_self
      have hm : l[limit] ∈ l := List.getElem_mem hlen
      have hlt : key l[limit] < key last := by
        have hsplit := hsorted
        rw [← List.take_append_drop limit l] at hsplit
        exact (List.pairwise_append.1 hsplit).2.2 last hlm _ hdrop
      exact ⟨_, (hmem.1 hm).1, (hmem.1 hm).2, hlt⟩
  · rw [cut_end (Nat.le_of_not_lt hlen)] at hnext
    cases hnext

end Pages

section Walks

variable {S E α C : Type}

/-- The pages got by following the cursor, one from each state, until there is none. -/
def walk (get : S → Option C → Except E (Page α C)) :
    List S → Option C → Except E (List (Page α C))
  | [], _ => .ok []
  | s :: rest, cursor =>
    (get s cursor).bind fun p =>
      match p.nextCursor with
      | none => .ok [p]
      | some c => (walk get rest (some c)).map (p :: ·)

def Ends (pages : List (Page α C)) : Prop := ∃ p ∈ pages.getLast?, p.nextCursor = none

instance (pages : List (Page α C)) : Decidable (Ends pages) :=
  decidable_of_iff (pages.getLast?.any fun p => p.nextCursor.isNone) <| by
    cases h : pages.getLast? <;> simp [Ends, h]

variable {K β : Type} [LinearOrder K]

/-- An endpoint that shows pages of the rows of the state it finds, with coded cursors;
`seen` tells the key from what is shown. -/
structure Serves (get : S → Option C → Except E (Page β C)) (rows : S → List α) (key : α → K)
    (limit : ℕ) (seen : β → K) (encode : K → C) : Prop where
  positive : 0 < limit
  keys : ∀ s, ((rows s).map key).Nodup
  /-- The cursor of a row that some state holds leads to the page below it. -/
  serves : ∀ s (cursor : Option K), (∀ k ∈ cursor, ∃ s, k ∈ (rows s).map key) → ∃ dto : α → β,
    get s (cursor.map encode) = .ok ((page key cursor limit (rows s)).map dto encode) ∧
    ∀ a ∈ rows s, seen (dto a) = key a

def shownKeys (seen : β → K) (pages : List (Page β C)) : List K :=
  pages.flatMap fun p => p.data.map seen

structure Walked (rows : S → List α) (key : α → K) (seen : β → K) (cursor : Option K)
    (states : List S) (pages : List (Page β C)) : Prop where
  below : ∀ k ∈ shownKeys seen pages, Below cursor k
  /-- What is shown was there at a fetch. -/
  sound : ∀ k ∈ shownKeys seen pages, ∃ s ∈ states, k ∈ (rows s).map key
  ordered : (shownKeys seen pages).Pairwise fun a b => b < a
  /-- What is there at each fetch is shown. -/
  complete : Ends pages → ∀ k, Below cursor k →
    (∀ s ∈ states.take pages.length, k ∈ (rows s).map key) → k ∈ shownKeys seen pages
  /-- A page has no cursor exactly if nothing is left below what has been shown. -/
  exhausted : ∀ before p after s, pages = before ++ p :: after →
    states[before.length]? = some s → (p.nextCursor = none ↔ ∀ a ∈ rows s, Below cursor (key a) →
      ∃ k ∈ shownKeys seen (before ++ [p]), k ≤ key a)

variable {get : S → Option C → Except E (Page β C)} {rows : S → List α} {key : α → K}
  {limit : ℕ} {seen : β → K} {encode : K → C}

omit [LinearOrder K] in
theorem shownKeys_cons (p : Page β C) (pages : List (Page β C)) :
    shownKeys seen (p :: pages) = p.data.map seen ++ shownKeys seen pages :=
  List.flatMap_cons

theorem walk_end {s : S} {rest : List S} {cursor : Option C} {p : Page β C}
    (hget : get s cursor = .ok p) (hend : p.nextCursor = none) :
    walk get (s :: rest) cursor = .ok [p] := by
  rw [walk, hget]
  simp only [Except.bind, hend]

theorem walk_next {s : S} {rest : List S} {cursor : Option C} {p : Page β C} {c : C}
    {pages : List (Page β C)} (hget : get s cursor = .ok p) (hnext : p.nextCursor = some c)
    (hrest : walk get rest (some c) = .ok pages) :
    walk get (s :: rest) cursor = .ok (p :: pages) := by
  rw [walk, hget]
  simp only [Except.bind, hnext, hrest, Except.map]

theorem Ends.tail {p : Page β C} {pages : List (Page β C)} {c : C} (h : Ends (p :: pages))
    (hnext : p.nextCursor = some c) : Ends pages := by
  obtain ⟨q, hq, hend⟩ := h
  cases pages with
  | nil =>
    obtain rfl : p = q := by simpa using hq
    rw [hnext] at hend
    cases hend
  | cons r rest => exact ⟨q, by simpa using hq, hend⟩

theorem Ends.cons {p : Page β C} {pages : List (Page β C)} (h : Ends pages) :
    Ends (p :: pages) := by
  obtain ⟨q, hq, hend⟩ := h
  cases pages with
  | nil => cases hq
  | cons r rest => exact ⟨q, by simpa using hq, hend⟩

section Step

variable {cursor : Option K} {s : S} {dto : α → β} {rest : List S}

theorem keys_of_page (hseen : ∀ a ∈ rows s, seen (dto a) = key a) :
    ((page key cursor limit (rows s)).map dto encode).data.map seen =
      (page key cursor limit (rows s)).data.map key := by
  rw [Page.map, List.map_map]
  exact List.map_congr_left (fun a ha => hseen a (mem_of_page ha).1)

theorem Walked.nil : Walked rows key seen cursor [] ([] : List (Page β C)) := by
  refine ⟨fun k hk => (List.not_mem_nil hk).elim, fun k hk => (List.not_mem_nil hk).elim,
    List.Pairwise.nil, fun hends => ?_, ?_⟩
  · obtain ⟨p, hp, -⟩ := hends
    cases hp
  · intro before p after s hsplit
    simp at hsplit

/-- A walk whose first page is its last. -/
theorem Walked.last (hlimit : 0 < limit) (hnodup : ((rows s).map key).Nodup)
    (hseen : ∀ a ∈ rows s, seen (dto a) = key a)
    (hend : (page key cursor limit (rows s)).nextCursor = none) :
    Walked rows key seen cursor (s :: rest)
      [(page key cursor limit (rows s)).map dto encode] := by
  have hkeys : shownKeys seen [(page key cursor limit (rows s)).map dto encode] =
      (page key cursor limit (rows s)).data.map key := by
    rw [shownKeys_cons, keys_of_page hseen]
    exact List.append_nil _
  refine ⟨fun k hk => ?_, fun k hk => ?_, ?_, fun _ k hb hall => ?_,
    fun before p after s' hsplit hs' => ?_⟩
  · rw [hkeys] at hk
    obtain ⟨a, ha, rfl⟩ := List.mem_map.1 hk
    exact (mem_of_page ha).2
  · rw [hkeys] at hk
    obtain ⟨a, ha, rfl⟩ := List.mem_map.1 hk
    exact ⟨s, List.mem_cons_self, List.mem_map_of_mem (mem_of_page ha).1⟩
  · rw [hkeys, List.pairwise_map]
    exact page_sorted hnodup
  · obtain ⟨a, ha, rfl⟩ := List.mem_map.1 (hall s List.mem_cons_self)
    rw [hkeys]
    exact List.mem_map_of_mem (page_end hend hlimit ha hb)
  · obtain ⟨rfl, rfl⟩ | hlong :
        (before = [] ∧ p = (page key cursor limit (rows s)).map dto encode) ∨ False := by
      cases before with
      | nil => exact Or.inl ⟨rfl, (List.cons.inj hsplit).1.symm⟩
      | cons b before => simp at hsplit
    · cases hs'
      refine ⟨fun _ a ha hb => ⟨key a, ?_, le_rfl⟩, fun _ => ?_⟩
      · rw [List.nil_append, hkeys]
        exact List.mem_map_of_mem (page_end hend hlimit ha hb)
      · rw [Page.map, hend]
        rfl
    · exact hlong.elim

/-- A page, and the walk from its cursor on. -/
theorem Walked.cons (hnodup : ((rows s).map key).Nodup)
    (hseen : ∀ a ∈ rows s, seen (dto a) = key a) {c : K}
    (hnext : (page key cursor limit (rows s)).nextCursor = some c) {pages : List (Page β C)}
    (hrest : Walked rows key seen (some c) rest pages) :
    Walked rows key seen cursor (s :: rest)
      ((page key cursor limit (rows s)).map dto encode :: pages) := by
  obtain ⟨⟨last, hlast, hlastc⟩, hmin, hdown, below, hbelow, hbb, hbc⟩ := page_next hnodup hnext
  have hlt {k : K} (hk : Below (some c) k) : k < c := hk c rfl
  have hkeys : ((page key cursor limit (rows s)).map dto encode).data.map seen =
      (page key cursor limit (rows s)).data.map key := keys_of_page hseen
  have hmem {k : K} :
      k ∈ shownKeys seen ((page key cursor limit (rows s)).map dto encode :: pages) ↔
      k ∈ (page key cursor limit (rows s)).data.map key ∨ k ∈ shownKeys seen pages := by
    rw [shownKeys_cons, hkeys, List.mem_append]
  have hcursor {k : K} (hk : k < c) : Below cursor k := by
    intro c' hc'
    exact hk.trans (hlastc ▸ (mem_of_page hlast).2 c' hc')
  have hpage {k : K} (hk : k ∈ (page key cursor limit (rows s)).data.map key) : c ≤ k := by
    obtain ⟨a, ha, rfl⟩ := List.mem_map.1 hk
    exact hmin a ha
  refine ⟨fun k hk => ?_, fun k hk => ?_, ?_, fun hends k hb hall => ?_,
    fun before p after s' hsplit hs' => ?_⟩
  · rcases hmem.1 hk with hk | hk
    · obtain ⟨a, ha, rfl⟩ := List.mem_map.1 hk
      exact (mem_of_page ha).2
    · exact hcursor (hlt (hrest.below k hk))
  · rcases hmem.1 hk with hk | hk
    · obtain ⟨a, ha, rfl⟩ := List.mem_map.1 hk
      exact ⟨s, List.mem_cons_self, List.mem_map_of_mem (mem_of_page ha).1⟩
    · obtain ⟨s', hs', hk'⟩ := hrest.sound k hk
      exact ⟨s', List.mem_cons_of_mem _ hs', hk'⟩
  · rw [shownKeys_cons, hkeys, List.pairwise_append]
    refine ⟨?_, hrest.ordered, fun x hx y hy => ?_⟩
    · rw [List.pairwise_map]
      exact page_sorted hnodup
    · exact (hlt (hrest.below y hy)).trans_le (hpage hx)
  · rw [hmem]
    obtain ⟨a, ha, rfl⟩ := List.mem_map.1 (hall s List.mem_cons_self)
    by_cases hle : c ≤ key a
    · exact Or.inl (List.mem_map_of_mem (hdown a ha hb hle))
    · refine Or.inr (hrest.complete (hends.tail (by rw [Page.map, hnext]; rfl)) _ ?_ ?_)
      · intro c' hc'
        cases hc'
        exact lt_of_not_ge hle
      · exact fun s' hs' => hall s' (List.mem_cons_of_mem _ hs')
  · cases before with
    | nil =>
      obtain ⟨rfl, -⟩ := List.cons.inj hsplit
      cases hs'
      refine ⟨fun hend => ?_, fun hall => ?_⟩
      · rw [Page.map, hnext] at hend
        cases hend
      · obtain ⟨k, hk, hle⟩ := hall below hbelow hbb
        rw [List.nil_append, shownKeys_cons, hkeys] at hk
        have hck := hpage ((List.append_nil _).subst hk)
        exact absurd (hck.trans hle) (not_le.2 hbc)
    | cons b before =>
      obtain ⟨rfl, hsplit'⟩ := List.cons.inj hsplit
      rw [hrest.exhausted before p after s' hsplit' hs', List.cons_append, shownKeys_cons, hkeys]
      refine ⟨fun hall a ha hb => ?_, fun hall a ha hb => ?_⟩
      · by_cases hle : c ≤ key a
        · exact ⟨c, List.mem_append_left _ (hlastc ▸ List.mem_map_of_mem hlast), hle⟩
        · obtain ⟨k, hk, hka⟩ := hall a ha (fun c' hc' => by cases hc'; exact lt_of_not_ge hle)
          exact ⟨k, List.mem_append_right _ hk, hka⟩
      · obtain ⟨k, hk, hka⟩ := hall a ha (hcursor (hlt hb))
        rcases List.mem_append.1 hk with hk | hk
        · exact absurd ((hpage hk).trans hka) (not_le.2 (hlt hb))
        · exact ⟨k, hk, hka⟩

end Step

/-- A walk from a cursor of some row. -/
theorem Serves.walked (h : Serves get rows key limit seen encode) (states : List S)
    (cursor : Option K) (hc : ∀ k ∈ cursor, ∃ s, k ∈ (rows s).map key) :
    ∃ pages, walk get states (cursor.map encode) = .ok pages ∧
      Walked rows key seen cursor states pages := by
  induction states generalizing cursor with
  | nil =>
    exact ⟨[], rfl, .nil⟩
  | cons s rest ih =>
    obtain ⟨dto, hget, hseen⟩ := h.serves s cursor hc
    cases hnext : (page key cursor limit (rows s)).nextCursor with
    | none =>
      exact ⟨_, walk_end hget (by rw [Page.map, hnext]; rfl),
        .last h.positive (h.keys s) hseen hnext⟩
    | some c =>
      obtain ⟨a, ha, rfl⟩ := (page_next (h.keys s) hnext).1
      have hcursor : ∀ k ∈ some (key a), ∃ s, k ∈ (rows s).map key := by
        intro k hk
        cases hk
        exact ⟨s, List.mem_map_of_mem (mem_of_page ha).1⟩
      obtain ⟨pages, hwalk, hrest⟩ := ih _ hcursor
      exact ⟨_, walk_next hget (by rw [Page.map, hnext]; rfl) hwalk,
        .cons (h.keys s) hseen hnext hrest⟩

/-- Where the keys are finitely many, a walk comes to its end. -/
theorem Serves.ends (h : Serves get rows key limit seen encode) (F : Finset K)
    (states : ℕ → S) (hF : ∀ n, ∀ a ∈ rows (states n), key a ∈ F) (cursor : Option K)
    (hc : ∀ k ∈ cursor, ∃ s, k ∈ (rows s).map key) :
    ∃ n ≤ (F.filter (Below cursor)).card + 1, ∃ pages,
      walk get ((List.range n).map states) (cursor.map encode) = .ok pages ∧ Ends pages := by
  -- Each page with a cursor has fewer keys below it.
  induction hcard : (F.filter (Below cursor)).card using Nat.strong_induction_on
    generalizing cursor states with
  | _ m ih =>
    obtain ⟨dto, hget, hseen⟩ := h.serves (states 0) cursor hc
    cases hnext : (page key cursor limit (rows (states 0))).nextCursor with
    | none =>
      have hend : ((page key cursor limit (rows (states 0))).map dto encode).nextCursor = none := by
        rw [Page.map, hnext]
        rfl
      exact ⟨1, by omega, _, walk_end hget hend, _, rfl, hend⟩
    | some c =>
      obtain ⟨⟨a, ha, rfl⟩, -, -, -⟩ := page_next (h.keys (states 0)) hnext
      obtain ⟨harows, hab⟩ := mem_of_page ha
      have hcursor : ∀ k ∈ some (key a), ∃ s, k ∈ (rows s).map key := by
        intro k hk
        cases hk
        exact ⟨states 0, List.mem_map_of_mem harows⟩
      have hfewer : (F.filter (Below (some (key a)))).card < m := by
        rw [← hcard]
        refine Finset.card_lt_card ((Finset.ssubset_iff_of_subset ?_).2 ⟨key a, ?_, ?_⟩)
        · intro k hk
          obtain ⟨hkF, hkb⟩ := Finset.mem_filter.1 hk
          exact Finset.mem_filter.2 ⟨hkF, fun c hc' => (hkb _ rfl).trans (hab c hc')⟩
        · exact Finset.mem_filter.2 ⟨hF 0 a harows, hab⟩
        · intro hk
          exact lt_irrefl _ ((Finset.mem_filter.1 hk).2 _ rfl)
      obtain ⟨n, hn, pages, hwalk, hends⟩ :=
        ih _ hfewer (fun n => states (n + 1)) (fun n => hF (n + 1)) _ hcursor rfl
      have hmapped : ((page key cursor limit (rows (states 0))).map dto encode).nextCursor =
          some (encode (key a)) := by
        rw [Page.map, hnext]
        rfl
      refine ⟨n + 1, by omega,
        (page key cursor limit (rows (states 0))).map dto encode :: pages, ?_, hends.cons⟩
      rw [List.range_succ_eq_map, List.map_cons, List.map_map]
      exact walk_next hget hmapped hwalk

/-- What following the cursors of an endpoint gives, from whatever states it finds:
the rows in strict order, each once if it is there at each fetch, and an end. -/
structure LosesNothing (get : S → Option C → Except E (Page β C)) (rows : S → List α)
    (key : α → K) (seen : β → K) : Prop where
  walks : ∀ states, ∃ pages, walk get states none = .ok pages ∧
    (shownKeys seen pages).Nodup ∧ (shownKeys seen pages).Pairwise (fun a b => b < a) ∧
    (Ends pages → ∀ k, (∀ s ∈ states.take pages.length, k ∈ (rows s).map key) →
      (shownKeys seen pages).count k = 1) ∧
    ∀ before p after s, pages = before ++ p :: after → states[before.length]? = some s →
      (p.nextCursor = none ↔ ∀ a ∈ rows s, ∃ k ∈ shownKeys seen (before ++ [p]), k ≤ key a)
  ends : ∀ (states : ℕ → S) (F : Finset K), (∀ n, ∀ a ∈ rows (states n), key a ∈ F) →
    ∃ n pages, walk get ((List.range n).map states) none = .ok pages ∧ Ends pages

theorem Serves.losesNothing (h : Serves get rows key limit seen encode) :
    LosesNothing get rows key seen where
  walks states := by
    obtain ⟨pages, hwalk, hw⟩ := h.walked states none (fun k hk => by cases hk)
    have hnone (k : K) : Below none k := fun c hc => by cases hc
    have hnodup : (shownKeys seen pages).Nodup := hw.ordered.imp (fun hlt => hlt.ne')
    refine ⟨pages, hwalk, hnodup, hw.ordered, fun hends k hall => ?_, ?_⟩
    · exact List.count_eq_one_of_mem hnodup (hw.complete hends k (hnone k) hall)
    · intro before p after s hsplit hs
      rw [hw.exhausted before p after s hsplit hs]
      exact ⟨fun hall a ha => hall a ha (hnone _), fun hall a ha _ => hall a ha⟩
  ends states F hF := by
    obtain ⟨n, -, pages, hwalk, hends⟩ := h.ends F states hF none
      (fun k hk => by cases hk)
    exact ⟨n, pages, hwalk, hends⟩

end Walks

end Paging
