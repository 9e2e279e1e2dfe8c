import MoneyMovement.Paging.Keyset

/-!
# Paging by skipping the anchor

A page begins at the position of an anchor and leaves the first row out. That row is
the anchor as long as the anchor is among the rows; afterwards it is the next one, and
it is lost.
-/

namespace Paging

section Pages

variable {α K : Type} [LinearOrder K]

def skipFetch (key : α → K) (cursor : Option K) (limit : ℕ) (rows : List α) : List α :=
  match cursor with
  | none => (orderBy key rows).take (limit + 1)
  | some c => ((orderBy key (rows.filter fun a => key a ≤ c)).drop 1).take (limit + 1)

def skipPage (key : α → K) (cursor : Option K) (limit : ℕ) (rows : List α) : Page α K :=
  cut limit key (skipFetch key cursor limit rows)

/-- The row that is left out in place of an anchor that is gone. -/
def lost (key : α → K) (cursor : Option K) (rows : List α) : Option α :=
  cursor.bind fun c =>
    if c ∈ rows.map key then none
    else (orderBy key (rows.filter fun a => Below cursor (key a))).head?

def kept (key : α → K) (cursor : Option K) (rows : List α) : List α :=
  rows.filter fun a => ∀ d ∈ (lost key cursor rows).map key, key a ≠ d

variable {key : α → K} {cursor : Option K} {limit : ℕ} {rows : List α}

section Descending

variable {l : List α} (h : l.Pairwise fun a b => key b < key a)

include h

/-- In descending order the first row has the greatest key. -/
theorem le_head {d a : α} (hd : d ∈ l.head?) (ha : a ∈ l) : key a ≤ key d := by
  obtain ⟨rest, rfl⟩ := List.head?_eq_some_iff.1 hd
  rcases List.mem_cons.1 ha with rfl | ha
  · exact le_rfl
  · exact ((List.pairwise_cons.1 h).1 a ha).le

theorem mem_drop_one {a : α} : a ∈ l.drop 1 ↔ a ∈ l ∧ ∀ d ∈ l.head?, key a ≠ key d := by
  cases l with
  | nil => simp
  | cons d rest =>
    obtain ⟨hd, -⟩ := List.pairwise_cons.1 h
    rw [List.drop_one, List.tail_cons, List.head?_cons]
    constructor
    · intro ha
      refine ⟨List.mem_cons_of_mem _ ha, fun x hx => ?_⟩
      cases hx
      exact (hd a ha).ne
    · rintro ⟨ha, hne⟩
      rcases List.mem_cons.1 ha with rfl | ha
      · exact absurd rfl (hne a rfl)
      · exact ha

end Descending

/-- The lost row is the first one below the anchor. -/
theorem lost_spec (hnodup : (rows.map key).Nodup) {d : α} (h : d ∈ lost key cursor rows) :
    d ∈ rows ∧ Below cursor (key d) ∧ ∀ a ∈ rows, Below cursor (key a) → key a ≤ key d := by
  obtain ⟨c, rfl, hc⟩ := Option.bind_eq_some_iff.1 h
  split_ifs at hc with hm
  obtain ⟨hd, hbelow⟩ := mem_below.1 (List.mem_of_mem_head? hc)
  exact ⟨hd, hbelow, fun a ha hb => le_head (below_sorted hnodup) hc (mem_below.2 ⟨ha, hb⟩)⟩

theorem Below.of_lost {d : α} (h : d ∈ lost key cursor rows) : Below cursor (key d) := by
  obtain ⟨c, rfl, hc⟩ := Option.bind_eq_some_iff.1 h
  split_ifs at hc with hm
  exact (mem_below.1 (List.mem_of_mem_head? hc)).2

theorem mem_kept {a : α} :
    a ∈ kept key cursor rows ↔ a ∈ rows ∧ ∀ d ∈ lost key cursor rows, key a ≠ key d := by
  simp only [kept, List.mem_filter, decide_eq_true_iff, Option.mem_map, forall_exists_index,
    and_imp, forall_apply_eq_imp_iff₂]

theorem nodup_kept (hnodup : (rows.map key).Nodup) : ((kept key cursor rows).map key).Nodup :=
  hnodup.sublist (List.filter_sublist.map key)

/-- What is skipped is the anchor or the lost row. -/
theorem mem_skipped (hnodup : (rows.map key).Nodup) (c : K) (a : α) :
    a ∈ (orderBy key (rows.filter fun a => key a ≤ c)).drop 1 ↔
      a ∈ kept key (some c) rows ∧ key a < c := by
  have hmem (b : α) : b ∈ orderBy key (rows.filter fun a => key a ≤ c) ↔ b ∈ rows ∧ key b ≤ c := by
    rw [mem_orderBy, List.mem_filter, decide_eq_true_iff]
  have hsorted : (orderBy key (rows.filter fun a => key a ≤ c)).Pairwise
      fun a b => key b < key a := orderBy_sorted (hnodup.sublist (List.filter_sublist.map key))
  rw [mem_drop_one hsorted, hmem, mem_kept]
  by_cases hc : c ∈ rows.map key
  · -- The anchor comes first.
    obtain ⟨b, hb, hbc⟩ := List.mem_map.1 hc
    have hbl := (hmem b).2 ⟨hb, hbc.le⟩
    have hfirst {d : α} (hd : d ∈ (orderBy key (rows.filter fun a => key a ≤ c)).head?) :
        key d = c :=
      le_antisymm ((hmem d).1 (List.mem_of_mem_head? hd)).2 (hbc ▸ le_head hsorted hd hbl)
    have hlost : lost key (some c) rows = none := by
      rw [lost, Option.bind_some, if_pos hc]
    rw [hlost]
    constructor
    · rintro ⟨⟨ha, hle⟩, hne⟩
      refine ⟨⟨ha, fun x hx => by cases hx⟩, lt_of_le_of_ne hle ?_⟩
      have hd := List.head?_eq_some_head (List.ne_nil_of_mem hbl)
      exact hfirst hd ▸ hne _ hd
    · rintro ⟨⟨ha, -⟩, hlt⟩
      exact ⟨⟨ha, hlt.le⟩, fun d hd => hfirst hd ▸ hlt.ne⟩
  · have hle {b : α} (hb : b ∈ rows) : key b ≤ c ↔ key b < c :=
      ⟨fun h => lt_of_le_of_ne h (fun he => hc (he ▸ List.mem_map_of_mem hb)), le_of_lt⟩
    have hbelow : (rows.filter fun a => Below (some c) (key a)) =
        rows.filter fun a => key a ≤ c := by
      refine List.filter_congr fun b hb => decide_eq_decide.2 ?_
      rw [hle hb]
      exact ⟨fun h => h c rfl, fun h c' hc' => by cases hc'; exact h⟩
    have hlost : lost key (some c) rows = (orderBy key (rows.filter fun a => key a ≤ c)).head? := by
      rw [lost, Option.bind_some, if_neg hc, hbelow]
    rw [hlost]
    constructor
    · rintro ⟨⟨ha, hac⟩, hne⟩
      exact ⟨⟨ha, hne⟩, (hle ha).1 hac⟩
    · rintro ⟨⟨ha, hne⟩, hlt⟩
      exact ⟨⟨ha, hlt.le⟩, hne⟩

/-- A page by skipping is a keyset page without the lost row. -/
theorem skipPage_eq (hnodup : (rows.map key).Nodup) :
    skipPage key cursor limit rows = page key cursor limit (kept key cursor rows) := by
  suffices hfetch : skipFetch key cursor limit rows =
      fetch key cursor limit (kept key cursor rows) by
    rw [skipPage, page, hfetch]
  cases cursor with
  | none =>
    have hkept : kept key none rows = rows := by
      refine List.filter_eq_self.2 fun a _ => decide_eq_true fun d hd => ?_
      cases hd
    have hall : (rows.filter fun a => Below none (key a)) = rows := by
      refine List.filter_eq_self.2 fun a _ => decide_eq_true fun c hc => ?_
      cases hc
    rw [fetch, hkept, hall]
    rfl
  | some c =>
    rw [skipFetch, fetch]
    congr 1
    refine eq_of_sorted ?_ (below_sorted (nodup_kept hnodup)) fun a => ?_
    · exact (orderBy_sorted (hnodup.sublist (List.filter_sublist.map key))).sublist
        (List.drop_sublist _ _)
    · rw [mem_skipped hnodup, mem_below]
      exact and_congr_right fun _ => ⟨fun h c' hc' => by cases hc'; exact h, fun h => h c rfl⟩

end Pages

section Walks

variable {S E α β C : Type}

def fetches (get : S → Option C → Except E (Page β C)) : List S → Option C → List (Option C × S)
  | [], _ => []
  | s :: rest, cursor =>
    (cursor, s) :: match get s cursor with
      | .error _ => []
      | .ok p =>
        match p.nextCursor with
        | none => []
        | some c => fetches get rest (some c)

variable {K : Type} [LinearOrder K]

/-- An endpoint whose pages skip the anchor; it has to know the anchor's key. -/
structure Skips (get : S → Option C → Except E (Page β C)) (rows : S → List α) (key : α → K)
    (limit : ℕ) (known : S → K → Prop) (seen : β → K) (encode : K → C) : Prop where
  positive : 0 < limit
  keys : ∀ s, ((rows s).map key).Nodup
  serves : ∀ s (cursor : Option K), (∀ k ∈ cursor, known s k) → ∃ dto : α → β,
    get s (cursor.map encode) = .ok ((skipPage key cursor limit (rows s)).map dto encode) ∧
    ∀ a ∈ rows s, seen (dto a) = key a

variable {get : S → Option C → Except E (Page β C)} {rows : S → List α} {key : α → K}
  {limit : ℕ} {known : S → K → Prop} {seen : β → K} {encode : K → C}

def shows (rows : S → List α) (key : α → K) (x : Option K × S) : List α :=
  kept key x.1 (rows x.2)

/-- Nothing that a fetch loses is shown by the pages. -/
def LostUnshown (rows : S → List α) (key : α → K) (seen : β → K) (fetched : List (Option K × S))
    (pages : List (Page β C)) : Prop :=
  ∀ x ∈ fetched, ∀ d ∈ lost key x.1 (rows x.2), key d ∉ shownKeys seen pages

structure SkipWalked (get : S → Option C → Except E (Page β C)) (rows : S → List α) (key : α → K)
    (known : S → K → Prop) (seen : β → K) (encode : K → C) (states : List S) (cursor : Option K)
    (fetched : List (Option K × S)) (pages : List (Page β C)) : Prop where
  walk : walk get states (cursor.map encode) = .ok pages
  fetches : fetches get states (cursor.map encode) = fetched.map fun x => (x.1.map encode, x.2)
  sent : ∀ x ∈ fetched, x.2 ∈ states ∧ ∀ k ∈ x.1, known x.2 k
  walked : Walked (shows rows key) key seen cursor fetched pages
  /-- The walk goes down. -/
  down : ∀ x ∈ fetched, ∀ c ∈ cursor, ∃ k ∈ x.1, k ≤ c
  unshown : LostUnshown rows key seen fetched pages

section Step

variable {cursor : Option K} {s : S} {dto : α → β} {rest : List S}

/-- What the first fetch loses is above what comes after its page, and not on it. -/
theorem lost_not_mem (limit : ℕ) (hnodup : ((rows s).map key).Nodup) {d : α}
    (hd : d ∈ lost key cursor (rows s)) :
    key d ∉ (page key cursor limit (shows rows key (cursor, s))).data.map key ∧
    ∀ c, (page key cursor limit (shows rows key (cursor, s))).nextCursor = some c → c < key d := by
  obtain ⟨hdr, hdb, htop⟩ := lost_spec hnodup hd
  have hlt {a : α} (ha : a ∈ (page key cursor limit (shows rows key (cursor, s))).data) :
      key a < key d := by
    obtain ⟨hak, hab⟩ := mem_of_page ha
    obtain ⟨har, hne⟩ := mem_kept.1 hak
    exact lt_of_le_of_ne (htop a har hab) (hne d hd)
  refine ⟨fun hm => ?_, fun c hc => ?_⟩
  · obtain ⟨a, ha, hak⟩ := List.mem_map.1 hm
    exact absurd hak (hlt ha).ne
  · obtain ⟨a, ha, rfl⟩ := (page_next (nodup_kept hnodup) hc).1
    exact hlt ha

theorem keys_of_shows (hseen : ∀ a ∈ rows s, seen (dto a) = key a) :
    ((page key cursor limit (shows rows key (cursor, s))).map dto encode).data.map seen =
      (page key cursor limit (shows rows key (cursor, s))).data.map key :=
  keys_of_page fun a ha => hseen a (mem_kept.1 ha).1

theorem SkipWalked.last (hlimit : 0 < limit) (hnodup : ((rows s).map key).Nodup)
    (hget : get s (cursor.map encode) =
      .ok ((page key cursor limit (shows rows key (cursor, s))).map dto encode))
    (hknown : ∀ k ∈ cursor, known s k) (hseen : ∀ a ∈ rows s, seen (dto a) = key a)
    (hend : (page key cursor limit (shows rows key (cursor, s))).nextCursor = none) :
    SkipWalked get rows key known seen encode (s :: rest) cursor [(cursor, s)]
      [(page key cursor limit (shows rows key (cursor, s))).map dto encode] := by
  have hmapped : ((page key cursor limit (shows rows key (cursor, s))).map dto encode).nextCursor =
      none := by
    rw [Page.map, hend]
    rfl
  have hshown : ∀ a ∈ shows rows key (cursor, s), seen (dto a) = key a :=
    fun a ha => hseen a (mem_kept.1 ha).1
  refine ⟨walk_end hget hmapped, ?_, fun x hx => ?_,
    .last hlimit (nodup_kept hnodup) hshown hend, ?_, ?_⟩
  · simp only [Paging.fetches, hget, hmapped, List.map_cons, List.map_nil]
  · rw [List.mem_singleton.1 hx]
    exact ⟨List.mem_cons_self, hknown⟩
  · intro x hx c hc
    rw [List.mem_singleton.1 hx]
    exact ⟨c, hc, le_rfl⟩
  · intro x hx d hd
    rw [List.mem_singleton.1 hx] at hd
    rw [shownKeys_cons, keys_of_shows hseen, shownKeys, List.flatMap_nil, List.append_nil]
    exact (lost_not_mem limit hnodup hd).1

theorem SkipWalked.cons (hnodup : ((rows s).map key).Nodup)
    (hget : get s (cursor.map encode) =
      .ok ((page key cursor limit (shows rows key (cursor, s))).map dto encode))
    (hknown : ∀ k ∈ cursor, known s k) (hseen : ∀ a ∈ rows s, seen (dto a) = key a) {c : K}
    (hnext : (page key cursor limit (shows rows key (cursor, s))).nextCursor = some c)
    {fetched : List (Option K × S)} {pages : List (Page β C)}
    (hrest : SkipWalked get rows key known seen encode rest (some c) fetched pages) :
    SkipWalked get rows key known seen encode (s :: rest) cursor ((cursor, s) :: fetched)
      ((page key cursor limit (shows rows key (cursor, s))).map dto encode :: pages) := by
  have hmapped : ((page key cursor limit (shows rows key (cursor, s))).map dto encode).nextCursor =
      some (encode c) := by
    rw [Page.map, hnext]
    rfl
  have hshown : ∀ a ∈ shows rows key (cursor, s), seen (dto a) = key a :=
    fun a ha => hseen a (mem_kept.1 ha).1
  obtain ⟨⟨a, ha, rfl⟩, hmin, -, -⟩ := page_next (nodup_kept hnodup) hnext
  have hkept : ((shows rows key (cursor, s)).map key).Nodup := nodup_kept hnodup
  refine ⟨walk_next hget hmapped hrest.walk, ?_, fun x hx => ?_,
    .cons hkept hshown hnext hrest.walked, fun x hx c hc => ?_, fun x hx d hd => ?_⟩
  · have htail : Paging.fetches get rest (some (encode (key a))) =
        fetched.map fun x => (x.1.map encode, x.2) := hrest.fetches
    simp only [Paging.fetches, hget, hmapped, htail, List.map_cons]
  · rcases List.mem_cons.1 hx with rfl | hx
    · exact ⟨List.mem_cons_self, hknown⟩
    · exact ⟨List.mem_cons_of_mem _ (hrest.sent x hx).1, (hrest.sent x hx).2⟩
  · rcases List.mem_cons.1 hx with rfl | hx
    · exact ⟨c, hc, le_rfl⟩
    · obtain ⟨k, hk, hle⟩ := hrest.down x hx _ rfl
      exact ⟨k, hk, hle.trans ((mem_of_page ha).2 c hc).le⟩
  · rw [shownKeys_cons, keys_of_shows hseen, List.mem_append]
    rcases List.mem_cons.1 hx with rfl | hx
    · obtain ⟨hpage, hbelow⟩ := lost_not_mem limit hnodup hd
      rintro (hm | hm)
      · exact hpage hm
      · exact absurd (hrest.walked.below _ hm _ rfl) (hbelow _ hnext).asymm
    · rintro (hm | hm)
      · -- It is below the cursor that its page has, or one further down.
        obtain ⟨k, hk, hle⟩ := hrest.down x hx _ rfl
        obtain ⟨b, hb, hbd⟩ := List.mem_map.1 hm
        have hlt : key d < k := Below.of_lost hd k hk
        exact absurd (hmin b hb) (not_le.2 (hbd ▸ hlt.trans_le hle))
      · exact hrest.unshown x hx d hd hm

end Step

/-- A walk from a cursor that every state knows. -/
theorem Skips.walked (h : Skips get rows key limit known seen encode) (states : List S)
    (hstates : states.Pairwise fun s s' => ∀ a ∈ rows s, known s' (key a)) (cursor : Option K)
    (hc : ∀ s ∈ states, ∀ k ∈ cursor, known s k) :
    ∃ fetched pages, SkipWalked get rows key known seen encode states cursor fetched pages := by
  induction states generalizing cursor with
  | nil =>
    refine ⟨[], [], rfl, rfl, fun x hx => ?_, .nil, fun x hx => ?_, fun x hx => ?_⟩
    · cases hx
    · cases hx
    · cases hx
  | cons s rest ih =>
    obtain ⟨hknown, hrest⟩ := List.pairwise_cons.1 hstates
    have hfirst := hc s List.mem_cons_self
    obtain ⟨dto, hget, hseen⟩ := h.serves s cursor hfirst
    rw [skipPage_eq (h.keys s)] at hget
    cases hnext : (page key cursor limit (shows rows key (cursor, s))).nextCursor with
    | none => exact ⟨_, _, .last h.positive (h.keys s) hget hfirst hseen hnext⟩
    | some c =>
      obtain ⟨a, ha, rfl⟩ := (page_next (nodup_kept (h.keys s)) hnext).1
      have har : a ∈ rows s := (mem_kept.1 (mem_of_page ha).1).1
      have hcursor : ∀ s' ∈ rest, ∀ k ∈ some (key a), known s' k := by
        intro s' hs' k hk
        cases hk
        exact hknown s' hs' a har
      obtain ⟨fetched, pages, hwalked⟩ := ih hrest _ hcursor
      exact ⟨_, _, .cons (h.keys s) hget hfirst hseen hnext hwalked⟩

/-- Of the keys that stay, a walk to the end shows all exactly if it loses none. -/
theorem SkipWalked.complete_iff {states : List S} {fetched : List (Option K × S)}
    {pages : List (Page β C)}
    (h : SkipWalked get rows key known seen encode states none fetched pages)
    (hends : Ends pages) {Stays : K → Prop}
    (hstays : ∀ k, Stays k → ∀ x ∈ fetched, k ∈ (rows x.2).map key) :
    (∀ k, Stays k → k ∈ shownKeys seen pages) ↔
      ∀ x ∈ fetched, ∀ d ∈ lost key x.1 (rows x.2), ¬ Stays (key d) := by
  constructor
  · intro hall x hx d hd hs
    exact h.unshown x hx d hd (hall _ hs)
  · intro hlost k hs
    refine h.walked.complete hends k (fun c hc => by cases hc) fun x hx => ?_
    have hxf := List.mem_of_mem_take hx
    obtain ⟨a, ha, rfl⟩ := List.mem_map.1 (hstays k hs x hxf)
    refine List.mem_map_of_mem (mem_kept.2 ⟨ha, fun d hd heq => ?_⟩)
    exact hlost x hxf d hd (heq ▸ hs)

end Walks

end Paging
