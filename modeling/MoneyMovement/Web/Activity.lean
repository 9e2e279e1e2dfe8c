import MoneyMovement.Queries.Reads
import MoneyMovement.Txn.Reaches

/-!
# The activity list of the client

A first page replaces the list, and its load is aborted by the next one; a later page is
added to whatever list it finds. So the list is a walk of the current filter, unless a
later page comes for a list that has been replaced or extended, or the first page of
another filter fails to come.
-/

namespace MoneyMovement

open Txn

namespace UseActivity

section Hook

def DEFAULT_LIMIT : ℕ := 15

/-- `GET /activity`; `sent` counts the pages that had come when it was sent. -/
structure Request where
  type : Option ActivityType
  cursor : Option JsString
  limit : ℕ
  sent : ℕ
  deriving DecidableEq

structure Fetched where
  number : ℕ
  request : Request
  page : CursorPage ActivityItemDto
  deriving DecidableEq

/-- What the hook was rendered with, its state and its ref, the requests under way, and
the pages that came, latest first. -/
structure Hook where
  type : Option ActivityType
  limit : ℕ
  items : List ActivityItemDto
  nextCursor : Option JsString
  isLoading : Bool
  isLoadingMore : Bool
  error : Option JsString
  reloadToken : ℕ
  nextCursorRef : Option JsString
  /-- `isLoadingMore` as the callbacks of the last render see it. -/
  renderedLoadingMore : Bool
  /-- `reloadToken` as the last render had it. -/
  renderedToken : ℕ
  loading : Option Request
  aborted : List Request
  loadingMore : List Request
  received : List Fetched
  deriving DecidableEq

/-- The load before is aborted, and the first page asked for. -/
def Hook.effect (s : Hook) : Hook :=
  { s with
    aborted := s.aborted ++ s.loading.toList
    loading := some ⟨s.type, none, s.limit, s.received.length⟩
    isLoading := true
    error := none }

def Hook.rendered (type : Option ActivityType) (limit : ℕ) (s : Hook) : Hook :=
  { s with
    type := type
    limit := limit
    renderedLoadingMore := s.isLoadingMore
    renderedToken := s.reloadToken }

/-- The effect runs when the type, the limit or the token has changed. -/
def Hook.render (type : Option ActivityType) (limit : Option ℕ) (s : Hook) : Hook :=
  let limit := limit.getD DEFAULT_LIMIT
  if type = s.type ∧ limit = s.limit ∧ s.reloadToken = s.renderedToken then s.rendered type limit
  else (s.rendered type limit).effect

def Hook.reload (s : Hook) : Hook := { s with reloadToken := s.reloadToken + 1 }

def Hook.loadMore (s : Hook) : Hook :=
  match s.nextCursorRef with
  | none => s
  | some cursor =>
    if cursor = [] ∨ s.renderedLoadingMore then s
    else
      { s with
        isLoadingMore := true
        loadingMore := s.loadingMore ++ [⟨s.type, some cursor, s.limit, s.received.length⟩] }

def Hook.receive (request : Request) (page : CursorPage ActivityItemDto) (s : Hook) : Hook :=
  { s with
    nextCursor := page.nextCursor
    nextCursorRef := page.nextCursor
    received := ⟨s.received.length + 1, request, page⟩ :: s.received }

def Hook.firstPage (request : Request) (page : CursorPage ActivityItemDto) (s : Hook) : Hook :=
  { s.receive request page with items := page.data, isLoading := false, loading := none }

def Hook.firstFailed (cause : Option JsString) (s : Hook) : Hook :=
  { s with
    error := some (cause.getD (js "Could not load your activity."))
    isLoading := false
    loading := none }

def Hook.morePage (request : Request) (page : CursorPage ActivityItemDto) (s : Hook) : Hook :=
  { s.receive request page with items := s.items ++ page.data, isLoadingMore := false }

def Hook.moreFailed (cause : Option JsString) (s : Hook) : Hook :=
  { s with
    error := some (cause.getD (js "Could not load more activity."))
    isLoadingMore := false }

def Hook.mounted (type : Option ActivityType) (limit : Option ℕ) : Hook :=
  Hook.effect
    { type := type
      limit := limit.getD DEFAULT_LIMIT
      items := []
      nextCursor := none
      isLoading := true
      isLoadingMore := false
      error := none
      reloadToken := 0
      nextCursorRef := none
      renderedLoadingMore := false
      renderedToken := 0
      loading := none
      aborted := []
      loadingMore := []
      received := [] }

inductive Event
  | render (type : Option ActivityType) (limit : Option ℕ)
  | reload
  | loadMore
  | firstPage (page : CursorPage ActivityItemDto)
  | firstFailed (cause : Option JsString)
  /-- An aborted load settles, and is ignored. -/
  | ignored (i : ℕ)
  | morePage (i : ℕ) (page : CursorPage ActivityItemDto)
  | moreFailed (i : ℕ) (cause : Option JsString)

def Hook.step? (s : Hook) : Event → Option Hook
  | .render type limit => some (s.render type limit)
  | .reload => some s.reload
  | .loadMore => some s.loadMore
  | .firstPage page => s.loading.map fun request => s.firstPage request page
  | .firstFailed cause => s.loading.map fun _ => s.firstFailed cause
  | .ignored i => (s.aborted[i]?).map fun _ => { s with aborted := s.aborted.eraseIdx i }
  | .morePage i page =>
    (s.loadingMore[i]?).map fun request =>
      { s.morePage request page with loadingMore := s.loadingMore.eraseIdx i }
  | .moreFailed i cause =>
    (s.loadingMore[i]?).map fun _ =>
      { s.moreFailed cause with loadingMore := s.loadingMore.eraseIdx i }

end Hook

section Walk

/-- The list is made of these pages: they start with the latest first page of the current
type, each later one was asked for with the cursor of the one before it, and none is there
twice. -/
structure Hook.Walks (s : Hook) (pages : List Fetched) : Prop where
  received : pages.Sublist s.received.reverse
  once : (pages.map Fetched.number).Nodup
  first : pages.head? =
    s.received.find? fun f => f.request.cursor = none ∧ f.request.type = s.type
  types : ∀ f ∈ pages, f.request.type = s.type
  next : pages.IsChain fun f g =>
    g.request.sent = f.number ∧ g.request.cursor = f.page.nextCursor
  items : s.items = pages.flatMap (·.page.data)
  nextCursor : s.nextCursor = pages.getLast?.bind (·.page.nextCursor)
  nextCursorRef : s.nextCursorRef = s.nextCursor

/-- The last first page that came is of the type, and so is each page since, which was
asked for when the page before it was the last. -/
def Whole (type : Option ActivityType) : List Fetched → Prop
  | [] => True
  | f :: earlier => f.request.type = type ∧
      (f.request.cursor = none ∨ f.request.sent = earlier.length ∧ Whole type earlier)

instance decidableWhole (type : Option ActivityType) : ∀ l, Decidable (Whole type l)
  | [] => inferInstanceAs (Decidable True)
  | _ :: earlier =>
    haveI := decidableWhole type earlier
    inferInstanceAs (Decidable (_ ∧ (_ ∨ _ ∧ Whole type earlier)))

/-- No first page fails to come over a list of another type, or one that a wrong page was
added to; and with no first page under way, a later page is of the current type, and no
other page has come since it was asked for. -/
def Hook.Fits (s : Hook) : Event → Prop
  | .firstFailed _ => Whole s.type s.received
  | .morePage i _ => s.loading.isSome ∨
      ∀ request ∈ s.loadingMore[i]?, request.type = s.type ∧ request.sent = s.received.length
  | _ => True

instance (s : Hook) (e : Event) : Decidable (s.Fits e) := by
  cases e <;> unfold Hook.Fits <;> infer_instance

end Walk

section Pages

variable {type : Option ActivityType} {received : List Fetched}

def listed : List Fetched → List Fetched
  | [] => []
  | f :: earlier => if f.request.cursor = none then [f] else listed earlier ++ [f]

def lastCursor (received : List Fetched) : Option JsString :=
  received.head?.bind (·.page.nextCursor)

/-- A page that was asked for when another was the last was asked for with its cursor. -/
def Recorded : List Fetched → Prop
  | [] => True
  | f :: earlier => f.number = earlier.length + 1 ∧
      (f.request.cursor ≠ none → f.request.sent = earlier.length →
        f.request.cursor = lastCursor earlier) ∧ Recorded earlier

theorem listed_sublist : (listed received).Sublist received.reverse := by
  induction received with
  | nil => exact .refl _
  | cons f earlier ih =>
    rw [List.reverse_cons, listed]
    split_ifs
    · exact List.sublist_append_right _ _
    · exact ih.append_right _

theorem listed_getLast? : (listed received).getLast? = received.head? := by
  cases received with
  | nil => rfl
  | cons f earlier =>
    rw [listed]
    split_ifs
    · rfl
    · exact List.getLast?_concat

theorem listed_types (h : Whole type received) : ∀ f ∈ listed received, f.request.type = type := by
  induction received with
  | nil => simp [listed]
  | cons f earlier ih =>
    obtain ⟨htype, hrest⟩ := h
    intro g hg
    rw [listed] at hg
    split_ifs at hg with hcursor
    · rw [List.mem_singleton.1 hg, htype]
    · rcases List.mem_append.1 hg with hg | hg
      · exact ih (hrest.resolve_left hcursor).2 g hg
      · rw [List.mem_singleton.1 hg, htype]

theorem listed_head? (h : Whole type received) (hrecorded : Recorded received) :
    (listed received).head? =
      received.find? fun f => f.request.cursor = none ∧ f.request.type = type := by
  induction received with
  | nil => rfl
  | cons f earlier ih =>
    obtain ⟨htype, hrest⟩ := h
    obtain ⟨-, hlast, hrecorded⟩ := hrecorded
    rw [listed]
    split_ifs with hcursor
    · simp [hcursor, htype]
    · obtain ⟨hsent, hwhole⟩ := hrest.resolve_left hcursor
      rw [List.find?_cons_of_neg (by simp [hcursor]), ← ih hwhole hrecorded]
      cases hl : listed earlier with
      | nil =>
        -- There would be no page whose cursor this one was asked for with.
        have hnone : earlier.head? = none := by rw [← listed_getLast?, hl, List.getLast?_nil]
        have hbad := hlast hcursor hsent
        rw [lastCursor, hnone] at hbad
        exact absurd hbad hcursor
      | cons g rest => rfl

theorem listed_next (h : Whole type received) (hrecorded : Recorded received) :
    (listed received).IsChain fun f g =>
      g.request.sent = f.number ∧ g.request.cursor = f.page.nextCursor := by
  induction received with
  | nil => exact .nil
  | cons f earlier ih =>
    obtain ⟨-, hrest⟩ := h
    obtain ⟨-, hlast, hrecorded⟩ := hrecorded
    rw [listed]
    split_ifs with hcursor
    · exact .singleton f
    · obtain ⟨hsent, hwhole⟩ := hrest.resolve_left hcursor
      refine List.isChain_append.2 ⟨ih hwhole hrecorded, .singleton f, fun g hg k hk => ?_⟩
      cases hk
      rw [listed_getLast?] at hg
      have hcursors := hlast hcursor hsent
      rw [lastCursor, hg] at hcursors
      cases earlier with
      | nil => cases hg
      | cons g' rest =>
        cases hg
        exact ⟨hsent.trans hrecorded.1.symm, hcursors⟩

theorem Recorded.numbers_le (h : Recorded received) :
    ∀ f ∈ received, f.number ≤ received.length := by
  induction received with
  | nil => simp
  | cons f earlier ih =>
    obtain ⟨hnumber, -, hrest⟩ := h
    intro g hg
    rcases List.mem_cons.1 hg with rfl | hg
    · exact hnumber.le
    · exact (ih hrest g hg).trans (Nat.le_succ _)

theorem Recorded.nodup (h : Recorded received) : (received.map Fetched.number).Nodup := by
  induction received with
  | nil => exact List.nodup_nil
  | cons f earlier ih =>
    obtain ⟨hnumber, -, hrest⟩ := h
    refine List.nodup_cons.2 ⟨fun hmem => ?_, ih hrest⟩
    obtain ⟨g, hg, hsame⟩ := List.mem_map.1 hmem
    have := hrest.numbers_le g hg
    omega

end Pages

section Runs

variable {s s' : Hook} {e : Event}

/-- What holds of every run: the list is what was added since the last first page. -/
structure Hook.Kept (s : Hook) : Prop where
  recorded : Recorded s.received
  items : s.items = (listed s.received).flatMap (·.page.data)
  nextCursor : s.nextCursor = lastCursor s.received
  nextCursorRef : s.nextCursorRef = s.nextCursor
  isLoading : s.isLoading = s.loading.isSome
  loading : ∀ l ∈ s.loading, l.type = s.type ∧ l.cursor = none
  loadingMore : ∀ m ∈ s.loadingMore, m.cursor ≠ none ∧ m.sent ≤ s.received.length ∧
    (m.sent = s.received.length → m.cursor = s.nextCursor)

theorem Hook.Kept.mounted (type : Option ActivityType) (limit : Option ℕ) :
    (Hook.mounted type limit).Kept := by
  refine ⟨trivial, rfl, rfl, rfl, rfl, ?_, ?_⟩
  · rintro l ⟨⟩
    exact ⟨rfl, rfl⟩
  · rintro m ⟨⟩

theorem render_cases (s : Hook) (type : Option ActivityType) (limit : Option ℕ) :
    (type = s.type ∧ s.render type limit = s.rendered type (limit.getD DEFAULT_LIMIT)) ∨
      s.render type limit = (s.rendered type (limit.getD DEFAULT_LIMIT)).effect := by
  by_cases hsame : type = s.type ∧ limit.getD DEFAULT_LIMIT = s.limit ∧
      s.reloadToken = s.renderedToken
  · exact Or.inl ⟨hsame.1, if_pos hsame⟩
  · exact Or.inr (if_neg hsame)

theorem Hook.Kept.render (h : s.Kept) (type : Option ActivityType) (limit : Option ℕ) :
    (s.render type limit).Kept := by
  rcases render_cases s type limit with ⟨rfl, hrender⟩ | hrender <;> rw [hrender]
  · exact ⟨h.recorded, h.items, h.nextCursor, h.nextCursorRef, h.isLoading, h.loading,
      h.loadingMore⟩
  · refine ⟨h.recorded, h.items, h.nextCursor, h.nextCursorRef, rfl, ?_, h.loadingMore⟩
    rintro l ⟨⟩
    exact ⟨rfl, rfl⟩

theorem Hook.Kept.loadMore (h : s.Kept) : s.loadMore.Kept := by
  unfold Hook.loadMore
  split
  · exact h
  · next cursor hcursor =>
    split_ifs
    · exact h
    · refine ⟨h.recorded, h.items, h.nextCursor, h.nextCursorRef, h.isLoading, h.loading,
        fun m hm => ?_⟩
      rcases List.mem_append.1 hm with hm | hm
      · exact h.loadingMore m hm
      · rw [List.mem_singleton.1 hm, ← h.nextCursorRef, hcursor]
        exact ⟨Option.some_ne_none cursor, le_rfl, fun _ => rfl⟩

/-- A page asked for before another one came was not asked for with its cursor. -/
theorem Hook.Kept.received (h : s.Kept) (cursor : Option JsString) :
    ∀ m ∈ s.loadingMore, m.cursor ≠ none ∧ m.sent ≤ s.received.length + 1 ∧
      (m.sent = s.received.length + 1 → m.cursor = cursor) := by
  intro m hm
  obtain ⟨hcursor, hsent, -⟩ := h.loadingMore m hm
  exact ⟨hcursor, hsent.trans (Nat.le_succ _), fun hlater => absurd hlater (by omega)⟩

theorem Hook.Kept.firstPage (h : s.Kept) {request : Request} (hrequest : request.cursor = none)
    (page : CursorPage ActivityItemDto) : (s.firstPage request page).Kept := by
  refine ⟨⟨rfl, fun hcursor => absurd hrequest hcursor, h.recorded⟩, ?_, rfl, rfl, rfl, ?_,
    h.received _⟩
  · simp [Hook.firstPage, Hook.receive, listed, hrequest]
  · rintro l ⟨⟩

theorem Hook.Kept.morePage (h : s.Kept) {request : Request} (hrequest : request ∈ s.loadingMore)
    (page : CursorPage ActivityItemDto) {loadingMore : List Request}
    (hsub : ∀ m ∈ loadingMore, m ∈ s.loadingMore) :
    Hook.Kept { s.morePage request page with loadingMore := loadingMore } := by
  obtain ⟨hcursor, -, hlast⟩ := h.loadingMore request hrequest
  refine ⟨⟨rfl, fun _ hsent => (hlast hsent).trans h.nextCursor, h.recorded⟩, ?_, rfl, rfl,
    h.isLoading, h.loading, fun m hm => h.received _ m (hsub m hm)⟩
  simp [Hook.morePage, Hook.receive, listed, hcursor, h.items]

theorem Hook.Kept.step (h : s.Kept) (hs : s.step? e = some s') : s'.Kept := by
  cases e with
  | render type limit =>
    cases hs
    exact h.render type limit
  | reload =>
    cases hs
    exact ⟨h.recorded, h.items, h.nextCursor, h.nextCursorRef, h.isLoading, h.loading,
      h.loadingMore⟩
  | loadMore =>
    cases hs
    exact h.loadMore
  | firstPage page =>
    obtain ⟨request, hrequest, rfl⟩ := Option.map_eq_some_iff.1 hs
    exact h.firstPage (h.loading request hrequest).2 page
  | firstFailed cause =>
    obtain ⟨request, -, rfl⟩ := Option.map_eq_some_iff.1 hs
    refine ⟨h.recorded, h.items, h.nextCursor, h.nextCursorRef, rfl, ?_, h.loadingMore⟩
    rintro l ⟨⟩
  | ignored i =>
    obtain ⟨request, -, rfl⟩ := Option.map_eq_some_iff.1 hs
    exact ⟨h.recorded, h.items, h.nextCursor, h.nextCursorRef, h.isLoading, h.loading,
      h.loadingMore⟩
  | morePage i page =>
    obtain ⟨request, hrequest, rfl⟩ := Option.map_eq_some_iff.1 hs
    exact h.morePage (List.mem_of_getElem? hrequest) page fun m => List.mem_of_mem_eraseIdx
  | moreFailed i cause =>
    obtain ⟨request, -, rfl⟩ := Option.map_eq_some_iff.1 hs
    exact ⟨h.recorded, h.items, h.nextCursor, h.nextCursorRef, h.isLoading, h.loading,
      fun m hm => h.loadingMore m (List.mem_of_mem_eraseIdx hm)⟩

/-- With no first page under way the list is whole, if every step fits. -/
theorem Hook.whole_step (h : s.Kept) (hwhole : s.loading = none → Whole s.type s.received)
    (hfits : s.Fits e) (hs : s.step? e = some s') :
    s'.loading = none → Whole s'.type s'.received := by
  cases e with
  | render type limit =>
    cases hs
    rcases render_cases s type limit with ⟨rfl, hrender⟩ | hrender <;> rw [hrender]
    · exact hwhole
    · rintro ⟨⟩
  | reload =>
    cases hs
    exact hwhole
  | loadMore =>
    cases hs
    unfold Hook.loadMore
    split
    · exact hwhole
    · split_ifs <;> exact hwhole
  | firstPage page =>
    obtain ⟨request, hrequest, rfl⟩ := Option.map_eq_some_iff.1 hs
    obtain ⟨htype, hcursor⟩ := h.loading request hrequest
    exact fun _ => ⟨htype, Or.inl hcursor⟩
  | firstFailed cause =>
    obtain ⟨request, -, rfl⟩ := Option.map_eq_some_iff.1 hs
    exact fun _ => hfits
  | ignored i =>
    obtain ⟨request, -, rfl⟩ := Option.map_eq_some_iff.1 hs
    exact hwhole
  | morePage i page =>
    obtain ⟨request, hrequest, rfl⟩ := Option.map_eq_some_iff.1 hs
    intro hidle
    have hnone : s.loading = none := hidle
    rcases hfits with hloading | hnext
    · rw [hnone] at hloading
      cases hloading
    · obtain ⟨htype, hsent⟩ := hnext request hrequest
      exact ⟨htype, Or.inr ⟨hsent, hwhole hnone⟩⟩
  | moreFailed i cause =>
    obtain ⟨request, -, rfl⟩ := Option.map_eq_some_iff.1 hs
    exact hwhole

theorem Hook.Kept.walks (h : s.Kept) (hwhole : Whole s.type s.received) :
    s.Walks (listed s.received) where
  received := listed_sublist
  once := by
    refine List.Nodup.sublist (listed_sublist.map _) ?_
    rw [List.map_reverse]
    exact List.nodup_reverse.2 h.recorded.nodup
  first := listed_head? hwhole h.recorded
  types := listed_types hwhole
  next := listed_next hwhole h.recorded
  items := h.items
  nextCursor := by rw [h.nextCursor, listed_getLast?, lastCursor]
  nextCursorRef := h.nextCursorRef

/-- In every run whose steps all fit, the list is a walk of the current type whenever no
first page is under way. -/
theorem list_walks {type : Option ActivityType} {limit : Option ℕ}
    (h : Reaches Hook.step? Hook.Fits (Hook.mounted type limit) s) (hidle : s.loading = none) :
    ∃ pages, s.Walks pages := by
  have hall : s.Kept ∧ (s.loading = none → Whole s.type s.received) := by
    clear hidle
    induction h with
    | refl => exact ⟨.mounted type limit, fun _ => trivial⟩
    | tail e _ hfits hs ih => exact ⟨ih.1.step hs, Hook.whole_step ih.1 ih.2 hfits hs⟩
  exact ⟨_, hall.1.walks (hall.2 hidle)⟩

/-- Each item of a walk is of a page of the current type. -/
theorem Hook.Walks.typed {pages : List Fetched} (h : s.Walks pages) :
    ∀ item ∈ s.items, ∃ f ∈ s.received, f.request.type = s.type ∧ item ∈ f.page.data := by
  intro item hitem
  rw [h.items] at hitem
  obtain ⟨f, hf, hdata⟩ := List.mem_flatMap.1 hitem
  exact ⟨f, List.mem_reverse.1 (h.received.subset hf), h.types f hf, hdata⟩

section Samples

def sampleItem (type : ActivityType) (referenceId : Uuid) : ActivityItemDto where
  activityId := []
  referenceId := referenceId
  type := type
  direction := .OUT
  amountMinor := 500
  currency := .BDT
  status := .transfer .SUCCEEDED
  counterparty := none
  createdAt := js "2026-01-01T00:00:00.000Z"
  relatedRequestId := none
  relatedTransferId := none

def samplePage (type : ActivityType) (referenceId : Uuid) (last : Bool) :
    CursorPage ActivityItemDto :=
  ⟨[sampleItem type referenceId], if last then none else some (js "more")⟩

/-- A second page comes after the filter has changed and is replaced by the new first page;
then a reload fails, and the next page is added to the list it left. -/
theorem list_walks_after_reload : ∃ s : Hook, s.items.length = 2 ∧ s.loading = none ∧
    ∃ pages, s.Walks pages := by
  have hrun : (runs (permitted Hook.step? Hook.Fits) (Hook.mounted none none)
      [.firstPage (samplePage .TRANSFER 1 false), .render none none, .loadMore,
        .render (some .TRANSFER) none, .morePage 0 (samplePage .TRANSFER 2 false),
        .firstPage (samplePage .TRANSFER 1 false), .reload, .render (some .TRANSFER) none,
        .firstFailed none, .loadMore, .morePage 0 (samplePage .TRANSFER 2 true)]).any
        (fun s => s.items.length = 2 ∧ s.loading = none) := by
    decide +kernel
  obtain ⟨s, hs, hend⟩ := (Option.any_eq_true _ _).1 hrun
  obtain ⟨hlength, hidle⟩ := of_decide_eq_true hend
  exact ⟨s, hlength, hidle, list_walks (reaches_of_permitted hs) hidle⟩

/-- The filter changes while a second page is under way, which comes last. -/
theorem later_page_of_another_filter :
    ¬ ∀ s, Reaches Hook.step? (fun _ _ => True) (Hook.mounted none none) s →
      s.loading = none → ∃ pages, s.Walks pages := by
  intro hall
  have hrun : (runs Hook.step? (Hook.mounted none none)
      [.firstPage (samplePage .MONEY_REQUEST 1 false), .render none none, .loadMore,
        .render (some .TRANSFER) none, .firstPage (samplePage .TRANSFER 2 true),
        .morePage 0 (samplePage .MONEY_REQUEST 3 true)]).any
        (fun s => s.loading = none ∧ ∃ item ∈ s.items, ∀ f ∈ s.received,
          f.request.type = s.type → item ∉ f.page.data) := by
    decide +kernel
  obtain ⟨s, hs, hend⟩ := (Option.any_eq_true _ _).1 hrun
  obtain ⟨hidle, item, hitem, hno⟩ := of_decide_eq_true hend
  obtain ⟨pages, hpages⟩ := hall s (reaches_of_runs hs fun _ _ _ => trivial) hidle
  obtain ⟨f, hf, htype, hdata⟩ := hpages.typed item hitem
  exact hno f hf htype hdata

end Samples

end Runs

end UseActivity

end MoneyMovement
