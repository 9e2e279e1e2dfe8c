import MoneyMovement.Paging.Skip
import MoneyMovement.Queries.Cursors
import MoneyMovement.Queries.Reads
import MoneyMovement.Runs.Interleavings

/-!
# The user search

The cursor of the search is the id of the last user shown, and the next page skips one
row from that user's position on. A user who is suspended between two pages is not
there to be skipped, and then the next one is.
-/

namespace MoneyMovement

open Paging TransferService Txn

section Model

/-- How the database compares names and addresses. -/
structure SearchConfig where
  collation : LinearOrder JsString
  /-- `contains` with `mode: 'insensitive'`. -/
  containsInsensitive : JsString → JsString → Bool
  toLowerCase : JsString → JsString
  /-- Equality of CITEXT columns. -/
  sameCitext : JsString → JsString → Bool

def Name (_ : SearchConfig) : Type := JsString

instance (cfg : SearchConfig) : LinearOrder (Name cfg) := cfg.collation

/-- `ORDER BY display_name ASC, id ASC`; the first position is the highest. -/
abbrev NamePosition (cfg : SearchConfig) := (Name cfg ×ₗ Uuid)ᵒᵈ

def namePosition (cfg : SearchConfig) (displayName : JsString) (id : Uuid) : NamePosition cfg :=
  OrderDual.toDual (toLex ((displayName : Name cfg), id))

def User.position (cfg : SearchConfig) (u : User) : NamePosition cfg :=
  namePosition cfg u.displayName u.id

structure SearchUsersCriteria where
  query : JsString
  excludeUserId : Uuid
  cursorId : Option Uuid
  take : ℕ

namespace UsersRepository

def atSign : CodeUnit := 0x40

/-- The `where` of the search. -/
def Found (cfg : SearchConfig) (query : JsString) (excludeUserId : Uuid) (u : User) : Prop :=
  u.id ≠ excludeUserId ∧ u.status = .ACTIVE ∧
    if query.contains atSign then cfg.sameCitext u.email (cfg.toLowerCase query)
    else cfg.containsInsensitive u.displayName query

instance (cfg : SearchConfig) (query : JsString) (excludeUserId : Uuid) :
    DecidablePred (Found cfg query excludeUserId) := fun _ => instDecidableAnd

def found (cfg : SearchConfig) (query : JsString) (excludeUserId : Uuid) (users : List User) :
    List User :=
  users.filter fun u => Found cfg query excludeUserId u

/-- With a cursor, Prisma takes the rows from the position of its row on, and skips one. -/
def search (cfg : SearchConfig) (criteria : SearchUsersCriteria) (users : List User) : List User :=
  let rows := found cfg criteria.query criteria.excludeUserId users
  match criteria.cursorId with
  | none => (orderBy (User.position cfg) rows).take criteria.take
  | some id =>
    match users.find? (·.id = id) with
    | none => []
    | some anchor =>
      ((orderBy (User.position cfg) (rows.filter fun u =>
        u.position cfg ≤ anchor.position cfg)).drop 1).take criteria.take

end UsersRepository

/-- `slice(0, 1)` is the first code unit. -/
def maskEmail (email : JsString) : JsString :=
  match email.idxOf? UsersRepository.atSign with
  | none | some 0 => email
  | some (i + 1) => email.take 1 ++ js "***" ++ email.drop (i + 1)

structure UserSearchResultDto where
  id : Uuid
  displayName : JsString
  maskedEmail : JsString
  deriving DecidableEq

def toUserSearchResultDto (user : User) : UserSearchResultDto where
  id := user.id
  displayName := user.displayName
  maskedEmail := maskEmail user.email

structure SearchUsersQuery where
  q : JsString
  cursor : Option JsString
  limit : { n : ℕ // 0 < n ∧ n ≤ 20 }

namespace UsersService

/-- The database reads an id in any case. -/
def decodeAndValidateCursor (cursor : JsString) : Except Failure Uuid :=
  match parseUuid (decodeCursor cursor) with
  | some id => .ok id
  | none => .error invalidCursor

def cursorId? (cursor : Option JsString) : Except Failure (Option Uuid) :=
  match cursor.filter (· ≠ []) with
  | none => .ok none
  | some raw => (decodeAndValidateCursor raw).map some

def search (cfg : SearchConfig) (db : Db) (query : SearchUsersQuery) (currentUserId : Uuid) :
    Except Failure (CursorPage UserSearchResultDto) := do
  let cursorId ← cursorId? query.cursor
  let rows := UsersRepository.search cfg
    { query := query.q, excludeUserId := currentUserId, cursorId, take := query.limit.val + 1 }
    db.users
  return (cut query.limit.val (fun u => encodeCursor u.id) rows).map toUserSearchResultDto id

end UsersService

end Model

section Directories

/-- The database as the search finds it: ids are unique. -/
structure Directory where
  db : Db
  ids : (db.users.map User.id).Nodup

inductive UserChange
  | register (r : Registration)
  | setStatus (userId : Uuid) (status : UserStatus)

def User.withStatus (userId : Uuid) (status : UserStatus) (u : User) : User :=
  if u.id = userId then { u with status } else u

theorem User.withStatus_kept (userId : Uuid) (status : UserStatus) (u : User) :
    (u.withStatus userId status).id = u.id ∧
      (u.withStatus userId status).displayName = u.displayName := by
  unfold User.withStatus
  split_ifs <;> exact ⟨rfl, rfl⟩

theorem register_users {r : Registration} {db db' : Db} (h : register r db = some db') :
    ∃ u : User, db'.users = db.users ++ [u] ∧ u.id ∉ db.users.map User.id := by
  unfold register at h
  split_ifs at h with hnone
  cases h
  refine ⟨_, rfl, fun hm => hnone (Or.inl ?_)⟩
  obtain ⟨u, hu, hid⟩ := List.mem_map.1 hm
  exact List.find?_isSome.2 ⟨u, hu, decide_eq_true hid⟩

theorem map_withStatus_ids (userId : Uuid) (status : UserStatus) (users : List User) :
    (users.map (User.withStatus userId status)).map User.id = users.map User.id := by
  rw [List.map_map]
  exact List.map_congr_left fun u _ => (u.withStatus_kept userId status).1

namespace Directory

/-- A registration that is refused changes nothing. -/
def change (d : Directory) : UserChange → Directory
  | .register r =>
    match h : register r d.db with
    | none => d
    | some db' =>
      { db := db'
        ids := by
          obtain ⟨u, hu, hid⟩ := register_users h
          rw [hu, List.map_append, List.nodup_append]
          refine ⟨d.ids, List.nodup_singleton _, fun x hx y hy => ?_⟩
          rw [List.map_singleton, List.mem_singleton] at hy
          rintro rfl
          exact hid (hy ▸ hx) }
  | .setStatus userId status =>
    { db := { d.db with users := d.db.users.map (User.withStatus userId status) }
      ids := by
        rw [map_withStatus_ids]
        exact d.ids }

def passing : Directory → List UserChange → List Directory
  | _, [] => []
  | d, c :: rest => d.change c :: passing (d.change c) rest

end Directory

/-- No user goes, and no user is renamed. -/
def Later (d d' : Directory) : Prop :=
  ∀ u ∈ d.db.users, ∃ u' ∈ d'.db.users, u'.id = u.id ∧ u'.displayName = u.displayName

theorem Later.refl (d : Directory) : Later d d := fun u hu => ⟨u, hu, rfl, rfl⟩

theorem Later.trans {d d' d'' : Directory} (h : Later d d') (h' : Later d' d'') : Later d d'' := by
  intro u hu
  obtain ⟨v, hv, hid, hname⟩ := h u hu
  obtain ⟨w, hw, hid', hname'⟩ := h' v hv
  exact ⟨w, hw, hid'.trans hid, hname'.trans hname⟩

theorem later_change (d : Directory) (c : UserChange) : Later d (d.change c) := by
  intro u hu
  cases c with
  | register r =>
    rw [Directory.change]
    split
    · exact ⟨u, hu, rfl, rfl⟩
    · rename_i db' h
      obtain ⟨v, hv, -⟩ := register_users h
      exact ⟨u, hv ▸ List.mem_append_left _ hu, rfl, rfl⟩
  | setStatus userId status =>
    exact ⟨_, List.mem_map_of_mem hu, u.withStatus_kept userId status⟩

theorem later_foldl (d : Directory) (changes : List UserChange) :
    Later d (changes.foldl Directory.change d) := by
  induction changes generalizing d with
  | nil => exact .refl d
  | cons c rest ih => exact (later_change d c).trans (ih (d.change c))

/-- What a page finds, and what there has been since the page before. -/
structure Moment where
  since : List Directory
  now : Directory

def Directory.later : Directory → List (List UserChange) → List Moment
  | _, [] => []
  | d, changes :: rest =>
    ⟨d.passing changes, changes.foldl change d⟩ :: later (changes.foldl change d) rest

def Directory.moments (d : Directory) (changes : List (List UserChange)) : List Moment :=
  ⟨[], d⟩ :: d.later changes

theorem later_moments {d : Directory} {changes : List (List UserChange)} {m : Moment}
    (h : m ∈ d.moments changes) : Later d m.now := by
  induction changes generalizing d with
  | nil =>
    rw [List.mem_singleton.1 h]
    exact .refl d
  | cons c rest ih =>
    rcases List.mem_cons.1 h with rfl | h
    · exact .refl _
    · rcases List.mem_cons.1 h with rfl | h
      · exact later_foldl d c
      · exact (later_foldl d c).trans (ih (List.mem_cons_of_mem _ h))

theorem pairwise_moments (d : Directory) (changes : List (List UserChange)) :
    (d.moments changes).Pairwise fun m m' => Later m.now m'.now := by
  induction changes generalizing d with
  | nil => exact List.pairwise_singleton _ _
  | cons c rest ih =>
    obtain ⟨hlater, hrest⟩ := List.pairwise_cons.1 (ih (c.foldl Directory.change d))
    refine List.pairwise_cons.2 ⟨fun m hm => later_moments (List.mem_cons_of_mem _ hm), ?_⟩
    exact List.pairwise_cons.2 ⟨hlater, hrest⟩

/-- A user has one name at all pages. -/
theorem exists_names (d : Directory) (changes : List (List UserChange)) :
    ∃ name : Uuid → JsString, ∀ m ∈ d.moments changes, ∀ u ∈ m.now.db.users,
      u.displayName = name u.id := by
  induction changes generalizing d with
  | nil =>
    refine ⟨fun id => ((d.db.users.find? (·.id = id)).map User.displayName).getD [], ?_⟩
    intro m hm u hu
    rw [List.mem_singleton.1 hm] at hu
    show _ = ((d.db.users.find? (·.id = u.id)).map User.displayName).getD []
    rw [find?_eq_of_nodup d.ids hu]
    rfl
  | cons c rest ih =>
    obtain ⟨name, hname⟩ := ih (c.foldl Directory.change d)
    refine ⟨name, fun m hm u hu => ?_⟩
    rcases List.mem_cons.1 hm with rfl | hm
    · obtain ⟨u', hu', hid, hsame⟩ := later_foldl d c u hu
      rw [← hsame, ← hid]
      exact hname _ List.mem_cons_self u' hu'
    · rcases List.mem_cons.1 hm with rfl | hm
      · exact hname _ List.mem_cons_self u hu
      · exact hname m (List.mem_cons_of_mem _ hm) u hu

end Directories

section Pages

open UsersRepository UsersService

variable {cfg : SearchConfig} {userId : Uuid} {q : JsString} {limit : { n : ℕ // 0 < n ∧ n ≤ 20 }}

def NamePosition.id (k : NamePosition cfg) : Uuid := (ofLex (OrderDual.ofDual k)).2

def encodeName (k : NamePosition cfg) : JsString := encodeCursor (NamePosition.id k)

theorem encodeCursor_ne (id : Uuid) : encodeCursor id ≠ [] := by
  intro hnil
  have hread : parseUuid (decodeCursor (encodeCursor id)) = some id := by
    rw [decodeCursor_encode, parseUuid_text]
  have hempty : parseUuid (decodeCursor []) = none := rfl
  rw [hnil, hempty] at hread
  cases hread

theorem decodeAndValidateCursor_encode (id : Uuid) :
    decodeAndValidateCursor (encodeCursor id) = .ok id := by
  rw [decodeAndValidateCursor, decodeCursor_encode, parseUuid_text]

theorem cursorId?_encode (cursor : Option (NamePosition cfg)) :
    cursorId? (cursor.map encodeName) = .ok (cursor.map NamePosition.id) := by
  cases cursor with
  | none => rfl
  | some k =>
    have hne : encodeName k ≠ [] := encodeCursor_ne _
    have hread : decodeAndValidateCursor (encodeName k) = .ok k.id :=
      decodeAndValidateCursor_encode _
    simp only [cursorId?, Option.map_some, Option.filter_some, hne, ne_eq, not_false_eq_true,
      decide_true, if_true, hread, Except.map]

theorem nodup_found (d : Directory) :
    ((found cfg q userId d.db.users).map (User.position cfg)).Nodup := by
  refine List.Nodup.of_map NamePosition.id ?_
  rw [List.map_map]
  exact d.ids.sublist (List.filter_sublist.map _)

/-- A user's row is found by the cursor made of it. -/
theorem find?_position {d : Directory} {k : NamePosition cfg}
    (hk : ∃ u ∈ d.db.users, u.position cfg = k) :
    ∃ u, d.db.users.find? (·.id = k.id) = some u ∧ u.position cfg = k := by
  obtain ⟨u, hu, rfl⟩ := hk
  exact ⟨u, find?_eq_of_nodup d.ids hu, rfl⟩

theorem search_rows (d : Directory) (cursor : Option (NamePosition cfg))
    (hc : ∀ k ∈ cursor, ∃ u ∈ d.db.users, u.position cfg = k) :
    UsersRepository.search cfg ⟨q, userId, cursor.map NamePosition.id, limit.val + 1⟩ d.db.users =
      skipFetch (User.position cfg) cursor limit.val (found cfg q userId d.db.users) := by
  cases cursor with
  | none => rfl
  | some k =>
    obtain ⟨u, hu, rfl⟩ := find?_position (hc k rfl)
    simp only [UsersRepository.search, Option.map_some, hu]
    rfl

theorem search_skips (cfg : SearchConfig) (q : JsString) (userId : Uuid)
    (limit : { n : ℕ // 0 < n ∧ n ≤ 20 }) : Skips
    (fun (m : Moment) cursor => UsersService.search cfg m.now.db ⟨q, cursor, limit⟩ userId)
    (fun m => found cfg q userId m.now.db.users) (User.position cfg) limit.val
    (fun m k => ∃ u ∈ m.now.db.users, u.position cfg = k)
    (fun dto => namePosition cfg dto.displayName dto.id) encodeName where
  positive := limit.property.1
  keys m := nodup_found m.now
  serves m cursor hc := by
    refine ⟨toUserSearchResultDto, ?_, fun u _ => rfl⟩
    have hcursor : (fun u : User => encodeCursor u.id) = fun u => encodeName (u.position cfg) := rfl
    simp only [UsersService.search, cursorId?_encode, ok_bind, search_rows m.now cursor hc, hcursor]
    exact congrArg Except.ok (cut_comp toUserSearchResultDto encodeName)

end Pages

section Walks

open UsersRepository UsersService

def Matches (cfg : SearchConfig) (q : JsString) (userId id : Uuid) (d : Directory) : Prop :=
  ∃ u ∈ found cfg q userId d.db.users, u.id = id

def StaysMatched (cfg : SearchConfig) (q : JsString) (userId : Uuid)
    (fetched : List (Option JsString × Moment)) (id : Uuid) : Prop :=
  ∀ x ∈ fetched, Matches cfg q userId id x.2.now ∧ ∀ d ∈ x.2.since, Matches cfg q userId id d

instance (cfg : SearchConfig) (q : JsString) (userId id : Uuid) (d : Directory) :
    Decidable (Matches cfg q userId id d) := inferInstanceAs (Decidable (∃ u ∈ found _ _ _ _, _))

instance (cfg : SearchConfig) (q : JsString) (userId : Uuid)
    (fetched : List (Option JsString × Moment)) (id : Uuid) :
    Decidable (StaysMatched cfg q userId fetched id) :=
  List.decidableBAll (fun x : Option JsString × Moment => Matches cfg q userId id x.2.now ∧
    ∀ d ∈ x.2.since, Matches cfg q userId id d) fetched

/-- The first match after the user the cursor names, where that user is no match any more. -/
def misplaced (cfg : SearchConfig) (q : JsString) (userId : Uuid) (cursor : Option JsString)
    (d : Directory) : Option User :=
  match cursorId? cursor with
  | .ok (some id) =>
    (d.db.users.find? (·.id = id)).bind fun anchor =>
      if Found cfg q userId anchor then none
      else (orderBy (User.position cfg) ((found cfg q userId d.db.users).filter fun u =>
        u.position cfg < anchor.position cfg)).head?
  | _ => none

def shownIds (pages : List (CursorPage UserSearchResultDto)) : List Uuid :=
  pages.flatMap fun p => p.data.map UserSearchResultDto.id

/-- Nobody is shown twice, and who stays a match is shown once. -/
def LosesNobody (cfg : SearchConfig) (q : JsString) (userId : Uuid)
    (fetched : List (Option JsString × Moment)) (pages : List (CursorPage UserSearchResultDto)) :
    Prop :=
  (shownIds pages).Nodup ∧
    ∀ id, StaysMatched cfg q userId fetched id → (shownIds pages).count id = 1

variable {cfg : SearchConfig} {userId : Uuid} {q : JsString}

theorem misplaced_eq {d : Directory} {cursor : Option (NamePosition cfg)}
    (hc : ∀ k ∈ cursor, ∃ u ∈ d.db.users, u.position cfg = k) :
    misplaced cfg q userId (cursor.map encodeName) d =
      lost (User.position cfg) cursor (found cfg q userId d.db.users) := by
  cases cursor with
  | none => rfl
  | some k =>
    obtain ⟨u, hu, rfl⟩ := find?_position (hc k rfl)
    have hmem : u.position cfg ∈ (found cfg q userId d.db.users).map (User.position cfg) ↔
        Found cfg q userId u := by
      constructor
      · intro hm
        obtain ⟨v, hv, hvu⟩ := List.mem_map.1 hm
        obtain ⟨hvd, hvf⟩ := List.mem_filter.1 hv
        have hid : v.id = u.id := congrArg NamePosition.id hvu
        have hsame : v = u := eq_of_nodup_key d.ids hvd (List.mem_of_find?_eq_some hu) hid
        exact hsame ▸ of_decide_eq_true hvf
      · intro hf
        exact List.mem_map_of_mem (List.mem_filter.2 ⟨List.mem_of_find?_eq_some hu,
          decide_eq_true hf⟩)
    have hbelow (v : User) : Below (some (u.position cfg)) (v.position cfg) ↔
        v.position cfg < u.position cfg :=
      ⟨fun h => h _ rfl, fun h c hc => by cases hc; exact h⟩
    have hread : cursorId? ((some (u.position cfg)).map encodeName) = .ok (some u.id) :=
      cursorId?_encode (some (u.position cfg))
    have hfind : d.db.users.find? (·.id = u.id) = some u := hu
    simp only [misplaced, hread, hfind, Option.bind_some, lost, hmem, hbelow]

/-- The search shows what its keys show, by id. -/
theorem shownIds_eq (pages : List (CursorPage UserSearchResultDto)) :
    shownIds pages = (shownKeys (fun dto => namePosition cfg dto.displayName dto.id) pages).map
      NamePosition.id := by
  rw [shownIds, shownKeys, List.map_flatMap]
  simp only [List.map_map, Function.comp_def]
  rfl

theorem position_of_name {name : Uuid → JsString} {u : User} (h : u.displayName = name u.id) :
    u.position cfg = namePosition cfg (name u.id) u.id := by
  rw [User.position, h]

/-- Who is shown once is told by the keys that are shown, where each id has one name. -/
theorem losesNobody_iff {fetched : List (Option JsString × Moment)}
    {pages : List (CursorPage UserSearchResultDto)} {keys : List (NamePosition cfg)}
    {name : Uuid → JsString} (hids : shownIds pages = keys.map NamePosition.id)
    (hnodup : keys.Nodup) (hname : ∀ k ∈ keys, k = namePosition cfg (name k.id) k.id) :
    LosesNobody cfg q userId fetched pages ↔
      ∀ k : NamePosition cfg, k = namePosition cfg (name k.id) k.id ∧
        StaysMatched cfg q userId fetched k.id → k ∈ keys := by
  have hinj : (keys.map NamePosition.id).Nodup := by
    refine hnodup.map_on fun k hk k' hk' hid => ?_
    rw [hname k hk, hname k' hk', hid]
  rw [LosesNobody, hids]
  constructor
  · rintro ⟨-, hall⟩ k ⟨hk, hstays⟩
    have hmem : k.id ∈ keys.map NamePosition.id := by
      rw [← List.count_pos_iff, hall k.id hstays]
      exact Nat.one_pos
    obtain ⟨k', hk', hid⟩ := List.mem_map.1 hmem
    rw [hk, ← hid, ← hname k' hk']
    exact hk'
  · refine fun hall => ⟨hinj, fun id hstays => List.count_eq_one_of_mem hinj ?_⟩
    have hkey := hall (namePosition cfg (name id) id) ⟨rfl, hstays⟩
    exact List.mem_map_of_mem hkey

/-- The pages of a search lose nobody exactly if, whenever the user that a cursor names is
no match any more, the first match after them does not stay one. -/
theorem user_search_complete_iff (cfg : SearchConfig) (q : JsString) (userId : Uuid)
    (limit : { n : ℕ // 0 < n ∧ n ≤ 20 }) (d : Directory) (changes : List (List UserChange)) :
    let get := fun (m : Moment) cursor => UsersService.search cfg m.now.db ⟨q, cursor, limit⟩ userId
    let fetched := fetches get (d.moments changes) none
    ∃ pages, walk get (d.moments changes) none = .ok pages ∧
      (Ends pages → (LosesNobody cfg q userId fetched pages ↔
        ∀ x ∈ fetched, ∀ u ∈ misplaced cfg q userId x.1 x.2.now,
          ¬ StaysMatched cfg q userId fetched u.id)) := by
  intro get fetched
  obtain ⟨name, hname⟩ := exists_names d changes
  have hlater : (d.moments changes).Pairwise fun m m' =>
      ∀ a ∈ found cfg q userId m.now.db.users, ∃ u ∈ m'.now.db.users,
        u.position cfg = a.position cfg := by
    refine (pairwise_moments d changes).imp fun h a ha => ?_
    obtain ⟨u, hu, hid, hsame⟩ := h a (List.mem_of_mem_filter ha)
    exact ⟨u, hu, by rw [User.position, User.position, hid, hsame]⟩
  obtain ⟨sent, pages, hw⟩ := (search_skips cfg q userId limit).walked (d.moments changes) hlater
    none (fun _ _ k hk => by cases hk)
  have hfetched : fetched = sent.map fun x => (x.1.map encodeName, x.2) := hw.fetches
  have hposition : ∀ x ∈ sent, ∀ u ∈ found cfg q userId x.2.now.db.users,
      u.position cfg = namePosition cfg (name u.id) u.id :=
    fun x hx u hu => position_of_name (hname _ (hw.sent x hx).1 u (List.mem_of_mem_filter hu))
  have hshown : ∀ k ∈ shownKeys (fun dto => namePosition cfg dto.displayName dto.id) pages,
      k = namePosition cfg (name k.id) k.id := by
    intro k hk
    obtain ⟨x, hx, hkx⟩ := hw.walked.sound k hk
    obtain ⟨u, hu, rfl⟩ := List.mem_map.1 hkx
    exact hposition x hx u (mem_kept.1 hu).1
  refine ⟨pages, hw.walk, fun hends => ?_⟩
  rw [losesNobody_iff (shownIds_eq pages) (hw.walked.ordered.imp fun hlt => hlt.ne') hshown]
  refine (hw.complete_iff hends fun k hk x hx => ?_).trans ?_
  · -- A match has the one position that its name gives it.
    have hmatch : Matches cfg q userId k.id x.2.now := by
      have hx' : (x.1.map encodeName, x.2) ∈ fetched := by
        rw [hfetched]
        exact List.mem_map_of_mem hx
      exact (hk.2 _ hx').1
    obtain ⟨u, hu, hid⟩ := hmatch
    rw [hk.1, ← hid, ← hposition x hx u hu]
    exact List.mem_map_of_mem hu
  · simp only [hfetched, List.forall_mem_map]
    refine forall₂_congr fun x hx => ?_
    rw [misplaced_eq (hw.sent x hx).2]
    refine forall₂_congr fun u hu => not_congr ?_
    have hfound := (lost_spec (nodup_found x.2.now) hu).1
    exact and_iff_right (hposition x hx u hfound)

def sampleSearch : SearchConfig where
  collation := inferInstanceAs (LinearOrder (List CodeUnit))
  containsInsensitive name query := (name.tails.any fun rest => query.isPrefixOf rest)
  toLowerCase := id
  sameCitext a b := a == b

def sampleDirectory : Directory where
  db := { sampleDb with
    users := [sampleUser 1 "alice", sampleUser 2 "anna", sampleUser 3 "anne"] }
  ids := by decide

def samplePages : List (List UserChange) := [[.setStatus 2 .SUSPENDED], []]

def sampleSearchPage (m : Moment) (cursor : Option JsString) :
    Except Failure (CursorPage UserSearchResultDto) :=
  UsersService.search sampleSearch m.now.db ⟨js "ann", cursor, ⟨1, by decide⟩⟩ 1

/-- The second match is never shown. -/
theorem user_search_skips_match : ¬ ∀ pages,
    walk sampleSearchPage (sampleDirectory.moments samplePages) none = .ok pages → Ends pages →
    LosesNobody sampleSearch (js "ann") 1
      (fetches sampleSearchPage (sampleDirectory.moments samplePages) none) pages := by
  have hrun : (walk sampleSearchPage (sampleDirectory.moments samplePages) none).toOption.any
      fun pages => Ends pages ∧ shownIds pages = [2] := by
    decide +kernel
  have hstays : StaysMatched sampleSearch (js "ann") 1
      (fetches sampleSearchPage (sampleDirectory.moments samplePages) none) 3 := by
    decide +kernel
  intro hall
  cases hw : walk sampleSearchPage (sampleDirectory.moments samplePages) none with
  | error e =>
    rw [hw] at hrun
    cases hrun
  | ok pages =>
    rw [hw] at hrun
    obtain ⟨hends, hshown⟩ := of_decide_eq_true hrun
    have hcount := (hall pages hw hends).2 3 hstays
    rw [hshown] at hcount
    revert hcount
    decide

end Walks

end MoneyMovement
