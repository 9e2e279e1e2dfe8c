import MoneyMovement.Paging.Still
import MoneyMovement.Queries.Walks
import MoneyMovement.Runs.Provenance
import MoneyMovement.Runs.Requests

/-!
# The activity feed and the wallet

A walk over the transfers of a user to its end adds up to what their wallet has gained
since it was seeded, each item names the other participant, and an accepted request
and the transfer that paid it name each other.
-/

namespace MoneyMovement

open Txn Paging ActivityQueryService

variable {cfg : Config} {rcfg : ReadConfig} {db₀ db : Db} {clock : Time} {s : Service}
  {userId : Uuid} {type : Option ActivityType} {limit : Limit}

section Items

/-- What the tables of a reachable state promise the feed. -/
structure Readable (db : Db) : Prop where
  transferIds : (db.transfers.map Transfer.id).Nodup
  requestIds : (db.moneyRequests.map MoneyRequest.id).Nodup
  transferDates : ∀ t ∈ db.transfers, IsDate t.createdAt
  requestDates : ∀ r ∈ db.moneyRequests, IsDate r.createdAt
  peopled : Peopled db
  named : ∀ u ∈ db.users, RequestSchema.DisplayName u.displayName

/-- The item stands for the row, with the amount as a number and the counterparty named. -/
structure Displays (act : ActivityRow) (item : ActivityItemDto) : Prop where
  dto : ∃ counterparties now, item = toDto counterparties now act
  counterparty : ∃ c, item.counterparty = some c ∧ c.userId = act.counterpartyId

inductive FeedRow (userId : Uuid) (db : Db) : ActivityRow → Prop
  | transfer (t : Transfer) (ht : t ∈ db.transfers)
      (hparty : t.senderUserId = userId ∨ t.receiverUserId = userId) :
      FeedRow userId db (ActivityRepository.ofTransfer userId t)
  | request (r : MoneyRequest) (hr : r ∈ db.moneyRequests)
      (hparty : r.requesterUserId = userId ∨ r.payerUserId = userId) :
      FeedRow userId db (ActivityRepository.ofRequest userId r)

theorem mem_union {act : ActivityRow} :
    act ∈ ActivityRepository.union userId db ↔ FeedRow userId db act := by
  rw [ActivityRepository.union, List.mem_append, List.mem_map, List.mem_map]
  constructor
  · rintro (⟨t, ht, rfl⟩ | ⟨r, hr, rfl⟩)
    · exact .transfer t (List.mem_of_mem_filter ht) (of_decide_eq_true (List.mem_filter.1 ht).2)
    · exact .request r (List.mem_of_mem_filter hr) (of_decide_eq_true (List.mem_filter.1 hr).2)
  · rintro (⟨t, ht, hp⟩ | ⟨r, hr, hp⟩)
    · exact Or.inl ⟨t, List.mem_filter.2 ⟨ht, decide_eq_true hp⟩, rfl⟩
    · exact Or.inr ⟨r, List.mem_filter.2 ⟨hr, decide_eq_true hp⟩, rfl⟩

theorem feedRow_of_mem {act : ActivityRow} (h : act ∈ feed userId type db) :
    FeedRow userId db act :=
  mem_union.1 (List.mem_of_mem_filter h)

/-- The counterparty of a row is registered and not the user. -/
theorem FeedRow.counterparty {act : ActivityRow} (h : FeedRow userId db act) (hp : Peopled db) :
    act.counterpartyId ≠ userId ∧ ∃ u ∈ db.users, u.id = act.counterpartyId := by
  cases h with
  | transfer t ht hparty =>
    obtain ⟨hne, hsender, hreceiver⟩ := hp.transfers t ht
    simp only [ActivityRepository.ofTransfer]
    split_ifs with hu
    · exact ⟨fun heq => hne (hu.trans heq.symm), hreceiver⟩
    · exact ⟨hu, hsender⟩
  | request r hr hparty =>
    obtain ⟨hne, hrequester, hpayer⟩ := hp.moneyRequests r hr
    simp only [ActivityRepository.ofRequest]
    split_ifs with hu
    · exact ⟨fun heq => hne (hu.trans heq.symm), hpayer⟩
    · exact ⟨hu, hrequester⟩

/-- The name of a counterparty that is looked up for its page. -/
theorem displays_toDto (h : Readable db) {rows : List ActivityRow} {now : Time}
    {act : ActivityRow} (hact : act ∈ rows) (hrow : FeedRow userId db act) :
    Displays act (toDto (resolveCounterparties db rows) now act) := by
  refine ⟨⟨_, now, rfl⟩, ?_⟩
  obtain ⟨-, u, hu, hid⟩ := hrow.counterparty h.peopled
  have hmem : ⟨u.id, u.displayName⟩ ∈ resolveCounterparties db rows := by
    refine List.mem_map.2 ⟨u, List.mem_filter.2 ⟨hu, ?_⟩, rfl⟩
    rw [List.contains_iff_mem, hid]
    exact List.mem_map_of_mem hact
  cases hfind : (resolveCounterparties db rows).find? (·.userId = act.counterpartyId) with
  | none => exact absurd hid (by simpa using List.find?_eq_none.1 hfind _ hmem)
  | some c =>
    obtain ⟨u', hu', rfl⟩ := List.mem_map.1 (List.mem_of_find?_eq_some hfind)
    have hname := h.named u' (List.mem_of_mem_filter hu')
    have hsame : u'.id = act.counterpartyId := (find?_spec hfind).2
    refine ⟨⟨u'.id, u'.displayName⟩, ?_, hsame⟩
    simp only [toDto, hfind]
    exact Option.filter_eq_some_iff.2 ⟨rfl, decide_eq_true (List.length_pos_iff.1 hname)⟩

theorem feed_shows (rcfg : ReadConfig) (limit : Limit) (h : Readable db)
    (hids : ((feed userId type db).map ActivityRow.referenceId).Nodup) : Shows
    (fun (now : Time) cursor => listForUser rcfg db now userId ⟨type, cursor, limit⟩)
    (feed userId type db) ActivityRow.position limit.val
    (fun dto => shownAt rcfg dto.createdAt dto.referenceId) encodePosition Displays := by
  have hdates : ∀ act ∈ feed userId type db, IsDate act.createdAt := fun act hact =>
    union_dates h.transferDates h.requestDates (List.mem_of_mem_filter hact)
  refine ⟨feed_serves id (fun _ => hids) (fun _ => hdates), fun now cursor p hc hp => ?_⟩
  have hcursor : decodeCursor? rcfg (cursor.map encodePosition) = .ok (cursor.map anchor) := by
    refine decodeCursor?_encode cursor fun k hk => ?_
    obtain ⟨act, hact, rfl⟩ := List.mem_map.1 (hc k hk)
    exact hdates act hact
  rw [listForUser_eq hcursor] at hp
  cases hp
  refine List.forall₂_map_right_iff.2 (List.forall₂_same.2 fun act hact => ?_)
  exact displays_toDto h hact (feedRow_of_mem (mem_of_page hact).1)

end Items

section Sums

def total (direction : ActivityDirection) (items : List ActivityItemDto) : ℤ :=
  ((items.filter (·.direction = direction)).map ActivityItemDto.amountMinor).sum

def ActivityDirection.signed (amountMinor : ℤ) : ActivityDirection → ℤ
  | .IN => amountMinor
  | .OUT => -amountMinor
  | .REQUEST => 0

theorem total_sub_total (items : List ActivityItemDto) : total .IN items - total .OUT items =
    (items.map fun i => i.direction.signed i.amountMinor).sum := by
  induction items with
  | nil => rfl
  | cons i items ih =>
    have hcons (direction : ActivityDirection) : total direction (i :: items) =
        (if i.direction = direction then i.amountMinor else 0) + total direction items := by
      simp only [total, List.filter_cons, decide_eq_true_eq]
      split_ifs
      · rw [List.map_cons, List.sum_cons]
      · rw [zero_add]
    rw [hcons, hcons, List.map_cons, List.sum_cons, ← ih]
    cases i.direction <;> simp [ActivityDirection.signed] <;> ring

theorem feed_transfers : feed userId (some .TRANSFER) db =
    (db.transfers.filter fun t => t.senderUserId = userId ∨ t.receiverUserId = userId).map
      (ActivityRepository.ofTransfer userId) := by
  rw [feed, ActivityRepository.union, List.filter_append]
  refine (congrArg₂ (· ++ ·) (List.filter_eq_self.2 fun act hact => ?_)
    (List.filter_eq_nil_iff.2 fun act hact => ?_)).trans (List.append_nil _)
  · obtain ⟨t, -, rfl⟩ := List.mem_map.1 hact
    rfl
  · obtain ⟨r, -, rfl⟩ := List.mem_map.1 hact
    rintro ⟨⟩

/-- The transfers of a user, signed by direction, and those of all users as the user sees them. -/
theorem sum_feed (hamounts : ∀ t ∈ db.transfers, RequestSchema.AmountMinor t.amountMinor) :
    ((feed userId (some .TRANSFER) db).map fun act =>
      act.direction.signed (number act.amountMinor)).sum =
      (db.transfers.map (Transfer.signedFor userId)).sum := by
  rw [feed_transfers, List.map_map]
  revert hamounts
  induction db.transfers with
  | nil => exact fun _ => rfl
  | cons t ts ih =>
    intro hamounts
    have hexact := number_exact (hamounts t List.mem_cons_self).natAbs_lt
    have hrest := ih fun t' ht' => hamounts t' (List.mem_cons_of_mem _ ht')
    rw [List.filter_cons, List.map_cons, List.sum_cons, ← hrest]
    by_cases hs : t.senderUserId = userId
    · simp [hs, Transfer.signedFor, ActivityRepository.ofTransfer, ActivityDirection.signed, hexact]
    · by_cases hr : t.receiverUserId = userId
      · simp [hs, hr, Transfer.signedFor, ActivityRepository.ofTransfer, ActivityDirection.signed,
          hexact]
      · simp [hs, hr, Transfer.signedFor]

end Sums

section Walks

inductive Between (db : Db) (item : ActivityItemDto) (a b : Uuid) : Prop
  | transfer (t : Transfer) (ht : t ∈ db.transfers) (htype : item.type = .TRANSFER)
      (hid : item.referenceId = t.id) (hparties : (t.senderUserId = a ∧ t.receiverUserId = b) ∨
        (t.senderUserId = b ∧ t.receiverUserId = a))
  | request (r : MoneyRequest) (hr : r ∈ db.moneyRequests) (htype : item.type = .MONEY_REQUEST)
      (hid : item.referenceId = r.id) (hparties : (r.requesterUserId = a ∧ r.payerUserId = b) ∨
        (r.requesterUserId = b ∧ r.payerUserId = a))

/-- The counterparty is shown, is not the user, and is the other side of the row. -/
def NamesOther (db : Db) (userId : Uuid) (item : ActivityItemDto) : Prop :=
  ∃ c, item.counterparty = some c ∧ c.userId ≠ userId ∧ Between db item userId c.userId

theorem Displays.namesOther {act : ActivityRow} {item : ActivityItemDto}
    (hd : Displays act item) (hrow : FeedRow userId db act) (hp : Peopled db) :
    NamesOther db userId item := by
  obtain ⟨⟨counterparties, now, hdto⟩, c, hc, hid⟩ := hd
  have htype : item.type = act.kind := by rw [hdto]; rfl
  have href : item.referenceId = act.referenceId := by rw [hdto]; rfl
  refine ⟨c, hc, hid ▸ (hrow.counterparty hp).1, ?_⟩
  rw [hid]
  cases hrow with
  | transfer t ht hparty =>
    refine .transfer t ht htype href ?_
    simp only [ActivityRepository.ofTransfer]
    split_ifs with hu
    · exact Or.inl ⟨hu, rfl⟩
    · exact Or.inr ⟨rfl, hparty.resolve_left hu⟩
  | request r hr hparty =>
    refine .request r hr htype href ?_
    simp only [ActivityRepository.ofRequest]
    split_ifs with hu
    · exact Or.inl ⟨hu, rfl⟩
    · exact Or.inr ⟨rfl, hparty.resolve_left hu⟩

/-- Only a pending request is shown with another status than its own. -/
theorem effectiveStatus_accepted {status : MoneyRequestStatus} {expiresAt : Option Time}
    {now : Time} (h : effectiveStatus status expiresAt now = .ACCEPTED) :
    status = .ACCEPTED := by
  unfold effectiveStatus at h
  cases expiresAt with
  | none => exact h
  | some deadline =>
    simp only at h
    split_ifs at h
    exact h

/-- An item that shows an accepted request, and the transfer it names. -/
theorem Displays.paid {act : ActivityRow} {item : ActivityItemDto} (hd : Displays act item)
    (hrow : FeedRow userId db act) (hlink : Linkage db) (htype : item.type = .MONEY_REQUEST)
    (hstatus : item.status = .moneyRequest .ACCEPTED) :
    ∃ t, FeedRow userId db (ActivityRepository.ofTransfer userId t) ∧
      item.relatedTransferId = some t.id ∧ t.sourceRequestId = some item.referenceId := by
  obtain ⟨⟨counterparties, now, hdto⟩, -⟩ := hd
  cases hrow with
  | transfer t =>
    rw [hdto] at htype
    cases htype
  | request r hr hparty =>
    rw [hdto] at hstatus
    have hstored : r.status = .ACCEPTED :=
      effectiveStatus_accepted (ActivityStatus.moneyRequest.inj hstatus)
    cases hlink.linked r hr with
    | unpaid hst => exact absurd hstored hst
    | accepted t _ hpay hid hpays _ =>
      have hmem : t ∈ db.paymentsOf r.id := by simp [hpay]
      obtain ⟨ht, hsource⟩ := mem_rows.1 hmem
      refine ⟨t, .transfer t ht ?_, ?_, ?_⟩
      · rw [hpays.sender, hpays.receiver]
        exact hparty.symm
      · rw [hdto]
        exact hid
      · rw [hdto]
        exact hsource

theorem isDate_of_between {first last t : ℤ} (hfirst : IsDate first) (hlast : IsDate last)
    (h : first ≤ t) (h' : t ≤ last) : IsDate t := by
  unfold IsDate at *
  omega

theorem readable (h₀ : Start db₀)
    (hnamed : ∀ u ∈ db₀.users, RequestSchema.DisplayName u.displayName)
    (h : Sys.Reach (body cfg) Validated (Service.initial db₀ clock) s) (hclock : IsDate clock)
    (hnow : IsDate s.clock) : Readable s.db := by
  have hopen := open_of_validated h
  have hrec := recorded h₀ hopen
  have hcreated := created_since h₀ hopen
  have date {t : Time} (ht : clock ≤ t ∧ t ≤ s.clock) : IsDate t :=
    isDate_of_between hclock hnow ht.1 ht.2
  exact ⟨hrec.transferIds, hrec.requestIds, fun t ht => date (hcreated.1 t ht),
    fun r hr => date (hcreated.2 r hr), peopled h₀ hopen, users_named h₀ hnamed h⟩

theorem feed_transfer_ids (h : Readable db) :
    ((feed userId (some .TRANSFER) db).map ActivityRow.referenceId).Nodup := by
  rw [feed_transfers, List.map_map]
  exact h.transferIds.sublist (List.filter_sublist.map _)

theorem feed_ids (h : Readable db)
    (hids : ∀ t ∈ db.transfers, ∀ r ∈ db.moneyRequests, t.id ≠ r.id) :
    ((feed userId none db).map ActivityRow.referenceId).Nodup := by
  have hunion : feed userId none db = ActivityRepository.union userId db :=
    List.filter_eq_self.2 fun act _ => rfl
  have hall : (db.transfers.map Transfer.id ++ db.moneyRequests.map MoneyRequest.id).Nodup := by
    refine List.nodup_append.2 ⟨h.transferIds, h.requestIds, fun a ha b hb => ?_⟩
    obtain ⟨t, ht, rfl⟩ := List.mem_map.1 ha
    obtain ⟨r, hr, rfl⟩ := List.mem_map.1 hb
    exact hids t ht r hr
  rw [hunion, ActivityRepository.union, List.map_append, List.map_map, List.map_map]
  exact hall.sublist ((List.filter_sublist.map _).append (List.filter_sublist.map _))

def walked (rcfg : ReadConfig) (db : Db) (userId : Uuid) (type : Option ActivityType)
    (limit : Limit) (nows : List Time) : Except Failure (List (CursorPage ActivityItemDto)) :=
  walk (fun now cursor => listForUser rcfg db now userId ⟨type, cursor, limit⟩) nows none

/-- A walk over the transfers of a user comes to an end, and then what came in less what
went out is the balance less its seed, and each item names the other participant; if no
request has the id of a transfer, a walk over all activity comes to an end too, and each
accepted request in it and the transfer that paid it, in the same walk, name each other. -/
theorem activity_reconciles (h₀ : Start db₀)
    (hnamed : ∀ u ∈ db₀.users, RequestSchema.DisplayName u.displayName)
    (h : Sys.Reach (body cfg) Validated (Service.initial db₀ clock) s) (hclock : IsDate clock)
    (hnow : IsDate s.clock) (rcfg : ReadConfig) (userId : Uuid) (limit : Limit) :
    (∀ nows : ℕ → Time, ∃ n pages,
      walked rcfg s.db userId (some .TRANSFER) limit ((List.range n).map nows) = .ok pages ∧
        Ends pages) ∧
    (∀ nows pages, walked rcfg s.db userId (some .TRANSFER) limit nows = .ok pages → Ends pages →
      (∀ w ∈ s.db.wallets, w.userId = userId → ∃ seed, (w.id, seed) ∈ seeds db₀ s.log ∧
        total .IN (items pages) - total .OUT (items pages) = w.balanceMinor - seed) ∧
      ∀ item ∈ items pages, NamesOther s.db userId item) ∧
    ((∀ t ∈ s.db.transfers, ∀ r ∈ s.db.moneyRequests, t.id ≠ r.id) →
      (∀ nows : ℕ → Time, ∃ n pages,
        walked rcfg s.db userId none limit ((List.range n).map nows) = .ok pages ∧ Ends pages) ∧
      ∀ nows pages, walked rcfg s.db userId none limit nows = .ok pages → Ends pages →
        (∀ item ∈ items pages, NamesOther s.db userId item) ∧
        ∀ item ∈ items pages, item.type = .MONEY_REQUEST →
          item.status = .moneyRequest .ACCEPTED → ∃ paid ∈ items pages, paid.type = .TRANSFER ∧
            item.relatedTransferId = some paid.referenceId ∧
            paid.relatedRequestId = some item.referenceId) := by
  have hread := readable h₀ hnamed h hclock hnow
  have hopen := open_of_validated h
  -- What an item of a walk to the end is about.
  have about {type : Option ActivityType} {its : List ActivityItemDto}
      (hshown : List.Forall₂ Displays
        (orderBy ActivityRow.position (feed userId type s.db)) its)
      {item : ActivityItemDto} (hitem : item ∈ its) :
      ∃ act, FeedRow userId s.db act ∧ Displays act item := by
    obtain ⟨act, hact, hd⟩ := exists_left_of_forall₂ hshown hitem
    exact ⟨act, feedRow_of_mem (mem_orderBy.1 hact), hd⟩
  have other {type : Option ActivityType} {its : List ActivityItemDto}
      (hshown : List.Forall₂ Displays
        (orderBy ActivityRow.position (feed userId type s.db)) its) :
      ∀ item ∈ its, NamesOther s.db userId item := by
    intro item hitem
    obtain ⟨act, hrow, hd⟩ := about hshown hitem
    exact hd.namesOther hrow hread.peopled
  obtain ⟨htransfers, hends⟩ :=
    (feed_shows rcfg limit hread (feed_transfer_ids hread)).all
  refine ⟨hends, fun nows pages hwalk hend => ?_, fun hids => ?_⟩
  · have hshown := htransfers nows pages hwalk hend
    refine ⟨fun w hw hu => ?_, other hshown⟩
    obtain ⟨seed, hseed, hb⟩ := flows h₀ hopen w hw
    refine ⟨seed, hseed, ?_⟩
    have hsame : (orderBy ActivityRow.position (feed userId (some .TRANSFER) s.db)).map
        (fun act => act.direction.signed (number act.amountMinor)) =
        (items pages).map fun i => i.direction.signed i.amountMinor := by
      refine map_eq_map_of_forall₂ hshown fun act item hd => ?_
      obtain ⟨⟨counterparties, now, rfl⟩, -⟩ := hd
      rfl
    rw [total_sub_total, ← hsame, (orderBy_perm.map _).sum_eq, sum_feed (amounts_valid h₀ h).1,
      hb, hu, add_sub_cancel_left]
  · obtain ⟨hall, hallEnds⟩ :=
      (feed_shows rcfg limit hread (feed_ids hread hids)).all
    refine ⟨hallEnds, fun nows pages hwalk hend => ?_⟩
    have hshown := hall nows pages hwalk hend
    refine ⟨other hshown, fun item hitem htype hstatus => ?_⟩
    obtain ⟨act, hrow, hd⟩ := about hshown hitem
    obtain ⟨t, ht, hrelated, hsource⟩ := hd.paid hrow (linkage h₀ hopen) htype hstatus
    have hmem : ActivityRepository.ofTransfer userId t ∈
        orderBy ActivityRow.position (feed userId none s.db) :=
      mem_orderBy.2 (List.mem_filter.2 ⟨mem_union.2 ht, rfl⟩)
    obtain ⟨paid, hpaid, ⟨counterparties, now, rfl⟩, -⟩ := exists_right_of_forall₂ hshown hmem
    exact ⟨_, hpaid, rfl, hrelated, hsource⟩

/-- After a request for 300 has been accepted, seen by its payer. -/
theorem activity_reconciles_accepted : ∃ s : Service,
    s.db.moneyRequests.map (·.status) = [.ACCEPTED] ∧
    (∀ nows pages, walked ⟨fun _ => none⟩ s.db 2 (some .TRANSFER) ⟨20, by decide⟩ nows = .ok pages →
      Ends pages → ∀ item ∈ items pages, NamesOther s.db 2 item) ∧
    ∃ n pages, walked ⟨fun _ => none⟩ s.db 2 none ⟨20, by decide⟩ ((List.range n).map fun _ => 60) =
      .ok pages ∧ Ends pages := by
  have hrun : ((Service.initial sampleDb 50).run (body sampleConfig) accepted).any
      (fun s => s.db.moneyRequests.map (·.status) = [.ACCEPTED] ∧ IsDate s.clock ∧
        ∀ t ∈ s.db.transfers, ∀ r ∈ s.db.moneyRequests, t.id ≠ r.id) := by
    decide +kernel
  obtain ⟨s, hs, hstate⟩ := of_run hrun
  obtain ⟨hstatus, hnow, hids⟩ := of_decide_eq_true hstate
  have hvalid : ∀ l ∈ accepted, Validated (Service.initial sampleDb 50) l := by decide +kernel
  have h := activity_reconciles sampleDb_start (by decide)
    (Sys.reach_of_run _ hs fun _ l hl => hvalid l hl) (by decide) hnow ⟨fun _ => none⟩ 2
    ⟨20, by decide⟩
  exact ⟨s, hstatus, fun nows pages hwalk hend => (h.2.1 nows pages hwalk hend).2,
    (h.2.2 hids).1 fun _ => 60⟩

end Walks

end MoneyMovement
