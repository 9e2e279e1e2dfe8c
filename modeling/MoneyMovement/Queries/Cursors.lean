import MoneyMovement.Basic.Buffers
import MoneyMovement.Basic.Dates

/-!
# Cursors

A keyset cursor is the text of an instant and an id, in base64url; that of the user
search is an id alone. What is encoded is decoded to the same instant and id. The
decoder takes other spellings too: of base64url and of dates.
-/

namespace MoneyMovement

section Cursors

def encodeCursor (id : Uuid) : JsString := toBase64url (utf8 id.text)

def decodeCursor (cursor : JsString) : JsString := fromUtf8 (fromBase64url cursor)

structure KeysetCursor where
  createdAt : Time
  id : Uuid

def bar : CodeUnit := 0x7C

def encodeKeysetCursor (anchor : KeysetCursor) : JsString :=
  toBase64url (utf8 (toISOString anchor.createdAt ++ bar :: anchor.id.text))

/-- `otherDate` is what `new Date` makes of a text in another format than its own. -/
def decodeKeysetCursor (otherDate : JsString → Option Time) (cursor : JsString) :
    Option KeysetCursor :=
  match (decodeCursor cursor).splitOn bar with
  | [iso, id] =>
    if iso = [] then none
    else (parseUuid id).bind fun id =>
      (parseDate otherDate iso).map fun createdAt => ⟨createdAt, id⟩
  | _ => none

end Cursors

section Texts

def BelowBar (s : JsString) : Prop := ∀ c ∈ s, c.val < 0x7C

-- The bound is the list: the instance search would run through all units.
instance (s : JsString) : Decidable (BelowBar s) :=
  List.decidableBAll (fun c : CodeUnit => c.val < 0x7C) s

theorem BelowBar.append {s t : JsString} (hs : BelowBar s) (ht : BelowBar t) :
    BelowBar (s ++ t) := by
  intro c hc
  rcases List.mem_append.1 hc with hc | hc
  · exact hs c hc
  · exact ht c hc

theorem belowBar_padded (k n : ℕ) : BelowBar (padded k n) := by
  intro c hc
  have := digit_of_padded hc
  omega

theorem belowBar_yearText (y : ℤ) : BelowBar (yearText y) := by
  have hminus : BelowBar (js "-") := by decide
  have hplus : BelowBar (js "+") := by decide
  unfold yearText
  split_ifs
  · exact belowBar_padded _ _
  · exact hminus.append (belowBar_padded _ _)
  · exact hplus.append (belowBar_padded _ _)

theorem belowBar_toISOString (t : Time) : BelowBar (toISOString t) := by
  have hdash : BelowBar (js "-") := by decide
  have ht : BelowBar (js "T") := by decide
  have hcolon : BelowBar (js ":") := by decide
  have hdot : BelowBar (js ".") := by decide
  have hz : BelowBar (js "Z") := by decide
  have hp := belowBar_padded
  exact (((((((((((((belowBar_yearText _).append hdash).append (hp _ _)).append hdash).append
    (hp _ _)).append ht).append (hp _ _)).append hcolon).append (hp _ _)).append hcolon).append
    (hp _ _)).append hdot).append (hp _ _)).append hz

theorem mem_hyphenate {h : JsString} {c : CodeUnit} (hc : c ∈ hyphenate h) :
    c = hyphen ∨ c ∈ h := by
  simp only [hyphenate, List.mem_append, List.mem_cons] at hc
  rcases hc with hc | hc | hc | hc | hc | hc | hc | hc | hc
  · exact Or.inr (List.mem_of_mem_take hc)
  · exact Or.inl hc
  · exact Or.inr (List.mem_of_mem_drop (List.mem_of_mem_take hc))
  · exact Or.inl hc
  · exact Or.inr (List.mem_of_mem_drop (List.mem_of_mem_take hc))
  · exact Or.inl hc
  · exact Or.inr (List.mem_of_mem_drop (List.mem_of_mem_take hc))
  · exact Or.inl hc
  · exact Or.inr (List.mem_of_mem_drop hc)

theorem belowBar_text (u : Uuid) : BelowBar u.text := by
  have hunit (d : ℕ) (hd : d < 16) : (hexUnit d).val < 0x7C := by
    revert d
    decide
  have hdigits : BelowBar ((digits 16 32 u.val).map hexUnit) := by
    intro c hc
    obtain ⟨d, hd, rfl⟩ := List.mem_map.1 hc
    exact hunit d (digits_lt (by decide) hd)
  intro c hc
  unfold Uuid.text at hc
  rcases mem_hyphenate hc with rfl | hc
  · decide
  · exact hdigits c hc

theorem isAscii_of_belowBar {s : JsString} (h : BelowBar s) : IsAscii s := by
  intro c hc
  have := h c hc
  omega

theorem bar_not_mem {s : JsString} (h : BelowBar s) : bar ∉ s := by
  intro hm
  exact absurd (h bar hm) (by decide)

theorem decodeCursor_encode (id : Uuid) : decodeCursor (encodeCursor id) = id.text :=
  fromUtf8_fromBase64url (isAscii_of_belowBar (belowBar_text id))

theorem toISOString_ne_nil {t : Time} (h : IsDate t) : toISOString t ≠ [] := by
  intro hnil
  have hread := isoFields?_toISOString h
  have hempty : isoFields? [] = none := rfl
  rw [hnil, hempty] at hread
  cases hread

theorem decodeKeysetCursor_encode {otherDate : JsString → Option Time} {anchor : KeysetCursor}
    (h : IsDate anchor.createdAt) :
    decodeKeysetCursor otherDate (encodeKeysetCursor anchor) = some anchor := by
  have hascii : IsAscii (toISOString anchor.createdAt ++ bar :: anchor.id.text) := by
    intro c hc
    rcases List.mem_append.1 hc with hc | hc
    · exact isAscii_of_belowBar (belowBar_toISOString _) c hc
    · rcases List.mem_cons.1 hc with rfl | hc
      · decide
      · exact isAscii_of_belowBar (belowBar_text _) c hc
  have hsplit : (decodeCursor (encodeKeysetCursor anchor)).splitOn bar =
      [toISOString anchor.createdAt, anchor.id.text] := by
    rw [decodeCursor, encodeKeysetCursor, fromUtf8_fromBase64url hascii,
      List.splitOn_append_cons_self_of_not_mem (bar_not_mem (belowBar_toISOString _)),
      List.splitOn_eq_singleton (bar_not_mem (belowBar_text _))]
  simp only [decodeKeysetCursor, hsplit, if_neg (toISOString_ne_nil h), parseUuid_text,
    Option.bind_some, parseDate_toISOString h, Option.map_some]

end Texts

section Spellings

structure TextCursor where
  createdAt : Time
  id : JsString
  deriving DecidableEq

def matchesUuid (id : JsString) : Bool := (parseUuid id).isSome

def encodeTextCursor (anchor : TextCursor) : JsString :=
  toBase64url (utf8 (toISOString anchor.createdAt ++ bar :: anchor.id))

def decodeTextCursor (otherDate : JsString → Option Time) (cursor : JsString) :
    Option TextCursor :=
  match (decodeCursor cursor).splitOn bar with
  | iso :: id :: rest =>
    if iso = [] ∨ id = [] ∨ rest.length > 0 ∨ ¬ matchesUuid id then none
    else (parseDate otherDate iso).map fun createdAt => ⟨createdAt, id⟩
  | _ => none

/-- The cursor is read as a date, a bar and an id. -/
structure ReadAs (otherDate : JsString → Option Time) (cursor iso id : JsString) : Prop where
  text : decodeCursor cursor = iso ++ bar :: id
  single : bar ∉ iso
  nonempty : iso ≠ []
  uuid : matchesUuid id = true
  date : (parseDate otherDate iso).isSome

/-- Both halves are spelt as they are issued: base64url as `toBase64url` writes it, and the date
as `toISOString` does. -/
structure AsIssued (otherDate : JsString → Option Time) (cursor iso : JsString) : Prop where
  coding : IsBase64url cursor
  date : ∀ t, parseDate otherDate iso = some t → toISOString t = iso

variable {otherDate : JsString → Option Time} {cursor iso id : JsString} {anchor : TextCursor}

theorem isSome_of_mapM {α β : Type} {f : α → Option β} {l : List α} {bs : List β}
    (h : l.mapM f = some bs) : ∀ a ∈ l, (f a).isSome := by
  induction l generalizing bs with
  | nil => exact List.forall_mem_nil _
  | cons a l ih =>
    simp only [List.mapM_cons, Option.bind_eq_bind, Option.bind_eq_some_iff] at h
    obtain ⟨b, hb, bs, hbs, -⟩ := h
    exact List.forall_mem_cons.2 ⟨Option.isSome_iff_exists.2 ⟨b, hb⟩, ih hbs⟩

theorem belowBar_of_matchesUuid (h : matchesUuid id = true) : BelowBar id := by
  obtain ⟨u, hu⟩ := Option.isSome_iff_exists.1 h
  obtain ⟨digits, hdigits, hrest⟩ := Option.bind_eq_some_iff.1 hu
  obtain ⟨ds, hds, -⟩ := Option.map_eq_some_iff.1 hrest
  rw [← hyphenate_unhyphenate hdigits]
  intro c hc
  rcases mem_hyphenate hc with rfl | hc
  · decide
  · have hvalue := isSome_of_mapM hds c hc
    unfold hexValue at hvalue
    split_ifs at hvalue
    · omega
    · omega
    · omega
    · cases hvalue

theorem splitOn_eq_pair {text iso id : JsString} :
    text.splitOn bar = [iso, id] ↔ text = iso ++ bar :: id ∧ bar ∉ iso ∧ bar ∉ id := by
  constructor
  · intro h
    by_cases hbar : bar ∈ text
    · obtain ⟨l, r, rfl, hl⟩ := List.eq_append_cons_of_mem hbar
      rw [List.splitOn_append_cons_self_of_not_mem hl] at h
      obtain ⟨rfl, hr⟩ := List.cons.inj h
      by_cases hr' : bar ∈ r
      · obtain ⟨l', r', rfl, hl'⟩ := List.eq_append_cons_of_mem hr'
        rw [List.splitOn_append_cons_self_of_not_mem hl'] at hr
        exact absurd (List.cons.inj hr).2 (List.splitOn_ne_nil _ _)
      · rw [List.splitOn_eq_singleton hr'] at hr
        obtain rfl : r = id := (List.cons.inj hr).1
        exact ⟨rfl, hl, hr'⟩
    · rw [List.splitOn_eq_singleton hbar] at h
      cases h
  · rintro ⟨rfl, hiso, hid⟩
    rw [List.splitOn_append_cons_self_of_not_mem hiso, List.splitOn_eq_singleton hid]

theorem decodeTextCursor_eq_some : decodeTextCursor otherDate cursor = some anchor ↔
    ∃ iso, ReadAs otherDate cursor iso anchor.id ∧
      parseDate otherDate iso = some anchor.createdAt := by
  constructor
  · intro h
    unfold decodeTextCursor at h
    split at h
    · next iso id rest hsplit =>
      split_ifs at h with hbad
      simp only [not_or, not_not, gt_iff_lt, not_lt, Nat.le_zero, List.length_eq_zero_iff] at hbad
      obtain ⟨hiso, -, rfl, huuid⟩ := hbad
      obtain ⟨createdAt, hdate, rfl⟩ := Option.map_eq_some_iff.1 h
      obtain ⟨htext, hsingle, -⟩ := splitOn_eq_pair.1 hsplit
      exact ⟨iso, ⟨htext, hsingle, hiso, huuid, Option.isSome_iff_exists.2 ⟨createdAt, hdate⟩⟩,
        hdate⟩
    · cases h
  · rintro ⟨iso, hread, hdate⟩
    have hid := bar_not_mem (belowBar_of_matchesUuid hread.uuid)
    have hsplit := splitOn_eq_pair.2 ⟨hread.text, hread.single, hid⟩
    have hne : anchor.id ≠ [] := by
      intro hnil
      have huuid := hread.uuid
      rw [hnil] at huuid
      exact absurd huuid (by decide)
    simp [decodeTextCursor, hsplit, hread.nonempty, hne, hread.uuid, hdate]

theorem isAscii_anchorText (t : Time) (h : matchesUuid id = true) :
    IsAscii (toISOString t ++ bar :: id) := by
  intro c hc
  rcases List.mem_append.1 hc with hc | hc
  · exact isAscii_of_belowBar (belowBar_toISOString t) c hc
  · rcases List.mem_cons.1 hc with rfl | hc
    · decide
    · exact isAscii_of_belowBar (belowBar_of_matchesUuid h) c hc

/-- To the queries the id is the one that its text spells. -/
theorem decodeKeysetCursor_eq : decodeKeysetCursor otherDate cursor =
    (decodeTextCursor otherDate cursor).bind fun anchor =>
      (parseUuid anchor.id).map fun id => ⟨anchor.createdAt, id⟩ := by
  unfold decodeKeysetCursor decodeTextCursor
  rcases (decodeCursor cursor).splitOn bar with _ | ⟨iso, _ | ⟨id, _ | ⟨other, rest⟩⟩⟩
  · rfl
  · rfl
  · dsimp only
    by_cases hiso : iso = []
    · simp [hiso]
    · cases huuid : parseUuid id with
      | none => simp [hiso, matchesUuid, huuid]
      | some u =>
        have hid : id ≠ [] := by
          rintro rfl
          have hempty : parseUuid [] = none := rfl
          rw [hempty] at huuid
          cases huuid
        cases parseDate otherDate iso <;> simp [hiso, hid, matchesUuid, huuid]
  · simp

/-- An issued cursor is read as it was issued. -/
theorem decodeTextCursor_encode (hdate : IsDate anchor.createdAt)
    (huuid : matchesUuid anchor.id = true) :
    decodeTextCursor otherDate (encodeTextCursor anchor) = some anchor := by
  have hread : parseDate otherDate (toISOString anchor.createdAt) = some anchor.createdAt :=
    parseDate_toISOString hdate
  refine decodeTextCursor_eq_some.2 ⟨toISOString anchor.createdAt, ⟨?_, ?_, ?_, huuid, ?_⟩, hread⟩
  · exact fromUtf8_fromBase64url (isAscii_anchorText anchor.createdAt huuid)
  · exact bar_not_mem (belowBar_toISOString _)
  · exact toISOString_ne_nil hdate
  · rw [hread]
    rfl

theorem encodeTextCursor_eq_iff (h : ReadAs otherDate cursor iso anchor.id)
    (hdate : parseDate otherDate iso = some anchor.createdAt) :
    encodeTextCursor anchor = cursor ↔ AsIssued otherDate cursor iso := by
  have hascii := isAscii_anchorText anchor.createdAt h.uuid
  constructor
  · intro hcode
    have hround := fromUtf8_fromBase64url hascii
    change decodeCursor (encodeTextCursor anchor) = _ at hround
    have htext : iso ++ bar :: anchor.id = toISOString anchor.createdAt ++ bar :: anchor.id := by
      rw [← hround, hcode, h.text]
    have hiso : iso = toISOString anchor.createdAt := List.append_cancel_right htext
    refine ⟨?_, fun t ht => ?_⟩
    · rw [← toBase64url_from_iff, ← hcode]
      exact congrArg toBase64url (fromBase64url_to (utf8_lt hascii))
    · rw [hdate] at ht
      obtain rfl := Option.some.inj ht
      exact hiso.symm
  · intro hissued
    have hiso := hissued.date anchor.createdAt hdate
    have hbytes : utf8 (iso ++ bar :: anchor.id) = fromBase64url cursor := by
      have htext : fromUtf8 (fromBase64url cursor) = iso ++ bar :: anchor.id := h.text
      rw [← htext]
      refine utf8_fromUtf8 ?_
      rw [htext, ← hiso]
      exact hascii
    rw [encodeTextCursor, hiso, hbytes]
    exact (toBase64url_from_iff cursor).2 hissued.coding

/-- Issued cursors are accepted as issued. Of the others, those are accepted that are read as
the date and the id of one, but with another spelling of base64url or of the date. -/
theorem cursor_accepted_iff_issued (otherDate : JsString → Option Time) :
    (∀ anchor : TextCursor, IsDate anchor.createdAt → matchesUuid anchor.id = true →
      decodeTextCursor otherDate (encodeTextCursor anchor) = some anchor) ∧
    ∀ cursor : JsString,
      (∀ anchor, decodeTextCursor otherDate cursor = some anchor →
        encodeTextCursor anchor = cursor) ↔
      ∀ iso id, ReadAs otherDate cursor iso id → AsIssued otherDate cursor iso := by
  refine ⟨fun anchor hdate huuid => decodeTextCursor_encode hdate huuid, fun cursor => ?_⟩
  constructor
  · intro h iso id hread
    obtain ⟨t, ht⟩ := Option.isSome_iff_exists.1 hread.date
    have hcode : encodeTextCursor ⟨t, id⟩ = cursor :=
      h ⟨t, id⟩ (decodeTextCursor_eq_some.2 ⟨iso, hread, ht⟩)
    exact (encodeTextCursor_eq_iff hread ht).1 hcode
  · intro h anchor hdecode
    obtain ⟨iso, hread, ht⟩ := decodeTextCursor_eq_some.1 hdecode
    exact (encodeTextCursor_eq_iff hread ht).2 (h iso anchor.id hread)

/-- A cursor that was issued, with a padding sign at its end. -/
theorem cursor_accepted_padded : ∃ cursor anchor,
    decodeTextCursor (fun _ => none) cursor = some anchor ∧ encodeTextCursor anchor ≠ cursor := by
  refine ⟨encodeTextCursor ⟨0, js "00000000-0000-4000-8000-000000000001"⟩ ++ js "=",
    ⟨0, js "00000000-0000-4000-8000-000000000001"⟩, by decide +kernel, by decide +kernel⟩

end Spellings

end MoneyMovement
