import MoneyMovement.Basic.Json

/-!
# Canonical texts read back

A quoted string ends where its text says it ends, and a list of texts that are read
alike is read alike; so the text of an object whose fields are strings or null
determines the fields.
-/

namespace MoneyMovement

section Strings

def readEscape : JsString → Option (CodeUnit × JsString)
  | [] => none
  | e :: rest =>
    if e = 0x22 ∨ e = 0x5C then some (e, rest)
    else if e = 0x62 then some (0x08, rest)
    else if e = 0x66 then some (0x0C, rest)
    else if e = 0x6E then some (0x0A, rest)
    else if e = 0x72 then some (0x0D, rest)
    else if e = 0x74 then some (0x09, rest)
    else if e = 0x75 then
      ((rest.take 4).mapM hexValue).map fun ds => (Fin.ofNat _ (ofDigits 16 ds), rest.drop 4)
    else none

def readUnit : JsString → Option (CodeUnit × JsString)
  | [] => none
  | c :: rest =>
    if c = 0x22 then none else if c = 0x5C then readEscape rest else some (c, rest)

theorem readUnit_literal {c : CodeUnit} (hq : c ≠ 0x22) (hb : c ≠ 0x5C) (x : JsString) :
    readUnit (c :: x) = some (c, x) := by
  rw [readUnit, if_neg hq, if_neg hb]

theorem readUnit_unicodeEscape (c : CodeUnit) (x : JsString) :
    readUnit (unicodeEscape c ++ x) = some (c, x) := by
  have hd : ∀ d ∈ digits 16 4 c.val, d < 16 := fun d h => digits_lt (by norm_num) h
  have hlen : ((digits 16 4 c.val).map hexUnit).length = 4 := by simp
  have hu : js "\\u" = [0x5C, 0x75] := by decide
  rw [unicodeEscape, hu, List.append_assoc]
  change ((((digits 16 4 c.val).map hexUnit ++ x).take 4).mapM hexValue).map (fun ds =>
    (Fin.ofNat _ (ofDigits 16 ds), ((digits 16 4 c.val).map hexUnit ++ x).drop 4)) = _
  rw [List.take_append_of_le_length hlen.ge, List.take_of_length_le hlen.le, mapM_hexValue hd,
    Option.map_some, ofDigits_digits 16 4 c.val c.isLt, List.drop_append_of_le_length hlen.ge,
    List.drop_of_length_le hlen.le]
  simp

theorem readUnit_quoteUnit (c : CodeUnit) (x : JsString) :
    readUnit (quoteUnit c ++ x) = some (c, x) := by
  unfold quoteUnit
  split_ifs with h₁ h₂ h₃ h₄ h₅ h₆ h₇ h₈
  · rw [h₁]; rfl
  · rw [h₂]; rfl
  · rw [h₃]; rfl
  · rw [h₄]; rfl
  · rw [h₅]; rfl
  · rw [h₆]; rfl
  · rw [h₇]; rfl
  · exact readUnit_unicodeEscape c x
  · exact readUnit_literal h₁ h₂ x

/-- The code units up to the closing quote, and what follows it. -/
def readUnits : ℕ → JsString → Option (JsString × JsString)
  | 0, _ => none
  | fuel + 1, text =>
    match readUnit text with
    | some (c, rest) => (readUnits fuel rest).map fun p => (c :: p.1, p.2)
    | none => some ([], text.tail)

theorem readUnits_cons {fuel : ℕ} {text rest x s : JsString} {c : CodeUnit}
    (h : readUnit text = some (c, rest)) (hr : readUnits fuel rest = some (s, x)) :
    readUnits (fuel + 1) text = some (c :: s, x) := by
  simp only [readUnits, h, hr, Option.map_some]

theorem isHighSurrogate_literal {c : CodeUnit} (h : isHighSurrogate c = true) :
    c ≠ 0x22 ∧ c ≠ 0x5C := by
  constructor <;> rintro rfl <;> revert h <;> decide

theorem isLowSurrogate_literal {c : CodeUnit} (h : isLowSurrogate c = true) :
    c ≠ 0x22 ∧ c ≠ 0x5C := by
  constructor <;> rintro rfl <;> revert h <;> decide

theorem readUnits_quoteUnits (s x : JsString) {fuel : ℕ} (hf : s.length < fuel) :
    readUnits fuel (quoteUnits s ++ js "\"" ++ x) = some (s, x) := by
  induction s using quoteUnits.induct generalizing fuel with
  | case1 =>
    obtain ⟨fuel, rfl⟩ := Nat.exists_eq_add_one.2 hf
    rfl
  | case2 c =>
    obtain ⟨fuel, rfl⟩ := Nat.exists_eq_add_one.2 (Nat.zero_lt_of_lt hf)
    obtain ⟨fuel, rfl⟩ := Nat.exists_eq_add_one.2 (Nat.lt_of_succ_lt_succ hf)
    rw [quoteUnits, List.append_assoc]
    exact readUnits_cons (readUnit_quoteUnit c _) rfl
  | case3 c d rest hpair ih =>
    obtain ⟨fuel, rfl⟩ := Nat.exists_eq_add_one.2 (Nat.zero_lt_of_lt hf)
    obtain ⟨fuel, rfl⟩ := Nat.exists_eq_add_one.2 (Nat.zero_lt_of_lt (Nat.lt_of_succ_lt_succ hf))
    have hc := isHighSurrogate_literal hpair.1
    have hd := isLowSurrogate_literal hpair.2
    rw [quoteUnits, if_pos hpair]
    refine readUnits_cons (readUnit_literal hc.1 hc.2 _)
      (readUnits_cons (readUnit_literal hd.1 hd.2 _)
      (ih ?_))
    simp only [List.length_cons] at hf
    omega
  | case4 c d rest hpair ih =>
    obtain ⟨fuel, rfl⟩ := Nat.exists_eq_add_one.2 (Nat.zero_lt_of_lt hf)
    rw [quoteUnits, if_neg hpair, List.append_assoc, List.append_assoc]
    refine readUnits_cons (readUnit_quoteUnit c _) ?_
    rw [← List.append_assoc]
    exact ih (Nat.lt_of_succ_lt_succ hf)

/-- A quoted string can be read off the front of a text in one way only. -/
theorem quote_append_inj {s t x y : JsString} (h : quote s ++ x = quote t ++ y) :
    s = t ∧ x = y := by
  have htail := congrArg List.tail h
  have hs (s x : JsString) : (quote s ++ x).tail = quoteUnits s ++ js "\"" ++ x := by
    have hq : js "\"" = [0x22] := by decide
    rw [quote, hq]
    simp
  rw [hs, hs] at htail
  have hr := readUnits_quoteUnits s x (Nat.lt_succ_of_le (le_max_left s.length t.length))
  rw [htail, readUnits_quoteUnits t y (Nat.lt_succ_of_le (le_max_right s.length t.length))] at hr
  cases hr
  exact ⟨rfl, rfl⟩

end Strings

section Lists

/-- Of two texts that something of the kind follows, the same is read off the front. -/
def ReadAlike (E : JsString → Prop) (t t' : JsString) : Prop :=
  ∀ x y, E x → E y → t ++ x = t' ++ y → t = t' ∧ x = y

def restTexts (tail : JsString) : List JsString → JsString
  | [] => tail
  | t :: ts => js "," ++ (t ++ restTexts tail ts)

/-- The tail ends a list of such texts: it begins with no comma and with none of them. -/
structure Closes (E : JsString → Prop) (ts : List JsString) (tail : JsString) : Prop where
  ends : E tail
  comma : ∀ x, js "," ++ x ≠ tail
  other : ∀ t ∈ ts, ∀ x, t ++ x ≠ tail

variable {E : JsString → Prop} {ts ts' : List JsString} {tail tail' : JsString}

theorem intercalate_append (t : JsString) (ts : List JsString) (tail : JsString) :
    (js ",").intercalate (t :: ts) ++ tail = t ++ restTexts tail ts := by
  induction ts generalizing t with
  | nil => rw [List.intercalate_singleton, restTexts]
  | cons t' ts ih =>
    rw [List.intercalate_cons_cons, List.append_assoc, ih, restTexts, List.append_assoc]

theorem Closes.of_restTexts (hcomma : ∀ x, E (js "," ++ x)) (h : E tail) (ts : List JsString) :
    E (restTexts tail ts) := by
  cases ts with
  | nil => exact h
  | cons t ts => exact hcomma _

theorem restTexts_inj (hcomma : ∀ x, E (js "," ++ x)) (h : Closes E ts' tail)
    (h' : Closes E ts tail') (hread : ∀ t ∈ ts, ∀ t' ∈ ts', ReadAlike E t t')
    (heq : restTexts tail ts = restTexts tail' ts') : ts = ts' ∧ tail = tail' := by
  induction ts generalizing ts' with
  | nil =>
    cases ts' with
    | nil => exact ⟨rfl, heq⟩
    | cons t' ts' => exact absurd heq.symm (h.comma _)
  | cons t ts ih =>
    cases ts' with
    | nil => exact absurd heq (h'.comma _)
    | cons t' ts' =>
      obtain ⟨rfl, hrest⟩ := hread t List.mem_cons_self t' List.mem_cons_self _ _
        (Closes.of_restTexts hcomma h.ends ts) (Closes.of_restTexts hcomma h'.ends ts')
        ((List.append_right_inj (js ",")).1 heq)
      obtain ⟨rfl, htail⟩ := ih
        ⟨h.ends, h.comma, fun u hu => h.other u (List.mem_cons_of_mem _ hu)⟩
        ⟨h'.ends, h'.comma, fun u hu => h'.other u (List.mem_cons_of_mem _ hu)⟩
        (fun u hu u' hu' => hread u (List.mem_cons_of_mem _ hu) u' (List.mem_cons_of_mem _ hu'))
        hrest
      exact ⟨rfl, htail⟩

/-- The text of a list determines the texts in it and what follows. -/
theorem intercalate_inj (hcomma : ∀ x, E (js "," ++ x)) (h : Closes E ts' tail)
    (h' : Closes E ts tail') (hread : ∀ t ∈ ts, ∀ t' ∈ ts', ReadAlike E t t')
    (heq : (js ",").intercalate ts ++ tail = (js ",").intercalate ts' ++ tail') :
    ts = ts' ∧ tail = tail' := by
  cases ts with
  | nil =>
    cases ts' with
    | nil => exact ⟨rfl, heq⟩
    | cons t' ts' =>
      rw [intercalate_append] at heq
      exact absurd heq.symm (h.other t' List.mem_cons_self _)
  | cons t ts =>
    cases ts' with
    | nil =>
      rw [intercalate_append] at heq
      exact absurd heq (h'.other t List.mem_cons_self _)
    | cons t' ts' =>
      rw [intercalate_append, intercalate_append] at heq
      exact restTexts_inj hcomma h h' hread (congrArg (js "," ++ ·) heq)

end Lists

section Flat

def flatValue {N : Type} : Option JsString → Json N
  | some s => .str s
  | none => .null

def flat {N : Type} (fields : List (JsString × Option JsString)) : Json N :=
  .obj (fields.map fun p => (p.1, flatValue p.2))

def fieldText : Option JsString → JsString
  | some s => quote s
  | none => js "null"

theorem fieldText_append_inj {o o' : Option JsString} {x y : JsString}
    (h : fieldText o ++ x = fieldText o' ++ y) : o = o' ∧ x = y := by
  have hn : js "null" = [0x6E, 0x75, 0x6C, 0x6C] := by decide
  have hq (s : JsString) : (quote s).head? = some 0x22 := rfl
  cases o with
  | none =>
    cases o' with
    | none => exact ⟨rfl, List.append_cancel_left h⟩
    | some s =>
      have hhead := congrArg List.head? h
      simp [fieldText, hn, List.head?_append, hq] at hhead
  | some s =>
    cases o' with
    | none =>
      have hhead := congrArg List.head? h
      simp [fieldText, hn, List.head?_append, hq] at hhead
    | some s' =>
      obtain ⟨rfl, hxy⟩ := quote_append_inj h
      exact ⟨rfl, hxy⟩

def entryText (p : JsString × JsString) : JsString := quote p.1 ++ js ":" ++ p.2

theorem entryText_injective : Function.Injective entryText := by
  rintro ⟨k, v⟩ ⟨k', v'⟩ h
  simp only [entryText, List.append_assoc] at h
  obtain ⟨rfl, hvalue⟩ := quote_append_inj h
  rw [(List.append_right_inj (js ":")).1 hvalue]

/-- Entries are read alike where their values are. -/
theorem entryText_readAlike {E : JsString → Prop} {p q : JsString × JsString}
    (h : ReadAlike E p.2 q.2) : ReadAlike E (entryText p) (entryText q) := by
  obtain ⟨k, v⟩ := p
  obtain ⟨k', v'⟩ := q
  intro x y hx hy heq
  simp only [entryText, List.append_assoc] at heq ⊢
  obtain ⟨rfl, hvalue⟩ := quote_append_inj heq
  obtain ⟨hv, hxy⟩ := h x y hx hy ((List.append_right_inj (js ":")).1 hvalue)
  obtain rfl : v = v' := hv
  exact ⟨rfl, hxy⟩

theorem entryText_ne_close (p : JsString × JsString) (x y : JsString) :
    entryText p ++ x ≠ js "\x7d" ++ y := by
  intro h
  have hhead := congrArg List.head? h
  have hquote : (quote p.1).head? = some 0x22 := rfl
  have hclose : js "\x7d" = [0x7D] := by decide
  rw [hclose] at hhead
  simp [entryText, List.head?_append, hquote] at hhead

def IsFlat (es : List (JsString × JsString)) : Prop := ∀ p ∈ es, ∃ o, p.2 = fieldText o

/-- The text of the entries determines them. -/
theorem entries_inj {es es' : List (JsString × JsString)} (hf : IsFlat es) (hf' : IsFlat es')
    (h : (js ",").intercalate (es.map entryText) ++ js "\x7d" =
      (js ",").intercalate (es'.map entryText) ++ js "\x7d") : es = es' := by
  have hcloses (es : List (JsString × JsString)) :
      Closes (fun _ => True) (es.map entryText) (js "\x7d") := by
    refine ⟨trivial, fun x => ?_, ?_⟩
    · have hc : js "," = [0x2C] := by decide
      have hb : js "\x7d" = [0x7D] := by decide
      rw [hc, hb]
      exact fun heq => absurd (List.head_eq_of_cons_eq heq) (by decide)
    · intro t ht x
      obtain ⟨p, -, rfl⟩ := List.mem_map.1 ht
      have := entryText_ne_close p x []
      rwa [List.append_nil] at this
  have hread : ∀ t ∈ es.map entryText, ∀ t' ∈ es'.map entryText,
      ReadAlike (fun _ => True) t t' := by
    intro t ht t' ht'
    obtain ⟨p, hp, rfl⟩ := List.mem_map.1 ht
    obtain ⟨q, hq, rfl⟩ := List.mem_map.1 ht'
    obtain ⟨o, ho⟩ := hf p hp
    obtain ⟨o', ho'⟩ := hf' q hq
    refine entryText_readAlike (fun x y _ _ heq => ?_)
    rw [ho, ho'] at heq ⊢
    obtain ⟨rfl, hxy⟩ := fieldText_append_inj heq
    exact ⟨rfl, hxy⟩
  exact entryText_injective.list_map (intercalate_inj (fun _ => trivial) (hcloses es') (hcloses es)
    hread h).1

theorem insertKey_perm (p : JsString × JsString) (l : List (JsString × JsString)) :
    (insertKey p l).Perm (p :: l) := by
  induction l with
  | nil => exact List.Perm.refl _
  | cons q rest ih =>
    rw [insertKey]
    split_ifs
    · exact List.Perm.refl _
    · exact (ih.cons q).trans (List.Perm.swap p q rest)

theorem sortKeys_perm (l : List (JsString × JsString)) : (sortKeys l).Perm l := by
  induction l with
  | nil => exact List.Perm.refl _
  | cons p rest ih => exact (insertKey_perm p _).trans (ih.cons p)

theorem stringifyFields_flat {N : Type} (numText : N → JsString)
    (fields : List (JsString × Option JsString)) :
    stringifyFields numText (fields.map fun p => (p.1, flatValue p.2)) =
      fields.map fun p => (p.1, fieldText p.2) := by
  induction fields with
  | nil => rfl
  | cons p rest ih =>
    obtain ⟨k, o⟩ := p
    rw [List.map_cons, stringifyFields, ih, List.map_cons]
    cases o <;> rfl

theorem fieldText_injective : Function.Injective fieldText := fun o o' h =>
  (fieldText_append_inj (x := []) (y := []) (by rw [h])).1

/-- A table in another order of its rows, but with the same column of keys. -/
theorem eq_of_perm_of_keys {l l' : List (JsString × JsString)} (h : l.Perm l')
    (hkeys : l.map Prod.fst = l'.map Prod.fst) (hn : (l.map Prod.fst).Nodup) : l = l' := by
  induction l generalizing l' with
  | nil => exact h.nil_eq
  | cons p rest ih =>
    cases l' with
    | nil => cases hkeys
    | cons q rest' =>
      have hkey : p.1 = q.1 := List.head_eq_of_cons_eq hkeys
      have hrest : rest.map Prod.fst = rest'.map Prod.fst := List.tail_eq_of_cons_eq hkeys
      obtain ⟨hp, hn'⟩ := List.nodup_cons.1 hn
      have hpq : p = q := by
        refine (List.mem_cons.1 (h.subset List.mem_cons_self)).resolve_right (fun hm => hp ?_)
        rw [hrest]
        exact List.mem_map_of_mem hm
      subst hpq
      rw [ih ((List.perm_cons p).1 h) hrest hn']

/-- Flat objects with the same keys and the same canonical text are the same. -/
theorem flat_injective {N : Type} (numText : N → JsString)
    {fields fields' : List (JsString × Option JsString)}
    (hkeys : fields.map Prod.fst = fields'.map Prod.fst) (hn : (fields.map Prod.fst).Nodup)
    (h : stableStringify numText (flat fields) = stableStringify numText (flat fields')) :
    fields = fields' := by
  let entry (p : JsString × Option JsString) : JsString × JsString := (p.1, fieldText p.2)
  have hentry : Function.Injective entry := fun p q hpq =>
    Prod.ext (congrArg Prod.fst hpq :) (fieldText_injective (congrArg Prod.snd hpq :))
  have hflat (l : List (JsString × Option JsString)) : IsFlat (sortKeys (l.map entry)) := by
    intro p hp
    obtain ⟨q, -, rfl⟩ := List.mem_map.1 ((sortKeys_perm _).subset hp)
    exact ⟨q.2, rfl⟩
  have hfst (l : List (JsString × Option JsString)) :
      (l.map entry).map Prod.fst = l.map Prod.fst := by
    rw [List.map_map]
    rfl
  have hsorted : sortKeys (fields.map entry) = sortKeys (fields'.map entry) := by
    refine entries_inj (hflat _) (hflat _) ?_
    rw [flat, flat, stableStringify, stableStringify, stringifyFields_flat, stringifyFields_flat,
      List.append_assoc, List.append_assoc] at h
    exact (List.append_right_inj (js "\x7b")).1 h
  have hperm : (fields.map entry).Perm (fields'.map entry) :=
    (sortKeys_perm _).symm.trans (hsorted ▸ sortKeys_perm _)
  refine List.map_injective_iff.2 hentry (eq_of_perm_of_keys hperm ?_ ?_)
  · rw [hfst, hfst, hkeys]
  · rwa [hfst]

end Flat

end MoneyMovement
