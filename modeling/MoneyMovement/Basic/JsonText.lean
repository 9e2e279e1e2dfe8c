import MoneyMovement.Basic.Canonical
import MoneyMovement.Basic.Money

/-!
# JSON texts written and read back

`stringify` keeps the fields of an object in their order, and `parse` reads any text,
rejecting what is no JSON. What is written is read back, whatever the numbers are, if
their own texts are.
-/

namespace MoneyMovement

section Format

structure NumberFormat (N : Type) where
  text : N → JsString
  read : JsString → Option N
  legible : Legible text
  read_text : ∀ n, read (text n) = some n

variable {N : Type} (F : NumberFormat N)

mutual

/-- `JSON.stringify`. -/
def stringify : Json N → JsString
  | .null => js "null"
  | .bool b => if b then js "true" else js "false"
  | .num n => F.text n
  | .str s => quote s
  | .arr items => js "[" ++ (js ",").intercalate (itemTexts items) ++ js "]"
  | .obj fields => js "\x7b" ++ (js ",").intercalate (memberTexts fields) ++ js "\x7d"

def itemTexts : List (Json N) → List JsString
  | [] => []
  | v :: rest => stringify v :: itemTexts rest

def memberTexts : List (JsString × Json N) → List JsString
  | [] => []
  | (key, v) :: rest => entryText (key, stringify v) :: memberTexts rest

end

end Format

section Parse

def isSpace (c : CodeUnit) : Bool := c = 0x20 ∨ c = 0x09 ∨ c = 0x0A ∨ c = 0x0D

def skipSpace (text : JsString) : JsString := text.dropWhile isSpace

def stripWord (word text : JsString) : Option JsString :=
  if text.take word.length = word then some (text.drop word.length) else none

def parseEscape : JsString → Option (CodeUnit × JsString)
  | [] => none
  | e :: rest =>
    if e = 0x2F then some (0x2F, rest)
    else if e = 0x75 ∧ rest.length < 4 then none
    else readEscape (e :: rest)

def parseUnits : ℕ → JsString → Option (JsString × JsString)
  | 0, _ => none
  | _ + 1, [] => none
  | fuel + 1, c :: rest =>
    if c = 0x22 then some ([], rest)
    else if c.val < 0x20 then none
    else
      (if c = 0x5C then parseEscape rest else some (c, rest)).bind fun p =>
        (parseUnits fuel p.2).map fun q => (p.1 :: q.1, q.2)

def parseString (text : JsString) : Option (JsString × JsString) := parseUnits text.length text

section Lists

variable {α : Type} (item : JsString → Option (α × JsString)) (close : CodeUnit)

def parseSome : ℕ → JsString → Option (List α × JsString)
  | 0, _ => none
  | fuel + 1, text =>
    (item text).bind fun p =>
      match skipSpace p.2 with
      | [] => none
      | c :: rest =>
        if c = 0x2C then (parseSome fuel rest).map fun q => (p.1 :: q.1, q.2)
        else if c = close then some ([p.1], rest)
        else none

def parseList (text : JsString) : Option (List α × JsString) :=
  match skipSpace text with
  | [] => none
  | c :: rest => if c = close then some ([], rest) else parseSome item close text.length text

def parseMember (text : JsString) : Option ((JsString × α) × JsString) :=
  match skipSpace text with
  | [] => none
  | c :: rest =>
    if c = 0x22 then
      (parseString rest).bind fun p =>
        match skipSpace p.2 with
        | [] => none
        | d :: rest => if d = 0x3A then (item rest).map fun q => ((p.1, q.1), q.2) else none
    else none

/-- A key given again keeps its place and takes the later value. -/
def setField (fields : List (JsString × α)) (p : JsString × α) : List (JsString × α) :=
  if p.1 ∈ fields.map Prod.fst then fields.map fun q => if q.1 = p.1 then p else q
  else fields ++ [p]

end Lists

variable {N : Type} (F : NumberFormat N)

/-- The value that begins with `c`, if what is inside of it is parsed by `value`. -/
def parseShape (value : JsString → Option (Json N × JsString)) (c : CodeUnit) (rest : JsString) :
    Shape → Option (Json N × JsString)
  | .null => (stripWord (js "null") (c :: rest)).map fun x => (.null, x)
  | .true => (stripWord (js "true") (c :: rest)).map fun x => (.bool true, x)
  | .false => (stripWord (js "false") (c :: rest)).map fun x => (.bool false, x)
  | .num =>
    (F.read ((c :: rest).takeWhile isNumberUnit)).map fun n =>
      (.num n, (c :: rest).dropWhile isNumberUnit)
  | .str => (parseString rest).map fun p => (.str p.1, p.2)
  | .arr => (parseList value 0x5D rest).map fun p => (.arr p.1, p.2)
  | .obj =>
    (parseList (parseMember value) 0x7D rest).map fun p => (.obj (p.1.foldl setField []), p.2)
  | .other => none

def parseValue : ℕ → JsString → Option (Json N × JsString)
  | 0, _ => none
  | fuel + 1, text =>
    match skipSpace text with
    | [] => none
    | c :: rest => parseShape F (parseValue fuel) c rest (shapeAt c)

/-- `JSON.parse`. -/
def parse (text : JsString) : Option (Json N) :=
  (parseValue F text.length text).bind fun p => if skipSpace p.2 = [] then some p.1 else none

end Parse

section Texts

variable {N : Type} {F : NumberFormat N}

theorem itemTexts_eq (items : List (Json N)) : itemTexts F items = items.map (stringify F) := by
  induction items with
  | nil => rfl
  | cons v rest ih => rw [itemTexts, ih, List.map_cons]

variable (F) in
def memberText (p : JsString × Json N) : JsString := entryText (p.1, stringify F p.2)

theorem memberTexts_eq (fields : List (JsString × Json N)) :
    memberTexts F fields = fields.map (memberText F) := by
  induction fields with
  | nil => rfl
  | cons p rest ih =>
    obtain ⟨key, v⟩ := p
    rw [memberTexts, ih, List.map_cons, memberText]

theorem stringify_eq_cons (v : Json N) :
    ∃ c rest, stringify F v = c :: rest ∧ shapeAt c = v.shape := by
  cases v with
  | null => exact ⟨0x6E, _, rfl, rfl⟩
  | bool b => cases b with
    | true => exact ⟨0x74, _, rfl, rfl⟩
    | false => exact ⟨0x66, _, rfl, rfl⟩
  | num n =>
    obtain ⟨c, rest, htext⟩ := List.exists_cons_of_ne_nil (F.legible.nonempty n)
    refine ⟨c, rest, htext, ?_⟩
    rw [shapeAt, if_pos (F.legible.units n c (htext ▸ List.mem_cons_self))]
    rfl
  | str s => exact ⟨0x22, _, rfl, rfl⟩
  | arr items => exact ⟨0x5B, _, rfl, rfl⟩
  | obj fields => exact ⟨0x7B, _, rfl, rfl⟩

theorem shapeAt_space {c : CodeUnit} (h : isSpace c = true) : shapeAt c = .other := by
  simp only [isSpace, decide_eq_true_eq] at h
  rcases h with rfl | rfl | rfl | rfl <;> decide

/-- What begins with a sign is not skipped. -/
theorem skipSpace_cons {c : CodeUnit} (h : isSpace c = false) (x : JsString) :
    skipSpace (c :: x) = c :: x :=
  List.dropWhile_cons_of_neg (by rw [h]; exact Bool.false_ne_true)

theorem skipSpace_shape {c : CodeUnit} (h : shapeAt c ≠ .other) (x : JsString) :
    skipSpace (c :: x) = c :: x := by
  refine skipSpace_cons ?_ x
  cases hs : isSpace c with
  | false => rfl
  | true => exact absurd (shapeAt_space hs) h

theorem length_intercalate {t : JsString} {ts : List JsString} (h : t ∈ ts) :
    t.length ≤ ((js ",").intercalate ts).length := by
  induction ts with
  | nil => cases h
  | cons u ts ih =>
    have happend := intercalate_append u ts []
    rw [List.append_nil] at happend
    rw [happend, List.length_append]
    rcases List.mem_cons.1 h with rfl | h
    · exact Nat.le_add_right _ _
    · cases ts with
      | nil => cases h
      | cons w ts =>
        have hrest := intercalate_append w ts []
        rw [List.append_nil] at hrest
        have := ih h
        rw [hrest] at this
        rw [restTexts, List.length_append]
        omega

theorem length_restTexts (tail : JsString) (ts : List JsString) :
    ts.length + tail.length ≤ (restTexts tail ts).length := by
  induction ts with
  | nil => rw [restTexts, List.length_nil, Nat.zero_add]
  | cons t ts ih =>
    have hcomma : (js ",").length = 1 := rfl
    rw [restTexts, List.length_append, List.length_append, List.length_cons, hcomma]
    omega

end Texts

section Strings

/-- A unit that `quoteUnit` writes is parsed as it is read. -/
theorem parseUnits_quoteUnit {c : CodeUnit} {x s y : JsString} {fuel : ℕ}
    (h : parseUnits fuel x = some (s, y)) :
    parseUnits (fuel + 1) (quoteUnit c ++ x) = some (c :: s, y) := by
  have hescape {e : CodeUnit} {rest : JsString} (hread : readEscape (e :: rest) = some (c, x))
      (hslash : e ≠ 0x2F) (hlen : e = 0x75 → 4 ≤ rest.length) :
      parseUnits (fuel + 1) (0x5C :: e :: rest) = some (c :: s, y) := by
    have hp : parseEscape (e :: rest) = some (c, x) := by
      rw [parseEscape, if_neg hslash, if_neg fun hc => absurd (hlen hc.1) (Nat.not_le.2 hc.2),
        hread]
    rw [parseUnits, if_neg (by decide), if_neg (by decide), if_pos rfl, hp, Option.bind_some, h]
    rfl
  have hsimple {e : CodeUnit} (hread : readEscape (e :: x) = some (c, x)) (hslash : e ≠ 0x2F)
      (hu : e ≠ 0x75) : parseUnits (fuel + 1) (0x5C :: e :: x) = some (c :: s, y) :=
    hescape hread hslash fun he => absurd he hu
  have hread := readUnit_quoteUnit c x
  unfold quoteUnit at hread ⊢
  split_ifs at hread ⊢ with h₁ h₂ h₃ h₄ h₅ h₆ h₇ h₈
  · exact hsimple hread (by decide) (by decide)
  · exact hsimple hread (by decide) (by decide)
  · exact hsimple hread (by decide) (by decide)
  · exact hsimple hread (by decide) (by decide)
  · exact hsimple hread (by decide) (by decide)
  · exact hsimple hread (by decide) (by decide)
  · exact hsimple hread (by decide) (by decide)
  · have hu : js "\\u" = [0x5C, 0x75] := by decide
    rw [unicodeEscape, hu] at hread ⊢
    refine hescape hread (by decide) fun _ => ?_
    change 4 ≤ ((digits 16 4 c.val).map hexUnit ++ x).length
    rw [List.length_append, List.length_map, length_digits]
    exact Nat.le_add_right _ _
  · have hplain : ¬ c.val < 0x20 := fun hlt => h₈ (Or.inl hlt)
    rw [List.singleton_append, parseUnits, if_neg h₁, if_neg hplain, if_neg h₂,
      Option.bind_some, h]
    rfl

theorem parseUnits_surrogate {c : CodeUnit} {x s y : JsString} {fuel : ℕ}
    (hc : isHighSurrogate c = true ∨ isLowSurrogate c = true)
    (h : parseUnits fuel x = some (s, y)) : parseUnits (fuel + 1) (c :: x) = some (c :: s, y) := by
  have hliteral : c ≠ 0x22 ∧ c ≠ 0x5C := hc.elim isHighSurrogate_literal isLowSurrogate_literal
  have hplain : ¬ c.val < 0x20 := by
    simp only [isHighSurrogate, isLowSurrogate, decide_eq_true_eq] at hc
    omega
  rw [parseUnits, if_neg hliteral.1, if_neg hplain, if_neg hliteral.2, Option.bind_some, h]
  rfl

theorem parseUnits_quoteUnits (s x : JsString) {fuel : ℕ} (hf : s.length < fuel) :
    parseUnits fuel (quoteUnits s ++ js "\"" ++ x) = some (s, x) := by
  induction s using quoteUnits.induct generalizing fuel with
  | case1 =>
    obtain ⟨fuel, rfl⟩ := Nat.exists_eq_add_one.2 hf
    rfl
  | case2 c =>
    obtain ⟨fuel, rfl⟩ := Nat.exists_eq_add_one.2 (Nat.zero_lt_of_lt hf)
    obtain ⟨fuel, rfl⟩ := Nat.exists_eq_add_one.2 (Nat.lt_of_succ_lt_succ hf)
    rw [quoteUnits, List.append_assoc]
    exact parseUnits_quoteUnit rfl
  | case3 c d rest hpair ih =>
    obtain ⟨fuel, rfl⟩ := Nat.exists_eq_add_one.2 (Nat.zero_lt_of_lt hf)
    obtain ⟨fuel, rfl⟩ := Nat.exists_eq_add_one.2 (Nat.zero_lt_of_lt (Nat.lt_of_succ_lt_succ hf))
    rw [quoteUnits, if_pos hpair]
    simp only [List.length_cons] at hf
    exact parseUnits_surrogate (Or.inl hpair.1)
      (parseUnits_surrogate (Or.inr hpair.2) (ih (by omega)))
  | case4 c d rest hpair ih =>
    obtain ⟨fuel, rfl⟩ := Nat.exists_eq_add_one.2 (Nat.zero_lt_of_lt hf)
    rw [quoteUnits, if_neg hpair, List.append_assoc, List.append_assoc]
    refine parseUnits_quoteUnit ?_
    rw [← List.append_assoc]
    exact ih (Nat.lt_of_succ_lt_succ hf)

theorem length_le_quoteUnits (s : JsString) : s.length ≤ (quoteUnits s).length := by
  have hunit (c : CodeUnit) : 1 ≤ (quoteUnit c).length := by
    have hread := readUnit_quoteUnit c []
    rw [List.append_nil] at hread
    refine List.length_pos_iff.2 fun hnil => ?_
    rw [hnil] at hread
    cases hread
  induction s using quoteUnits.induct with
  | case1 => exact le_rfl
  | case2 c => exact hunit c
  | case3 c d rest hpair ih =>
    rw [quoteUnits, if_pos hpair]
    simp only [List.length_cons]
    omega
  | case4 c d rest hpair ih =>
    rw [quoteUnits, if_neg hpair, List.length_append]
    have := hunit c
    simp only [List.length_cons] at ih ⊢
    omega

/-- A quoted string after its opening quote. -/
theorem parseString_quote (s x : JsString) :
    parseString (quoteUnits s ++ js "\"" ++ x) = some (s, x) := by
  refine parseUnits_quoteUnits s x ?_
  have hquote : (js "\"").length = 1 := rfl
  have := length_le_quoteUnits s
  rw [List.length_append, List.length_append, hquote]
  omega

end Strings

section RoundTrip

variable {α : Type} {item : JsString → Option (α × JsString)} {close : CodeUnit}
  {text : α → JsString}

/-- The item is read off the front of its text, if no number goes on after it. -/
def ReadsBack (item : JsString → Option (α × JsString)) (text : α → JsString) (a : α) : Prop :=
  ∀ x, NumberEnds x → item (text a ++ x) = some (a, x)

structure IsClose (close : CodeUnit) : Prop where
  number : isNumberUnit close = false
  space : isSpace close = false
  comma : close ≠ 0x2C

theorem IsClose.ends (h : IsClose close) (x : JsString) : NumberEnds (close :: x) := by
  rintro c ⟨⟩
  exact h.number

theorem parseSome_texts (hclose : IsClose close) {a : α} {as : List α}
    (hitem : ∀ b ∈ a :: as, ReadsBack item text b) (x : JsString) {fuel : ℕ}
    (hf : as.length < fuel) :
    parseSome item close fuel (text a ++ restTexts (close :: x) (as.map text)) =
      some (a :: as, x) := by
  induction as generalizing a fuel with
  | nil =>
    obtain ⟨fuel, rfl⟩ := Nat.exists_eq_add_one.2 hf
    have hread : item (text a ++ close :: x) = some (a, close :: x) :=
      hitem a List.mem_cons_self _ (hclose.ends x)
    simp only [List.map_nil, restTexts, parseSome, hread, Option.bind_some,
      skipSpace_cons hclose.space, if_neg hclose.comma, if_true]
  | cons b as ih =>
    obtain ⟨fuel, rfl⟩ := Nat.exists_eq_add_one.2 (Nat.zero_lt_of_lt hf)
    have hcomma : js "," = [0x2C] := by decide
    have hread := hitem a List.mem_cons_self
      (restTexts (close :: x) ((b :: as).map text)) (numberEnds_comma _)
    have hrest : restTexts (close :: x) ((b :: as).map text) =
        0x2C :: (text b ++ restTexts (close :: x) (as.map text)) := by
      rw [List.map_cons, restTexts, hcomma, List.singleton_append]
    rw [hrest] at hread ⊢
    have hskip := skipSpace_cons (show isSpace 0x2C = false by decide)
      (text b ++ restTexts (close :: x) (as.map text))
    simp only [parseSome, hread, Option.bind_some, hskip, if_true,
      ih (fun c hc => hitem c (List.mem_cons_of_mem _ hc)) (Nat.lt_of_succ_lt_succ hf),
      Option.map_some]

/-- A list is read back where its items are, and none of them begins with the closing sign. -/
theorem parseList_texts (hclose : IsClose close) {as : List α}
    (hitem : ∀ a ∈ as, ReadsBack item text a)
    (hhead : ∀ a ∈ as, ∃ c rest, text a = c :: rest ∧ isSpace c = false ∧ c ≠ close)
    (x : JsString) :
    parseList item close ((js ",").intercalate (as.map text) ++ close :: x) = some (as, x) := by
  cases as with
  | nil =>
    have hnil : (js ",").intercalate (([] : List α).map text) = [] := rfl
    rw [hnil, List.nil_append, parseList]
    simp only [skipSpace_cons hclose.space, if_true]
  | cons a as =>
    obtain ⟨c, rest, htext, hspace, hne⟩ := hhead a List.mem_cons_self
    rw [List.map_cons, intercalate_append]
    have hfuel : as.length < (text a ++ restTexts (close :: x) (as.map text)).length := by
      have := length_restTexts (close :: x) (as.map text)
      rw [List.length_append]
      rw [List.length_map, List.length_cons] at this
      omega
    have hsome := parseSome_texts hclose hitem x hfuel
    have hskip : skipSpace (text a ++ restTexts (close :: x) (as.map text)) =
        c :: (rest ++ restTexts (close :: x) (as.map text)) := by
      rw [htext, List.cons_append, skipSpace_cons hspace]
    simp only [parseList, hskip, if_neg hne]
    exact hsome

variable {N : Type} {F : NumberFormat N}

theorem isClose_bracket : IsClose 0x5D := ⟨by decide, by decide, by decide⟩

theorem isClose_brace : IsClose 0x7D := ⟨by decide, by decide, by decide⟩

theorem foldl_setField {fields : List (JsString × α)} (hn : (fields.map Prod.fst).Nodup) :
    fields.foldl setField [] = fields := by
  have hall (done rest : List (JsString × α)) (hn : ((done ++ rest).map Prod.fst).Nodup) :
      rest.foldl setField done = done ++ rest := by
    induction rest generalizing done with
    | nil => rw [List.foldl_nil, List.append_nil]
    | cons p rest ih =>
      have hsnoc : done ++ p :: rest = (done ++ [p]) ++ rest := (List.append_cons _ _ _)
      have hnew : p.1 ∉ done.map Prod.fst := by
        rw [List.map_append, List.map_cons] at hn
        exact fun hm => (List.nodup_append.1 hn).2.2 _ hm _ List.mem_cons_self rfl
      rw [List.foldl_cons, setField, if_neg hnew, hsnoc]
      exact ih _ (hsnoc ▸ hn)
  exact hall [] fields hn

theorem read_num (n : N) {x : JsString} (hx : NumberEnds x) :
    (F.text n ++ x).takeWhile isNumberUnit = F.text n ∧
      (F.text n ++ x).dropWhile isNumberUnit = x := by
  have hunits := F.legible.units n
  cases x with
  | nil =>
    rw [List.append_nil]
    exact ⟨List.takeWhile_eq_self_iff.2 hunits, List.dropWhile_eq_nil_iff.2 hunits⟩
  | cons c x =>
    have hc : ¬ isNumberUnit c = true := by
      rw [hx c rfl]
      exact Bool.false_ne_true
    rw [List.takeWhile_append_of_pos hunits, List.takeWhile_cons_of_neg hc, List.append_nil,
      List.dropWhile_append_of_pos hunits, List.dropWhile_cons_of_neg hc]
    exact ⟨rfl, rfl⟩

theorem parseMember_text {value : JsString → Option (Json N × JsString)}
    {p : JsString × Json N}
    (hvalue : ReadsBack value (stringify F) p.2) :
    ReadsBack (parseMember value) (memberText F) p := by
  intro x hx
  have hquote : js "\"" = [0x22] := by decide
  have hcolon : js ":" = [0x3A] := by decide
  have htext : memberText F p ++ x =
      0x22 :: (quoteUnits p.1 ++ js "\"" ++ 0x3A :: (stringify F p.2 ++ x)) := by
    simp only [memberText, entryText, quote, hquote, hcolon, List.append_assoc, List.cons_append,
      List.nil_append]
  have hskip := skipSpace_cons (show isSpace 0x22 = false by decide)
    (quoteUnits p.1 ++ js "\"" ++ 0x3A :: (stringify F p.2 ++ x))
  have hskip' := skipSpace_cons (show isSpace 0x3A = false by decide) (stringify F p.2 ++ x)
  rw [htext]
  simp only [parseMember, hskip, if_true, parseString_quote, Option.bind_some, hskip',
    hvalue x hx, Option.map_some]

theorem parseValue_shape {v : Json N} {c : CodeUnit} (h : shapeAt c = v.shape) (fuel : ℕ)
    (rest : JsString) :
    parseValue F (fuel + 1) (c :: rest) = parseShape F (parseValue F fuel) c rest v.shape := by
  have hskip := skipSpace_shape (fun hc => shape_ne_other v (h.symm.trans hc)) rest
  simp only [parseValue, hskip, h]

theorem stringify_arr (items : List (Json N)) (x : JsString) : stringify F (.arr items) ++ x =
    0x5B :: ((js ",").intercalate (items.map (stringify F)) ++ 0x5D :: x) := by
  have hopen : js "[" = [0x5B] := by decide
  have hclose : js "]" = [0x5D] := by decide
  rw [stringify, itemTexts_eq, hopen, hclose]
  simp only [List.append_assoc, List.cons_append, List.nil_append]

theorem stringify_obj (fields : List (JsString × Json N)) (x : JsString) :
    stringify F (.obj fields) ++ x =
      0x7B :: ((js ",").intercalate (fields.map (memberText F)) ++ 0x7D :: x) := by
  have hopen : js "\x7b" = [0x7B] := by decide
  have hclose : js "\x7d" = [0x7D] := by decide
  rw [stringify, memberTexts_eq, hopen, hclose]
  simp only [List.append_assoc, List.cons_append, List.nil_append]

/-- The fuel that is left for something inside a list. -/
theorem fuel_of_text {w : Json N} {t : JsString} {c d : CodeUnit} {ts : List JsString} {fuel : ℕ}
    (ht : t ∈ ts) (hw : (stringify F w).length ≤ t.length)
    (hf : (c :: ((js ",").intercalate ts ++ [d])).length ≤ fuel + 1) :
    ∃ k, fuel = k + 1 ∧ (stringify F w).length ≤ k + 1 := by
  have hle := length_intercalate ht
  obtain ⟨e, rest, htext, -⟩ := stringify_eq_cons (F := F) w
  rw [htext, List.length_cons] at hw ⊢
  rw [List.length_cons, List.length_append] at hf
  exact ⟨fuel - 1, by omega, by omega⟩

/-- Whatever follows, unless a number goes on there. -/
theorem parseValue_stringify (v : Json N) (hv : v.Distinct) {fuel : ℕ}
    (hf : (stringify F v).length ≤ fuel + 1) :
    ReadsBack (parseValue F (fuel + 1)) (stringify F) v := by
  intro x hx
  induction v using Json.inductOn generalizing fuel x with
  | null => exact parseValue_shape (v := .null) (show shapeAt 0x6E = Shape.null by decide) fuel _
  | bool b =>
    cases b with
    | true =>
      exact parseValue_shape (v := .bool true) (show shapeAt 0x74 = Shape.true by decide) fuel _
    | false =>
      exact parseValue_shape (v := .bool false) (show shapeAt 0x66 = Shape.false by decide) fuel _
  | num n =>
    obtain ⟨c, rest, htext, hshape⟩ := stringify_eq_cons (F := F) (.num n)
    obtain ⟨htake, hdrop⟩ := read_num (F := F) n hx
    have hcons : F.text n ++ x = c :: (rest ++ x) := by
      rw [show F.text n = c :: rest from htext, List.cons_append]
    show parseValue F (fuel + 1) (F.text n ++ x) = some (.num n, x)
    rw [hcons] at htake hdrop ⊢
    rw [parseValue_shape hshape]
    simp only [Json.shape, parseShape, htake, hdrop, F.read_text, Option.map_some]
  | str s =>
    have hquote : js "\"" = [0x22] := by decide
    have htext : stringify F (.str s) ++ x = 0x22 :: (quoteUnits s ++ js "\"" ++ x) := by
      simp only [stringify, quote, hquote, List.append_assoc, List.cons_append, List.nil_append]
    rw [htext, parseValue_shape (v := .str s) (show shapeAt 0x22 = Shape.str by decide)]
    simp only [Json.shape, parseShape, parseString_quote, Option.map_some]
  | arr items ih =>
    cases hv with
    | arr hall =>
      rw [← List.append_nil (stringify F (.arr items)), stringify_arr] at hf
      have hitem (w : Json N) (hw : w ∈ items) :
          ReadsBack (parseValue F fuel) (stringify F) w := by
        intro y hy
        obtain ⟨k, rfl, hk⟩ := fuel_of_text (List.mem_map_of_mem hw) le_rfl hf
        exact ih w hw (hall w hw) hk y hy
      have hhead (w : Json N) (_ : w ∈ items) :
          ∃ c rest, stringify F w = c :: rest ∧ isSpace c = false ∧ c ≠ 0x5D := by
        obtain ⟨c, rest, htext, hc⟩ := stringify_eq_cons (F := F) w
        have hother : shapeAt c ≠ .other := hc ▸ shape_ne_other w
        refine ⟨c, rest, htext, ?_, ?_⟩
        · exact Bool.eq_false_iff.2 fun hs => hother (shapeAt_space hs)
        · rintro rfl
          exact hother (by decide)
      rw [stringify_arr, parseValue_shape (v := .arr items)
        (show shapeAt 0x5B = Shape.arr by decide)]
      simp only [Json.shape, parseShape, parseList_texts isClose_bracket hitem hhead,
        Option.map_some]
  | obj fields ih =>
    cases hv with
    | obj hkeys hall =>
      rw [← List.append_nil (stringify F (.obj fields)), stringify_obj] at hf
      have hitem (p : JsString × Json N) (hp : p ∈ fields) :
          ReadsBack (parseMember (parseValue F fuel)) (memberText F) p := by
        refine parseMember_text fun y hy => ?_
        have hle : (stringify F p.2).length ≤ (memberText F p).length := by
          rw [memberText, entryText, List.length_append]
          exact Nat.le_add_left _ _
        obtain ⟨k, rfl, hk⟩ := fuel_of_text (List.mem_map_of_mem hp) hle hf
        exact ih p hp (hall p hp) hk y hy
      have hhead (p : JsString × Json N) (_ : p ∈ fields) :
          ∃ c rest, memberText F p = c :: rest ∧ isSpace c = false ∧ c ≠ 0x7D :=
        ⟨0x22, _, rfl, by decide, by decide⟩
      rw [stringify_obj, parseValue_shape (v := .obj fields)
        (show shapeAt 0x7B = Shape.obj by decide)]
      simp only [Json.shape, parseShape, parseList_texts isClose_brace hitem hhead,
        Option.map_some, foldl_setField hkeys]

/-- What `JSON.stringify` writes `JSON.parse` reads. -/
theorem parse_stringify (v : Json N) (hv : v.Distinct) : parse F (stringify F v) = some v := by
  obtain ⟨c, rest, htext, -⟩ := stringify_eq_cons (F := F) v
  have hlength : (stringify F v).length = rest.length + 1 := by rw [htext, List.length_cons]
  have hread := parseValue_stringify v hv hlength.le [] (fun d hd => by cases hd)
  rw [List.append_nil] at hread
  simp only [parse, hlength, hread, Option.bind_some]
  rfl

end RoundTrip

section Integers

theorem decimal_legible : Legible decimal where
  injective n m h := by
    have hn := bigInt_decimal n
    rw [h, bigInt_decimal] at hn
    exact (Option.some.inj hn).symm
  nonempty n h := by
    have hn : decimal n.natAbs ≠ [] := by
      rw [decimal_natCast]
      exact List.map_eq_nil_iff.not.2 (decimalDigits_ne_nil _)
    by_cases hneg : n < 0
    · rw [decimal_neg hneg] at h
      exact hn (List.append_eq_nil_iff.1 h).2
    · rw [Int.natAbs_of_nonneg (not_lt.1 hneg)] at hn
      exact hn h
  units n c hc := by
    have hunit {m : ℕ} (hm : c ∈ decimal m) : isNumberUnit c = true :=
      isNumberUnit_of_isDigit (isDigit_decimal hm)
    by_cases hneg : n < 0
    · rw [decimal_neg hneg] at hc
      rcases List.mem_append.1 hc with hc | hc
      · rw [show js "-" = [hyphen] by decide] at hc
        rw [List.mem_singleton.1 hc]
        decide
      · exact hunit hc
    · rw [← Int.natAbs_of_nonneg (not_lt.1 hneg)] at hc
      exact hunit hc

def integers : NumberFormat ℤ where
  text := decimal
  read t := (bigInt t).filter (decimal · = t)
  legible := decimal_legible
  read_text n := by rw [bigInt_decimal, Option.filter_some, if_pos (decide_eq_true rfl)]

end Integers

end MoneyMovement
