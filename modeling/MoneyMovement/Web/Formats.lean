import MoneyMovement.Basic.Numerals
import MoneyMovement.Web.Money

/-!
# Amounts shown to a user

The API groups the digits of an amount with a regular expression, the web app leaves
that to the locale; both put a comma before every group of three digits but the first,
so they show the same text, and the parser of the web app takes it back to the amount.
-/

namespace MoneyMovement

section Regex

def isWord (c : CodeUnit) : Bool :=
  isDigit c || decide (0x41 ≤ c ∧ c ≤ 0x5A) || decide (0x61 ≤ c ∧ c ≤ 0x7A) || decide (c = 0x5F)

/-- The lookahead `(?=(\d{3})+(?!\d))`. -/
def threesAhead : JsString → Bool
  | a :: b :: c :: rest =>
    isDigit a && isDigit b && isDigit c && (!rest.head?.any isDigit || threesAhead rest)
  | _ => false

/-- `\B` between the unit before a position, if there is one, and the unit after it. -/
def notAtBoundary (before : Option CodeUnit) (c : CodeUnit) : Bool :=
  before.any isWord == isWord c

/-- `s.replace(/\B(?=(\d{3})+(?!\d))/g, ',')`, after the unit `before`. -/
def replaceThrees (before : Option CodeUnit) : JsString → JsString
  | [] => []
  | c :: rest =>
    if notAtBoundary before c && threesAhead (c :: rest) then
      comma :: c :: replaceThrees (some c) rest
    else c :: replaceThrees (some c) rest

theorem threesAhead_iff (s : JsString) (h : ∀ c ∈ s, isDigit c = true) :
    threesAhead s = true ↔ s ≠ [] ∧ s.length % 3 = 0 := by
  induction s using threesAhead.induct with
  | case1 a b c rest ih =>
    have hrest : ∀ x ∈ rest, isDigit x = true := fun x hx => h x (by simp [hx])
    have ha := h a (by simp)
    have hb := h b (by simp)
    have hc := h c (by simp)
    rw [threesAhead]
    cases rest with
    | nil => simp [ha, hb, hc]
    | cons d rest =>
      have hd := hrest d List.mem_cons_self
      have hthree := ih hrest
      have hmod : (a :: b :: c :: d :: rest).length % 3 = (d :: rest).length % 3 := by
        simp only [List.length_cons]
        omega
      rw [hmod]
      simpa [ha, hb, hc, hd] using hthree
  | case2 s hshort =>
    have hfalse : threesAhead s = false := by
      unfold threesAhead
      split
      · exact absurd rfl (hshort _ _ _ _)
      · rfl
    rw [hfalse]
    rcases s with _ | ⟨a, _ | ⟨b, _ | ⟨c, rest⟩⟩⟩
    · simp
    · simp
    · simp
    · exact absurd rfl (hshort _ _ _ _)

theorem isWord_of_isDigit {c : CodeUnit} (h : isDigit c = true) : isWord c = true := by
  simp only [isWord, h, Bool.true_or]

theorem replaceThrees_some {before : CodeUnit} (hbefore : isDigit before = true) (s : JsString)
    (h : ∀ c ∈ s, isDigit c = true) : replaceThrees (some before) s =
      if s ≠ [] ∧ s.length % 3 = 0 then comma :: grouped s else grouped s := by
  induction s generalizing before with
  | nil => rfl
  | cons c rest ih =>
    have hc := h c List.mem_cons_self
    have hrest := ih hc fun x hx => h x (List.mem_cons_of_mem c hx)
    have hinside : notAtBoundary (some before) c = true := by
      simp [notAtBoundary, isWord_of_isDigit hbefore, isWord_of_isDigit hc]
    have hgrouped : grouped (c :: rest) = c :: replaceThrees (some c) rest := by
      rw [hrest, grouped]
      split_ifs <;> rfl
    rw [replaceThrees, hinside, Bool.true_and, hgrouped]
    simp only [threesAhead_iff (c :: rest) h]

/-- On digits, the regular expression is grouping. -/
theorem grouped_eq_replaceThrees (s : JsString) (h : ∀ c ∈ s, isDigit c = true) :
    replaceThrees none s = grouped s := by
  cases s with
  | nil => rfl
  | cons c rest =>
    have hc := h c List.mem_cons_self
    have hstart : notAtBoundary none c = false := by
      simp [notAtBoundary, isWord_of_isDigit hc]
    rw [replaceThrees, hstart, Bool.false_and, if_neg Bool.false_ne_true, grouped,
      replaceThrees_some hc rest fun x hx => h x (List.mem_cons_of_mem c hx)]
    split_ifs <;> rfl

/-- `formatMinorUnits` with the digits grouped by the regular expression. -/
theorem formatMinorUnits_eq_replaceThrees (amountMinor : ℤ) (currency : JsString) :
    formatMinorUnits amountMinor currency =
      (if amountMinor < 0 then js "-" else []) ++
        (if currency = js "BDT" then js "৳" else currency ++ js " ") ++
        replaceThrees none (decimal ((amountMinor.natAbs / MINOR_UNITS_PER_MAJOR : ℕ) : ℤ)) ++
        js "." ++ padded 2 (amountMinor.natAbs % MINOR_UNITS_PER_MAJOR) := by
  rw [formatMinorUnits, grouped_eq_replaceThrees _ fun c hc => isDigit_decimal hc]

example : replaceThrees none (js "1234567") = js "1,234,567" := by decide +kernel

end Regex

section Locale

/-- Commas between groups of three, on the digits from the last to the first. -/
def groupThrees : JsString → JsString
  | a :: b :: c :: d :: rest => a :: b :: c :: comma :: groupThrees (d :: rest)
  | s => s

/-- `n.toLocaleString('en-US')` of an integer. -/
def toLocaleString (n : ℕ) : JsString := (groupThrees (decimal n).reverse).reverse

/-- `s.padStart(k, '0')`. -/
def padStart (k : ℕ) (s : JsString) : JsString := List.replicate (k - s.length) (decimalUnit 0) ++ s

def taka : JsString := js "৳"

/-- JavaScript numbers as exact integers. -/
def formatMinorAmount (amountMinor : ℤ) : JsString :=
  let absolute := amountMinor.natAbs
  let major := absolute / MINOR_PER_MAJOR
  let minor := absolute % MINOR_PER_MAJOR
  (if amountMinor < 0 then js "-" else []) ++ toLocaleString major ++ js "." ++
    padStart 2 (decimal minor)

def formatBdt (amountMinor : ℤ) : JsString :=
  (if amountMinor < 0 then js "-" else []) ++ taka ++ formatMinorAmount amountMinor.natAbs

def withoutSign (s : JsString) : JsString := s.filter fun c => ¬ taka.contains c

example : formatBdt (-250000) = js "-৳2,500.00" := by decide +kernel

theorem grouped_append_three (s : JsString) {t : JsString} (hs : s ≠ []) (ht : t.length = 3) :
    grouped (s ++ t) = grouped s ++ comma :: grouped t := by
  induction s with
  | nil => exact absurd rfl hs
  | cons c rest ih =>
    have hlen : (rest ++ t).length % 3 = rest.length % 3 := by
      rw [List.length_append, ht]
      omega
    have hne : rest ++ t ≠ [] := by
      rintro hnil
      rw [(List.append_eq_nil_iff.1 hnil).2] at ht
      cases ht
    rw [List.cons_append, grouped, grouped, hlen]
    cases rest with
    | nil =>
      have htail : t ≠ [] := hne
      simp [grouped, htail, comma]
    | cons d rest =>
      have hcons : d :: rest ≠ [] := List.cons_ne_nil d rest
      have hrest := ih hcons
      simp only [hne, hcons, ne_eq, not_false_eq_true, true_and, hrest]
      split_ifs <;> simp

theorem grouped_of_short {s : JsString} (h : s.length ≤ 3) : grouped s = s := by
  induction s with
  | nil => rfl
  | cons c rest ih =>
    have hshort : rest.length ≤ 2 := Nat.le_of_succ_le_succ h
    rw [grouped, ih (by omega), if_neg]
    rintro ⟨hne, hmod⟩
    have hpos := List.length_pos_iff.2 hne
    omega

/-- The locale groups as the regular expression does. -/
theorem groupThrees_eq (s : JsString) : (groupThrees s).reverse = grouped s.reverse := by
  induction s using groupThrees.induct with
  | case1 a b c d rest ih =>
    have hne : (d :: rest).reverse ≠ [] := by simp
    have hsplit : (a :: b :: c :: d :: rest).reverse = (d :: rest).reverse ++ [c, b, a] := by simp
    rw [hsplit, grouped_append_three _ hne rfl, ← ih, grouped_of_short (by simp), groupThrees]
    simp
  | case2 s hshort =>
    have hlen : s.length ≤ 3 := by
      rcases s with _ | ⟨a, _ | ⟨b, _ | ⟨c, _ | ⟨d, rest⟩⟩⟩⟩
      · simp
      · simp
      · simp
      · simp
      · exact absurd rfl (hshort _ _ _ _ _)
    have hsame : groupThrees s = s := by
      unfold groupThrees
      split
      · exact absurd rfl (hshort _ _ _ _ _)
      · rfl
    rw [hsame, grouped_of_short (by simpa using hlen)]

theorem toLocaleString_eq (n : ℕ) : toLocaleString n = grouped (decimal n) := by
  rw [toLocaleString, groupThrees_eq, List.reverse_reverse]

theorem padStart_decimal {n : ℕ} (h : n < 100) : padStart 2 (decimal n) = padded 2 n := by
  revert n
  decide +kernel

theorem formatMinorAmount_natCast (n : ℕ) : formatMinorAmount n =
    grouped (decimal ((n / 100 : ℕ) : ℤ)) ++ js "." ++ padded 2 (n % 100) := by
  have hpos : ¬ (n : ℤ) < 0 := by omega
  rw [formatMinorAmount, if_neg hpos, List.nil_append, toLocaleString_eq, Int.natAbs_natCast,
    MINOR_PER_MAJOR, padStart_decimal (Nat.mod_lt _ (by decide))]

theorem formatMinorUnits_eq (n : ℤ) : formatMinorUnits n (js "BDT") = formatBdt n := by
  rw [formatMinorUnits, formatBdt, formatMinorAmount_natCast, if_pos rfl, MINOR_UNITS_PER_MAJOR]
  simp only [taka, List.append_assoc]

end Locale

section RoundTrip

theorem mem_grouped {s : JsString} {c : CodeUnit} (h : c ∈ grouped s) : c = comma ∨ c ∈ s := by
  induction s with
  | nil => cases h
  | cons d rest ih =>
    have later (hc : c ∈ grouped rest) : c = comma ∨ c ∈ d :: rest :=
      (ih hc).imp_right (List.mem_cons_of_mem d)
    rw [grouped] at h
    split_ifs at h
    · rcases List.mem_cons.1 h with rfl | h
      · exact Or.inr List.mem_cons_self
      · exact (List.mem_cons.1 h).elim Or.inl later
    · exact (List.mem_cons.1 h).elim (fun hc => Or.inr (hc ▸ List.mem_cons_self)) later

theorem filter_grouped (s : JsString) :
    (grouped s).filter (· ≠ comma) = s.filter (· ≠ comma) := by
  induction s with
  | nil => rfl
  | cons c rest ih =>
    have hcomma : (0x2C :: grouped rest).filter (· ≠ comma) = (grouped rest).filter (· ≠ comma) :=
      List.filter_cons_of_neg (by decide)
    rw [grouped]
    split_ifs
    · rw [List.filter_cons, hcomma, ih, List.filter_cons]
    · rw [List.filter_cons, ih, List.filter_cons]

/-- What an amount is written with. -/
theorem unit_of_formatMinorAmount {n : ℕ} {c : CodeUnit} (h : c ∈ formatMinorAmount n) :
    c = comma ∨ c = point ∨ isDigit c = true := by
  rw [formatMinorAmount_natCast] at h
  rcases List.mem_append.1 h with h | h
  · rcases List.mem_append.1 h with h | h
    · exact (mem_grouped h).imp_right fun hc => Or.inr (isDigit_decimal hc)
    · exact Or.inr (Or.inl (List.mem_singleton.1 h))
  · obtain ⟨d, hd, rfl⟩ := List.mem_map.1 h
    exact Or.inr (Or.inr (isDigit_decimalUnit (digits_lt (by decide) hd)))

theorem isWhite_of_isDigit {c : CodeUnit} (h : isDigit c = true) : isWhite c = false := by
  obtain ⟨d, hd, rfl⟩ := decimalUnit_of_isDigit h
  exact isWhite_decimalUnit hd

/-- A unit that is neither a comma nor a digit stays out of what is left of the commas. -/
theorem filter_digits {ds : List ℕ} (h : IsDigits ds) :
    (digitText ds).filter (· ≠ comma) = digitText ds := by
  refine List.filter_eq_self.2 fun c hc => decide_eq_true ?_
  rintro rfl
  exact absurd (all_isDigit_iff.2 ⟨ds, h, rfl⟩ comma hc) (by decide)

theorem parts_formatMinorAmount (n : ℕ) :
    Parts (cleaned (formatMinorAmount n)) (decimalDigits (n / 100)) (digits 10 2 (n % 100)) := by
  have hmajor : IsDigits (decimalDigits (n / 100)) := fun d hd => decimalDigits_lt hd
  have hminor : IsDigits (digits 10 2 (n % 100)) := fun d hd => digits_lt (by decide) hd
  have htrim : trim (formatMinorAmount n) = formatMinorAmount n := by
    refine trim_eq fun c hc => ?_
    rcases unit_of_formatMinorAmount hc with rfl | rfl | hdigit
    · decide
    · decide
    · exact isWhite_of_isDigit hdigit
  have hpoint : (js ".").filter (· ≠ comma) = [point] := by decide
  refine ⟨hmajor, hminor, (length_digits 10 2 _).le, Or.inr ?_⟩
  have hpadded : padded 2 (n % 100) = digitText (digits 10 2 (n % 100)) := rfl
  rw [cleaned, htrim, formatMinorAmount_natCast, decimal_natCast, List.filter_append,
    List.filter_append, filter_grouped, hpoint, hpadded, filter_digits hminor]
  exact (congrArg (· ++ [point] ++ digitText (digits 10 2 (n % 100)))
    (filter_digits hmajor)).trans (by simp)

theorem parse_formatMinorAmount (R : Rounding) {n : ℕ} (h : 1 ≤ n) (hmax : n ≤ MAX_AMOUNT_MINOR) :
    parseBdtToMinor R (formatMinorAmount n) = .ok n := by
  refine (parseBdtToMinor_parts R (parts_formatMinorAmount n) n).2 ⟨Or.inl ?_, ?_, h, hmax⟩
  · exact decimalDigits_ne_nil _
  · have hlt : n % 100 < 10 ^ 2 := Nat.mod_lt _ (by decide)
    rw [minorUnits, ofDigits_decimalDigits, ofDigits_digits 10 2 _ hlt, length_digits,
      MINOR_PER_MAJOR]
    omega

theorem withoutSign_formatBdt (n : ℕ) : withoutSign (formatBdt n) = formatMinorAmount n := by
  have hpos : ¬ (n : ℤ) < 0 := by omega
  have hsign : withoutSign taka = [] := by decide
  have hamount : withoutSign (formatMinorAmount n) = formatMinorAmount n := by
    refine List.filter_eq_self.2 fun c hc => ?_
    rcases unit_of_formatMinorAmount hc with rfl | rfl | hdigit
    · decide
    · decide
    · refine decide_eq_true fun hmem => ?_
      rw [List.mem_singleton.1 (List.contains_iff_mem.1 hmem)] at hdigit
      exact absurd hdigit (by decide)
  rw [withoutSign, formatBdt, if_neg hpos, List.nil_append, List.filter_append, Int.natAbs_natCast]
  exact (congrArg₂ (· ++ ·) hsign hamount).trans (List.nil_append _)

/-- The two formatters show the same text, and the parser takes back what the web app
shows without a currency sign, and what either shows without it, to the same amount. -/
theorem formatters_agree_and_invert (R : Rounding) :
    (∀ n : ℤ, n.natAbs ≤ 10 ^ 12 → formatMinorUnits n (js "BDT") = formatBdt n) ∧
    ∀ n : ℕ, 1 ≤ n → n ≤ 10 ^ 12 → parseBdtToMinor R (formatMinorAmount n) = .ok n ∧
      parseBdtToMinor R (withoutSign (formatMinorUnits n (js "BDT"))) = .ok n ∧
      parseBdtToMinor R (withoutSign (formatBdt n)) = .ok n := by
  refine ⟨fun n _ => formatMinorUnits_eq n, fun n h hmax => ?_⟩
  have hparse := parse_formatMinorAmount R h hmax
  refine ⟨hparse, ?_, ?_⟩
  · rw [formatMinorUnits_eq, withoutSign_formatBdt, hparse]
  · rw [withoutSign_formatBdt, hparse]

theorem formatters_agree_and_invert_grouped :
    formatMinorUnits (-123456789) (js "BDT") = formatBdt (-123456789) ∧
    parseBdtToMinor double (withoutSign (formatBdt 123456789)) = .ok 123456789 :=
  ⟨(formatters_agree_and_invert double).1 (-123456789) (by decide),
    ((formatters_agree_and_invert double).2 123456789 (by decide) (by decide)).2.2⟩

example : formatBdt 123456789 = js "৳1,234,567.89" := by decide +kernel

end RoundTrip

end MoneyMovement
