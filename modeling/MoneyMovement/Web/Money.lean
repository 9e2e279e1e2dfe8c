import Mathlib.Data.List.TakeWhile
import MoneyMovement.Basic.Money
import MoneyMovement.Basic.Rounding

/-!
# Amounts typed by a user

`parseBdtToMinor` reads a text in taka into minor units. Its digits go through
JavaScript numbers, which round and overflow; every accepted amount is the exact
value of the text all the same, because a rounded number is never small enough.
-/

namespace MoneyMovement

def MINOR_PER_MAJOR : ℕ := 100

def MAX_AMOUNT_MINOR : ℕ := 1000000000000

def MAX_SAFE_INTEGER : ℕ := 2 ^ 53 - 1

inductive AmountParseResult where
  | ok (amountMinor : ℕ)
  | error (message : JsString)
  deriving DecidableEq

section Parsing

def comma : CodeUnit := 0x2C

/-- `raw.trim().replace(/,/g, '')`. -/
def cleaned (raw : JsString) : JsString := (trim raw).filter (· ≠ comma)

/-- The test `/^\d*(\.\d{0,2})?$/`. -/
def amountPattern (s : JsString) : Bool :=
  match s.dropWhile isDigit with
  | [] => true
  | c :: rest => c = point ∧ rest.length ≤ 2 ∧ rest.all isDigit

/-- `s.padEnd(k, '0')`. -/
def padEnd (k : ℕ) (s : JsString) : JsString := s ++ List.replicate (k - s.length) (decimalUnit 0)

/-- `Number(s)` of a text of decimal digits. -/
def Rounding.ofText (R : Rounding) (s : JsString) : ℕ∞ := R.round (shown s)

def amountOfParts (R : Rounding) (majorPart minorPart : JsString) : ℕ∞ :=
  let major := if majorPart.length > 0 then R.ofText majorPart else 0
  let minor := R.ofText (padEnd 2 minorPart)
  R.lift (R.lift (major * MINOR_PER_MAJOR) + minor)

def parseBdtToMinor (R : Rounding) (raw : JsString) : AmountParseResult :=
  let cleaned := cleaned raw
  if cleaned.length = 0 then .error (js "Enter an amount.")
  else if ¬ amountPattern cleaned then
    .error (js "Enter a valid amount, up to 2 decimal places.")
  else
    let parts := cleaned.splitOn point
    let majorPart := parts[0]?.getD []
    let minorPart := parts[1]?.getD []
    if majorPart.length = 0 ∧ minorPart.length = 0 then .error (js "Enter an amount.")
    else match amountOfParts R majorPart minorPart with
      | ⊤ => .error (js "That amount is too large.")
      | (amountMinor : ℕ) =>
        if amountMinor > MAX_SAFE_INTEGER then .error (js "That amount is too large.")
        else if amountMinor ≤ 0 then .error (js "Amount must be greater than zero.")
        else if amountMinor > MAX_AMOUNT_MINOR then
          .error (js "That amount exceeds the maximum allowed.")
        else .ok amountMinor

end Parsing

section Numerals

/-- `s` is a decimal numeral of at least one digit and at most two after the
point, and its exact value is `v`. -/
inductive Numeral : JsString → ℚ → Prop where
  | whole (ds : List ℕ) (hds : IsDigits ds) (hne : ds ≠ []) :
    Numeral (digitText ds) (ofDigits 10 ds)
  | fraction (ds fs : List ℕ) (hds : IsDigits ds) (hfs : IsDigits fs) (hne : ds ≠ [] ∨ fs ≠ [])
    (hlen : fs.length ≤ 2) :
    Numeral (digitText ds ++ point :: digitText fs)
      (ofDigits 10 ds + ofDigits 10 fs / 10 ^ fs.length)

structure Parts (s : JsString) (ds fs : List ℕ) : Prop where
  major : IsDigits ds
  minor : IsDigits fs
  short : fs.length ≤ 2
  text : s = digitText ds ∧ fs = [] ∨ s = digitText ds ++ point :: digitText fs

theorem amountPattern_iff {s : JsString} : amountPattern s = true ↔ ∃ ds fs, Parts s ds fs := by
  constructor
  · intro h
    have hsplit := List.takeWhile_append_dropWhile (p := isDigit) (l := s)
    obtain ⟨ds, hds, htake⟩ := all_isDigit_iff.1
      (fun c (hc : c ∈ s.takeWhile isDigit) => List.mem_takeWhile_imp hc)
    unfold amountPattern at h
    cases hdrop : s.dropWhile isDigit with
    | nil =>
      rw [htake, hdrop, List.append_nil] at hsplit
      exact ⟨ds, [], hds, by simp [IsDigits], by simp, Or.inl ⟨hsplit.symm, rfl⟩⟩
    | cons c rest =>
      rw [hdrop] at h
      obtain ⟨rfl, hlen, hall⟩ : c = point ∧ rest.length ≤ 2 ∧ rest.all isDigit = true := by
        simpa using h
      obtain ⟨fs, hfs, rfl⟩ := all_isDigit_iff.1 (List.all_eq_true.1 hall)
      rw [htake, hdrop] at hsplit
      exact ⟨ds, fs, hds, hfs, by simpa [digitText] using hlen, Or.inr hsplit.symm⟩
  · rintro ⟨ds, fs, hds, hfs, hlen, htext⟩
    have hdigits := all_isDigit_iff.2 ⟨ds, hds, rfl⟩
    unfold amountPattern
    rcases htext with ⟨rfl, rfl⟩ | rfl
    · have hdrop : (digitText ds).dropWhile isDigit = [] := List.dropWhile_eq_nil_iff.2 hdigits
      rw [hdrop]
    · have hdrop : (digitText ds ++ point :: digitText fs).dropWhile isDigit =
          point :: digitText fs := by
        rw [List.dropWhile_append_of_pos hdigits, List.dropWhile_cons_of_neg (by decide)]
      have hall : (digitText fs).all isDigit = true :=
        List.all_eq_true.2 (all_isDigit_iff.2 ⟨fs, hfs, rfl⟩)
      rw [hdrop]
      simpa [digitText] using ⟨hlen, by simpa [digitText] using hall⟩

/-- Splitting at the point gives back the two parts. -/
theorem Parts.split {s : JsString} {ds fs : List ℕ} (h : Parts s ds fs) :
    (s.splitOn point)[0]?.getD [] = digitText ds ∧
      (s.splitOn point)[1]?.getD [] = digitText fs := by
  have hfree {es : List ℕ} (hes : IsDigits es) : ∀ c ∈ digitText es, (c == point) = false :=
    fun c hc => beq_eq_false_iff_ne.2 (ne_point_of_isDigit (all_isDigit_iff.2 ⟨es, hes, rfl⟩ c hc))
  have hmajor : (digitText ds).splitOn point = [digitText ds] :=
    List.splitOnP_eq_singleton (hfree h.major)
  have hminor : (digitText fs).splitOn point = [digitText fs] :=
    List.splitOnP_eq_singleton (hfree h.minor)
  rcases h.text with ⟨rfl, rfl⟩ | rfl
  · rw [hmajor]
    exact ⟨rfl, rfl⟩
  · have happend : (digitText ds ++ point :: digitText fs).splitOn point =
        (digitText ds).splitOn point ++ (digitText fs).splitOn point :=
      List.splitOnP_append_cons _ _ (by decide)
    rw [happend, hmajor, hminor]
    exact ⟨rfl, rfl⟩

def minorUnits (ds fs : List ℕ) : ℕ :=
  ofDigits 10 ds * MINOR_PER_MAJOR + ofDigits 10 fs * 10 ^ (2 - fs.length)

theorem shown_padEnd {fs : List ℕ} (h : IsDigits fs) :
    shown (padEnd 2 (digitText fs)) = ofDigits 10 fs * 10 ^ (2 - fs.length) := by
  have htext : padEnd 2 (digitText fs) = digitText (fs ++ List.replicate (2 - fs.length) 0) := by
    simp [padEnd, digitText]
  rw [htext, shown_digitText (isDigits_append h (isDigits_zeros _)), ofDigits_append_zeros]

theorem Numeral.parts {s : JsString} {v : ℚ} (h : Numeral s v) :
    ∃ ds fs, Parts s ds fs ∧ (ds ≠ [] ∨ fs ≠ []) ∧ v * 100 = minorUnits ds fs := by
  cases h with
  | whole ds hds hne =>
    refine ⟨ds, [], ⟨hds, by simp [IsDigits], by simp, Or.inl ⟨rfl, rfl⟩⟩, Or.inl hne, ?_⟩
    simp [minorUnits, MINOR_PER_MAJOR, ofDigits]
  | fraction ds fs hds hfs hne hlen =>
    refine ⟨ds, fs, ⟨hds, hfs, hlen, Or.inr rfl⟩, hne, ?_⟩
    have hpow : (10 : ℚ) ^ fs.length * 10 ^ (2 - fs.length) = 100 := by
      rw [← pow_add, Nat.add_sub_cancel' hlen]
      norm_num
    simp only [minorUnits, MINOR_PER_MAJOR]
    push_cast
    rw [← hpow]
    field_simp

theorem Parts.numeral {s : JsString} {ds fs : List ℕ} (h : Parts s ds fs)
    (hne : ds ≠ [] ∨ fs ≠ []) : ∃ v, Numeral s v := by
  rcases h.text with ⟨rfl, rfl⟩ | rfl
  · exact ⟨_, Numeral.whole ds h.major (by simpa using hne)⟩
  · exact ⟨_, Numeral.fraction ds fs h.major h.minor hne h.short⟩

theorem Parts.unique {s : JsString} {ds fs ds' fs' : List ℕ} (h : Parts s ds fs)
    (h' : Parts s ds' fs') : ds = ds' ∧ fs = fs' := by
  obtain ⟨hmajor, hminor⟩ := h.split
  obtain ⟨hmajor', hminor'⟩ := h'.split
  exact ⟨digitText_inj h.major h'.major (hmajor.symm.trans hmajor'),
    digitText_inj h.minor h'.minor (hminor.symm.trans hminor')⟩

end Numerals

section Exact

/-- Rounding never lands on an amount below `2^53` that is not the exact one. -/
theorem amountOfParts_eq_iff (R : Rounding) {s : JsString} {ds fs : List ℕ} (h : Parts s ds fs)
    {n : ℕ} (hn : n < 2 ^ 53) :
    amountOfParts R (digitText ds) (digitText fs) = n ↔ minorUnits ds fs = n := by
  have hmajor : (if (digitText ds).length > 0 then R.ofText (digitText ds) else 0) =
      R.round (ofDigits 10 ds) := by
    split_ifs with hlen
    · rw [Rounding.ofText, shown_digitText h.major]
    · have hnil : ds = [] := by simpa [digitText] using hlen
      rw [hnil]
      exact (R.exact 0 (by decide)).symm
  have hminor : R.ofText (padEnd 2 (digitText fs)) =
      ((ofDigits 10 fs * 10 ^ (2 - fs.length) : ℕ) : ℕ∞) := by
    have hpow : 10 ^ fs.length * 10 ^ (2 - fs.length) = 100 := by
      rw [← pow_add, Nat.add_sub_cancel' h.short]
      norm_num
    have hlt : ofDigits 10 fs * 10 ^ (2 - fs.length) < 100 := by
      rw [← hpow]
      exact Nat.mul_lt_mul_of_pos_right (ofDigits_lt h.minor) (Nat.pow_pos (by decide))
    rw [Rounding.ofText, shown_padEnd h.minor]
    exact R.exact _ (by omega)
  simp only [amountOfParts, hmajor, hminor, minorUnits, MINOR_PER_MAJOR]
  generalize ofDigits 10 fs * 10 ^ (2 - fs.length) = minor
  generalize ofDigits 10 ds = major
  rw [R.lift_eq_iff hn]
  constructor
  · intro hsum
    -- The sum is finite, so is each of its terms.
    obtain ⟨product, hproduct⟩ : ∃ p : ℕ, R.lift (R.round major * (100 : ℕ)) = p := by
      refine ENat.ne_top_iff_exists.1 ?_ |>.imp fun p hp => hp.symm
      intro htop
      rw [htop, top_add] at hsum
      exact ENat.top_ne_natCast n hsum
    have hparts : product + minor = n := by
      rw [hproduct] at hsum
      exact_mod_cast hsum
    rw [R.lift_eq_iff (by omega)] at hproduct
    obtain ⟨rounded, hrounded⟩ : ∃ m : ℕ, R.round major = m := by
      refine ENat.ne_top_iff_exists.1 ?_ |>.imp fun m hm => hm.symm
      intro htop
      rw [htop, ENat.top_mul (by decide)] at hproduct
      exact ENat.top_ne_natCast product hproduct
    have htimes : rounded * 100 = product := by
      rw [hrounded] at hproduct
      exact_mod_cast hproduct
    have hexact : major = rounded := (R.round_eq_iff (by omega)).1 hrounded
    omega
  · intro hsum
    have hmajor : R.round major = major := R.exact major (by omega)
    have hproduct : R.lift (R.round major * (100 : ℕ)) = ((major * 100 : ℕ) : ℕ∞) := by
      rw [R.lift_eq_iff (by omega), hmajor, Nat.cast_mul]
    rw [hproduct, ← Nat.cast_add, hsum]

/-- What is left of the parser once the text has its two parts. -/
theorem parseBdtToMinor_parts (R : Rounding) {raw : JsString} {ds fs : List ℕ}
    (h : Parts (cleaned raw) ds fs) (n : ℕ) :
    parseBdtToMinor R raw = .ok n ↔
      (ds ≠ [] ∨ fs ≠ []) ∧ minorUnits ds fs = n ∧ 1 ≤ n ∧ n ≤ MAX_AMOUNT_MINOR := by
  obtain ⟨hmajor, hminor⟩ := h.split
  have hpattern : amountPattern (cleaned raw) = true := amountPattern_iff.2 ⟨ds, fs, h⟩
  have hempty : (digitText ds).length = 0 ∧ (digitText fs).length = 0 ↔ ¬ (ds ≠ [] ∨ fs ≠ []) := by
    simp [digitText]
  have hblank : (cleaned raw).length = 0 → ¬ (ds ≠ [] ∨ fs ≠ []) := by
    intro hlen
    rcases h.text with ⟨htext, rfl⟩ | htext <;> rw [htext] at hlen
    · simpa [digitText] using hlen
    · simp at hlen
  have hbound : MAX_AMOUNT_MINOR ≤ MAX_SAFE_INTEGER := by decide
  have hsafe : MAX_SAFE_INTEGER < 2 ^ 53 := by decide
  simp only [parseBdtToMinor, hpattern, hmajor, hminor, not_true_eq_false, if_false]
  by_cases hne : ds ≠ [] ∨ fs ≠ []
  · rw [if_neg (fun hlen => hblank hlen hne), if_neg (fun hlen => hempty.1 hlen hne)]
    have hexact (m : ℕ) (hm : m ≤ MAX_SAFE_INTEGER) :=
      amountOfParts_eq_iff R h (hm.trans_lt hsafe)
    generalize amountOfParts R (digitText ds) (digitText fs) = amount at hexact
    cases amount using ENat.recTopCoe with
    | top =>
      constructor
      · rintro ⟨⟩
      · rintro ⟨-, heq, -, hmax⟩
        exact absurd ((hexact n (hmax.trans hbound)).2 heq) (ENat.top_ne_natCast n)
    | coe m =>
      have hcast (k : ℕ) (hk : k ≤ MAX_SAFE_INTEGER) : m = k ↔ minorUnits ds fs = k :=
        Nat.cast_inj.symm.trans (hexact k hk)
      dsimp only
      split_ifs with hunsafe hzero hmax
      · refine ⟨by rintro ⟨⟩, ?_⟩
        rintro ⟨-, heq, -, hle⟩
        have := (hcast n (hle.trans hbound)).2 heq
        omega
      · refine ⟨by rintro ⟨⟩, ?_⟩
        rintro ⟨-, heq, hone, hle⟩
        have := (hcast n (hle.trans hbound)).2 heq
        omega
      · refine ⟨by rintro ⟨⟩, ?_⟩
        rintro ⟨-, heq, -, hle⟩
        have := (hcast n (hle.trans hbound)).2 heq
        omega
      · constructor
        · intro hok
          obtain rfl : m = n := AmountParseResult.ok.inj hok
          exact ⟨hne, (hcast m (not_lt.1 hunsafe)).1 rfl, by omega, not_lt.1 hmax⟩
        · rintro ⟨-, heq, -, hle⟩
          rw [(hcast n (hle.trans hbound)).2 heq]
  · rw [if_pos (hempty.2 hne), ite_self]
    refine ⟨by rintro ⟨⟩, ?_⟩
    rintro ⟨hparts, -⟩
    exact absurd hparts hne

/-- An amount is accepted with the exact value of the text, and with no other. -/
theorem parseBdtToMinor_ok_iff (R : Rounding) (raw : JsString) (n : ℕ) :
    parseBdtToMinor R raw = .ok n ↔
      (∃ v : ℚ, Numeral (cleaned raw) v ∧ v * 100 = n) ∧ 1 ≤ n ∧ n ≤ 10 ^ 12 := by
  constructor
  · intro hok
    have hpattern : amountPattern (cleaned raw) = true := by
      by_contra hno
      unfold parseBdtToMinor at hok
      dsimp only at hok
      split_ifs at hok
    obtain ⟨ds, fs, hparts⟩ := amountPattern_iff.1 hpattern
    obtain ⟨hne, hvalue, hone, hmax⟩ := (parseBdtToMinor_parts R hparts n).1 hok
    obtain ⟨v, hv⟩ := hparts.numeral hne
    obtain ⟨ds', fs', hparts', -, hunits⟩ := hv.parts
    obtain ⟨rfl, rfl⟩ := hparts.unique hparts'
    exact ⟨⟨v, hv, by rw [hunits, hvalue]⟩, hone, hmax⟩
  · rintro ⟨⟨v, hv, hvalue⟩, hone, hmax⟩
    obtain ⟨ds, fs, hparts, hne, hunits⟩ := hv.parts
    rw [hunits] at hvalue
    exact (parseBdtToMinor_parts R hparts n).2 ⟨hne, by exact_mod_cast hvalue, hone, hmax⟩

example : parseBdtToMinor double (js " 2,500.75 ") = .ok 250075 := by decide +kernel

end Exact

end MoneyMovement
