import Mathlib.Data.List.TakeWhile
import MoneyMovement.Basic.Money

/-!
# Numbers as text

The text of a finite number is that of the shortest decimal that is read as it: plain,
with a point, or with an exponent, as its size demands. The text read back is the
number, so different numbers have different texts.
-/

namespace MoneyMovement

section Text

/-- `±significand * 10 ^ exponent`, with no zero at the end of the significand. -/
@[ext] structure Shortest where
  negative : Bool
  significand : ℕ
  exponent : ℤ
  last : significand % 10 ≠ 0

/-- A finite number; the zeros are one. -/
inductive JsNumber where
  | zero
  | nonzero (d : Shortest)

def exponentMark : CodeUnit := 0x65

def exponentText (e : ℤ) : JsString :=
  exponentMark :: (if e < 0 then hyphen else 0x2B) :: decimal e.natAbs

/-- `Number.prototype.toString`; the point stands after the first `n` digits. -/
def magnitudeText (significand : ℕ) (exponent : ℤ) : JsString :=
  let s := decimal significand
  let n := s.length + exponent
  if s.length ≤ n ∧ n ≤ 21 then s ++ List.replicate (n - s.length).toNat (decimalUnit 0)
  else if 0 < n ∧ n ≤ 21 then s.take n.toNat ++ point :: s.drop n.toNat
  else if -6 < n ∧ n ≤ 0 then
    decimalUnit 0 :: point :: (List.replicate (-n).toNat (decimalUnit 0) ++ s)
  else if s.length = 1 then s ++ exponentText (n - 1)
  else s.take 1 ++ point :: s.drop 1 ++ exponentText (n - 1)

def numberText : JsNumber → JsString
  | .zero => [decimalUnit 0]
  | .nonzero d =>
    (if d.negative then [hyphen] else []) ++ magnitudeText d.significand d.exponent

end Text

section Value

def Shortest.value (d : Shortest) : ℚ :=
  (if d.negative then -1 else 1) * (d.significand * 10 ^ d.exponent)

def JsNumber.value : JsNumber → ℚ
  | .zero => 0
  | .nonzero d => d.value

theorem Shortest.significand_pos (d : Shortest) : 0 < d.significand := by
  have := d.last
  omega

theorem significand_eq {s t : ℕ} {a b : ℤ} (hs : s % 10 ≠ 0) (hab : a ≤ b)
    (h : (s * 10 ^ a : ℚ) = t * 10 ^ b) : s = t ∧ a = b := by
  obtain ⟨k, rfl⟩ := Int.le.dest hab
  have hcancel : (s : ℚ) = t * 10 ^ k := by
    rw [zpow_add₀ (by norm_num), zpow_natCast, mul_comm ((10 : ℚ) ^ a), ← mul_assoc] at h
    exact mul_right_cancel₀ (zpow_ne_zero a (by norm_num)) h
  have hnat : s = t * 10 ^ k := by exact_mod_cast hcancel
  cases k with
  | zero => simpa using hnat
  | succ k =>
    rw [pow_succ, ← mul_assoc] at hnat
    omega

theorem Shortest.value_injective : Function.Injective Shortest.value := by
  have hpos (d : Shortest) : 0 < (d.significand * 10 ^ d.exponent : ℚ) :=
    mul_pos (by exact_mod_cast d.significand_pos) (zpow_pos (by norm_num) _)
  intro d d' h
  have hd := hpos d
  have hd' := hpos d'
  have hsign : d.negative = d'.negative ∧
      (d.significand * 10 ^ d.exponent : ℚ) = d'.significand * 10 ^ d'.exponent := by
    simp only [value] at h
    cases hn : d.negative <;> cases hn' : d'.negative <;> simp only [hn, hn'] at h
    · exact ⟨rfl, by simpa using h⟩
    · simp at h
      linarith
    · simp at h
      linarith
    · exact ⟨rfl, by simpa using h⟩
  have hparts : d.significand = d'.significand ∧ d.exponent = d'.exponent := by
    rcases le_total d.exponent d'.exponent with hle | hle
    · exact significand_eq d.last hle hsign.2
    · obtain ⟨hs, he⟩ := significand_eq d'.last hle hsign.2.symm
      exact ⟨hs.symm, he.symm⟩
  exact Shortest.ext hsign.1 hparts.1 hparts.2

theorem Shortest.value_ne_zero (d : Shortest) : d.value ≠ 0 := by
  have hpos : (d.significand * 10 ^ d.exponent : ℚ) ≠ 0 :=
    mul_ne_zero (by exact_mod_cast d.significand_pos.ne') (zpow_ne_zero _ (by norm_num))
  unfold value
  split_ifs <;> simpa using hpos

theorem JsNumber.value_injective : Function.Injective JsNumber.value := by
  intro x y h
  cases x with
  | zero =>
    cases y with
    | zero => rfl
    | nonzero d => exact absurd h.symm d.value_ne_zero
  | nonzero d =>
    cases y with
    | zero => exact absurd h d.value_ne_zero
    | nonzero d' => rw [Shortest.value_injective h]

end Value

section Reading

def fractionLength (m : JsString) : ℕ := ((m.dropWhile (· ≠ point)).drop 1).length

def readExponent : JsString → ℤ
  | _ :: sign :: ds => if sign = hyphen then -(shown ds) else shown ds
  | _ => 0

def readMagnitude (t : JsString) : ℚ :=
  let mantissa := t.takeWhile (· ≠ exponentMark)
  let exponent := readExponent (t.dropWhile (· ≠ exponentMark))
  shown mantissa * 10 ^ (exponent - fractionLength mantissa)

def readNumber (t : JsString) : ℚ :=
  if t.head? = some hyphen then -readMagnitude (t.drop 1) else readMagnitude t

/-- Digits that are read as `v`, `k` of them after the point. -/
structure Mantissa (m : JsString) (v k : ℕ) : Prop where
  unmarked : exponentMark ∉ m
  shown : shown m = v
  fraction : fractionLength m = k

theorem exponentMark_not_mem {ds : List ℕ} (h : IsDigits ds) : exponentMark ∉ digitText ds := by
  intro hm
  exact absurd (all_isDigit_iff.2 ⟨ds, h, rfl⟩ _ hm) (by decide)

theorem point_not_mem {ds : List ℕ} (h : IsDigits ds) : point ∉ digitText ds := by
  intro hm
  exact ne_point_of_isDigit (all_isDigit_iff.2 ⟨ds, h, rfl⟩ _ hm) rfl

theorem Mantissa.whole {ds : List ℕ} (h : IsDigits ds) :
    Mantissa (digitText ds) (ofDigits 10 ds) 0 where
  unmarked := exponentMark_not_mem h
  shown := shown_digitText h
  fraction := by
    have hdrop : (digitText ds).dropWhile (· ≠ point) = [] := by
      refine List.dropWhile_eq_nil_iff.2 (fun c hc => decide_eq_true ?_)
      rintro rfl
      exact point_not_mem h hc
    rw [fractionLength, hdrop]
    rfl

theorem Mantissa.pointed {ds fs : List ℕ} (hds : IsDigits ds) (hfs : IsDigits fs) :
    Mantissa (digitText ds ++ point :: digitText fs) (ofDigits 10 (ds ++ fs)) fs.length where
  unmarked := by
    simp only [List.mem_append, List.mem_cons, not_or]
    exact ⟨exponentMark_not_mem hds, by decide, exponentMark_not_mem hfs⟩
  shown := by
    have hpoint : digitValue 10 point = none := by decide
    rw [← shown_digitText (isDigits_append hds hfs)]
    simp [MoneyMovement.shown, digitText, hpoint]
  fraction := by
    have hall (c : CodeUnit) (hc : c ∈ digitText ds) : decide (c ≠ point) = true := by
      refine decide_eq_true ?_
      rintro rfl
      exact point_not_mem hds hc
    rw [fractionLength, List.dropWhile_append_of_pos hall, List.dropWhile_cons_of_neg (by decide)]
    simp [digitText]

theorem Mantissa.read {m : JsString} {v k : ℕ} (h : Mantissa m v k) :
    readMagnitude m = v * 10 ^ (-k : ℤ) := by
  have hall (c : CodeUnit) (hc : c ∈ m) : decide (c ≠ exponentMark) = true := by
    refine decide_eq_true ?_
    rintro rfl
    exact h.unmarked hc
  have htake : m.takeWhile (· ≠ exponentMark) = m := List.takeWhile_eq_self_iff.2 hall
  have hdrop : m.dropWhile (· ≠ exponentMark) = [] := List.dropWhile_eq_nil_iff.2 hall
  simp only [readMagnitude, htake, hdrop, h.shown, h.fraction, readExponent, zero_sub]

theorem readExponent_exponentText (e : ℤ) : readExponent (exponentText e) = e := by
  have hshown : shown (decimal e.natAbs) = e.natAbs := by
    rw [decimal_natCast]
    exact (shown_digitText (fun d hd => decimalDigits_lt hd)).trans (ofDigits_decimalDigits _)
  have hplus : (0x2B : CodeUnit) ≠ hyphen := by decide
  simp only [exponentText, readExponent, hshown]
  by_cases he : e < 0
  · simp only [if_pos he, if_true]
    omega
  · simp only [if_neg he, if_neg hplus]
    omega

theorem Mantissa.read_exponent {m : JsString} {v k : ℕ} (h : Mantissa m v k) (e : ℤ) :
    readMagnitude (m ++ exponentText e) = v * 10 ^ (e - k) := by
  have hall (c : CodeUnit) (hc : c ∈ m) : decide (c ≠ exponentMark) = true := by
    refine decide_eq_true ?_
    rintro rfl
    exact h.unmarked hc
  have htake : (m ++ exponentText e).takeWhile (· ≠ exponentMark) = m := by
    rw [List.takeWhile_append_of_pos hall, exponentText,
      List.takeWhile_cons_of_neg (by decide), List.append_nil]
  have hdrop : (m ++ exponentText e).dropWhile (· ≠ exponentMark) = exponentText e := by
    rw [List.dropWhile_append_of_pos hall, exponentText, List.dropWhile_cons_of_neg (by decide)]
  simp only [readMagnitude, htake, hdrop, h.shown, h.fraction, readExponent_exponentText]

/-- What is written of a magnitude: a mantissa, and an exponent where one is due. -/
theorem magnitudeText_cases (significand : ℕ) (exponent : ℤ) :
    (∃ v k : ℕ, Mantissa (magnitudeText significand exponent) v k ∧
      (v * 10 ^ (-k : ℤ) : ℚ) = significand * 10 ^ exponent) ∨
    ∃ m e v k, magnitudeText significand exponent = m ++ exponentText e ∧ Mantissa m v k ∧
      (v * 10 ^ (e - k) : ℚ) = significand * 10 ^ exponent := by
  have hall : IsDigits (decimalDigits significand) := fun d hd => decimalDigits_lt hd
  have htext : decimal significand = digitText (decimalDigits significand) := decimal_natCast _
  have hvalue := ofDigits_decimalDigits significand
  have hne := List.length_pos_iff.2 (decimalDigits_ne_nil significand)
  generalize decimalDigits significand = ds at hall htext hvalue hne
  have htake (n : ℕ) : IsDigits (ds.take n) := fun d hd => hall d (List.mem_of_mem_take hd)
  have hdrop (n : ℕ) : IsDigits (ds.drop n) := fun d hd => hall d (List.mem_of_mem_drop hd)
  have hlen : (digitText ds).length = ds.length := List.length_map ..
  have hpointed (n : ℕ) : Mantissa ((digitText ds).take n ++ point :: (digitText ds).drop n)
      significand (ds.length - n) := by
    have hm := Mantissa.pointed (htake n) (hdrop n)
    rw [List.take_append_drop, hvalue, List.length_drop] at hm
    simpa only [digitText, List.map_take, List.map_drop] using hm
  unfold magnitudeText
  simp only [htext, hlen]
  split_ifs with hplain hpoint hsmall hone
  · left
    obtain ⟨zeros, rfl⟩ := Int.eq_ofNat_of_zero_le (show 0 ≤ exponent by omega)
    have hm := Mantissa.whole (isDigits_append hall (isDigits_zeros zeros))
    rw [ofDigits_append_zeros, hvalue] at hm
    exact ⟨significand * 10 ^ zeros, 0, by simpa [digitText] using hm, by simp⟩
  · left
    refine ⟨_, _, hpointed _, ?_⟩
    congr 2
    omega
  · left
    have hm := Mantissa.pointed (isDigits_zeros 1)
      (isDigits_append (isDigits_zeros (-(ds.length + exponent)).toNat) hall)
    rw [ofDigits_zeros_append, ofDigits_zeros_append, hvalue] at hm
    refine ⟨significand, (-(ds.length + exponent)).toNat + ds.length,
      by simpa [digitText] using hm, ?_⟩
    congr 2
    omega
  · right
    have hm := Mantissa.whole hall
    rw [hvalue] at hm
    refine ⟨_, _, _, _, rfl, hm, ?_⟩
    congr 2
    omega
  · right
    refine ⟨_, _, _, _, rfl, hpointed 1, ?_⟩
    congr 2
    omega

theorem readMagnitude_magnitudeText (significand : ℕ) (exponent : ℤ) :
    readMagnitude (magnitudeText significand exponent) = significand * 10 ^ exponent := by
  rcases magnitudeText_cases significand exponent with ⟨v, k, hm, hv⟩ | ⟨m, e, v, k, ht, hm, hv⟩
  · rw [hm.read, hv]
  · rw [ht, hm.read_exponent, hv]

theorem isDigit_decimal {n : ℕ} {c : CodeUnit} (h : c ∈ decimal n) : isDigit c = true := by
  rw [decimal_natCast] at h
  exact all_isDigit_iff.2 ⟨_, fun d hd => decimalDigits_lt hd, rfl⟩ c h

theorem magnitudeText_eq_cons (significand : ℕ) (exponent : ℤ) :
    ∃ c rest, magnitudeText significand exponent = c :: rest ∧ isDigit c = true := by
  obtain ⟨c, s, hs⟩ : ∃ c s, decimal significand = c :: s := by
    refine List.exists_cons_of_ne_nil ?_
    rw [decimal_natCast]
    simpa using decimalDigits_ne_nil significand
  have hc : isDigit c = true := isDigit_decimal (hs ▸ List.mem_cons_self)
  unfold magnitudeText
  simp only [hs]
  split_ifs with hplain hpoint hsmall hone
  · exact ⟨c, _, rfl, hc⟩
  · obtain ⟨n, hn⟩ : ∃ n, (((c :: s).length : ℤ) + exponent).toNat = n + 1 :=
      Nat.exists_eq_add_one.2 (by omega)
    exact ⟨c, _, by rw [hn]; rfl, hc⟩
  · exact ⟨decimalUnit 0, _, rfl, by decide⟩
  · exact ⟨c, _, rfl, hc⟩
  · exact ⟨c, _, rfl, hc⟩

theorem head_magnitudeText (significand : ℕ) (exponent : ℤ) :
    (magnitudeText significand exponent).head? ≠ some hyphen := by
  obtain ⟨c, rest, htext, hc⟩ := magnitudeText_eq_cons significand exponent
  rw [htext]
  rintro ⟨⟩
  exact absurd hc (by decide)

theorem readNumber_numberText (x : JsNumber) : readNumber (numberText x) = x.value := by
  cases x with
  | zero =>
    have hm := Mantissa.whole (isDigits_zeros 1)
    rw [ofDigits_zeros] at hm
    have hread := hm.read
    change readMagnitude [decimalUnit 0] = _ at hread
    have hhead : ¬ [decimalUnit 0].head? = some hyphen := by decide
    rw [numberText, readNumber, if_neg hhead, hread, JsNumber.value]
    simp
  | nonzero d =>
    have hread := readMagnitude_magnitudeText d.significand d.exponent
    rw [numberText, readNumber, JsNumber.value, Shortest.value]
    cases hn : d.negative with
    | true => simp [hread]
    | false => simp [head_magnitudeText, hread]

/-- Different numbers have different texts. -/
theorem numberText_injective : Function.Injective numberText := by
  intro x y h
  apply JsNumber.value_injective
  rw [← readNumber_numberText, h, readNumber_numberText]

def isNumberUnit (c : CodeUnit) : Bool :=
  isDigit c || c = hyphen || c = 0x2B || c = point || c = exponentMark

theorem isNumberUnit_of_isDigit {c : CodeUnit} (h : isDigit c = true) : isNumberUnit c = true := by
  simp [isNumberUnit, h]

theorem isNumberUnit_exponentText (e : ℤ) : ∀ c ∈ exponentText e, isNumberUnit c = true := by
  intro c hc
  simp only [exponentText, List.mem_cons] at hc
  rcases hc with rfl | rfl | hc
  · decide
  · split_ifs <;> decide
  · exact isNumberUnit_of_isDigit (isDigit_decimal hc)

theorem isNumberUnit_magnitudeText (significand : ℕ) (exponent : ℤ) :
    ∀ c ∈ magnitudeText significand exponent, isNumberUnit c = true := by
  have hs : ∀ c ∈ decimal significand, isNumberUnit c = true :=
    fun c hc => isNumberUnit_of_isDigit (isDigit_decimal hc)
  have hzero : isNumberUnit (decimalUnit 0) = true := by decide
  have hpoint : isNumberUnit point = true := by decide
  have htake (n : ℕ) : ∀ c ∈ (decimal significand).take n, isNumberUnit c = true :=
    fun c hc => hs c (List.mem_of_mem_take hc)
  have hdrop (n : ℕ) : ∀ c ∈ (decimal significand).drop n, isNumberUnit c = true :=
    fun c hc => hs c (List.mem_of_mem_drop hc)
  have hzeros (k : ℕ) : ∀ c ∈ List.replicate k (decimalUnit 0), isNumberUnit c = true := by
    intro c hc
    rwa [List.eq_of_mem_replicate hc]
  have he := isNumberUnit_exponentText (((decimal significand).length : ℤ) + exponent - 1)
  unfold magnitudeText
  dsimp only
  split_ifs
  · exact List.forall_mem_append.2 ⟨hs, hzeros _⟩
  · exact List.forall_mem_append.2 ⟨htake _, List.forall_mem_cons.2 ⟨hpoint, hdrop _⟩⟩
  · exact List.forall_mem_cons.2 ⟨hzero, List.forall_mem_cons.2 ⟨hpoint,
      List.forall_mem_append.2 ⟨hzeros _, hs⟩⟩⟩
  · exact List.forall_mem_append.2 ⟨hs, he⟩
  · exact List.forall_mem_append.2 ⟨List.forall_mem_append.2
      ⟨htake _, List.forall_mem_cons.2 ⟨hpoint, hdrop _⟩⟩, he⟩

theorem isNumberUnit_numberText (x : JsNumber) : ∀ c ∈ numberText x, isNumberUnit c = true := by
  have hzero : isNumberUnit (decimalUnit 0) = true := by decide
  have hminus : isNumberUnit hyphen = true := by decide
  cases x with
  | zero => exact List.forall_mem_singleton.2 hzero
  | nonzero d =>
    refine List.forall_mem_append.2 ⟨?_, isNumberUnit_magnitudeText _ _⟩
    split_ifs
    · exact List.forall_mem_singleton.2 hminus
    · exact List.forall_mem_nil _

theorem numberText_ne_nil (x : JsNumber) : numberText x ≠ [] := by
  cases x with
  | zero => decide
  | nonzero d =>
    obtain ⟨c, rest, htext, -⟩ := magnitudeText_eq_cons d.significand d.exponent
    rw [numberText, htext]
    simp

example : numberText (.nonzero ⟨true, 125, -1, by decide⟩) = js "-12.5" := by decide +kernel

example : numberText (.nonzero ⟨false, 15, -9, by decide⟩) = js "1.5e-8" := by decide +kernel

end Reading

end MoneyMovement
