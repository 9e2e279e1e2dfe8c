import MoneyMovement.Basic.Money

/-!
# Reading dates back

What `toISOString` writes, `new Date` reads: the calendar is inverted within an era
of 400 years, and the texts field by field.
-/

namespace MoneyMovement

section Calendar

/-- The day of a Gregorian date, counted from 1970-01-01. -/
def dayOfCivil (date : Civil) : ℤ :=
  let year := if 2 < date.month then date.year else date.year - 1
  let month := if 2 < date.month then date.month - 3 else date.month + 9
  let yearOfEra := (year % 400).toNat
  let dayOfYear := (153 * month + 2) / 5 + date.day - 1
  let dayOfEra := yearOfEra * 365 + yearOfEra / 4 - yearOfEra / 100 + dayOfYear
  year / 400 * 146097 + dayOfEra - 719468

/-- The year of a day within an era, and the day within that year. -/
theorem yearOfEra_spec {n : ℕ} (h : n < 146097) :
    (n - n / 1460 + n / 36524 - n / 146096) / 365 ≤ 399 ∧
    ∃ d ≤ 365, n = 365 * ((n - n / 1460 + n / 36524 - n / 146096) / 365) +
      ((n - n / 1460 + n / 36524 - n / 146096) / 365) / 4 -
      ((n - n / 1460 + n / 36524 - n / 146096) / 365) / 100 + d := by
  by_cases hlast : n = 146096
  · subst hlast
    exact ⟨by decide, 365, by decide, by decide⟩
  · -- Centuries of 36524 days, and in them four years of 1461 days.
    obtain ⟨c, r, hr, rfl⟩ : ∃ c r, r < 36524 ∧ n = 36524 * c + r :=
      ⟨n / 36524, n % 36524, Nat.mod_lt _ (by decide), (Nat.div_add_mod n 36524).symm⟩
    obtain ⟨q, s, hs, rfl⟩ : ∃ q s, s < 1461 ∧ r = 1461 * q + s :=
      ⟨r / 1461, r % 1461, Nat.mod_lt _ (by decide), (Nat.div_add_mod r 1461).symm⟩
    have hc : c ≤ 3 := by omega
    have hq : q ≤ 24 := by omega
    obtain ⟨u, t, hu, ht, htlow, hthigh, hyears, hquad⟩ : ∃ u t, u ≤ s ∧ t ≤ 3 ∧ 365 * t ≤ s ∧
        s ≤ 365 * t + 365 ∧ (s - u) / 365 = t ∧
        (36524 * c + (1461 * q + s)) / 1460 = 25 * c + q + u := by
      by_cases hlong : 24 * c + q + s < 1460
      · exact ⟨0, s / 365, by omega, by omega, by omega, by omega, rfl, by omega⟩
      · exact ⟨1, 3, by omega, by omega, by omega, by omega, by omega, by omega⟩
    have hcentury : (36524 * c + (1461 * q + s)) / 36524 = c := by omega
    have hera : (36524 * c + (1461 * q + s)) / 146096 = 0 := by omega
    have hyear : (36524 * c + (1461 * q + s) - (36524 * c + (1461 * q + s)) / 1460 +
        (36524 * c + (1461 * q + s)) / 36524 - (36524 * c + (1461 * q + s)) / 146096) / 365 =
        100 * c + 4 * q + t := by
      rw [hquad, hcentury, hera]
      omega
    have hleap : (100 * c + 4 * q + t) / 4 = 25 * c + q := by omega
    have hcommon : (100 * c + 4 * q + t) / 100 = c := by omega
    rw [hyear, hleap, hcommon]
    exact ⟨by omega, s - 365 * t, by omega, by omega⟩

/-- The month of a day in a year that begins in March, and the day of the month. -/
theorem monthOfYear_spec {d : ℕ} (h : d ≤ 365) : (5 * d + 2) / 153 ≤ 11 ∧
    (153 * ((5 * d + 2) / 153) + 2) / 5 ≤ d ∧ d - (153 * ((5 * d + 2) / 153) + 2) / 5 ≤ 30 := by
  omega

structure Civil.Valid (date : Civil) : Prop where
  month : 1 ≤ date.month ∧ date.month ≤ 12
  day : 1 ≤ date.day ∧ date.day ≤ 31

theorem civilOfDay_spec (day : ℤ) :
    (civilOfDay day).Valid ∧ dayOfCivil (civilOfDay day) = day := by
  have hn : ((day + 719468) % 146097).toNat < 146097 := by omega
  have hday : day = (day + 719468) / 146097 * 146097 + (((day + 719468) % 146097).toNat : ℤ) -
      719468 := by omega
  revert hn hday
  generalize hera : (day + 719468) / 146097 = era
  generalize hdoe : ((day + 719468) % 146097).toNat = n
  intro hn hday
  obtain ⟨hy, d, hd, hnd⟩ := yearOfEra_spec hn
  obtain ⟨hm, hmlow, hmhigh⟩ := monthOfYear_spec hd
  simp only [civilOfDay, hera, hdoe]
  revert hy hnd
  generalize (n - n / 1460 + n / 36524 - n / 146096) / 365 = y
  intro hy hnd
  have hdoy : n - (365 * y + y / 4 - y / 100) = d := by omega
  rw [hdoy]
  revert hm hmlow hmhigh
  generalize (5 * d + 2) / 153 = m
  intro hm hmlow hmhigh
  refine ⟨⟨?_, ?_⟩, ?_⟩
  · dsimp only
    split_ifs <;> omega
  · dsimp only
    omega
  · -- The year that began in March, and the month counted from it.
    have hyear : (if 2 < (if m < 10 then m + 3 else m - 9) then
        (y : ℤ) + era * 400 + (if m < 10 then 0 else 1)
        else (y : ℤ) + era * 400 + (if m < 10 then 0 else 1) - 1) = y + era * 400 := by
      split_ifs <;> omega
    have hmonth : (if 2 < (if m < 10 then m + 3 else m - 9) then
        (if m < 10 then m + 3 else m - 9) - 3 else (if m < 10 then m + 3 else m - 9) + 9) = m := by
      split_ifs <;> omega
    have hera' : ((y : ℤ) + era * 400) / 400 = era := by omega
    have hmod : (((y : ℤ) + era * 400) % 400).toNat = y := by omega
    simp only [dayOfCivil, hyear, hmonth, hera', hmod]
    omega

theorem civilOfDay_year {day : ℤ} (h : day.natAbs ≤ 100000000) :
    (civilOfDay day).year.natAbs < 10 ^ 6 := by
  have hn : ((day + 719468) % 146097).toNat < 146097 := by omega
  obtain ⟨hy, -⟩ := yearOfEra_spec hn
  simp only [civilOfDay]
  split_ifs <;> omega

end Calendar

section Fields

def digits? (k : ℕ) (s : JsString) : Option (ℕ × JsString) :=
  if s.length < k then none else (natIn 10 (s.take k)).map (·, s.drop k)

def skip? (p s : JsString) : Option JsString :=
  if p.isPrefixOf s then some (s.drop p.length) else none

/-- Four digits, or six after a sign; there is no year -0. -/
def year? (s : JsString) : Option (ℤ × JsString) :=
  if (js "+").isPrefixOf s then (digits? 6 (s.drop 1)).map fun p => ((p.1 : ℤ), p.2)
  else if (js "-").isPrefixOf s then
    (digits? 6 (s.drop 1)).bind fun p => if p.1 = 0 then none else some (-(p.1 : ℤ), p.2)
  else (digits? 4 s).map fun p => ((p.1 : ℤ), p.2)

structure IsoFields where
  date : Civil
  hour : ℕ
  minute : ℕ
  second : ℕ
  millisecond : ℕ

def isoFields? (s : JsString) : Option IsoFields := do
  let (year, s) ← year? s
  let s ← skip? (js "-") s
  let (month, s) ← digits? 2 s
  let s ← skip? (js "-") s
  let (day, s) ← digits? 2 s
  let s ← skip? (js "T") s
  let (hour, s) ← digits? 2 s
  let s ← skip? (js ":") s
  let (minute, s) ← digits? 2 s
  let s ← skip? (js ":") s
  let (second, s) ← digits? 2 s
  let s ← skip? (js ".") s
  let (millisecond, s) ← digits? 3 s
  let s ← skip? (js "Z") s
  if s = [] then some ⟨⟨year, month, day⟩, hour, minute, second, millisecond⟩ else none

def IsDate (t : Time) : Prop := t.natAbs ≤ 8640000000000000

instance (t : Time) : Decidable (IsDate t) := inferInstanceAs (Decidable (_ ≤ _))

def timeClip (t : Time) : Option Time := if IsDate t then some t else none

/-- Midnight may be written as the end of a day. -/
def IsoFields.Legal (f : IsoFields) : Prop :=
  (1 ≤ f.date.month ∧ f.date.month ≤ 12) ∧ (1 ≤ f.date.day ∧ f.date.day ≤ 31) ∧
    f.minute < 60 ∧ f.second < 60 ∧
    (f.hour < 24 ∨ (f.hour = 24 ∧ f.minute = 0 ∧ f.second = 0 ∧ f.millisecond = 0))

instance (f : IsoFields) : Decidable f.Legal := inferInstanceAs (Decidable (_ ∧ _))

def IsoFields.time? (f : IsoFields) : Option Time :=
  if f.Legal then
    timeClip (dayOfCivil f.date * 86400000 +
      (((f.hour * 60 + f.minute) * 60 + f.second) * 1000 + f.millisecond : ℕ))
  else none

/-- `new Date(s)`, with nothing for an invalid date. What becomes of a text in another
format is up to the implementation. -/
def parseDate (other : JsString → Option Time) (s : JsString) : Option Time :=
  match isoFields? s with
  | some f => f.time?
  | none => other s

theorem digits?_padded {k n : ℕ} (hk : 0 < k) (hn : n < 10 ^ k) (rest : JsString) :
    digits? k (padded k n ++ rest) = some (n, rest) := by
  have hlen : (padded k n).length = k := by simp [padded]
  have hd : ∀ d ∈ digits 10 k n, d < 10 := fun d hd => digits_lt (by decide) hd
  have hne : digits 10 k n ≠ [] := by
    rw [← List.length_pos_iff, length_digits]
    exact hk
  have hvalue : natIn 10 (padded k n) = some n := by
    rw [padded, natIn_decimal hne hd, ofDigits_digits 10 k n hn]
  rw [digits?, if_neg (by rw [List.length_append, hlen]; omega), List.take_left' hlen,
    List.drop_left' hlen, hvalue]
  rfl

theorem skip?_append (p rest : JsString) : skip? p (p ++ rest) = some rest := by
  rw [skip?, if_pos (List.isPrefixOf_iff_prefix.2 (List.prefix_append p rest)), List.drop_left]

theorem digit_of_padded {k n : ℕ} {c : CodeUnit} (h : c ∈ padded k n) :
    0x30 ≤ c.val ∧ c.val ≤ 0x39 := by
  obtain ⟨d, hd, rfl⟩ := List.mem_map.1 h
  have hlt : d < 10 := digits_lt (by decide) hd
  revert hd hlt
  generalize digits 10 k n = ds
  intro _ hlt
  interval_cases d <;> decide

/-- A text that begins with a digit begins with no sign. -/
theorem not_prefix_padded {k n : ℕ} (hk : 0 < k) (rest : JsString) {c : CodeUnit}
    (hc : ¬ (0x30 ≤ c.val ∧ c.val ≤ 0x39)) : ¬ ([c].isPrefixOf (padded k n ++ rest)) := by
  intro hp
  obtain ⟨tail, htail⟩ := List.isPrefixOf_iff_prefix.1 hp
  cases hpad : padded k n with
  | nil =>
    have hlen : (padded k n).length = k := by simp [padded]
    rw [hpad] at hlen
    simp at hlen
    omega
  | cons d ds =>
    rw [hpad] at htail
    obtain rfl : c = d := (List.cons.inj htail).1
    exact hc (digit_of_padded (hpad ▸ List.mem_cons_self))

theorem year?_yearText {y : ℤ} (h : y.natAbs < 10 ^ 6) (rest : JsString) :
    year? (yearText y ++ rest) = some (y, rest) := by
  have hplus : js "+" = [0x2B] := by decide
  have hminus : js "-" = [0x2D] := by decide
  unfold yearText
  split_ifs with hfour hneg
  · have hn : y.toNat < 10 ^ 4 := by omega
    rw [year?, hplus, hminus, if_neg (not_prefix_padded (by decide) rest (by decide)),
      if_neg (not_prefix_padded (by decide) rest (by decide)), digits?_padded (by decide) hn,
      Option.map_some, Int.toNat_of_nonneg hfour.1]
  · have hne : y.natAbs ≠ 0 := by omega
    rw [year?, hplus, hminus, List.append_assoc]
    simp only [List.isPrefixOf, List.cons_append, List.nil_append, List.drop_succ_cons,
      List.drop_zero]
    rw [digits?_padded (by decide) h]
    simp [hne, abs_of_neg hneg]
  · rw [year?, hplus, List.append_assoc]
    simp only [List.isPrefixOf, List.cons_append, List.nil_append, List.drop_succ_cons,
      List.drop_zero]
    rw [digits?_padded (by decide) h]
    have hy : 0 ≤ y := by omega
    simp [abs_of_nonneg hy]

theorem bind_of_eq {α β : Type} {x : Option α} {a : α} (h : x = some a) {f : α → Option β} :
    (x >>= f) = f a := by
  rw [h]
  rfl

theorem isoFields?_written {date : Civil} {hour minute second millisecond : ℕ}
    (hyear : date.year.natAbs < 10 ^ 6) (hmonth : date.month < 10 ^ 2) (hday : date.day < 10 ^ 2)
    (hhour : hour < 10 ^ 2) (hminute : minute < 10 ^ 2) (hsecond : second < 10 ^ 2)
    (hmillisecond : millisecond < 10 ^ 3) :
    isoFields? (yearText date.year ++ (js "-" ++ (padded 2 date.month ++ (js "-" ++
      (padded 2 date.day ++ (js "T" ++ (padded 2 hour ++ (js ":" ++ (padded 2 minute ++ (js ":" ++
      (padded 2 second ++ (js "." ++ (padded 3 millisecond ++ js "Z"))))))))))))) =
      some ⟨date, hour, minute, second, millisecond⟩ := by
  have hz : skip? (js "Z") (js "Z") = some [] := by decide
  refine (bind_of_eq (year?_yearText hyear _)).trans ?_
  refine (bind_of_eq (skip?_append _ _)).trans ?_
  refine (bind_of_eq (digits?_padded Nat.two_pos hmonth _)).trans ?_
  refine (bind_of_eq (skip?_append _ _)).trans ?_
  refine (bind_of_eq (digits?_padded Nat.two_pos hday _)).trans ?_
  refine (bind_of_eq (skip?_append _ _)).trans ?_
  refine (bind_of_eq (digits?_padded Nat.two_pos hhour _)).trans ?_
  refine (bind_of_eq (skip?_append _ _)).trans ?_
  refine (bind_of_eq (digits?_padded Nat.two_pos hminute _)).trans ?_
  refine (bind_of_eq (skip?_append _ _)).trans ?_
  refine (bind_of_eq (digits?_padded Nat.two_pos hsecond _)).trans ?_
  refine (bind_of_eq (skip?_append _ _)).trans ?_
  refine (bind_of_eq (digits?_padded (Nat.succ_pos 2) hmillisecond _)).trans ?_
  refine (bind_of_eq hz).trans ?_
  rfl

theorem isoFields?_toISOString {t : Time} (h : IsDate t) :
    isoFields? (toISOString t) = some ⟨civilOfDay (t / 86400000), (t % 86400000).toNat / 3600000,
      (t % 86400000).toNat / 60000 % 60, (t % 86400000).toNat / 1000 % 60,
      (t % 86400000).toNat % 1000⟩ := by
  have hday : (t / 86400000).natAbs ≤ 100000000 := by
    unfold IsDate at h
    omega
  obtain ⟨hmonth, hdayOfMonth⟩ := (civilOfDay_spec (t / 86400000)).1
  have hhour : (t % 86400000).toNat / 3600000 < 10 ^ 2 := by omega
  have hminute : (t % 86400000).toNat / 60000 % 60 < 10 ^ 2 := by omega
  have hsecond : (t % 86400000).toNat / 1000 % 60 < 10 ^ 2 := by omega
  have hmilli : (t % 86400000).toNat % 1000 < 10 ^ 3 := by omega
  simp only [toISOString, List.append_assoc]
  exact isoFields?_written (civilOfDay_year hday) (by omega) (by omega) hhour hminute hsecond hmilli

theorem day_and_time (t : ℤ) : t / 86400000 * 86400000 + ((((t % 86400000).toNat / 3600000 * 60 +
    (t % 86400000).toNat / 60000 % 60) * 60 + (t % 86400000).toNat / 1000 % 60) * 1000 +
    (t % 86400000).toNat % 1000 : ℕ) = t := by
  omega

theorem parseDate_toISOString {other : JsString → Option Time} {t : Time} (h : IsDate t) :
    parseDate other (toISOString t) = some t := by
  obtain ⟨⟨hmonth, hday⟩, hcivil⟩ := civilOfDay_spec (t / 86400000)
  have hhour : (t % 86400000).toNat / 3600000 < 24 := by omega
  have hlegal : (⟨civilOfDay (t / 86400000), (t % 86400000).toNat / 3600000,
      (t % 86400000).toNat / 60000 % 60, (t % 86400000).toNat / 1000 % 60,
      (t % 86400000).toNat % 1000⟩ : IsoFields).Legal := by
    refine ⟨hmonth, hday, ?_, ?_, Or.inl ?_⟩
    · exact Nat.mod_lt _ (by decide)
    · exact Nat.mod_lt _ (by decide)
    · exact hhour
  rw [parseDate, isoFields?_toISOString h]
  simp only [IsoFields.time?, if_pos hlegal, hcivil, day_and_time, timeClip, if_pos h]

end Fields

end MoneyMovement
