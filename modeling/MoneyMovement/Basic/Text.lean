import Mathlib.Data.List.Lex
import Mathlib.Data.Fin.Basic
import Mathlib.Order.Fin.Basic
import Mathlib.Tactic

/-!
# Texts, identifiers and instants

A JavaScript string is a list of UTF-16 code units. A UUID is its 128 bits: the
database prints it in lower case and reads it in any case. An instant is the
number of milliseconds since the epoch, as `Date.getTime` gives it.
-/

namespace MoneyMovement

abbrev CodeUnit := Fin 65536

instance codeUnits_neZero : NeZero (65536 : ℕ) := ⟨by decide⟩

abbrev JsString := List CodeUnit

abbrev Time := ℤ

def utf16 (c : Char) : JsString :=
  if c.toNat < 0x10000 then [Fin.ofNat _ c.toNat]
  else [Fin.ofNat _ (0xD800 + (c.toNat - 0x10000) / 0x400),
    Fin.ofNat _ (0xDC00 + (c.toNat - 0x10000) % 0x400)]

/-- The code units of a literal of the source. -/
def js (s : String) : JsString := s.toList.flatMap utf16

section Digits

def digits (b : ℕ) : ℕ → ℕ → List ℕ
  | 0, _ => []
  | k + 1, n => digits b k (n / b) ++ [n % b]

def ofDigits (b : ℕ) (ds : List ℕ) : ℕ := ds.foldl (fun n d => n * b + d) 0

@[simp] theorem length_digits (b k n : ℕ) : (digits b k n).length = k := by
  induction k generalizing n with
  | zero => rfl
  | succ k ih => simp [digits, ih]

theorem digits_lt {b k n d : ℕ} (hb : 0 < b) (hd : d ∈ digits b k n) : d < b := by
  induction k generalizing n with
  | zero => simp [digits] at hd
  | succ k ih =>
    rcases List.mem_append.1 hd with h | h
    · exact ih h
    · rw [List.mem_singleton.1 h]
      exact Nat.mod_lt _ hb

theorem ofDigits_snoc (b : ℕ) (ds : List ℕ) (d : ℕ) :
    ofDigits b (ds ++ [d]) = ofDigits b ds * b + d := by
  simp [ofDigits]

theorem ofDigits_digits (b k n : ℕ) (hn : n < b ^ k) : ofDigits b (digits b k n) = n := by
  induction k generalizing n with
  | zero =>
    have : n = 0 := by simpa using hn
    rw [this]
    rfl
  | succ k ih =>
    have hq : n / b < b ^ k := by
      rw [Nat.div_lt_iff_lt_mul (by by_contra h0; simp_all)]
      rwa [pow_succ] at hn
    rw [digits, ofDigits_snoc, ih _ hq]
    exact Nat.div_add_mod' n b

end Digits

section Uuid

abbrev Uuid := Fin (16 ^ 32)

instance uuids_neZero : NeZero (16 ^ 32 : ℕ) := ⟨by decide⟩

def hexUnit (d : ℕ) : CodeUnit := if d < 10 then Fin.ofNat _ (0x30 + d) else Fin.ofNat _ (0x57 + d)

def hexValue (c : CodeUnit) : Option ℕ :=
  if 0x30 ≤ c.val ∧ c.val ≤ 0x39 then some (c.val - 0x30)
  else if 0x61 ≤ c.val ∧ c.val ≤ 0x66 then some (c.val - 0x57)
  else if 0x41 ≤ c.val ∧ c.val ≤ 0x46 then some (c.val - 0x37)
  else none

def hyphen : CodeUnit := 0x2D

def hyphenate (h : JsString) : JsString :=
  h.take 8 ++ hyphen :: ((h.drop 8).take 4 ++ hyphen :: ((h.drop 12).take 4 ++
    hyphen :: ((h.drop 16).take 4 ++ hyphen :: h.drop 20)))

def unhyphenate (s : JsString) : Option JsString :=
  if s.length = 36 ∧ s[8]? = some hyphen ∧ s[13]? = some hyphen ∧ s[18]? = some hyphen ∧
      s[23]? = some hyphen then
    some (s.take 8 ++ (s.drop 9).take 4 ++ (s.drop 14).take 4 ++ (s.drop 19).take 4 ++ s.drop 24)
  else none

/-- A UUID as the database and the access token spell it. -/
def Uuid.text (u : Uuid) : JsString := hyphenate ((digits 16 32 u.val).map hexUnit)

/-- `UUID_PATTERN` with its `i` flag, then the cast to `uuid`. -/
def parseUuid (s : JsString) : Option Uuid :=
  (unhyphenate s).bind fun h => (h.mapM hexValue).map fun ds => Fin.ofNat _ (ofDigits 16 ds)

theorem hexValue_hexUnit {d : ℕ} (hd : d < 16) : hexValue (hexUnit d) = some d := by
  revert d
  decide

theorem mapM_hexValue {ds : List ℕ} (h : ∀ d ∈ ds, d < 16) :
    (ds.map hexUnit).mapM hexValue = some ds := by
  induction ds with
  | nil => rfl
  | cons d ds ih =>
    have hd := hexValue_hexUnit (h d (by simp))
    have ht := ih (fun x hx => h x (by simp [hx]))
    simp [hd, ht]

theorem hyphenate_append {a b c d e : JsString} (ha : a.length = 8) (hb : b.length = 4)
    (hc : c.length = 4) (hd : d.length = 4) : hyphenate (a ++ (b ++ (c ++ (d ++ e)))) =
      a ++ hyphen :: (b ++ hyphen :: (c ++ hyphen :: (d ++ hyphen :: e))) := by
  simp [hyphenate, List.drop_append, ha, hb, hc, hd, List.drop_of_length_le]

theorem unhyphenate_hyphenate {h : JsString} (hl : h.length = 32) :
    unhyphenate (hyphenate h) = some h := by
  obtain ⟨a, b, c, d, e, rfl, ha, hb, hc, hd, he⟩ : ∃ a b c d e : JsString,
      h = a ++ (b ++ (c ++ (d ++ e))) ∧ a.length = 8 ∧ b.length = 4 ∧ c.length = 4 ∧
        d.length = 4 ∧ e.length = 12 :=
    ⟨h.take 8, (h.drop 8).take 4, (h.drop 12).take 4, (h.drop 16).take 4, h.drop 20, by
      have h1 : h.drop 12 = (h.drop 8).drop 4 := by simp
      have h2 : h.drop 16 = (h.drop 12).drop 4 := by simp
      have h3 : h.drop 20 = (h.drop 16).drop 4 := by simp
      rw [h3, List.take_append_drop, h2, List.take_append_drop, h1, List.take_append_drop,
        List.take_append_drop],
      by simp [hl], by simp [hl], by simp [hl], by simp [hl], by simp [hl]⟩
  rw [hyphenate_append ha hb hc hd, unhyphenate, if_pos]
  · simp [List.drop_append, ha, hb, hc, hd, List.drop_of_length_le]
  · refine ⟨by simp [ha, hb, hc, hd, he], ?_, ?_, ?_, ?_⟩ <;>
      simp [List.getElem?_append, ha, hb, hc, hd]

/-- A text in the pattern is its digits with the hyphens put back. -/
theorem hyphenate_unhyphenate {s h : JsString} (hs : unhyphenate s = some h) :
    hyphenate h = s := by
  have hcut {i : ℕ} (hi : s[i]? = some hyphen) : s.drop i = hyphen :: s.drop (i + 1) := by
    obtain ⟨hlt, hget⟩ := List.getElem?_eq_some_iff.1 hi
    rw [List.drop_eq_getElem_cons hlt, hget]
  have hpart (i k : ℕ) : s.drop i = (s.drop i).take k ++ s.drop (i + k) := by
    rw [← List.drop_drop, List.take_append_drop]
  unfold unhyphenate at hs
  split_ifs at hs with hc
  obtain ⟨hlen, h8, h13, h18, h23⟩ := hc
  cases hs
  rw [List.append_assoc, List.append_assoc, List.append_assoc,
    hyphenate_append (by simp [hlen]) (by simp [hlen]) (by simp [hlen]) (by simp [hlen]),
    ← hcut h23, ← hpart 19 4, ← hcut h18, ← hpart 14 4, ← hcut h13, ← hpart 9 4, ← hcut h8,
    List.take_append_drop]

theorem parseUuid_text (u : Uuid) : parseUuid u.text = some u := by
  have hd : ∀ d ∈ digits 16 32 u.val, d < 16 := fun d h => digits_lt (by norm_num) h
  rw [parseUuid, Uuid.text, unhyphenate_hyphenate (by simp), Option.bind_some,
    mapM_hexValue hd, Option.map_some, ofDigits_digits 16 32 u.val u.isLt]
  simp

theorem Uuid.text_injective : Function.Injective Uuid.text := by
  intro u u' h
  have := parseUuid_text u
  rw [h, parseUuid_text] at this
  exact (Option.some.inj this).symm

-- Comparing two texts must not make the elaborator compute their digits.
attribute [irreducible] Uuid.text

end Uuid

section Decimal

def decimalUnit (d : ℕ) : CodeUnit := Fin.ofNat _ (0x30 + d)

/-- `BigInt.prototype.toString`. -/
def decimal (n : ℤ) : JsString :=
  (if n < 0 then js "-" else []) ++
    (if n = 0 then [decimalUnit 0] else (Nat.digits 10 n.natAbs).reverse.map decimalUnit)

def padded (k n : ℕ) : JsString := (digits 10 k n).map decimalUnit

end Decimal

section Instant

structure Civil where
  year : ℤ
  month : ℕ
  day : ℕ

/-- Gregorian date of a day counted from 1970-01-01; `shifted` counts from
0000-03-01, so that the leap day is the last of its year. -/
def civilOfDay (day : ℤ) : Civil :=
  let shifted := day + 719468
  let era := shifted / 146097
  let dayOfEra := (shifted % 146097).toNat
  let yearOfEra :=
    (dayOfEra - dayOfEra / 1460 + dayOfEra / 36524 - dayOfEra / 146096) / 365
  let dayOfYear := dayOfEra - (365 * yearOfEra + yearOfEra / 4 - yearOfEra / 100)
  let month := (5 * dayOfYear + 2) / 153
  { year := yearOfEra + era * 400 + (if month < 10 then 0 else 1)
    month := if month < 10 then month + 3 else month - 9
    day := dayOfYear - (153 * month + 2) / 5 + 1 }

def yearText (y : ℤ) : JsString :=
  if 0 ≤ y ∧ y ≤ 9999 then padded 4 y.toNat
  else (if y < 0 then js "-" else js "+") ++ padded 6 y.natAbs

/-- `Date.prototype.toISOString`. -/
def toISOString (t : Time) : JsString :=
  let date := civilOfDay (t / 86400000)
  let ms := (t % 86400000).toNat
  yearText date.year ++ js "-" ++ padded 2 date.month ++ js "-" ++ padded 2 date.day ++ js "T" ++
    padded 2 (ms / 3600000) ++ js ":" ++ padded 2 (ms / 60000 % 60) ++ js ":" ++
    padded 2 (ms / 1000 % 60) ++ js "." ++ padded 3 (ms % 1000) ++ js "Z"

example : toISOString 1788134400123 = js "2026-08-31T00:00:00.123Z" := by decide

end Instant

section Numbers

/-- `Number(n)` of a bigint below 2^1024: the nearest multiple of the unit in the
53-bit significand, ties to even. -/
def number (n : ℤ) : ℤ :=
  let m := n.natAbs
  if m < 2 ^ 53 then n
  else
    let unit := 2 ^ (m.log2 - 52)
    let q := m / unit
    let r := m % unit
    let up := unit < 2 * r ∨ (2 * r = unit ∧ q % 2 = 1)
    n.sign * (((if up then q + 1 else q) * unit : ℕ) : ℤ)

theorem number_exact {n : ℤ} (h : n.natAbs < 2 ^ 53) : number n = n := by
  simp only [number, if_pos h]

example : number (2 ^ 53 + 1) = 2 ^ 53 := by decide

end Numbers

end MoneyMovement
