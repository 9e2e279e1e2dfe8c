import MoneyMovement.Basic.Json
import Mathlib.Data.List.TakeWhile

/-!
# Buffers

A text as UTF-8 bytes and bytes as base64url, and back. Decoding refuses nothing:
bytes that are no UTF-8 become U+FFFD, an equals sign ends the text, and what else is
outside the alphabet is skipped.
What is encoded from an ASCII text is decoded to that text.
-/

namespace MoneyMovement

section Utf8

def isSurrogate (c : CodeUnit) : Bool := isHighSurrogate c || isLowSurrogate c

def unitPoint (c : CodeUnit) : ℕ := if isSurrogate c then 0xFFFD else c.val

/-- The code points of a text; a lone surrogate counts as U+FFFD. -/
def codePoints : JsString → List ℕ
  | [] => []
  | [c] => [unitPoint c]
  | c :: d :: rest =>
    if isHighSurrogate c && isLowSurrogate d then
      (0x10000 + (c.val - 0xD800) * 0x400 + (d.val - 0xDC00)) :: codePoints rest
    else unitPoint c :: codePoints (d :: rest)

def pointBytes (p : ℕ) : List ℕ :=
  if p < 0x80 then [p]
  else if p < 0x800 then [0xC0 + p / 0x40, 0x80 + p % 0x40]
  else if p < 0x10000 then [0xE0 + p / 0x1000, 0x80 + p / 0x40 % 0x40, 0x80 + p % 0x40]
  else [0xF0 + p / 0x40000, 0x80 + p / 0x1000 % 0x40, 0x80 + p / 0x40 % 0x40, 0x80 + p % 0x40]

/-- `Buffer.from(s, 'utf8')`. -/
def utf8 (s : JsString) : List ℕ := (codePoints s).flatMap pointBytes

/-- A character begun: how many bytes are still needed, the bits so far, and the range
of the next byte. -/
structure Pending where
  needed : ℕ
  bits : ℕ
  lower : ℕ
  upper : ℕ

def leading? (b : ℕ) : Option Pending :=
  if 0xC2 ≤ b ∧ b ≤ 0xDF then some ⟨1, b - 0xC0, 0x80, 0xBF⟩
  else if 0xE0 ≤ b ∧ b ≤ 0xEF then
    some ⟨2, b - 0xE0, if b = 0xE0 then 0xA0 else 0x80, if b = 0xED then 0x9F else 0xBF⟩
  else if 0xF0 ≤ b ∧ b ≤ 0xF4 then
    some ⟨3, b - 0xF0, if b = 0xF0 then 0x90 else 0x80, if b = 0xF4 then 0x8F else 0xBF⟩
  else none

def startPoint (b : ℕ) : List ℕ × Option Pending :=
  if b < 0x80 then ([b], none)
  else
    match leading? b with
    | some p => ([], some p)
    | none => ([0xFFFD], none)

/-- The points of some bytes, in the midst of a character or not. -/
def decodePoints : Option Pending → List ℕ → List ℕ
  | none, [] => []
  | some _, [] => [0xFFFD]
  | none, b :: rest => (startPoint b).1 ++ decodePoints (startPoint b).2 rest
  | some p, b :: rest =>
    if p.lower ≤ b ∧ b ≤ p.upper then
      let bits := p.bits * 0x40 + (b - 0x80)
      if p.needed = 1 then bits :: decodePoints none rest
      else decodePoints (some ⟨p.needed - 1, bits, 0x80, 0xBF⟩) rest
    else 0xFFFD :: ((startPoint b).1 ++ decodePoints (startPoint b).2 rest)

def pointUnits (p : ℕ) : JsString :=
  if p < 0x10000 then [Fin.ofNat _ p]
  else [Fin.ofNat _ (0xD800 + (p - 0x10000) / 0x400), Fin.ofNat _ (0xDC00 + (p - 0x10000) % 0x400)]

/-- `buffer.toString('utf8')`. -/
def fromUtf8 (bytes : List ℕ) : JsString := (decodePoints none bytes).flatMap pointUnits

def IsAscii (s : JsString) : Prop := ∀ c ∈ s, c.val < 0x80

-- The bound is the list: the instance search would run through all units.
instance (s : JsString) : Decidable (IsAscii s) :=
  List.decidableBAll (fun c : CodeUnit => c.val < 0x80) s

theorem unitPoint_ascii {c : CodeUnit} (h : c.val < 0x80) : unitPoint c = c.val := by
  have hno : isSurrogate c = false := by
    simp only [isSurrogate, isHighSurrogate, isLowSurrogate, Bool.or_eq_false_iff,
      decide_eq_false_iff_not]
    omega
  rw [unitPoint, hno]
  rfl

theorem codePoints_ascii {s : JsString} (h : IsAscii s) : codePoints s = s.map Fin.val := by
  induction s with
  | nil => rfl
  | cons c rest ih =>
    have hc := h c List.mem_cons_self
    have hrest := ih (fun d hd => h d (List.mem_cons_of_mem _ hd))
    cases rest with
    | nil => simp [codePoints, unitPoint_ascii hc]
    | cons d rest =>
      have hno : isHighSurrogate c = false := by
        simp only [isHighSurrogate, decide_eq_false_iff_not]
        omega
      rw [codePoints, hno, Bool.false_and, if_neg Bool.false_ne_true, hrest, unitPoint_ascii hc]
      rfl

theorem utf8_ascii {s : JsString} (h : IsAscii s) : utf8 s = s.map Fin.val := by
  rw [utf8, codePoints_ascii h]
  induction s with
  | nil => rfl
  | cons c rest ih =>
    have hc := h c List.mem_cons_self
    rw [List.map_cons, List.flatMap_cons, pointBytes, if_pos hc,
      ih (fun d hd => h d (List.mem_cons_of_mem _ hd))]
    rfl

theorem utf8_lt {s : JsString} (h : IsAscii s) : ∀ b ∈ utf8 s, b < 256 := by
  rw [utf8_ascii h]
  intro b hb
  obtain ⟨c, hc, rfl⟩ := List.mem_map.1 hb
  have := h c hc
  omega

theorem fromUtf8_ascii {s : JsString} (h : IsAscii s) : fromUtf8 (s.map Fin.val) = s := by
  induction s with
  | nil => rfl
  | cons c rest ih =>
    have hc := h c List.mem_cons_self
    have hlt : c.val < 0x10000 := c.isLt
    have hrest := ih (fun d hd => h d (List.mem_cons_of_mem _ hd))
    rw [fromUtf8] at hrest ⊢
    rw [List.map_cons, decodePoints, startPoint, if_pos hc, List.flatMap_append, hrest,
      List.flatMap_singleton, pointUnits, if_pos hlt]
    simp

/-- Every surrogate is half of a pair. -/
inductive WellFormed : JsString → Prop
  | nil : WellFormed []
  | unit {c : CodeUnit} {s : JsString} (hc : isSurrogate c = false) (hs : WellFormed s) :
    WellFormed (c :: s)
  | pair {c d : CodeUnit} {s : JsString} (hc : isHighSurrogate c = true)
    (hd : isLowSurrogate d = true) (hs : WellFormed s) : WellFormed (c :: d :: s)

theorem WellFormed.append {s t : JsString} (hs : WellFormed s) (ht : WellFormed t) :
    WellFormed (s ++ t) := by
  induction hs with
  | nil => exact ht
  | unit hc _ ih => exact .unit hc ih
  | pair hc hd _ ih => exact .pair hc hd ih

theorem isSurrogate_ascii {c : CodeUnit} (h : c.val < 0x80) : isSurrogate c = false := by
  simp only [isSurrogate, isHighSurrogate, isLowSurrogate, Bool.or_eq_false_iff,
    decide_eq_false_iff_not]
  omega

theorem IsAscii.wellFormed {s : JsString} (h : IsAscii s) : WellFormed s := by
  induction s with
  | nil => exact .nil
  | cons c s ih =>
    exact .unit (isSurrogate_ascii (h c List.mem_cons_self))
      (ih (fun d hd => h d (List.mem_cons_of_mem _ hd)))

def pairPoint (c d : CodeUnit) : ℕ := 0x10000 + (c.val - 0xD800) * 0x400 + (d.val - 0xDC00)

theorem utf8_unit {c : CodeUnit} (hc : isSurrogate c = false) (s : JsString) :
    utf8 (c :: s) = pointBytes c.val ++ utf8 s := by
  have hhigh : isHighSurrogate c = false := (Bool.or_eq_false_iff.1 hc).1
  have hpoint : unitPoint c = c.val := by
    rw [unitPoint, hc]
    rfl
  cases s with
  | nil => simp [utf8, codePoints, hpoint]
  | cons d s => simp [utf8, codePoints, hhigh, hpoint]

theorem utf8_pair {c d : CodeUnit} (hc : isHighSurrogate c = true) (hd : isLowSurrogate d = true)
    (s : JsString) : utf8 (c :: d :: s) = pointBytes (pairPoint c d) ++ utf8 s := by
  rw [utf8, codePoints, if_pos (Bool.and_eq_true_iff.2 ⟨hc, hd⟩), List.flatMap_cons]
  rfl

theorem decodePoints_lead {b : ℕ} {p : Pending} (hb : ¬ b < 0x80) (h : leading? b = some p)
    (rest : List ℕ) : decodePoints none (b :: rest) = decodePoints (some p) rest := by
  rw [decodePoints, startPoint, if_neg hb, h, List.nil_append]

theorem decodePoints_next {b : ℕ} {p : Pending} (hb : p.lower ≤ b ∧ b ≤ p.upper)
    (hn : p.needed ≠ 1) (rest : List ℕ) : decodePoints (some p) (b :: rest) =
      decodePoints (some ⟨p.needed - 1, p.bits * 0x40 + (b - 0x80), 0x80, 0xBF⟩) rest := by
  simp only [decodePoints, if_pos hb, if_neg hn]

theorem decodePoints_last {b : ℕ} {p : Pending} (hb : p.lower ≤ b ∧ b ≤ p.upper)
    (hn : p.needed = 1) (rest : List ℕ) : decodePoints (some p) (b :: rest) =
      (p.bits * 0x40 + (b - 0x80)) :: decodePoints none rest := by
  simp only [decodePoints, if_pos hb, if_pos hn]

/-- The bytes of a point that is no surrogate are read as that point. -/
theorem decodePoints_pointBytes {p : ℕ} (hp : p < 0x110000) (hs : p < 0xD800 ∨ 0xDFFF < p)
    (rest : List ℕ) : decodePoints none (pointBytes p ++ rest) = p :: decodePoints none rest := by
  unfold pointBytes
  split_ifs with h₁ h₂ h₃
  · rw [List.singleton_append, decodePoints, startPoint, if_pos h₁, List.singleton_append]
  · have hlead : leading? (0xC0 + p / 0x40) = some ⟨1, p / 0x40, 0x80, 0xBF⟩ := by
      rw [leading?, if_pos (by omega), Nat.add_sub_cancel_left]
    simp only [List.cons_append, List.nil_append]
    rw [decodePoints_lead (by omega) hlead, decodePoints_last (by dsimp only; omega) rfl]
    have hvalue : p / 0x40 * 0x40 + (0x80 + p % 0x40 - 0x80) = p := by omega
    rw [hvalue]
  · have hlead : leading? (0xE0 + p / 0x1000) = some ⟨2, p / 0x1000,
        if 0xE0 + p / 0x1000 = 0xE0 then 0xA0 else 0x80,
        if 0xE0 + p / 0x1000 = 0xED then 0x9F else 0xBF⟩ := by
      rw [leading?, if_neg (by omega), if_pos (by omega), Nat.add_sub_cancel_left]
    simp only [List.cons_append, List.nil_append]
    rw [decodePoints_lead (by omega) hlead, decodePoints_next ?_ (by simp),
      decodePoints_last (by dsimp only; omega) rfl]
    · have hvalue : (p / 0x1000 * 0x40 + (0x80 + p / 0x40 % 0x40 - 0x80)) * 0x40 +
          (0x80 + p % 0x40 - 0x80) = p := by omega
      rw [hvalue]
    · dsimp only
      split_ifs <;> omega
  · have hlead : leading? (0xF0 + p / 0x40000) = some ⟨3, p / 0x40000,
        if 0xF0 + p / 0x40000 = 0xF0 then 0x90 else 0x80,
        if 0xF0 + p / 0x40000 = 0xF4 then 0x8F else 0xBF⟩ := by
      rw [leading?, if_neg (by omega), if_neg (by omega), if_pos (by omega),
        Nat.add_sub_cancel_left]
    simp only [List.cons_append, List.nil_append]
    rw [decodePoints_lead (by omega) hlead, decodePoints_next ?_ (by simp),
      decodePoints_next (by dsimp only; omega) (by simp),
      decodePoints_last (by dsimp only; omega) rfl]
    · have hvalue : ((p / 0x40000 * 0x40 + (0x80 + p / 0x1000 % 0x40 - 0x80)) * 0x40 +
          (0x80 + p / 0x40 % 0x40 - 0x80)) * 0x40 + (0x80 + p % 0x40 - 0x80) = p := by omega
      rw [hvalue]
    · dsimp only
      split_ifs <;> omega

/-- A well-formed text comes through UTF-8 as it was. -/
theorem fromUtf8_utf8 {s : JsString} (h : WellFormed s) : fromUtf8 (utf8 s) = s := by
  induction h with
  | nil => rfl
  | @unit c s hc _ ih =>
    have hrange : c.val < 0xD800 ∨ 0xDFFF < c.val := by
      simp only [isSurrogate, isHighSurrogate, isLowSurrogate, Bool.or_eq_false_iff,
        decide_eq_false_iff_not] at hc
      omega
    have hlt : c.val < 0x10000 := c.isLt
    rw [fromUtf8] at ih
    rw [utf8_unit hc, fromUtf8, decodePoints_pointBytes (by omega) hrange, List.flatMap_cons,
      pointUnits, if_pos hlt, ih]
    simp
  | @pair c d s hc hd _ ih =>
    have hhigh : 0xD800 ≤ c.val ∧ c.val ≤ 0xDBFF := of_decide_eq_true hc
    have hlow : 0xDC00 ≤ d.val ∧ d.val ≤ 0xDFFF := of_decide_eq_true hd
    have hpoint : pointUnits (pairPoint c d) = [c, d] := by
      have hfirst : 0xD800 + (pairPoint c d - 0x10000) / 0x400 = c.val := by
        unfold pairPoint
        omega
      have hsecond : 0xDC00 + (pairPoint c d - 0x10000) % 0x400 = d.val := by
        unfold pairPoint
        omega
      rw [pointUnits, if_neg (by unfold pairPoint; omega), hfirst, hsecond]
      simp
    rw [fromUtf8] at ih
    rw [utf8_pair hc hd, fromUtf8, decodePoints_pointBytes (by unfold pairPoint; omega)
      (by unfold pairPoint; omega), List.flatMap_cons, hpoint, ih]
    rfl

theorem utf8_injOn {s t : JsString} (hs : WellFormed s) (ht : WellFormed t)
    (h : utf8 s = utf8 t) : s = t := by
  rw [← fromUtf8_utf8 hs, h, fromUtf8_utf8 ht]

/-- What a character begun so becomes is beyond ASCII. -/
structure Pending.Beyond (p : Pending) : Prop where
  last : p.needed = 1 → 2 ≤ p.bits
  next : 2 ≤ p.bits * 0x40 + (p.lower - 0x80)

theorem leading?_beyond {b : ℕ} {p : Pending} (h : leading? b = some p) : p.Beyond := by
  unfold leading? at h
  split_ifs at h
  · cases h
    exact ⟨fun _ => by dsimp only; omega, by dsimp only; omega⟩
  all_goals
    cases h
    exact ⟨fun hn => (by cases hn), by dsimp only; omega⟩

theorem decodePoints_beyond {p : Pending} (h : p.Beyond) (bytes : List ℕ) :
    ∃ q ∈ decodePoints (some p) bytes, 0x80 ≤ q := by
  induction bytes generalizing p with
  | nil => exact ⟨0xFFFD, List.mem_singleton_self _, by decide⟩
  | cons b rest ih =>
    by_cases hb : p.lower ≤ b ∧ b ≤ p.upper
    · by_cases hn : p.needed = 1
      · rw [decodePoints_last hb hn]
        have := h.last hn
        exact ⟨_, List.mem_cons_self, by omega⟩
      · rw [decodePoints_next hb hn]
        have := h.next
        exact ih ⟨fun _ => by dsimp only; omega, by dsimp only; omega⟩
    · rw [decodePoints, if_neg hb]
      exact ⟨0xFFFD, List.mem_cons_self, by decide⟩

/-- Bytes that are read as ASCII are that. -/
theorem decodePoints_eq_self {bytes : List ℕ} (h : ∀ q ∈ decodePoints none bytes, q < 0x80) :
    decodePoints none bytes = bytes := by
  induction bytes with
  | nil => rfl
  | cons b rest ih =>
    by_cases hb : b < 0x80
    · have hstep : decodePoints none (b :: rest) = b :: decodePoints none rest := by
        rw [decodePoints, startPoint, if_pos hb, List.singleton_append]
      rw [hstep] at h ⊢
      rw [ih (fun q hq => h q (List.mem_cons_of_mem _ hq))]
    · exfalso
      cases hlead : leading? b with
      | none =>
        have hbad : 0xFFFD ∈ decodePoints none (b :: rest) := by
          rw [decodePoints, startPoint, if_neg hb, hlead]
          exact List.mem_cons_self
        exact absurd (h _ hbad) (by decide)
      | some p =>
        rw [decodePoints_lead hb hlead] at h
        obtain ⟨q, hq, hlarge⟩ := decodePoints_beyond (leading?_beyond hlead) rest
        have := h q hq
        omega

theorem ascii_of_pointUnits {p : ℕ} (h : IsAscii (pointUnits p)) :
    p < 0x80 ∧ pointUnits p = [Fin.ofNat _ p] := by
  unfold pointUnits at h ⊢
  split_ifs with hp
  · rw [if_pos hp] at h
    have hunit := h _ List.mem_cons_self
    simp only [Fin.val_ofNat] at hunit
    exact ⟨by omega, rfl⟩
  · rw [if_neg hp] at h
    have hunit := h _ (List.mem_cons_of_mem _ List.mem_cons_self)
    simp only [Fin.val_ofNat] at hunit
    omega

/-- What is read as an ASCII text is its coding. -/
theorem utf8_fromUtf8 {bytes : List ℕ} (h : IsAscii (fromUtf8 bytes)) :
    utf8 (fromUtf8 bytes) = bytes := by
  have hpoints : ∀ q ∈ decodePoints none bytes, q < 0x80 ∧ pointUnits q = [Fin.ofNat _ q] := by
    intro q hq
    refine ascii_of_pointUnits (fun c hc => h c ?_)
    exact List.mem_flatMap.2 ⟨q, hq, hc⟩
  have hself := decodePoints_eq_self (fun q hq => (hpoints q hq).1)
  rw [hself] at hpoints
  rw [utf8_ascii h, fromUtf8, hself]
  clear h hself
  induction bytes with
  | nil => rfl
  | cons b rest ih =>
    obtain ⟨hb, hunits⟩ := hpoints b List.mem_cons_self
    rw [List.flatMap_cons, hunits, List.map_append,
      ih (fun q hq => hpoints q (List.mem_cons_of_mem _ hq))]
    have hval : (Fin.ofNat 65536 b).val = b := Nat.mod_eq_of_lt (by omega)
    rw [List.map_singleton, hval, List.singleton_append]

end Utf8

section Base64

def base64Unit (v : ℕ) : CodeUnit :=
  if v < 26 then Fin.ofNat _ (0x41 + v)
  else if v < 52 then Fin.ofNat _ (0x61 + (v - 26))
  else if v < 62 then Fin.ofNat _ (0x30 + (v - 52))
  else if v = 62 then 0x2D
  else 0x5F

/-- The value of a unit of the alphabet, or of that of plain base64. -/
def base64Value (c : CodeUnit) : Option ℕ :=
  let n := c.val
  if 0x41 ≤ n ∧ n ≤ 0x5A then some (n - 0x41)
  else if 0x61 ≤ n ∧ n ≤ 0x7A then some (n - 0x61 + 26)
  else if 0x30 ≤ n ∧ n ≤ 0x39 then some (n - 0x30 + 52)
  else if n = 0x2D ∨ n = 0x2B then some 62
  else if n = 0x5F ∨ n = 0x2F then some 63
  else none

def sextets : List ℕ → List ℕ
  | [] => []
  | [a] => [a / 4, a % 4 * 16]
  | [a, b] => [a / 4, a % 4 * 16 + b / 16, b % 16 * 4]
  | a :: b :: c :: rest =>
    a / 4 :: (a % 4 * 16 + b / 16) :: (b % 16 * 4 + c / 64) :: c % 64 :: sextets rest

def ofSextets : List ℕ → List ℕ
  | [] => []
  | [_] => []
  | [a, b] => [a * 4 + b / 16]
  | [a, b, c] => [a * 4 + b / 16, b % 16 * 16 + c / 4]
  | a :: b :: c :: d :: rest =>
    (a * 4 + b / 16) :: (b % 16 * 16 + c / 4) :: (c % 4 * 64 + d) :: ofSextets rest

/-- `buffer.toString('base64url')`, which does not pad. -/
def toBase64url (bytes : List ℕ) : JsString := (sextets bytes).map base64Unit

def lowByte (c : CodeUnit) : CodeUnit := Fin.ofNat _ (c.val % 256)

/-- Units are cut to bytes, the first `=` ends the text, and what belongs to neither alphabet is
skipped. -/
def base64Values (s : JsString) : List ℕ :=
  ((s.map lowByte).takeWhile (· ≠ 0x3D)).filterMap base64Value

/-- `Buffer.from(s, 'base64url')`. -/
def fromBase64url (s : JsString) : List ℕ := ofSextets (base64Values s)

theorem base64Value_unit {v : ℕ} (h : v < 64) : base64Value (base64Unit v) = some v := by
  revert v
  decide

theorem sextets_lt {bytes : List ℕ} (h : ∀ b ∈ bytes, b < 256) : ∀ v ∈ sextets bytes, v < 64 := by
  fun_induction sextets bytes with
  | case1 => simp
  | case2 a =>
    simp only [List.mem_cons, List.not_mem_nil, or_false, forall_eq] at h
    simp only [List.mem_cons, List.not_mem_nil, or_false, forall_eq_or_imp, forall_eq]
    omega
  | case3 a b =>
    simp only [List.mem_cons, List.not_mem_nil, or_false, forall_eq_or_imp, forall_eq] at h
    simp only [List.mem_cons, List.not_mem_nil, or_false, forall_eq_or_imp, forall_eq]
    omega
  | case4 a b c rest ih =>
    simp only [List.mem_cons, forall_eq_or_imp] at h ⊢
    obtain ⟨ha, hb, hc, hrest⟩ := h
    refine ⟨?_, ?_, ?_, ?_, ih hrest⟩ <;> omega

theorem ofSextets_sextets {bytes : List ℕ} (h : ∀ b ∈ bytes, b < 256) :
    ofSextets (sextets bytes) = bytes := by
  fun_induction sextets bytes with
  | case1 => rfl
  | case2 a =>
    simp only [List.mem_cons, List.not_mem_nil, or_false, forall_eq] at h
    simp only [ofSextets, List.cons.injEq, and_true]
    omega
  | case3 a b =>
    simp only [List.mem_cons, List.not_mem_nil, or_false, forall_eq_or_imp, forall_eq] at h
    simp only [ofSextets, List.cons.injEq, and_true]
    omega
  | case4 a b c rest ih =>
    simp only [List.mem_cons, forall_eq_or_imp] at h
    obtain ⟨ha, hb, hc, hrest⟩ := h
    simp only [ofSextets, List.cons.injEq]
    refine ⟨?_, ?_, ?_, ih hrest⟩ <;> omega

/-- A unit of the alphabet is a byte of its own, and does not end the text. -/
theorem lowByte_base64Unit {v : ℕ} (h : v < 64) :
    lowByte (base64Unit v) = base64Unit v ∧ base64Unit v ≠ 0x3D := by
  revert v
  decide

theorem base64Values_units {vs : List ℕ} (h : ∀ v ∈ vs, v < 64) :
    base64Values (vs.map base64Unit) = vs := by
  have hbytes : (vs.map base64Unit).map lowByte = vs.map base64Unit := by
    rw [List.map_map]
    exact List.map_congr_left (fun v hv => (lowByte_base64Unit (h v hv)).1)
  have hall : (vs.map base64Unit).takeWhile (· ≠ 0x3D) = vs.map base64Unit := by
    refine List.takeWhile_eq_self_iff.2 (fun c hc => ?_)
    obtain ⟨v, hv, rfl⟩ := List.mem_map.1 hc
    exact decide_eq_true (lowByte_base64Unit (h v hv)).2
  calc base64Values (vs.map base64Unit)
      = (vs.map base64Unit).filterMap base64Value := by rw [base64Values, hbytes, hall]
    _ = vs.filterMap (base64Value ∘ base64Unit) := List.filterMap_map ..
    _ = vs.filterMap some := List.filterMap_congr (fun v hv => base64Value_unit (h v hv))
    _ = vs := List.filterMap_some

theorem fromBase64url_to {bytes : List ℕ} (h : ∀ b ∈ bytes, b < 256) :
    fromBase64url (toBase64url bytes) = bytes := by
  rw [fromBase64url, toBase64url, base64Values_units (sextets_lt h), ofSextets_sextets h]

/-- An ASCII text comes through the buffer as it was. -/
theorem fromUtf8_fromBase64url {s : JsString} (h : IsAscii s) :
    fromUtf8 (fromBase64url (toBase64url (utf8 s))) = s := by
  rw [fromBase64url_to (utf8_lt h), utf8_ascii h, fromUtf8_ascii h]

def NoSpare : List ℕ → Prop
  | [] => True
  | [_] => False
  | [_, b] => b % 16 = 0
  | [_, _, c] => c % 4 = 0
  | _ :: _ :: _ :: _ :: rest => NoSpare rest

/-- A text that `toBase64url` writes: of its own alphabet, not padded, and with no bits left
over. -/
structure IsBase64url (s : JsString) : Prop where
  alphabet : ∀ c ∈ s, ∃ v < 64, c = base64Unit v
  exact : NoSpare (base64Values s)

theorem ofSextets_lt {vs : List ℕ} (h : ∀ v ∈ vs, v < 64) : ∀ b ∈ ofSextets vs, b < 256 := by
  fun_induction ofSextets vs with
  | case1 => simp
  | case2 => simp
  | case3 a b =>
    simp only [List.mem_cons, List.not_mem_nil, or_false, forall_eq_or_imp, forall_eq] at h ⊢
    omega
  | case4 a b c =>
    simp only [List.mem_cons, List.not_mem_nil, or_false, forall_eq_or_imp, forall_eq] at h ⊢
    omega
  | case5 a b c d rest ih =>
    simp only [List.mem_cons, forall_eq_or_imp] at h ⊢
    obtain ⟨ha, hb, hc, hd, hrest⟩ := h
    refine ⟨?_, ?_, ?_, ih hrest⟩ <;> omega

theorem sextets_ofSextets {vs : List ℕ} (h : ∀ v ∈ vs, v < 64) (hs : NoSpare vs) :
    sextets (ofSextets vs) = vs := by
  fun_induction ofSextets vs with
  | case1 => rfl
  | case2 => exact hs.elim
  | case3 a b =>
    simp only [NoSpare] at hs
    simp only [List.mem_cons, List.not_mem_nil, or_false, forall_eq_or_imp, forall_eq] at h
    simp only [sextets, List.cons.injEq, and_true]
    omega
  | case4 a b c =>
    simp only [NoSpare] at hs
    simp only [List.mem_cons, List.not_mem_nil, or_false, forall_eq_or_imp, forall_eq] at h
    simp only [sextets, List.cons.injEq, and_true]
    omega
  | case5 a b c d rest ih =>
    simp only [List.mem_cons, forall_eq_or_imp] at h
    obtain ⟨ha, hb, hc, hd, hrest⟩ := h
    simp only [sextets, List.cons.injEq]
    refine ⟨?_, ?_, ?_, ?_, ih hrest hs⟩ <;> omega

theorem noSpare_sextets (bytes : List ℕ) : NoSpare (sextets bytes) := by
  fun_induction sextets bytes with
  | case1 => trivial
  | case2 a => exact Nat.mul_mod_left _ _
  | case3 a b => exact Nat.mul_mod_left _ _
  | case4 a b c rest ih => exact ih

theorem base64Value_lt {c : CodeUnit} {v : ℕ} (h : base64Value c = some v) : v < 64 := by
  unfold base64Value at h
  dsimp only at h
  split_ifs at h <;> cases h <;> omega

theorem units_of_alphabet {s : JsString} (h : ∀ c ∈ s, ∃ v < 64, c = base64Unit v) :
    ∃ vs : List ℕ, (∀ v ∈ vs, v < 64) ∧ s = vs.map base64Unit := by
  induction s with
  | nil => exact ⟨[], List.forall_mem_nil _, rfl⟩
  | cons c s ih =>
    obtain ⟨v, hv, rfl⟩ := h c List.mem_cons_self
    obtain ⟨vs, hvs, rfl⟩ := ih (fun d hd => h d (List.mem_cons_of_mem _ hd))
    exact ⟨v :: vs, List.forall_mem_cons.2 ⟨hv, hvs⟩, rfl⟩

/-- The codings are the texts that are coded again as they were. -/
theorem toBase64url_from_iff (s : JsString) :
    toBase64url (fromBase64url s) = s ↔ IsBase64url s := by
  have hvalues : ∀ v ∈ base64Values s, v < 64 := by
    intro v hv
    obtain ⟨c, -, hc⟩ := List.mem_filterMap.1 hv
    exact base64Value_lt hc
  constructor
  · intro h
    have hlt := sextets_lt (ofSextets_lt hvalues)
    rw [toBase64url, fromBase64url] at h
    rw [← h]
    refine ⟨fun c hc => ?_, ?_⟩
    · obtain ⟨v, hv, rfl⟩ := List.mem_map.1 hc
      exact ⟨v, hlt v hv, rfl⟩
    · rw [base64Values_units hlt]
      exact noSpare_sextets _
  · intro h
    obtain ⟨vs, hvs, rfl⟩ := units_of_alphabet h.alphabet
    have hexact := h.exact
    rw [base64Values_units hvs] at hexact
    rw [toBase64url, fromBase64url, base64Values_units hvs, sextets_ofSextets hvs hexact]

end Base64

end MoneyMovement
