import MoneyMovement.Basic.Json

/-!
# Amounts as text

Amounts travel as decimal strings and are shown with a currency symbol and
grouped digits. `bigInt` reads back what `decimal` writes, and the digits that
`formatMinorUnits` shows are those of the amount.
-/

namespace MoneyMovement

section Digits

theorem ofDigits_eq_nat (b : ℕ) (ds : List ℕ) : ofDigits b ds = Nat.ofDigits b ds.reverse := by
  induction ds using List.reverseRecOn with
  | nil => rfl
  | append_singleton ds d ih =>
    rw [ofDigits_snoc, ih, List.reverse_append, List.reverse_singleton, List.singleton_append,
      Nat.ofDigits_cons]
    ring

def decimalDigits (n : ℕ) : List ℕ := if n = 0 then [0] else (Nat.digits 10 n).reverse

theorem decimalDigits_lt {n d : ℕ} (h : d ∈ decimalDigits n) : d < 10 := by
  unfold decimalDigits at h
  split_ifs at h with hn
  · rw [List.mem_singleton.1 h]
    decide
  · exact Nat.digits_lt_base (by decide) (List.mem_reverse.1 h)

theorem ofDigits_decimalDigits (n : ℕ) : ofDigits 10 (decimalDigits n) = n := by
  unfold decimalDigits
  split_ifs with hn
  · rw [hn]
    rfl
  · rw [ofDigits_eq_nat, List.reverse_reverse, Nat.ofDigits_digits]

theorem decimalDigits_ne_nil (n : ℕ) : decimalDigits n ≠ [] := by
  unfold decimalDigits
  split_ifs with hn
  · exact List.cons_ne_nil _ _
  · simpa [Nat.digits_eq_nil_iff_eq_zero] using hn

theorem length_decimalDigits {n k : ℕ} (hk : 0 < k) (hn : n < 10 ^ k) :
    (decimalDigits n).length ≤ k := by
  unfold decimalDigits
  split_ifs with h
  · exact hk
  · rw [List.length_reverse]
    exact (Nat.digits_length_le_iff (by decide) n).2 hn

theorem ofDigits_append (b : ℕ) (ds es : List ℕ) :
    ofDigits b (ds ++ es) = ofDigits b ds * b ^ es.length + ofDigits b es := by
  induction es using List.reverseRecOn with
  | nil => simp [ofDigits]
  | append_singleton es e ih =>
    rw [← List.append_assoc, ofDigits_snoc, ih, ofDigits_snoc, List.length_append,
      List.length_singleton, pow_succ]
    ring

theorem decimal_natCast (n : ℕ) : decimal n = (decimalDigits n).map decimalUnit := by
  have hneg : ¬ (n : ℤ) < 0 := by omega
  rw [decimal, if_neg hneg, List.nil_append]
  by_cases hn : n = 0
  · rw [if_pos (by omega), decimalDigits, if_pos hn]
    rfl
  · rw [if_neg (by omega), decimalDigits, if_neg hn, Int.natAbs_natCast]

theorem decimal_neg {n : ℤ} (h : n < 0) : decimal n = js "-" ++ decimal n.natAbs := by
  rw [decimal_natCast, decimal, if_pos h, if_neg (by omega), decimalDigits, if_neg (by omega)]

example : decimal (-1205) = js "-1205" := by decide +kernel

/-- The value of a digit in base `b`, of either case. -/
def digitValue (b : ℕ) (c : CodeUnit) : Option ℕ := (hexValue c).filter (· < b)

theorem digitValue_decimalUnit {d : ℕ} (h : d < 10) : digitValue 10 (decimalUnit d) = some d := by
  revert d
  decide

theorem mapM_digitValue {ds : List ℕ} (h : ∀ d ∈ ds, d < 10) :
    (ds.map decimalUnit).mapM (digitValue 10) = some ds := by
  induction ds with
  | nil => rfl
  | cons d ds ih =>
    have hd := digitValue_decimalUnit (h d List.mem_cons_self)
    have ht := ih (fun x hx => h x (List.mem_cons_of_mem _ hx))
    simp [hd, ht]

theorem filterMap_digitValue {ds : List ℕ} (h : ∀ d ∈ ds, d < 10) :
    (ds.map decimalUnit).filterMap (digitValue 10) = ds := by
  calc (ds.map decimalUnit).filterMap (digitValue 10)
      = ds.filterMap (digitValue 10 ∘ decimalUnit) := List.filterMap_map ..
    _ = ds.filterMap some := List.filterMap_congr (fun d hd => digitValue_decimalUnit (h d hd))
    _ = ds := List.filterMap_some

end Digits

section Reading

/-- White space and line terminators of ECMAScript. -/
def isWhite (c : CodeUnit) : Bool :=
  (0x09 ≤ c.val ∧ c.val ≤ 0x0D) ∨ (0x2000 ≤ c.val ∧ c.val ≤ 0x200A) ∨
    c.val ∈ [0x20, 0xA0, 0x1680, 0x2028, 0x2029, 0x202F, 0x205F, 0x3000, 0xFEFF]

/-- `String.prototype.trim`. -/
def trim (s : JsString) : JsString := ((s.dropWhile isWhite).reverse.dropWhile isWhite).reverse

def natIn (b : ℕ) (s : JsString) : Option ℕ :=
  if s.isEmpty then none else (s.mapM (digitValue b)).map (ofDigits b)

def radix (c : CodeUnit) : Option ℕ :=
  if c ∈ js "xX" then some 16 else if c ∈ js "oO" then some 8
  else if c ∈ js "bB" then some 2 else none

/-- `BigInt(s)`, with nothing for a `SyntaxError`. -/
def bigInt (s : JsString) : Option ℤ :=
  match trim s with
  | [] => some 0
  | c :: rest =>
    if c = 0x2D then (natIn 10 rest).map (fun n : ℕ => -(n : ℤ))
    else if c = 0x2B then (natIn 10 rest).map Nat.cast
    else match rest with
      | x :: digits =>
        match (if c = 0x30 then radix x else none) with
        | some b => (natIn b digits).map Nat.cast
        | none => (natIn 10 (c :: x :: digits)).map Nat.cast
      | [] => (natIn 10 [c]).map Nat.cast

theorem trim_eq {s : JsString} (h : ∀ c ∈ s, isWhite c = false) : trim s = s := by
  have hdrop {l : JsString} (hl : ∀ c ∈ l, isWhite c = false) : l.dropWhile isWhite = l := by
    cases l with
    | nil => rfl
    | cons c rest => simp [hl c List.mem_cons_self]
  rw [trim, hdrop h, hdrop (fun c hc => h c (List.mem_reverse.1 hc)), List.reverse_reverse]

theorem isWhite_decimalUnit {d : ℕ} (h : d < 10) : isWhite (decimalUnit d) = false := by
  revert d
  decide

theorem radix_decimalUnit {d : ℕ} (h : d < 10) : radix (decimalUnit d) = none := by
  revert d
  decide

theorem natIn_decimal {ds : List ℕ} (hne : ds ≠ []) (h : ∀ d ∈ ds, d < 10) :
    natIn 10 (ds.map decimalUnit) = some (ofDigits 10 ds) := by
  rw [natIn, if_neg (by simpa using hne), mapM_digitValue h, Option.map_some]

theorem sign_decimalUnit {d : ℕ} (h : d < 10) :
    decimalUnit d ≠ 0x2D ∧ decimalUnit d ≠ 0x2B := by
  revert d
  decide

theorem bigInt_natCast (n : ℕ) : bigInt (decimal n) = some (n : ℤ) := by
  have hlt : ∀ d ∈ decimalDigits n, d < 10 := fun d hd => decimalDigits_lt hd
  have hnat := natIn_decimal (decimalDigits_ne_nil n) hlt
  rw [ofDigits_decimalDigits] at hnat
  have hwhite : ∀ c ∈ (decimalDigits n).map decimalUnit, isWhite c = false := by
    intro c hc
    obtain ⟨d, hd, rfl⟩ := List.mem_map.1 hc
    exact isWhite_decimalUnit (hlt d hd)
  rw [decimal_natCast, bigInt, trim_eq hwhite]
  cases hds : decimalDigits n with
  | nil => exact absurd hds (decimalDigits_ne_nil n)
  | cons d ds =>
    rw [hds] at hlt hnat
    obtain ⟨hminus, hplus⟩ := sign_decimalUnit (hlt d List.mem_cons_self)
    simp only [List.map_cons, if_neg hminus, if_neg hplus]
    cases ds with
    | nil =>
      simp only [List.map_nil, List.map_cons] at hnat ⊢
      rw [hnat, Option.map_some]
    | cons e ds =>
      have he := radix_decimalUnit (hlt e (by simp))
      simp only [List.map_cons, he, ite_self] at hnat ⊢
      rw [hnat, Option.map_some]

/-- What `toString` writes, `BigInt` reads. -/
theorem bigInt_decimal (n : ℤ) : bigInt (decimal n) = some n := by
  by_cases hn : n < 0
  · have hlt : ∀ d ∈ decimalDigits n.natAbs, d < 10 := fun d hd => decimalDigits_lt hd
    have hwhite : ∀ c ∈ (0x2D : CodeUnit) :: (decimalDigits n.natAbs).map decimalUnit,
        isWhite c = false := by
      intro c hc
      rcases List.mem_cons.1 hc with rfl | hc
      · decide
      · obtain ⟨d, hd, rfl⟩ := List.mem_map.1 hc
        exact isWhite_decimalUnit (hlt d hd)
    have htext : decimal n = 0x2D :: (decimalDigits n.natAbs).map decimalUnit := by
      rw [decimal_neg hn, decimal_natCast]
      rfl
    rw [htext, bigInt, trim_eq hwhite]
    simp only [if_true, natIn_decimal (decimalDigits_ne_nil _) hlt, ofDigits_decimalDigits,
      Option.map_some, Option.some.injEq]
    omega
  · obtain ⟨m, rfl⟩ := Int.eq_ofNat_of_zero_le (not_lt.1 hn)
    exact bigInt_natCast m

end Reading

section Showing

def MINOR_UNITS_PER_MAJOR : ℕ := 100

/-- A comma before every group of three digits but the first. -/
def grouped : JsString → JsString
  | [] => []
  | c :: rest =>
    if rest ≠ [] ∧ rest.length % 3 = 0 then c :: 0x2C :: grouped rest else c :: grouped rest

def formatMinorUnits (amountMinor : ℤ) (currency : JsString) : JsString :=
  let absolute := amountMinor.natAbs
  let symbol := if currency = js "BDT" then js "৳" else currency ++ js " "
  (if amountMinor < 0 then js "-" else []) ++ symbol ++
    grouped (decimal ((absolute / MINOR_UNITS_PER_MAJOR : ℕ) : ℤ)) ++ js "." ++
    padded 2 (absolute % MINOR_UNITS_PER_MAJOR)

example : formatMinorUnits 123456789 (js "BDT") = js "৳1,234,567.89" := by decide +kernel

/-- The number a reader finds in a text: its digits, read as one number. -/
def shown (s : JsString) : ℕ := ofDigits 10 (s.filterMap (digitValue 10))

theorem filterMap_grouped (s : JsString) :
    (grouped s).filterMap (digitValue 10) = s.filterMap (digitValue 10) := by
  have hcomma : digitValue 10 0x2C = none := by decide
  induction s with
  | nil => rfl
  | cons c rest ih =>
    unfold grouped
    split_ifs <;> simp [List.filterMap_cons, hcomma, ih]

theorem length_grouped (s : JsString) : (grouped s).length ≤ 2 * s.length := by
  induction s with
  | nil => simp [grouped]
  | cons c rest ih =>
    unfold grouped
    split_ifs <;> simp only [List.length_cons] <;> omega

/-- The amount is shown to the last minor unit. -/
theorem shown_formatMinorUnits {before after : JsString} (n : ℤ)
    (hbefore : before.filterMap (digitValue 10) = [])
    (hafter : after.filterMap (digitValue 10) = []) :
    shown (before ++ formatMinorUnits n (js "BDT") ++ after) = n.natAbs := by
  have hminus : (if n < 0 then js "-" else []).filterMap (digitValue 10) = [] := by
    split_ifs <;> decide
  have hsymbol : (js "৳").filterMap (digitValue 10) = [] := by decide
  have hpoint : (js ".").filterMap (digitValue 10) = [] := by decide
  have hlt : n.natAbs % 100 < 10 ^ 2 := Nat.mod_lt _ (by decide)
  simp only [shown, formatMinorUnits, if_true, MINOR_UNITS_PER_MAJOR, List.filterMap_append,
    hbefore, hafter, hminus, hsymbol, hpoint, List.nil_append, List.append_nil, filterMap_grouped,
    decimal_natCast, filterMap_digitValue (fun d hd => decimalDigits_lt hd), padded,
    filterMap_digitValue (fun d hd => digits_lt (by decide) hd)]
  rw [ofDigits_append, ofDigits_decimalDigits, length_digits, ofDigits_digits 10 2 _ hlt]
  omega

theorem length_formatMinorUnits {n : ℤ} (hn : n.natAbs < 10 ^ 20) :
    (formatMinorUnits n (js "BDT")).length ≤ 41 := by
  have hmajor : (decimalDigits (n.natAbs / 100)).length ≤ 18 :=
    length_decimalDigits (by decide) (by omega)
  have hgroups := length_grouped (decimal ((n.natAbs / 100 : ℕ) : ℤ))
  rw [decimal_natCast, List.length_map] at hgroups
  have hminus : (if n < 0 then js "-" else []).length ≤ 1 := by
    split_ifs <;> decide
  have hsymbol : (js "৳").length = 1 := by decide
  have hpoint : (js ".").length = 1 := by decide
  simp only [formatMinorUnits, if_true, MINOR_UNITS_PER_MAJOR, List.length_append, hsymbol, hpoint,
    padded, List.length_map, length_digits, decimal_natCast]
  omega

end Showing

section Runs

def point : CodeUnit := 0x2E

def isDigit (c : CodeUnit) : Bool := 0x30 ≤ c ∧ c ≤ 0x39

def IsDigits (ds : List ℕ) : Prop := ∀ d ∈ ds, d < 10

def digitText (ds : List ℕ) : JsString := ds.map decimalUnit

theorem isDigit_decimalUnit {d : ℕ} (h : d < 10) : isDigit (decimalUnit d) = true := by
  revert d
  decide

theorem decimalUnit_of_isDigit {c : CodeUnit} (h : isDigit c = true) :
    ∃ d < 10, c = decimalUnit d := by
  have hrange : (0x30 : CodeUnit) ≤ c ∧ c ≤ 0x39 := of_decide_eq_true h
  simp only [Fin.le_def] at hrange
  change 0x30 ≤ c.val ∧ c.val ≤ 0x39 at hrange
  refine ⟨c.val - 0x30, by omega, Fin.ext ?_⟩
  simp only [decimalUnit, Fin.val_ofNat]
  omega

theorem isDigit_point : isDigit point = false := by decide

theorem ne_point_of_isDigit {c : CodeUnit} (h : isDigit c = true) : c ≠ point := by
  rintro rfl
  rw [isDigit_point] at h
  exact Bool.false_ne_true h

theorem all_isDigit_iff {s : JsString} :
    (∀ c ∈ s, isDigit c = true) ↔ ∃ ds, IsDigits ds ∧ s = digitText ds := by
  constructor
  · intro h
    induction s with
    | nil => exact ⟨[], by simp [IsDigits], rfl⟩
    | cons c s ih =>
      obtain ⟨d, hd, rfl⟩ := decimalUnit_of_isDigit (h c List.mem_cons_self)
      obtain ⟨ds, hds, rfl⟩ := ih (fun c' hc' => h c' (List.mem_cons_of_mem _ hc'))
      refine ⟨d :: ds, ?_, rfl⟩
      rintro e (_ | ⟨_, he⟩)
      · exact hd
      · exact hds e he
  · rintro ⟨ds, hds, rfl⟩ c hc
    obtain ⟨d, hd, rfl⟩ := List.mem_map.1 hc
    exact isDigit_decimalUnit (hds d hd)

theorem shown_digitText {ds : List ℕ} (h : IsDigits ds) :
    shown (digitText ds) = ofDigits 10 ds := by
  rw [shown, digitText, filterMap_digitValue h]

theorem digitText_inj {ds es : List ℕ} (hds : IsDigits ds) (hes : IsDigits es)
    (h : digitText ds = digitText es) : ds = es := by
  rw [← filterMap_digitValue hds, ← filterMap_digitValue hes]
  exact congrArg (List.filterMap (digitValue 10)) h

theorem ofDigits_lt {ds : List ℕ} (h : IsDigits ds) : ofDigits 10 ds < 10 ^ ds.length := by
  have hlt := Nat.ofDigits_lt_base_pow_length (b := 10) (l := ds.reverse) (by decide)
    (fun d hd => h d (List.mem_reverse.1 hd))
  rwa [← ofDigits_eq_nat, List.length_reverse] at hlt

theorem ofDigits_zeros (k : ℕ) : ofDigits 10 (List.replicate k 0) = 0 := by
  induction k with
  | zero => rfl
  | succ k ih => rw [List.replicate_succ', ofDigits_snoc, ih]

theorem ofDigits_append_zeros (ds : List ℕ) (k : ℕ) :
    ofDigits 10 (ds ++ List.replicate k 0) = ofDigits 10 ds * 10 ^ k := by
  rw [ofDigits_append, ofDigits_zeros, List.length_replicate, add_zero]

theorem ofDigits_zeros_append (k : ℕ) (ds : List ℕ) :
    ofDigits 10 (List.replicate k 0 ++ ds) = ofDigits 10 ds := by
  rw [ofDigits_append, ofDigits_zeros, zero_mul, zero_add]

theorem isDigits_append {ds es : List ℕ} (hds : IsDigits ds) (hes : IsDigits es) :
    IsDigits (ds ++ es) := fun d hd => (List.mem_append.1 hd).elim (hds d) (hes d)

theorem isDigits_zeros (k : ℕ) : IsDigits (List.replicate k 0) := by
  intro d hd
  rw [List.eq_of_mem_replicate hd]
  decide

end Runs

end MoneyMovement
