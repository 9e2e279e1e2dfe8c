import Mathlib.Data.ENat.Basic
import MoneyMovement.Basic.Text

/-!
# Rounding of whole numbers

A rounding of the numbers that are not negative keeps their order and does not
move one up to `2^53`; beyond that it may move one as far as `⊤`, the infinity.
A result below `2^53` is therefore exact. Doubles round so: to the nearest, ties
to even.
-/

namespace MoneyMovement

structure Rounding where
  round : ℕ → ℕ∞
  monotone : Monotone round
  exact : ∀ n ≤ 2 ^ 53, round n = n

namespace Rounding

variable (R : Rounding)

def lift : ℕ∞ → ℕ∞
  | ⊤ => ⊤
  | (n : ℕ) => R.round n

@[simp] theorem lift_top : R.lift ⊤ = ⊤ := rfl

@[simp] theorem lift_natCast (n : ℕ) : R.lift n = R.round n := rfl

theorem round_eq_iff {m n : ℕ} (hn : n < 2 ^ 53) : R.round m = n ↔ m = n := by
  constructor
  · intro h
    rcases lt_trichotomy m n with hlt | heq | hgt
    · rw [R.exact m (hlt.le.trans hn.le)] at h
      exact Nat.cast_injective h
    · exact heq
    · have hnext : R.round (n + 1) = ((n + 1 : ℕ) : ℕ∞) := R.exact (n + 1) hn
      have hle : R.round (n + 1) ≤ R.round m := R.monotone hgt
      rw [hnext, h, Nat.cast_le] at hle
      omega
  · rintro rfl
    exact R.exact m hn.le

theorem lift_eq_iff {x : ℕ∞} {n : ℕ} (hn : n < 2 ^ 53) : R.lift x = n ↔ x = n := by
  induction x using ENat.recTopCoe with
  | top => simp
  | coe m => rw [lift_natCast, R.round_eq_iff hn, Nat.cast_inj]

end Rounding

section Nearest

/-- The multiple of `unit` nearest to `n`, the even one of two. -/
def roundTo (unit n : ℕ) : ℕ :=
  (if unit < 2 * (n % unit) ∨ (2 * (n % unit) = unit ∧ n / unit % 2 = 1) then n / unit + 1
    else n / unit) * unit

theorem roundTo_one (n : ℕ) : roundTo 1 n = n := by
  simp [roundTo, Nat.mod_one]

theorem le_roundTo {unit k n : ℕ} (hunit : 0 < unit) (h : k * unit ≤ n) :
    k * unit ≤ roundTo unit n := by
  have hk : k ≤ n / unit := (Nat.le_div_iff_mul_le hunit).2 h
  unfold roundTo
  split_ifs
  · exact Nat.mul_le_mul_right _ (hk.trans (Nat.le_succ _))
  · exact Nat.mul_le_mul_right _ hk

theorem roundTo_le {unit k n : ℕ} (hunit : 0 < unit) (h : n ≤ k * unit) :
    roundTo unit n ≤ k * unit := by
  have hdiv := Nat.div_add_mod' n unit
  unfold roundTo
  apply Nat.mul_le_mul_right
  by_cases hr : n % unit = 0
  · have hk : n / unit ≤ k := Nat.div_le_of_le_mul (by rwa [Nat.mul_comm])
    rw [if_neg (by omega)]
    exact hk
  · have hk : n / unit < k := by
      rw [← Nat.mul_lt_mul_right hunit]
      omega
    split_ifs <;> omega

theorem roundTo_mono {unit m n : ℕ} (hunit : 0 < unit) (h : m ≤ n) :
    roundTo unit m ≤ roundTo unit n := by
  rcases (Nat.div_le_div_right (c := unit) h).lt_or_eq with hlt | heq
  · have hm : m ≤ n / unit * unit := by
      have hdiv := Nat.div_add_mod' m unit
      have hmod := Nat.mod_lt m hunit
      have hnext : (m / unit + 1) * unit ≤ n / unit * unit := Nat.mul_le_mul_right _ hlt
      rw [Nat.succ_mul] at hnext
      omega
    exact (roundTo_le hunit hm).trans (le_roundTo hunit (Nat.div_mul_le_self n unit))
  · have hmod : m % unit ≤ n % unit := by
      have hm := Nat.div_add_mod' m unit
      have hn := Nat.div_add_mod' n unit
      rw [heq] at hm
      omega
    unfold roundTo
    apply Nat.mul_le_mul_right
    rw [heq]
    split_ifs <;> omega

/-- The nearest number of 53 significant bits. -/
def nearest (n : ℕ) : ℕ := roundTo (2 ^ (n.log2 - 52)) n

theorem nearest_eq {n : ℕ} (h : n ≤ 2 ^ 53) : nearest n = n := by
  rcases h.lt_or_eq with hlt | rfl
  · have hlog : n.log2 - 52 = 0 := by
      by_cases hn : n = 0
      · rw [hn]
        rfl
      · have := (Nat.log2_lt hn).2 hlt
        omega
    rw [nearest, hlog]
    exact roundTo_one n
  · decide

theorem nearest_mono : Monotone nearest := by
  intro m n h
  have hpos (k : ℕ) : 0 < 2 ^ k := Nat.two_pow_pos k
  by_cases hunit : m.log2 - 52 = n.log2 - 52
  · unfold nearest
    rw [hunit]
    exact roundTo_mono (hpos _) h
  · by_cases hm : m = 0
    · rw [hm]
      exact Nat.zero_le _
    have hn : n ≠ 0 := by omega
    have hlog : m.log2 ≤ n.log2 := (Nat.le_log2 hn).2 ((Nat.log2_self_le hm).trans h)
    -- The power of two at the bottom of the range of `n` lies between the two.
    have hbelow : m ≤ 2 ^ (n.log2 - (m.log2 - 52)) * 2 ^ (m.log2 - 52) := by
      rw [← pow_add, Nat.sub_add_cancel (by omega)]
      exact (Nat.lt_log2_self.le).trans (Nat.pow_le_pow_right (by decide) (by omega))
    have habove : 2 ^ 52 * 2 ^ (n.log2 - 52) ≤ n := by
      rw [← pow_add, Nat.add_sub_cancel' (by omega)]
      exact Nat.log2_self_le hn
    calc nearest m ≤ 2 ^ (n.log2 - (m.log2 - 52)) * 2 ^ (m.log2 - 52) :=
          roundTo_le (hpos _) hbelow
      _ = 2 ^ 52 * 2 ^ (n.log2 - 52) := by
          rw [← pow_add, ← pow_add]
          congr 1
          omega
      _ ≤ nearest n := le_roundTo (hpos _) habove

theorem number_natCast (n : ℕ) : number n = nearest n := by
  by_cases hn : n < 2 ^ 53
  · rw [number_exact (by omega), nearest_eq hn.le]
  · have hsign : ((n : ℤ)).sign = 1 := Int.sign_eq_one_of_pos (by omega)
    simp only [number, Int.natAbs_natCast, if_neg hn, hsign, one_mul, nearest, roundTo]

/-- Doubles: from halfway past the largest of them on, the result is infinite. -/
def double : Rounding where
  round n := if n < 2 ^ 1024 - 2 ^ 970 then (nearest n : ℕ∞) else ⊤
  monotone := by
    intro m n h
    dsimp only
    split_ifs with hm hn
    · exact Nat.cast_le.2 (nearest_mono h)
    · exact le_top
    · omega
    · exact le_rfl
  exact := by
    intro n hn
    rw [if_pos (by omega), nearest_eq hn]

end Nearest

end MoneyMovement
