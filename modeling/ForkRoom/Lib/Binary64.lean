/-
# `Lib.Binary64` — rounding to double precision

The quotient of two integers in a language whose `/` yields an IEEE 754 double
is the exact rational quotient rounded to the nearest double, ties to even.
`binary64` is that rounding on non-negative rationals in the normal range, as a
function on `ℚ`: 53 significant bits, unbounded exponent.

What a program proves about such a quotient is usually that the rounding does
no harm.  Two facts carry it: the rounding is monotone, and it fixes every
dyadic number of at most 53 bits.  The result used downstream is
`ceil_binary64_div`: the ceiling of a rounded quotient is the ceiling of the
exact one, for divisors up to 128 and quotients below `2 ^ 45`.
-/
import Mathlib.Data.Int.Log
import Mathlib.Data.Rat.Floor
import Mathlib.Algebra.Order.Round
import Mathlib.Tactic.Positivity
import Mathlib.Tactic.FieldSimp
import Mathlib.Tactic.NormNum
import Mathlib.Tactic.Linarith

namespace Binary64

/-! ## Rounding to an integer -/

/-- The nearest integer, ties to even. -/
def roundHalfEven (x : ℚ) : ℤ :=
  if Int.fract x < 1 / 2 then ⌊x⌋
  else if 1 / 2 < Int.fract x then ⌊x⌋ + 1
  else if ⌊x⌋ % 2 = 0 then ⌊x⌋
  else ⌊x⌋ + 1

theorem floor_le_roundHalfEven (x : ℚ) : ⌊x⌋ ≤ roundHalfEven x := by
  unfold roundHalfEven
  split_ifs <;> omega

theorem roundHalfEven_le (x : ℚ) : roundHalfEven x ≤ ⌊x⌋ + 1 := by
  unfold roundHalfEven
  split_ifs <;> omega

@[simp] theorem roundHalfEven_intCast (n : ℤ) : roundHalfEven n = n := by
  simp [roundHalfEven]

theorem roundHalfEven_mono {x y : ℚ} (h : x ≤ y) : roundHalfEven x ≤ roundHalfEven y := by
  rcases (Int.floor_le_floor h).lt_or_eq with hlt | heq
  · calc roundHalfEven x ≤ ⌊x⌋ + 1 := roundHalfEven_le x
      _ ≤ ⌊y⌋ := hlt
      _ ≤ roundHalfEven y := floor_le_roundHalfEven y
  · -- same integer part: the fractional parts compare as the numbers do
    have hfract : Int.fract x ≤ Int.fract y := by
      have hx := Int.floor_add_fract x
      have hy := Int.floor_add_fract y
      rw [heq] at hx
      linarith
    unfold roundHalfEven
    rw [heq]
    split_ifs <;> first | omega | (exfalso; linarith)

/-! ## Rounding to a double -/

/-- The unit in the last place of a positive `x`. -/
def ulp (x : ℚ) : ℚ := 2 ^ (Int.log 2 x - 52)

/-- The double nearest to a non-negative `x`, ties to even. -/
def binary64 (x : ℚ) : ℚ := if x = 0 then 0 else roundHalfEven (x / ulp x) * ulp x

theorem ulp_pos (x : ℚ) : 0 < ulp x := zpow_pos (by norm_num) _

/-- `n` more powers of two than a unit in the last place. -/
theorem two_pow_mul_ulp (x : ℚ) (n : ℕ) :
    ((2 ^ n : ℤ) : ℚ) * ulp x = 2 ^ (Int.log 2 x + (n - 52)) := by
  unfold ulp
  rw [Int.cast_pow, Int.cast_ofNat, ← zpow_natCast, ← zpow_add₀ (by norm_num : (2 : ℚ) ≠ 0)]
  congr 1
  ring

/-- A number that is a whole number of its own units is a double. -/
theorem binary64_of_ulp {x : ℚ} {n : ℤ} (h : x / ulp x = n) : binary64 x = x := by
  unfold binary64
  split
  · rename_i h0
    exact h0.symm
  · rw [h, roundHalfEven_intCast, ← h]
    exact div_mul_cancel₀ x (ulp_pos x).ne'

/-- Dyadic numbers of at most 53 bits are doubles. -/
theorem binary64_dyadic {x : ℚ} (hx : 0 < x) {k : ℕ} {n : ℤ} (hn : x * 2 ^ k = n)
    (hlt : x < 2 ^ (53 - (k : ℤ))) : binary64 x = x := by
  have hlog : Int.log 2 x < 53 - k := (Int.lt_zpow_iff_log_lt one_lt_two hx).mp (by simpa using hlt)
  obtain ⟨j, hj⟩ : ∃ j : ℕ, 52 - Int.log 2 x = k + j :=
    ⟨(52 - Int.log 2 x - k).toNat, by omega⟩
  refine binary64_of_ulp (n := n * 2 ^ j) ?_
  have hulp : ulp x = ((2 : ℚ) ^ (k + j))⁻¹ := by
    unfold ulp
    rw [show Int.log 2 x - 52 = -((k + j : ℕ) : ℤ) by push_cast; omega, zpow_neg, zpow_natCast]
  rw [hulp, div_inv_eq_mul, pow_add, ← mul_assoc, hn]
  push_cast
  ring

theorem binary64_mono {x y : ℚ} (hx : 0 < x) (h : x ≤ y) : binary64 x ≤ binary64 y := by
  have hy : 0 < y := hx.trans_le h
  unfold binary64
  rw [if_neg hx.ne', if_neg hy.ne']
  rcases (Int.log_mono_right hx h : Int.log 2 x ≤ Int.log 2 y).lt_or_eq with hlt | heq
  · -- a power of two lies between them, and rounding does not cross it
    have hux := ulp_pos x
    have huy := ulp_pos y
    have hxpow : x / ulp x ≤ ((2 ^ 53 : ℤ) : ℚ) := by
      rw [div_le_iff₀ hux]
      calc x ≤ 2 ^ (Int.log 2 x + 1) := by
            exact_mod_cast (Int.lt_zpow_succ_log_self (one_lt_two : 1 < 2) x).le
        _ = ((2 ^ 53 : ℤ) : ℚ) * ulp x := (two_pow_mul_ulp x 53).symm
    have hypow : ((2 ^ 52 : ℤ) : ℚ) ≤ y / ulp y := by
      rw [le_div_iff₀ huy]
      calc ((2 ^ 52 : ℤ) : ℚ) * ulp y = 2 ^ Int.log 2 y := by
            rw [two_pow_mul_ulp y 52]
            norm_num
        _ ≤ y := by exact_mod_cast Int.zpow_log_le_self (one_lt_two : 1 < 2) hy
    have hrx : (roundHalfEven (x / ulp x) : ℚ) ≤ 2 ^ 53 := by
      have := roundHalfEven_mono hxpow
      rw [roundHalfEven_intCast] at this
      exact_mod_cast this
    have hry : (2 ^ 52 : ℚ) ≤ roundHalfEven (y / ulp y) := by
      have := roundHalfEven_mono hypow
      rw [roundHalfEven_intCast] at this
      exact_mod_cast this
    have hulp : 2 * ulp x ≤ ulp y := by
      unfold ulp
      rw [← zpow_one_add₀ (by norm_num : (2 : ℚ) ≠ 0)]
      exact zpow_le_zpow_right₀ (by norm_num) (by omega)
    calc (roundHalfEven (x / ulp x) : ℚ) * ulp x ≤ 2 ^ 53 * ulp x := by gcongr
      _ = 2 ^ 52 * (2 * ulp x) := by ring
      _ ≤ 2 ^ 52 * ulp y := by gcongr
      _ ≤ roundHalfEven (y / ulp y) * ulp y := by gcongr
  · have hulp : ulp x = ulp y := by
      unfold ulp
      rw [heq]
    rw [hulp]
    have : roundHalfEven (x / ulp y) ≤ roundHalfEven (y / ulp y) :=
      roundHalfEven_mono (div_le_div_of_nonneg_right h (ulp_pos y).le)
    exact mul_le_mul_of_nonneg_right (by exact_mod_cast this) (ulp_pos y).le

theorem binary64_natCast {n : ℕ} (h : n < 2 ^ 53) : binary64 n = n := by
  rcases Nat.eq_zero_or_pos n with rfl | hn
  · simp [binary64]
  · refine binary64_dyadic (by exact_mod_cast hn) (k := 0) (n := n) (by simp) ?_
    have : (n : ℚ) < 2 ^ 53 := by exact_mod_cast h
    simpa using this

/-! ## The ceiling of a rounded quotient -/

theorem ceil_binary64_div {m d : ℕ} (hd : 0 < d) (hd' : d ≤ 128) (hm : m < 2 ^ 45 * d) :
    ⌈binary64 (m / d)⌉ = ⌈(m / d : ℚ)⌉ := by
  have hdq : (0 : ℚ) < d := by exact_mod_cast hd
  rcases Nat.eq_zero_or_pos m with rfl | hmpos
  · simp [binary64]
  have hx : (0 : ℚ) < m / d := by positivity
  -- `c` is the ceiling; rounding stays at or below it, and above `c - 1`
  obtain ⟨c, hc⟩ : ∃ c : ℕ, ⌈(m / d : ℚ)⌉ = c + 1 := by
    have hpos : 0 < ⌈(m / d : ℚ)⌉ := Int.ceil_pos.mpr hx
    exact ⟨(⌈(m / d : ℚ)⌉ - 1).toNat, by omega⟩
  have hupper : (m / d : ℚ) ≤ c + 1 := by
    have := Int.le_ceil (m / d : ℚ)
    rw [hc] at this
    exact_mod_cast this
  have hlower : (c : ℚ) < m / d := by
    have := Int.ceil_lt_add_one (m / d : ℚ)
    rw [hc] at this
    push_cast at this
    linarith
  have hcm : c * d < m := by
    rw [lt_div_iff₀ hdq] at hlower
    exact_mod_cast hlower
  have hc45 : c < 2 ^ 45 := lt_of_mul_lt_mul_right (hcm.trans hm) (Nat.zero_le d)
  have hle : binary64 (m / d) ≤ (c : ℚ) + 1 := by
    have := binary64_mono hx hupper
    rw [show ((c : ℚ) + 1) = ((c + 1 : ℕ) : ℚ) by push_cast; ring,
      binary64_natCast (by omega)] at this
    exact_mod_cast this
  have hstep : (c : ℚ) + 1 / 128 ≤ m / d := by
    -- the exact quotient exceeds `c` by at least `1 / d`
    rw [le_div_iff₀ hdq]
    have h1 : (c : ℚ) * d + 1 ≤ m := by exact_mod_cast hcm
    have h2 : (1 / 128 : ℚ) * d ≤ 1 := by
      have : (d : ℚ) ≤ 128 := by exact_mod_cast hd'
      linarith
    linarith
  have hgt : (c : ℚ) < binary64 (m / d) := by
    have hpos : (0 : ℚ) < c + 1 / 128 := by positivity
    have hdyad : binary64 ((c : ℚ) + 1 / 128) = c + 1 / 128 := by
      refine binary64_dyadic hpos (k := 7) (n := 128 * c + 1) (by push_cast; ring) ?_
      have : (c : ℚ) + 1 ≤ 2 ^ 45 := by exact_mod_cast hc45
      calc (c : ℚ) + 1 / 128 < 2 ^ 45 := by linarith
        _ ≤ 2 ^ (53 - ((7 : ℕ) : ℤ)) := by norm_num
    have := binary64_mono hpos hstep
    rw [hdyad] at this
    linarith
  rw [hc, Int.ceil_eq_iff]
  push_cast
  exact ⟨by linarith, hle⟩

end Binary64
