import Mathlib.Algebra.Order.Field.Power
import Mathlib.Algebra.Order.Floor.Semifield
import Mathlib.Data.Int.Log
import Mathlib.Data.Rat.Floor
import Mathlib.Tactic.FieldSimp
import Mathlib.Tactic.NormNum
import Mathlib.Tactic.Positivity
import Mathlib.Tactic.Ring
import RouteTrie.Binary64

/-!
# Rounding is about values

A quotient is rounded with its numerator and denominator at hand, but the result depends on nothing
but its value.  The value of a double is its own nearest double.

## What is here

* `Binary64.absValue`: the absolute value of a double.
* `Binary64.floorLog2_eq_log`: the exponent that rounding looks for is a logarithm.
* `Binary64.roundHalfEven_congr`, `Binary64.nearest_congr`: equal quotients are rounded alike.
* `Binary64.nearest_eq_magnitude`: the value of a double is rounded to the double.
-/

set_option autoImplicit false

namespace RouteTrie.Binary64

/-- The absolute value of a double. -/
def absValue (x : Binary64) : ℚ := x.significand * 2 ^ x.exponent

/-! ## Scaling -/

theorem zpow_toNat_sub {a : ℚ} (ha : a ≠ 0) (k : Int) : a ^ k.toNat / a ^ (-k).toNat = a ^ k := by
  rw [← zpow_natCast, ← zpow_natCast, ← zpow_sub₀ ha]
  congr 1
  omega

theorem shifted_pos (num : Nat) {den : Nat} (hden : 0 < den) (k : Int) :
    0 < (shifted num den k).2 := by
  rw [shifted]
  exact Nat.mul_pos hden (Nat.pow_pos (by decide))

theorem cast_shifted (num den : Nat) (k : Int) :
    ((shifted num den k).1 : ℚ) / (shifted num den k).2 = num / den * 2 ^ k := by
  rw [shifted, ← zpow_toNat_sub (a := 2) (by norm_num) k]
  simp only [Nat.pow_eq]
  push_cast
  rw [mul_div_mul_comm]

/-! ## The nearest natural number -/

theorem roundHalfEven_mul_right (num den : Nat) {c : Nat} (hc : 0 < c) :
    roundHalfEven (num * c) (den * c) = roundHalfEven num den := by
  have hlt : ∀ a b : Nat, 2 * (a * c) < b * c ↔ 2 * a < b := fun a b => by
    rw [← Nat.mul_assoc, Nat.mul_lt_mul_right hc]
  have hgt : ∀ a b : Nat, b * c < 2 * (a * c) ↔ b < 2 * a := fun a b => by
    rw [← Nat.mul_assoc, Nat.mul_lt_mul_right hc]
  simp only [roundHalfEven, Nat.mul_div_mul_right num den hc, Nat.mul_mod_mul_right, hlt, hgt]

theorem mul_eq_mul_of_div_eq {num den num' den' : Nat} (hden : 0 < den) (hden' : 0 < den')
    (h : (num : ℚ) / den = num' / den') : num * den' = num' * den := by
  rw [div_eq_div_iff (by positivity) (by positivity)] at h
  exact_mod_cast h

/-- Equal quotients have the same nearest natural number. -/
theorem roundHalfEven_congr {num den num' den' : Nat} (hden : 0 < den) (hden' : 0 < den')
    (h : (num : ℚ) / den = num' / den') : roundHalfEven num den = roundHalfEven num' den' := by
  have hcross := mul_eq_mul_of_div_eq hden hden' h
  rw [← roundHalfEven_mul_right num den hden', ← roundHalfEven_mul_right num' den' hden, hcross,
    Nat.mul_comm den]

theorem roundHalfEven_of_eq {num den n : Nat} (hden : 0 < den) (h : (num : ℚ) / den = n) :
    roundHalfEven num den = n := by
  have hone : (num : ℚ) / den = n / (1 : Nat) := by simpa using h
  rw [roundHalfEven_congr hden Nat.one_pos hone]
  simp [roundHalfEven, Nat.mod_one]

/-! ## The exponent -/

/-- A logarithm is determined by the powers around the value. -/
theorem log_eq_of_bounds {b : Nat} (hb : 1 < b) {r : ℚ} {k : Int} (hlow : (b : ℚ) ^ k ≤ r)
    (hhigh : r < (b : ℚ) ^ (k + 1)) : Int.log b r = k := by
  have hr : 0 < r := lt_of_lt_of_le (by positivity) hlow
  have hle := (Int.zpow_le_iff_le_log hb hr).1 hlow
  have hlt := (Int.lt_zpow_iff_log_lt hb hr).1 hhigh
  omega

/-- The logarithms of the two parts of a quotient leave two possibilities. -/
theorem bounds_of_log2 {num den : Nat} (hnum : 0 < num) (hden : 0 < den) :
    (2 : ℚ) ^ ((num.log2 : Int) - den.log2 - 1) ≤ num / den ∧
      (num / den : ℚ) < 2 ^ ((num.log2 : Int) - den.log2 + 1) := by
  have hnum₁ : (2 : ℚ) ^ num.log2 ≤ num := by exact_mod_cast Nat.log2_self_le hnum.ne'
  have hnum₂ : (num : ℚ) < 2 ^ (num.log2 + 1) := by exact_mod_cast Nat.lt_log2_self
  have hden₁ : (2 : ℚ) ^ den.log2 ≤ den := by exact_mod_cast Nat.log2_self_le hden.ne'
  have hden₂ : (den : ℚ) < 2 ^ (den.log2 + 1) := by exact_mod_cast Nat.lt_log2_self
  have hlow : (2 : ℚ) ^ ((num.log2 : Int) - den.log2 - 1) = 2 ^ num.log2 / 2 ^ (den.log2 + 1) := by
    rw [← zpow_natCast, ← zpow_natCast, ← zpow_sub₀ (by norm_num)]
    congr 1
    omega
  have hhigh : (2 : ℚ) ^ ((num.log2 : Int) - den.log2 + 1) = 2 ^ (num.log2 + 1) / 2 ^ den.log2 := by
    rw [← zpow_natCast, ← zpow_natCast, ← zpow_sub₀ (by norm_num)]
    congr 1
    omega
  have hpos : (0 : ℚ) < den := by exact_mod_cast hden
  rw [hlow, hhigh]
  exact ⟨div_le_div₀ (by positivity) hnum₁ hpos hden₂.le,
    div_lt_div₀ hnum₂ hden₁ (by positivity) (by positivity)⟩

/-- **The exponent of a quotient is its logarithm.** -/
theorem floorLog2_eq_log {num den : Nat} (hnum : 0 < num) (hden : 0 < den) :
    floorLog2 num den = Int.log 2 ((num : ℚ) / den) := by
  obtain ⟨hlow, hhigh⟩ := bounds_of_log2 hnum hden
  have hpos := shifted_pos num hden (-((num.log2 : Int) - den.log2))
  have hvalue := cast_shifted num den (-((num.log2 : Int) - den.log2))
  -- the shifted quotient is below one exactly when the quotient is below the power
  have hcmp : (shifted num den (-((num.log2 : Int) - den.log2))).1 <
      (shifted num den (-((num.log2 : Int) - den.log2))).2 ↔
      (num / den : ℚ) < 2 ^ ((num.log2 : Int) - den.log2) := by
    rw [← Nat.cast_lt (α := ℚ), ← div_lt_one (by exact_mod_cast hpos), hvalue, zpow_neg,
      ← div_eq_mul_inv, div_lt_one (by positivity)]
  rw [floorLog2]
  simp only [hcmp]
  split
  · rename_i hlt
    refine (log_eq_of_bounds (b := 2) (by decide) (by exact_mod_cast hlow) ?_).symm
    rw [sub_add_cancel]
    exact_mod_cast hlt
  · rename_i hlt
    exact (log_eq_of_bounds (b := 2) (by decide) (by exact_mod_cast not_lt.1 hlt)
      (by exact_mod_cast hhigh)).symm

/-! ## The nearest double -/

/-- **Equal quotients have the same nearest double.** -/
theorem nearest_congr {num den num' den' : Nat} (hden : 0 < den) (hden' : 0 < den')
    (h : (num : ℚ) / den = num' / den') : nearest num den = nearest num' den' := by
  have hcross := mul_eq_mul_of_div_eq hden hden' h
  rw [nearest, nearest]
  by_cases hnum : num = 0
  · have hnum' : num' = 0 := by
      rw [hnum, Nat.zero_mul] at hcross
      exact (Nat.mul_eq_zero.1 hcross.symm).resolve_right hden.ne'
    rw [if_pos hnum, if_pos hnum']
  · have hnum' : num' ≠ 0 := by
      rintro rfl
      rw [Nat.zero_mul] at hcross
      exact hnum ((Nat.mul_eq_zero.1 hcross).resolve_right hden'.ne')
    have hlog : floorLog2 num den = floorLog2 num' den' := by
      rw [floorLog2_eq_log (Nat.pos_of_ne_zero hnum) hden, h,
        floorLog2_eq_log (Nat.pos_of_ne_zero hnum') hden']
    rw [if_neg hnum, if_neg hnum', hlog]
    dsimp only
    rw [roundHalfEven_congr (shifted_pos _ hden _) (shifted_pos _ hden' _)
      (by rw [cast_shifted, cast_shifted, h])]

/-- A significand and its exponent, by the kind of the double. -/
theorem significand_cases (x : Binary64) :
    (x.magnitude < 2 ^ 52 ∧ x.significand = x.magnitude ∧ x.exponent = -1074) ∨
      (2 ^ 52 ≤ x.significand ∧ x.significand < 2 ^ 53 ∧ -1074 ≤ x.exponent ∧ x.exponent ≤ 971 ∧
        (x.exponent + 1074).toNat * 2 ^ 52 + x.significand = x.magnitude) := by
  have hfinite := x.finite
  rw [overflow] at hfinite
  rw [significand, exponent, fractionSpan]
  by_cases hx : x.magnitude < 0x10000000000000
  · rw [if_pos hx, if_pos hx]
    exact .inl ⟨hx, rfl, rfl⟩
  · rw [if_neg hx, if_neg hx]
    refine .inr ?_
    omega

theorem log_absValue {x : Binary64} (hx : 0 < x.significand) :
    Int.log 2 x.absValue = x.significand.log2 + x.exponent := by
  have hlow : (2 : ℚ) ^ x.significand.log2 ≤ x.significand := by
    exact_mod_cast Nat.log2_self_le hx.ne'
  have hhigh : (x.significand : ℚ) < 2 ^ (x.significand.log2 + 1) := by
    exact_mod_cast Nat.lt_log2_self
  refine log_eq_of_bounds (b := 2) (by decide) ?_ ?_
  · push_cast
    rw [absValue, zpow_add₀ (by norm_num), zpow_natCast]
    gcongr
  · push_cast
    rw [absValue, add_right_comm, zpow_add₀ (by norm_num)]
    gcongr
    exact_mod_cast hhigh

/-- Rounding keeps all bits of the significand. -/
theorem max_log_absValue {x : Binary64} (hx : 0 < x.significand) :
    max (Int.log 2 x.absValue - 52) (-1074) = x.exponent := by
  rw [log_absValue hx]
  rcases x.significand_cases with ⟨hlt, heq, hexp⟩ | ⟨hlow, hhigh, hexp, -, -⟩
  · have hlog : x.significand.log2 < 52 := (Nat.log2_lt hx.ne').2 (heq ▸ hlt)
    omega
  · have hlog : x.significand.log2 = 52 := (Nat.log2_eq_iff hx.ne').2 ⟨hlow, hhigh⟩
    omega

/-- **The value of a double is rounded to the double.** -/
theorem nearest_eq_magnitude {x : Binary64} {num den : Nat} (hden : 0 < den)
    (h : (num : ℚ) / den = x.absValue) : nearest num den = x.magnitude := by
  rw [nearest]
  by_cases hnum : num = 0
  · rw [if_pos hnum]
    have hzero : x.significand = 0 := by
      rw [hnum, Nat.cast_zero, zero_div, absValue, eq_comm, mul_eq_zero] at h
      exact_mod_cast h.resolve_right (by positivity)
    rcases x.significand_cases with ⟨-, heq, -⟩ | ⟨hlow, -⟩
    · rw [← heq, hzero]
    · rw [hzero] at hlow
      exact absurd hlow (by decide)
  · have hpos : 0 < x.significand := by
      rw [Nat.pos_iff_ne_zero]
      intro hzero
      rw [absValue, hzero, Nat.cast_zero, zero_mul, div_eq_zero_iff] at h
      rcases h with h | h
      · exact hnum (by exact_mod_cast h)
      · exact hden.ne' (by exact_mod_cast h)
    have hround : roundHalfEven (shifted num den (-x.exponent)).1
        (shifted num den (-x.exponent)).2 = x.significand := by
      refine roundHalfEven_of_eq (shifted_pos _ hden _) ?_
      rw [cast_shifted, h, absValue, mul_assoc, ← zpow_add₀ (by norm_num)]
      simp
    rw [if_neg hnum, floorLog2_eq_log (Nat.pos_of_ne_zero hnum) hden, h, max_log_absValue hpos]
    dsimp only
    rw [hround]
    rcases x.significand_cases with ⟨-, heq, hexp⟩ | ⟨-, -, -, -, hsum⟩
    · rw [hexp, heq]
      simp
    · exact hsum

end RouteTrie.Binary64
