import RouteTrie.Binary64.Shortest
import RouteTrie.Proofs.Binary64.Rounding

/-!
# The shortest decimal of a double reads back

A decimal is read as the double nearest to its value.  The decimal that equals a double therefore
reads as the double, and so does the shortest one, which is either found by trying or is the exact
one.  Doubles whose shortest decimals have equal values have the same magnitude.

## What is here

* `Decimal.value`: the value of a decimal.
* `Binary64.ofDecimal?_congr`: decimals of equal value are read alike.
* `Binary64.readsAs_shortest`: the shortest decimal of a double reads as the double.
* `Binary64.magnitude_eq_of_value_shortest`: it tells the magnitude.
-/

set_option autoImplicit false

namespace RouteTrie

/-- The value of a decimal. -/
def Decimal.value (d : Decimal) : ℚ := d.digits * 10 ^ d.exponent

namespace Binary64

theorem value_eq_zero_iff {d : Decimal} : d.value = 0 ↔ d.digits = 0 := by
  rw [Decimal.value, mul_eq_zero, Nat.cast_eq_zero]
  exact or_iff_left (by positivity)

theorem decimalRatio_pos (d : Decimal) : 0 < (decimalRatio d).2 := Nat.pow_pos (by decide)

theorem cast_decimalRatio (d : Decimal) :
    ((decimalRatio d).1 : ℚ) / (decimalRatio d).2 = d.value := by
  rw [decimalRatio, Decimal.value, ← zpow_toNat_sub (a := 10) (by norm_num) d.exponent]
  simp only [Nat.pow_eq]
  push_cast
  rw [mul_div_assoc]

/-! ## The weight of the first digit -/

theorem digitCount_bounds {n : Nat} (hn : 0 < n) :
    10 ^ (digitCount n - 1) ≤ n ∧ n < 10 ^ digitCount n := by
  have hpos : 0 < digitCount n := Nat.length_toDigits_pos
  have hle : ∀ k, 0 < k → (digitCount n ≤ k ↔ n < 10 ^ k) := fun k hk =>
    Nat.length_toDigits_le_iff (by decide) hk
  refine ⟨?_, (hle _ hpos).1 le_rfl⟩
  by_contra hlt
  rw [not_le] at hlt
  rcases Nat.eq_zero_or_pos (digitCount n - 1) with hzero | hk
  · rw [hzero] at hlt
    omega
  · have := (hle _ hk).2 hlt
    omega

/-- The exponent and the number of digits together are a logarithm of the value. -/
theorem top_eq_log {d : Decimal} (hd : d.digits ≠ 0) :
    d.exponent + digitCount d.digits = Int.log 10 d.value + 1 := by
  obtain ⟨hlow, hhigh⟩ := digitCount_bounds (Nat.pos_of_ne_zero hd)
  have hpos : 0 < digitCount d.digits := Nat.length_toDigits_pos
  have hlow' : (10 : ℚ) ^ (digitCount d.digits - 1) ≤ d.digits := by exact_mod_cast hlow
  have hhigh' : (d.digits : ℚ) < 10 ^ digitCount d.digits := by exact_mod_cast hhigh
  have hlog : Int.log 10 d.value = ((digitCount d.digits - 1 : Nat) : Int) + d.exponent := by
    refine log_eq_of_bounds (b := 10) (by decide) ?_ ?_
    · push_cast
      rw [Decimal.value, zpow_add₀ (by norm_num), zpow_natCast]
      gcongr
    · have hexp : ((digitCount d.digits - 1 : Nat) : Int) + d.exponent + 1 =
          (digitCount d.digits : Int) + d.exponent := by omega
      rw [hexp, Decimal.value]
      push_cast
      rw [zpow_add₀ (by norm_num), zpow_natCast]
      gcongr
  omega

/-! ## Reading -/

/-- **Decimals of equal value are read alike.** -/
theorem ofDecimal?_congr {d d' : Decimal} (h : d.value = d'.value) (negative : Bool) :
    ofDecimal? negative d = ofDecimal? negative d' := by
  have hzero : d.digits = 0 ↔ d'.digits = 0 := by
    rw [← value_eq_zero_iff, h, value_eq_zero_iff]
  have hnearest : nearest (decimalRatio d).1 (decimalRatio d).2 =
      nearest (decimalRatio d').1 (decimalRatio d').2 := by
    refine nearest_congr (decimalRatio_pos d) (decimalRatio_pos d') ?_
    rw [cast_decimalRatio, cast_decimalRatio, h]
  by_cases hd : d.digits = 0
  · simp [ofDecimal?, hd, hzero.1 hd]
  · have htop : d.exponent + digitCount d.digits = d'.exponent + digitCount d'.digits := by
      rw [top_eq_log hd, top_eq_log (mt hzero.2 hd), h]
    simp only [ofDecimal?, htop, hd, mt hzero.2 hd, ofRatio?, hnearest]

theorem absValue_pos {x : Binary64} (hx : x.magnitude ≠ 0) : 0 < x.absValue := by
  have hpos : 0 < x.significand := by
    rcases x.significand_cases with ⟨-, heq, -⟩ | ⟨hlow, -⟩
    · rw [heq]
      exact Nat.pos_of_ne_zero hx
    · exact lt_of_lt_of_le (by decide) hlow
  rw [absValue]
  positivity

/-- The values of doubles lie within the range that reading looks at. -/
theorem log_absValue_bounds {x : Binary64} (hx : x.magnitude ≠ 0) :
    -330 ≤ Int.log 10 x.absValue ∧ Int.log 10 x.absValue < 309 := by
  have hpos := absValue_pos hx
  have hleast : 2 ^ 1074 ≤ 10 ^ 330 := by decide +kernel
  have hgreatest : 2 ^ 53 * 2 ^ 971 < 10 ^ 309 := by decide +kernel
  have hsig : 1 ≤ x.significand ∧ x.significand < 2 ^ 53 ∧ -1074 ≤ x.exponent ∧
      x.exponent ≤ 971 := by
    rcases x.significand_cases with ⟨hlt, heq, hexp⟩ | ⟨hlow, hhigh, h₁, h₂, -⟩ <;> omega
  have hone : (1 : ℚ) ≤ x.significand := by exact_mod_cast hsig.1
  have hspan : (x.significand : ℚ) < 2 ^ 53 := by exact_mod_cast hsig.2.1
  have hlow : (2 : ℚ) ^ (-1074 : Int) ≤ 2 ^ x.exponent :=
    zpow_le_zpow_right₀ (by norm_num) hsig.2.2.1
  have hhigh : (2 : ℚ) ^ x.exponent ≤ 2 ^ (971 : Int) :=
    zpow_le_zpow_right₀ (by norm_num) hsig.2.2.2
  constructor
  · refine (Int.zpow_le_iff_le_log (b := 10) (by decide) hpos).1 ?_
    calc ((10 : Nat) : ℚ) ^ (-330 : Int) ≤ 2 ^ (-1074 : Int) := by
          rw [zpow_neg, zpow_neg]
          exact inv_anti₀ (by positivity) (by exact_mod_cast hleast)
      _ ≤ 2 ^ x.exponent := hlow
      _ ≤ x.absValue := le_mul_of_one_le_left (by positivity) hone
  · refine (Int.lt_zpow_iff_log_lt (b := 10) (by decide) hpos).1 ?_
    calc x.absValue ≤ 2 ^ 53 * 2 ^ (971 : Int) := by
          rw [absValue]
          gcongr
      _ < ((10 : Nat) : ℚ) ^ (309 : Int) := by exact_mod_cast hgreatest

/-- **A decimal that equals the value of a double is read as the double.** -/
theorem ofDecimal?_of_value {x : Binary64} (hx : x.magnitude ≠ 0) {d : Decimal}
    (h : d.value = x.absValue) (negative : Bool) :
    ofDecimal? negative d = some ⟨negative, x.magnitude, x.finite⟩ := by
  have hd : d.digits ≠ 0 := by
    rw [Ne, ← value_eq_zero_iff, h]
    exact (absValue_pos hx).ne'
  obtain ⟨hlow, hhigh⟩ := log_absValue_bounds hx
  have hnearest : nearest (decimalRatio d).1 (decimalRatio d).2 = x.magnitude :=
    nearest_eq_magnitude (decimalRatio_pos d) ((cast_decimalRatio d).trans h)
  have htop := top_eq_log hd
  rw [h] at htop
  have hnot : (d.digits = 0 || d.exponent + digitCount d.digits < -330) = false := by
    simp [hd]
    omega
  rw [ofDecimal?]
  simp only [hnot]
  rw [if_neg Bool.false_ne_true, if_neg (by omega), ofRatio?]
  simp only [hnearest, x.finite, dif_pos]

/-! ## Printing -/

theorem value_exactDecimal (x : Binary64) : x.exactDecimal.value = x.absValue := by
  rw [exactDecimal, absValue]
  split
  · rename_i hexp
    obtain ⟨n, hn⟩ := Int.eq_ofNat_of_zero_le hexp
    rw [Decimal.value, hn]
    simp
  · rename_i hexp
    obtain ⟨n, hn⟩ : ∃ n : Nat, x.exponent = -n := ⟨(-x.exponent).toNat, by omega⟩
    rw [Decimal.value, hn]
    simp only [neg_neg, Int.toNat_natCast, Nat.pow_eq, zpow_neg, zpow_natCast]
    push_cast
    rw [show (10 : ℚ) = 5 * 2 by norm_num, mul_pow]
    field_simp

/-- **The shortest decimal of a double reads as the double.** -/
theorem readsAs_shortest (x : Binary64) : x.shortest.readsAs x = true := by
  by_cases hx : x.magnitude = 0
  · rw [shortest, if_pos hx]
    simp [Decimal.readsAs, ofDecimal?, signedZero, hx]
  · refine readsAs_of_shortest ?_
    rw [Decimal.readsAs, ofDecimal?_of_value hx (value_exactDecimal x)]
    simp

/-- **The value of the shortest decimal tells the magnitude.** -/
theorem magnitude_eq_of_value_shortest {x y : Binary64}
    (h : x.shortest.value = y.shortest.value) : x.magnitude = y.magnitude := by
  have hx := readsAs_shortest x
  have hy := readsAs_shortest y
  rw [Decimal.readsAs, ofDecimal?_congr h] at hx
  rw [Decimal.readsAs] at hy
  cases hread : ofDecimal? false y.shortest with
  | none =>
    rw [hread] at hx
    cases hx
  | some z =>
    rw [hread, Option.any_some, beq_iff_eq] at hx hy
    exact hx.symm.trans hy

end Binary64

end RouteTrie
