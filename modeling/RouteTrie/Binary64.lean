/-!
# Finite double-precision numbers

A finite double is a sign and a *magnitude*: the exponent and fraction bits read as one natural
number.  Magnitudes are ordered as the values they stand for, which makes equality and rounding
statements about natural numbers.

## What is here

* `Binary64`, with `significand` and `exponent`: a double and the dyadic value it stands for.
* The Boolean equality `==`, which is equality of values: the two zeros are equal.
* `Binary64.nearest`: the magnitude nearest to a quotient of naturals, a tie going to the even one.
* `Binary64.ofRatio?`, `Binary64.ofDecimal?`: the double nearest to a quotient or to a decimal.
* `Binary64.scaleUp?`, `Binary64.scaleDown`: one rounded multiplication or division by a power of
  ten.
-/

set_option autoImplicit false

namespace RouteTrie

/-- The value `digits * 10 ^ exponent`. -/
structure Decimal where
  /-- The digits, read as one number. -/
  digits : Nat
  /-- The power of ten that scales them. -/
  exponent : Int
  deriving DecidableEq, Repr

/-- The number of decimal digits of `n`. -/
def digitCount (n : Nat) : Nat := (Nat.toDigits 10 n).length

/-- The least magnitude that stands for no finite value: all exponent bits are set. -/
def Binary64.overflow : Nat := 0x7ff0000000000000

/-- A finite double. -/
structure Binary64 where
  /-- Whether the sign bit is set. -/
  negative : Bool
  /-- The exponent and fraction bits. -/
  magnitude : Nat
  /-- The exponent bits are not all set. -/
  finite : magnitude < Binary64.overflow

namespace Binary64

/-- One more than the greatest fraction; the exponent bits stand above it. -/
def fractionSpan : Nat := 0x10000000000000

/-- Positive zero. -/
def zero : Binary64 := ⟨false, 0, by decide⟩

/-- A zero with the given sign. -/
def signedZero (negative : Bool) : Binary64 := ⟨negative, 0, by decide⟩

/-- The same magnitude with the opposite sign. -/
def neg (x : Binary64) : Binary64 := ⟨!x.negative, x.magnitude, x.finite⟩

/-- The absolute value is `significand * 2 ^ exponent`. -/
def significand (x : Binary64) : Nat :=
  if x.magnitude < fractionSpan then x.magnitude
  else fractionSpan + x.magnitude % fractionSpan

/-- The power of two that scales the significand. -/
def exponent (x : Binary64) : Int :=
  if x.magnitude < fractionSpan then -1074 else (x.magnitude / fractionSpan : Nat) - 1075

/-- Equality of values. -/
instance : BEq Binary64 where
  beq x y := x.magnitude == y.magnitude && (x.negative == y.negative || x.magnitude == 0)

theorem beq_iff {x y : Binary64} :
    (x == y) = true ↔ x.magnitude = y.magnitude ∧ (x.negative = y.negative ∨ x.magnitude = 0) := by
  simp [BEq.beq]

/-! ## Rounding -/

/-- The numerator and denominator of `num / den * 2 ^ k`. -/
def shifted (num den : Nat) (k : Int) : Nat × Nat :=
  (num * Nat.pow 2 k.toNat, den * Nat.pow 2 (-k).toNat)

/-- The natural number nearest to `num / den`; a half goes to the even neighbour. -/
def roundHalfEven (num den : Nat) : Nat :=
  let q := num / den
  let r := num % den
  if 2 * r < den then q else if den < 2 * r then q + 1 else q + q % 2

/-- The greatest `k` with `2 ^ k ≤ num / den`, for positive `num` and `den`. -/
def floorLog2 (num den : Nat) : Int :=
  let k : Int := (num.log2 : Int) - den.log2
  let s := shifted num den (-k)
  if s.1 < s.2 then k - 1 else k

/-- The magnitude nearest to `num / den`, with the exponent unbounded above.  The significand is a
quotient rounded at the position of its last bit; adding it to the shifted exponent carries into
the next exponent by itself. -/
def nearest (num den : Nat) : Nat :=
  if num = 0 then 0
  else
    let q := max (floorLog2 num den - 52) (-1074)
    let s := shifted num den (-q)
    (q + 1074).toNat * fractionSpan + roundHalfEven s.1 s.2

/-- The double with this sign nearest to `num / den`, unless it is too large. -/
def ofRatio? (negative : Bool) (num den : Nat) : Option Binary64 :=
  if h : nearest num den < overflow then some ⟨negative, nearest num den, h⟩ else none

/-- The numerator and denominator of a decimal. -/
def decimalRatio (d : Decimal) : Nat × Nat :=
  (d.digits * Nat.pow 10 d.exponent.toNat, Nat.pow 10 (-d.exponent).toNat)

/-- The double with this sign nearest to a decimal, unless it is too large.  A decimal of 10 ^ 310
or more is too large and one below 10 ^ (-330) is zero, whatever its digits. -/
def ofDecimal? (negative : Bool) (d : Decimal) : Option Binary64 :=
  let top := d.exponent + digitCount d.digits
  if d.digits = 0 || top < -330 then some (signedZero negative)
  else if 310 < top then none
  else ofRatio? negative (decimalRatio d).1 (decimalRatio d).2

/-! ## Arithmetic -/

/-- The numerator and denominator of the absolute value. -/
def ratio (x : Binary64) : Nat × Nat := shifted x.significand 1 x.exponent

/-- The nearest double to a natural number. -/
def ofNat? (n : Nat) : Option Binary64 := ofRatio? false n 1

/-- The nearest double to `10 ^ k`, or zero if there is none. -/
def tenToThe (k : Nat) : Binary64 := ((ofDecimal? false ⟨1, k⟩).getD zero)

/-- The product with the double nearest to `10 ^ k`, rounded once. -/
def scaleUp? (x : Binary64) (k : Nat) : Option Binary64 :=
  let p := tenToThe k
  ofRatio? x.negative (x.ratio.1 * p.ratio.1) (x.ratio.2 * p.ratio.2)

/-- The quotient by the double nearest to `10 ^ k`, rounded once. -/
def scaleDown (x : Binary64) (k : Nat) : Binary64 :=
  let p := tenToThe k
  (ofRatio? x.negative (x.ratio.1 * p.ratio.2) (x.ratio.2 * p.ratio.1)).getD zero

end Binary64

end RouteTrie
