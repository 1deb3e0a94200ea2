import RouteTrie.Binary64

/-!
# Shortest decimals

The decimal with the fewest digits that reads back as a given double; among those of the same length
the one nearest to the double, and on a tie the one with an even last digit.

## What is here

* `Decimal.readsAs`: a decimal that rounds to a given double.
* `Binary64.shortest`: the search, one length after the other, over the two neighbours of the value
  on the grid of decimals of that length.
-/

set_option autoImplicit false

namespace RouteTrie

/-- The double nearest to the decimal has the magnitude of `x`. -/
def Decimal.readsAs (d : Decimal) (x : Binary64) : Bool :=
  (Binary64.ofDecimal? false d).any fun y => y.magnitude == x.magnitude

/-- Move the zeros at the end of the digits into the exponent. -/
def Decimal.strip (d : Decimal) : Decimal := go (digitCount d.digits) d
where
  /-- Drop at most this many zeros. -/
  go : Nat → Decimal → Decimal
    | 0, d => d
    | n + 1, d =>
      if d.digits ≠ 0 && d.digits % 10 = 0 then go n ⟨d.digits / 10, d.exponent + 1⟩ else d

namespace Binary64

/-- The greatest `k` with `10 ^ k ≤ num / den`, for positive `num` and `den`. -/
def floorLog10 (num den : Nat) : Int :=
  if den ≤ num then (digitCount (num / den) : Int) - 1
  else -(digitCount ((den + num - 1) / num - 1) : Int)

/-- The two decimals of exponent `e` around the absolute value of `x`, the nearer one first. -/
def neighbours (x : Binary64) (e : Int) : List Decimal :=
  let num := x.ratio.1 * Nat.pow 10 (-e).toNat
  let den := x.ratio.2 * Nat.pow 10 e.toNat
  let q := num / den
  let r := num % den
  if 2 * r < den || (2 * r == den && q % 2 == 0) then [⟨q, e⟩, ⟨q + 1, e⟩]
  else [⟨q + 1, e⟩, ⟨q, e⟩]

/-- The decimal that equals the absolute value of `x`. -/
def exactDecimal (x : Binary64) : Decimal :=
  if 0 ≤ x.exponent then ⟨x.significand * Nat.pow 2 x.exponent.toNat, 0⟩
  else ⟨x.significand * Nat.pow 5 (-x.exponent).toNat, x.exponent⟩

/-- The decimals around the absolute value of `x`, from one digit to seventeen. -/
def candidates (x : Binary64) : List Decimal :=
  let top := floorLog10 x.ratio.1 x.ratio.2
  (List.range 17).flatMap fun n : Nat => (neighbours x (top - n)).map Decimal.strip

/-- The shortest decimal that reads back as the absolute value of `x`.  Seventeen digits are enough
for every double; the exact decimal stands behind them so that each answer reads back. -/
def shortest (x : Binary64) : Decimal :=
  if x.magnitude = 0 then ⟨0, 0⟩
  else (x.candidates.find? fun d => d.readsAs x).getD x.exactDecimal

/-- What is chosen among the candidates reads back. -/
theorem readsAs_of_shortest {x : Binary64} (h : x.exactDecimal.readsAs x = true) :
    x.shortest.readsAs x = true := by
  unfold shortest
  split
  · next h0 => simp [Decimal.readsAs, ofDecimal?, signedZero, h0]
  · cases hf : x.candidates.find? fun d => d.readsAs x with
    | none => simpa using h
    | some d => simpa using List.find?_some hf

end Binary64

end RouteTrie
