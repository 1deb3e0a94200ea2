import RouteTrie.Document

/-!
# Reading JSON numbers

A number without fraction and exponent is whole if it lies between `-2 ^ 63` and `2 ^ 64 - 1`.
Every other number is a double, and is read the quick way: as many leading digits as fit into 64 bits
are kept, and the number made of them is scaled by one rounded multiplication or division by a power
of ten.  The result can differ in the last bit from the nearest double; the rule is part of the format.

## What is here

* `NumberText`: the parts of a written number.
* `keepDigits`: the leading digits that fit into 64 bits.
* `scale?`: the scaling of the kept digits.
* `NumberText.value`: what a written number stands for.
-/

set_option autoImplicit false

namespace RouteTrie.Json

/-- The parts of a written number. -/
structure NumberText where
  /-- Whether a minus sign is written. -/
  negative : Bool
  /-- The digits before the point. -/
  whole : List Nat
  /-- The digits after the point, none if there is no point. -/
  fraction : List Nat
  /-- The exponent, zero if none is written. -/
  exponent : Int
  /-- Whether there is neither a fraction nor an exponent. -/
  plain : Bool

/-- Append digits to a number as long as the result fits into 64 bits; also their number. -/
def keepDigits (n : Nat) : List Nat → Nat × Nat
  | [] => (n, 0)
  | d :: ds =>
    if n * 10 + d < 0x10000000000000000 then
      let r := keepDigits (n * 10 + d) ds
      (r.1, r.2 + 1)
    else (n, 0)

/-- Divide by `10 ^ k`, in steps of at most `10 ^ 308`. -/
def scaleDownBy (x : Binary64) (k : Nat) : Binary64 :=
  if k ≤ 308 then x.scaleDown k
  else if x.magnitude = 0 then x
  else scaleDownBy (x.scaleDown 308) (k - 308)
termination_by k
decreasing_by omega

/-- The double that stands for `n * 10 ^ e`, unless it is too large. -/
def scale? (n : Nat) (e : Int) : Option Binary64 :=
  (Binary64.ofNat? n).bind fun x =>
    if e < 0 then some (scaleDownBy x (-e).toNat)
    else if e ≤ 308 then x.scaleUp? e.toNat
    else if n = 0 then some x
    else none

/-- A double with the sign of a number. -/
def NumberText.signed (t : NumberText) (x : Binary64) : Document :=
  .float (if t.negative then x.neg else x)

/-- What a number stands for; a number too large for a double stands for no value. -/
def NumberText.value (t : NumberText) : Document :=
  let w := keepDigits 0 t.whole
  if t.plain && w.2 == t.whole.length then
    if !t.negative then .int w.1
    else if w.1 ≠ 0 && w.1 ≤ 0x8000000000000000 then .int (-w.1)
    else
      match scale? w.1 0 with
      | some x => t.signed x
      | none => .invalid
  else
    let f := keepDigits w.1 t.fraction
    match scale? f.1 ((t.whole.length - w.2 : Nat) - (f.2 : Int) + t.exponent) with
    | some x => t.signed x
    | none => .invalid

end RouteTrie.Json
