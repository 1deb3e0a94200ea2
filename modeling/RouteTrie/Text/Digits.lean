/-!
# Digits

Reading numbers from their digits.

## What is here

* `digit?`, `decimalDigit?`: the value of a digit in a base up to 16.
* `ofDigits`: the number with the given digits.
* `splitDigits`: the decimal digits at the front of a text.
* `hexNumber?`: a fixed number of hexadecimal digits at the front of a text.
-/

set_option autoImplicit false

namespace RouteTrie.Text

/-- The value of a digit in some base up to 16; letters count in either case. -/
def digit? (base : Nat) (c : Char) : Option Nat :=
  let v :=
    if '0' ≤ c ∧ c ≤ '9' then c.toNat - '0'.toNat
    else if 'a' ≤ c ∧ c ≤ 'f' then c.toNat - 'a'.toNat + 10
    else if 'A' ≤ c ∧ c ≤ 'F' then c.toNat - 'A'.toNat + 10
    else 16
  if v < base then some v else none

/-- The value of a decimal digit. -/
def decimalDigit? (c : Char) : Option Nat := digit? 10 c

/-- The number with these digits, the first one being the most significant. -/
def ofDigits (base : Nat) (digits : List Nat) : Nat := digits.foldl (fun n d => n * base + d) 0

/-- The decimal digits at the front of a text and the rest of it. -/
def splitDigits : List Char → List Nat × List Char
  | [] => ([], [])
  | c :: cs =>
    match decimalDigit? c with
    | some d =>
      let r := splitDigits cs
      (d :: r.1, r.2)
    | none => ([], c :: cs)

/-- The number written by the first `n` characters, which have to be hexadecimal digits. -/
def hexNumber? : Nat → List Char → Option (Nat × List Char) := go 0
where
  /-- With the number read so far. -/
  go (acc : Nat) : Nat → List Char → Option (Nat × List Char)
    | 0, cs => some (acc, cs)
    | _ + 1, [] => none
    | n + 1, c :: cs =>
      match digit? 16 c with
      | some d => go (acc * 16 + d) n cs
      | none => none

end RouteTrie.Text
