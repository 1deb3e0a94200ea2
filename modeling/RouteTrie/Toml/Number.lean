import RouteTrie.Document
import RouteTrie.Text.Digits

/-!
# Numbers of TOML

Whole numbers of 64 bits in four bases, and doubles, with underscores allowed between digits.  A
double is the nearest one to its decimal; infinities and the undefined number have no JSON value and
become null, but a decimal that is too large is a mistake.

## What is here

* `digits?`: digits with underscores between them.
* `integer?`, `float?`, `special?`: the kinds of number.
-/

set_option autoImplicit false

namespace RouteTrie.Toml

/-- The digits at the front of a text; an underscore may stand before each of them. -/
def moreDigits (base : Nat) : List Char → List Nat × List Char
  | [] => ([], [])
  | [c] =>
    match Text.digit? base c with
    | some d => ([d], [])
    | none => ([], [c])
  | c :: c' :: cs =>
    match Text.digit? base c with
    | some d =>
      let r := moreDigits base (c' :: cs)
      (d :: r.1, r.2)
    | none =>
      match if c = '_' then Text.digit? base c' else none with
      | some d =>
        let r := moreDigits base cs
        (d :: r.1, r.2)
      | none => ([], c :: c' :: cs)

/-- At least one digit, with underscores between digits. -/
def digits? (base : Nat) : List Char → Option (List Nat × List Char)
  | [] => none
  | c :: cs =>
    match Text.digit? base c with
    | some d =>
      let r := moreDigits base cs
      some (d :: r.1, r.2)
    | none => none

/-- A sign, if there is one: whether it is a minus. -/
def sign : List Char → Bool × List Char
  | '-' :: cs => (true, cs)
  | '+' :: cs => (false, cs)
  | cs => (false, cs)

/-- Decimal digits of which the first is not a zero, or a single zero. -/
def decimalDigits? : List Char → Option (List Nat × List Char)
  | '0' :: cs => some ([0], cs)
  | cs => digits? 10 cs

/-- A whole number that fits into 64 bits with its sign. -/
def wholeNumber? (negative : Bool) (n : Nat) : Option Document :=
  if negative then if n ≤ 0x8000000000000000 then some (.int (-n)) else none
  else if n < 0x8000000000000000 then some (.int n)
  else none

/-- A whole number in some base, after the mark of the base. -/
def based? (base : Nat) (cs : List Char) : Option (Document × List Char) := do
  let (digits, rest) ← digits? base cs
  let d ← wholeNumber? false (Text.ofDigits base digits)
  return (d, rest)

/-- A whole number. -/
def integer? : List Char → Option (Document × List Char)
  | '0' :: 'x' :: cs => based? 16 cs
  | '0' :: 'o' :: cs => based? 8 cs
  | '0' :: 'b' :: cs => based? 2 cs
  | cs => do
    let (negative, cs) := sign cs
    let (digits, rest) ← decimalDigits? cs
    let d ← wholeNumber? negative (Text.ofDigits 10 digits)
    return (d, rest)

/-- A fraction: a point and at least one digit. -/
def fraction? : List Char → Option (List Nat × List Char)
  | '.' :: cs => digits? 10 cs
  | _ => none

/-- An exponent: a mark, perhaps a sign, and at least one digit. -/
def exponent? : List Char → Option (Int × List Char)
  | c :: cs =>
    if c = 'e' || c = 'E' then
      let s := sign cs
      (digits? 10 s.2).map fun r =>
        (if s.1 then -(Text.ofDigits 10 r.1 : Int) else Text.ofDigits 10 r.1, r.2)
    else none
  | [] => none

/-- The double with these parts.  A negative decimal that is too large is minus infinity. -/
def double? (negative : Bool) (whole fraction : List Nat) (exponent : Int) : Option Document :=
  let d : Decimal := ⟨Text.ofDigits 10 (whole ++ fraction), exponent - fraction.length⟩
  match Binary64.ofDecimal? negative d with
  | some x => some (.float x)
  | none => if negative then some .null else none

/-- A double with a fraction, an exponent or both. -/
def float? (cs : List Char) : Option (Document × List Char) := do
  let (negative, cs) := sign cs
  let (whole, cs) ← decimalDigits? cs
  match exponent? cs with
  | some (e, rest) =>
    let d ← double? negative whole [] e
    return (d, rest)
  | none =>
    let (fraction, cs) ← fraction? cs
    let (e, rest) := (exponent? cs).getD (0, cs)
    let d ← double? negative whole fraction e
    return (d, rest)

/-- Infinity or the undefined number, perhaps with a sign. -/
def special? (cs : List Char) : Option (Document × List Char) :=
  match (sign cs).2 with
  | 'i' :: 'n' :: 'f' :: rest => some (.null, rest)
  | 'n' :: 'a' :: 'n' :: rest => some (.null, rest)
  | _ => none

end RouteTrie.Toml
