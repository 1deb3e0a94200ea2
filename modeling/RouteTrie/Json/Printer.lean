import RouteTrie.Binary64.Shortest
import RouteTrie.Json.Basic

/-!
# JSON text

The compact text of a JSON value: no blanks, fields in order, and in texts only what has to be
escaped is escaped.

## What is here

* `escaped`, `quoted`: a character and a text between quotes.
* `floatText`: the shortest digits of a double, laid out with a point or with an exponent.
* `Json.chars`, `Json.compact`: the text of a value.
-/

set_option autoImplicit false

namespace RouteTrie.Json

/-! ## Texts -/

/-- The digits of a number below 16, in lower case. -/
def hexDigit (n : Nat) : Char := Nat.digitChar n

/-- A character inside quotes: quotes, backslashes and the control characters below space are
escaped, everything else stands for itself. -/
def escaped (c : Char) : List Char :=
  if c = '"' then ['\\', '"']
  else if c = '\\' then ['\\', '\\']
  else if c = '\x08' then ['\\', 'b']
  else if c = '\t' then ['\\', 't']
  else if c = '\n' then ['\\', 'n']
  else if c = '\x0c' then ['\\', 'f']
  else if c = '\r' then ['\\', 'r']
  else if c.toNat < 0x20 then
    ['\\', 'u', '0', '0', hexDigit (c.toNat / 16), hexDigit (c.toNat % 16)]
  else [c]

/-- A text between quotes. -/
def quoted (s : String) : List Char := '"' :: (s.toList.flatMap escaped ++ ['"'])

/-! ## Numbers -/

/-- A whole number. -/
def intText (n : Int) : List Char :=
  if n < 0 then '-' :: Nat.toDigits 10 n.natAbs else Nat.toDigits 10 n.natAbs

/-- The powers of ten of the first digit between which a number is written without an exponent. -/
def plainExponents : Int × Int := (-5, 15)

/-- Digits with a point: the first digit has the weight `10 ^ e`. -/
def plainText (digits : List Char) (e : Int) : List Char :=
  if e < 0 then '0' :: '.' :: (List.replicate (-e - 1).toNat '0' ++ digits)
  else
    let n := e.toNat + 1
    let whole := digits.take n ++ List.replicate (n - digits.length) '0'
    let fraction := digits.drop n
    whole ++ '.' :: (if fraction.isEmpty then ['0'] else fraction)

/-- Digits with an exponent: the first digit has the weight `10 ^ e`. -/
def scientificText (digits : List Char) (e : Int) : List Char :=
  let mantissa :=
    match digits with
    | d :: d' :: ds => d :: '.' :: d' :: ds
    | ds => ds
  mantissa ++ 'e' :: (if e < 0 then '-' else '+') :: Nat.toDigits 10 e.natAbs

/-- A decimal with a point or, outside `plainExponents`, with an exponent. -/
def decimalText (d : Decimal) : List Char :=
  let digits := Nat.toDigits 10 d.digits
  let e := d.exponent + digits.length - 1
  if plainExponents.1 ≤ e ∧ e ≤ plainExponents.2 then plainText digits e
  else scientificText digits e

/-- A double: its sign and its shortest decimal. -/
def floatText (x : Binary64) : List Char :=
  if x.negative then '-' :: decimalText x.shortest else decimalText x.shortest

/-! ## Values -/

mutual

/-- The compact text of a value. -/
def chars : Json → List Char
  | null => "null".toList
  | bool b => if b then "true".toList else "false".toList
  | int n => intText n
  | float x => floatText x
  | str s => quoted s
  | arr items => '[' :: (itemsChars items ++ [']'])
  | obj fields => '\x7b' :: (fieldsChars fields ++ ['\x7d'])

/-- Values with commas between them. -/
def itemsChars : List Json → List Char
  | [] => []
  | [v] => chars v
  | v :: w :: vs => chars v ++ ',' :: itemsChars (w :: vs)

/-- Fields with commas between them. -/
def fieldsChars : List (String × Json) → List Char
  | [] => []
  | [(k, v)] => quoted k ++ ':' :: chars v
  | (k, v) :: f :: fs => quoted k ++ ':' :: (chars v ++ ',' :: fieldsChars (f :: fs))

end

/-- The compact text of a value. -/
def compact (j : Json) : String := String.ofList (chars j)

end RouteTrie.Json
