/-!
# Blanks and white space

Two sets of separating characters.  A *blank* is one of the six ASCII characters that separate the
parts of a routing key; a *space* is any character with the Unicode property White_Space.

## What is here

* `isBlank`, `isSpace`: the two sets.
* `trim`: a text without the white space at its ends.
* `collapse`: every run of two or more blanks written as one space.
-/

set_option autoImplicit false

namespace RouteTrie.Text

/-- Tab, line feed, vertical tab, form feed, carriage return and space. -/
def isBlank (c : Char) : Bool :=
  c == '\t' || c == '\n' || c == '\x0b' || c == '\x0c' || c == '\r' || c == ' '

/-- The characters with the Unicode property White_Space, as closed ranges of code points. -/
def spaceRanges : List (Nat × Nat) :=
  [(0x09, 0x0d), (0x20, 0x20), (0x85, 0x85), (0xa0, 0xa0), (0x1680, 0x1680), (0x2000, 0x200a),
   (0x2028, 0x2029), (0x202f, 0x202f), (0x205f, 0x205f), (0x3000, 0x3000)]

/-- White space of any script. -/
def isSpace (c : Char) : Bool :=
  spaceRanges.any fun r => decide (r.1 ≤ c.toNat) && decide (c.toNat ≤ r.2)

/-- The text without the white space at its two ends. -/
def trim (cs : List Char) : List Char :=
  ((cs.dropWhile isSpace).reverse.dropWhile isSpace).reverse

/-- Every run of two or more blanks becomes one space; a blank that stands alone stays. -/
def collapse : List Char → List Char
  | [] => []
  | [c] => [c]
  | c :: d :: cs =>
    if isBlank c && isBlank d then ' ' :: (collapse (d :: cs)).tail else c :: collapse (d :: cs)

end RouteTrie.Text
