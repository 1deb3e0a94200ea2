import RouteTrie.Json.Number
import RouteTrie.Text.Digits

/-!
# Reading JSON

A reader from text to documents.  It refuses every text that is not JSON; a number that is too
large, a text with half of a surrogate pair and a container below more than 126 others are parts
without value.

## What is here

* `readString?`, `readNumber?`: the two kinds of token with contents.
* `readValue?`: a value at the front of a text.
* `Json.read?`: the document that a whole text stands for.
* `Json.parse?`: the JSON value that a whole text stands for.
-/

set_option autoImplicit false

namespace RouteTrie.Json

/-- The text after the blanks at its front. -/
def skipBlanks (cs : List Char) : List Char :=
  cs.dropWhile fun c => c == ' ' || c == '\t' || c == '\n' || c == '\r'

/-! ## Texts -/

/-- A piece of a quoted text: a character, or a unit written in hexadecimal. -/
inductive Piece where
  /-- A character that stands for itself or is escaped by a letter. -/
  | char (c : Char)
  /-- A unit of 16 bits. -/
  | unit (n : Nat)

/-- The character that a letter after a backslash stands for. -/
def unescaped? : Char → Option Char
  | '"' => some '"'
  | '\\' => some '\\'
  | '/' => some '/'
  | 'b' => some '\x08'
  | 'f' => some '\x0c'
  | 'n' => some '\n'
  | 'r' => some '\r'
  | 't' => some '\t'
  | _ => none

/-- Read a text up to its closing quote; `acc` holds the pieces before it, the last one first. -/
def readString? : List Char → List Piece → Option (List Piece × List Char)
  | [], _ => none
  | '"' :: cs, acc => some (acc.reverse, cs)
  | '\\' :: 'u' :: c₁ :: c₂ :: c₃ :: c₄ :: cs, acc =>
    match Text.hexNumber? 4 [c₁, c₂, c₃, c₄] with
    | some (n, _) => readString? cs (.unit n :: acc)
    | none => none
  | '\\' :: c :: cs, acc =>
    match unescaped? c with
    | some d => readString? cs (.char d :: acc)
    | none => none
  | c :: cs, acc => if c == '\\' || c.toNat < 0x20 then none else readString? cs (.char c :: acc)

/-- Whether a unit is the first half of a surrogate pair. -/
def isHighSurrogate (n : Nat) : Bool := decide (0xd800 ≤ n) && decide (n < 0xdc00)

/-- Whether a unit is the second half of a surrogate pair. -/
def isLowSurrogate (n : Nat) : Bool := decide (0xdc00 ≤ n) && decide (n < 0xe000)

/-- The characters that some pieces stand for; half a surrogate pair stands for none. -/
def decodePieces? : List Piece → List Char → Option (List Char)
  | [], acc => some acc.reverse
  | .char c :: ps, acc => decodePieces? ps (c :: acc)
  | .unit n :: .unit m :: ps, acc =>
    if isHighSurrogate n then
      if isLowSurrogate m then
        decodePieces? ps (Char.ofNat (0x10000 + (n - 0xd800) * 0x400 + (m - 0xdc00)) :: acc)
      else none
    else if isLowSurrogate n then none
    else decodePieces? (.unit m :: ps) (Char.ofNat n :: acc)
  | .unit n :: ps, acc =>
    if isHighSurrogate n || isLowSurrogate n then none
    else decodePieces? ps (Char.ofNat n :: acc)

/-- The text that some pieces stand for. -/
def textOf? (pieces : List Piece) : Option String := (decodePieces? pieces []).map String.ofList

/-! ## Numbers -/

/-- The fraction at the front of a text: a point and at least one digit, or nothing. -/
def readFraction? : List Char → Option (List Nat × List Char)
  | '.' :: cs =>
    let r := Text.splitDigits cs
    if r.1.isEmpty then none else some r
  | cs => some ([], cs)

/-- The exponent at the front of a text, or nothing. -/
def readExponent? : List Char → Option (Option Int × List Char)
  | c :: cs =>
    if c == 'e' || c == 'E' then
      let negative := cs.head? == some '-'
      let cs := if cs.head? == some '-' || cs.head? == some '+' then cs.tail else cs
      let r := Text.splitDigits cs
      let n : Int := Text.ofDigits 10 r.1
      if r.1.isEmpty then none else some (some (if negative then -n else n), r.2)
    else some (none, c :: cs)
  | [] => some (none, [])

/-- The number at the front of a text.  A zero is not followed by another digit. -/
def readNumber? (cs : List Char) : Option (Document × List Char) :=
  let negative := cs.head? == some '-'
  let whole := Text.splitDigits (if negative then cs.tail else cs)
  if whole.1.isEmpty || (whole.1.head? == some 0 && whole.1.length ≠ 1) then none
  else
    match readFraction? whole.2 with
    | none => none
    | some (fraction, cs) =>
      match readExponent? cs with
      | none => none
      | some (exponent, cs) =>
        let plain := fraction.isEmpty && exponent.isNone
        some (NumberText.value ⟨negative, whole.1, fraction, exponent.getD 0, plain⟩, cs)

/-! ## Values -/

/-- How many containers may stand in each other. -/
def maxDepth : Nat := 127

/-- A container inside of `depth` others; one that is too deep has no value. -/
def nested (depth : Nat) (d : Document) : Document := if depth < maxDepth then d else .invalid

/-- A table; if one of its names has no value, neither has the table. -/
def tableOf (fields : List (Option String × Document)) : Document :=
  if fields.all fun f => f.1.isSome then .table (fields.map fun f => (f.1.getD "", f.2))
  else .invalid

mutual

/-- The value at the front of a text, inside of `depth` containers.  The first argument bounds the
number of nested calls. -/
def readValue? : Nat → Nat → List Char → Option (Document × List Char)
  | 0, _, _ => none
  | fuel + 1, depth, cs =>
    match skipBlanks cs with
    | '"' :: cs =>
      match readString? cs [] with
      | some (pieces, cs) => some (((textOf? pieces).map Document.text).getD .invalid, cs)
      | none => none
    | '[' :: cs =>
      match skipBlanks cs with
      | ']' :: cs => some (nested depth (.list []), cs)
      | cs =>
        match readItems? fuel (depth + 1) cs [] with
        | some (items, cs) => some (nested depth (.list items), cs)
        | none => none
    | '\x7b' :: cs =>
      match skipBlanks cs with
      | '\x7d' :: cs => some (nested depth (.table []), cs)
      | cs =>
        match readFields? fuel (depth + 1) cs [] with
        | some (fields, cs) => some (nested depth (tableOf fields), cs)
        | none => none
    | 'n' :: 'u' :: 'l' :: 'l' :: cs => some (.null, cs)
    | 't' :: 'r' :: 'u' :: 'e' :: cs => some (.bool true, cs)
    | 'f' :: 'a' :: 'l' :: 's' :: 'e' :: cs => some (.bool false, cs)
    | cs => readNumber? cs

/-- The values of a list up to its closing bracket; `acc` holds those before, the last one first. -/
def readItems? : Nat → Nat → List Char → List Document → Option (List Document × List Char)
  | 0, _, _, _ => none
  | fuel + 1, depth, cs, acc =>
    match readValue? fuel depth cs with
    | none => none
    | some (v, cs) =>
      match skipBlanks cs with
      | ',' :: cs => readItems? fuel depth cs (v :: acc)
      | ']' :: cs => some ((v :: acc).reverse, cs)
      | _ => none

/-- The fields of a table up to its closing brace; `acc` holds those before, the last one first. -/
def readFields? : Nat → Nat → List Char → List (Option String × Document) →
    Option (List (Option String × Document) × List Char)
  | 0, _, _, _ => none
  | fuel + 1, depth, cs, acc =>
    match skipBlanks cs with
    | '"' :: cs =>
      match readString? cs [] with
      | none => none
      | some (pieces, cs) =>
        match skipBlanks cs with
        | ':' :: cs =>
          match readValue? fuel depth cs with
          | none => none
          | some (v, cs) =>
            match skipBlanks cs with
            | ',' :: cs => readFields? fuel depth cs ((textOf? pieces, v) :: acc)
            | '\x7d' :: cs => some (((textOf? pieces, v) :: acc).reverse, cs)
            | _ => none
        | _ => none
    | _ => none

end

/-- The document that a text stands for. -/
def read? (s : String) : Option Document :=
  let cs := s.toList
  match readValue? (2 * cs.length + 2) 0 cs with
  | some (d, rest) => if (skipBlanks rest).isEmpty then some d else none
  | none => none

/-- The value that a text stands for. -/
def parse? (s : String) : Option Json := (read? s).bind Document.toJson?

end RouteTrie.Json
