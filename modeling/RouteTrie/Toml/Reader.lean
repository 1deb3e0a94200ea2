import RouteTrie.Toml.Moment
import RouteTrie.Toml.Number
import RouteTrie.Toml.Table
import RouteTrie.Toml.Text

/-!
# Reading TOML

A reader from text to documents.  It refuses every text that is not TOML 1.0.

## What is here

* `readName?`, `readNames?`: a name, and names with dots between them.
* `readValue?`: a value at the front of a text.
* `readLine?`: one line of a file.
* `Toml.read?`: the document that a whole text stands for.
-/

set_option autoImplicit false

namespace RouteTrie.Toml

/-- How deep lists, inline tables and dotted names may go. -/
def depthLimit : Nat := 80

/-! ## Names -/

/-- A character of a name without quotes. -/
def isBare (c : Char) : Bool := c.isAlphanum || c == '-' || c == '_'

/-- A name: without quotes, or a text on one line. -/
def readName? (cs : List Char) : Option (String × List Char) :=
  match cs with
  | '"' :: rest => (basic? (rest.length + 1) rest []).map fun r => (String.ofList r.1, r.2)
  | '\'' :: rest => (literal? rest).map fun r => (String.ofList r.1, r.2)
  | cs =>
    let name := cs.takeWhile isBare
    if name.isEmpty then none else some (String.ofList name, cs.dropWhile isBare)

/-- Names with dots between them; blanks may surround each name.  The first argument bounds the
number of names. -/
def readNames? : Nat → List Char → Option (List String × List Char)
  | 0, _ => none
  | fuel + 1, cs =>
    match readName? (skipBlanks cs) with
    | none => none
    | some (name, cs) =>
      match skipBlanks cs with
      | '.' :: cs =>
        match readNames? fuel cs with
        | some (names, cs) => some (name :: names, cs)
        | none => none
      | cs => some ([name], cs)

/-- A dotted name that is not too long. -/
def readDotted? (cs : List Char) : Option (List String × List Char) :=
  readNames? (depthLimit - 1) cs

/-! ## Values -/

/-- A number or a moment. -/
def readNumber? (cs : List Char) : Option (Document × List Char) :=
  moment? cs <|> float? cs <|> special? cs <|> integer? cs

mutual

/-- The value at the front of a text, inside of `depth` lists and inline tables.  The first argument
bounds the number of nested calls. -/
def readValue? : Nat → Nat → List Char → Option (Document × List Char)
  | 0, _, _ => none
  | fuel + 1, depth, cs =>
    match cs with
    | '"' :: _ => (readText? cs).map fun r => (.text r.1, r.2)
    | '\'' :: _ => (readText? cs).map fun r => (.text r.1, r.2)
    | '[' :: cs =>
      if depth + 1 < depthLimit then
        (readItems? fuel (depth + 1) cs []).map fun r => (.list r.1, r.2)
      else none
    | '\x7b' :: cs =>
      if depth + 1 < depthLimit then
        match skipBlanks cs with
        | '\x7d' :: cs => some (.table [], cs)
        | cs => (readFields? fuel (depth + 1) cs []).map fun r => (.table (documents r.1), r.2)
      else none
    | 't' :: 'r' :: 'u' :: 'e' :: cs => some (.bool true, cs)
    | 'f' :: 'a' :: 'l' :: 's' :: 'e' :: cs => some (.bool false, cs)
    | cs => readNumber? cs

/-- The values of a list up to its closing bracket; `acc` holds those before, the last one first.
A comma may follow the last value. -/
def readItems? : Nat → Nat → List Char → List Document → Option (List Document × List Char)
  | 0, _, _, _ => none
  | fuel + 1, depth, cs, acc =>
    match skipLines? (cs.length + 1) cs with
    | none => none
    | some (']' :: cs) => some (acc.reverse, cs)
    | some cs =>
      match readValue? fuel depth cs with
      | none => none
      | some (d, cs) =>
        match skipLines? (cs.length + 1) cs with
        | some (',' :: cs) => readItems? fuel depth cs (d :: acc)
        | some (']' :: cs) => some ((d :: acc).reverse, cs)
        | _ => none

/-- The fields of an inline table up to its closing brace; `acc` holds those before.  The whole
table stands on one line, and no comma follows the last field. -/
def readFields? : Nat → Nat → List Char → Items → Option (Items × List Char)
  | 0, _, _, _ => none
  | fuel + 1, depth, cs, acc =>
    match readDotted? cs with
    | some (names, '=' :: cs) =>
      match readValue? fuel depth (skipBlanks cs) with
      | none => none
      | some (d, cs) =>
        match assign? acc names d with
        | none => none
        | some acc =>
          match skipBlanks cs with
          | ',' :: cs => readFields? fuel depth cs acc
          | '\x7d' :: cs => some (acc, cs)
          | _ => none
    | _ => none

end

/-! ## Lines -/

/-- The name that a header ends with, and those before it. -/
def splitLast? (names : List String) : Option (List String × String) :=
  names.getLast?.map fun name => (names.dropLast, name)

/-- Read one line: nothing, a comment, a header, or a name with a value. -/
def readLine? (s : Draft) (cs : List Char) : Option (Draft × List Char) :=
  match skipBlanks cs with
  | [] => some (s, [])
  | '#' :: cs => (lineEnd? ('#' :: cs)).map fun cs => (s, cs)
  | '\n' :: cs => some (s, cs)
  | '\r' :: cs => (newline? ('\r' :: cs)).map fun cs => (s, cs)
  | '[' :: '[' :: cs =>
    match readDotted? cs with
    | some (names, ']' :: ']' :: cs) => do
      let (parents, name) ← splitLast? names
      let cs ← lineEnd? cs
      let s ← s.openElement? parents name
      return (s, cs)
    | _ => none
  | '[' :: cs =>
    match readDotted? cs with
    | some (names, ']' :: cs) => do
      let (parents, name) ← splitLast? names
      let cs ← lineEnd? cs
      let s ← s.open? parents name
      return (s, cs)
    | _ => none
  | cs =>
    match readDotted? cs with
    | some (names, '=' :: cs) => do
      let (d, cs) ← readValue? (2 * cs.length + 2) 0 (skipBlanks cs)
      let cs ← lineEnd? cs
      let s ← s.assign? names d
      return (s, cs)
    | _ => none

/-- Read lines up to the end of the text.  The first argument bounds the number of lines. -/
def readLines? : Nat → Draft → List Char → Option Draft
  | 0, _, _ => none
  | _ + 1, s, [] => some s
  | fuel + 1, s, c :: cs =>
    match readLine? s (c :: cs) with
    | some (s, cs) => readLines? fuel s cs
    | none => none

/-- The text after the mark of its encoding, if it starts with one. -/
def skipMark : List Char → List Char
  | '\uFEFF' :: cs => cs
  | cs => cs

/-- The document that a text stands for. -/
def read? (text : String) : Option Document :=
  let cs := skipMark text.toList
  match readLines? (cs.length + 1) Draft.empty cs with
  | some s => s.finish?.map fun items => .table (documents items)
  | none => none

end RouteTrie.Toml
