import RouteTrie.Toml.Scan

/-!
# Texts of TOML

Four ways to write a text: on one line or over several, with escapes or without.  In a text over
several lines a line end right after the opening quotes does not count, every line end is a line
feed, and up to two quotes may stand directly before the closing ones.

## What is here

* `basic?`, `literal?`: the texts on one line.
* `multilineBasic?`, `multilineLiteral?`: the texts over several lines.
* `readText?`: a text of any of the four kinds.
-/

set_option autoImplicit false

namespace RouteTrie.Toml

/-- The character with a code point, which may not be half of a surrogate pair. -/
def character? (n : Nat) : Option Char :=
  if h : n.isValidChar then some (Char.ofNatAux n h) else none

/-- The character that a letter after a backslash stands for. -/
def unescaped? : Char → Option Char
  | 'b' => some '\x08'
  | 't' => some '\t'
  | 'n' => some '\n'
  | 'f' => some '\x0c'
  | 'r' => some '\r'
  | '"' => some '"'
  | '\\' => some '\\'
  | _ => none

/-- The character that an escape stands for, after the backslash. -/
def escape? : List Char → Option (Char × List Char)
  | [] => none
  | c :: cs =>
    if c = 'u' || c = 'U' then
      match Text.hexNumber? (if c = 'u' then 4 else 8) cs with
      | some (n, cs) => (character? n).map fun c => (c, cs)
      | none => none
    else (unescaped? c).map fun c => (c, cs)

/-- A text with escapes on one line, after the opening quote; `acc` holds the characters before, the
last one first. -/
def basic? : Nat → List Char → List Char → Option (List Char × List Char)
  | 0, _, _ => none
  | _ + 1, [], _ => none
  | fuel + 1, c :: cs, acc =>
    if c = '"' then some (acc.reverse, cs)
    else if c = '\\' then
      match escape? cs with
      | some (c, cs) => basic? fuel cs (c :: acc)
      | none => none
    else if isPlain c then basic? fuel cs (c :: acc)
    else none

/-- A text without escapes on one line, after the opening quote. -/
def literal? (cs : List Char) : Option (List Char × List Char) :=
  let isPart (c : Char) : Bool := isPlain c && c != '\''
  match cs.dropWhile isPart with
  | '\'' :: rest => some (cs.takeWhile isPart, rest)
  | _ => none

/-- The number of quotes at the front of a text. -/
def quoteCount (quote : Char) (cs : List Char) : Nat := (cs.takeWhile (· == quote)).length

/-- A run of quotes inside of a text over several lines.  One or two quotes belong to the text; of
three to five the last three close it; more are too many.  The result says how many quotes belong to
the text and whether it ends. -/
def quoteRun? (n : Nat) : Option (Nat × Bool) :=
  if n < 3 then some (n, false) else if n ≤ 5 then some (n - 3, true) else none

/-- The text after a backslash at the end of a line: blanks, a line end, and all further blanks and
line ends. -/
def joinLines? (cs : List Char) : Option (List Char) :=
  (newline? (skipBlanks cs)).map (skip cs.length)
where
  /-- Skip blanks and at most this many line ends. -/
  skip : Nat → List Char → List Char
    | 0, cs => skipBlanks cs
    | n + 1, cs =>
      match newline? (skipBlanks cs) with
      | some cs => skip n cs
      | none => skipBlanks cs

/-- A text with escapes over several lines, after the opening quotes. -/
def multilineBasic? : Nat → List Char → List Char → Option (List Char × List Char)
  | 0, _, _ => none
  | _ + 1, [], _ => none
  | fuel + 1, c :: cs, acc =>
    if c = '"' then
      let n := quoteCount '"' (c :: cs)
      match quoteRun? n with
      | some (m, true) => some ((List.replicate m '"' ++ acc).reverse, (c :: cs).drop n)
      | some (m, false) => multilineBasic? fuel ((c :: cs).drop n) (List.replicate m '"' ++ acc)
      | none => none
    else if c = '\\' then
      match joinLines? cs with
      | some cs => multilineBasic? fuel cs acc
      | none =>
        match escape? cs with
        | some (c, cs) => multilineBasic? fuel cs (c :: acc)
        | none => none
    else if isPlain c then multilineBasic? fuel cs (c :: acc)
    else
      match newline? (c :: cs) with
      | some cs => multilineBasic? fuel cs ('\n' :: acc)
      | none => none

/-- A text without escapes over several lines, after the opening quotes. -/
def multilineLiteral? : Nat → List Char → List Char → Option (List Char × List Char)
  | 0, _, _ => none
  | _ + 1, [], _ => none
  | fuel + 1, c :: cs, acc =>
    if c = '\'' then
      let n := quoteCount '\'' (c :: cs)
      match quoteRun? n with
      | some (m, true) => some ((List.replicate m '\'' ++ acc).reverse, (c :: cs).drop n)
      | some (m, false) => multilineLiteral? fuel ((c :: cs).drop n) (List.replicate m '\'' ++ acc)
      | none => none
    else if isPlain c then multilineLiteral? fuel cs (c :: acc)
    else
      match newline? (c :: cs) with
      | some cs => multilineLiteral? fuel cs ('\n' :: acc)
      | none => none

/-- The text after a line end at its front, if there is one. -/
def skipNewline (cs : List Char) : List Char := (newline? cs).getD cs

/-- The text of any kind at the front of a text. -/
def readText? (cs : List Char) : Option (String × List Char) :=
  let fuel := cs.length + 1
  let read :=
    match cs with
    | '"' :: '"' :: '"' :: cs => multilineBasic? fuel (skipNewline cs) []
    | '"' :: cs => basic? fuel cs []
    | '\'' :: '\'' :: '\'' :: cs => multilineLiteral? fuel (skipNewline cs) []
    | '\'' :: cs => literal? cs
    | _ => none
  read.map fun r => (String.ofList r.1, r.2)

end RouteTrie.Toml
