import RouteTrie.Text.Digits

/-!
# Blanks, line ends and comments of TOML

## What is here

* `skipBlanks`: spaces and tabs.
* `newline?`: a line feed, alone or after a carriage return.
* `skipComment`: a comment up to the end of its line.
* `lineEnd?`: what may follow the last thing on a line.
* `skipLines?`: blanks, comments and line ends between the values of a list.
-/

set_option autoImplicit false

namespace RouteTrie.Toml

/-- A space or a tab. -/
def isBlank (c : Char) : Bool := c == ' ' || c == '\t'

/-- The text after the spaces and tabs at its front. -/
def skipBlanks (cs : List Char) : List Char := cs.dropWhile isBlank

/-- A character of a comment or a text: no control character but the tab. -/
def isPlain (c : Char) : Bool := c == '\t' || (decide (0x20 ≤ c.toNat) && c != '\x7f')

/-- The text after the line end at its front. -/
def newline? : List Char → Option (List Char)
  | '\n' :: cs => some cs
  | '\r' :: '\n' :: cs => some cs
  | _ => none

/-- The text after the comment at its front, if there is one. -/
def skipComment : List Char → List Char
  | '#' :: cs => cs.dropWhile isPlain
  | cs => cs

/-- The text after the end of a line: blanks, a comment, and a line end or the end of the text. -/
def lineEnd? (cs : List Char) : Option (List Char) :=
  match skipComment (skipBlanks cs) with
  | [] => some []
  | cs => newline? cs

/-- The text after the blanks, comments and line ends at its front.  A comment ends with its line.
The first argument bounds the number of line ends. -/
def skipLines? : Nat → List Char → Option (List Char)
  | 0, _ => none
  | fuel + 1, cs =>
    match skipBlanks cs with
    | '#' :: cs =>
      match newline? (cs.dropWhile isPlain) with
      | some cs => skipLines? fuel cs
      | none => none
    | '\n' :: cs => skipLines? fuel cs
    | '\r' :: cs =>
      match newline? ('\r' :: cs) with
      | some cs => skipLines? fuel cs
      | none => none
    | cs => some cs

end RouteTrie.Toml
