import RouteTrie.Config.Decode
import RouteTrie.Config.Validation
import RouteTrie.Json.Reader
import RouteTrie.Toml.Reader

/-!
# Reading route files

A route file is TOML, describes a route file, and is sound; a file on disk also has to be there and
to be text.

## What is here

* `Config.FileError`, `Config.FileError.message?`: why a file is refused.
* `Config.ofToml?`, `Config.ofJson?`: the contents that a text in one of two formats describes.
* `Config.parse`: the route file that a text stands for.
* `Config.load`: the route file that the contents of a file stand for.
-/

set_option autoImplicit false

namespace RouteTrie.Config

/-- Why a file is refused. -/
inductive FileError where
  /-- There is no such file. -/
  | missing
  /-- The file is not UTF-8 text. -/
  | notText
  /-- The text is not TOML, or does not have the shape of a route file. -/
  | malformed
  /-- The route file is not sound. -/
  | unsound (problems : List Problem)

/-- The sentence that lists the problems of an unsound route file. -/
def FileError.message? : FileError → Option String
  | unsound problems =>
    some ("Validation failed: " ++ ", ".intercalate (problems.map Problem.message))
  | _ => none

/-- The contents that a TOML text describes; a list may be longer than its record. -/
def ofToml? (text : String) : Option Config := (Toml.read? text).bind (ofDocument? .skipped)

/-- The contents that a JSON text describes; a list may not be longer than its record. -/
def ofJson? (text : String) : Option Config := (Json.read? text).bind (ofDocument? .refused)

/-- The sound route file that a text stands for. -/
def parse (text : String) : Except FileError Config :=
  match ofToml? text with
  | none => .error .malformed
  | some c => if c.problems.isEmpty then .ok c else .error (.unsound c.problems)

/-- The sound route file that the contents of a file stand for; there are none if the file is
missing. -/
def load (contents : Option ByteArray) : Except FileError Config :=
  match contents with
  | none => .error .missing
  | some bytes =>
    match String.fromUTF8? bytes with
    | none => .error .notText
    | some text => parse text

end RouteTrie.Config
