import RouteTrie.Error
import RouteTrie.Text.Blank
import RouteTrie.Text.Fields

/-!
# Routing keys

A routing key is either the word `default`, which names the fallback route, or one or more methods
and a path: `METHOD|METHOD /path`.  Blanks may stand before the methods, must stand between the
methods and the path, and may stand after the path; they are ASCII only, so that a no-break space is
part of whatever it touches.

## What is here

* `RouteKey`, `RouteKey.parse`: the two kinds of key and how one is read.
* `RouteKey.render`: the key of some methods and a path.
* `RouteKey.normalize`: the form under which a table stores a key.
-/

set_option autoImplicit false

namespace RouteTrie

/-- The key of the fallback route. -/
def fallbackKey : String := "default"

/-- What a routing key names. -/
inductive RouteKey where
  /-- The fallback route. -/
  | fallback
  /-- Some methods, as written, on one path. -/
  | route (methods : List String) (path : String)
  deriving DecidableEq, Repr

namespace RouteKey

/-- The methods of a list, with a bar between neighbours. -/
def joinMethods (methods : List String) : String :=
  String.ofList (Text.join '|' (methods.map String.toList))

/-- The key that names these methods on this path. -/
def render (methods : List String) (path : String) : String := joinMethods methods ++ " " ++ path

/-- A character of the part of a key that holds the methods. -/
def isMethodChar (c : Char) : Bool := Text.isWord c || c == '|'

/-- Cut a key into its methods and its path: blanks, words with bars between them, at least one
blank, a slash and everything up to the next blank, and nothing but blanks after that. -/
def split? (key : List Char) : Option (List (List Char) × List Char) :=
  let start := key.dropWhile Text.isBlank
  let methods := Text.fields '|' (start.takeWhile isMethodChar)
  let gap := start.dropWhile isMethodChar
  let tail := gap.dropWhile Text.isBlank
  let path := tail.takeWhile fun c => !Text.isBlank c
  let rest := tail.dropWhile fun c => !Text.isBlank c
  if methods.all (fun m => !m.isEmpty) && gap.head?.any Text.isBlank && path.head? == some '/'
      && rest.all Text.isBlank then
    some (methods, path)
  else
    none

/-- Read a key.  Methods keep the case in which they are written. -/
def parse (key : String) : Except RouteError RouteKey :=
  if key = fallbackKey then .ok .fallback
  else
    match split? key.toList with
    | some (methods, path) => .ok (.route (methods.map String.ofList) (String.ofList path))
    | none => .error (.invalidRoute key)

/-- Write every run of two or more blanks as one space, so that keys that differ only in the length
of such runs name the same entry. -/
def normalize (key : String) : String := String.ofList (Text.collapse key.toList)

end RouteKey

end RouteTrie
