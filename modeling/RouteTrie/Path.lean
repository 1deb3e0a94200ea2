import RouteTrie.Error
import RouteTrie.OrderedMap
import RouteTrie.Text.Fields

/-!
# Path patterns

A path pattern is a list of segments between slashes.  A segment `:name` or `{name}` is a variable,
and so is `*`, which has no name; every other segment stands for itself.  The names of the variables
are kept beside the segments, each with the index of its segment.  There is no escape: a segment
that is written `*` is always a variable position.

## What is here

* `Segment`, `Path`, `VarMap`: the parsed form.
* `Path.parse`: how a pattern is read; of a repeated name the last position counts.
* `Path.repeatedNames`: the names that occur again, which deserve a warning.
* `Path.pattern`, `Path.template`: the path with every variable as `*`, and with the names put back.
-/

set_option autoImplicit false

namespace RouteTrie

/-- How a variable position is written in a normalized path. -/
def wildcardText : String := "*"

/-- One segment of a path. -/
inductive Segment where
  /-- Matches exactly this text. -/
  | literal (text : String)
  /-- Matches any text. -/
  | wildcard
  deriving DecidableEq, Repr

namespace Segment

/-- The segment in a normalized path. -/
def text : Segment → String
  | literal text => text
  | wildcard => wildcardText

/-- Whether any text matches. -/
def isWildcard : Segment → Bool
  | literal _ => false
  | wildcard => true

/-- The name in a text of the form `:name` or `{name}`, where a name is a nonempty word. -/
def variableName? : List Char → Option (List Char)
  | ':' :: name => if !name.isEmpty && name.all Text.isWord then some name else none
  | '{' :: rest =>
    let name := rest.dropLast
    if rest.getLast? == some '}' && !name.isEmpty && name.all Text.isWord then some name else none
  | _ => none

/-- The segment that a text between two slashes stands for. -/
def ofText (text : List Char) : Segment :=
  if (variableName? text).isSome || text == ['*'] then wildcard else literal (String.ofList text)

end Segment

/-- The segment index of every variable. -/
abbrev VarMap := OrderedMap String Nat

/-- A parsed path pattern. -/
structure Path where
  /-- The segments in order. -/
  segments : List Segment
  /-- The variables with the indices of their segments. -/
  vars : VarMap

namespace Path

/-- Two paths are equal when their segments are and their variables agree in some order. -/
instance : BEq Path where
  beq p q := decide (p.segments = q.segments) && p.vars == q.vars

/-- Write texts between slashes, with a slash in front. -/
def slashed (texts : List String) : String :=
  String.ofList ('/' :: Text.join '/' (texts.map String.toList))

/-- The path with every variable written as `*`. -/
def pattern (p : Path) : String := slashed (p.segments.map Segment.text)

/-- The first variable that stands at an index. -/
def varAt? (vars : VarMap) (index : Nat) : Option String :=
  (vars.entries.find? fun v => v.2 == index).map Prod.fst

/-- A segment with its variable name put back; a position without a name stays `*`. -/
def templateText (vars : VarMap) : Segment → Nat → String
  | .literal text, _ => text
  | .wildcard, index =>
    match varAt? vars index with
    | some name => "\x7b" ++ name ++ "\x7d"
    | none => wildcardText

/-- The path with the names of its variables put back in the form `{name}`. -/
def template (p : Path) : String :=
  slashed (p.segments.zipIdx.map fun s => templateText p.vars s.1 s.2)

/-- Whether the path is the root, which has no segments. -/
def isRoot (p : Path) : Bool := p.segments.isEmpty

/-! ## Reading -/

/-- The texts between the slashes of a path; the root has none. -/
def texts? : List Char → Option (List (List Char))
  | ['/'] => some []
  | '/' :: rest => some (Text.fields '/' rest)
  | _ => none

/-- The named variables among some texts, each with its index. -/
def occurrences (texts : List (List Char)) : List (String × Nat) :=
  texts.zipIdx.filterMap fun t => (Segment.variableName? t.1).map fun n => (String.ofList n, t.2)

/-- The path with these texts as segments. -/
def ofTexts (texts : List (List Char)) : Path :=
  ⟨texts.map Segment.ofText, OrderedMap.ofList (occurrences texts)⟩

/-- Read a path.  A name that occurs more than once keeps its first place among the variables and
gets the index of its last occurrence. -/
def parse (path : String) : Except RouteError Path :=
  match texts? path.toList with
  | some texts => .ok (ofTexts texts)
  | none => .error (.invalidPath path)

/-- The elements of a list that occur earlier in it or among `seen`. -/
def repeats (seen : List String) : List String → List String
  | [] => []
  | n :: ns => if n ∈ seen then n :: repeats seen ns else repeats (n :: seen) ns

/-- The variable names that a path repeats, once for every repetition. -/
def repeatedNames (path : String) : List String :=
  match texts? path.toList with
  | some texts => repeats [] ((occurrences texts).map Prod.fst)
  | none => []

end Path

end RouteTrie
