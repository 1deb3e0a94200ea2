import RouteTrie.Config

/-!
# Validation of route files

A route file is sound if it has routes, its base paths are usable, its keys can be read, only its
top defines a fallback route, and its routes do not conflict.  All problems that concern a single
base path or key are reported together; conflicts are looked for only when there are none of those.

## What is here

* `Config.Problem`, `Config.Problem.message`: what can be wrong, and the wording.
* `Config.localProblems`: the problems of single base paths and keys.
* `Config.conflict?`: the first conflict between routes.
* `Config.problems`: everything that is wrong with a route file.
-/

set_option autoImplicit false

namespace RouteTrie.Config

/-- Something that is wrong with a route file. -/
inductive Problem where
  /-- A base path is not a usable piece of a path. -/
  | invalidBase (base : String)
  /-- A key cannot be read. -/
  | invalidKey (error : RouteError)
  /-- A group defines a fallback route. -/
  | fallbackInGroup (base : String)
  /-- Routes conflict. -/
  | conflict (error : RouteError)
  /-- There is no route. -/
  | empty
  deriving DecidableEq, Repr

/-- The sentence that describes a problem. -/
def Problem.message : Problem → String
  | invalidBase base =>
    "Invalid prefix '" ++ base ++ "': should start with '/' and not end with '/'"
  | invalidKey error => error.message
  | fallbackInGroup base => "Group '" ++ base ++ "' cannot define a default route"
  | conflict error => error.message
  | empty => "Route file defines no routes"

/-- Whether a base path starts with a slash and does not end with one. -/
def isUsableBase (base : String) : Bool :=
  base.toList.head? == some '/' && base.toList.getLast? != some '/'

/-- The problem of a base path that may be empty. -/
def baseProblems (base : String) : List Problem :=
  if base.isEmpty || isUsableBase base then [] else [.invalidBase base]

/-- A problem for every key that cannot be read. -/
def keyProblems (keys : List String) : List Problem :=
  keys.filterMap fun key =>
    match RouteKey.parse key with
    | .ok _ => none
    | .error e => some (.invalidKey e)

/-- The problems of a group: its base path may not be empty. -/
def groupProblems (g : Group) : List Problem :=
  (if g.base.isEmpty || !isUsableBase g.base then [.invalidBase g.base] else []) ++
    (if g.routes.contains fallbackKey then [.fallbackInGroup g.base] else []) ++
    keyProblems g.routes.keys

/-- The problems of single base paths and keys, in the order of the file. -/
def localProblems (c : Config) : List Problem :=
  (if c.routeCount = 0 then [.empty] else []) ++ baseProblems c.base ++
    keyProblems c.routes.keys ++ c.groups.flatMap groupProblems

/-- The first conflict between the routes of a file. -/
def conflict? (c : Config) : Option RouteError :=
  match c.toTable with
  | .error e => some e
  | .ok t =>
    match t.check with
    | .error e => some e
    | .ok () => none

/-- Everything that is wrong with a route file. -/
def problems (c : Config) : List Problem :=
  if c.localProblems.isEmpty then (c.conflict?.map Problem.conflict).toList else c.localProblems

/-- The route file itself, if nothing is wrong with it. -/
def validate (c : Config) : Except (List Problem) Unit :=
  if c.problems.isEmpty then .ok () else .error c.problems

end RouteTrie.Config
