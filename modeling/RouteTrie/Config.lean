import RouteTrie.Json.Printer
import RouteTrie.Table

/-!
# Route files

The contents of a route file: a base path, routes at the top, and groups of routes that share a
longer base path.  A route file resolves to a table.  Unlike a table that is filled by hand it never
replaces an entry: two routes with the same resolved key are a mistake.

## What is here

* `Config`, `Group`: the contents of a route file.
* `Config.toTable`: the table of a route file, or the first clash.
* `Config.clash`: how a clash is reported.
* `Config.toJson`: the contents as a JSON object.
-/

set_option autoImplicit false

namespace RouteTrie

/-- Routes that share a base path below that of the file. -/
structure Group where
  /-- The base path below that of the file. -/
  base : String
  /-- The handlers by key. -/
  routes : OrderedMap String Json

/-- The contents of a route file. -/
structure Config where
  /-- The base path of every route. -/
  base : String
  /-- The handlers by key. -/
  routes : OrderedMap String Json
  /-- The groups in order. -/
  groups : List Group

/-- Groups are equal when their base paths are and their routes agree in some order. -/
instance : BEq Group where
  beq a b := a.base == b.base && a.routes == b.routes

/-- A group as a JSON object. -/
def Group.toJson (g : Group) : Json :=
  .obj [("prefix", .str g.base), ("routes", .obj g.routes.entries)]

namespace Config

/-- Route files are equal when their base paths are, their routes agree in some order, and their
groups are equal one by one. -/
instance : BEq Config where
  beq a b := a.base == b.base && a.routes == b.routes && a.groups == b.groups

/-- The route file without contents. -/
def empty : Config := ⟨"", ∅, []⟩

instance : Inhabited Config := ⟨empty⟩

/-- The number of routes, those of the groups included. -/
def routeCount (c : Config) : Nat :=
  c.groups.foldr (fun g n => g.routes.size + n) c.routes.size

/-! ## Resolving -/

/-- The error for a key that is already taken: its methods and its path as written in it. -/
def clash (key : String) : RouteError :=
  match RouteKey.parse key with
  | .ok (.route methods path) =>
    .duplicateRoute (Text.uppercase (RouteKey.joinMethods methods)) path
  | _ =>
    if Text.trim key.toList = fallbackKey.toList then .duplicateRoute "" ""
    else .invalidRoute key

/-- Add routes below the base path of a table; a key that is already taken is an error. -/
def addRoutes (t : Table Json) : List (String × Json) → Except RouteError (Table Json)
  | [] => .ok t
  | (key, handler) :: rest => do
    let k ← RouteKey.parse key
    if t.contains (t.keyOf k) then .error (clash key)
    else addRoutes (t.insert (t.keyOf k) handler) rest

/-- Add entries as they are; a key that is already taken is an error. -/
def merge (t : Table Json) : List (String × Json) → Except RouteError (Table Json)
  | [] => .ok t
  | (key, handler) :: rest =>
    if t.contains key then .error (clash key) else merge (t.insert key handler) rest

/-- Add the routes of a group. -/
def addGroup (base : String) (t : Table Json) (g : Group) : Except RouteError (Table Json) := do
  let sub ← addRoutes (Table.new (base ++ g.base)) g.routes.entries
  merge t sub.entries.entries

/-- The table of a route file: the routes at the top, then those of the groups. -/
def toTable (c : Config) : Except RouteError (Table Json) := do
  let t ← addRoutes (Table.new c.base) c.routes.entries
  c.groups.foldlM (addGroup c.base) t

/-! ## Writing -/

/-- A route file as a JSON object. -/
def toJson (c : Config) : Json :=
  .obj [("prefix", .str c.base), ("routes", .obj c.routes.entries),
    ("groups", .arr (c.groups.map Group.toJson))]

end Config

end RouteTrie
