import RouteTrie.Build

/-!
# Route tables

A table collects routes before they are compiled.  Its keys are normalized, and its base path stands
in front of every path that is added by method and path.

## What is here

* `Table`, with `insert`, `get?`, `contains`, `erase`: an ordered map of normalized keys.
* `Table.addRoute`, `Table.setFallback`, `Table.group`: routes below the base path, the fallback
  route, and routes below a longer base path.
* `Table.addGet`, `Table.addPost` and so on: routes for a single method.
* `Table.build`, `Table.check`: compiling and checking the entries.
* `Table.Edit`, `Table.edit`: single changes, with the handler that each of them replaces.
* `Table.Step`, `Table.run`: programs of such operations, with groups inside of groups.
-/

set_option autoImplicit false

namespace RouteTrie

/-- An ordered collection of routes. -/
structure Table (H : Type) where
  /-- What stands in front of every path added by method and path. -/
  base : String
  /-- The handlers by normalized key. -/
  entries : OrderedMap String H

namespace Table

variable {H : Type}

/-- Tables are equal when their base paths are and their entries agree in some order. -/
instance [BEq H] : BEq (Table H) where
  beq a b := a.base == b.base && a.entries == b.entries

/-- The table without entries. -/
def new (base : String) : Table H := ⟨base, ∅⟩

/-- The keys in order. -/
def keys (t : Table H) : List String := t.entries.keys

/-- The number of entries. -/
def size (t : Table H) : Nat := t.entries.size

/-- Whether there is no entry. -/
def isEmpty (t : Table H) : Bool := t.entries.isEmpty

/-- The handler stored under a key. -/
def get? (t : Table H) (key : String) : Option H := t.entries.get? (RouteKey.normalize key)

/-- Whether a key is stored. -/
def contains (t : Table H) (key : String) : Bool := t.entries.contains (RouteKey.normalize key)

/-- Add or replace an entry; a replaced entry keeps its place. -/
def insert (t : Table H) (key : String) (handler : H) : Table H :=
  { t with entries := t.entries.insert (RouteKey.normalize key) handler }

/-- Remove an entry, keeping the order of the others. -/
def erase (t : Table H) (key : String) : Table H :=
  { t with entries := t.entries.erase (RouteKey.normalize key) }

/-- Insert entries one after the other. -/
def extend (t : Table H) (entries : List (String × H)) : Table H :=
  entries.foldl (fun t e => t.insert e.1 e.2) t

/-- The table of some entries, with an empty base path. -/
def ofList (entries : List (String × H)) : Table H := (new "").extend entries

/-! ## Base paths -/

/-- A path below a base path; the root below a nonempty base path is the base path itself. -/
def fullPath (base path : String) : String :=
  if path = "/" ∧ base ≠ "" then base else base ++ path

/-- The key of some methods on a path below the base path. -/
def routeKey (t : Table H) (methods : List String) (path : String) : String :=
  RouteKey.render methods (fullPath t.base path)

/-- The key under which the table stores what a key names. -/
def keyOf (t : Table H) : RouteKey → String
  | .fallback => fallbackKey
  | .route methods path => t.routeKey methods path

/-- Add a route for some methods on a path below the base path. -/
def addRoute (t : Table H) (methods : List String) (path : String) (handler : H) : Table H :=
  t.insert (t.routeKey methods path) handler

/-- Set the fallback route. -/
def setFallback (t : Table H) (handler : H) : Table H := t.insert fallbackKey handler

/-- An empty table whose base path is longer by `base`. -/
def sub (t : Table H) (base : String) : Table H := new (t.base ++ base)

/-- Fill a table with a longer base path and insert its entries. -/
def group (t : Table H) (base : String) (fill : Table H → Table H) : Table H :=
  t.extend (fill (t.sub base)).entries.entries

/-! ## Single methods -/

/-- Add a route for `GET`. -/
def addGet (t : Table H) (path : String) (handler : H) : Table H := t.addRoute ["GET"] path handler

/-- Add a route for `POST`. -/
def addPost (t : Table H) (path : String) (handler : H) : Table H :=
  t.addRoute ["POST"] path handler

/-- Add a route for `PUT`. -/
def addPut (t : Table H) (path : String) (handler : H) : Table H := t.addRoute ["PUT"] path handler

/-- Add a route for `DELETE`. -/
def addDelete (t : Table H) (path : String) (handler : H) : Table H :=
  t.addRoute ["DELETE"] path handler

/-- Add a route for `PATCH`. -/
def addPatch (t : Table H) (path : String) (handler : H) : Table H :=
  t.addRoute ["PATCH"] path handler

/-- Add a route for `HEAD`. -/
def addHead (t : Table H) (path : String) (handler : H) : Table H :=
  t.addRoute ["HEAD"] path handler

/-- Add a route for `OPTIONS`. -/
def addOptions (t : Table H) (path : String) (handler : H) : Table H :=
  t.addRoute ["OPTIONS"] path handler

/-! ## Compiling -/

/-- The first error that compiling would meet. -/
def check (t : Table H) : Except RouteError Unit := RouteTrie.check t.keys

/-- The trie of the entries. -/
def build (t : Table H) : Except RouteError (Node H) := RouteTrie.build t.entries.entries

/-- The trie of the entries and the events of building it. -/
def buildLogged (t : Table H) : Logged (Except RouteError (Node H)) :=
  RouteTrie.buildLogged t.entries.entries

/-! ## Edits -/

/-- One change of a table. -/
inductive Edit (H : Type) where
  /-- Insert a key as it is. -/
  | insert (key : String) (handler : H)
  /-- Add methods on a path below the base path. -/
  | addRoute (methods : List String) (path : String) (handler : H)
  /-- Set the fallback route. -/
  | setFallback (handler : H)
  /-- Insert entries one after the other. -/
  | extend (entries : List (String × H))
  /-- Remove a key. -/
  | erase (key : String)

/-- Add or replace an entry; also the handler that it replaces. -/
def getThenInsert (t : Table H) (key : String) (handler : H) : Option H × Table H :=
  let r := t.entries.getThenInsert (RouteKey.normalize key) handler
  (r.1, { t with entries := r.2 })

/-- Remove an entry; also its handler. -/
def getThenErase (t : Table H) (key : String) : Option H × Table H :=
  let r := t.entries.getThenErase (RouteKey.normalize key)
  (r.1, { t with entries := r.2 })

/-- Make one change; also the handler that it replaces or removes. -/
def edit (t : Table H) : Edit H → Option H × Table H
  | .insert key handler => t.getThenInsert key handler
  | .addRoute methods path handler => t.getThenInsert (t.routeKey methods path) handler
  | .setFallback handler => t.getThenInsert fallbackKey handler
  | .extend entries => (none, t.extend entries)
  | .erase key => t.getThenErase key

/-- Make changes one after the other. -/
def editMany (t : Table H) (edits : List (Edit H)) : Table H :=
  edits.foldl (fun t e => (t.edit e).2) t

theorem getThenInsert_eq (t : Table H) (key : String) (handler : H) :
    t.getThenInsert key handler = (t.get? key, t.insert key handler) := by
  simp [getThenInsert, get?, insert, OrderedMap.getThenInsert_eq]

theorem getThenErase_eq (t : Table H) (key : String) :
    t.getThenErase key = (t.get? key, t.erase key) := by
  simp [getThenErase, get?, erase, OrderedMap.getThenErase_eq]

/-! ## Programs -/

/-- One step of filling a table. -/
inductive Step (H : Type) where
  /-- Insert a key as it is. -/
  | insert (key : String) (handler : H)
  /-- Add methods on a path below the base path. -/
  | addRoute (methods : List String) (path : String) (handler : H)
  /-- Set the fallback route. -/
  | setFallback (handler : H)
  /-- Run steps below a longer base path. -/
  | group (base : String) (steps : List (Step H))

mutual

/-- Take one step. -/
def step (t : Table H) : Step H → Table H
  | .insert key handler => t.insert key handler
  | .addRoute methods path handler => t.addRoute methods path handler
  | .setFallback handler => t.setFallback handler
  | .group base steps => t.extend (run (t.sub base) steps).entries.entries

/-- Take some steps one after the other. -/
def run (t : Table H) : List (Step H) → Table H
  | [] => t
  | s :: ss => run (step t s) ss

end

end Table

end RouteTrie
