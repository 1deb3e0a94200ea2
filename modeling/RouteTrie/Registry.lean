import RouteTrie.Config.File

/-!
# The active trie

A registry holds the trie that is in use.  It is replaced by the trie of a new table or route file
only if that can be built; otherwise it stays, and the failure is told once.

## What is here

* `Registry`, `Registry.new`: the active trie, and the first one.
* `Registry.reload`, `Registry.reloadConfig`, `Registry.reloadText`: three ways to replace it.
* `Registry.Source`, `Registry.step`, `Registry.run`: the same as one operation on a description of
  the replacement, and a sequence of them.
-/

set_option autoImplicit false

namespace RouteTrie

/-- Why a replacement is refused. -/
inductive Refusal where
  /-- The route file cannot be read or is not sound. -/
  | file (error : Config.FileError)
  /-- The routes cannot be built. -/
  | route (error : RouteError)

/-- The holder of the trie that is in use. -/
structure Registry where
  /-- The trie in use. -/
  current : Node Json

namespace Registry

/-- The registry of a table that can be built. -/
def new (t : Table Json) : Logged (Except RouteError Registry) :=
  let built := t.buildLogged
  ⟨built.value.map Registry.mk, built.events⟩

/-- Replace the trie by that of a table.  The result is the new trie or the error. -/
def reload (r : Registry) (t : Table Json) : Registry × Logged (Except RouteError (Node Json)) :=
  let built := t.buildLogged
  match built.value with
  | .ok tree => (⟨tree⟩, ⟨.ok tree, built.events ++ [.structureSwapped tree.endpoints.length]⟩)
  | .error e => (r, ⟨.error e, built.events ++ [.rebuildFailed e]⟩)

/-- Replace the trie by that of a route file, which need not be sound. -/
def reloadConfig (r : Registry) (c : Config) :
    Registry × Logged (Except RouteError (Node Json)) :=
  match c.toTable with
  | .ok t => r.reload t
  | .error e => (r, ⟨.error e, [.fileRejected e]⟩)

/-- Replace the trie by that of the text of a route file, which has to be sound.  Nothing is told
about a text that is refused as such. -/
def reloadText (r : Registry) (text : String) : Registry × Logged (Except Refusal (Node Json)) :=
  match Config.parse text with
  | .error e => (r, ⟨.error (.file e), []⟩)
  | .ok c =>
    let next := r.reloadConfig c
    (next.1, ⟨next.2.value.mapError .route, next.2.events⟩)

/-! ## Sequences -/

/-- Where a replacement comes from. -/
inductive Source where
  /-- A table. -/
  | table (t : Table Json)
  /-- A route file. -/
  | config (c : Config)
  /-- The text of a route file. -/
  | text (s : String)

/-- Try one replacement. -/
def step (r : Registry) : Source → Registry × Logged (Except Refusal (Node Json))
  | .table t =>
    let next := r.reload t
    (next.1, ⟨next.2.value.mapError .route, next.2.events⟩)
  | .config c =>
    let next := r.reloadConfig c
    (next.1, ⟨next.2.value.mapError .route, next.2.events⟩)
  | .text s => r.reloadText s

/-- Try some replacements one after the other. -/
def run (r : Registry) (sources : List Source) : Registry :=
  sources.foldl (fun r s => (r.step s).1) r

end Registry

end RouteTrie
