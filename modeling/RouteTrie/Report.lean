import RouteTrie.Json.Printer
import RouteTrie.Node

/-!
# Reports

Counts and summaries of a trie.

## What is here

* `Stats`, `Stats.of`: how many endpoints, methods and groups there are.
* `Summary`, `summarize`: the groups of all endpoints, one after the other.
* `Stats.line`: the counts as a line of text.
* `Stats.routes_of`, `Stats.uniqueRoutes_of`: what two of the counts are.
-/

set_option autoImplicit false

namespace RouteTrie

variable {H : Type}

/-- Counts that describe a trie. -/
structure Stats where
  /-- Distinct paths, the fallback included. -/
  endpoints : Nat
  /-- Registered methods. -/
  routes : Nat
  /-- Groups of methods with the same route. -/
  uniqueRoutes : Nat
  /-- Whether there is a fallback route. -/
  hasFallback : Bool
  deriving DecidableEq, Repr

/-- The counts of a trie. -/
def Stats.of [BEq H] (root : Node H) : Stats where
  endpoints := root.endpoints.length
  routes := root.endpoints.foldr (fun e n => e.size + n) 0
  uniqueRoutes := root.endpoints.foldr (fun e n => e.uniqueRoutes.length + n) 0
  hasFallback := root.fallback?.isSome

/-- The counts behind the name of a file. -/
def Stats.line (s : Stats) (file : String) : String :=
  file ++ ": " ++ toString s.endpoints ++ " endpoints, " ++ toString s.routes ++ " routes, " ++
    toString s.uniqueRoutes ++ " unique" ++ (if s.hasFallback then ", default route set" else "")

/-- Methods that share a route on one path. -/
structure Summary (H : Type) where
  /-- The normalized path of the endpoint. -/
  path : String
  /-- The methods without the fallback method. -/
  methods : List String
  /-- The route that they share. -/
  route : Route H

/-- The summaries of one endpoint. -/
def Endpoint.summaries [BEq H] (e : Endpoint H) : List (Summary H) :=
  e.uniqueRoutes.map fun g => ⟨e.path, g.methods.filter fun m => m ≠ fallbackMethod, g.route⟩

/-- The groups of all endpoints, depth first.  The fallback route has no methods. -/
def summarize [BEq H] (root : Node H) : List (Summary H) :=
  root.endpoints.flatMap Endpoint.summaries

/-- A summary as a JSON object. -/
def Summary.toJson (s : Summary Json) : Json :=
  .obj [("path", .str s.path), ("methods", .arr (s.methods.map Json.str)),
    ("handler", s.route.handler),
    ("vars", .obj (s.route.vars.entries.map fun v => (v.1, .int v.2)))]

/-! ## Counting -/

/-- The routes are the methods of all endpoints. -/
theorem Stats.routes_of [BEq H] (root : Node H) :
    (Stats.of root).routes = (root.endpoints.map Endpoint.size).foldr (fun m n => m + n) 0 := by
  rw [List.foldr_map]
  rfl

/-- There are as many groups as lines of the summary. -/
theorem Stats.uniqueRoutes_of [BEq H] (root : Node H) :
    (Stats.of root).uniqueRoutes = (summarize root).length := by
  rw [summarize, List.length_flatMap, List.sum_eq_foldr, List.foldr_map]
  simp only [Endpoint.summaries, List.length_map]
  rfl

end RouteTrie
