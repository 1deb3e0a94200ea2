import RouteTrie.Path
import RouteTrie.Text.Uppercase

/-!
# Endpoints

An endpoint is one concrete path with the methods registered on it.  Every method has a handler and
its own variable map; methods are kept in upper case, so `get` and `GET` are the same method.

## What is here

* `Route`, `Endpoint`: a handler with its variables, and the routes of one path.
* `Endpoint.withRoute`: registration, which refuses a method that is already there.
* `Endpoint.route?`, `Endpoint.vars`, `Endpoint.allowedMethods`: the questions an endpoint answers.
* `Endpoint.uniqueRoutes`: the methods grouped by equal handler and variables.
-/

set_option autoImplicit false

namespace RouteTrie

/-- The method under which the fallback route is registered. -/
def fallbackMethod : String := ""

/-- A handler and the variables it is called with. -/
structure Route (H : Type) where
  /-- What answers the request. -/
  handler : H
  /-- The variables and the indices of their segments. -/
  vars : VarMap

/-- Routes are equal when handler and variables are. -/
instance {H : Type} [BEq H] : BEq (Route H) where
  beq r s := r.handler == s.handler && r.vars == s.vars

/-- Methods that share a handler and a variable map. -/
structure RouteGroup (H : Type) where
  /-- The methods in registration order. -/
  methods : List String
  /-- The route that they share. -/
  route : Route H

/-- All methods registered on one path. -/
structure Endpoint (H : Type) where
  /-- The normalized path; empty for the fallback endpoint. -/
  path : String
  /-- The routes by method, in registration order. -/
  routes : OrderedMap String (Route H)

namespace Endpoint

variable {H : Type}

/-- Endpoints are equal when their paths are and their routes agree in some order. -/
instance [BEq H] : BEq (Endpoint H) where
  beq a b := a.path == b.path && a.routes == b.routes

/-- The endpoint without routes. -/
def new (path : String) : Endpoint H := ⟨path, ∅⟩

/-- The registered methods, the fallback method included. -/
def methods (e : Endpoint H) : List String := e.routes.keys

/-- The registered methods without the fallback method. -/
def allowedMethods (e : Endpoint H) : List String := e.methods.filter fun m => m ≠ fallbackMethod

/-- The handler of a method. -/
def route? (e : Endpoint H) (method : String) : Option H :=
  (e.routes.get? (Text.uppercase method)).map Route.handler

/-- The variables of a method. -/
def vars (e : Endpoint H) (method : String) : Except RouteError VarMap :=
  match e.routes.get? (Text.uppercase method) with
  | some r => .ok r.vars
  | none => .error (.unknownMethod (Text.uppercase method) e.path)

/-- The number of registered methods. -/
def size (e : Endpoint H) : Nat := e.routes.size

/-- Whether no method is registered. -/
def isEmpty (e : Endpoint H) : Bool := e.routes.isEmpty

/-- The endpoint with one method more. -/
def withRoute (e : Endpoint H) (method : String) (handler : H) (vars : VarMap) :
    Except RouteError (Endpoint H) :=
  if e.routes.contains (Text.uppercase method) then
    .error (.duplicateRoute (Text.uppercase method) e.path)
  else .ok { e with routes := e.routes.insert (Text.uppercase method) ⟨handler, vars⟩ }

/-- The endpoint with some methods more, all with the same route. -/
def withRoutes (e : Endpoint H) (methods : List String) (handler : H) (vars : VarMap) :
    Except RouteError (Endpoint H) :=
  methods.foldlM (fun e m => e.withRoute m handler vars) e

/-! ## Groups -/

/-- The entries with the route `r`. -/
def sharing [BEq H] (r : Route H) (entries : List (String × Route H)) : List (String × Route H) :=
  entries.filter fun p => p.2 == r

/-- The entries with another route than `r`. -/
def differing [BEq H] (r : Route H) (entries : List (String × Route H)) :
    List (String × Route H) :=
  entries.filter fun p => !(p.2 == r)

theorem length_differing_le [BEq H] (r : Route H) (entries : List (String × Route H)) :
    (differing r entries).length ≤ entries.length :=
  List.length_filter_le _ _

/-- Group methods by equal route: the first method takes all that share its route with it, then the
rest is grouped. -/
def group [BEq H] : List (String × Route H) → List (RouteGroup H)
  | [] => []
  | (m, r) :: rest => ⟨m :: (sharing r rest).map Prod.fst, r⟩ :: group (differing r rest)
termination_by l => l.length
decreasing_by exact Nat.lt_succ_of_le (length_differing_le r rest)

/-- The methods grouped by equal handler and variables.  Groups stand in the order of their first
methods, and the methods of a group in registration order. -/
def uniqueRoutes [BEq H] (e : Endpoint H) : List (RouteGroup H) := group e.routes.entries

end Endpoint

end RouteTrie
