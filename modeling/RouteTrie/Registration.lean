import RouteTrie.Event
import RouteTrie.Node

/-!
# Registrations

A registration is a routing key together with its parsed path: what one entry asks for.  Building a
trie and checking a list of keys both work on registrations, and so do the events of a build.

## What is here

* `Registration`, `Registration.ofKey`: how a key is understood.
* `Registration.claims`: the pairs of method and normalized path that it takes.
* `Node.register`: the trie with one registration more.
* `Registration.warnings`, `Registration.done`: what is told before and after it is entered.
-/

set_option autoImplicit false

namespace RouteTrie

/-- What one entry asks for. -/
inductive Registration where
  /-- The fallback route. -/
  | fallback
  /-- Some methods, as written, on a path, as written and as parsed. -/
  | route (methods : List String) (written : String) (path : Path)

namespace Registration

/-- Understand a key. -/
def ofKey (key : String) : Except RouteError Registration :=
  match RouteKey.parse key with
  | .error e => .error e
  | .ok .fallback => .ok .fallback
  | .ok (.route methods written) =>
    match Path.parse written with
    | .error e => .error e
    | .ok path => .ok (.route methods written path)

/-- The methods in upper case, each with the normalized path. -/
def claims : Registration → List (String × String)
  | fallback => [(Text.uppercase fallbackMethod, "")]
  | route methods _ path => methods.map fun m => (Text.uppercase m, path.pattern)

/-- The number of methods. -/
def size : Registration → Nat
  | fallback => 1
  | route methods _ _ => methods.length

/-- A warning for every repetition of a variable name. -/
def warnings : Registration → List Event
  | fallback => []
  | route _ written _ => (Path.repeatedNames written).map (Event.variableRepeated written)

/-- That the registration has been entered. -/
def done : Registration → Event
  | fallback => .fallbackRegistered
  | route methods _ path => .routeRegistered methods path.pattern path.vars.size

end Registration

/-- The trie with one registration more.  The endpoint of a path is named by the first registration
that reaches it. -/
def Node.register {H : Type} (root : Node H) (r : Registration) (handler : H) :
    Except RouteError (Node H) :=
  match r with
  | .fallback =>
    root.upsertEndpoint [] .fallback fun e =>
      (e.getD (Endpoint.new "")).withRoute fallbackMethod handler ∅
  | .route methods _ path =>
    root.upsertEndpoint path.segments .terminal fun e =>
      (e.getD (Endpoint.new path.pattern)).withRoutes methods handler path.vars

end RouteTrie
