import RouteTrie.Error
import RouteTrie.Key

/-!
# Events

What the library tells about its work, as data.  An operation that has something to tell returns its
events, in order, beside its result; where they go is not its business.

## What is here

* `Event`: everything there is to tell.
* `Event.level`, `Event.message`, `Event.fields`: how an event is shown.
* `Logged`: a result with the events on the way to it.
-/

set_option autoImplicit false

namespace RouteTrie

/-- How urgent an event is. -/
inductive Level where
  /-- Of interest when looking for a fault. -/
  | debug
  /-- Normal progress. -/
  | info
  /-- Probably a mistake. -/
  | warn
  /-- Something was refused. -/
  | error
  deriving DecidableEq, Repr

/-- Something that happened. -/
inductive Event where
  /-- A variable name occurs again in a path. -/
  | variableRepeated (path name : String)
  /-- The methods of a key were registered on a path. -/
  | routeRegistered (methods : List String) (pattern : String) (vars : Nat)
  /-- The fallback route was registered. -/
  | fallbackRegistered
  /-- A trie is complete. -/
  | structureBuilt (endpoints routes : Nat)
  /-- A trie has become the active one. -/
  | structureSwapped (endpoints : Nat)
  /-- A table was refused. -/
  | rebuildFailed (error : RouteError)
  /-- A route file was refused. -/
  | fileRejected (error : RouteError)
  deriving DecidableEq, Repr

namespace Event

/-- How urgent the event is. -/
def level : Event → Level
  | variableRepeated _ _ => .warn
  | routeRegistered _ _ _ | fallbackRegistered => .debug
  | structureBuilt _ _ | structureSwapped _ => .info
  | rebuildFailed _ | fileRejected _ => .error

/-- What the event says. -/
def message : Event → String
  | variableRepeated _ _ => "Variable name repeated in path; last occurrence wins"
  | routeRegistered _ _ _ => "Registered route"
  | fallbackRegistered => "Registered default route"
  | structureBuilt _ _ => "Route structure built"
  | structureSwapped _ => "Route structure swapped"
  | rebuildFailed _ => "Route rebuild failed; keeping current structure"
  | fileRejected _ => "Route file rejected; keeping current structure"

/-- The details of the event by name. -/
def fields : Event → List (String × String)
  | variableRepeated path name => [("path", path), ("variable", name)]
  | routeRegistered methods pattern vars =>
    [("methods", RouteKey.joinMethods methods), ("path", pattern), ("vars", toString vars)]
  | fallbackRegistered => []
  | structureBuilt endpoints routes =>
    [("endpoints", toString endpoints), ("routes", toString routes)]
  | structureSwapped endpoints => [("endpoints", toString endpoints)]
  | rebuildFailed error | fileRejected error => [("error", error.message)]

end Event

/-- A result and the events on the way to it. -/
structure Logged (α : Type) where
  /-- The result. -/
  value : α
  /-- The events in order. -/
  events : List Event

end RouteTrie
