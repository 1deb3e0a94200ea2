/-!
# Errors of route definitions

Everything that can be wrong with a set of routes.  All of it is found when the routes are compiled
or asked about, never while a request is dispatched.

## What is here

* `RouteError`: the causes.
* `RouteError.message`: the wording of each cause.
* `bind_eq_ok_iff`, `bind_eq_error_iff`: how two stages succeed, and how they fail.
-/

set_option autoImplicit false

namespace RouteTrie

/-- What can be wrong with a route. -/
inductive RouteError where
  /-- The key does not have the form `METHOD /path`. -/
  | invalidRoute (key : String)
  /-- The path does not start with a slash. -/
  | invalidPath (path : String)
  /-- The method is registered twice for one path. -/
  | duplicateRoute (method path : String)
  /-- The endpoint has no such method. -/
  | unknownMethod (method path : String)
  deriving DecidableEq, Repr

/-- The sentence that describes an error. -/
def RouteError.message : RouteError → String
  | .invalidRoute key => "Invalid routing key '" ++ key ++ "': should be 'METHOD /path'"
  | .invalidPath path => "Invalid path '" ++ path ++ "': should start with '/'"
  | .duplicateRoute method path => "Duplicate route for '" ++ method ++ " " ++ path ++ "'"
  | .unknownMethod method path =>
    "Method '" ++ method ++ "' not available for endpoint '" ++ path ++ "'"

/-! ## Stages that can fail -/

section Stages

variable {α β : Type} {x : Except RouteError α} {f : α → Except RouteError β}

/-- Two stages succeed when the second one does with the result of the first one. -/
theorem bind_eq_ok_iff {b : β} : x >>= f = .ok b ↔ ∃ a, x = .ok a ∧ f a = .ok b := by
  cases x <;> simp [bind, Except.bind]

/-- Two stages fail when one of them does. -/
theorem bind_eq_error_iff {e : RouteError} :
    x >>= f = .error e ↔ x = .error e ∨ ∃ a, x = .ok a ∧ f a = .error e := by
  cases x <;> simp [bind, Except.bind]

end Stages

end RouteTrie
