import RouteTrie.Proofs.Endpoint.Registration
import RouteTrie.Proofs.OrderedMap

/-!
# Endpoints in two columns

An endpoint can also be kept in two maps, one from methods to handlers and one from methods to
variables, where only the first is asked whether a method is taken.  Both forms go through the same
registrations side by side, so the two maps always have the same methods in the same order.

## What is here

* `Columns`, `Columns.withRoutes`: the other form and registration in it.
* `Columns.handler?`, `Columns.varsOf`: the questions it answers, each from one of the maps.
* `Endpoint.columns`: the two maps of an endpoint.
* `Endpoint.columns_withRoutes`, `Endpoint.columns_attempts`: registering at an endpoint is registering
  in its columns, also if some of it fails.
-/

set_option autoImplicit false

namespace RouteTrie

/-- All methods registered on one path, with handlers and variables apart. -/
structure Columns (H : Type) where
  /-- The normalized path; empty for the fallback endpoint. -/
  path : String
  /-- The handlers by method. -/
  handlers : OrderedMap String H
  /-- The variables by method. -/
  vars : OrderedMap String VarMap

namespace Columns

variable {H : Type}

/-- The columns without routes. -/
def new (path : String) : Columns H := ⟨path, ∅, ∅⟩

/-- The columns with one method more. -/
def withRoute (c : Columns H) (method : String) (handler : H) (vars : VarMap) :
    Except RouteError (Columns H) :=
  if c.handlers.contains (Text.uppercase method) then
    .error (.duplicateRoute (Text.uppercase method) c.path)
  else
    .ok ⟨c.path, c.handlers.insert (Text.uppercase method) handler,
      c.vars.insert (Text.uppercase method) vars⟩

/-- The columns with some methods more. -/
def withRoutes (c : Columns H) (methods : List String) (handler : H) (vars : VarMap) :
    Except RouteError (Columns H) :=
  methods.foldlM (fun c m => c.withRoute m handler vars) c

/-- The columns after an attempt to register a method. -/
def attempt (c : Columns H) (call : String × Route H) : Columns H :=
  match c.withRoute call.1 call.2.handler call.2.vars with
  | .ok c' => c'
  | .error _ => c

/-- The columns after some attempts, one after the other. -/
def attempts (c : Columns H) (calls : List (String × Route H)) : Columns H := calls.foldl attempt c

/-- The handler of a method, for which the variables are not asked. -/
def handler? (c : Columns H) (method : String) : Option H :=
  c.handlers.get? (Text.uppercase method)

/-- The variables of a method, for which the handlers are not asked. -/
def varsOf (c : Columns H) (method : String) : Except RouteError VarMap :=
  match c.vars.get? (Text.uppercase method) with
  | some v => .ok v
  | none => .error (.unknownMethod (Text.uppercase method) c.path)

end Columns

namespace Endpoint

variable {H : Type}

/-- The handlers and the variables of an endpoint in two maps. -/
def columns (e : Endpoint H) : Columns H :=
  ⟨e.path, e.routes.mapValues Route.handler, e.routes.mapValues Route.vars⟩

theorem columns_withRoute (e : Endpoint H) (m : String) (h : H) (v : VarMap) :
    (e.withRoute m h v).map columns = e.columns.withRoute m h v := by
  rw [withRoute, Columns.withRoute, columns, OrderedMap.contains_mapValues]
  split
  · rfl
  · rw [Except.map, columns, OrderedMap.mapValues_insert, OrderedMap.mapValues_insert]

/-- **Registering at an endpoint is registering in its columns.** -/
theorem columns_withRoutes (e : Endpoint H) (ms : List String) (h : H) (v : VarMap) :
    (e.withRoutes ms h v).map columns = e.columns.withRoutes ms h v := by
  induction ms generalizing e with
  | nil => rfl
  | cons m ms ih =>
    rw [withRoutes, Columns.withRoutes, List.foldlM_cons, List.foldlM_cons, ← columns_withRoute]
    cases e.withRoute m h v with
    | error err => rfl
    | ok e' => exact ih e'

theorem columns_attempt (e : Endpoint H) (call : String × Route H) :
    (e.attempt call).columns = e.columns.attempt call := by
  rw [attempt, Columns.attempt, ← columns_withRoute]
  cases e.withRoute call.1 call.2.handler call.2.vars <;> rfl

/-- **Attempts at an endpoint are attempts in its columns.** -/
theorem columns_attempts (e : Endpoint H) (calls : List (String × Route H)) :
    (e.attempts calls).columns = e.columns.attempts calls := by
  induction calls generalizing e with
  | nil => rfl
  | cons call calls ih =>
    rw [attempts, Columns.attempts, List.foldl_cons, List.foldl_cons, ← columns_attempt]
    exact ih (e.attempt call)

theorem handler?_columns (e : Endpoint H) (m : String) : e.columns.handler? m = e.route? m :=
  OrderedMap.get?_mapValues _ _ _

theorem varsOf_columns (e : Endpoint H) (m : String) : e.columns.varsOf m = e.vars m := by
  rw [Columns.varsOf, vars, columns, OrderedMap.get?_mapValues]
  cases e.routes.get? (Text.uppercase m) <;> rfl

/-- The two columns of an endpoint have the same methods in the same order. -/
theorem keys_columns (e : Endpoint H) :
    e.columns.handlers.keys = e.methods ∧ e.columns.vars.keys = e.methods :=
  ⟨OrderedMap.keys_mapValues _ _, OrderedMap.keys_mapValues _ _⟩

end Endpoint

end RouteTrie
