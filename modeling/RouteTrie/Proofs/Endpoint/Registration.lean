import RouteTrie.Endpoint
import RouteTrie.Proofs.Entries
import RouteTrie.Proofs.FirstTaken

/-!
# Registering methods at an endpoint

Several methods are registered one after the other, and the first one that is taken, by the endpoint
or by an earlier method of the same list, refuses them all.

## What is here

* `Endpoint.withRoutes_eq_error`: the method that is blamed.
* `Endpoint.withRoutes_eq_ok`: otherwise the methods are appended in their order.
* `Endpoint.attempts`: registrations one after the other, of which some may fail.
-/

set_option autoImplicit false

namespace RouteTrie.Endpoint

variable {H : Type}

theorem withRoute_eq_error {e : Endpoint H} {m : String} (hm : Text.uppercase m ∈ e.methods)
    (h : H) (v : VarMap) :
    e.withRoute m h v = .error (.duplicateRoute (Text.uppercase m) e.path) := by
  rw [withRoute, if_pos (OrderedMap.contains_iff.2 hm)]

theorem withRoute_eq_ok {e : Endpoint H} {m : String} (hm : Text.uppercase m ∉ e.methods)
    (h : H) (v : VarMap) :
    e.withRoute m h v =
      .ok { e with routes := e.routes.insert (Text.uppercase m) ⟨h, v⟩ } := by
  rw [withRoute, if_neg fun hc => hm (OrderedMap.contains_iff.1 hc)]

theorem withRoutes_cons (e : Endpoint H) (m : String) (ms : List String) (h : H) (v : VarMap) :
    e.withRoutes (m :: ms) h v = (e.withRoute m h v).bind fun e' => e'.withRoutes ms h v := rfl

theorem withRoutes_singleton (e : Endpoint H) (m : String) (h : H) (v : VarMap) :
    e.withRoutes [m] h v = e.withRoute m h v := by
  rw [withRoutes_cons]
  cases e.withRoute m h v <;> rfl

/-- The methods of an endpoint with one method more. -/
theorem mem_methods_insert {e : Endpoint H} {M : String} (hM : M ∉ e.methods) (r : Route H)
    (x : String) :
    x ∈ Endpoint.methods { e with routes := e.routes.insert M r } ↔ x ∈ M :: e.methods := by
  have hkeys : (e.routes.insert M r).keys = e.methods ++ [M] :=
    (OrderedMap.keys_insert e.routes M r).trans (if_neg hM)
  rw [methods, hkeys, List.mem_append, List.mem_singleton, List.mem_cons, or_comm]

/-- The first method that is taken is blamed, in upper case. -/
theorem withRoutes_eq_error {e : Endpoint H} {ms : List String} {M : String}
    (hM : firstTaken e.methods (ms.map Text.uppercase) = some M) (h : H) (v : VarMap) :
    e.withRoutes ms h v = .error (.duplicateRoute M e.path) := by
  induction ms generalizing e with
  | nil => cases hM
  | cons m ms ih =>
    rw [List.map_cons, firstTaken] at hM
    rw [withRoutes_cons]
    split at hM
    · rename_i hm
      cases hM
      rw [withRoute_eq_error hm]
      rfl
    · rename_i hm
      rw [withRoute_eq_ok hm]
      refine ih ?_
      rw [firstTaken_congr fun x _ => mem_methods_insert hm _ x, hM]

/-- Methods of which none is taken are appended in their order, all with the same route. -/
theorem withRoutes_eq_ok {e : Endpoint H} {ms : List String}
    (hms : firstTaken e.methods (ms.map Text.uppercase) = none) (h : H) (v : VarMap) :
    ∃ e', e.withRoutes ms h v = .ok e' ∧ e'.path = e.path ∧
      e'.routes.entries = e.routes.entries ++ ms.map fun m => (Text.uppercase m, ⟨h, v⟩) := by
  induction ms generalizing e with
  | nil => exact ⟨e, rfl, rfl, by simp⟩
  | cons m ms ih =>
    rw [List.map_cons, firstTaken] at hms
    split at hms
    · cases hms
    · rename_i hm
      obtain ⟨e', he', hpath, hroutes⟩ :=
        ih (e := { e with routes := e.routes.insert (Text.uppercase m) ⟨h, v⟩ })
          (by rw [firstTaken_congr fun x _ => mem_methods_insert hm _ x, hms])
      refine ⟨e', ?_, hpath, ?_⟩
      · rw [withRoutes_cons, withRoute_eq_ok hm]
        exact he'
      · rw [hroutes, OrderedMap.entries_insert hm, List.append_assoc]
        rfl

/-! ## Attempts -/

/-- The endpoint after an attempt to register a method, which a method that is taken leaves as it
was. -/
def attempt (e : Endpoint H) (call : String × Route H) : Endpoint H :=
  match e.withRoute call.1 call.2.handler call.2.vars with
  | .ok e' => e'
  | .error _ => e

/-- The endpoint after some attempts, one after the other. -/
def attempts (e : Endpoint H) (calls : List (String × Route H)) : Endpoint H :=
  calls.foldl attempt e

end RouteTrie.Endpoint
