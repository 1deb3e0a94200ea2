import RouteTrie.Registration

/-!
# Building a trie

Entries are registered one after the other; the first that cannot be registered ends the work.  A
list of keys can be checked for the same error without a trie, by keeping the pairs of method and
normalized path that are taken.

## What is here

* `build`: the trie of some entries.
* `buildLogged`: the same with its events.
* `check`: the error of `build`, found without building.
* `value_buildLogged`: telling about the work does not change its result.
-/

set_option autoImplicit false

namespace RouteTrie

variable {H : Type}

/-- The trie with one entry more. -/
def Node.addEntry (root : Node H) (entry : String × H) : Except RouteError (Node H) := do
  let r ← Registration.ofKey entry.1
  root.register r entry.2

/-- The trie of some entries. -/
def build (entries : List (String × H)) : Except RouteError (Node H) :=
  entries.foldlM Node.addEntry Node.empty

/-! ## Events -/

/-- Register entries below `root`, which already holds `routes` methods, and tell about it. -/
def buildFrom (root : Node H) (routes : Nat) :
    List (String × H) → Logged (Except RouteError (Node H))
  | [] => ⟨.ok root, [.structureBuilt root.endpoints.length routes]⟩
  | (key, handler) :: rest =>
    match Registration.ofKey key with
    | .error e => ⟨.error e, []⟩
    | .ok r =>
      match root.register r handler with
      | .error e => ⟨.error e, r.warnings⟩
      | .ok root =>
        let next := buildFrom root (routes + r.size) rest
        ⟨next.value, r.warnings ++ r.done :: next.events⟩

/-- The trie of some entries and the events of building it. -/
def buildLogged (entries : List (String × H)) : Logged (Except RouteError (Node H)) :=
  buildFrom Node.empty 0 entries

theorem value_buildFrom (root : Node H) (routes : Nat) (entries : List (String × H)) :
    (buildFrom root routes entries).value = entries.foldlM Node.addEntry root := by
  induction entries generalizing root routes with
  | nil => rfl
  | cons entry rest ih =>
    obtain ⟨key, handler⟩ := entry
    rw [buildFrom, List.foldlM_cons, Node.addEntry]
    cases Registration.ofKey key with
    | error e => rfl
    | ok r =>
      simp only [bind, Except.bind]
      cases root.register r handler with
      | error e => rfl
      | ok root => exact ih root (routes + r.size)

/-- Telling about the work does not change its result. -/
theorem value_buildLogged (entries : List (String × H)) :
    (buildLogged entries).value = build entries :=
  value_buildFrom Node.empty 0 entries

/-! ## Checking -/

/-- Take some pairs of method and path, none of which may be taken already. -/
def takeClaims (taken : List (String × String)) :
    List (String × String) → Except RouteError (List (String × String))
  | [] => .ok taken
  | c :: cs => if c ∈ taken then .error (.duplicateRoute c.1 c.2) else takeClaims (c :: taken) cs

/-- Check keys when some pairs of method and path are taken. -/
def checkFrom (taken : List (String × String)) : List String → Except RouteError Unit
  | [] => .ok ()
  | key :: keys => do
    let r ← Registration.ofKey key
    let taken ← takeClaims taken r.claims
    checkFrom taken keys

/-- The first error that building entries with these keys would meet. -/
def check (keys : List String) : Except RouteError Unit := checkFrom [] keys

end RouteTrie
