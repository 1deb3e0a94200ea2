import RouteTrie.Proofs.Build.Binding
import RouteTrie.Proofs.Path.Literal

/-!
# The methods of a key one by one

A key with several methods is entered by one write of its endpoint.  To enter a key for each of its
methods instead, in their order and with the same path and handler, is to write the same endpoint
again and again.  Each of these writes starts from what the one before has left, so the last of them
leaves the trie of the single write, and the first method that is taken is the same.

## What is here

* `Node.register_cons`: the first method of a registration, and then the others.
* `Node.foldlM_addEntry_methods`: an entry is entered like the entries of its methods.
* `build_one_by_one`: nothing is changed by this in a list of entries, whatever stands around it.
-/

set_option autoImplicit false

namespace RouteTrie

variable {H : Type}

namespace Node

/-- A registration of some methods is one of the first and then one of the others. -/
theorem register_cons (root : Node H) (m : String) (ms : List String) (written : String)
    (path : Path) (handler : H) :
    root.register (.route (m :: ms) written path) handler =
      root.register (.route [m] written path) handler >>= fun next =>
        next.register (.route ms written path) handler := by
  simp only [register_eq, Registration.methods, Registration.vars, Registration.place]
  rw [Endpoint.withRoutes_singleton, Endpoint.withRoutes_cons]
  cases ((root.at? (.path path.segments)).getD
      (Endpoint.new (Place.path path.segments).text)).withRoute m handler path.vars with
  | error err => rfl
  | ok e =>
    -- the others start from the endpoint with the first method, and overwrite it
    have hstart : (root.put (.path path.segments) e).at? (.path path.segments) = some e := by
      rw [at?_put, if_pos rfl]
    simp only [Except.bind, Except.map, bind]
    rw [hstart, Option.getD_some]
    cases e.withRoutes ms handler path.vars with
    | error err => rfl
    | ok e' => exact congrArg Except.ok (put_put root _ e e').symm

/-- An entry whose key is understood is registered. -/
theorem addEntry_of_ofKey (root : Node H) {entry : String × H} {r : Registration}
    (h : Registration.ofKey entry.1 = .ok r) : root.addEntry entry = root.register r entry.2 := by
  rw [addEntry, h]
  rfl

/-- To enter the keys of some methods on a path, one after the other, is one registration of these
methods. -/
theorem foldlM_addEntry_methods (root : Node H) {methods : List String} (hne : methods ≠ [])
    {written : String} {path : Path} (hkeys : ∀ m ∈ methods,
      Registration.ofKey (m ++ " " ++ written) = .ok (.route [m] written path)) (handler : H) :
    (methods.map fun m => (m ++ " " ++ written, handler)).foldlM Node.addEntry root =
      root.register (.route methods written path) handler := by
  induction methods generalizing root with
  | nil => exact absurd rfl hne
  | cons m ms ih =>
    rw [List.forall_mem_cons] at hkeys
    rw [List.map_cons, List.foldlM_cons, addEntry_of_ofKey root hkeys.1]
    cases ms with
    | nil => exact bind_pure _
    | cons m' ms =>
      rw [register_cons root m (m' :: ms)]
      exact bind_congr fun next => ih next (List.cons_ne_nil m' ms) hkeys.2

end Node

/-- **A key with several methods is the same as its methods one by one.**  Wherever an entry with
such a key stands, it can be replaced by one entry for each of its methods, in their order and with
the same path and handler: building then leads to the same trie, down to the order of all children
and methods, or stops with the same error. -/
theorem build_one_by_one {key path : String} {methods : List String}
    (hkey : RouteKey.parse key = .ok (.route methods path)) (before after : List (String × H))
    (handler : H) :
    build (before ++ methods.map (fun m => (m ++ " " ++ path, handler)) ++ after) =
      build (before ++ (key, handler) :: after) := by
  obtain ⟨parsed, hparsed⟩ := Path.parse_eq_ok (RouteKey.head?_of_parse hkey)
  have hkeys : ∀ m ∈ methods,
      Registration.ofKey (m ++ " " ++ path) = .ok (.route [m] path parsed) := by
    intro m hm
    rw [← RouteKey.render_singleton]
    refine Registration.ofKey_eq_route_iff.2 ⟨?_, hparsed⟩
    refine RouteKey.parse_render_eq_ok (List.cons_ne_nil m []) ?_ (RouteKey.head?_of_parse hkey)
      (RouteKey.not_isBlank_of_parse hkey)
    exact List.forall_mem_singleton.2 (RouteKey.isMethodWord_of_parse hkey m hm)
  have hofKey := Registration.ofKey_eq_route_iff.2 ⟨hkey, hparsed⟩
  simp only [build, List.foldlM_append, List.foldlM_cons, bind_assoc]
  refine bind_congr fun root => ?_
  rw [Node.foldlM_addEntry_methods root (RouteKey.methods_ne_nil_of_parse hkey) hkeys handler,
    Node.addEntry_of_ofKey root hofKey]

/-- A method that is repeated in another case, behind an entry on the same path and before one that
cannot be read. -/
theorem build_one_by_one_repeated :
    build ([("PUT /users/{id}", 1)] ++ [("get /users/:id", 2), ("POST /users/:id", 2),
        ("Get /users/:id", 2)] ++ [("/users", 3)]) =
      build [("PUT /users/{id}", 1), ("  get|POST|Get \t/users/:id", 2), ("/users", 3)] ∧
    (build [("PUT /users/{id}", 1), ("  get|POST|Get \t/users/:id", 2), ("/users", 3)]).map
      (fun _ => ()) = .error (.duplicateRoute "GET" "/users/*") := by
  have hkey : RouteKey.parse "  get|POST|Get \t/users/:id" =
      .ok (.route ["get", "POST", "Get"] "/users/:id") := rfl
  refine ⟨build_one_by_one hkey [("PUT /users/{id}", 1)] [("/users", 3)] 2, ?_⟩
  decide +kernel

end RouteTrie
