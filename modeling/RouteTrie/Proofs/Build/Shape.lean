import Mathlib.Data.List.Nodup
import RouteTrie.Proofs.Build.Blocked
import RouteTrie.Proofs.Build.Order
import RouteTrie.Proofs.Endpoint.Columns
import RouteTrie.Proofs.Key.Method
import RouteTrie.Proofs.Path.Literal

/-!
# The shape of a trie that was built

Tries could have many shapes that building never gives them: endpoints below segments, branches in
the place of endpoints, fallbacks below the root, endpoints without routes.  `Node.WellShaped` says
which shape they have, node by node.

## What is here

* `Endpoint.Sound`, `Node.WellShaped`: the shape of endpoints and of tries.
* `wellShaped_of_build`: a trie that was built has this shape.
* `nodup_paths_of_build`: its endpoints have different paths.
* `columns_of_build`: handlers and variables of its endpoints, as two maps would hold them.
* `shape_build`: all of this together, and that building never meets a leaf.
-/

set_option autoImplicit false

namespace RouteTrie

variable {H : Type}

/-- What all endpoints have in common. -/
structure Endpoint.Sound (e : Endpoint H) : Prop where
  /-- There is a route. -/
  methods_ne_nil : e.methods ≠ []
  /-- Methods are in upper case. -/
  uppercase : ∀ M ∈ e.methods, Text.uppercase M = M

namespace Node

/-- The shape of the node below some segments. -/
inductive WellShaped : List Segment → Node H → Prop where
  /-- The node is a branch and its children are as their labels say. -/
  | branch {s : List Segment} {cs : List (Edge × Node H)}
      (nodup : (Entries.keys cs).Nodup)
      (literal : ∀ (text : String) (c : Node H), (.literal text, c) ∈ cs →
        Segment.LiteralText text)
      (full : ∀ (a : Segment) (c : Node H), (.ofSegment a, c) ∈ cs → c.children ≠ [])
      (below : ∀ (a : Segment) (c : Node H), (.ofSegment a, c) ∈ cs → WellShaped (s ++ [a]) c)
      (terminal : ∀ c, (.terminal, c) ∈ cs → ∃ e, c = endpoint e ∧ e.Sound ∧
        fallbackMethod ∉ e.methods ∧ e.path = Path.slashed (s.map Segment.text))
      (fallback : ∀ c, (.fallback, c) ∈ cs → s = [] ∧ ∃ e, c = endpoint e ∧ e.Sound ∧ e.path = "") :
      WellShaped s (branch cs)

end Node

variable {entries : List (String × H)} {root : Node H}

/-! ## Endpoints -/

theorem mem_entryMethods {p : Place} {entry : String × H} {M : String} :
    M ∈ entryMethods p entry ↔ ∃ r, Registration.ofKey entry.1 = .ok r ∧ r.place = p ∧
      ∃ m ∈ r.methods, Text.uppercase m = M := by
  rw [entryMethods]
  cases Registration.ofKey entry.1 with
  | error e => simp
  | ok r => by_cases hp : r.place = p <;> simp [hp]

/-- A method of an endpoint comes from an entry that leads to its place. -/
theorem exists_registration_of_mem_methods (h : build entries = .ok root) {p : Place}
    {e : Endpoint H} (he : root.at? p = some e) {M : String} (hM : M ∈ e.methods) :
    ∃ entry ∈ entries, ∃ r, Registration.ofKey entry.1 = .ok r ∧ r.place = p ∧
      ∃ m ∈ r.methods, Text.uppercase m = M := by
  rw [methods_eq_of_build h he, List.mem_flatMap] at hM
  obtain ⟨entry, hmem, hM⟩ := hM
  exact ⟨entry, hmem, mem_entryMethods.1 hM⟩

theorem methods_ne_nil_of_build (h : build entries = .ok root) {p : Place} {e : Endpoint H}
    (he : root.at? p = some e) : e.methods ≠ [] := by
  have hroot := Node.Holds.of_build h
  rw [Endpoint.methods, OrderedMap.keys, hroot.routes_eq p e he, Entries.keys, Ne,
    List.map_eq_nil_iff]
  exact hroot.routesAt_ne_nil he

/-- An endpoint stands at a place that keys lead to. -/
theorem readable_of_at? (h : build entries = .ok root) {p : Place} {e : Endpoint H}
    (he : root.at? p = some e) : p.Readable := by
  obtain ⟨M, hM⟩ := List.exists_mem_of_ne_nil _ (methods_ne_nil_of_build h he)
  obtain ⟨entry, -, r, hr, rfl, -⟩ := exists_registration_of_mem_methods h he hM
  exact (Registration.readable_of_ofKey hr).place

theorem sound_of_build (h : build entries = .ok root) {p : Place} {e : Endpoint H}
    (he : root.at? p = some e) : e.Sound := by
  refine ⟨methods_ne_nil_of_build h he, fun M hM => ?_⟩
  obtain ⟨entry, -, r, hr, -, m, hm, rfl⟩ := exists_registration_of_mem_methods h he hM
  cases r with
  | fallback =>
    rw [List.mem_singleton.1 hm]
    rfl
  | route methods written path =>
    have hkey := (Registration.ofKey_eq_route_iff.1 hr).1
    exact (RouteKey.isMethodWord_of_parse hkey m hm).uppercase_uppercase

/-- The methods of a path are those of keys, in upper case. -/
theorem isMethodWord_of_build (h : build entries = .ok root) {s : List Segment} {e : Endpoint H}
    (he : root.at? (.path s) = some e) : ∀ M ∈ e.methods, RouteKey.IsMethodWord M := by
  intro M hM
  obtain ⟨entry, -, r, hr, hplace, m, hm, rfl⟩ := exists_registration_of_mem_methods h he hM
  cases r with
  | fallback => cases hplace
  | route methods written path =>
    have hkey := (Registration.ofKey_eq_route_iff.1 hr).1
    exact (RouteKey.isMethodWord_of_parse hkey m hm).uppercase

/-- The fallback method is no method of a path. -/
theorem fallbackMethod_not_mem (h : build entries = .ok root) {s : List Segment} {e : Endpoint H}
    (he : root.at? (.path s) = some e) : fallbackMethod ∉ e.methods := fun hM =>
  (isMethodWord_of_build h he _ hM).1 rfl

/-! ## Literals -/

/-- The literals on the way to a place have texts of literals. -/
theorem literalText_of_mem_places {p : Place} (hp : p ∈ places entries) {text : String}
    (ht : .literal text ∈ p.segments) : Segment.LiteralText text := by
  obtain ⟨entry, -, r, hr, rfl⟩ := mem_places.1 hp
  cases r with
  | fallback => cases ht
  | route methods written path =>
    obtain ⟨hkey, hpath⟩ := Registration.ofKey_eq_route_iff.1 hr
    exact RouteKey.literalText_of_parse hkey hpath ht

theorem literalText_of_find? (h : build entries = .ok root) {s : List Segment} {text : String}
    {c : Node H} (hc : root.find? (s ++ [.literal text]) = some c) : Segment.LiteralText text := by
  rcases (isSome_find?_build h _).1 (by rw [hc]; rfl) with hnil | ⟨p, hp, hway⟩
  · simp at hnil
  · exact literalText_of_mem_places hp (hway.subset (by simp))

/-! ## The shape -/

/-- What stands below some segments of a trie that was built has the shape for these segments. -/
theorem wellShaped_of_find? (h : build entries = .ok root) {c : Node H} (htrim : c.Trim)
    {s : List Segment} (hc : root.find? s = some c) : c.WellShaped s := by
  induction htrim generalizing s with
  | @branch cs nodup leaf full limb ih =>
    have htrim : (Node.branch cs).Trim := .branch nodup leaf full limb
    have hfind : ∀ a d, (Edge.ofSegment a, d) ∈ cs → root.find? (s ++ [a]) = some d := by
      intro a d hmem
      rw [Node.find?_concat, hc]
      exact htrim.mem_children_iff.1 hmem
    -- a child under the label of an endpoint is the endpoint of its place in the whole trie
    have hleaf : ∀ p : Place, p.segments = s → ∀ d, (p.edge, d) ∈ cs →
        ∃ e, d = Node.endpoint e ∧ root.at? p = some e := by
      rintro p rfl d hmem
      obtain ⟨e, rfl⟩ := leaf p d hmem
      refine ⟨e, rfl, ?_⟩
      rw [Node.at?, Node.endpointBelow?_of_find? hc, Node.endpointAt?,
        htrim.mem_children_iff.1 hmem]
      rfl
    refine .branch nodup (fun text d hmem => ?_) full (fun a d hmem => ?_) (fun d hmem => ?_)
      fun d hmem => ?_
    · exact literalText_of_find? h (hfind (.literal text) d hmem)
    · exact ih a d hmem (hfind a d hmem)
    · obtain ⟨e, rfl, he⟩ := hleaf (.path s) rfl d hmem
      exact ⟨e, rfl, sound_of_build h he, fallbackMethod_not_mem h he,
        (Node.Holds.of_build h).path_eq _ e he⟩
    · obtain ⟨e, rfl, he⟩ := hleaf (.fallback s) rfl d hmem
      exact ⟨readable_of_at? h he, e, rfl, sound_of_build h he,
        (Node.Holds.of_build h).path_eq _ e he⟩

/-- **A trie that was built is well shaped.** -/
theorem wellShaped_of_build (h : build entries = .ok root) : root.WellShaped [] :=
  wellShaped_of_find? h (trim_of_build h) (Node.find?_nil root)

/-! ## Paths -/

theorem map_path_endpoints (h : build entries = .ok root) :
    root.endpoints.map Endpoint.path = (walk (places entries)).map Place.text := by
  have hwalk := map_endpoints_build h
  have hpath : ∀ p ∈ walk (places entries), (root.at? p).map Endpoint.path = some p.text := by
    intro p hp
    have hmem : root.at? p ∈ root.endpoints.map some := hwalk ▸ List.mem_map_of_mem hp
    obtain ⟨e, -, he⟩ := List.mem_map.1 hmem
    rw [← he, Option.map_some, (Node.Holds.of_build h).path_eq p e he.symm]
  have hsome : (root.endpoints.map Endpoint.path).map some =
      ((walk (places entries)).map Place.text).map some := by
    have hmap := congrArg (List.map (Option.map Endpoint.path)) hwalk
    rw [List.map_map, List.map_map] at hmap
    rw [List.map_map, List.map_map]
    exact hmap.trans (List.map_congr_left hpath)
  exact (List.map_injective_iff.2 fun _ _ => Option.some_inj.1) hsome

/-- **The endpoints of a trie that was built have different paths.** -/
theorem nodup_paths_of_build (h : build entries = .ok root) :
    (root.endpoints.map Endpoint.path).Nodup := by
  have hread : ∀ p ∈ walk (places entries), p.Readable := by
    intro p hp
    have hmem : root.at? p ∈ root.endpoints.map some :=
      map_endpoints_build h ▸ List.mem_map_of_mem hp
    obtain ⟨e, -, he⟩ := List.mem_map.1 hmem
    exact readable_of_at? h he.symm
  rw [map_path_endpoints h]
  exact (nodup_walkFrom _ _ _).map_on fun p hp q hq => Place.text_inj (hread p hp) (hread q hq)

/-! ## Columns -/

/-- Columns after an entry, which they register if it leads to their place. -/
def Columns.addEntry (p : Place) (c : Columns H) (entry : String × H) :
    Except RouteError (Columns H) :=
  match Registration.ofKey entry.1 with
  | .error e => .error e
  | .ok r => if r.place = p then c.withRoutes r.methods entry.2 r.vars else .ok c

/-- The columns of an endpoint are what the entries register at its place. -/
theorem columns_of_build (h : build entries = .ok root) (p : Place) :
    entries.foldlM (Columns.addEntry p) (Columns.new p.text) =
      .ok ((root.at? p).getD (Endpoint.new p.text)).columns := by
  refine build_induction (motive := fun entries root =>
    entries.foldlM (Columns.addEntry p) (Columns.new p.text) =
      .ok ((root.at? p).getD (Endpoint.new p.text)).columns) ?_ ?_ h
  · rw [Node.at?_empty]
    rfl
  · intro before entry root r e _ ih hr he
    rw [List.foldlM_append, ih]
    simp only [bind, Except.bind, List.foldlM_cons, List.foldlM_nil, Columns.addEntry, hr,
      Node.at?_put]
    by_cases hp : r.place = p
    · subst hp
      rw [if_pos rfl, if_pos rfl, ← Endpoint.columns_withRoutes, he]
      rfl
    · rw [if_neg hp, if_neg hp]
      rfl

/-! ## All together -/

/-- **The shape of a trie that was built.**  It is well shaped, its endpoints have different paths,
segments lead to branches only, and an endpoint that is kept in two maps has the same methods in
both.  Building meets no leaf on its way, whatever the entries are. -/
theorem shape_build (entries : List (String × H)) :
    (∀ root, build entries = .ok root →
      root.WellShaped [] ∧ (root.endpoints.map Endpoint.path).Nodup ∧
      (∀ s c, root.find? s = some c → ∃ cs, c = .branch cs) ∧
      ∀ p e, root.at? p = some e →
        entries.foldlM (Columns.addEntry p) (Columns.new p.text) = .ok e.columns ∧
        e.columns.handlers.keys = e.methods ∧ e.columns.vars.keys = e.methods) ∧
    buildBranches? Node.empty entries = some (build entries) := by
  refine ⟨fun root h => ⟨wellShaped_of_build h, nodup_paths_of_build h, fun s c hc => ?_,
    fun p e he => ⟨?_, e.keys_columns⟩⟩, Node.Trim.empty.buildBranches?_eq entries⟩
  · exact ((trim_of_build h).of_find? hc).1.eq_branch
  · rw [columns_of_build h p, he, Option.getD_some]

/-- A trie with a variable, a shared prefix and a fallback. -/
theorem shape_build_users :
    ∃ root, build [("GET /users/{id}", 1), ("default", 2), ("put|get /users", 3)] = .ok root ∧
      root.WellShaped [] ∧ (root.endpoints.map Endpoint.path).Nodup := by
  obtain ⟨root, h⟩ :
      ∃ root, build [("GET /users/{id}", 1), ("default", 2), ("put|get /users", 3)] = .ok root :=
    ⟨_, rfl⟩
  obtain ⟨hshape, hpaths, -⟩ := (shape_build _).1 root h
  exact ⟨root, h, hshape, hpaths⟩

end RouteTrie
