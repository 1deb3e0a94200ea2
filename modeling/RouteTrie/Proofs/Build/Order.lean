import RouteTrie.Proofs.Build.Growth

/-!
# The order of everything that is read off a trie

Everything that lists the endpoints of a trie lists them depth first, and every endpoint lists its
methods.  Both orders are those in which the entries ask for things: at each node the children stand
in the order in which the entries first go there, and the methods of a path in the order of the
entries.

## What is here

* `walkFrom`, `walk`: the depth-first walk over some places.
* `nodup_walkFrom`: the walk comes to every place once.
* `Node.Trim.endpoints_eq`, `Node.Trim.mem_endpoints_iff`: the endpoints of a trie, label by label
  and place by place.
* `map_endpoints_build`: the endpoints of the trie of some entries stand at the places of the walk.
* `entryMethods`, `methods_eq_of_build`: the methods of an endpoint.
* `order_build`: all of this together.
-/

set_option autoImplicit false

namespace RouteTrie

variable {H : Type}

/-! ## The walk -/

/-- The walk behind a label of the node below some segments, where `walk` is the walk from any
segments on. -/
def walkBehind (walk : List Segment → List Place) (s : List Segment) : Edge → List Place
  | .literal text => walk (s ++ [.literal text])
  | .wildcard => walk (s ++ [.wildcard])
  | .terminal => [.path s]
  | .fallback => [.fallback s]

/-- The depth-first walk over the places below some segments, as far as `depth` segments further.
At every node the labels are taken in the order of their first appearance. -/
def walkFrom (ps : List Place) : Nat → List Segment → List Place
  | 0, _ => []
  | depth + 1, s => (labelsAt ps s).flatMap (walkBehind (walkFrom ps depth) s)

/-- The length of the longest way to a place. -/
def depthOf (ps : List Place) : Nat := ps.foldr (fun p depth => max p.segments.length depth) 0

/-- The depth-first walk over some places. -/
def walk (ps : List Place) : List Place := walkFrom ps (depthOf ps + 1) []

theorem walkBehind_ofSegment (walk : List Segment → List Place) (s : List Segment) (a : Segment) :
    walkBehind walk s (.ofSegment a) = walk (s ++ [a]) := by
  cases a <;> rfl

theorem length_le_depthOf {ps : List Place} {p : Place} (h : p ∈ ps) :
    p.segments.length ≤ depthOf ps := by
  induction ps with
  | nil => cases h
  | cons q ps ih =>
    rw [depthOf, List.foldr_cons]
    rcases List.mem_cons.1 h with rfl | h
    · exact Nat.le_max_left _ _
    · exact Nat.le_trans (ih h) (Nat.le_max_right _ _)

/-- The walk stays below its segments. -/
theorem prefix_of_mem_walkFrom {ps : List Place} {depth : Nat} {s : List Segment} {p : Place}
    (h : p ∈ walkFrom ps depth s) : s <+: p.segments := by
  induction depth generalizing s with
  | zero => cases h
  | succ depth ih =>
    obtain ⟨k, -, hp⟩ := List.mem_flatMap.1 h
    cases k with
    | literal text => exact (List.prefix_append s _).trans (ih hp)
    | wildcard => exact (List.prefix_append s _).trans (ih hp)
    | terminal => rw [List.mem_singleton.1 hp]; exact List.prefix_refl s
    | fallback => rw [List.mem_singleton.1 hp]; exact List.prefix_refl s

/-- The way to a place that the walk finds behind a label goes on by this label. -/
theorem edgeAt?_of_mem_walkBehind {ps : List Place} {depth : Nat} {s : List Segment} {k : Edge}
    {p : Place} (h : p ∈ walkBehind (walkFrom ps depth) s k) : p.edgeAt? s = some k := by
  cases k with
  | literal text => exact Place.edgeAt?_of_concat_prefix (prefix_of_mem_walkFrom h)
  | wildcard => exact Place.edgeAt?_of_concat_prefix (prefix_of_mem_walkFrom h)
  | terminal => rw [List.mem_singleton.1 h]; exact Place.edgeAt?_self (.path s)
  | fallback => rw [List.mem_singleton.1 h]; exact Place.edgeAt?_self (.fallback s)

/-- The walk comes to every place once. -/
theorem nodup_walkFrom (ps : List Place) (depth : Nat) (s : List Segment) :
    (walkFrom ps depth s).Nodup := by
  induction depth generalizing s with
  | zero => exact List.nodup_nil
  | succ depth ih =>
    refine List.pairwise_flatMap.2 ⟨fun k _ => ?_, (nodup_labelsAt ps s).imp fun {k k'} hkk' => ?_⟩
    · cases k with
      | literal text => exact ih _
      | wildcard => exact ih _
      | terminal => exact List.pairwise_singleton _ _
      | fallback => exact List.pairwise_singleton _ _
    · -- behind different labels there are different places, since their ways part here
      rintro p hp q hq rfl
      have hk := edgeAt?_of_mem_walkBehind hp
      rw [edgeAt?_of_mem_walkBehind hq] at hk
      exact hkk' (Option.some_inj.1 hk).symm

/-! ## The endpoints of a trie -/

namespace Node

/-- The endpoints of a trie, label by label. -/
theorem Trim.endpoints_eq {n : Node H} (h : n.Trim) :
    n.endpoints = n.labels.flatMap fun k => ((n.get? k).map endpoints).getD [] := by
  obtain ⟨cs, rfl⟩ := h.eq_branch
  rw [endpoints, endpointsOf_eq_flatMap, labels, Entries.keys, children, List.flatMap_map,
    List.flatMap_def, List.flatMap_def]
  congr 1
  refine List.map_congr_left fun c hc => ?_
  rw [h.mem_children_iff.1 (show (c.1, c.2) ∈ (Node.branch cs).children from hc)]
  rfl

/-- The endpoints of a trie are those at its places. -/
theorem Trim.mem_endpoints_iff {n : Node H} (h : n.Trim) {e : Endpoint H} :
    e ∈ n.endpoints ↔ ∃ p, n.at? p = some e := by
  induction h with
  | @branch cs nodup leaf full limb ih =>
    have htrim : (Node.branch cs).Trim := .branch nodup leaf full limb
    rw [endpoints, endpointsOf_eq_flatMap, List.mem_flatMap]
    constructor
    · rintro ⟨⟨k, c⟩, hmem, he⟩
      have hget : (Node.branch cs).get? k = some c := htrim.mem_children_iff.1 hmem
      rcases k.eq_ofSegment_or_edge with ⟨s, rfl⟩ | ⟨p, hp, rfl⟩
      · obtain ⟨p, hp⟩ := (ih s c hmem).1 he
        refine ⟨p.cons s, ?_⟩
        rw [at?_cons, hget]
        exact hp
      · obtain ⟨e', rfl⟩ := leaf p c hmem
        rw [List.mem_singleton.1 he]
        refine ⟨p, ?_⟩
        rw [at?, hp, endpointBelow?_nil, endpointAt?, hget]
        rfl
    · rintro ⟨p, hp⟩
      rcases p.segments_eq_nil_or_eq_cons with hnil | ⟨s, q, rfl⟩
      · have hget := htrim.get?_edge hnil
        rw [hp] at hget
        exact ⟨_, htrim.mem_children_iff.2 hget, List.mem_singleton_self e⟩
      · rw [at?_cons, Option.bind_eq_some_iff] at hp
        obtain ⟨c, hc, hq⟩ := hp
        have hmem := htrim.mem_children_iff.2 hc
        exact ⟨_, hmem, (ih s c hmem).2 ⟨q, hq⟩⟩

/-- A trie whose labels stand in the order of first appearance has its endpoints in the order of the
walk. -/
theorem Trim.map_endpoints_eq {root : Node H} (htrim : root.Trim) {ps : List Place}
    (hedges : ∀ s, root.edges s = labelsAt ps s) {depth : Nat} {s : List Segment} {c : Node H}
    (hc : root.find? s = some c) (hdepth : ∀ p ∈ ps, p.segments.length < s.length + depth) :
    c.endpoints.map some = (walkFrom ps depth s).map root.at? := by
  induction depth generalizing s c with
  | zero =>
    have hlabels : c.labels = [] := by
      rw [← edges_of_find? hc, hedges, List.eq_nil_iff_forall_not_mem]
      intro k hk
      obtain ⟨p, hp, hpk⟩ := mem_labelsAt.1 hk
      have hlen := (Place.isSome_edgeAt?_iff.1 (by rw [hpk]; rfl)).length_le
      exact absurd (hdepth p hp) (Nat.not_lt.2 hlen)
    rw [(htrim.of_find? hc).1.endpoints_eq, hlabels]
    rfl
  | succ depth ih =>
    have hctrim := (htrim.of_find? hc).1
    rw [hctrim.endpoints_eq, walkFrom, ← hedges, edges_of_find? hc, List.map_flatMap,
      List.map_flatMap, List.flatMap_def, List.flatMap_def]
    congr 1
    refine List.map_congr_left fun k hk => ?_
    obtain ⟨d, hd⟩ := exists_get?_of_mem_labels hk
    rw [hd]
    rcases k.eq_ofSegment_or_edge with ⟨a, rfl⟩ | ⟨p, hp, rfl⟩
    · have hfind : root.find? (s ++ [a]) = some d := by
        rw [find?_concat, hc]
        exact hd
      rw [walkBehind_ofSegment]
      refine ih hfind fun p hp => ?_
      have := hdepth p hp
      simp only [List.length_append, List.length_singleton]
      omega
    · obtain ⟨e, rfl⟩ := hctrim.leaf_of_get? hd
      have hat : root.endpointBelow? s p.edge = some e := by
        rw [endpointBelow?_of_find? hc, endpointAt?, hd]
        rfl
      cases p with
      | path _ => exact congrArg (fun o => [o]) hat.symm
      | fallback _ => exact congrArg (fun o => [o]) hat.symm

end Node

/-! ## The trie of some entries -/

variable {entries : List (String × H)} {root : Node H}

/-- **The endpoints of a trie stand in the order of the walk** over the places of the entries. -/
theorem map_endpoints_build (h : build entries = .ok root) :
    root.endpoints.map some = (walk (places entries)).map root.at? := by
  refine (trim_of_build h).map_endpoints_eq (edges_build h) (Node.find?_nil root) fun p hp => ?_
  have := length_le_depthOf hp
  simp only [List.length_nil]
  omega

/-- The methods in upper case that an entry registers at a place. -/
def entryMethods (p : Place) (entry : String × H) : List String :=
  match Registration.ofKey entry.1 with
  | .ok r => if r.place = p then r.methods.map Text.uppercase else []
  | .error _ => []

theorem keys_routesAt_entryBindings (p : Place) (entry : String × H) :
    Entries.keys (routesAt p (entryBindings entry)) = entryMethods p entry := by
  rw [entryBindings, entryMethods]
  cases Registration.ofKey entry.1 with
  | error e => rfl
  | ok r =>
    by_cases hp : r.place = p
    · subst hp
      simp [routesAt_bindings_self, Entries.keys, Function.comp_def]
    · simp [routesAt_bindings_of_ne hp, hp]

/-- An endpoint has the methods of the entries that lead to its place, in their order. -/
theorem methods_eq_of_build (h : build entries = .ok root) {p : Place} {e : Endpoint H}
    (he : root.at? p = some e) : e.methods = entries.flatMap (entryMethods p) := by
  rw [Endpoint.methods, OrderedMap.keys, (Node.Holds.of_build h).routes_eq p e he, bindings,
    routesAt, List.filterMap_flatMap, Entries.keys, List.map_flatMap]
  congr 1
  exact funext fun entry => keys_routesAt_entryBindings p entry

theorem exists_mem_places_iff {s : List Segment} :
    (s = [] ∨ ∃ p ∈ places entries, s <+: p.segments) ↔
      s = [] ∨ ∃ entry ∈ entries, ∃ methods written path,
        Registration.ofKey entry.1 = .ok (.route methods written path) ∧ s <+: path.segments := by
  refine or_congr_right' fun hs => ?_
  constructor
  · rintro ⟨p, hp, hway⟩
    obtain ⟨entry, hmem, r, hr, rfl⟩ := mem_places.1 hp
    cases r with
    | fallback => exact absurd (List.prefix_nil.1 hway) hs
    | route methods written path => exact ⟨entry, hmem, methods, written, path, hr, hway⟩
  · rintro ⟨entry, hmem, methods, written, path, hr, hway⟩
    exact ⟨.path path.segments, mem_places.2 ⟨entry, hmem, _, hr, rfl⟩, hway⟩

/-- **The order in a trie is that of first appearance.**  The nodes are those on the ways to the
paths of the entries; at each of them the labels stand in the order in which the entries first need
them, and the methods of a path in the order of the entries; the endpoints of the trie stand in the
order of the depth-first walk along these labels. -/
theorem order_build (hb : build entries = .ok root) :
    (∀ s : List Segment,
      ((root.find? s).isSome = true ↔ s = [] ∨ ∃ entry ∈ entries, ∃ methods written path,
        Registration.ofKey entry.1 = .ok (.route methods written path) ∧ s <+: path.segments) ∧
      ∀ c, root.find? s = some c →
        Entries.keys c.children = labelsAt (places entries) s ∧
        ∀ e, c.endpoint? = some e → e.methods = entries.flatMap (entryMethods (.path s))) ∧
    root.endpoints.map some = (walk (places entries)).map root.at? := by
  refine ⟨fun s => ⟨(isSome_find?_build hb s).trans exists_mem_places_iff, fun c hc => ⟨?_, ?_⟩⟩,
    map_endpoints_build hb⟩
  · rw [← edges_build hb, Node.edges_of_find? hc, Node.labels]
  · intro e he
    refine methods_eq_of_build hb ?_
    rw [Node.at?_path, hc]
    exact he

/-- The first entry below `/a` opens the branch, so what the last entry adds to it comes before
`/b`. -/
theorem order_build_interleaved :
    ∃ root, build [("GET /a/x", 1), ("GET /b", 2), ("put|GET /a/:id", 3)] = .ok root ∧
      root.endpoints.map some = [root.at? (.path [.literal "a", .literal "x"]),
        root.at? (.path [.literal "a", .wildcard]), root.at? (.path [.literal "b"])] := by
  obtain ⟨root, hb⟩ :
      ∃ root, build [("GET /a/x", 1), ("GET /b", 2), ("put|GET /a/:id", 3)] = .ok root := ⟨_, rfl⟩
  refine ⟨root, hb, ?_⟩
  rw [(order_build hb).2]
  rfl

end RouteTrie
