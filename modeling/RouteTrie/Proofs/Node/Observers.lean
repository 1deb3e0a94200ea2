import RouteTrie.Proofs.Endpoint.Groups
import RouteTrie.Proofs.Json.Equality
import RouteTrie.Proofs.Node.Equality
import RouteTrie.Proofs.OrderedMap
import RouteTrie.Report

/-!
# Equal tries look the same

Equality of tries ignores the order of children, of methods, of variables and of the fields of JSON
handlers, and lookups, counts and summaries walk through all of these in order.  Still equal tries
give equal answers: a label leads to equal children, and the endpoints that a walk meets can be
paired so that partners are equal.  The tries need not be built from entries; all that is asked of
them is that no branch has two children with one label.

## What is here

* `Node.LabelsDistinct`: the children of every branch are a map.
* `Node.rel_find?_of_beq`: the nodes below some segments.
* `Node.matched_endpoints`: the endpoints, in some order.
* `Summary.Alike`, `matched_summarize`, `Stats.of_eq_of_beq`: summaries and counts.
-/

set_option autoImplicit false

namespace RouteTrie

variable {H : Type}

namespace Node

/-! ## Branches as maps -/

/-- No branch has two children with the same label. -/
inductive LabelsDistinct : Node H → Prop where
  /-- A leaf has no children. -/
  | endpoint (e : Endpoint H) : LabelsDistinct (.endpoint e)
  /-- The labels of a branch are distinct, and so are those below it. -/
  | branch {cs : List (Edge × Node H)} (nodup : (Entries.keys cs).Nodup)
      (below : ∀ k c, (k, c) ∈ cs → LabelsDistinct c) : LabelsDistinct (.branch cs)

namespace LabelsDistinct

theorem nodup_keys {n : Node H} (h : n.LabelsDistinct) : (Entries.keys n.children).Nodup := by
  cases h with
  | endpoint e => exact .nil
  | branch nodup below => exact nodup

theorem of_get? {n c : Node H} (h : n.LabelsDistinct) {k : Edge} (hc : n.get? k = some c) :
    c.LabelsDistinct := by
  cases h with
  | endpoint e => cases hc
  | branch nodup below => exact below k c (Entries.mem_of_get? hc)

theorem pair {k k' : Edge} (hne : k ≠ k') {c c' : Node H} (hc : c.LabelsDistinct)
    (hc' : c'.LabelsDistinct) : (Node.branch [(k, c), (k', c')]).LabelsDistinct :=
  .branch (by simp [hne]) fun a d h => by
    rcases List.mem_cons.1 h with h | h
    · cases h
      exact hc
    · cases List.mem_singleton.1 h
      exact hc'

end LabelsDistinct

/-! ## Lookups -/

variable [BEq H]

/-- Equal nodes are of the same kind, and equal leaves have equal endpoints. -/
theorem rel_asEndpoint?_of_beq {n m : Node H} (h : (n == m) = true) :
    Option.Rel (fun e f => (e == f) = true) n.asEndpoint? m.asEndpoint? := by
  match n, m with
  | endpoint e, endpoint f => exact .some (by rwa [endpoint_beq_endpoint] at h)
  | branch _, branch _ => exact .none
  | endpoint _, branch _ => cases h
  | branch _, endpoint _ => cases h

/-- Equal nodes have equal children under every label. -/
theorem rel_get?_of_beq {n m : Node H} (hn : n.LabelsDistinct) (hm : m.LabelsDistinct)
    (h : (n == m) = true) (k : Edge) :
    Option.Rel (fun c d => (c == d) = true) (n.get? k) (m.get? k) := by
  match n, m with
  | endpoint e, endpoint f => exact .none
  | branch cs, branch ds => exact (branch_beq_iff hn.nodup_keys hm.nodup_keys).1 h k
  | endpoint _, branch _ => cases h
  | branch _, endpoint _ => cases h

theorem rel_descend?_of_beq {n m : Node H} (hn : n.LabelsDistinct) (hm : m.LabelsDistinct)
    (h : (n == m) = true) (ks : List Edge) :
    Option.Rel (fun c d => (c == d) = true) (n.descend? ks) (m.descend? ks) := by
  induction ks generalizing n m with
  | nil => exact .some h
  | cons k ks ih =>
    rw [descend?, descend?]
    exact rel_bind (rel_get?_of_beq hn hm h k) fun c d hc hd hcd =>
      ih (hn.of_get? hc) (hm.of_get? hd) hcd

/-- **Equal nodes have equal nodes below all segments.** -/
theorem rel_find?_of_beq {n m : Node H} (hn : n.LabelsDistinct) (hm : m.LabelsDistinct)
    (h : (n == m) = true) (segments : List Segment) :
    Option.Rel (fun c d => (c == d) = true) (n.find? segments) (m.find? segments) :=
  rel_descend?_of_beq hn hm h (segments.map Edge.ofSegment)

theorem isSome_fallback?_of_beq {n m : Node H} (hn : n.LabelsDistinct) (hm : m.LabelsDistinct)
    (h : (n == m) = true) : n.fallback?.isSome = m.fallback?.isSome :=
  isSome_eq_of_rel (rel_bind (rel_get?_of_beq hn hm h .fallback) fun _ _ _ _ hcd =>
    rel_asEndpoint?_of_beq hcd)

/-! ## Endpoints -/

omit [BEq H] in
/-- What is below the children is below one of them. -/
theorem endpoints_branch (cs : List (Edge × Node H)) :
    (branch cs).endpoints = cs.flatMap fun c => c.2.endpoints := by
  rw [endpoints, endpointsOf_eq_flatMap]

/-- **Equal nodes have the same endpoints**, in some order. -/
theorem matched_endpoints {n m : Node H} (hn : n.LabelsDistinct) (h : (n == m) = true) :
    Matched (fun e f => (e == f) = true) n.endpoints m.endpoints := by
  induction hn generalizing m with
  | endpoint e =>
    cases m with
    | endpoint f =>
      rw [endpoint_beq_endpoint] at h
      exact Matched.nil.cons h
    | branch ds => cases h
  | @branch cs _ _ ih =>
    cases m with
    | endpoint f => cases h
    | branch ds =>
      rw [branch_beq_branch] at h
      rw [endpoints_branch, endpoints_branch]
      -- partners among the children have endpoints that match, so all endpoints match
      refine (Matched.of_rearranged (r := fun p q =>
        Matched (fun e f => (e == f) = true) p.2.endpoints q.2.endpoints)
        (fun p hp q _ hpq => ?_) h).flatMap fun p q hpq => hpq
      exact ih p.1 p.2 hp (Bool.and_eq_true_iff.1 hpq).2

end Node

/-! ## Summaries and counts -/

/-- Summaries that differ in the order of the methods and in the form of the route only. -/
structure Summary.Alike [BEq H] (s s' : Summary H) : Prop where
  /-- The paths are the same. -/
  path : s.path = s'.path
  /-- The methods are the same in some order. -/
  methods : s.methods.Perm s'.methods
  /-- The handlers are equal. -/
  handler : (s.route.handler == s'.route.handler) = true
  /-- The variables are equal. -/
  vars : (s.route.vars == s'.route.vars) = true

variable [BEq H]

/-- Equal endpoints have as many routes. -/
theorem Endpoint.size_eq_of_beq {a b : Endpoint H} (h : (a == b) = true) : a.size = b.size :=
  (matched_entries h).length_eq

variable [EquivBEq H]

theorem Endpoint.matched_summaries {a b : Endpoint H} (h : (a == b) = true) :
    Matched Summary.Alike a.summaries b.summaries := by
  refine (matched_uniqueRoutes h).map fun g g' hg => ?_
  obtain ⟨hhandler, hvars⟩ := Bool.and_eq_true_iff.1 hg.route
  exact ⟨(beq_iff.1 h).1, hg.methods.filter _, hhandler, hvars⟩

/-- **Equal tries have the same summaries**, in some order. -/
theorem matched_summarize {n m : Node H} (hn : n.LabelsDistinct) (h : (n == m) = true) :
    Matched Summary.Alike (summarize n) (summarize m) :=
  (Node.matched_endpoints hn h).flatMap fun _ _ => Endpoint.matched_summaries

/-- **Equal tries have the same counts.** -/
theorem Stats.of_eq_of_beq {n m : Node H} (hn : n.LabelsDistinct) (hm : m.LabelsDistinct)
    (h : (n == m) = true) : Stats.of n = Stats.of m := by
  have hendpoints := Node.matched_endpoints hn h
  have hroutes : (Stats.of n).routes = (Stats.of m).routes := by
    rw [routes_of, routes_of]
    exact (hendpoints.perm_map fun _ _ => Endpoint.size_eq_of_beq).foldr_eq 0
  have hunique : (Stats.of n).uniqueRoutes = (Stats.of m).uniqueRoutes := by
    rw [uniqueRoutes_of, uniqueRoutes_of]
    exact (matched_summarize hn h).length_eq
  rw [Stats.mk.injEq]
  exact ⟨hendpoints.length_eq, hroutes, hunique, Node.isSome_fallback?_of_beq hn hm h⟩

/-- **Equal tries look the same.**  They have the same counts, equal nodes below all segments, and
summaries that can be paired one to one so that partners differ in order and form only. -/
theorem observed_alike_of_beq {n m : Node Json} (hn : n.LabelsDistinct) (hm : m.LabelsDistinct)
    (h : (n == m) = true) :
    Stats.of n = Stats.of m ∧
      (∀ segments, Option.Rel (fun c d => (c == d) = true) (n.find? segments)
        (m.find? segments)) ∧
      Matched Summary.Alike (summarize n) (summarize m) :=
  ⟨Stats.of_eq_of_beq hn hm h, Node.rel_find?_of_beq hn hm h, matched_summarize hn h⟩

/-- Two tries that no build makes, with an endpoint right under a literal text and a branch without
children.  Children, methods and the fields of a handler are in other places. -/
theorem observed_alike_reordered :
    ∃ n m : Node Json,
      n = .branch [(.wildcard, .empty),
        (.literal "a", .endpoint ⟨"/a", .ofList [("GET", ⟨.obj [("x", .int 1), ("y", .null)], ∅⟩),
          ("POST", ⟨.null, ∅⟩)]⟩)] ∧
      m = .branch [(.literal "a", .endpoint ⟨"/a", .ofList [("POST", ⟨.null, ∅⟩),
          ("GET", ⟨.obj [("y", .null), ("x", .int 1)], ∅⟩)]⟩), (.wildcard, .empty)] ∧
      (n == m) = true ∧ Stats.of n = Stats.of m ∧
      (∀ segments, Option.Rel (fun c d => (c == d) = true) (n.find? segments)
        (m.find? segments)) ∧
      Matched Summary.Alike (summarize n) (summarize m) := by
  have hempty : (Node.empty : Node Json).LabelsDistinct := .branch .nil nofun
  refine ⟨_, _, rfl, rfl, ?hbeq, observed_alike_of_beq (.pair (by decide) hempty (.endpoint _))
    (.pair (by decide) (.endpoint _) hempty) ?hbeq⟩
  decide +kernel

end RouteTrie
