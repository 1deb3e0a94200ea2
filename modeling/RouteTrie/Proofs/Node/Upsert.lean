import RouteTrie.Node
import RouteTrie.Proofs.Entries

/-!
# Places in the trie, and what a write does to them

An endpoint stands at a `Place`: below some segments, either as the endpoint of the path that ends
there or as a fallback endpoint.  `Node.upsertEndpoint` is one read and one write of such a place,
and a write changes its own place only.  This is all that the theory of building needs to know about
the way in which a branch is taken out of its parent and put back.

## What is here

* `Place`, `Node.at?`: the places and the endpoint that stands at each.
* `Node.put`: the write, without the function that can fail.
* `Node.upsertEndpoint_eq`: an upsert hands the endpoint at the place to its function and writes
  what the function returns.
* `Node.at?_put`: a write changes its own place only, whatever the trie looks like.
* `Node.put_put`: the last one of two writes to a place counts.
-/

set_option autoImplicit false

namespace RouteTrie

/-- Where an endpoint can stand. -/
inductive Place where
  /-- The end of a path. -/
  | path (segments : List Segment)
  /-- The fallback of the node below some segments. -/
  | fallback (segments : List Segment)
  deriving DecidableEq, Repr

namespace Place

/-- The segments that lead to the place. -/
def segments : Place → List Segment
  | path segments => segments
  | fallback segments => segments

/-- The label of the endpoint below those segments. -/
def edge : Place → Edge
  | path _ => .terminal
  | fallback _ => .fallback

theorem ofSegment_ne_edge (s : Segment) (p : Place) : Edge.ofSegment s ≠ p.edge := by
  cases s <;> cases p <;> simp [Edge.ofSegment, edge]

theorem eq_iff {p q : Place} : p = q ↔ p.segments = q.segments ∧ p.edge = q.edge := by
  cases p <;> cases q <;> simp [segments, edge]

end Place

theorem Edge.ofSegment_inj {s t : Segment} : Edge.ofSegment s = Edge.ofSegment t ↔ s = t := by
  cases s <;> cases t <;> simp [Edge.ofSegment]

namespace Node

variable {H : Type}

/-! ## Reading -/

theorem find?_cons (n : Node H) (s : Segment) (segments : List Segment) :
    n.find? (s :: segments) = (n.get? (.ofSegment s)).bind fun c => c.find? segments := rfl

/-- The endpoint under a label of the node below some segments. -/
def endpointBelow? (n : Node H) (segments : List Segment) (k : Edge) : Option (Endpoint H) :=
  (n.find? segments).bind fun c => c.endpointAt? k

/-- The endpoint at a place. -/
def at? (n : Node H) (p : Place) : Option (Endpoint H) := n.endpointBelow? p.segments p.edge

theorem endpointBelow?_nil (n : Node H) (k : Edge) : n.endpointBelow? [] k = n.endpointAt? k := rfl

theorem endpointBelow?_cons (n : Node H) (s : Segment) (segments : List Segment) (k : Edge) :
    n.endpointBelow? (s :: segments) k =
      (n.get? (.ofSegment s)).bind fun c => c.endpointBelow? segments k := by
  rw [endpointBelow?, find?_cons, Option.bind_assoc]
  rfl

theorem endpointBelow?_empty (segments : List Segment) (k : Edge) :
    (empty : Node H).endpointBelow? segments k = none := by
  cases segments with
  | nil => rfl
  | cons s rest => rfl

/-- A branch that is missing holds what the empty branch holds. -/
theorem endpointBelow?_getD (n : Option (Node H)) (segments : List Segment) (k : Edge) :
    (n.getD empty).endpointBelow? segments k = n.bind fun c => c.endpointBelow? segments k := by
  cases n with
  | none => exact endpointBelow?_empty segments k
  | some c => rfl

theorem at?_path (n : Node H) (segments : List Segment) :
    n.at? (.path segments) = (n.find? segments).bind endpoint? := rfl

theorem at?_empty (p : Place) : (empty : Node H).at? p = none :=
  endpointBelow?_empty p.segments p.edge

/-! ## Writing -/

/-- Put an endpoint under a label below some segments. -/
def putBelow (n : Node H) (segments : List Segment) (k : Edge) (e : Endpoint H) : Node H :=
  match segments with
  | [] => branch (Entries.insert n.children k (endpoint e))
  | s :: rest =>
    branch (Entries.insert n.children (.ofSegment s)
      (putBelow ((n.get? (.ofSegment s)).getD empty) rest k e))

/-- Put an endpoint at a place. -/
def put (n : Node H) (p : Place) (e : Endpoint H) : Node H := n.putBelow p.segments p.edge e

theorem get?_branch_insert (n c : Node H) (k k' : Edge) :
    (branch (Entries.insert n.children k c)).get? k' = if k = k' then some c else n.get? k' :=
  Entries.get?_insert n.children k k' c

/-- **An upsert is one read and one write of a place.** -/
theorem upsertEndpoint_eq (n : Node H) (segments : List Segment) (k : Edge)
    (update : Option (Endpoint H) → Except RouteError (Endpoint H)) :
    n.upsertEndpoint segments k update =
      (update (n.endpointBelow? segments k)).map (n.putBelow segments k) := by
  induction segments generalizing n with
  | nil =>
    rw [upsertEndpoint, endpointBelow?_nil]
    cases update (n.endpointAt? k) <;> rfl
  | cons s rest ih =>
    rw [upsertEndpoint, ih, endpointBelow?_getD, endpointBelow?_cons]
    cases update ((n.get? (.ofSegment s)).bind fun c => c.endpointBelow? rest k) <;> rfl

theorem endpointBelow?_putBelow (n : Node H) {k k' : Edge} (hk : ∀ s, Edge.ofSegment s ≠ k)
    (hk' : ∀ s, Edge.ofSegment s ≠ k') (segments segments' : List Segment) (e : Endpoint H) :
    (n.putBelow segments k e).endpointBelow? segments' k' =
      if segments = segments' ∧ k = k' then some e else n.endpointBelow? segments' k' := by
  induction segments generalizing n segments' with
  | nil =>
    cases segments' with
    | nil =>
      rw [putBelow, endpointBelow?_nil, endpointBelow?_nil, endpointAt?, get?_branch_insert]
      by_cases h : k = k'
      · simp [h, asEndpoint?]
      · simp [h, endpointAt?]
    | cons t rest' =>
      rw [putBelow, endpointBelow?_cons, endpointBelow?_cons, get?_branch_insert,
        if_neg fun h => hk t h.symm, if_neg fun h => absurd h.1 (by simp)]
  | cons s rest ih =>
    cases segments' with
    | nil =>
      rw [putBelow, endpointBelow?_nil, endpointBelow?_nil, endpointAt?, get?_branch_insert,
        if_neg (hk' s), if_neg fun h => absurd h.1 (by simp), endpointAt?]
    | cons t rest' =>
      rw [putBelow, endpointBelow?_cons, endpointBelow?_cons, get?_branch_insert]
      by_cases hst : s = t
      · subst hst
        -- a branch that was missing is entered as the empty one
        rw [if_pos rfl, Option.bind_some, ih, endpointBelow?_getD]
        simp
      · rw [if_neg fun h => hst (Edge.ofSegment_inj.1 h), if_neg fun h => hst (List.cons.inj h.1).1]

/-- **A write changes its own place only.** -/
theorem at?_put (n : Node H) (p q : Place) (e : Endpoint H) :
    (n.put p e).at? q = if p = q then some e else n.at? q := by
  rw [put, at?, endpointBelow?_putBelow n (fun s => Place.ofSegment_ne_edge s p)
    (fun s => Place.ofSegment_ne_edge s q)]
  simp only [← Place.eq_iff]
  rfl

theorem putBelow_putBelow (n : Node H) (segments : List Segment) (k : Edge) (e e' : Endpoint H) :
    (n.putBelow segments k e).putBelow segments k e' = n.putBelow segments k e' := by
  induction segments generalizing n with
  | nil => rw [putBelow, putBelow, putBelow, children, Entries.insert_insert]
  | cons s rest ih =>
    -- the child that the first write leaves is the one that the second write enters
    have hchild : (n.putBelow (s :: rest) k e).get? (.ofSegment s) =
        some (((n.get? (.ofSegment s)).getD empty).putBelow rest k e) := by
      rw [putBelow, get?_branch_insert, if_pos rfl]
    rw [putBelow, hchild, Option.getD_some, ih, putBelow, putBelow, children,
      Entries.insert_insert]

/-- **The last one of two writes to a place counts**, and leaves no trace of the first. -/
theorem put_put (n : Node H) (p : Place) (e e' : Endpoint H) :
    (n.put p e).put p e' = n.put p e' :=
  putBelow_putBelow n p.segments p.edge e e'

end Node

end RouteTrie
