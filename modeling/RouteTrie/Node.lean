import RouteTrie.Endpoint

/-!
# The route trie

A trie over path segments whose leaves are endpoints.  A branch has a child for every literal text,
one for the variable position, one for the endpoint of the path that ends there and, at the root,
one for the fallback endpoint.  Children stand in the order in which they were created.

## What is here

* `Edge`, `Node`: the labels of the children and the trie.
* `Node.get?`, `Node.find?`, `Node.endpoint?`, `Node.fallback?`: looking things up.
* `Node.endpoints`: all endpoints, depth first.
* `Node.upsertEndpoint`: replace the endpoint at a position, creating the branches on the way.
* `Node.same`, written `==`: equality that ignores the order of the children.
-/

set_option autoImplicit false

namespace RouteTrie

/-- The label of a child. -/
inductive Edge where
  /-- A segment with this text. -/
  | literal (text : String)
  /-- A variable position. -/
  | wildcard
  /-- The endpoint of the path that ends here. -/
  | terminal
  /-- The fallback endpoint. -/
  | fallback
  deriving DecidableEq, Repr

namespace Edge

/-- The label that a segment leads along. -/
def ofSegment : Segment → Edge
  | .literal text => literal text
  | .wildcard => wildcard

/-- How a label is shown. -/
def text : Edge → String
  | literal text => text
  | wildcard => wildcardText
  | terminal => "<endpoint>"
  | fallback => "<default>"

end Edge

/-- A route trie. -/
inductive Node (H : Type) where
  /-- A leaf. -/
  | endpoint (e : Endpoint H)
  /-- A branch with its labelled children. -/
  | branch (children : List (Edge × Node H))

namespace Node

variable {H : Type}

/-- The branch without children. -/
def empty : Node H := branch []

instance : Inhabited (Node H) := ⟨empty⟩

/-! ## Looking up -/

/-- The endpoint, if the node is a leaf. -/
def asEndpoint? : Node H → Option (Endpoint H)
  | endpoint e => some e
  | branch _ => none

/-- The labelled children; a leaf has none. -/
def children : Node H → List (Edge × Node H)
  | endpoint _ => []
  | branch cs => cs

/-- The child with a label. -/
def get? (n : Node H) (k : Edge) : Option (Node H) := Entries.get? n.children k

/-- The child for a literal text. -/
def child? (n : Node H) (text : String) : Option (Node H) := n.get? (.literal text)

/-- The child for the variable position. -/
def wildcard? (n : Node H) : Option (Node H) := n.get? .wildcard

/-- The endpoint under a label. -/
def endpointAt? (n : Node H) (k : Edge) : Option (Endpoint H) := (n.get? k).bind asEndpoint?

/-- The endpoint of the path that ends at the node. -/
def endpoint? (n : Node H) : Option (Endpoint H) := n.endpointAt? .terminal

/-- The fallback endpoint. -/
def fallback? (n : Node H) : Option (Endpoint H) := n.endpointAt? .fallback

/-- The node below some labels. -/
def descend? (n : Node H) : List Edge → Option (Node H)
  | [] => some n
  | k :: ks => (n.get? k).bind fun c => c.descend? ks

/-- The node below some segments. -/
def find? (n : Node H) (segments : List Segment) : Option (Node H) :=
  n.descend? (segments.map Edge.ofSegment)

mutual

/-- The endpoints of the trie, depth first. -/
def endpoints : Node H → List (Endpoint H)
  | endpoint e => [e]
  | branch cs => endpointsOf cs

/-- The endpoints below some children. -/
def endpointsOf : List (Edge × Node H) → List (Endpoint H)
  | [] => []
  | (_, n) :: cs => endpoints n ++ endpointsOf cs

end

theorem endpointsOf_eq_flatMap (cs : List (Edge × Node H)) :
    endpointsOf cs = cs.flatMap fun c => c.2.endpoints := by
  induction cs with
  | nil => rfl
  | cons c cs ih =>
    obtain ⟨k, n⟩ := c
    rw [endpointsOf, ih, List.flatMap_cons]

/-! ## Changing -/

/-- Give `update` the endpoint under `k` below some segments, and put what it returns there.
Branches that are missing are created, and children keep their places.  A leaf on the way counts as
an empty branch. -/
def upsertEndpoint (n : Node H) (segments : List Segment) (k : Edge)
    (update : Option (Endpoint H) → Except RouteError (Endpoint H)) :
    Except RouteError (Node H) :=
  match segments with
  | [] => do
    let e ← update (n.endpointAt? k)
    return branch (Entries.insert n.children k (endpoint e))
  | s :: rest => do
    let child ← upsertEndpoint ((n.get? (.ofSegment s)).getD empty) rest k update
    return branch (Entries.insert n.children (.ofSegment s) child)

/-! ## Equality -/

mutual

/-- Equality of tries; the order of the children does not count. -/
def same [BEq H] : Node H → Node H → Bool
  | endpoint a, endpoint b => a == b
  | branch cs, branch ds => sameChildren cs ds
  | _, _ => false

/-- Equality of children in some order. -/
def sameChildren [BEq H] : List (Edge × Node H) → List (Edge × Node H) → Bool
  | [], ds => ds.isEmpty
  | (k, n) :: cs, ds =>
    match without? (fun d => decide (k = d.1) && same n d.2) ds with
    | none => false
    | some rest => sameChildren cs rest

end

instance [BEq H] : BEq (Node H) := ⟨same⟩

/-- The comparison of children is the general comparison of lists up to order. -/
theorem sameChildren_eq_rearranged [BEq H] (cs ds : List (Edge × Node H)) :
    sameChildren cs ds = rearranged (fun p q => decide (p.1 = q.1) && same p.2 q.2) cs ds := by
  induction cs generalizing ds with
  | nil => rfl
  | cons p cs ih =>
    obtain ⟨k, n⟩ := p
    simp only [sameChildren, rearranged]
    split <;> rename_i h <;> simp only [h, ih]

end Node

end RouteTrie
