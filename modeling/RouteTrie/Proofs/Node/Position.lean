import RouteTrie.Proofs.Node.Upsert

/-!
# Positions in the trie, and where a write adds children

A write creates the nodes on the way to its place and nothing else, and at each of them it adds the
next label of the way behind the labels that are there, unless it is one of them.  So the shape of a
trie, with the order of the children, can be read off the places that were written, in their order.

## What is here

* `Node.find?_append`, `Node.find?_putBelow`: what stands below some segments after a write.
* `Place.edgeAt?`: the label by which the way to a place goes on below some segments.
* `Node.edges`, `Node.addLabel`: the labels below some segments, and one label more.
* `Node.isSome_find?_put`, `Node.edges_put`: the nodes and labels after a write.
-/

set_option autoImplicit false

namespace RouteTrie

variable {H : Type}

namespace Node

/-! ## What stands below some segments -/

theorem find?_nil (n : Node H) : n.find? [] = some n := rfl

theorem find?_append (n : Node H) (s s' : List Segment) :
    n.find? (s ++ s') = (n.find? s).bind fun c => c.find? s' := by
  induction s generalizing n with
  | nil => rfl
  | cons a s ih =>
    rw [List.cons_append, find?_cons, find?_cons, Option.bind_assoc]
    congr 1
    exact funext fun c => ih c

theorem find?_concat (n : Node H) (s : List Segment) (a : Segment) :
    n.find? (s ++ [a]) = (n.find? s).bind fun c => c.get? (.ofSegment a) := by
  rw [find?_append]
  congr 1
  funext c
  rw [find?_cons]
  cases c.get? (.ofSegment a) <;> rfl

theorem endpointBelow?_of_find? {n c : Node H} {s : List Segment} (h : n.find? s = some c)
    (k : Edge) : n.endpointBelow? s k = c.endpointAt? k := by
  rw [endpointBelow?, h, Option.bind_some]

theorem find?_empty_cons (a : Segment) (s : List Segment) :
    (empty : Node H).find? (a :: s) = none := rfl

/-- Below the way to its place a write goes on as a write, and elsewhere it changes nothing. -/
theorem find?_putBelow (n : Node H) {k : Edge} (hk : ∀ s, Edge.ofSegment s ≠ k)
    (segments s : List Segment) (e : Endpoint H) :
    (n.putBelow segments k e).find? s =
      if s <+: segments then
        some (((n.find? s).getD empty).putBelow (segments.drop s.length) k e)
      else n.find? s := by
  induction segments generalizing n s with
  | nil =>
    cases s with
    | nil => rfl
    | cons t s =>
      rw [if_neg (by simp), putBelow, find?_cons, get?_branch_insert, if_neg fun h => hk t h.symm]
      rfl
  | cons a rest ih =>
    cases s with
    | nil => rfl
    | cons t s =>
      rw [putBelow, find?_cons, find?_cons, get?_branch_insert]
      by_cases hat : a = t
      · subst hat
        rw [if_pos rfl, Option.bind_some, ih]
        simp only [List.cons_prefix_cons, true_and, List.length_cons, List.drop_succ_cons]
        -- a branch that was missing is entered as the empty one, which has nothing below it
        cases n.get? (.ofSegment a) with
        | some c => rfl
        | none =>
          cases s with
          | nil => rfl
          | cons b s => rfl
      · have hta : ¬t = a := fun h => hat h.symm
        rw [if_neg fun h => hat (Edge.ofSegment_inj.1 h), if_neg]
        simp [List.cons_prefix_cons, hta]

end Node

/-! ## The way to a place -/

/-- The label by which the way to the place goes on below some segments: the label of the endpoint
at the end of the way, that of the next segment before the end, and none beside the way. -/
def Place.edgeAt? (p : Place) (s : List Segment) : Option Edge :=
  if p.segments = s then some p.edge
  else if s <+: p.segments then p.segments[s.length]?.map Edge.ofSegment
  else none

/-- The first label of the way along some segments to a label. -/
def Edge.first (segments : List Segment) (k : Edge) : Edge :=
  (segments.head?.map ofSegment).getD k

theorem Place.edgeAt?_eq (p : Place) (s : List Segment) :
    p.edgeAt? s =
      if s <+: p.segments then some (Edge.first (p.segments.drop s.length) p.edge) else none := by
  rw [edgeAt?]
  split
  · rename_i h
    rw [if_pos (h ▸ List.prefix_refl _), h, List.drop_length]
    rfl
  · rename_i hne
    split
    · rename_i hs
      obtain ⟨rest, hrest⟩ := hs
      cases rest with
      | nil => exact absurd (by rw [← hrest, List.append_nil]) hne
      | cons a rest =>
        rw [← hrest, List.drop_left]
        simp [Edge.first]
    · rfl

theorem Place.edgeAt?_self (p : Place) : p.edgeAt? p.segments = some p.edge := if_pos rfl

/-- The way goes on by the label of the next segment. -/
theorem Place.edgeAt?_of_concat_prefix {p : Place} {s : List Segment} {a : Segment}
    (h : s ++ [a] <+: p.segments) : p.edgeAt? s = some (.ofSegment a) := by
  obtain ⟨rest, hrest⟩ := h
  rw [edgeAt?_eq, if_pos ⟨a :: rest, by simp [← hrest]⟩, ← hrest, List.append_assoc,
    List.drop_left]
  rfl

theorem Place.isSome_edgeAt?_iff {p : Place} {s : List Segment} :
    (p.edgeAt? s).isSome = true ↔ s <+: p.segments := by
  rw [edgeAt?_eq]
  split <;> simp_all

namespace Node

/-! ## The labels below some segments -/

/-- The labels of the children in their order. -/
def labels (n : Node H) : List Edge := Entries.keys n.children

theorem exists_get?_of_mem_labels {n : Node H} {k : Edge} (h : k ∈ n.labels) :
    ∃ c, n.get? k = some c :=
  Option.ne_none_iff_exists'.1 fun hnone => Entries.get?_eq_none_iff.1 hnone h

/-- The labels with one more, which goes behind the others unless it is one of them. -/
def addLabel (labels : List Edge) : Option Edge → List Edge
  | none => labels
  | some k => if k ∈ labels then labels else labels ++ [k]

theorem mem_addLabel_self (labels : List Edge) (k : Edge) : k ∈ addLabel labels (some k) := by
  rw [addLabel]
  split
  · assumption
  · simp

/-- The labels of the node below some segments; none if there is no such node. -/
def edges (n : Node H) (s : List Segment) : List Edge := ((n.find? s).getD empty).labels

theorem edges_of_find? {n c : Node H} {s : List Segment} (h : n.find? s = some c) :
    n.edges s = c.labels := by
  rw [edges, h]
  rfl

theorem labels_putBelow (n : Node H) (segments : List Segment) (k : Edge) (e : Endpoint H) :
    (n.putBelow segments k e).labels = addLabel n.labels (some (Edge.first segments k)) := by
  cases segments with
  | nil => exact Entries.keys_insert n.children k _
  | cons s rest => exact Entries.keys_insert n.children (.ofSegment s) _

/-- A write creates the nodes on the way to its place and no others. -/
theorem isSome_find?_put (n : Node H) (p : Place) (e : Endpoint H) (s : List Segment) :
    ((n.put p e).find? s).isSome = true ↔ s <+: p.segments ∨ (n.find? s).isSome = true := by
  rw [put, find?_putBelow n fun s => Place.ofSegment_ne_edge s p]
  split <;> simp_all

/-- **A write adds one label at each node on the way to its place**, behind the others, if it is not
there yet. -/
theorem edges_put (n : Node H) (p : Place) (e : Endpoint H) (s : List Segment) :
    (n.put p e).edges s = addLabel (n.edges s) (p.edgeAt? s) := by
  rw [edges, put, find?_putBelow n fun s => Place.ofSegment_ne_edge s p, Place.edgeAt?_eq]
  by_cases hs : s <+: p.segments
  · rw [if_pos hs, if_pos hs]
    exact labels_putBelow _ _ _ e
  · rw [if_neg hs, if_neg hs]
    rfl

end Node

end RouteTrie
