import RouteTrie.Proofs.Entries
import RouteTrie.Proofs.Node.Position

/-!
# Tries without loose ends

In a `Trim` trie every label leads where its kind promises: the labels of endpoints to endpoints,
all others to branches, none of which is empty.  Such a trie has an endpoint below each of its
branches, so nothing in it goes unnoticed when it is asked for its endpoints.  Writing keeps a trie
trim.

## What is here

* `Node.Trim`: the property.
* `Node.Trim.put`: a write keeps it.
* `Node.Trim.of_find?`, `Node.Trim.get?_edge`: what stands below some segments, and under the labels
  of endpoints.
* `Node.Trim.exists_at?`: there is an endpoint below every branch that is not empty.
-/

set_option autoImplicit false

namespace RouteTrie

variable {H : Type}

/-- A label is that of a segment or that of an endpoint. -/
theorem Edge.eq_ofSegment_or_edge (k : Edge) :
    (∃ s, k = ofSegment s) ∨ ∃ p : Place, p.segments = [] ∧ k = p.edge := by
  cases k with
  | literal text => exact .inl ⟨.literal text, rfl⟩
  | wildcard => exact .inl ⟨.wildcard, rfl⟩
  | terminal => exact .inr ⟨.path [], rfl, rfl⟩
  | fallback => exact .inr ⟨.fallback [], rfl, rfl⟩

/-- The place that is one segment further away. -/
def Place.cons (s : Segment) : Place → Place
  | path segments => path (s :: segments)
  | fallback segments => fallback (s :: segments)

/-- A place is one of the node itself or one segment further away than another one. -/
theorem Place.segments_eq_nil_or_eq_cons (p : Place) :
    p.segments = [] ∨ ∃ s q, p = Place.cons s q := by
  cases p with
  | path segments =>
    cases segments with
    | nil => exact .inl rfl
    | cons s rest => exact .inr ⟨s, path rest, rfl⟩
  | fallback segments =>
    cases segments with
    | nil => exact .inl rfl
    | cons s rest => exact .inr ⟨s, fallback rest, rfl⟩

namespace Node

theorem at?_cons (n : Node H) (s : Segment) (p : Place) :
    n.at? (p.cons s) = (n.get? (.ofSegment s)).bind fun c => c.at? p := by
  cases p <;> exact endpointBelow?_cons n s _ _

/-- A trie in which the labels of endpoints lead to endpoints and all other labels to branches that
are trim and not empty. -/
inductive Trim : Node H → Prop where
  /-- A branch whose children are as their labels say. -/
  | branch {cs : List (Edge × Node H)} (nodup : (Entries.keys cs).Nodup)
      (leaf : ∀ (p : Place) (c : Node H), (p.edge, c) ∈ cs → ∃ e, c = endpoint e)
      (full : ∀ (s : Segment) (c : Node H), (Edge.ofSegment s, c) ∈ cs → c.children ≠ [])
      (limb : ∀ (s : Segment) (c : Node H), (Edge.ofSegment s, c) ∈ cs → Trim c) :
      Trim (Node.branch cs)

namespace Trim

variable {n : Node H}

theorem eq_branch (h : n.Trim) : ∃ cs, n = Node.branch cs := by
  cases h with
  | branch => exact ⟨_, rfl⟩

theorem nodup_labels (h : n.Trim) : n.labels.Nodup := by
  cases h with
  | branch nodup => exact nodup

theorem mem_children_iff (h : n.Trim) {k : Edge} {c : Node H} :
    (k, c) ∈ n.children ↔ n.get? k = some c :=
  (Entries.get?_eq_some_iff_mem h.nodup_labels).symm

theorem leaf_of_get? (h : n.Trim) {p : Place} {c : Node H} (hc : n.get? p.edge = some c) :
    ∃ e, c = endpoint e := by
  rw [← h.mem_children_iff] at hc
  cases h with
  | branch nodup leaf full limb => exact leaf p c hc

theorem limb_of_get? (h : n.Trim) {s : Segment} {c : Node H}
    (hc : n.get? (.ofSegment s) = some c) : c.children ≠ [] ∧ c.Trim := by
  rw [← h.mem_children_iff] at hc
  cases h with
  | branch nodup leaf full limb => exact ⟨full s c hc, limb s c hc⟩

/-- Under the label of an endpoint stands the endpoint of the place, and nothing if it has none. -/
theorem get?_edge (h : n.Trim) {p : Place} (hp : p.segments = []) :
    n.get? p.edge = (n.at? p).map endpoint := by
  rw [at?, hp, endpointBelow?_nil, endpointAt?]
  cases hc : n.get? p.edge with
  | none => rfl
  | some c =>
    obtain ⟨e, rfl⟩ := h.leaf_of_get? hc
    rfl

/-- Whatever stands below some segments is trim, and not empty unless it is the trie itself. -/
theorem of_find? (h : n.Trim) {s : List Segment} {c : Node H} (hc : n.find? s = some c) :
    c.Trim ∧ (s ≠ [] → c.children ≠ []) := by
  induction s generalizing n with
  | nil =>
    cases hc
    exact ⟨h, fun hs => absurd rfl hs⟩
  | cons a s ih =>
    rw [find?_cons, Option.bind_eq_some_iff] at hc
    obtain ⟨d, hd, hc⟩ := hc
    obtain ⟨hne, htrim⟩ := h.limb_of_get? hd
    refine ⟨(ih htrim hc).1, fun _ => ?_⟩
    cases s with
    | nil =>
      cases hc
      exact hne
    | cons b s => exact (ih htrim hc).2 (by simp)

/-- There is an endpoint below every branch that is not empty. -/
theorem exists_at? (h : n.Trim) (hne : n.children ≠ []) : ∃ p, (n.at? p).isSome = true := by
  induction h with
  | @branch cs nodup leaf full limb ih =>
    obtain ⟨⟨k, c⟩, hmem⟩ := List.exists_mem_of_ne_nil _ hne
    have hget : (Node.branch cs).get? k = some c := (Entries.get?_eq_some_iff_mem nodup).2 hmem
    rcases k.eq_ofSegment_or_edge with ⟨s, rfl⟩ | ⟨p, hp, rfl⟩
    · obtain ⟨p, hp⟩ := ih s c hmem (full s c hmem)
      refine ⟨p.cons s, ?_⟩
      rw [at?_cons, hget]
      exact hp
    · obtain ⟨e, rfl⟩ := leaf p c hmem
      refine ⟨p, ?_⟩
      rw [at?, hp, endpointBelow?_nil, endpointAt?, hget]
      rfl

/-! ## Writing -/

theorem empty : (Node.empty : Node H).Trim :=
  .branch List.nodup_nil (fun _ _ h => nomatch h) (fun _ _ h => nomatch h) fun _ _ h => nomatch h

/-- A branch that is missing is entered as the empty one. -/
theorem getD_empty (h : n.Trim) (s : Segment) :
    ((n.get? (.ofSegment s)).getD Node.empty).Trim := by
  cases hc : n.get? (.ofSegment s) with
  | none => exact empty
  | some c => exact (h.limb_of_get? hc).2

/-- Putting a child where its label belongs keeps a branch trim. -/
theorem insert (h : n.Trim) {k : Edge} {c : Node H}
    (hleaf : ∀ p : Place, k = p.edge → ∃ e, c = endpoint e)
    (hlimb : ∀ s, k = Edge.ofSegment s → c.children ≠ [] ∧ c.Trim) :
    (Node.branch (Entries.insert n.children k c)).Trim := by
  have hnd := Entries.nodup_keys_insert h.nodup_labels k c
  -- a child of the new branch is the one that was put there or one of the old ones
  have hchild : ∀ k' c', (k', c') ∈ Entries.insert n.children k c →
      (k = k' ∧ c = c') ∨ n.get? k' = some c' := by
    intro k' c' hmem
    have hget := (Entries.get?_eq_some_iff_mem hnd).2 hmem
    rw [Entries.get?_insert] at hget
    split at hget
    · rename_i hk
      exact .inl ⟨hk, Option.some_inj.1 hget⟩
    · exact .inr hget
  have hbelow : ∀ s c', (Edge.ofSegment s, c') ∈ Entries.insert n.children k c →
      c'.children ≠ [] ∧ c'.Trim := by
    intro s c' hmem
    rcases hchild _ _ hmem with ⟨hk, rfl⟩ | hget
    · exact hlimb s hk
    · exact h.limb_of_get? hget
  refine .branch hnd (fun p c' hmem => ?_) (fun s c' hmem => (hbelow s c' hmem).1)
    fun s c' hmem => (hbelow s c' hmem).2
  rcases hchild _ _ hmem with ⟨hk, rfl⟩ | hget
  · exact hleaf p hk
  · exact h.leaf_of_get? hget

theorem children_putBelow_ne_nil (n : Node H) (segments : List Segment) (k : Edge)
    (e : Endpoint H) : (n.putBelow segments k e).children ≠ [] := by
  intro hnil
  have hmem := mem_addLabel_self n.labels (Edge.first segments k)
  rw [← labels_putBelow n segments k e, labels, hnil] at hmem
  cases hmem

theorem putBelow (h : n.Trim) (segments : List Segment) (p : Place) (e : Endpoint H) :
    (n.putBelow segments p.edge e).Trim := by
  induction segments generalizing n with
  | nil =>
    refine h.insert (fun _ _ => ⟨e, rfl⟩) fun s hs => ?_
    exact absurd hs.symm (Place.ofSegment_ne_edge s p)
  | cons s rest ih =>
    refine h.insert (fun q hq => absurd hq (Place.ofSegment_ne_edge s q)) fun _ _ => ?_
    exact ⟨children_putBelow_ne_nil _ rest p.edge e, ih (h.getD_empty s)⟩

/-- **A write keeps a trie trim.** -/
theorem put (h : n.Trim) (p : Place) (e : Endpoint H) : (n.put p e).Trim :=
  h.putBelow p.segments p e

end Trim

end Node

end RouteTrie
