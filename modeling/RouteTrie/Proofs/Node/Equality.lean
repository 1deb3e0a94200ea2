import RouteTrie.Proofs.Node.Trim
import RouteTrie.Proofs.Rearrangement

/-!
# Tries with equal endpoints are equal

Equality of tries compares children in any order, level by level.  Of tries without loose ends it is
enough to compare the endpoints, place by place: there is no branch that the endpoints do not
require.

## What is here

* `Endpoint.beq_iff`: equality of endpoints, method by method.
* `Node.branch_beq_iff`: equality of branches, label by label.
* `Node.Trim.beq_iff`: equality of tries, place by place.
-/

set_option autoImplicit false

namespace RouteTrie

variable {H : Type} [BEq H]

theorem Endpoint.beq_iff {a b : Endpoint H} :
    (a == b) = true ↔ a.path = b.path ∧
      ∀ M, Option.Rel (fun r r' => (r == r') = true) (a.routes.get? M) (b.routes.get? M) := by
  rw [← OrderedMap.beq_iff, ← beq_iff_eq (a := a.path)]
  exact Bool.and_eq_true_iff

namespace Node

/-- Equality of branches is equality of their children up to order. -/
theorem branch_beq_branch (cs ds : List (Edge × Node H)) :
    (branch cs == branch ds) =
      rearranged (fun p q => decide (p.1 = q.1) && same p.2 q.2) cs ds := by
  rw [show (branch cs == branch ds) = same (branch cs) (branch ds) from rfl, same,
    sameChildren_eq_rearranged]

/-- Branches are equal exactly when they have equal children under every label. -/
theorem branch_beq_iff {cs ds : List (Edge × Node H)} (hcs : (Entries.keys cs).Nodup)
    (hds : (Entries.keys ds).Nodup) :
    (branch cs == branch ds) = true ↔
      ∀ k, Option.Rel (fun c d => (c == d) = true) ((branch cs).get? k) ((branch ds).get? k) := by
  rw [branch_beq_branch]
  exact Entries.rearranged_iff same hcs hds

theorem endpoint_beq_endpoint (a b : Endpoint H) : (endpoint a == endpoint b) = (a == b) := by
  rw [show (endpoint a == endpoint b) = same (endpoint a) (endpoint b) from rfl, same]

namespace Trim

omit [BEq H] in
/-- A trie with all the places of another one has all its branches. -/
theorem exists_get?_of_at? {n m : Node H} (hn : n.Trim)
    (h : ∀ p, (n.at? p).isSome = true → (m.at? p).isSome = true) {s : Segment} {c : Node H}
    (hc : n.get? (.ofSegment s) = some c) : ∃ d, m.get? (.ofSegment s) = some d := by
  obtain ⟨hne, htrim⟩ := hn.limb_of_get? hc
  obtain ⟨p, hp⟩ := htrim.exists_at? hne
  have hat := h (p.cons s) (by rwa [at?_cons, hc])
  rw [at?_cons] at hat
  exact Option.isSome_iff_exists.1 (Option.isSome_of_isSome_bind hat)

/-- Tries without loose ends that are equal place by place are equal. -/
theorem beq_of_at? {n m : Node H} (hn : n.Trim) (hm : m.Trim)
    (h : ∀ p, Option.Rel (fun a b => (a == b) = true) (n.at? p) (m.at? p)) : (n == m) = true := by
  induction hn generalizing m with
  | @branch cs nodup leaf full limb ih =>
    have hn : (Node.branch cs).Trim := .branch nodup leaf full limb
    obtain ⟨ds, rfl⟩ := hm.eq_branch
    have hplaces : ∀ p, ((Node.branch cs).at? p).isSome = ((Node.branch ds).at? p).isSome :=
      fun p => isSome_eq_of_rel (h p)
    have hds : (Entries.keys ds).Nodup := hm.nodup_labels
    rw [branch_beq_iff nodup hds]
    intro k
    rcases k.eq_ofSegment_or_edge with ⟨s, rfl⟩ | ⟨p, hp, rfl⟩
    · refine rel_of_some_iff (fun c hc => ?_) fun d hd => ?_
      · obtain ⟨d, hd⟩ := hn.exists_get?_of_at? (fun p => (hplaces p).symm.trans) hc
        refine ⟨d, hd, ih s c (hn.mem_children_iff.2 hc) (hm.limb_of_get? hd).2 fun p => ?_⟩
        have hp := h (p.cons s)
        rwa [at?_cons, at?_cons, hc, hd] at hp
      · exact hm.exists_get?_of_at? (fun p => (hplaces p).trans) hd
    · rw [hn.get?_edge hp, hm.get?_edge hp]
      exact (rel_map_map_iff fun a b => by rw [endpoint_beq_endpoint]).2 (h p)

/-- Tries without loose ends that are equal are equal place by place. -/
theorem rel_at?_of_beq {n m : Node H} (hn : n.Trim) (hm : m.Trim) (h : (n == m) = true)
    (p : Place) : Option.Rel (fun a b => (a == b) = true) (n.at? p) (m.at? p) := by
  induction hn generalizing m p with
  | @branch cs nodup leaf full limb ih =>
    have hn : (Node.branch cs).Trim := .branch nodup leaf full limb
    obtain ⟨ds, rfl⟩ := hm.eq_branch
    have hds : (Entries.keys ds).Nodup := hm.nodup_labels
    have hchildren := (branch_beq_iff nodup hds).1 h
    rcases p.segments_eq_nil_or_eq_cons with hp | ⟨s, q, rfl⟩
    · have hleaf := hchildren p.edge
      rw [hn.get?_edge hp, hm.get?_edge hp] at hleaf
      exact (rel_map_map_iff fun a b => by rw [endpoint_beq_endpoint]).1 hleaf
    · rw [at?_cons, at?_cons]
      refine rel_bind (hchildren (.ofSegment s)) fun c d hc hd hcd => ?_
      exact ih s c (hn.mem_children_iff.2 hc) (hm.limb_of_get? hd).2 hcd q

/-- **Tries without loose ends are equal exactly when they are equal place by place.** -/
theorem beq_iff {n m : Node H} (hn : n.Trim) (hm : m.Trim) :
    (n == m) = true ↔ ∀ p, Option.Rel (fun a b => (a == b) = true) (n.at? p) (m.at? p) :=
  ⟨hn.rel_at?_of_beq hm, hn.beq_of_at? hm⟩

end Trim

end Node

end RouteTrie
