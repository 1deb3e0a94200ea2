import Mathlib.Algebra.Ring.Nat
import RouteTrie.Proofs.Build.Shape

/-!
# Counting what a trie holds

Every method at an endpoint is there because one entry has bound it, and every binding stands at one
endpoint.  So the endpoints have together as many methods as the entries have bindings, however the
entries share endpoints.

## What is here

* `Node.claims`: the pairs of method and path of all endpoints of a trie.
* `nodup_claims_of_build`, `perm_claims_of_build`: they are different, and they are those of the
  slots that the entries bind.
* `sum_size_endpoints`: the number of methods at all endpoints.
-/

set_option autoImplicit false

namespace RouteTrie

variable {H : Type} {entries : List (String × H)} {root : Node H}

/-- The pairs of method and path of all endpoints. -/
def Node.claims (root : Node H) : List (String × String) :=
  root.endpoints.flatMap fun e => e.methods.map fun M => (M, e.path)

theorem Node.length_claims (root : Node H) :
    root.claims.length = (root.endpoints.map Endpoint.size).sum := by
  have hsize : ∀ e : Endpoint H, (e.methods.map fun M => (M, e.path)).length = e.size := by
    intro e
    rw [List.length_map, Endpoint.methods, OrderedMap.keys, Entries.length_keys]
    rfl
  rw [claims, List.length_flatMap]
  simp only [hsize]

/-- **No method stands at two endpoints with the same path.** -/
theorem nodup_claims_of_build (h : build entries = .ok root) : root.claims.Nodup := by
  refine List.pairwise_flatMap.2 ⟨fun e _ => ?_, ?_⟩
  · exact e.routes.nodup.map fun _ _ heq => congrArg Prod.fst heq
  · refine (List.pairwise_map.1 (nodup_paths_of_build h)).imp fun {a b} hab => ?_
    rintro x hx y hy rfl
    obtain ⟨M, -, rfl⟩ := List.mem_map.1 hx
    obtain ⟨N, -, hN⟩ := List.mem_map.1 hy
    exact hab (congrArg Prod.snd hN).symm

/-- A method stands at an endpoint exactly when the entries bind the slot. -/
theorem mem_claims_iff (h : build entries = .ok root) {c : String × String} :
    c ∈ root.claims ↔ c ∈ (Entries.keys (bindings entries)).map Slot.claim := by
  have hroot := Node.Holds.of_build h
  have hmethods : ∀ p e, root.at? p = some e →
      ∀ M, M ∈ e.methods ↔ ⟨p, M⟩ ∈ Entries.keys (bindings entries) := by
    intro p e he M
    rw [Endpoint.methods, OrderedMap.keys, hroot.routes_eq p e he, mem_keys_routesAt]
  simp only [Node.claims, List.mem_flatMap, List.mem_map]
  constructor
  · rintro ⟨e, he, M, hM, rfl⟩
    obtain ⟨p, hp⟩ := (trim_of_build h).mem_endpoints_iff.1 he
    refine ⟨⟨p, M⟩, (hmethods p e hp M).1 hM, ?_⟩
    rw [Slot.claim, hroot.path_eq p e hp]
  · rintro ⟨⟨p, M⟩, hs, rfl⟩
    obtain ⟨e, he⟩ : ∃ e, root.at? p = some e := by
      rw [← Option.ne_none_iff_exists', Ne, hroot.at?_eq_none]
      intro hnil
      rw [← mem_keys_routesAt, hnil] at hs
      cases hs
    refine ⟨e, (trim_of_build h).mem_endpoints_iff.2 ⟨p, he⟩, M, (hmethods p e he M).2 hs, ?_⟩
    rw [Slot.claim, hroot.path_eq p e he]

/-- **The methods at the endpoints are those that the entries bind.** -/
theorem perm_claims_of_build (h : build entries = .ok root) :
    root.claims.Perm ((Entries.keys (bindings entries)).map Slot.claim) := by
  have hroot := Node.Holds.of_build h
  refine (List.perm_ext_iff_of_nodup (nodup_claims_of_build h) ?_).2 fun c => mem_claims_iff h
  exact hroot.nodup.map_on fun s hs t ht =>
    Slot.claim_inj (hroot.readable s hs) (hroot.readable t ht)

/-- **The endpoints have as many methods as the entries have bindings.** -/
theorem sum_size_endpoints (h : build entries = .ok root) :
    (root.endpoints.map Endpoint.size).sum = (bindings entries).length := by
  rw [← Node.length_claims, (perm_claims_of_build h).length_eq, List.length_map,
    Entries.length_keys]

end RouteTrie
