import RouteTrie.Proofs.Build.Summary
import RouteTrie.Proofs.Node.Outline

/-!
# The outline of a trie that was built

Building leaves nothing in a trie that its outline could not tell: the methods of a path are words,
the fallback has a single method, and variables have names.  So tries that were built are equal if
their outlines are, whatever their literals and handlers are.

## What is here

* `legible_of_build`: the groups in a trie that was built are legible.
* `build_beq_of_outline_eq`: tries that were built and have the same outline are equal.
-/

set_option autoImplicit false

namespace RouteTrie

/-- The groups in a trie that was built are legible. -/
theorem legible_of_build {H : Type} [BEq H] [EquivBEq H] {entries : List (String × H)}
    {root : Node H} (h : build entries = .ok root) : root.Legible := by
  intro e he g hg
  obtain ⟨p, hp⟩ := (trim_of_build h).mem_endpoints_iff.1 he
  cases p with
  | path s =>
    obtain ⟨_, _, _, -, hpath⟩ := exists_path_of_mem_group h hp hg
    exact ⟨.inr ⟨Endpoint.methods_ne_nil_of_mem_group hg, fun M hM =>
      isMethodWord_of_build h hp M (mem_methods_of_mem_group hg hM)⟩,
      (Path.wellFormed_of_parse hpath).isName⟩
  | fallback s =>
    obtain ⟨-, handler, rfl⟩ := eq_of_mem_group_fallback h hp hg
    exact ⟨.inl rfl, fun v hv => by cases hv⟩

variable {xs ys : List (String × Json)} {t u : Node Json}

/-- **Outlines are faithful.**  Tries that were built and have the same outline are equal. -/
theorem build_beq_of_outline_eq (ht : build xs = .ok t) (hu : build ys = .ok u)
    (h : t.outline Json.compact = u.outline Json.compact) : (t == u) = true :=
  (wellShaped_of_build ht).beq_of_outline_eq (wellShaped_of_build hu) (legible_of_build ht)
    (legible_of_build hu) h

/-- Keys that are read alike are registered alike. -/
theorem Node.addEntry_eq_of_parse_eq {H : Type} {key key' : String}
    (h : RouteKey.parse key = RouteKey.parse key') (root : Node H) (handler : H) :
    root.addEntry (key, handler) = root.addEntry (key', handler) := by
  have hr : Registration.ofKey key = Registration.ofKey key' := by
    rw [Registration.ofKey, Registration.ofKey, h]
  rw [addEntry, addEntry, hr]

/-- Two ways to write the same key. -/
theorem build_beq_of_outline_eq_users :
    ∃ t u, build [("get|PUT /u/{id}", Json.null), ("default", .null)] = .ok t ∧
      build [(" get|PUT  /u/{id} ", Json.null), ("default", .null)] = .ok u ∧
      t.outline Json.compact = u.outline Json.compact ∧ (t == u) = true := by
  obtain ⟨t, ht⟩ : ∃ t, build [("get|PUT /u/{id}", Json.null), ("default", .null)] = .ok t :=
    ⟨_, rfl⟩
  have hu : build [(" get|PUT  /u/{id} ", Json.null), ("default", .null)] = .ok t := by
    have hkey : RouteKey.parse " get|PUT  /u/{id} " = RouteKey.parse "get|PUT /u/{id}" := rfl
    rw [build, List.foldlM_cons, Node.addEntry_eq_of_parse_eq hkey]
    exact ht
  exact ⟨t, t, ht, hu, rfl, build_beq_of_outline_eq ht hu rfl⟩

end RouteTrie
