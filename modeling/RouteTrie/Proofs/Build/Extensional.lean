import RouteTrie.Proofs.Build.Equality
import RouteTrie.Proofs.Build.Shape

/-!
# Tries are equal when they answer alike

A trie can be asked for the handler and the variables of a method on some segments, and for its
fallback.  Two tries that were built are equal exactly when all answers are: there is nothing in
them that no question brings to light.  Questions only reach methods in upper case and only one
fallback, which is where a trie that was built has all its routes.

## What is here

* `Node.answer?`: the route with which a trie answers a method on some segments.
* `Node.AnswersAlike`: two tries give equal answers to all questions.
* `route?_eq_none_of_lowercase`, `route?_fallback_eq_none_of_ne`: the slots that no question reaches
  are empty.
* `beq_iff_answersAlike`: equality of tries is equality of their answers.
-/

set_option autoImplicit false

namespace RouteTrie

variable {H : Type}

/-! ## Questions -/

/-- What the endpoint at the end of some segments answers. -/
def Node.answer? {α : Type} (root : Node H) (segments : List Segment)
    (question : Endpoint H → Option α) : Option α :=
  ((root.find? segments).bind Node.endpoint?).bind question

/-- Two tries give equal answers to all questions. -/
structure Node.AnswersAlike [BEq H] (root root' : Node H) : Prop where
  /-- On some segments a method has no handler in both tries, or equal handlers. -/
  handler : ∀ (segments : List Segment) (method : String),
    Option.Rel (fun h h' => (h == h') = true)
      (root.answer? segments fun e => e.route? method)
      (root'.answer? segments fun e => e.route? method)
  /-- On some segments the variables of a method are an error in both tries, or equal. -/
  vars : ∀ (segments : List Segment) (method : String),
    Option.Rel (fun v v' => (v == v') = true)
      (root.answer? segments fun e => (e.vars method).toOption)
      (root'.answer? segments fun e => (e.vars method).toOption)
  /-- The fallback endpoint is missing in both tries, or there are equal handlers in it. -/
  fallback : Option.Rel
    (fun e e' => ∃ h h', e.route? fallbackMethod = some h ∧ e'.route? fallbackMethod = some h' ∧
      (h == h') = true) root.fallback? root'.fallback?

theorem Node.answer?_handler (root : Node H) (segments : List Segment) (method : String) :
    (root.answer? segments fun e => e.route? method) =
      (root.route? ⟨.path segments, Text.uppercase method⟩).map Route.handler := by
  rw [Node.route?_path, Node.answer?, Option.map_bind]
  rfl

theorem Node.answer?_vars (root : Node H) (segments : List Segment) (method : String) :
    (root.answer? segments fun e => (e.vars method).toOption) =
      (root.route? ⟨.path segments, Text.uppercase method⟩).map Route.vars := by
  rw [Node.route?_path, Node.answer?, Option.map_bind]
  congr 1
  funext e
  rw [Endpoint.vars, Function.comp_apply]
  cases e.routes.get? (Text.uppercase method) <;> rfl

/-- Routes agree when their handlers and their variables do. -/
theorem rel_route_iff [BEq H] {a b : Option (Route H)} :
    Option.Rel (fun r r' => (r == r') = true) a b ↔
      Option.Rel (fun h h' => (h == h') = true) (a.map Route.handler) (b.map Route.handler) ∧
      Option.Rel (fun v v' => (v == v') = true) (a.map Route.vars) (b.map Route.vars) := by
  cases a with
  | none => cases b <;> simp
  | some r =>
    cases b with
    | none => simp
    | some r' =>
      simp only [Option.map_some, Option.rel_some_some]
      exact Bool.and_eq_true_iff

/-! ## What no question reaches -/

section Unreached

variable {entries : List (String × H)} {root : Node H}

/-- A method that is not in upper case has no route on a path. -/
theorem route?_eq_none_of_lowercase (h : build entries = .ok root) {segments : List Segment}
    {M : String} (hM : Text.uppercase M ≠ M) : root.route? ⟨.path segments, M⟩ = none := by
  rw [Option.eq_none_iff_forall_ne_some]
  intro r hr
  rw [Node.route?, Option.bind_eq_some_iff] at hr
  obtain ⟨e, he, hr⟩ := hr
  exact hM ((sound_of_build h he).uppercase M
    (Entries.mem_keys_of_mem (OrderedMap.get?_eq_some_iff_mem.1 hr)))

/-- The fallback method at the root is the only slot of a fallback with a route. -/
theorem route?_fallback_eq_none_of_ne (h : build entries = .ok root) {segments : List Segment}
    {M : String} (hne : ¬(segments = [] ∧ M = fallbackMethod)) :
    root.route? ⟨.fallback segments, M⟩ = none := by
  rw [Option.eq_none_iff_forall_ne_some]
  intro r hr
  have hmem := (Node.Holds.of_build h).route?_eq_some_iff.1 hr
  obtain ⟨-, hs, hM, -⟩ := mem_bindings_fallback_iff.1 hmem
  exact hne ⟨hs, hM⟩

/-- The fallback endpoint has a handler for the fallback method, which is all that it has. -/
theorem exists_handler_of_fallback? (h : build entries = .ok root) {e : Endpoint H}
    (he : root.fallback? = some e) : ∃ handler, e.route? fallbackMethod = some handler ∧
      root.route? ⟨.fallback [], fallbackMethod⟩ = some ⟨handler, ∅⟩ := by
  have hroot := Node.Holds.of_build h
  obtain ⟨handler, hmem⟩ := hroot.fallback?_isSome_iff.1 (Option.isSome_iff_exists.2 ⟨e, he⟩)
  obtain ⟨e', he', hentries⟩ := hroot.fallback?_of_mem hmem
  rw [he] at he'
  cases he'
  have hget : e.routes.get? fallbackMethod = some ⟨handler, ∅⟩ := by
    rw [OrderedMap.get?_eq_some_iff_mem, hentries]
    exact List.mem_singleton_self _
  refine ⟨handler, Endpoint.route?_eq_some_iff.2 ⟨∅, hget⟩, ?_⟩
  rw [Node.route?, show root.at? (.fallback []) = some e from he]
  exact hget

theorem route?_fallback_eq_none (he : root.fallback? = none) :
    root.route? ⟨.fallback [], fallbackMethod⟩ = none := by
  rw [Node.route?, show root.at? (.fallback []) = none from he]
  rfl

end Unreached

/-! ## Equality -/

variable [BEq H] {xs ys : List (String × H)} {root root' : Node H}

/-- Fallback endpoints have equal handlers when the slots of the fallback have equal routes. -/
theorem rel_fallback?_iff (hx : build xs = .ok root) (hy : build ys = .ok root') :
    Option.Rel (fun e e' => ∃ h h', e.route? fallbackMethod = some h ∧
        e'.route? fallbackMethod = some h' ∧ (h == h') = true) root.fallback? root'.fallback? ↔
      Option.Rel (fun r r' => (r == r') = true) (root.route? ⟨.fallback [], fallbackMethod⟩)
        (root'.route? ⟨.fallback [], fallbackMethod⟩) := by
  cases he : root.fallback? with
  | none =>
    rw [route?_fallback_eq_none he]
    cases he' : root'.fallback? with
    | none => simp [route?_fallback_eq_none he']
    | some e' =>
      obtain ⟨h', -, hr'⟩ := exists_handler_of_fallback? hy he'
      simp [hr']
  | some e =>
    obtain ⟨h, hh, hr⟩ := exists_handler_of_fallback? hx he
    rw [hr]
    cases he' : root'.fallback? with
    | none => simp [route?_fallback_eq_none he']
    | some e' =>
      obtain ⟨h', hh', hr'⟩ := exists_handler_of_fallback? hy he'
      rw [hr', Option.rel_some_some, Option.rel_some_some, hh, hh']
      constructor
      · rintro ⟨_, _, ⟨⟩, ⟨⟩, heq⟩
        exact Bool.and_eq_true_iff.2 ⟨heq, OrderedMap.beq_self ∅⟩
      · exact fun heq => ⟨h, h', rfl, rfl, (Bool.and_eq_true_iff.1 heq).1⟩

/-- Tries answer alike exactly when they have equal routes in every slot. -/
theorem answersAlike_iff_route? (hx : build xs = .ok root) (hy : build ys = .ok root') :
    root.AnswersAlike root' ↔
      ∀ s, Option.Rel (fun r r' => (r == r') = true) (root.route? s) (root'.route? s) := by
  constructor
  · rintro h ⟨place, M⟩
    cases place with
    | path segments =>
      by_cases hM : Text.uppercase M = M
      · have hhandler := h.handler segments M
        have hvars := h.vars segments M
        rw [Node.answer?_handler, Node.answer?_handler, hM] at hhandler
        rw [Node.answer?_vars, Node.answer?_vars, hM] at hvars
        exact rel_route_iff.2 ⟨hhandler, hvars⟩
      · rw [route?_eq_none_of_lowercase hx hM, route?_eq_none_of_lowercase hy hM]
        exact .none
    | fallback segments =>
      by_cases hslot : segments = [] ∧ M = fallbackMethod
      · obtain ⟨rfl, rfl⟩ := hslot
        exact (rel_fallback?_iff hx hy).1 h.fallback
      · rw [route?_fallback_eq_none_of_ne hx hslot, route?_fallback_eq_none_of_ne hy hslot]
        exact .none
  · intro h
    refine ⟨fun segments method => ?_, fun segments method => ?_, (rel_fallback?_iff hx hy).2 (h _)⟩
    · rw [Node.answer?_handler, Node.answer?_handler]
      exact (rel_route_iff.1 (h _)).1
    · rw [Node.answer?_vars, Node.answer?_vars]
      exact (rel_route_iff.1 (h _)).2

/-- **Tries that were built are equal exactly when they answer alike.** -/
theorem beq_iff_answersAlike (hx : build xs = .ok root) (hy : build ys = .ok root') :
    (root == root') = true ↔ root.AnswersAlike root' := by
  rw [answersAlike_iff_route? hx hy]
  exact (Node.Holds.of_build hx).beq_iff_route? (.of_build hy) (trim_of_build hx) (trim_of_build hy)

/-- Two spellings of one path and the fallback, in two orders. -/
theorem beq_iff_answersAlike_users :
    ∃ root root', build [("GET /u/:id", Json.str "get"), ("default", .null), ("put /u/*", .null)] =
        .ok root ∧
      build [("put /u/*", .null), ("GET /u/:id", .str "get"), ("default", .null)] = .ok root' ∧
      root.AnswersAlike root' := by
  have hperm : [("GET /u/:id", Json.str "get"), ("default", .null), ("put /u/*", .null)].Perm
      [("put /u/*", .null), ("GET /u/:id", .str "get"), ("default", .null)] :=
    @List.perm_append_comm _ [_, _] [_]
  obtain ⟨root, hx⟩ : ∃ root, build [("GET /u/:id", Json.str "get"), ("default", .null),
      ("put /u/*", .null)] = .ok root := ⟨_, rfl⟩
  obtain ⟨root', hy⟩ := (exists_build_congr (hperm.map Prod.fst)).1 ⟨root, hx⟩
  refine ⟨root, root', hx, hy, (beq_iff_answersAlike hx hy).1 ?_⟩
  exact (Alike.of_perm hperm fun entry _ => Json.same_refl entry.2).build_beq hx hy

end RouteTrie
