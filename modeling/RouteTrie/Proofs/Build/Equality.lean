import RouteTrie.Json.Basic
import RouteTrie.Proofs.Build.Growth
import RouteTrie.Proofs.Build.Lookup
import RouteTrie.Proofs.Node.Equality
import RouteTrie.Table

/-!
# The order of the entries does not matter

Two tries that were built are equal exactly when they have equal routes in every slot.  Slots do
not know the order in which they were bound, so entries that are listed in another order lead to an
equal trie, or again to none; which error is met first may differ.

## What is here

* `Node.Holds.beq_iff_route?`: equality of tries, slot by slot.
* `exists_build_congr`: whether there is a trie depends on the keys, in any order.
* `Alike`: lists with the same keys and equal handlers up to order, of which equal tables are an
  example.
* `self_beq_of_build`: what equal tries say about the handlers.
* `build_perm`: entries in another order, and equal tables.
-/

set_option autoImplicit false

namespace RouteTrie

variable {H : Type}

/-! ## Slot by slot -/

namespace Node.Holds

variable {root root' : Node H} {bs bs' : List (Slot × Route H)}

/-- Where there is an endpoint there is a route. -/
theorem exists_route?_of_at? (hroot : root.Holds bs) {p : Place} {e : Endpoint H}
    (h : root.at? p = some e) : ∃ M r, root.route? ⟨p, M⟩ = some r := by
  obtain ⟨⟨M, r⟩, hmem⟩ := List.exists_mem_of_ne_nil _ (hroot.routesAt_ne_nil h)
  exact ⟨M, r, hroot.route?_eq_some_iff.2 (mem_routesAt.1 hmem)⟩

/-- A trie that has the slots of another one has its places. -/
theorem exists_at?_of_route? (hroot : root.Holds bs)
    (h : ∀ s, (root.route? s).isSome = true → (root'.route? s).isSome = true) {p : Place}
    {e : Endpoint H} (he : root.at? p = some e) : ∃ e', root'.at? p = some e' := by
  obtain ⟨M, r, hr⟩ := hroot.exists_route?_of_at? he
  have hsome := h ⟨p, M⟩ (by rw [hr]; rfl)
  exact Option.isSome_iff_exists.1 (Option.isSome_of_isSome_bind hsome)

/-- **Tries are equal exactly when they are equal slot by slot.** -/
theorem beq_iff_route? [BEq H] (hroot : root.Holds bs) (hroot' : root'.Holds bs')
    (htrim : root.Trim) (htrim' : root'.Trim) :
    (root == root') = true ↔
      ∀ s, Option.Rel (fun r r' => (r == r') = true) (root.route? s) (root'.route? s) := by
  rw [htrim.beq_iff htrim']
  constructor
  · intro h s
    exact rel_bind (h s.place) fun e e' _ _ he => (Endpoint.beq_iff.1 he).2 s.method
  · intro h
    have hsome : ∀ s, (root.route? s).isSome = (root'.route? s).isSome := fun s =>
      isSome_eq_of_rel (h s)
    refine fun p => rel_of_some_iff (fun e he => ?_) fun e' he' => ?_
    · obtain ⟨e', he'⟩ := hroot.exists_at?_of_route? (fun s => (hsome s).symm.trans) he
      refine ⟨e', he', Endpoint.beq_iff.2 ⟨?_, fun M => ?_⟩⟩
      · rw [hroot.path_eq p e he, hroot'.path_eq p e' he']
      · have hslot := h ⟨p, M⟩
        rwa [Node.route?, Node.route?, he, he'] at hslot
    · exact hroot'.exists_at?_of_route? (fun s => (hsome s).trans) he'

end Node.Holds

/-! ## Keys in another order -/

theorem mem_bindings_iff {entries : List (String × H)} {s : Slot} {route : Route H} :
    (s, route) ∈ bindings entries ↔ ∃ key handler r, (key, handler) ∈ entries ∧
      Registration.ofKey key = .ok r ∧ s ∈ r.slots ∧ route = ⟨handler, r.vars⟩ := by
  simp only [mem_bindings, mem_entryBindings_iff, Prod.exists]
  constructor
  · rintro ⟨key, handler, hmem, r, hr, hs, hroute⟩
    exact ⟨key, handler, r, hmem, hr, hs, hroute⟩
  · rintro ⟨key, handler, r, hmem, hr, hs, hroute⟩
    exact ⟨key, handler, hmem, r, hr, hs, hroute⟩

/-- The slots that a key asks for; none if it cannot be read. -/
def keySlots (key : String) : List Slot :=
  match Registration.ofKey key with
  | .ok r => r.slots
  | .error _ => []

theorem keys_bindings_eq (entries : List (String × H)) :
    Entries.keys (bindings entries) = (Entries.keys entries).flatMap keySlots := by
  rw [bindings, Entries.keys, List.map_flatMap, Entries.keys, List.flatMap_map]
  congr 1
  funext entry
  rw [entryBindings, keySlots]
  cases Registration.ofKey entry.1 with
  | error e => rfl
  | ok r => exact r.keys_bindings entry.2

/-- **Whether there is a trie depends on the keys, in any order.** -/
theorem exists_build_congr {xs ys : List (String × H)}
    (h : (Entries.keys xs).Perm (Entries.keys ys)) :
    (∃ root, build xs = .ok root) ↔ ∃ root, build ys = .ok root := by
  have hread : ∀ l : List (String × H), (∀ entry ∈ l, ∃ r, Registration.ofKey entry.1 = .ok r) ↔
      ∀ key ∈ Entries.keys l, ∃ r, Registration.ofKey key = .ok r := by
    intro l
    rw [Entries.keys, List.forall_mem_map]
  rw [exists_build_iff, exists_build_iff, hread, hread, keys_bindings_eq, keys_bindings_eq,
    (h.flatMap_right keySlots).nodup_iff]
  simp only [h.mem_iff]

/-! ## Entries in another order -/

variable [BEq H]

/-- The lists have the same keys, as often, and equal handlers for each of them, in any order. -/
structure Alike (xs ys : List (String × H)) : Prop where
  /-- The keys are the same up to order. -/
  keys : (Entries.keys xs).Perm (Entries.keys ys)
  /-- Every entry of the first list is in the second one, up to equality of its handler. -/
  forth : ∀ key handler, (key, handler) ∈ xs →
    ∃ handler', (key, handler') ∈ ys ∧ (handler == handler') = true

theorem Alike.of_perm {xs ys : List (String × H)} (h : xs.Perm ys)
    (hself : ∀ entry ∈ xs, (entry.2 == entry.2) = true) : Alike xs ys where
  keys := h.map Prod.fst
  forth _ handler hmem := ⟨handler, h.mem_iff.1 hmem, hself _ hmem⟩

theorem Alike.of_beq {m n : OrderedMap String H} (h : (m == n) = true) :
    Alike m.entries n.entries where
  keys := by
    refine (List.perm_ext_iff_of_nodup m.nodup n.nodup).2 fun key => ?_
    have hsome := isSome_eq_of_rel (OrderedMap.beq_iff.1 h key)
    rw [← OrderedMap.keys, ← OrderedMap.keys, ← OrderedMap.contains_iff, ← OrderedMap.contains_iff]
    exact Bool.eq_iff_iff.1 hsome
  forth key handler hmem := by
    have hrel := OrderedMap.beq_iff.1 h key
    rw [OrderedMap.get?_eq_some_iff_mem.2 hmem] at hrel
    cases hget : n.get? key with
    | none =>
      rw [hget] at hrel
      cases hrel
    | some handler' =>
      rw [hget] at hrel
      cases hrel with
      | some heq => exact ⟨handler', OrderedMap.get?_eq_some_iff_mem.1 hget, heq⟩

/-- Entries that are alike lead to equal tries. -/
theorem Alike.build_beq {xs ys : List (String × H)} (h : Alike xs ys) {root root' : Node H}
    (hx : build xs = .ok root) (hy : build ys = .ok root') : (root == root') = true := by
  have hroot := Node.Holds.of_build hx
  have hroot' := Node.Holds.of_build hy
  rw [hroot.beq_iff_route? hroot' (trim_of_build hx) (trim_of_build hy)]
  refine fun s => rel_of_some_iff (fun route hroute => ?_) fun route' hroute' => ?_
  · obtain ⟨key, handler, r, hmem, hr, hs, rfl⟩ :=
      mem_bindings_iff.1 (hroot.route?_eq_some_iff.1 hroute)
    obtain ⟨handler', hmem', heq⟩ := h.forth key handler hmem
    refine ⟨⟨handler', r.vars⟩, ?_, ?_⟩
    · exact hroot'.route?_eq_some_iff.2 (mem_bindings_iff.2 ⟨key, handler', r, hmem', hr, hs, rfl⟩)
    · exact Bool.and_eq_true_iff.2 ⟨heq, r.vars.beq_self⟩
  · -- the slot is bound in the second list, so it is bound by the same key in the first one
    have hslot := Entries.mem_keys_of_mem (hroot'.route?_eq_some_iff.1 hroute')
    rw [keys_bindings_eq, ← (h.keys.flatMap_right keySlots).mem_iff, ← keys_bindings_eq] at hslot
    obtain ⟨⟨_, route⟩, hmem, rfl⟩ := List.mem_map.1 hslot
    exact ⟨route, hroot.route?_eq_some_iff.2 hmem⟩

/-- A handler that is in two equal tries equals itself. -/
theorem self_beq_of_build {xs ys : List (String × H)} (h : xs.Perm ys) {root root' : Node H}
    (hx : build xs = .ok root) (hy : build ys = .ok root') (hbeq : (root == root') = true) :
    ∀ entry ∈ xs, (entry.2 == entry.2) = true := by
  intro entry hmem
  have hroot := Node.Holds.of_build hx
  have hroot' := Node.Holds.of_build hy
  obtain ⟨r, hr⟩ := exists_ofKey_of_foldlM hx entry hmem
  obtain ⟨m, hm⟩ := List.exists_mem_of_ne_nil _ (Registration.readable_of_ofKey hr).methods_ne_nil
  -- both tries have the handler in the slot of the first method
  have hslots : ∀ l : List (String × H), entry ∈ l →
      (⟨r.place, Text.uppercase m⟩, ⟨entry.2, r.vars⟩) ∈ bindings l := fun l hl =>
    mem_bindings_iff.2 ⟨entry.1, entry.2, r, hl, hr, List.mem_map_of_mem hm, rfl⟩
  have hrel := (hroot.beq_iff_route? hroot' (trim_of_build hx) (trim_of_build hy)).1 hbeq
    ⟨r.place, Text.uppercase m⟩
  rw [hroot.route?_eq_some_iff.2 (hslots xs hmem),
    hroot'.route?_eq_some_iff.2 (hslots ys (h.mem_iff.1 hmem))] at hrel
  cases hrel with
  | some hroute => exact (Bool.and_eq_true_iff.1 hroute).1

/-- **The order of the entries does not matter.**  A list of entries in another order can be built
exactly when the list itself can, and leads to an equal trie; only a handler that does not even
equal itself can prevent this.  Equal tables lead to equal tries, or both to an error. -/
theorem build_perm :
    (∀ xs ys : List (String × H), xs.Perm ys →
      ((∃ root, build xs = .ok root) ↔ ∃ root', build ys = .ok root') ∧
      ∀ root root', build xs = .ok root → build ys = .ok root' →
        ((root == root') = true ↔ ∀ entry ∈ xs, (entry.2 == entry.2) = true)) ∧
    ∀ t u : Table H, (t == u) = true →
      (∃ root root', t.build = .ok root ∧ u.build = .ok root' ∧ (root == root') = true) ∨
      ∃ e e', t.build = .error e ∧ u.build = .error e' := by
  refine ⟨fun xs ys h => ⟨exists_build_congr (h.map Prod.fst), fun root root' hx hy => ⟨?_, ?_⟩⟩,
    fun t u h => ?_⟩
  · exact self_beq_of_build h hx hy
  · exact fun hself => (Alike.of_perm h hself).build_beq hx hy
  · have halike : Alike t.entries.entries u.entries.entries :=
      .of_beq (Bool.and_eq_true_iff.1 h).2
    have hiff := exists_build_congr halike.keys
    cases ht : t.build with
    | ok root =>
      obtain ⟨root', hu⟩ := hiff.1 ⟨root, ht⟩
      exact .inl ⟨root, root', rfl, hu, halike.build_beq ht hu⟩
    | error e =>
      cases hu : u.build with
      | error e' => exact .inr ⟨e, e', rfl, rfl⟩
      | ok root' =>
        obtain ⟨root, ht'⟩ := hiff.2 ⟨root', hu⟩
        cases ht.symm.trans ht'

/-- Two spellings of one path and the fallback, in two orders, as lists and as tables. -/
theorem build_perm_users :
    (∃ root root', build [("GET /u/:id", Json.str "get"), ("default", .null), ("put /u/*", .null)] =
        .ok root ∧
      build [("put /u/*", .null), ("GET /u/:id", .str "get"), ("default", .null)] = .ok root' ∧
      (root == root') = true) ∧
    ∃ root root', (Table.ofList [("GET /u/:id", Json.int 1), ("default", .null)]).build = .ok root ∧
      (Table.ofList [("default", .null), ("GET  /u/:id", Json.int 1)]).build = .ok root' ∧
      (root == root') = true := by
  obtain ⟨hlists, htables⟩ := build_perm (H := Json)
  constructor
  · obtain ⟨hiff, hbeq⟩ := hlists
      [("GET /u/:id", .str "get"), ("default", .null), ("put /u/*", .null)]
      [("put /u/*", .null), ("GET /u/:id", .str "get"), ("default", .null)]
      (@List.perm_append_comm _ [_, _] [_])
    obtain ⟨root, hx⟩ : ∃ root, build [("GET /u/:id", Json.str "get"), ("default", .null),
        ("put /u/*", .null)] = .ok root := ⟨_, rfl⟩
    obtain ⟨root', hy⟩ := hiff.1 ⟨root, hx⟩
    exact ⟨root, root', hx, hy, (hbeq root root' hx hy).2 fun entry _ => Json.same_refl entry.2⟩
  · have heq : (Table.ofList [("GET /u/:id", Json.int 1), ("default", .null)] ==
        Table.ofList [("default", .null), ("GET  /u/:id", .int 1)]) = true := rfl
    rcases htables _ _ heq with h | ⟨_, _, he, -⟩
    · exact h
    · cases he

end RouteTrie
