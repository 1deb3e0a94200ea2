import RouteTrie.Proofs.Build.Binding

/-!
# Looking up in a trie is searching the entries

The trie of some entries answers every question as a search of the entries from the first to the
last would: a method on a path leads to the one entry whose key has the method and leads to the same
segments, and to nothing if there is no such entry.

## What is here

* `Node.Holds.route?_eq_some_iff`: what a trie that holds some bindings has in a slot.
* `getElem?_entryBindings_path`, `getElem?_entryBindings_fallback`: the bindings of an entry, read
  off its key.
* `Node.Holds.index_eq`: a slot is bound by one method of one entry.
* `Answers`, `lookup_build`: the search of the entries, and that the trie agrees with it.
-/

set_option autoImplicit false

namespace RouteTrie

variable {H : Type}

/-! ## Slots of a trie -/

/-- The route in a slot. -/
def Node.route? (root : Node H) (s : Slot) : Option (Route H) :=
  (root.at? s.place).bind fun e => e.routes.get? s.method

namespace Node.Holds

variable {root : Node H} {bs : List (Slot × Route H)}

/-- A trie has in a slot what is bound to it. -/
theorem route?_eq_some_iff (hroot : root.Holds bs) {s : Slot} {r : Route H} :
    root.route? s = some r ↔ (s, r) ∈ bs := by
  obtain ⟨p, M⟩ := s
  rw [← mem_routesAt, route?]
  cases he : root.at? p with
  | none => simp [(hroot.at?_eq_none p).1 he]
  | some e => rw [Option.bind_some, OrderedMap.get?_eq_some_iff_mem, hroot.routes_eq p e he]

end Node.Holds

/-- What an endpoint answers is what the trie has in a slot. -/
theorem Node.route?_path (root : Node H) (segments : List Segment) (method : String) :
    root.route? ⟨.path segments, Text.uppercase method⟩ =
      ((root.find? segments).bind Node.endpoint?).bind fun e =>
        e.routes.get? (Text.uppercase method) := by
  rw [route?, at?_path]

/-! ## The bindings of an entry -/

theorem mem_entryBindings_iff {entry : String × H} {s : Slot} {route : Route H} :
    (s, route) ∈ entryBindings entry ↔
      ∃ r, Registration.ofKey entry.1 = .ok r ∧ s ∈ r.slots ∧ route = ⟨entry.2, r.vars⟩ := by
  rw [entryBindings]
  cases hr : Registration.ofKey entry.1 with
  | error e => simp
  | ok r =>
    simp only [Registration.bindings, List.mem_map, Prod.mk.injEq, Except.ok.injEq]
    constructor
    · rintro ⟨t, ht, rfl, rfl⟩
      exact ⟨r, rfl, ht, rfl⟩
    · rintro ⟨r', rfl, hs, rfl⟩
      exact ⟨s, hs, rfl, rfl⟩

/-- The bindings of an entry below paths, in the order of the methods of its key. -/
theorem getElem?_entryBindings_path {key : String} {handler : H} {j : Nat}
    {segments : List Segment} {M : String} {route : Route H} :
    (entryBindings (key, handler))[j]? = some (⟨.path segments, M⟩, route) ↔
      ∃ methods written path m, RouteKey.parse key = .ok (.route methods written) ∧
        Path.parse written = .ok path ∧ path.segments = segments ∧ methods[j]? = some m ∧
        Text.uppercase m = M ∧ route = ⟨handler, path.vars⟩ := by
  constructor
  · intro h
    obtain ⟨r, hr, hs, rfl⟩ := mem_entryBindings_iff.1 (List.mem_of_getElem? h)
    rw [entryBindings_of_ofKey hr, Registration.bindings, Registration.slots, List.map_map,
      List.getElem?_map, Option.map_eq_some_iff] at h
    obtain ⟨m, hm, hslot⟩ := h
    obtain ⟨hplace, hM⟩ := Slot.mk.inj (Prod.mk.inj hslot).1
    cases r with
    | fallback => cases hplace
    | route methods written path =>
      obtain ⟨hkey, hpath⟩ := Registration.ofKey_eq_route_iff.1 hr
      exact ⟨methods, written, path, m, hkey, hpath, Place.path.inj hplace, hm, hM, rfl⟩
  · rintro ⟨methods, written, path, m, hkey, hpath, rfl, hm, rfl, rfl⟩
    rw [entryBindings_of_ofKey (Registration.ofKey_eq_route_iff.2 ⟨hkey, hpath⟩),
      Registration.bindings, Registration.slots, List.map_map, List.getElem?_map,
      Registration.methods, hm]
    rfl

/-- The bindings of an entry below paths: its key has the method and leads to the segments. -/
theorem mem_entryBindings_path {key : String} {handler : H} {segments : List Segment} {M : String}
    {route : Route H} :
    (⟨.path segments, M⟩, route) ∈ entryBindings (key, handler) ↔
      ∃ methods written path, RouteKey.parse key = .ok (.route methods written) ∧
        Path.parse written = .ok path ∧ path.segments = segments ∧
        (∃ m ∈ methods, Text.uppercase m = M) ∧ route = ⟨handler, path.vars⟩ := by
  rw [List.mem_iff_getElem?]
  simp only [getElem?_entryBindings_path]
  constructor
  · rintro ⟨j, methods, written, path, m, hkey, hpath, hs, hm, hM, hroute⟩
    exact ⟨methods, written, path, hkey, hpath, hs, ⟨m, List.mem_of_getElem? hm, hM⟩, hroute⟩
  · rintro ⟨methods, written, path, hkey, hpath, hs, ⟨m, hm, hM⟩, hroute⟩
    obtain ⟨j, hj⟩ := List.mem_iff_getElem?.1 hm
    exact ⟨j, methods, written, path, m, hkey, hpath, hs, hj, hM, hroute⟩

/-- The binding of an entry at a fallback: its key is the fallback key. -/
theorem getElem?_entryBindings_fallback {key : String} {handler : H} {j : Nat}
    {segments : List Segment} {M : String} {route : Route H} :
    (entryBindings (key, handler))[j]? = some (⟨.fallback segments, M⟩, route) ↔
      key = fallbackKey ∧ j = 0 ∧ segments = [] ∧ M = fallbackMethod ∧ route = ⟨handler, ∅⟩ := by
  constructor
  · intro h
    obtain ⟨r, hr, hs, rfl⟩ := mem_entryBindings_iff.1 (List.mem_of_getElem? h)
    have hplace := Registration.place_of_mem_slots hs
    cases r with
    | route methods written path => cases hplace
    | fallback =>
      rw [entryBindings_of_ofKey hr] at h
      obtain ⟨hj, hslot⟩ := List.getElem?_eq_some_iff.1 h
      obtain rfl : j = 0 := Nat.lt_one_iff.1 hj
      cases hslot
      exact ⟨Registration.ofKey_eq_fallback_iff.1 hr, rfl, rfl, rfl, rfl⟩
  · rintro ⟨rfl, rfl, rfl, rfl, rfl⟩
    rw [entryBindings_of_ofKey (Registration.ofKey_eq_fallback_iff.2 rfl)]
    rfl

/-- The bindings of an entry at a fallback: its key is the fallback key. -/
theorem mem_entryBindings_fallback {key : String} {handler : H} {segments : List Segment}
    {M : String} {route : Route H} :
    (⟨.fallback segments, M⟩, route) ∈ entryBindings (key, handler) ↔
      key = fallbackKey ∧ segments = [] ∧ M = fallbackMethod ∧ route = ⟨handler, ∅⟩ := by
  rw [List.mem_iff_getElem?]
  simp only [getElem?_entryBindings_fallback]
  constructor
  · rintro ⟨j, hkey, -, hslot⟩
    exact ⟨hkey, hslot⟩
  · rintro ⟨hkey, hslot⟩
    exact ⟨0, hkey, rfl, hslot⟩

theorem mem_bindings {entries : List (String × H)} {b : Slot × Route H} :
    b ∈ bindings entries ↔ ∃ entry ∈ entries, b ∈ entryBindings entry :=
  List.mem_flatMap

/-! ## Which entry it is -/

/-- An element of lists that are put together without repetition stands at one place in one of
them. -/
theorem index_eq_of_nodup_flatMap {α β : Type} {l : List α} {f : α → List β}
    (hnd : (l.flatMap f).Nodup) {i i' j j' : Nat} {a b : α} {x : β} (hi : l[i]? = some a)
    (hi' : l[i']? = some b) (hj : (f a)[j]? = some x) (hj' : (f b)[j']? = some x) :
    i = i' ∧ j = j' := by
  obtain ⟨heach, hpair⟩ := List.pairwise_flatMap.1 hnd
  rw [List.pairwise_iff_getElem] at hpair
  obtain ⟨hl, rfl⟩ := List.getElem?_eq_some_iff.1 hi
  obtain ⟨hl', rfl⟩ := List.getElem?_eq_some_iff.1 hi'
  have hx := List.mem_of_getElem? hj
  have hx' := List.mem_of_getElem? hj'
  have hii : i = i' := by
    rcases Nat.lt_trichotomy i i' with h | h | h
    · exact absurd rfl (hpair i i' hl hl' h x hx x hx')
    · exact h
    · exact absurd rfl (hpair i' i hl' hl h x hx' x hx)
  subst hii
  have hlt := (List.getElem?_eq_some_iff.1 hj).1
  exact ⟨rfl, (List.getElem?_inj hlt (heach _ (List.getElem_mem hl))).1 (hj.trans hj'.symm)⟩

section Index

variable {root : Node H} {entries : List (String × H)} {i i' j j' : Nat} {a b : String × H} {s : Slot}

/-- Only one method of one entry of a list that can be built takes a slot. -/
theorem Node.Holds.index_eq_of_keys (hroot : root.Holds (bindings entries))
    (hi : entries[i]? = some a) (hi' : entries[i']? = some b)
    (hj : (Entries.keys (entryBindings a))[j]? = some s)
    (hj' : (Entries.keys (entryBindings b))[j']? = some s) : i = i' ∧ j = j' := by
  have hnd := hroot.nodup
  rw [Entries.keys, bindings, List.map_flatMap] at hnd
  exact index_eq_of_nodup_flatMap hnd hi hi' hj hj'

/-- Only one method of one entry of a list that can be built binds a slot. -/
theorem Node.Holds.index_eq (hroot : root.Holds (bindings entries)) {r r' : Route H}
    (hi : entries[i]? = some a) (hi' : entries[i']? = some b)
    (hj : (entryBindings a)[j]? = some (s, r)) (hj' : (entryBindings b)[j']? = some (s, r')) :
    i = i' ∧ j = j' := by
  refine hroot.index_eq_of_keys (s := s) hi hi' ?_ ?_
  · rw [Entries.keys, List.getElem?_map, hj]
    rfl
  · rw [Entries.keys, List.getElem?_map, hj']
    rfl

end Index

/-! ## Searching the entries -/

/-- Entry `i` answers a method on some segments with a handler and variables: its key can be read,
has the method in some case, and leads to the segments. -/
def Answers (entries : List (String × H)) (segments : List Segment) (method : String) (i : Nat)
    (handler : H) (vars : VarMap) : Prop :=
  ∃ key methods written path, entries[i]? = some (key, handler) ∧
    RouteKey.parse key = .ok (.route methods written) ∧ Path.parse written = .ok path ∧
    path.segments = segments ∧ path.vars = vars ∧
    ∃ m ∈ methods, Text.uppercase m = Text.uppercase method

theorem answers_iff {entries : List (String × H)} {segments : List Segment} {method : String}
    {i : Nat} {handler : H} {vars : VarMap} :
    Answers entries segments method i handler vars ↔
      ∃ key, entries[i]? = some (key, handler) ∧
        (⟨.path segments, Text.uppercase method⟩, ⟨handler, vars⟩) ∈
          entryBindings (key, handler) := by
  simp only [mem_entryBindings_path]
  constructor
  · rintro ⟨key, methods, written, path, hi, hkey, hpath, hs, rfl, hm⟩
    exact ⟨key, hi, methods, written, path, hkey, hpath, hs, hm, rfl⟩
  · rintro ⟨key, hi, methods, written, path, hkey, hpath, hs, hm, hroute⟩
    exact ⟨key, methods, written, path, hi, hkey, hpath, hs, (Route.mk.inj hroute).2.symm, hm⟩

/-- A slot below a path is bound to a route exactly when an entry answers with it. -/
theorem exists_answers_iff {entries : List (String × H)} {segments : List Segment} {method : String}
    {r : Route H} :
    (⟨.path segments, Text.uppercase method⟩, r) ∈ bindings entries ↔
      ∃ i, Answers entries segments method i r.handler r.vars := by
  simp only [mem_bindings, answers_iff]
  constructor
  · rintro ⟨⟨key, handler⟩, hmem, hb⟩
    obtain ⟨i, hi⟩ := List.mem_iff_getElem?.1 hmem
    obtain ⟨_, _, _, -, -, -, -, rfl⟩ := mem_entryBindings_path.1 hb
    exact ⟨i, key, hi, hb⟩
  · rintro ⟨i, key, hi, hb⟩
    exact ⟨(key, r.handler), List.mem_of_getElem? hi, hb⟩

theorem mem_bindings_fallback_iff {entries : List (String × H)} {segments : List Segment}
    {M : String} {r : Route H} :
    (⟨.fallback segments, M⟩, r) ∈ bindings entries ↔
      (fallbackKey, r.handler) ∈ entries ∧ segments = [] ∧ M = fallbackMethod ∧ r.vars = ∅ := by
  rw [mem_bindings]
  constructor
  · rintro ⟨⟨key, handler⟩, hmem, hb⟩
    obtain ⟨rfl, rfl, rfl, rfl⟩ := mem_entryBindings_fallback.1 hb
    exact ⟨hmem, rfl, rfl, rfl⟩
  · rintro ⟨hmem, rfl, rfl, hv⟩
    obtain ⟨handler, vars⟩ := r
    obtain rfl : vars = ∅ := hv
    exact ⟨_, hmem, mem_entryBindings_fallback.2 ⟨rfl, rfl, rfl, rfl⟩⟩

/-! ## What the trie answers -/

theorem Endpoint.route?_eq_some_iff {e : Endpoint H} {method : String} {handler : H} :
    e.route? method = some handler ↔
      ∃ vars, e.routes.get? (Text.uppercase method) = some ⟨handler, vars⟩ := by
  rw [Endpoint.route?, Option.map_eq_some_iff]
  constructor
  · rintro ⟨r, hr, rfl⟩
    exact ⟨r.vars, hr⟩
  · rintro ⟨vars, hr⟩
    exact ⟨_, hr, rfl⟩

theorem Endpoint.vars_of_get? {e : Endpoint H} {method : String} {r : Route H}
    (h : e.routes.get? (Text.uppercase method) = some r) : e.vars method = .ok r.vars := by
  rw [Endpoint.vars, h]

/-- The endpoint at the end of a path answers with what the trie has in its slots. -/
theorem Node.exists_endpoint_of_route? {root : Node H} {segments : List Segment} {method : String}
    {r : Route H} (h : root.route? ⟨.path segments, Text.uppercase method⟩ = some r) :
    ∃ e, (root.find? segments).bind Node.endpoint? = some e ∧ e.route? method = some r.handler ∧
      e.vars method = .ok r.vars := by
  rw [route?_path, Option.bind_eq_some_iff] at h
  obtain ⟨e, he, hr⟩ := h
  exact ⟨e, he, Endpoint.route?_eq_some_iff.2 ⟨r.vars, hr⟩, Endpoint.vars_of_get? hr⟩

namespace Node.Holds

variable {root : Node H} {entries : List (String × H)}

theorem route?_iff_answers (hroot : root.Holds (bindings entries)) {segments : List Segment}
    {method : String} {handler : H} :
    ((root.find? segments).bind Node.endpoint?).bind (fun e => e.route? method) = some handler ↔
      ∃ i vars, Answers entries segments method i handler vars := by
  have hslot : ∀ vars, (∃ e, (root.find? segments).bind Node.endpoint? = some e ∧
      e.routes.get? (Text.uppercase method) = some ⟨handler, vars⟩) ↔
      ∃ i, Answers entries segments method i handler vars := by
    intro vars
    rw [← exists_answers_iff (r := ⟨handler, vars⟩), ← hroot.route?_eq_some_iff, Node.route?_path,
      Option.bind_eq_some_iff]
  rw [Option.bind_eq_some_iff]
  simp only [Endpoint.route?_eq_some_iff]
  constructor
  · rintro ⟨e, he, vars, hr⟩
    obtain ⟨i, hi⟩ := (hslot vars).1 ⟨e, he, hr⟩
    exact ⟨i, vars, hi⟩
  · rintro ⟨i, vars, hi⟩
    obtain ⟨e, he, hr⟩ := (hslot vars).2 ⟨i, hi⟩
    exact ⟨e, he, vars, hr⟩

theorem vars_of_answers (hroot : root.Holds (bindings entries)) {segments : List Segment}
    {method : String} {i : Nat} {handler : H} {vars : VarMap}
    (h : Answers entries segments method i handler vars) :
    ∃ e, (root.find? segments).bind Node.endpoint? = some e ∧ e.vars method = .ok vars := by
  have hb := exists_answers_iff (r := ⟨handler, vars⟩).2 ⟨i, h⟩
  obtain ⟨e, he, -, hv⟩ := Node.exists_endpoint_of_route? (hroot.route?_eq_some_iff.2 hb)
  exact ⟨e, he, hv⟩

theorem answers_unique (hroot : root.Holds (bindings entries)) {segments : List Segment}
    {method : String} {i j : Nat} {handler handler' : H} {vars vars' : VarMap}
    (h : Answers entries segments method i handler vars)
    (h' : Answers entries segments method j handler' vars') : j = i := by
  obtain ⟨key, hi, hb⟩ := answers_iff.1 h
  obtain ⟨key', hj, hb'⟩ := answers_iff.1 h'
  obtain ⟨m, hm⟩ := List.mem_iff_getElem?.1 hb
  obtain ⟨n, hn⟩ := List.mem_iff_getElem?.1 hb'
  exact (hroot.index_eq hj hi hn hm).1

/-- The fallback endpoint has the fallback method and nothing else. -/
theorem fallback?_of_mem (hroot : root.Holds (bindings entries)) {handler : H}
    (h : (fallbackKey, handler) ∈ entries) :
    ∃ e, root.fallback? = some e ∧ e.routes.entries = [(fallbackMethod, ⟨handler, ∅⟩)] := by
  have hb : (⟨.fallback [], fallbackMethod⟩, ⟨handler, ∅⟩) ∈ bindings entries :=
    mem_bindings_fallback_iff.2 ⟨h, rfl, rfl, rfl⟩
  have hslot := hroot.route?_eq_some_iff.2 hb
  rw [Node.route?, Option.bind_eq_some_iff] at hslot
  obtain ⟨e, he, hr⟩ := hslot
  refine ⟨e, he, Entries.eq_singleton e.routes.nodup (fun M hM => ?_)
    (OrderedMap.get?_eq_some_iff_mem.1 hr)⟩
  obtain ⟨⟨N, r⟩, hN, rfl⟩ := List.mem_map.1 hM
  rw [hroot.routes_eq _ e he, mem_routesAt] at hN
  exact (mem_bindings_fallback_iff.1 hN).2.2.1

theorem fallback?_isSome_iff (hroot : root.Holds (bindings entries)) :
    root.fallback?.isSome = true ↔ ∃ handler, (fallbackKey, handler) ∈ entries := by
  constructor
  · intro h
    obtain ⟨e, he⟩ := Option.isSome_iff_exists.1 h
    obtain ⟨⟨M, r⟩, hr⟩ :=
      List.exists_mem_of_ne_nil _ (hroot.routesAt_ne_nil (p := .fallback []) he)
    exact ⟨r.handler, (mem_bindings_fallback_iff.1 (mem_routesAt.1 hr)).1⟩
  · rintro ⟨handler, h⟩
    obtain ⟨e, he, -⟩ := hroot.fallback?_of_mem h
    rw [he]
    rfl

end Node.Holds

/-- **A lookup in a trie is a search of the entries.**  On every path a method leads to a handler
exactly when an entry answers it with that handler; this entry is the only one, and the variables
are those of its path.  The fallback endpoint is that of the entry with the fallback key. -/
theorem lookup_build {entries : List (String × H)} {root : Node H}
    (hb : build entries = .ok root) :
    (∀ p method, p.toList.head? = some '/' → ∃ q, Path.parse p = .ok q ∧
      (∀ handler,
        ((root.find? q.segments).bind Node.endpoint?).bind (fun e => e.route? method) =
            some handler ↔
          ∃ i vars, Answers entries q.segments method i handler vars) ∧
      ∀ i handler vars, Answers entries q.segments method i handler vars →
        (∀ j handler' vars', Answers entries q.segments method j handler' vars' → j = i) ∧
        ∃ e, (root.find? q.segments).bind Node.endpoint? = some e ∧ e.vars method = .ok vars) ∧
    (root.fallback?.isSome = true ↔ ∃ handler, (fallbackKey, handler) ∈ entries) ∧
    ∀ handler, (fallbackKey, handler) ∈ entries →
      ∃ e, root.fallback? = some e ∧ e.routes.entries = [(fallbackMethod, ⟨handler, ∅⟩)] := by
  have hroot := Node.Holds.of_build hb
  refine ⟨fun p method hp => ?_, hroot.fallback?_isSome_iff,
    fun handler h => hroot.fallback?_of_mem h⟩
  obtain ⟨q, hq⟩ := Path.parse_eq_ok hp
  refine ⟨q, hq, fun handler => hroot.route?_iff_answers, fun i handler vars h => ⟨?_, ?_⟩⟩
  · exact fun j handler' vars' h' => hroot.answers_unique h h'
  · exact hroot.vars_of_answers h

/-- Two methods of one entry share a position that another spelling of its variable leads to. -/
theorem lookup_build_users :
    ∃ root, build [("GET|post /users/{id}", 7), ("default", 9)] = .ok root ∧
      ((root.find? [.literal "users", .wildcard]).bind Node.endpoint?).bind
        (fun e => e.route? "Post") = some 7 ∧
      root.fallback?.isSome = true := by
  obtain ⟨root, hb⟩ : ∃ root, build [("GET|post /users/{id}", 7), ("default", 9)] = .ok root :=
    ⟨_, rfl⟩
  obtain ⟨hpaths, hfallback, -⟩ := lookup_build hb
  obtain ⟨q, hq, hfind, -⟩ := hpaths "/users/:name" "Post" (by decide)
  have hparse : Path.parse "/users/:name" =
      .ok ⟨[.literal "users", .wildcard], OrderedMap.ofList [("name", 1)]⟩ := rfl
  rw [hparse] at hq
  cases hq
  refine ⟨root, hb, (hfind 7).2 ⟨0, OrderedMap.ofList [("id", 1)], "GET|post /users/{id}",
    ["GET", "post"], "/users/{id}", _, rfl, rfl, rfl, rfl, rfl, "post", by decide, by decide⟩, ?_⟩
  exact hfallback.2 ⟨9, by decide⟩

end RouteTrie
