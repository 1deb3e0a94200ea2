import RouteTrie.Config.Validation
import RouteTrie.Proofs.Build.Check
import RouteTrie.Proofs.Build.Lookup
import RouteTrie.Proofs.Config.Sites

/-!
# A sound route file compiles to exactly its routes

Validation looks for conflicts in the table of a route file, so the table of a sound file exists and
can be built.  What the trie then has is said in terms of the file: every method of every site is
registered where the resolved key of the site leads, and nothing else is.

## What is here

* `Config.exists_build_of_problems`: a file without problems has a table, and this can be built.
* `Config.Site.Binds`: which slot a method of a site takes, and with which route.
* `Config.route?_eq_some_iff`, `Config.binds_unique`: a trie has the routes of the sites, each from
  one method of one site.
* `Config.compiles_of_validate`: all of this for a file that has been validated.
-/

set_option autoImplicit false

namespace RouteTrie.Config

variable {c : Config} {t : Table Json} {root : Node Json}

/-! ## Validation -/

theorem validate_eq_ok_iff : c.validate = .ok () ↔ c.problems = [] := by
  rw [validate, ← List.isEmpty_iff]
  split
  · rename_i h
    exact iff_of_true rfl h
  · rename_i h
    exact iff_of_false (fun heq => by cases heq) h

theorem problems_eq_nil_iff : c.problems = [] ↔ c.localProblems = [] ∧ c.conflict? = none := by
  rw [problems]
  split
  · rename_i h
    simp [List.isEmpty_iff.1 h]
  · rename_i h
    rw [List.isEmpty_iff] at h
    exact ⟨fun hnil => absurd hnil h, fun hnil => hnil.1⟩

/-- There is no conflict if the table exists and passes its check. -/
theorem conflict?_eq_none_iff : c.conflict? = none ↔ ∃ t, c.toTable = .ok t ∧ t.check = .ok () := by
  rw [conflict?]
  cases ht : c.toTable with
  | error e => simp
  | ok t =>
    cases hc : t.check with
    | error e => simp [hc]
    | ok u => simp [hc]

/-- A file without problems has a table, and this can be built. -/
theorem exists_build_of_problems (h : c.problems = []) :
    ∃ t root, c.toTable = .ok t ∧ t.build = .ok root := by
  obtain ⟨t, ht, hcheck⟩ := conflict?_eq_none_iff.1 (problems_eq_nil_iff.1 h).2
  obtain ⟨root, hroot⟩ := check_eq_ok_iff.1 hcheck
  exact ⟨t, root, ht, hroot⟩

theorem not_contains_fallback_of_group (h : c.localProblems = []) {g : Group} (hg : g ∈ c.groups) :
    ¬g.routes.contains fallbackKey = true := by
  intro hdef
  have hnil : c.groups.flatMap groupProblems = [] := (List.append_eq_nil_iff.1 h).2
  have hmem : Problem.fallbackInGroup g.base ∈ c.groups.flatMap groupProblems := by
    refine List.mem_flatMap.2 ⟨g, hg, ?_⟩
    simp [groupProblems, hdef]
  rw [hnil] at hmem
  exact List.not_mem_nil hmem

/-! ## What the sites register -/

/-- Method `j` of the site is registered in a slot with a route: the resolved key leads to the slot,
and the variables are those of its path.  The fallback route has one method. -/
def Site.Binds (s : Site) (j : Nat) (slot : Slot) (route : Route Json) : Prop :=
  (∃ methods path q parsed m, RouteKey.parse s.key = .ok (.route methods path) ∧
    RouteKey.parse (RouteKey.render methods (Table.fullPath s.base path)) =
      .ok (.route methods q) ∧
    Path.parse q = .ok parsed ∧ methods[j]? = some m ∧
    slot = ⟨.path parsed.segments, Text.uppercase m⟩ ∧ route = ⟨s.handler, parsed.vars⟩) ∨
  (s.key = fallbackKey ∧ j = 0 ∧ slot = ⟨.fallback [], fallbackMethod⟩ ∧ route = ⟨s.handler, ∅⟩)

/-- A site registers what its entry in the table does. -/
theorem Site.binds_iff {s : Site} {k : RouteKey} (hkey : RouteKey.parse s.key = .ok k) {j : Nat}
    {slot : Slot} {route : Route Json} :
    s.Binds j slot route ↔ (entryBindings s.entry)[j]? = some (slot, route) := by
  obtain ⟨place, M⟩ := slot
  cases place with
  | path segments =>
    rw [Site.entry, getElem?_entryBindings_path]
    constructor
    · rintro (⟨methods, path, q, parsed, m, hk, hq, hp, hm, hslot, rfl⟩ | ⟨-, -, hslot, -⟩)
      · cases hslot
        rw [← Site.resolvedKey_of_route hk] at hq
        exact ⟨methods, q, parsed, m, RouteKey.parse_normalize_eq_ok_iff.2 hq, hp, rfl, hm, rfl,
          rfl⟩
      · cases hslot
    · rintro ⟨methods, q, parsed, m, hq, hp, rfl, hm, rfl, rfl⟩
      rw [RouteKey.parse_normalize_eq_ok_iff] at hq
      obtain ⟨path, hk, hres⟩ := Site.parse_key_of_resolved hkey hq
      rw [hres] at hq
      exact Or.inl ⟨methods, path, q, parsed, m, hk, hq, hp, hm, rfl, rfl⟩
  | fallback segments =>
    rw [Site.entry, getElem?_entryBindings_fallback, RouteKey.normalize_eq_fallbackKey_iff,
      Site.resolvedKey_eq_fallbackKey_iff]
    constructor
    · rintro (⟨_, _, _, _, _, _, _, _, _, hslot, _⟩ | ⟨hk, hj, hslot, hr⟩)
      · cases hslot
      · cases hslot
        exact ⟨hk, hj, rfl, rfl, hr⟩
    · rintro ⟨hk, hj, rfl, rfl, hr⟩
      exact Or.inr ⟨hk, hj, rfl, hr⟩

/-! ## The trie of a file -/

/-- The trie of a file holds the bindings of the entries of its sites. -/
theorem holds_of_build (ht : c.toTable = .ok t) (hb : t.build = .ok root) :
    root.Holds (bindings (c.sites.map Site.entry)) := by
  rw [← (entries_of_toTable ht).1]
  exact Node.Holds.of_build hb

theorem getElem?_map_entry {i : Nat} {s : Site} (hi : c.sites[i]? = some s) :
    (c.sites.map Site.entry)[i]? = some s.entry := by
  rw [List.getElem?_map, hi]
  rfl

/-- **The trie of a file has in a slot what a method of a site registers there.** -/
theorem route?_eq_some_iff (ht : c.toTable = .ok t) (hb : t.build = .ok root) {slot : Slot}
    {route : Route Json} :
    root.route? slot = some route ↔
      ∃ (i j : Nat) (s : Site), c.sites[i]? = some s ∧ s.Binds j slot route := by
  have hkeys := (entries_of_toTable ht).2
  rw [(holds_of_build ht hb).route?_eq_some_iff, mem_bindings]
  constructor
  · rintro ⟨entry, hentry, hmem⟩
    obtain ⟨s, hs, rfl⟩ := List.mem_map.1 hentry
    obtain ⟨i, hi⟩ := List.mem_iff_getElem?.1 hs
    obtain ⟨j, hj⟩ := List.mem_iff_getElem?.1 hmem
    obtain ⟨k, hk⟩ := hkeys s hs
    exact ⟨i, j, s, hi, (Site.binds_iff hk).2 hj⟩
  · rintro ⟨i, j, s, hi, hbinds⟩
    have hs := List.mem_of_getElem? hi
    obtain ⟨k, hk⟩ := hkeys s hs
    exact ⟨s.entry, List.mem_map_of_mem hs, List.mem_of_getElem? ((Site.binds_iff hk).1 hbinds)⟩

/-- **Only one method of one site registers anything in a slot.** -/
theorem binds_unique (ht : c.toTable = .ok t) (hb : t.build = .ok root) {i i' j j' : Nat}
    {s s' : Site} {slot : Slot} {r r' : Route Json} (hi : c.sites[i]? = some s)
    (hi' : c.sites[i']? = some s') (hs : s.Binds j slot r) (hs' : s'.Binds j' slot r') :
    i = i' ∧ j = j' := by
  have hkeys := (entries_of_toTable ht).2
  obtain ⟨k, hk⟩ := hkeys s (List.mem_of_getElem? hi)
  obtain ⟨k', hk'⟩ := hkeys s' (List.mem_of_getElem? hi')
  exact (holds_of_build ht hb).index_eq (getElem?_map_entry hi) (getElem?_map_entry hi')
    ((Site.binds_iff hk).1 hs) ((Site.binds_iff hk').1 hs')

/-- The resolved key of a site of a file that can be built reads back with the methods of its key,
and its path can be read. -/
theorem Site.exists_path_of_build (ht : c.toTable = .ok t) (hb : t.build = .ok root) {s : Site}
    (hs : s ∈ c.sites) (hkey : s.key ≠ fallbackKey) :
    ∃ methods path q parsed, RouteKey.parse s.key = .ok (.route methods path) ∧
      RouteKey.parse (RouteKey.render methods (Table.fullPath s.base path)) =
        .ok (.route methods q) ∧ Path.parse q = .ok parsed := by
  obtain ⟨hentries, hkeys⟩ := entries_of_toTable ht
  obtain ⟨k, hk⟩ := hkeys s hs
  have hentry : s.entry ∈ t.entries.entries := by
    rw [hentries]
    exact List.mem_map_of_mem hs
  obtain ⟨r, hr⟩ := exists_ofKey_of_foldlM hb s.entry hentry
  cases r with
  | fallback =>
    rw [Registration.ofKey_eq_fallback_iff, Site.entry_eq_fallbackKey_iff] at hr
    exact absurd hr hkey
  | route methods q parsed =>
    obtain ⟨hq, hp⟩ := Registration.ofKey_eq_route_iff.1 hr
    rw [Site.entry, RouteKey.parse_normalize_eq_ok_iff] at hq
    obtain ⟨path, hpath, hres⟩ := Site.parse_key_of_resolved hk hq
    rw [hres] at hq
    exact ⟨methods, path, q, parsed, hpath, hq, hp⟩

/-- The entries with the fallback key are those at the top of the file. -/
theorem fallback_mem_entries_iff (h : c.localProblems = []) {handler : Json} :
    (fallbackKey, handler) ∈ c.sites.map Site.entry ↔
      c.routes.get? fallbackKey = some handler := by
  rw [OrderedMap.get?_eq_some_iff_mem, List.mem_map]
  constructor
  · rintro ⟨s, hs, hentry⟩
    have hkey := Site.entry_eq_fallbackKey_iff.1 (congrArg Prod.fst hentry)
    obtain rfl : s.handler = handler := congrArg Prod.snd hentry
    rcases List.mem_append.1 hs with hs | hs
    · obtain ⟨r, hr, rfl⟩ := List.mem_map.1 hs
      obtain ⟨key, handler⟩ := r
      obtain rfl : key = fallbackKey := hkey
      exact hr
    · obtain ⟨g, hg, hs⟩ := List.mem_flatMap.1 hs
      obtain ⟨r, hr, rfl⟩ := List.mem_map.1 hs
      refine absurd (OrderedMap.contains_iff.2 ?_) (not_contains_fallback_of_group h hg)
      rw [← show r.1 = fallbackKey from hkey]
      exact Entries.mem_keys_of_mem hr
  · intro hmem
    refine ⟨⟨c.base, fallbackKey, handler⟩, ?_, ?_⟩
    · exact List.mem_append_left _ (List.mem_map.2 ⟨_, hmem, rfl⟩)
    · exact Prod.ext (Site.entry_eq_fallbackKey_iff.2 rfl) rfl

/-! ## Compiling -/

/-- **A validated route file compiles to exactly its routes.**  Its table exists and can be built.
Every site other than the fallback route is found where its resolved key leads, under each of its
methods; every route of the trie comes from exactly one method of one site; and the fallback
endpoint is that of the fallback route at the top. -/
theorem compiles_of_validate {c : Config} (hv : c.validate = .ok ()) :
    ∃ t root, c.toTable = .ok t ∧ t.build = .ok root ∧
      (∀ s ∈ c.sites, s.key ≠ fallbackKey → ∃ methods path q parsed,
        RouteKey.parse s.key = .ok (.route methods path) ∧
        RouteKey.parse (RouteKey.render methods (Table.fullPath s.base path)) =
          .ok (.route methods q) ∧
        Path.parse q = .ok parsed ∧
        ∀ m ∈ methods, ∃ e, (root.find? parsed.segments).bind Node.endpoint? = some e ∧
          e.route? m = some s.handler ∧ e.vars m = .ok parsed.vars) ∧
      (∀ slot route, root.route? slot = some route → ∃ i j : Nat,
        (∃ s : Site, c.sites[i]? = some s ∧ s.Binds j slot route) ∧
        ∀ (i' j' : Nat) (s' : Site) (route' : Route Json),
          c.sites[i']? = some s' → s'.Binds j' slot route' → i' = i ∧ j' = j) ∧
      (root.fallback?.isSome = true ↔ c.routes.contains fallbackKey = true) ∧
      ∀ handler, c.routes.get? fallbackKey = some handler →
        ∃ e, root.fallback? = some e ∧ e.routes.entries = [(fallbackMethod, ⟨handler, ∅⟩)] := by
  have hproblems := validate_eq_ok_iff.1 hv
  have hlocal := (problems_eq_nil_iff.1 hproblems).1
  obtain ⟨t, root, ht, hb⟩ := exists_build_of_problems hproblems
  have hroot := holds_of_build ht hb
  refine ⟨t, root, ht, hb, ?_, ?_, ?_, ?_⟩
  · intro s hs hkey
    obtain ⟨methods, path, q, parsed, hk, hq, hp⟩ := Site.exists_path_of_build ht hb hs hkey
    refine ⟨methods, path, q, parsed, hk, hq, hp, fun m hm => ?_⟩
    obtain ⟨i, hi⟩ := List.mem_iff_getElem?.1 hs
    obtain ⟨j, hj⟩ := List.mem_iff_getElem?.1 hm
    have hbinds : s.Binds j ⟨.path parsed.segments, Text.uppercase m⟩ ⟨s.handler, parsed.vars⟩ :=
      Or.inl ⟨methods, path, q, parsed, m, hk, hq, hp, hj, rfl, rfl⟩
    exact Node.exists_endpoint_of_route? ((route?_eq_some_iff ht hb).2 ⟨i, j, s, hi, hbinds⟩)
  · intro slot route hslot
    obtain ⟨i, j, s, hi, hbinds⟩ := (route?_eq_some_iff ht hb).1 hslot
    refine ⟨i, j, ⟨s, hi, hbinds⟩, fun i' j' s' route' hi' hbinds' => ?_⟩
    exact binds_unique ht hb hi' hi hbinds' hbinds
  · rw [hroot.fallback?_isSome_iff]
    simp only [fallback_mem_entries_iff hlocal]
    rw [← Option.isSome_iff_exists]
    rfl
  · intro handler hget
    exact hroot.fallback?_of_mem ((fallback_mem_entries_iff hlocal).2 hget)

/-- A route in a group below the base path of a file that also has a fallback route. -/
theorem compiles_of_validate_group :
    ∃ t root, toTable ⟨"/api", OrderedMap.ofList [("default", .str "none")],
        [⟨"/v1", OrderedMap.ofList [("GET|post /users/{id}", .str "user")]⟩]⟩ = .ok t ∧
      t.build = .ok root ∧
      ((root.find? [.literal "api", .literal "v1", .literal "users", .wildcard]).bind
        Node.endpoint?).bind (fun e => e.route? "post") = some (.str "user") ∧
      root.fallback?.isSome = true := by
  obtain ⟨t, root, ht, hb, hsites, -, hfallback, -⟩ := compiles_of_validate (c := ⟨"/api",
    OrderedMap.ofList [("default", .str "none")],
    [⟨"/v1", OrderedMap.ofList [("GET|post /users/{id}", .str "user")]⟩]⟩) rfl
  obtain ⟨methods, path, q, parsed, hk, hq, hp, hfound⟩ :=
    hsites ⟨"/api/v1", "GET|post /users/{id}", .str "user"⟩ (List.mem_of_getElem? (i := 1) rfl)
      (by decide)
  have hkey : RouteKey.parse "GET|post /users/{id}" =
      .ok (.route ["GET", "post"] "/users/{id}") := rfl
  rw [hkey] at hk
  cases hk
  have hresolved : RouteKey.parse (RouteKey.render ["GET", "post"] "/api/v1/users/{id}") =
      .ok (.route ["GET", "post"] "/api/v1/users/{id}") := rfl
  obtain rfl : "/api/v1/users/{id}" = q := (RouteKey.route.inj
    (Except.ok.inj (hresolved.symm.trans hq))).2
  have hparse : Path.parse "/api/v1/users/{id}" = .ok ⟨[.literal "api", .literal "v1",
      .literal "users", .wildcard], OrderedMap.ofList [("id", 3)]⟩ := rfl
  rw [hparse] at hp
  cases hp
  obtain ⟨e, he, hroute, -⟩ := hfound "post" (by decide)
  refine ⟨t, root, ht, hb, ?_, hfallback.2 rfl⟩
  rw [he]
  exact hroute

end RouteTrie.Config
