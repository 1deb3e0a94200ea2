import RouteTrie.Proofs.Build.Below
import RouteTrie.Proofs.Config.Bases

/-!
# Prefixing is mounting

A route file without a base path can be given one.  This is written in front of the path of every
route, of those in groups as well, where a base path stands already; and what was accepted before is
accepted still.  The trie of the file is then the former one, mounted at the end of the base path:
handlers are found behind the segments of the base path where they were found without it, and
variables stand as many segments later as there are in the base path, which adds its own.

## What is here

* `Config.Site.below`, `Config.sites_below`: the sites of a file that gets a base path.
* `Config.faults_below`: a usable base path adds no problem.
* `Config.entryBelow_of_mem_sites`: every site registers below the base path what it registered.
* `Config.validate_below`: the file and its trie with the base path and without.
-/

set_option autoImplicit false

namespace RouteTrie.Config

variable {c : Config} {base : String}

/-! ## The file with a base path -/

/-- A route below one more base path. -/
def Site.below (base : String) (s : Site) : Site := ⟨base ++ s.base, s.key, s.handler⟩

/-- Giving a file a base path puts all its sites below it. -/
theorem sites_below (hc : c.base = "") (base : String) :
    { c with base := base }.sites = c.sites.map (Site.below base) := by
  have hbelow : ∀ (inner : String) (routes : List (String × Json)),
      sitesBelow (base ++ inner) routes = (sitesBelow inner routes).map (Site.below base) := by
    intro inner routes
    rw [sitesBelow, sitesBelow, List.map_map]
    rfl
  have hgroup : groupSites base = fun g => (groupSites "" g).map (Site.below base) := by
    funext g
    rw [groupSites, groupSites, String.empty_append, hbelow]
  rw [sites, sites, hc, List.map_append, ← hbelow, String.append_empty, hgroup, List.map_flatMap]

/-- A usable base path adds no problem to those of the file. -/
theorem faults_below (hc : c.base = "") (hbase : ¬Offends base) :
    { c with base := base }.faults = c.faults := by
  rw [faults, faults, sites_below hc]
  simp [hc, hbase]

/-- The base path of a site is none or that of a group. -/
theorem base_of_mem_sites (hc : c.base = "") {s : Site} (hs : s ∈ c.sites) :
    s.base = "" ∨ ∃ g ∈ c.groups, s.base = g.base := by
  rcases mem_sites.1 hs with ⟨r, -, rfl⟩ | ⟨g, hg, r, -, rfl⟩
  · exact .inl hc
  · exact .inr ⟨g, hg, by rw [hc, String.empty_append]⟩

/-- No base path of a site is the root, which ends with a slash. -/
theorem Faultless.base_ne_root (h : c.Faultless) (hc : c.base = "") {s : Site}
    (hs : s ∈ c.sites) : s.base ≠ "/" := by
  rcases base_of_mem_sites hc hs with hnil | ⟨g, hg, heq⟩
  · rw [hnil]
    decide
  · intro hroot
    rw [heq] at hroot
    exact h.group_base g hg (.inr (by rw [hroot]; rfl))

theorem BlankFree.append {inner : String} (h : BlankFree base) (h' : BlankFree inner) :
    BlankFree (base ++ inner) := by
  intro ch hch
  rw [String.toList_append, List.mem_append] at hch
  exact hch.elim (h ch) (h' ch)

theorem blankFree_of_mem_sites (hc : c.base = "") (hgroups : ∀ g ∈ c.groups, BlankFree g.base)
    {s : Site} (hs : s ∈ c.sites) : BlankFree s.base := by
  rcases base_of_mem_sites hc hs with hnil | ⟨g, hg, heq⟩
  · rw [hnil]
    exact fun ch hch => nomatch hch
  · rw [heq]
    exact hgroups g hg

/-! ## What is registered -/

/-- What the entry of a site registers, if there is no blank in its base path. -/
theorem Faultless.ofKey_entry (h : c.Faultless) {s : Site} (hs : s ∈ c.sites)
    (hblank : BlankFree s.base) {methods : List String} {path : String}
    (hk : RouteKey.parse s.key = .ok (.route methods path)) {q : Path}
    (hq : Path.parse (Table.fullPath s.base path) = .ok q) :
    Registration.ofKey s.entry.1 = .ok (.route methods (Table.fullPath s.base path) q) := by
  rw [Registration.ofKey_eq_route_iff, Site.entry, Site.resolvedKey_of_route hk]
  exact ⟨(h.parse_entry_fullPath_iff hs hk).2 hblank, hq⟩

/-- **A site registers below the base path** what it registers without it. -/
theorem entryBelow_of_mem_sites (hc : c.base = "") (hfaults : c.faults = [])
    (hgroups : ∀ g ∈ c.groups, BlankFree g.base) (hbase : ¬Offends base)
    (hblank : BlankFree base) {p : Path} (hp : Path.parse base = .ok p) {s : Site}
    (hs : s ∈ c.sites) : EntryBelow base p s.entry (s.below base).entry := by
  have h : c.Faultless := .of_faults hfaults
  have h' : { c with base := base }.Faultless := .of_faults ((faults_below hc hbase).trans hfaults)
  have hs' : s.below base ∈ { c with base := base }.sites := by
    rw [sites_below hc]
    exact List.mem_map_of_mem hs
  refine ⟨rfl, ?_⟩
  obtain ⟨k, hk⟩ := h.keys s hs
  cases k with
  | fallback =>
    have hkey := RouteKey.parse_eq_fallback_iff.1 hk
    exact ⟨.fallback, Registration.ofKey_eq_fallback_iff.2 (Site.entry_eq_fallbackKey_iff.2 hkey),
      Registration.ofKey_eq_fallback_iff.2 (Site.entry_eq_fallbackKey_iff.2 hkey)⟩
  | route methods path =>
    have hsblank := blankFree_of_mem_sites hc hgroups hs
    -- the full path below the base path is the base path in front of the full path without it
    have hfull : Table.fullPath (s.below base).base path =
        Table.fullPath base (Table.fullPath s.base path) :=
      Table.fullPath_append (h.base_ne_root hc hs) path
    obtain ⟨q, hq⟩ := Path.parse_eq_ok (h.head?_fullPath hs (RouteKey.head?_of_parse hk))
    have hq' : Path.parse (Table.fullPath (s.below base).base path) = .ok (p.append q) := by
      rw [hfull]
      exact Path.parse_fullPath hp (not_or.1 hbase).2 hq
    refine ⟨.route methods (Table.fullPath s.base path) q, h.ofKey_entry hs hsblank hk hq, ?_⟩
    rw [h'.ofKey_entry hs' (hblank.append hsblank) hk hq', hfull]
    rfl

/-! ## The trie -/

/-- A file without other problems is accepted if the entries of its sites can be built, and its
table is built into their trie. -/
theorem validate_of_build (hfaults : c.faults = []) {root : Node Json}
    (hb : build (c.sites.map Site.entry) = .ok root) :
    c.validate = .ok () ∧ ∃ t, c.toTable = .ok t ∧ t.build = .ok root := by
  have hnd := nodup_keys_of_build hb
  rw [Entries.keys, List.map_map] at hnd
  obtain ⟨t, ht⟩ := exists_toTable_iff.2 ⟨(Faultless.of_faults hfaults).keys, hnd⟩
  have htb : t.build = .ok root := by
    rw [Table.build, (entries_of_toTable ht).1, hb]
  refine ⟨?_, t, ht, htb⟩
  rw [validate_eq_ok_iff, problems_eq_nil_iff, localProblems_eq_faults, conflict?_eq_none_iff]
  exact ⟨hfaults, t, ht, check_eq_ok_iff.2 ⟨root, htb⟩⟩

/-- **Prefixing is mounting.**  An accepted file without a base path, whose groups have no blanks in
theirs, is accepted with every usable base path without blanks; and the trie is the same, mounted at
the end of the base path. -/
theorem validate_below {c : Config} (hc : c.base = "") (hv : c.validate = .ok ())
    (hgroups : ∀ g ∈ c.groups, BlankFree g.base) {base : String} (hbase : ¬Offends base)
    (hblank : BlankFree base) :
    { c with base := base }.validate = .ok () ∧
      ∃ p t root t' root', Path.parse base = .ok p ∧ c.toTable = .ok t ∧ t.build = .ok root ∧
        { c with base := base }.toTable = .ok t' ∧ t'.build = .ok root' ∧
        root.MountedAt p root' := by
  have hproblems := validate_eq_ok_iff.1 hv
  have hfaults : c.faults = [] := by
    rw [← localProblems_eq_faults]
    exact (problems_eq_nil_iff.1 hproblems).1
  obtain ⟨p, hp⟩ := Path.parse_eq_ok (not_not.1 (not_or.1 hbase).1)
  obtain ⟨t, root, ht, hb⟩ := exists_build_of_problems hproblems
  have hentries : ∀ s ∈ c.sites, EntryBelow base p s.entry (s.below base).entry :=
    fun s hs => entryBelow_of_mem_sites hc hfaults hgroups hbase hblank hp hs
  have hsites : { c with base := base }.sites.map Site.entry =
      c.sites.map fun s => (s.below base).entry := by
    rw [sites_below hc, List.map_map]
    rfl
  obtain ⟨root', hb'⟩ := exists_build_below hentries
    ⟨root, by rw [← (entries_of_toTable ht).1]; exact hb⟩
  rw [← hsites] at hb'
  obtain ⟨hv', t', ht', htb'⟩ := validate_of_build ((faults_below hc hbase).trans hfaults) hb'
  have hroot' := holds_of_build ht' htb'
  rw [hsites, bindings_below hentries] at hroot'
  exact ⟨hv', p, t, root, t', root', hp, ht, hb, ht', htb', (holds_of_build ht hb).mountedAt hroot'⟩

/-- A base path with a variable that a group uses again, above a route at the root. -/
theorem validate_below_tenants :
    ∃ t root, toTable ⟨"/t/{id}", OrderedMap.ofList [("GET /", .str "home"), ("default", .null)],
        [⟨"/g", OrderedMap.ofList [("put /:id/*", .str "put")]⟩]⟩ = .ok t ∧
      t.build = .ok root ∧
      (root.answer? [.literal "t", .wildcard] fun e => e.route? "get") = some (.str "home") ∧
      ∃ vars, (root.answer? [.literal "t", .wildcard, .literal "g", .wildcard, .wildcard]
        fun e => (e.vars "PUT").toOption) = some vars ∧ vars.get? "id" = some 3 := by
  obtain ⟨-, p, t, root, t', root', hp, ht, hb, ht', hb', hmounted⟩ := validate_below
    (c := ⟨"", OrderedMap.ofList [("GET /", .str "home"), ("default", .null)],
      [⟨"/g", OrderedMap.ofList [("put /:id/*", .str "put")]⟩]⟩) rfl rfl (by decide)
    (show ¬Offends "/t/{id}" by decide) (by decide)
  have hparse : Path.parse "/t/{id}" =
      .ok ⟨[.literal "t", .wildcard], OrderedMap.ofList [("id", 1)]⟩ := rfl
  obtain rfl := Except.ok.inj (hparse.symm.trans hp)
  -- what the trie without the base path answers
  have hanswers : ((toTable ⟨"", OrderedMap.ofList [("GET /", .str "home"), ("default", .null)],
      [⟨"/g", OrderedMap.ofList [("put /:id/*", .str "put")]⟩]⟩).bind Table.build).map
        (fun root => (root.answer? [] fun e => e.route? "get",
          (root.answer? [.literal "g", .wildcard, .wildcard]
            fun e => (e.vars "PUT").toOption).map OrderedMap.entries)) =
      .ok (some (.str "home"), some [("id", 1)]) := rfl
  rw [ht, Except.bind, hb] at hanswers
  obtain ⟨hhome, hput⟩ := Prod.mk.inj (Except.ok.inj hanswers)
  obtain ⟨vars, hfound, hentries⟩ := Option.map_eq_some_iff.1 hput
  refine ⟨t', root', ht', hb', (hmounted.handler [] "get").trans hhome, ?_⟩
  have hvars := hmounted.vars [.literal "g", .wildcard, .wildcard] "PUT"
  rw [hfound] at hvars
  cases hfound' : root'.answer? ([.literal "t", .wildcard] ++ [.literal "g", .wildcard, .wildcard])
      fun e => (e.vars "PUT").toOption with
  | none =>
    rw [hfound'] at hvars
    cases hvars
  | some vars' =>
    rw [hfound', Option.rel_some_some] at hvars
    refine ⟨vars', hfound', ?_⟩
    rw [hvars, OrderedMap.get?, hentries]
    rfl

end RouteTrie.Config
