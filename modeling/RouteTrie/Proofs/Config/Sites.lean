import RouteTrie.Config
import RouteTrie.Proofs.Entries
import RouteTrie.Proofs.Key.Normal

/-!
# The sites of a route file

A `Site` is one route of a route file together with the whole base path that it stands below.  A
file resolves to the table that has one entry for every site, in the order of the file: the table is
filled in two stages, with a table of its own for every group, but no stage replaces, drops or moves
an entry.

## What is here

* `Config.Site`, `Config.sites`: the routes of a file, those of the groups behind those at the top.
* `Config.Site.resolvedKey`: methods, a space and the path below the base path.
* `Config.Site.parse_key_of_resolved`: a site whose resolved key can be read has the methods that
  its key has.
* `Config.entries_of_toTable`: the table of a file has exactly the entries of its sites.
-/

set_option autoImplicit false

namespace RouteTrie.Config

/-- One route of a file with the base path it stands below. -/
structure Site where
  /-- The base path of the file and of the group. -/
  base : String
  /-- The key as written. -/
  key : String
  /-- The handler. -/
  handler : Json

/-- Some routes below a base path. -/
def sitesBelow (base : String) (routes : List (String × Json)) : List Site :=
  routes.map fun r => ⟨base, r.1, r.2⟩

/-- The routes of a group. -/
def groupSites (base : String) (g : Group) : List Site :=
  sitesBelow (base ++ g.base) g.routes.entries

/-- All routes of a file in its order. -/
def sites (c : Config) : List Site :=
  sitesBelow c.base c.routes.entries ++ c.groups.flatMap (groupSites c.base)

namespace Site

/-- The key under which a table stores the route, before it is normalized. -/
def resolvedKey (s : Site) : String :=
  match RouteKey.parse s.key with
  | .ok (.route methods path) => RouteKey.render methods (Table.fullPath s.base path)
  | .ok .fallback => fallbackKey
  | .error _ => s.key

/-- The entry of the route in the table of its file. -/
def entry (s : Site) : String × Json := (RouteKey.normalize s.resolvedKey, s.handler)

theorem resolvedKey_of_route {s : Site} {methods : List String} {path : String}
    (h : RouteKey.parse s.key = .ok (.route methods path)) :
    s.resolvedKey = RouteKey.render methods (Table.fullPath s.base path) := by
  rw [resolvedKey, h]

theorem keyOf_eq_resolvedKey {t : Table Json} {s : Site} {k : RouteKey} (hbase : t.base = s.base)
    (hk : RouteKey.parse s.key = .ok k) : t.keyOf k = s.resolvedKey := by
  rw [resolvedKey, hk]
  cases k with
  | fallback => rfl
  | route methods path => rw [← hbase]; rfl

/-- A resolved key names the fallback route exactly when the key does. -/
theorem resolvedKey_eq_fallbackKey_iff {s : Site} :
    s.resolvedKey = fallbackKey ↔ s.key = fallbackKey := by
  rw [resolvedKey]
  split
  · rename_i methods path hk
    refine iff_of_false (RouteKey.render_ne_fallbackKey _ _) fun h => ?_
    rw [RouteKey.parse_eq_fallback_iff.2 h] at hk
    cases hk
  · rename_i hk
    exact iff_of_true rfl (RouteKey.parse_eq_fallback_iff.1 hk)
  · exact Iff.rfl

/-- The entry of a site has the fallback key exactly when the site does. -/
theorem entry_eq_fallbackKey_iff {s : Site} : s.entry.1 = fallbackKey ↔ s.key = fallbackKey := by
  rw [entry, RouteKey.normalize_eq_fallbackKey_iff, resolvedKey_eq_fallbackKey_iff]

/-- A resolved key that can be read as a route has the methods of a key that can be read. -/
theorem parse_key_of_resolved {s : Site} {methods : List String} {q : String} {k : RouteKey}
    (hkey : RouteKey.parse s.key = .ok k)
    (h : RouteKey.parse s.resolvedKey = .ok (.route methods q)) :
    ∃ path, RouteKey.parse s.key = .ok (.route methods path) ∧
      s.resolvedKey = RouteKey.render methods (Table.fullPath s.base path) := by
  cases k with
  | fallback =>
    rw [resolvedKey, hkey] at h
    cases h
  | route ms path =>
    rw [resolvedKey_of_route hkey] at h
    obtain ⟨q', hq⟩ := RouteKey.parse_render (RouteKey.methods_ne_nil_of_parse hkey)
      (RouteKey.isMethodWord_of_parse hkey) h
    cases hq
    exact ⟨path, hkey, resolvedKey_of_route hkey⟩

end Site

/-! ## Filling a table -/

theorem entries_insert_of_not_contains {t : Table Json} {key : String}
    (h : ¬t.contains key = true) (handler : Json) :
    (t.insert key handler).entries.entries =
      t.entries.entries ++ [(RouteKey.normalize key, handler)] :=
  OrderedMap.entries_insert (fun hm => h (OrderedMap.contains_iff.2 hm)) handler

/-- Routes that can be added are appended one by one, each under its resolved key. -/
theorem entries_of_addRoutes {t t' : Table Json} {routes : List (String × Json)}
    (h : addRoutes t routes = .ok t') :
    t'.entries.entries = t.entries.entries ++ (sitesBelow t.base routes).map Site.entry ∧
      ∀ r ∈ routes, ∃ k, RouteKey.parse r.1 = .ok k := by
  induction routes generalizing t with
  | nil =>
    cases h
    simp [sitesBelow]
  | cons r rest ih =>
    obtain ⟨key, handler⟩ := r
    rw [addRoutes, bind_eq_ok_iff] at h
    obtain ⟨k, hk, h⟩ := h
    split at h
    · cases h
    · rename_i hfree
      obtain ⟨hentries, hkeys⟩ := ih h
      have hsite : t.keyOf k = Site.resolvedKey ⟨t.base, key, handler⟩ :=
        Site.keyOf_eq_resolvedKey rfl hk
      refine ⟨?_, fun r hr => ?_⟩
      · rw [hentries, entries_insert_of_not_contains hfree, List.append_assoc, hsite]
        rfl
      · rcases List.mem_cons.1 hr with rfl | hr
        · exact ⟨k, hk⟩
        · exact hkeys r hr

/-- Entries that can be merged are appended one by one. -/
theorem entries_of_merge {t t' : Table Json} {entries : List (String × Json)}
    (h : merge t entries = .ok t') :
    t'.entries.entries =
      t.entries.entries ++ entries.map fun e => (RouteKey.normalize e.1, e.2) := by
  induction entries generalizing t with
  | nil =>
    cases h
    simp
  | cons e rest ih =>
    obtain ⟨key, handler⟩ := e
    rw [merge] at h
    split at h
    · cases h
    · rename_i hfree
      rw [ih h, entries_insert_of_not_contains hfree, List.append_assoc]
      rfl

/-- The keys of the entries are normalized already. -/
theorem map_normalize_entry (sites : List Site) :
    (sites.map Site.entry).map (fun e => (RouteKey.normalize e.1, e.2)) = sites.map Site.entry := by
  rw [List.map_map]
  refine List.map_congr_left fun s _ => ?_
  simp only [Function.comp_apply, Site.entry, RouteKey.normalize_normalize]

/-- A group adds the entries of its sites. -/
theorem entries_of_addGroup {base : String} {t t' : Table Json} {g : Group}
    (h : addGroup base t g = .ok t') :
    t'.entries.entries = t.entries.entries ++ (groupSites base g).map Site.entry ∧
      ∀ r ∈ g.routes.entries, ∃ k, RouteKey.parse r.1 = .ok k := by
  rw [addGroup, bind_eq_ok_iff] at h
  obtain ⟨sub, hsub, hmerge⟩ := h
  obtain ⟨hentries, hkeys⟩ := entries_of_addRoutes hsub
  refine ⟨?_, hkeys⟩
  rw [entries_of_merge hmerge, hentries, Table.new, OrderedMap.entries_empty, List.nil_append,
    map_normalize_entry]
  rfl

theorem entries_of_foldlM_addGroup {base : String} {t t' : Table Json} {groups : List Group}
    (h : groups.foldlM (addGroup base) t = .ok t') :
    t'.entries.entries =
        t.entries.entries ++ (groups.flatMap (groupSites base)).map Site.entry ∧
      ∀ g ∈ groups, ∀ r ∈ g.routes.entries, ∃ k, RouteKey.parse r.1 = .ok k := by
  induction groups generalizing t with
  | nil =>
    cases h
    simp
  | cons g rest ih =>
    rw [List.foldlM_cons, bind_eq_ok_iff] at h
    obtain ⟨next, hg, hrest⟩ := h
    obtain ⟨hentries, hkeys⟩ := ih hrest
    obtain ⟨hentries', hkeys'⟩ := entries_of_addGroup hg
    refine ⟨?_, fun g' hg' => ?_⟩
    · rw [hentries, hentries', List.append_assoc, List.flatMap_cons, List.map_append]
    · rcases List.mem_cons.1 hg' with rfl | hg'
      · exact hkeys'
      · exact hkeys g' hg'

/-- **The table of a route file has exactly the entries of its sites**, in the order of the file,
and every key of the file can be read. -/
theorem entries_of_toTable {c : Config} {t : Table Json} (h : c.toTable = .ok t) :
    t.entries.entries = c.sites.map Site.entry ∧
      ∀ s ∈ c.sites, ∃ k, RouteKey.parse s.key = .ok k := by
  rw [toTable, bind_eq_ok_iff] at h
  obtain ⟨top, htop, hgroups⟩ := h
  obtain ⟨hentries, hkeys⟩ := entries_of_addRoutes htop
  obtain ⟨hentries', hkeys'⟩ := entries_of_foldlM_addGroup hgroups
  constructor
  · rw [hentries', hentries, sites, List.map_append]
    rfl
  · intro s hs
    rw [sites, List.mem_append, List.mem_flatMap] at hs
    rcases hs with hs | ⟨g, hg, hs⟩
    · obtain ⟨r, hr, rfl⟩ := List.mem_map.1 hs
      exact hkeys r hr
    · obtain ⟨r, hr, rfl⟩ := List.mem_map.1 hs
      exact hkeys' g hg r hr

end RouteTrie.Config
