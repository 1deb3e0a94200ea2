import RouteTrie.Proofs.Config.Clash
import RouteTrie.Proofs.Config.Faults

/-!
# Route files as programs

Instead of being resolved, a route file can be followed by hand: its routes are added one by one to
a table, and those of a group inside a group of the table.  Where this would replace an entry the
file is refused, so that nothing is lost: the file has a table exactly when the one that is filled
by hand has an entry for every route, and then the two are the same.

## What is here

* `Config.program`, `Config.assembled`: the steps that add the routes by hand, and where they lead.
* `Config.eq_assembled_of_toTable`: the table of a file, stage by stage, is what the steps fill.
* `Config.assembled_eq_extend`: the steps insert the resolved keys of the sites in their order.
* `Config.exists_toTable_iff_size_assembled`: the two ways compared.
-/

set_option autoImplicit false

namespace RouteTrie.Config

variable {c : Config} {t : Table Json}

/-! ## The program of a file -/

/-- The step that adds a handler under what a key names. -/
def routeStep (handler : Json) : RouteKey → Table.Step Json
  | .fallback => .setFallback handler
  | .route methods path => .addRoute methods path handler

/-- The steps that add some routes; a key that cannot be read adds nothing. -/
def routeSteps (routes : List (String × Json)) : List (Table.Step Json) :=
  routes.filterMap fun r => (RouteKey.parse r.1).toOption.map (routeStep r.2)

/-- The step that adds the routes of a group. -/
def groupStep (g : Group) : Table.Step Json := .group g.base (routeSteps g.routes.entries)

/-- The steps that add the routes of a file by hand, first those at the top. -/
def program (c : Config) : List (Table.Step Json) :=
  routeSteps c.routes.entries ++ c.groups.map groupStep

/-- The table that is filled by hand below the base path of a file. -/
def assembled (c : Config) : Table Json := (Table.new c.base).run c.program

theorem routeSteps_cons {r : String × Json} {k : RouteKey} (hk : RouteKey.parse r.1 = .ok k)
    (rest : List (String × Json)) :
    routeSteps (r :: rest) = routeStep r.2 k :: routeSteps rest := by
  rw [routeSteps, List.filterMap_cons, hk]
  rfl

theorem step_routeStep (t : Table Json) (handler : Json) (k : RouteKey) :
    t.step (routeStep handler k) = t.insert (t.keyOf k) handler := by
  cases k <;> rw [routeStep, Table.step] <;> rfl

/-! ## Resolving runs the program -/

/-- Routes that can be added to a table are added by their steps. -/
theorem eq_run_of_addRoutes {t' : Table Json} {routes : List (String × Json)}
    (h : addRoutes t routes = .ok t') : t' = t.run (routeSteps routes) := by
  induction routes generalizing t with
  | nil =>
    cases h
    exact (Table.run_nil _).symm
  | cons r rest ih =>
    rw [addRoutes, bind_eq_ok_iff] at h
    obtain ⟨k, hk, h⟩ := h
    split at h
    · cases h
    · rw [ih h, routeSteps_cons hk, Table.run_cons, step_routeStep]

/-- Entries that can be merged are inserted one after the other. -/
theorem eq_extend_of_merge {t' : Table Json} {entries : List (String × Json)}
    (h : merge t entries = .ok t') : t' = t.extend entries := by
  induction entries generalizing t with
  | nil =>
    cases h
    rfl
  | cons e rest ih =>
    rw [merge] at h
    split at h
    · cases h
    · rw [ih h, Table.extend_cons]

/-- A group that can be added is added by its step. -/
theorem eq_step_of_addGroup {t' : Table Json} {g : Group} (h : addGroup t.base t g = .ok t') :
    t' = t.step (groupStep g) := by
  rw [addGroup, bind_eq_ok_iff] at h
  obtain ⟨sub, hsub, hmerge⟩ := h
  rw [eq_extend_of_merge hmerge, eq_run_of_addRoutes hsub, groupStep, Table.step, Table.sub]

theorem eq_run_of_foldlM_addGroup {t' : Table Json} {groups : List Group}
    (h : groups.foldlM (addGroup t.base) t = .ok t') : t' = t.run (groups.map groupStep) := by
  induction groups generalizing t with
  | nil =>
    cases h
    exact (Table.run_nil _).symm
  | cons g rest ih =>
    rw [List.foldlM_cons, bind_eq_ok_iff] at h
    obtain ⟨next, hg, hrest⟩ := h
    obtain rfl := eq_step_of_addGroup hg
    rw [List.map_cons, Table.run_cons]
    refine ih ?_
    rw [Table.base_step]
    exact hrest

/-- **The table of a file is filled by its program.** -/
theorem eq_assembled_of_toTable (h : c.toTable = .ok t) : t = c.assembled := by
  rw [toTable, bind_eq_ok_iff] at h
  obtain ⟨top, htop, hgroups⟩ := h
  obtain rfl := eq_run_of_addRoutes htop
  rw [assembled, program, Table.run_append]
  refine eq_run_of_foldlM_addGroup ?_
  rw [Table.base_run]
  exact hgroups

/-! ## The program inserts the resolved keys -/

/-- The resolved key of a site with its handler. -/
def Site.resolved (s : Site) : String × Json := (s.resolvedKey, s.handler)

theorem run_routeSteps (t : Table Json) {routes : List (String × Json)}
    (hkeys : ∀ r ∈ routes, ∃ k, RouteKey.parse r.1 = .ok k) :
    t.run (routeSteps routes) = t.extend ((sitesBelow t.base routes).map Site.resolved) := by
  induction routes generalizing t with
  | nil => exact Table.run_nil t
  | cons r rest ih =>
    rw [List.forall_mem_cons] at hkeys
    obtain ⟨⟨k, hk⟩, hrest⟩ := hkeys
    have hkey : t.keyOf k = Site.resolvedKey ⟨t.base, r.1, r.2⟩ :=
      Site.keyOf_eq_resolvedKey rfl hk
    rw [routeSteps_cons hk, Table.run_cons, step_routeStep, hkey, ih _ hrest]
    rfl

theorem step_groupStep (t : Table Json) {g : Group}
    (hkeys : ∀ r ∈ g.routes.entries, ∃ k, RouteKey.parse r.1 = .ok k) :
    t.step (groupStep g) = t.extend ((groupSites t.base g).map Site.resolved) := by
  rw [groupStep, Table.step, run_routeSteps _ hkeys, Table.sub, Table.extend_entries_extend]
  rfl

theorem run_groupSteps (t : Table Json) {groups : List Group}
    (hkeys : ∀ g ∈ groups, ∀ r ∈ g.routes.entries, ∃ k, RouteKey.parse r.1 = .ok k) :
    t.run (groups.map groupStep) =
      t.extend ((groups.flatMap (groupSites t.base)).map Site.resolved) := by
  induction groups generalizing t with
  | nil => exact Table.run_nil t
  | cons g rest ih =>
    rw [List.forall_mem_cons] at hkeys
    rw [List.map_cons, Table.run_cons, ih _ hkeys.2, Table.base_step, step_groupStep t hkeys.1,
      List.flatMap_cons, List.map_append, Table.extend_append]

/-- **The program of a file inserts the resolved keys** of its sites in their order, if all keys can
be read. -/
theorem assembled_eq_extend (hkeys : ∀ s ∈ c.sites, ∃ k, RouteKey.parse s.key = .ok k) :
    c.assembled = (Table.new c.base).extend (c.sites.map Site.resolved) := by
  have htop : ∀ r ∈ c.routes.entries, ∃ k, RouteKey.parse r.1 = .ok k :=
    fun r hr => hkeys _ (mem_sites.2 (Or.inl ⟨r, hr, rfl⟩))
  have hgroups : ∀ g ∈ c.groups, ∀ r ∈ g.routes.entries, ∃ k, RouteKey.parse r.1 = .ok k :=
    fun g hg r hr => hkeys _ (mem_sites.2 (Or.inr ⟨g, hg, r, hr, rfl⟩))
  rw [assembled, program, Table.run_append, run_groupSteps _ hgroups, Table.base_run,
    run_routeSteps _ htop, sites, List.map_append, Table.extend_append]
  rfl

/-- **Two ways to fill a table from a file whose keys can be read.**  The file has a table exactly
when its program replaces nothing, so that there are as many entries as routes; and this table is
the one that the program fills, with the same base path and the same entries in the same order. -/
theorem exists_toTable_iff_size_assembled {c : Config}
    (hkeys : ∀ s ∈ c.sites, ∃ k, RouteKey.parse s.key = .ok k) :
    ((∃ t, c.toTable = .ok t) ↔ c.assembled.size = c.routeCount) ∧
      ∀ t, c.toTable = .ok t → t = c.assembled := by
  refine ⟨?_, fun t ht => eq_assembled_of_toTable ht⟩
  have hcount := Table.size_extend_eq_iff (Table.new c.base) (c.sites.map Site.resolved)
  rw [← assembled_eq_extend hkeys, Table.size_new, Nat.zero_add, List.length_map, Table.keys_new,
    List.nil_append, List.map_map] at hcount
  rw [exists_toTable_iff, and_iff_right hkeys, routeCount_eq_length]
  exact hcount.symm

/-- The roots of a file and of a group, next to a fallback route. -/
theorem exists_toTable_iff_size_assembled_roots :
    ∃ t, toTable ⟨"/api", OrderedMap.ofList [("default", .str "none"), ("GET /", .str "home")],
        [⟨"/v1", OrderedMap.ofList [("GET|post /", .str "root")]⟩]⟩ = .ok t ∧
      t = assembled ⟨"/api", OrderedMap.ofList [("default", .str "none"), ("GET /", .str "home")],
        [⟨"/v1", OrderedMap.ofList [("GET|post /", .str "root")]⟩]⟩ ∧
      t.keys = ["default", "GET /api", "GET|post /api/v1"] := by
  obtain ⟨hsize, htable⟩ := exists_toTable_iff_size_assembled (c := ⟨"/api",
    OrderedMap.ofList [("default", .str "none"), ("GET /", .str "home")],
    [⟨"/v1", OrderedMap.ofList [("GET|post /", .str "root")]⟩]⟩) (Faultless.of_faults rfl).keys
  obtain ⟨t, ht⟩ := hsize.2 (by decide +kernel)
  refine ⟨t, ht, htable t ht, ?_⟩
  rw [htable t ht]
  decide +kernel

end RouteTrie.Config
