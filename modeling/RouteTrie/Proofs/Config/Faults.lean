import RouteTrie.Config.Validation
import RouteTrie.Proofs.Config.Sites

/-!
# The problems of single base paths and keys

What is wrong with a route file as far as it concerns one base path or one key can be read off the
file.  The list of these problems is what validation reports before it looks for conflicts.

## What is here

* `Config.faults`: the problems of single base paths and keys.
* `Config.localProblems_eq_faults`: validation reports exactly these.
* `Config.Faultless`: what is known of a file that has none of them.
* `Config.Faultless.of_problems`: a file for which nothing but conflicts is reported is faultless.
-/

set_option autoImplicit false

namespace RouteTrie.Config

variable {c : Config}

/-! ## The list -/

/-- Whether a text does not start with a slash, or ends with one. -/
def Offends (base : String) : Prop :=
  base.toList.head? ≠ some '/' ∨ base.toList.getLast? = some '/'

instance (base : String) : Decidable (Offends base) := inferInstanceAs (Decidable (_ ∨ _))

/-- The problems of some keys: one for each of them that cannot be read. -/
def unreadable (keys : List String) : List Problem :=
  (keys.filter fun key => !(RouteKey.parse key).isOk).map fun key => .invalidKey (.invalidRoute key)

/-- The problems of single base paths and keys of a file: that it has no route, those of its top,
and those of its groups in their order. -/
def faults (c : Config) : List Problem :=
  (if c.sites = [] then [.empty] else []) ++
    (if c.base ≠ "" ∧ Offends c.base then [.invalidBase c.base] else []) ++
    unreadable c.routes.keys ++
    c.groups.flatMap fun g =>
      (if g.base = "" ∨ Offends g.base then [.invalidBase g.base] else []) ++
        (if fallbackKey ∈ g.routes.keys then [.fallbackInGroup g.base] else []) ++
        unreadable g.routes.keys

theorem routeCount_eq_length (c : Config) : c.routeCount = c.sites.length := by
  obtain ⟨base, routes, groups⟩ := c
  induction groups with
  | nil => simp [routeCount, sites, sitesBelow, OrderedMap.size]
  | cons g groups ih =>
    simp only [routeCount, sites, List.foldr_cons, List.flatMap_cons, List.length_append,
      groupSites, sitesBelow, List.length_map, OrderedMap.size] at ih ⊢
    omega

theorem isUsableBase_eq_true_iff {base : String} : isUsableBase base = true ↔ ¬Offends base := by
  simp [isUsableBase, Offends]

theorem keyProblems_eq_unreadable (keys : List String) : keyProblems keys = unreadable keys := by
  induction keys with
  | nil => rfl
  | cons key keys ih =>
    rw [unreadable] at ih ⊢
    rw [keyProblems, List.filterMap_cons, ← keyProblems, ih]
    cases hk : RouteKey.parse key with
    | ok k => simp [hk, Except.isOk, Except.toBool]
    | error e => simp [hk, Except.isOk, Except.toBool, RouteKey.eq_of_parse_eq_error hk]

theorem localProblems_eq_faults (c : Config) : c.localProblems = c.faults := by
  rw [localProblems, faults]
  congr 1
  · rw [keyProblems_eq_unreadable]
    congr 2
    · simp only [routeCount_eq_length, List.length_eq_zero_iff]
    · simp only [baseProblems, Bool.or_eq_true, isUsableBase_eq_true_iff, String.isEmpty_iff]
      split <;> split <;> simp_all
  · refine congrArg (List.flatMap · c.groups) (funext fun g => ?_)
    rw [groupProblems, keyProblems_eq_unreadable]
    simp only [OrderedMap.contains_iff, Bool.or_eq_true, Bool.not_eq_true', ← Bool.not_eq_true,
      isUsableBase_eq_true_iff, String.isEmpty_iff, not_not]

/-! ## Files without such problems -/

theorem mem_sites {s : Site} :
    s ∈ c.sites ↔
      (∃ r ∈ c.routes.entries, s = ⟨c.base, r.1, r.2⟩) ∨
        ∃ g ∈ c.groups, ∃ r ∈ g.routes.entries, s = ⟨c.base ++ g.base, r.1, r.2⟩ := by
  simp [sites, groupSites, sitesBelow, eq_comm]

theorem unreadable_eq_nil_iff {keys : List String} :
    unreadable keys = [] ↔ ∀ key ∈ keys, ∃ k, RouteKey.parse key = .ok k := by
  rw [unreadable, List.map_eq_nil_iff, List.filter_eq_nil_iff]
  refine forall₂_congr fun key _ => ?_
  cases RouteKey.parse key <;> simp [Except.isOk, Except.toBool]

/-- What is known of a file without problems of single base paths and keys. -/
structure Faultless (c : Config) : Prop where
  /-- There is a route. -/
  sites_ne_nil : c.sites ≠ []
  /-- The base path of the file can stand in front of a path. -/
  base : c.base ≠ "" → ¬Offends c.base
  /-- So can those of the groups. -/
  group_base : ∀ g ∈ c.groups, ¬Offends g.base
  /-- All keys can be read. -/
  keys : ∀ s ∈ c.sites, ∃ k, RouteKey.parse s.key = .ok k
  /-- Only the top defines a fallback route. -/
  fallback : ∀ g ∈ c.groups, fallbackKey ∉ g.routes.keys

/-- A file without such problems is known to be faultless. -/
theorem Faultless.of_faults (h : c.faults = []) : c.Faultless := by
  simp only [faults, List.append_eq_nil_iff, List.flatMap_eq_nil_iff, unreadable_eq_nil_iff,
    ite_eq_right_iff, reduceCtorEq, imp_false, not_and, not_or] at h
  obtain ⟨⟨⟨hsites, hbase⟩, hkeys⟩, hgroups⟩ := h
  refine ⟨hsites, hbase, fun g hg => (hgroups g hg).1.1.2, fun s hs => ?_,
    fun g hg => (hgroups g hg).1.2⟩
  rcases mem_sites.1 hs with ⟨r, hr, rfl⟩ | ⟨g, hg, r, hr, rfl⟩
  · exact hkeys r.1 (Entries.mem_keys_of_mem hr)
  · exact (hgroups g hg).2 r.1 (Entries.mem_keys_of_mem hr)

/-- A conflict is not a problem of a single base path or key. -/
theorem conflict_not_mem_faults (c : Config) (e : RouteError) : Problem.conflict e ∉ c.faults := by
  simp only [faults, unreadable, List.mem_append, List.mem_flatMap, List.mem_map,
    List.mem_ite_nil_right, List.mem_singleton, reduceCtorEq, and_false, or_self, exists_false,
    not_false_eq_true]

/-- A conflict is reported if it is the first one of a file without such problems. -/
theorem conflict_mem_problems_iff {e : RouteError} :
    Problem.conflict e ∈ c.problems ↔ c.faults = [] ∧ c.conflict? = some e := by
  rw [problems, localProblems_eq_faults]
  split
  · rename_i hnil
    simp [List.isEmpty_iff.1 hnil]
  · rename_i hne
    exact iff_of_false (conflict_not_mem_faults c e) fun h => hne (List.isEmpty_iff.2 h.1)

/-- A file for which nothing but conflicts is reported is faultless. -/
theorem Faultless.of_problems (h : ∀ p ∈ c.problems, ∃ e, p = Problem.conflict e) :
    c.Faultless := by
  refine .of_faults ?_
  rw [problems, localProblems_eq_faults] at h
  split at h
  · rename_i hnil
    exact List.isEmpty_iff.1 hnil
  · rename_i hne
    obtain ⟨p, hp⟩ := List.exists_mem_of_ne_nil _ fun hnil => hne (List.isEmpty_iff.2 hnil)
    obtain ⟨e, rfl⟩ := h p hp
    exact absurd hp (conflict_not_mem_faults c e)

end RouteTrie.Config
