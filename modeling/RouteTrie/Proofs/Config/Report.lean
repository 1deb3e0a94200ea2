import RouteTrie.Proofs.Config.Clash
import RouteTrie.Proofs.Config.Faults

/-!
# What a reported duplicate names

A duplicate is reported as a method and a path.  One that is found by the check of a table names a
pair that two methods of the file take.  One that is found while the table is filled comes from a
site whose key resolves like that of another site: it names all methods of the key in one text, and
the path is the one in the key or in the resolved key, with its variables as they are written.  So
it need not name a pair that any method takes, but everything that the site takes does clash.

## What is here

* `Config.Site.Named`: how the report of a site names it.
* `Config.duplicate_names_clash`: what a reported duplicate is about.
* `Config.duplicate_names_no_claim`: a report that names no pair of the file.
-/

set_option autoImplicit false

namespace RouteTrie.Config

variable {c : Config}

/-- How a site is named when its key resolves like that of an earlier site. -/
inductive Site.Named (s : Site) : String → String → Prop where
  /-- The fallback route, by empty texts. -/
  | fallback (h : s.key = fallbackKey) : Named s "" ""
  /-- By the methods and the path of its key. -/
  | written {methods : List String} {path : String}
      (h : RouteKey.parse s.key = .ok (.route methods path)) :
      Named s (Text.uppercase (RouteKey.joinMethods methods)) path
  /-- By the methods and the path of its resolved key. -/
  | resolved {methods : List String} {path : String}
      (h : RouteKey.parse s.entry.1 = .ok (.route methods path)) :
      Named s (Text.uppercase (RouteKey.joinMethods methods)) path
  /-- By empty texts, if the resolved key cannot be read and looks like the fallback key. -/
  | blank {e : RouteError} (h : RouteKey.parse s.entry.1 = .error e)
      (htrim : Text.trim s.entry.1.toList = fallbackKey.toList) : Named s "" ""

/-- A clash at the resolved key of a site names the site. -/
theorem Site.named_of_clash_entry {s : Site} {M P : String}
    (h : clash s.entry.1 = .duplicateRoute M P) : s.Named M P := by
  cases hk : RouteKey.parse s.entry.1 with
  | ok k =>
    rcases clash_of_parse hk with ⟨rfl, hdup⟩ | ⟨methods, path, rfl, hdup⟩
    · rw [hdup] at h
      cases h
      refine .fallback (Site.resolvedKey_eq_fallbackKey_iff.1 ?_)
      rw [← RouteKey.normalize_eq_fallbackKey_iff, ← RouteKey.parse_eq_fallback_iff]
      exact hk
    · rw [hdup] at h
      cases h
      exact .resolved hk
  | error e =>
    simp only [clash, hk] at h
    split at h
    · rename_i htrim
      cases h
      exact .blank hk htrim
    · cases h

/-- A clash at the key of a site as it is written names the site. -/
theorem Site.named_of_clash_key {s : Site} {k : RouteKey} (hk : RouteKey.parse s.key = .ok k)
    {M P : String} (h : clash s.key = .duplicateRoute M P) : s.Named M P := by
  rcases clash_of_parse hk with ⟨rfl, hdup⟩ | ⟨methods, path, rfl, hdup⟩
  · rw [hdup] at h
    cases h
    exact .fallback (RouteKey.parse_eq_fallback_iff.1 hk)
  · rw [hdup] at h
    cases h
    exact .written hk

/-- A file without a table for a duplicate has two sites with the same key in the table, of which
the later one is named. -/
theorem exists_named_of_toTable {M P : String} (h : c.toTable = .error (.duplicateRoute M P)) :
    ∃ s s', [s, s'].Sublist c.sites ∧ s.entry.1 = s'.entry.1 ∧ s'.Named M P := by
  generalize he : RouteError.duplicateRoute M P = e at h
  cases refusal_of_toTable h with
  | unreadable hs herr =>
    rw [RouteKey.eq_of_parse_eq_error herr] at he
    cases he
  | below hpair _ hkey hentry =>
    exact ⟨_, _, hpair, hentry, Site.named_of_clash_key hkey he.symm⟩
  | across hpair _ hentry => exact ⟨_, _, hpair, hentry, Site.named_of_clash_entry he.symm⟩

/-- **What a reported duplicate is about.**  If the file has a table, two methods of it take exactly
the pair of method and normalized path that is reported.  If it has none, the report names the later
one of two sites with the same key in the table, and all that this site takes is taken twice. -/
theorem duplicate_names_clash {c : Config} {M P : String}
    (h : c.toTable = .error (.duplicateRoute M P) ∨
      Problem.conflict (.duplicateRoute M P) ∈ c.problems) :
    ((∃ t, c.toTable = .ok t) → c.ClaimedTwice M P) ∧
      ((∃ e, c.toTable = .error e) → ∃ s s', [s, s'].Sublist c.sites ∧ s.entry.1 = s'.entry.1 ∧
        s'.Named M P ∧ ∀ j M' P', s'.Claims j M' P' → c.ClaimedTwice M' P') := by
  have hconflict : c.toTable = .error (.duplicateRoute M P) ∨
      ∃ t, c.toTable = .ok t ∧ t.check = .error (.duplicateRoute M P) :=
    h.elim Or.inl fun hp => conflict?_eq_some_iff.1 (conflict_mem_problems_iff.1 hp).2
  constructor
  · rintro ⟨t, ht⟩
    rcases hconflict with ht' | ⟨t', ht', hcheck⟩
    · rw [ht] at ht'
      cases ht'
    · rcases claimedTwice_of_check ht' hcheck with ⟨s, -, herr⟩ | ⟨M', P', htwice, hdup⟩
      · cases RouteKey.eq_of_parse_eq_error herr
      · cases hdup
        exact htwice
  · rintro ⟨e, ht⟩
    rcases hconflict with ht' | ⟨t', ht', -⟩
    · obtain ⟨s, s', hpair, hentry, hnamed⟩ := exists_named_of_toTable ht'
      exact ⟨s, s', hpair, hentry, hnamed, fun _ _ _ hclaims => .of_pair hpair hentry hclaims⟩
    · rw [ht] at ht'
      cases ht'

/-- Two spellings of one variable, in keys with different methods. -/
theorem duplicate_names_clash_users :
    ClaimedTwice ⟨"", OrderedMap.ofList [("GET /users/{id}", .str "a"),
      ("GET|POST /users/:uid", .str "b")], []⟩ "GET" "/users/*" :=
  (duplicate_names_clash (Or.inr (by decide +kernel))).1 ⟨_, rfl⟩

/-- **A report that names no pair of the file**: below a base path two spellings of one key are
reported by the path in the key, although both routes take the pair with the full path. -/
theorem duplicate_names_no_claim :
    problems ⟨"/api", OrderedMap.ofList [("GET /users/{id}", .str "a"),
        ("GET  /users/{id}", .str "b")], []⟩ = [.conflict (.duplicateRoute "GET" "/users/{id}")] ∧
      ¬ClaimedTwice ⟨"/api", OrderedMap.ofList [("GET /users/{id}", .str "a"),
        ("GET  /users/{id}", .str "b")], []⟩ "GET" "/users/{id}" ∧
      ClaimedTwice ⟨"/api", OrderedMap.ofList [("GET /users/{id}", .str "a"),
        ("GET  /users/{id}", .str "b")], []⟩ "GET" "/api/users/*" := by
  refine ⟨by decide +kernel, ?_, ?_⟩
  · exact fun htwice => absurd htwice.mem_claims (by decide +kernel)
  · refine ⟨0, 1, 0, 0, ⟨"/api", "GET /users/{id}", .str "a"⟩,
      ⟨"/api", "GET  /users/{id}", .str "b"⟩, by decide, rfl, rfl, Or.inl ?_, Or.inl ?_⟩
    · exact ⟨["GET"], "/api/users/{id}", _, "GET", rfl, rfl, rfl, by decide, rfl⟩
    · exact ⟨["GET"], "/api/users/{id}", _, "GET", rfl, rfl, rfl, by decide, rfl⟩

end RouteTrie.Config
