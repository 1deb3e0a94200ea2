import RouteTrie.Proofs.Config.Clash
import RouteTrie.Proofs.Config.Compile
import RouteTrie.Proofs.Config.Faults
import RouteTrie.Proofs.Path.Literal

/-!
# Base paths as pieces of paths

Validation looks at the first and at the last character of a base path.  What it does not look for
is blanks, and a path ends at its first blank.  So a base path that has been accepted can be used
below every path exactly when there is no blank in it: otherwise a key below it cannot be read, and
this is reported as a conflict, or its path is shorter than the one that was asked for.

## What is here

* `Config.BlankFree`: there is no blank in a base path.
* `Config.CutsTo`: what is left of a text when the blanks at its end are dropped.
* `Config.Faultless.parse_entry_iff`: how the resolved key of a site is read.
* `Config.usable_iff_blankFree`: base paths without blanks are usable, and no others.
* `Config.not_usable_of_blank`: an accepted base path that is not usable.
-/

set_option autoImplicit false

namespace RouteTrie.Config

variable {c : Config}

/-- There is no blank in a base path. -/
def BlankFree (base : String) : Prop := ∀ ch ∈ base.toList, Text.isBlank ch = false

instance (base : String) : Decidable (BlankFree base) :=
  List.decidableBAll (fun ch => Text.isBlank ch = false) base.toList

/-- A text without blanks is the beginning of another one, which goes on with blanks only. -/
def CutsTo (full q : String) : Prop :=
  ∃ blanks, full.toList = q.toList ++ blanks ∧ BlankFree q ∧ ∀ ch ∈ blanks, Text.isBlank ch = true

theorem cutsTo_self_iff {full : String} : CutsTo full full ↔ BlankFree full :=
  ⟨fun ⟨_, _, hblank, _⟩ => hblank, fun hblank => ⟨[], by simp, hblank, by simp⟩⟩

/-- A path without blanks stays so below a base path without blanks, and below no other. -/
theorem blankFree_fullPath_iff {base path : String} (hpath : BlankFree path) :
    BlankFree (Table.fullPath base path) ↔ BlankFree base := by
  rw [Table.fullPath]
  split
  · exact Iff.rfl
  · simp only [BlankFree, String.toList_append, List.mem_append] at hpath ⊢
    exact ⟨fun h ch hch => h ch (Or.inl hch), fun h ch hch => hch.elim (h ch) (hpath ch)⟩

namespace Faultless

variable {s : Site}

/-- The base path of a site is empty or starts with a slash. -/
theorem base_eq_or_head? (h : c.Faultless) (hs : s ∈ c.sites) :
    s.base = "" ∨ s.base.toList.head? = some '/' := by
  have hslash : ∀ {base : String}, ¬Offends base → base.toList.head? = some '/' :=
    fun hbase => not_not.1 (not_or.1 hbase).1
  have htop : c.base = "" ∨ c.base.toList.head? = some '/' :=
    (eq_or_ne c.base "").imp_right fun hne => hslash (h.base hne)
  rcases mem_sites.1 hs with ⟨r, -, rfl⟩ | ⟨g, hg, r, -, rfl⟩
  · exact htop
  · refine Or.inr ?_
    rw [String.toList_append]
    rcases htop with hnil | htop
    · rw [hnil]
      exact hslash (h.group_base g hg)
    · rw [List.head?_append, htop]
      rfl

/-- The full path of a site starts with a slash. -/
theorem head?_fullPath (h : c.Faultless) (hs : s ∈ c.sites) {path : String}
    (hpath : path.toList.head? = some '/') :
    (Table.fullPath s.base path).toList.head? = some '/' := by
  rw [Table.fullPath]
  split
  · rename_i hroot
    exact (h.base_eq_or_head? hs).resolve_left hroot.2
  · rw [String.toList_append]
    rcases h.base_eq_or_head? hs with hnil | hbase
    · rw [hnil]
      exact hpath
    · rw [List.head?_append, hbase]
      rfl

variable {methods : List String} {path : String}

/-- **The resolved key of a site** has the methods of its key, and its path is what is left of the
full path without the blanks at the end. -/
theorem parse_entry_iff (h : c.Faultless) (hs : s ∈ c.sites)
    (hk : RouteKey.parse s.key = .ok (.route methods path)) {q : String} :
    RouteKey.parse (RouteKey.normalize (RouteKey.render methods (Table.fullPath s.base path))) =
        .ok (.route methods q) ↔ CutsTo (Table.fullPath s.base path) q := by
  rw [RouteKey.parse_normalize_eq_ok_iff]
  exact RouteKey.parse_render_eq_ok_iff (RouteKey.methods_ne_nil_of_parse hk)
    (RouteKey.isMethodWord_of_parse hk) (h.head?_fullPath hs (RouteKey.head?_of_parse hk))

/-- The resolved key of a site has the full path exactly when there is no blank in the base path. -/
theorem parse_entry_fullPath_iff (h : c.Faultless) (hs : s ∈ c.sites)
    (hk : RouteKey.parse s.key = .ok (.route methods path)) :
    RouteKey.parse (RouteKey.normalize (RouteKey.render methods (Table.fullPath s.base path))) =
        .ok (.route methods (Table.fullPath s.base path)) ↔ BlankFree s.base := by
  rw [h.parse_entry_iff hs hk, cutsTo_self_iff]
  exact blankFree_fullPath_iff (RouteKey.not_isBlank_of_parse hk)

theorem exists_parse_entry (h : c.Faultless) (hs : s ∈ c.sites) (hb : BlankFree s.base) :
    ∃ k, RouteKey.parse s.entry.1 = .ok k := by
  obtain ⟨k, hk⟩ := h.keys s hs
  cases k with
  | route methods path =>
    refine ⟨.route methods (Table.fullPath s.base path), ?_⟩
    rw [Site.entry, Site.resolvedKey_of_route hk]
    exact (h.parse_entry_fullPath_iff hs hk).2 hb
  | fallback =>
    refine ⟨.fallback, RouteKey.parse_normalize_eq_ok_iff.2 ?_⟩
    rw [RouteKey.parse_eq_fallback_iff, Site.resolvedKey_eq_fallbackKey_iff,
      ← RouteKey.parse_eq_fallback_iff, hk]

/-- Without blanks in the base paths a conflict is a duplicate. -/
theorem exists_duplicate_of_conflict? (h : c.Faultless) (hb : ∀ s ∈ c.sites, BlankFree s.base)
    {e : RouteError} (he : c.conflict? = some e) : ∃ M P, e = .duplicateRoute M P := by
  have hclash : ∀ {key k}, RouteKey.parse key = .ok k → ∃ M P, clash key = .duplicateRoute M P := by
    intro key k hk
    rcases clash_of_parse hk with ⟨-, hdup⟩ | ⟨methods, path, -, hdup⟩
    · exact ⟨_, _, hdup⟩
    · exact ⟨_, _, hdup⟩
  rcases conflict?_eq_some_iff.1 he with ht | ⟨t, ht, hcheck⟩
  · cases refusal_of_toTable ht with
    | unreadable hs herr =>
      obtain ⟨k, hk⟩ := h.keys _ hs
      rw [hk] at herr
      cases herr
    | below _ _ hkey _ => exact hclash hkey
    | @across s s' _ hpair _ _ =>
      have hs' : s' ∈ c.sites := hpair.subset (by simp)
      obtain ⟨k, hk⟩ := h.exists_parse_entry hs' (hb s' hs')
      exact hclash hk
  · rcases claimedTwice_of_check ht hcheck with ⟨s, hs, herr⟩ | ⟨M, P, -, hdup⟩
    · obtain ⟨k, hk⟩ := h.exists_parse_entry hs (hb s hs)
      rw [hk] at herr
      cases herr
    · exact ⟨M, P, hdup⟩

end Faultless

/-- **An accepted base path is usable exactly when there is no blank in it.**  In a file for which
nothing but conflicts is reported, the key under which a route is stored reads back with the methods
of the route and with its full path up to the blanks at the end; so it has the whole path exactly
when the base path is free of blanks.  If all base paths are, then a conflict is a duplicate, and
every route of an accepted file is found at the end of its full path. -/
theorem usable_iff_blankFree {c : Config} (h : ∀ p ∈ c.problems, ∃ e, p = Problem.conflict e) :
    (∀ s ∈ c.sites, ∀ methods path, RouteKey.parse s.key = .ok (.route methods path) →
      (∀ q, RouteKey.parse
          (RouteKey.normalize (RouteKey.render methods (Table.fullPath s.base path))) =
            .ok (.route methods q) ↔ CutsTo (Table.fullPath s.base path) q) ∧
      (RouteKey.parse (RouteKey.normalize (RouteKey.render methods (Table.fullPath s.base path))) =
          .ok (.route methods (Table.fullPath s.base path)) ↔ BlankFree s.base)) ∧
    ((∀ s ∈ c.sites, BlankFree s.base) →
      (∀ e, Problem.conflict e ∈ c.problems → ∃ M P, e = .duplicateRoute M P) ∧
      (c.validate = .ok () → ∃ t root, c.toTable = .ok t ∧ t.build = .ok root ∧
        ∀ s ∈ c.sites, ∀ methods path, RouteKey.parse s.key = .ok (.route methods path) →
          ∃ parsed, Path.parse (Table.fullPath s.base path) = .ok parsed ∧
            ∀ m ∈ methods, ∃ e, (root.find? parsed.segments).bind Node.endpoint? = some e ∧
              e.route? m = some s.handler ∧ e.vars m = .ok parsed.vars)) := by
  have hc : c.Faultless := .of_problems h
  refine ⟨fun s hs methods path hk => ⟨fun q => hc.parse_entry_iff hs hk,
    hc.parse_entry_fullPath_iff hs hk⟩, fun hb => ⟨fun e he => ?_, fun hv => ?_⟩⟩
  · exact hc.exists_duplicate_of_conflict? hb (conflict_mem_problems_iff.1 he).2
  · obtain ⟨t, root, ht, hroot⟩ := exists_build_of_problems (validate_eq_ok_iff.1 hv)
    refine ⟨t, root, ht, hroot, fun s hs methods path hk => ?_⟩
    obtain ⟨parsed, hparsed⟩ :=
      Path.parse_eq_ok (hc.head?_fullPath hs (RouteKey.head?_of_parse hk))
    refine ⟨parsed, hparsed, fun m hm => ?_⟩
    obtain ⟨i, hi⟩ := List.mem_iff_getElem?.1 hs
    obtain ⟨j, hj⟩ := List.mem_iff_getElem?.1 hm
    have hfull := (hc.parse_entry_fullPath_iff hs hk).2 (hb s hs)
    have hbinds : s.Binds j ⟨.path parsed.segments, Text.uppercase m⟩ ⟨s.handler, parsed.vars⟩ :=
      Or.inl ⟨methods, path, Table.fullPath s.base path, parsed, m, hk,
        RouteKey.parse_normalize_eq_ok_iff.1 hfull, hparsed, hj, rfl, rfl⟩
    exact Node.exists_endpoint_of_route? ((route?_eq_some_iff ht hroot).2 ⟨i, j, s, hi, hbinds⟩)

/-- A group below the base path of a file, with a route at its root. -/
theorem usable_iff_blankFree_group :
    ∃ t root, toTable ⟨"/api", OrderedMap.ofList [("GET /", .str "home")],
        [⟨"/v1", OrderedMap.ofList [("GET|post /", .str "root")]⟩]⟩ = .ok t ∧
      t.build = .ok root ∧
      ((root.find? [.literal "api", .literal "v1"]).bind Node.endpoint?).bind
        (fun e => e.route? "post") = some (.str "root") := by
  have hnone : problems ⟨"/api", OrderedMap.ofList [("GET /", .str "home")],
      [⟨"/v1", OrderedMap.ofList [("GET|post /", .str "root")]⟩]⟩ = [] := by decide +kernel
  have hconflicts := List.forall_mem_nil fun p => ∃ e, p = Problem.conflict e
  rw [← hnone] at hconflicts
  obtain ⟨t, root, ht, hroot, hfound⟩ :=
    ((usable_iff_blankFree hconflicts).2 (by decide)).2 (validate_eq_ok_iff.2 hnone)
  obtain ⟨parsed, hparsed, hfound⟩ := hfound ⟨"/api/v1", "GET|post /", .str "root"⟩
    (List.mem_of_getElem? (i := 1) rfl) ["GET", "post"] "/" rfl
  have hparse : Path.parse (Table.fullPath "/api/v1" "/") =
      .ok ⟨[.literal "api", .literal "v1"], ∅⟩ := rfl
  rw [hparse] at hparsed
  cases hparsed
  obtain ⟨e, he, hroute, -⟩ := hfound "post" (by decide)
  refine ⟨t, root, ht, hroot, ?_⟩
  rw [he]
  exact hroute

/-- **Blanks in an accepted base path.**  Below one of them a route cannot be read, which is
reported as a conflict; and a file with another one is accepted, with its route at a shorter path
than its full path. -/
theorem not_usable_of_blank :
    problems ⟨"/a b", OrderedMap.ofList [("GET /x", .str "x")], []⟩ =
        [.conflict (.invalidRoute "GET /a b/x")] ∧
      validate ⟨"/a ", OrderedMap.ofList [("GET /", .str "home")], []⟩ = .ok () ∧
      Table.fullPath "/a " "/" = "/a " ∧
      RouteKey.parse (RouteKey.normalize (RouteKey.render ["GET"] (Table.fullPath "/a " "/"))) =
        .ok (.route ["GET"] "/a") :=
  ⟨rfl, rfl, rfl, rfl⟩

end RouteTrie.Config
