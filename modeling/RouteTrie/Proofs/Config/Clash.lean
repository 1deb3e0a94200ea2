import Mathlib.Data.List.NodupEquivFin
import RouteTrie.Config.Validation
import RouteTrie.Proofs.Build.Check
import RouteTrie.Proofs.Build.Lookup
import RouteTrie.Proofs.Config.Sites
import RouteTrie.Proofs.Table.Extend

/-!
# What stops the routes of a file

The routes of a file can fail to stand side by side at three places: while a table is filled with
the routes below one base path, while the table of a group is merged into that of the file, and when
the table is checked.  This module says what each place stops at, in terms of the sites of the file.

## What is here

* `Config.Site.Claims`, `Config.ClaimedTwice`: the pairs of method and normalized path that the
  sites of a file take, and the pairs that are taken twice.
* `Config.Refusal`, `Config.refusal_of_toTable`: why there is no table.
* `Config.exists_toTable_iff`: there is a table iff the keys can be read and resolve to different
  keys.
* `Config.claimedTwice_of_check`, `Config.not_claimedTwice_of_check`: what a check of the table
  stops at, and what it rules out.
* `Config.conflict?_eq_some_iff`, `Config.clash_of_parse`: where a conflict comes from, and how a
  clash at a key is reported.
-/

set_option autoImplicit false

namespace RouteTrie.Config

variable {c : Config} {t : Table Json}

/-! ## Claims -/

/-- Method `j` of the site takes a pair of upper-case method and normalized path: the path is the
one that its resolved key has.  The fallback route takes the pair of empty texts. -/
def Site.Claims (s : Site) (j : Nat) (method pattern : String) : Prop :=
  (∃ methods q path m, RouteKey.parse s.resolvedKey = .ok (.route methods q) ∧
    Path.parse q = .ok path ∧ methods[j]? = some m ∧ method = Text.uppercase m ∧
    pattern = path.pattern) ∨
  (RouteKey.parse s.resolvedKey = .ok .fallback ∧ j = 0 ∧ method = "" ∧ pattern = "")

/-- Two methods of the sites of a file, of one site or of two, take the same pair. -/
def ClaimedTwice (c : Config) (method pattern : String) : Prop :=
  ∃ (i i' j j' : Nat) (s s' : Site), (i, j) ≠ (i', j') ∧ c.sites[i]? = some s ∧
    c.sites[i']? = some s' ∧ s.Claims j method pattern ∧ s'.Claims j' method pattern

/-- A site takes the claims of its key in the table. -/
theorem Site.claims_iff {s : Site} {j : Nat} {M P : String} :
    s.Claims j M P ↔ (keyClaims s.entry.1)[j]? = some (M, P) := by
  rw [Claims, entry, keyClaims, Registration.ofKey]
  cases hk : RouteKey.parse s.resolvedKey with
  | error e =>
    cases hn : RouteKey.parse (RouteKey.normalize s.resolvedKey) with
    | error e' => simp
    | ok k =>
      rw [RouteKey.parse_normalize_eq_ok_iff, hk] at hn
      cases hn
  | ok k =>
    rw [RouteKey.parse_normalize_eq_ok_iff.2 hk]
    cases k with
    | fallback =>
      cases j with
      | zero => simp [Registration.claims, uppercase_fallbackMethod, eq_comm]
      | succ j => simp [Registration.claims]
    | route methods q =>
      obtain ⟨path, hpath⟩ := Path.parse_eq_ok (RouteKey.head?_of_parse hk)
      simp [hpath, Registration.claims, eq_comm]

/-- What is taken twice is a claim of a key in the table. -/
theorem ClaimedTwice.mem_claims {M P : String} (h : c.ClaimedTwice M P) :
    (M, P) ∈ c.sites.flatMap fun s => keyClaims s.entry.1 := by
  obtain ⟨i, i', j, j', s, s', -, hi, -, hs, -⟩ := h
  exact List.mem_flatMap.2
    ⟨s, List.mem_of_getElem? hi, List.mem_of_getElem? (Site.claims_iff.1 hs)⟩

/-- Two places in a list, one before the other. -/
theorem exists_getElem?_of_pair_sublist {α : Type} {l : List α} {a b : α} (h : [a, b].Sublist l) :
    ∃ i i' : Nat, i < i' ∧ l[i]? = some a ∧ l[i']? = some b := by
  obtain ⟨f, hf⟩ := List.sublist_iff_exists_orderEmbedding_getElem?_eq.1 h
  exact ⟨f 0, f 1, f.strictMono Nat.zero_lt_one, (hf 0).symm, (hf 1).symm⟩

/-- What a site takes is taken twice if another site has the same key in the table. -/
theorem ClaimedTwice.of_pair {s s' : Site} (hpair : [s, s'].Sublist c.sites)
    (hentry : s.entry.1 = s'.entry.1) {j : Nat} {M P : String} (h : s'.Claims j M P) :
    c.ClaimedTwice M P := by
  obtain ⟨i, i', hlt, hi, hi'⟩ := exists_getElem?_of_pair_sublist hpair
  have hs : s.Claims j M P := by
    rw [Site.claims_iff, hentry]
    exact Site.claims_iff.1 h
  exact ⟨i, i', j, j, s, s', fun heq => absurd (Prod.mk.inj heq).1 (Nat.ne_of_lt hlt), hi, hi', hs,
    h⟩

/-! ## Filling a table -/

/-- Why some sites do not fill a table. -/
inductive Refusal (sites : List Site) : RouteError → Prop where
  /-- The key of a site cannot be read. -/
  | unreadable {s : Site} {e : RouteError} (hs : s ∈ sites)
      (h : RouteKey.parse s.key = .error e) : Refusal sites e
  /-- Below one base path two keys resolve alike; the later one is named as it is written. -/
  | below {s s' : Site} {k : RouteKey} (hpair : [s, s'].Sublist sites) (hbase : s.base = s'.base)
      (hkey : RouteKey.parse s'.key = .ok k) (hentry : s.entry.1 = s'.entry.1) :
      Refusal sites (clash s'.key)
  /-- A key of a group resolves like a key in front of the group; the resolved key is named. -/
  | across {s s' : Site} {k : RouteKey} (hpair : [s, s'].Sublist sites)
      (hkey : RouteKey.parse s'.key = .ok k) (hentry : s.entry.1 = s'.entry.1) :
      Refusal sites (clash s'.entry.1)

theorem Refusal.mono {sites sites' : List Site} {e : RouteError} (hsub : sites.Sublist sites')
    (h : Refusal sites e) : Refusal sites' e := by
  cases h with
  | unreadable hs h => exact .unreadable (hsub.subset hs) h
  | below hpair hbase hkey hentry => exact .below (hpair.trans hsub) hbase hkey hentry
  | across hpair hkey hentry => exact .across (hpair.trans hsub) hkey hentry

/-- Adding routes to a table stops at a key that cannot be read, or at one that resolves to a key of
the table or of an earlier route. -/
theorem of_addRoutes_eq_error {routes : List (String × Json)} {e : RouteError}
    (h : addRoutes t routes = .error e) :
    (∃ s ∈ sitesBelow t.base routes, RouteKey.parse s.key = .error e) ∨
      ∃ s' ∈ sitesBelow t.base routes, (∃ k, RouteKey.parse s'.key = .ok k) ∧ e = clash s'.key ∧
        (s'.entry.1 ∈ t.keys ∨
          ∃ s, [s, s'].Sublist (sitesBelow t.base routes) ∧ s.entry.1 = s'.entry.1) := by
  induction routes generalizing t with
  | nil => cases h
  | cons r rest ih =>
    obtain ⟨key, handler⟩ := r
    have hsites : sitesBelow t.base ((key, handler) :: rest) =
        ⟨t.base, key, handler⟩ :: sitesBelow t.base rest := rfl
    rw [hsites]
    rw [addRoutes, bind_eq_error_iff] at h
    rcases h with hk | ⟨k, hk, h⟩
    · exact Or.inl ⟨_, List.mem_cons_self, hk⟩
    · have hkey : t.keyOf k = Site.resolvedKey ⟨t.base, key, handler⟩ :=
        Site.keyOf_eq_resolvedKey rfl hk
      rw [hkey] at h
      split at h
      · rename_i htaken
        cases h
        refine Or.inr ⟨_, List.mem_cons_self, ⟨k, hk⟩, rfl, Or.inl ?_⟩
        exact OrderedMap.contains_iff.1 htaken
      · rcases ih h with ⟨s, hs, herr⟩ | ⟨s', hs', hread, he, htaken⟩
        · exact Or.inl ⟨s, List.mem_cons_of_mem _ hs, herr⟩
        · refine Or.inr ⟨s', List.mem_cons_of_mem _ hs', hread, he, ?_⟩
          -- the key of this route is one of the table from now on
          rw [Table.mem_keys_insert] at htaken
          rcases htaken with (htaken | htaken) | ⟨s, hpair, hentry⟩
          · exact Or.inr ⟨_, (List.singleton_sublist.2 hs').cons_cons _, htaken.symm⟩
          · exact Or.inl htaken
          · exact Or.inr ⟨s, hpair.cons _, hentry⟩

/-- Merging entries with different keys stops at a key of the table. -/
theorem of_merge_eq_error {entries : List (String × Json)} {e : RouteError}
    (hnd : (entries.map fun x => RouteKey.normalize x.1).Nodup) (h : merge t entries = .error e) :
    ∃ x ∈ entries, e = clash x.1 ∧ RouteKey.normalize x.1 ∈ t.keys := by
  induction entries generalizing t with
  | nil => cases h
  | cons x rest ih =>
    obtain ⟨key, handler⟩ := x
    rw [List.map_cons, List.nodup_cons] at hnd
    rw [merge] at h
    split at h
    · rename_i htaken
      cases h
      exact ⟨_, List.mem_cons_self, rfl, OrderedMap.contains_iff.1 htaken⟩
    · obtain ⟨x, hx, he, htaken⟩ := ih hnd.2 h
      refine ⟨x, List.mem_cons_of_mem _ hx, he, ?_⟩
      refine (Table.mem_keys_insert.1 htaken).resolve_left fun heq => hnd.1 ?_
      rw [← heq]
      exact List.mem_map_of_mem hx

theorem refusal_of_addRoutes {base : String} {routes : List (String × Json)} {e : RouteError}
    (h : addRoutes (Table.new base) routes = .error e) : Refusal (sitesBelow base routes) e := by
  rcases of_addRoutes_eq_error h with ⟨s, hs, herr⟩ | ⟨s', hs', ⟨k, hk⟩, rfl, htaken⟩
  · exact .unreadable hs herr
  · obtain ⟨s, hpair, hentry⟩ := htaken.resolve_left List.not_mem_nil
    have hbase : ∀ s ∈ sitesBelow base routes, s.base = base := by
      intro s hs
      obtain ⟨r, -, rfl⟩ := List.mem_map.1 hs
      rfl
    exact .below hpair ((hbase s (hpair.subset List.mem_cons_self)).trans (hbase s' hs').symm) hk
      hentry

/-- A group is refused for what is wrong in it, or for a key that resolves like one before it. -/
theorem refusal_of_addGroup {base : String} {before : List Site} {g : Group} {e : RouteError}
    (ht : t.entries.entries = before.map Site.entry) (h : addGroup base t g = .error e) :
    Refusal (before ++ groupSites base g) e := by
  rw [addGroup, bind_eq_error_iff] at h
  rcases h with hsub | ⟨sub, hsub, hmerge⟩
  · exact (refusal_of_addRoutes hsub).mono (List.sublist_append_right _ _)
  · obtain ⟨hentries, hkeys⟩ := entries_of_addRoutes hsub
    replace hentries : sub.entries.entries = (groupSites base g).map Site.entry := hentries
    have hnd := sub.entries.nodup
    rw [Entries.keys, hentries, ← map_normalize_entry, List.map_map] at hnd
    rw [hentries] at hmerge
    obtain ⟨x, hx, rfl, htaken⟩ := of_merge_eq_error hnd hmerge
    obtain ⟨s', hs', rfl⟩ := List.mem_map.1 hx
    obtain ⟨r, hr, rfl⟩ := List.mem_map.1 hs'
    obtain ⟨k, hk⟩ := hkeys r hr
    -- the key stands in front of the group, at a site that has been entered already
    rw [Table.keys, OrderedMap.keys, Entries.keys, ht, List.map_map] at htaken
    obtain ⟨s, hs, hentry⟩ := List.mem_map.1 htaken
    rw [Site.entry, RouteKey.normalize_normalize] at hentry
    exact .across ((List.singleton_sublist.2 hs).append (List.singleton_sublist.2 hs')) hk hentry

theorem refusal_of_foldlM_addGroup {base : String} {before : List Site} {groups : List Group}
    {e : RouteError} (ht : t.entries.entries = before.map Site.entry)
    (h : groups.foldlM (addGroup base) t = .error e) :
    Refusal (before ++ groups.flatMap (groupSites base)) e := by
  induction groups generalizing t before with
  | nil => cases h
  | cons g rest ih =>
    rw [List.flatMap_cons, ← List.append_assoc]
    rw [List.foldlM_cons, bind_eq_error_iff] at h
    rcases h with hg | ⟨next, hg, hrest⟩
    · exact (refusal_of_addGroup ht hg).mono (List.sublist_append_left _ _)
    · refine ih ?_ hrest
      rw [(entries_of_addGroup hg).1, ht, List.map_append]

/-- **A file without a table is refused for one of its sites.** -/
theorem refusal_of_toTable {e : RouteError} (h : c.toTable = .error e) : Refusal c.sites e := by
  rw [toTable, bind_eq_error_iff] at h
  rcases h with htop | ⟨top, htop, hgroups⟩
  · exact (refusal_of_addRoutes htop).mono (List.sublist_append_left _ _)
  · exact refusal_of_foldlM_addGroup (entries_of_addRoutes htop).1 hgroups

/-- **A file has a table exactly when all its keys can be read and no two resolve alike.** -/
theorem exists_toTable_iff :
    (∃ t, c.toTable = .ok t) ↔
      (∀ s ∈ c.sites, ∃ k, RouteKey.parse s.key = .ok k) ∧
        (c.sites.map fun s => s.entry.1).Nodup := by
  constructor
  · rintro ⟨t, ht⟩
    obtain ⟨hentries, hkeys⟩ := entries_of_toTable ht
    have hnd := t.entries.nodup
    rw [Entries.keys, hentries, List.map_map] at hnd
    exact ⟨hkeys, hnd⟩
  · rintro ⟨hkeys, hnd⟩
    cases ht : c.toTable with
    | ok t => exact ⟨t, rfl⟩
    | error e =>
      have hpairwise : c.sites.Pairwise fun s s' => s.entry.1 ≠ s'.entry.1 :=
        List.pairwise_map.1 hnd
      have hdistinct : ∀ s s', [s, s'].Sublist c.sites → s.entry.1 ≠ s'.entry.1 :=
        fun s s' hpair => by simpa using hpairwise.sublist hpair
      cases refusal_of_toTable ht with
      | unreadable hs herr =>
        obtain ⟨k, hk⟩ := hkeys _ hs
        rw [hk] at herr
        cases herr
      | below hpair _ _ hentry => exact absurd hentry (hdistinct _ _ hpair)
      | across hpair _ hentry => exact absurd hentry (hdistinct _ _ hpair)

/-! ## Checking a table -/

theorem keys_of_toTable (ht : c.toTable = .ok t) : t.keys = c.sites.map fun s => s.entry.1 := by
  rw [Table.keys, OrderedMap.keys, Entries.keys, (entries_of_toTable ht).1, List.map_map]
  rfl

/-- **A check of the table stops** at a resolved key that cannot be read, or at a pair of method and
normalized path that is taken twice. -/
theorem claimedTwice_of_check (ht : c.toTable = .ok t) {e : RouteError} (h : t.check = .error e) :
    (∃ s ∈ c.sites, RouteKey.parse s.entry.1 = .error e) ∨
      ∃ M P, c.ClaimedTwice M P ∧ e = .duplicateRoute M P := by
  rw [Table.check, check, keys_of_toTable ht] at h
  rcases of_checkFrom_eq_error h with
    ⟨key, hmem, herr⟩ | ⟨before, key, after, j', ⟨M, P⟩, hsplit, hj', htaken, rfl⟩
  · obtain ⟨s, hs, rfl⟩ := List.mem_map.1 hmem
    exact Or.inl ⟨s, hs, Registration.parse_of_ofKey_eq_error herr⟩
  · refine Or.inr ⟨M, P, ?_, rfl⟩
    obtain ⟨front, back, hsites, rfl, hback⟩ := List.map_eq_append_iff.1 hsplit
    obtain ⟨s', rest, rfl, rfl, -⟩ := List.map_eq_cons_iff.1 hback
    have hi' : c.sites[front.length]? = some s' := by rw [hsites]; simp
    have hs' : s'.Claims j' M P := Site.claims_iff.2 hj'
    rcases htaken.resolve_left List.not_mem_nil with hfront | hpre
    · obtain ⟨key, hkey, hmem⟩ := List.mem_flatMap.1 hfront
      obtain ⟨s, hs, rfl⟩ := List.mem_map.1 hkey
      obtain ⟨i, hi⟩ := List.mem_iff_getElem?.1 hs
      obtain ⟨j, hj⟩ := List.mem_iff_getElem?.1 hmem
      have hlt := (List.getElem?_eq_some_iff.1 hi).1
      refine ⟨i, front.length, j, j', s, s', fun heq => ?_, ?_, hi', Site.claims_iff.2 hj, hs'⟩
      · exact absurd (Prod.mk.inj heq).1 (Nat.ne_of_lt hlt)
      · rw [hsites, List.getElem?_append_left hlt, hi]
    · obtain ⟨j, hlt, hj⟩ := mem_take_iff_getElem?.1 hpre
      refine ⟨front.length, front.length, j, j', s', s', fun heq => ?_, hi', hi',
        Site.claims_iff.2 hj, hs'⟩
      exact absurd (Prod.mk.inj heq).2 (Nat.ne_of_lt hlt)

/-- **A check that succeeds** has read every resolved key, and no pair of method and normalized path
is taken twice. -/
theorem not_claimedTwice_of_check (ht : c.toTable = .ok t) (h : t.check = .ok ()) :
    (∀ s ∈ c.sites, ∃ k, RouteKey.parse s.resolvedKey = .ok k) ∧
      ∀ M P, ¬c.ClaimedTwice M P := by
  rw [Table.check, check, keys_of_toTable ht] at h
  obtain ⟨hread, hnd, -⟩ := of_checkFrom_eq_ok h
  constructor
  · intro s hs
    obtain ⟨r, hr⟩ := hread s.entry.1 (List.mem_map_of_mem hs)
    cases hk : RouteKey.parse s.entry.1 with
    | ok k => exact ⟨k, RouteKey.parse_normalize_eq_ok_iff.1 hk⟩
    | error e =>
      rw [Registration.ofKey, hk] at hr
      cases hr
  · rintro M P ⟨i, i', j, j', s, s', hne, hi, hi', hs, hs'⟩
    rw [List.flatMap_map] at hnd
    obtain ⟨rfl, rfl⟩ := index_eq_of_nodup_flatMap hnd hi hi' (Site.claims_iff.1 hs)
      (Site.claims_iff.1 hs')
    exact hne rfl

/-! ## Conflicts -/

/-- A conflict is what keeps the file from having a table, or what a check of the table stops at. -/
theorem conflict?_eq_some_iff {e : RouteError} :
    c.conflict? = some e ↔ c.toTable = .error e ∨ ∃ t, c.toTable = .ok t ∧ t.check = .error e := by
  rw [conflict?]
  cases ht : c.toTable with
  | error e' => simp
  | ok t =>
    cases hc : t.check with
    | error e' => simp [hc]
    | ok u => simp [hc]

/-- The clash at a key that can be read is reported as a duplicate: with the methods of the key in
one text and its path, or with empty texts for the fallback key. -/
theorem clash_of_parse {key : String} {k : RouteKey} (h : RouteKey.parse key = .ok k) :
    (k = .fallback ∧ clash key = .duplicateRoute "" "") ∨
      ∃ methods path, k = .route methods path ∧
        clash key = .duplicateRoute (Text.uppercase (RouteKey.joinMethods methods)) path := by
  cases k with
  | fallback =>
    rw [RouteKey.parse_eq_fallback_iff.1 h]
    exact Or.inl ⟨rfl, by decide⟩
  | route methods path => exact Or.inr ⟨methods, path, rfl, by rw [clash, h]⟩

end RouteTrie.Config
