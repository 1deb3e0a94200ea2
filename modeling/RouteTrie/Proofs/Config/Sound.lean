import RouteTrie.Proofs.Config.Clash
import RouteTrie.Proofs.Config.Compile
import RouteTrie.Proofs.Config.Faults

/-!
# Validation accepts exactly the sound files

A route file is sound if every resolved key can be read and no two methods of its routes take the
same pair of method and normalized path.  This says nothing of tables.  Validation looks for clashes
in the keys as a table stores them, in a table that is put together group by group, and in the check
of that table; all in all it finds every clash and nothing else.

## What is here

* `Config.Sound`: soundness.
* `Config.conflict?_eq_none_iff_sound`: the search for a conflict finds one unless the file is
  sound.
* `Config.validate_eq`: the outcome of validation for every file.
-/

set_option autoImplicit false

namespace RouteTrie.Config

variable {c : Config}

/-- Every resolved key can be read, and no two methods of the sites take the same pair of method
and normalized path. -/
def Sound (c : Config) : Prop :=
  (∀ s ∈ c.sites, ∃ k, RouteKey.parse s.resolvedKey = .ok k) ∧ ∀ M P, ¬c.ClaimedTwice M P

/-- A site whose resolved key can be read takes something. -/
theorem Site.exists_claims {s : Site} {k : RouteKey} (h : RouteKey.parse s.resolvedKey = .ok k) :
    ∃ M P, s.Claims 0 M P := by
  cases k with
  | fallback => exact ⟨"", "", Or.inr ⟨h, rfl, rfl, rfl⟩⟩
  | route methods q =>
    obtain ⟨path, hpath⟩ := Path.parse_eq_ok (RouteKey.head?_of_parse h)
    obtain ⟨m, ms, rfl⟩ := List.exists_cons_of_ne_nil (RouteKey.methods_ne_nil_of_parse h)
    exact ⟨Text.uppercase m, path.pattern,
      Or.inl ⟨m :: ms, q, path, m, h, hpath, rfl, rfl, rfl⟩⟩

/-- The resolved keys of a sound file are stored as different keys. -/
theorem Sound.nodup (h : c.Sound) : (c.sites.map fun s => s.entry.1).Nodup := by
  refine List.pairwise_map.2 (List.pairwise_iff_forall_sublist.2 fun {s s'} hpair hentry => ?_)
  obtain ⟨k, hk⟩ := h.1 s' (hpair.subset (by simp))
  obtain ⟨M, P, hclaims⟩ := Site.exists_claims hk
  exact h.2 M P (.of_pair hpair hentry hclaims)

/-- **The search for a conflict** in a file whose keys can be read finds none exactly when the file
is sound. -/
theorem conflict?_eq_none_iff_sound (hkeys : ∀ s ∈ c.sites, ∃ k, RouteKey.parse s.key = .ok k) :
    c.conflict? = none ↔ c.Sound := by
  rw [conflict?_eq_none_iff]
  constructor
  · rintro ⟨t, ht, hcheck⟩
    exact not_claimedTwice_of_check ht hcheck
  · intro hsound
    obtain ⟨t, ht⟩ := exists_toTable_iff.2 ⟨hkeys, hsound.nodup⟩
    refine ⟨t, ht, ?_⟩
    cases hcheck : t.check with
    | ok u => rfl
    | error e =>
      rcases claimedTwice_of_check ht hcheck with ⟨s, hs, herr⟩ | ⟨M, P, htwice, -⟩
      · obtain ⟨k, hk⟩ := hsound.1 s hs
        rw [Site.entry, RouteKey.parse_normalize_eq_ok_iff.2 hk] at herr
        cases herr
      · exact absurd htwice (hsound.2 M P)

/-- **The outcome of validation.**  The problems of single base paths and keys are reported
together.  If there are none, the file is accepted exactly when it is sound, and otherwise one
conflict is reported. -/
theorem validate_eq (c : Config) :
    (c.faults ≠ [] → c.validate = .error c.faults) ∧
      (c.faults = [] →
        (c.validate = .ok () ↔ c.Sound) ∧ (¬c.Sound → ∃ e, c.validate = .error [.conflict e])) := by
  constructor
  · intro hfaults
    have hlocal : ¬c.localProblems.isEmpty = true := by
      rwa [List.isEmpty_iff, localProblems_eq_faults]
    rw [validate, problems, if_neg hlocal, if_neg hlocal, localProblems_eq_faults]
  · intro hfaults
    have hlocal : c.localProblems = [] := (localProblems_eq_faults c).trans hfaults
    have hsound := conflict?_eq_none_iff_sound (Faultless.of_faults hfaults).keys
    constructor
    · rw [validate_eq_ok_iff, problems_eq_nil_iff, hsound]
      exact and_iff_right hlocal
    · intro hnot
      obtain ⟨e, he⟩ := Option.ne_none_iff_exists'.1 fun hnone => hnot (hsound.1 hnone)
      refine ⟨e, ?_⟩
      rw [validate, problems, hlocal, he]
      rfl

/-- Two spellings of one variable and two cases of one method meet across the base path of a
group. -/
theorem validate_eq_users :
    ∃ e, validate ⟨"/api", OrderedMap.ofList [("GET /users/{id}", .str "show")],
      [⟨"/users", OrderedMap.ofList [("post|get /:uid", .str "edit")]⟩]⟩ =
        .error [.conflict e] := by
  refine ((validate_eq _).2 rfl).2 fun hsound => hsound.2 "GET" "/api/users/*" ?_
  refine ⟨0, 1, 0, 1, ⟨"/api", "GET /users/{id}", .str "show"⟩,
    ⟨"/api/users", "post|get /:uid", .str "edit"⟩, by decide, rfl, rfl, Or.inl ?_, Or.inl ?_⟩
  · exact ⟨["GET"], "/api/users/{id}", _, "GET", rfl, rfl, rfl, by decide, rfl⟩
  · exact ⟨["post", "get"], "/api/users/:uid", _, "get", rfl, rfl, rfl, by decide, rfl⟩

end RouteTrie.Config
