import RouteTrie.Proofs.Build.Count
import RouteTrie.Proofs.Build.Equality
import RouteTrie.Proofs.Endpoint.Groups
import RouteTrie.Proofs.Json.Equality
import RouteTrie.Proofs.Matching
import RouteTrie.Proofs.Path.Template
import RouteTrie.Report

/-!
# A trie can be rebuilt from its summary

A summary lists the groups of all endpoints.  Each of its lines is turned into an entry again: the
methods of the group and the template of the path make the key, and the handler is that of the
group.  These entries can be built, whatever the groups are, and they lead to an equal trie.

## What is here

* `Summary.entry`: the entry that a line of a summary stands for.
* `Summary.claims`, `nodup_claims_summarize`: the pairs of method and path in a summary are
  different.
* `Summary.Restores`, `exists_restores`: the entry of a line registers what the line tells.
* `exists_build_restored`, `beq_of_build_restored`: entries that restore a summary can be built, and
  lead to an equal trie.
* `summarize_rebuilds`: a summary leads back to its trie.
-/

set_option autoImplicit false

namespace RouteTrie

variable {H : Type}

/-! ## Lines of a summary as entries -/

namespace Summary

/-- The key under which the methods of a line are registered again: the template of the path with
the variables of the line, or the fallback key if there are no methods. -/
def key (s : Summary H) : Except RouteError String :=
  if s.methods = [] then .ok fallbackKey
  else
    (Path.parse s.path).map fun p =>
      RouteKey.render s.methods (Path.template ⟨p.segments, s.route.vars⟩)

/-- The entry that a line stands for. -/
def entry (s : Summary H) : Except RouteError (String × H) :=
  s.key.map fun key => (key, s.route.handler)

/-- The pairs of method and path that a line stands for. -/
def claims (s : Summary H) : List (String × String) :=
  (if s.methods = [] then [fallbackMethod] else s.methods).map fun M => (M, s.path)

/-- An entry is that of a line, and registers what the line tells. -/
structure Restores [BEq H] (s : Summary H) (entry : String × H) : Prop where
  /-- It is the entry of the line. -/
  entry_eq : s.entry = .ok entry
  /-- Its handler is the one of the line. -/
  handler_eq : entry.2 = s.route.handler
  /-- Its key can be read, takes the pairs of the line and has equal variables. -/
  registers : ∃ r, Registration.ofKey entry.1 = .ok r ∧ r.claims = s.claims ∧
    (r.vars == s.route.vars) = true

end Summary

/-- The line of a group. -/
def Endpoint.summary (e : Endpoint H) (g : RouteGroup H) : Summary H :=
  ⟨e.path, g.methods.filter fun m => m ≠ fallbackMethod, g.route⟩

variable [BEq H] {entries : List (String × H)} {root : Node H}

theorem mem_summarize (h : build entries = .ok root) {s : Summary H} :
    s ∈ summarize root ↔
      ∃ p e, root.at? p = some e ∧ ∃ g ∈ Endpoint.group e.routes.entries, s = e.summary g := by
  rw [summarize, List.mem_flatMap]
  constructor
  · rintro ⟨e, he, hs⟩
    obtain ⟨p, hp⟩ := (trim_of_build h).mem_endpoints_iff.1 he
    obtain ⟨g, hg, rfl⟩ := List.mem_map.1 hs
    exact ⟨p, e, hp, g, hg, rfl⟩
  · rintro ⟨p, e, hp, g, hg, rfl⟩
    exact ⟨e, (trim_of_build h).mem_endpoints_iff.2 ⟨p, hp⟩, List.mem_map_of_mem hg⟩

/-! ## The group of a path and the group of the fallback -/

/-- The only group of a fallback. -/
theorem eq_of_mem_group_fallback (h : build entries = .ok root) {s : List Segment} {e : Endpoint H}
    (he : root.at? (.fallback s) = some e) {g : RouteGroup H}
    (hg : g ∈ Endpoint.group e.routes.entries) :
    s = [] ∧ ∃ handler, g = ⟨[fallbackMethod], ⟨handler, ∅⟩⟩ := by
  have hroot := Node.Holds.of_build h
  obtain rfl : s = [] := readable_of_at? h he
  obtain ⟨handler, hmem⟩ := hroot.fallback?_isSome_iff.1 (Option.isSome_iff_exists.2 ⟨e, he⟩)
  obtain ⟨e', he', hentries⟩ := hroot.fallback?_of_mem hmem
  rw [show root.fallback? = some e from he] at he'
  cases he'
  rw [hentries, Endpoint.group, Endpoint.differing, List.filter_nil, Endpoint.group,
    List.mem_singleton] at hg
  exact ⟨rfl, handler, hg⟩

/-- The variables of a group are those of a path that leads to the endpoint. -/
theorem exists_path_of_mem_group [EquivBEq H] (h : build entries = .ok root) {s : List Segment}
    {e : Endpoint H} (he : root.at? (.path s) = some e) {g : RouteGroup H}
    (hg : g ∈ Endpoint.group e.routes.entries) :
    ∃ key methods written, RouteKey.parse key = .ok (.route methods written) ∧
      Path.parse written = .ok ⟨s, g.route.vars⟩ := by
  obtain ⟨-, M, hM⟩ := Endpoint.methods_of_mem_group hg
  rw [(Node.Holds.of_build h).routes_eq _ e he, mem_routesAt, mem_bindings] at hM
  obtain ⟨entry, -, hb⟩ := hM
  obtain ⟨methods, written, path, hkey, hpath, rfl, -, hroute⟩ := mem_entryBindings_path.1 hb
  refine ⟨entry.1, methods, written, hkey, ?_⟩
  rw [hroute]
  exact hpath

theorem mem_methods_of_mem_group {e : Endpoint H} {g : RouteGroup H}
    (hg : g ∈ Endpoint.group e.routes.entries) {M : String} (hM : M ∈ g.methods) :
    M ∈ e.methods :=
  (Endpoint.perm_flatMap_group _).mem_iff.1 (List.mem_flatMap.2 ⟨g, hg, hM⟩)

theorem methods_summary_path (h : build entries = .ok root) {s : List Segment} {e : Endpoint H}
    (he : root.at? (.path s) = some e) {g : RouteGroup H}
    (hg : g ∈ Endpoint.group e.routes.entries) : (e.summary g).methods = g.methods := by
  refine List.filter_eq_self.2 fun M hM => decide_eq_true ?_
  rintro rfl
  exact fallbackMethod_not_mem h he (mem_methods_of_mem_group hg hM)

/-! ## Claims -/

variable [EquivBEq H]

theorem claims_summary (h : build entries = .ok root) {p : Place} {e : Endpoint H}
    (he : root.at? p = some e) {g : RouteGroup H} (hg : g ∈ Endpoint.group e.routes.entries) :
    (e.summary g).claims = g.methods.map fun M => (M, e.path) := by
  cases p with
  | path s =>
    have hmethods := methods_summary_path h he hg
    have hne : (e.summary g).methods ≠ [] := hmethods ▸ Endpoint.methods_ne_nil_of_mem_group hg
    rw [Summary.claims, if_neg hne, hmethods]
    rfl
  | fallback s =>
    obtain ⟨-, handler, rfl⟩ := eq_of_mem_group_fallback h he hg
    rfl

/-- A summary stands for the methods of all endpoints. -/
theorem perm_claims_summarize (h : build entries = .ok root) :
    ((summarize root).flatMap Summary.claims).Perm root.claims := by
  rw [summarize, List.flatMap_assoc]
  refine List.Perm.flatMap_left _ fun e he => ?_
  obtain ⟨p, hp⟩ := (trim_of_build h).mem_endpoints_iff.1 he
  have hgroups : e.summaries.flatMap Summary.claims =
      ((Endpoint.group e.routes.entries).flatMap RouteGroup.methods).map fun M => (M, e.path) := by
    rw [Endpoint.summaries, Endpoint.uniqueRoutes, List.flatMap_map, List.map_flatMap,
      List.flatMap_def, List.flatMap_def]
    exact congrArg List.flatten (List.map_congr_left fun g hg => claims_summary h hp hg)
  rw [hgroups]
  exact (Endpoint.perm_flatMap_group _).map _

/-- **The pairs of method and path in a summary are different.** -/
theorem nodup_claims_summarize (h : build entries = .ok root) :
    ((summarize root).flatMap Summary.claims).Nodup :=
  (perm_claims_summarize h).nodup_iff.2 (nodup_claims_of_build h)

/-! ## Entries that restore a summary -/

/-- **The entry of a line registers what the line tells.** -/
theorem exists_restores (h : build entries = .ok root) {s : Summary H} (hs : s ∈ summarize root) :
    ∃ entry, s.Restores entry := by
  obtain ⟨p, e, he, g, hg, rfl⟩ := (mem_summarize h).1 hs
  cases p with
  | fallback segments =>
    obtain ⟨-, handler, rfl⟩ := eq_of_mem_group_fallback h he hg
    have hpath : e.path = "" := (Node.Holds.of_build h).path_eq _ e he
    refine ⟨(fallbackKey, handler), rfl, rfl, .fallback, Registration.ofKey_eq_fallback_iff.2 rfl,
      ?_, OrderedMap.beq_self ∅⟩
    rw [claims_summary h he hg, hpath]
    rfl
  | path segments =>
    obtain ⟨key, methods, written, hkey, hwritten⟩ := exists_path_of_mem_group h he hg
    have hp := Path.wellFormed_of_parse hwritten
    obtain ⟨q, hq, hsegments, hvars⟩ := Path.parse_template hp
    have hpath : e.path = Path.pattern ⟨segments, g.route.vars⟩ :=
      (Node.Holds.of_build h).path_eq _ e he
    have hread : Path.parse e.path = .ok ⟨segments, ∅⟩ := by
      rw [hpath, Path.parse_pattern hwritten]
    have hmethods := methods_summary_path h he hg
    have hne := Endpoint.methods_ne_nil_of_mem_group hg
    have hmem : ∀ M ∈ g.methods, M ∈ e.methods := fun M => mem_methods_of_mem_group hg
    have hrender := RouteKey.parse_render_eq_ok hne
      (fun M hM => isMethodWord_of_build h he M (hmem M hM)) (Path.head?_template _)
      (hp.not_isBlank_template fun text ht =>
        (RouteKey.literalText_of_parse hkey hwritten ht).not_blank)
    refine ⟨(RouteKey.render g.methods (Path.template ⟨segments, g.route.vars⟩), g.route.handler),
      ?_, rfl, .route g.methods _ q, Registration.ofKey_eq_route_iff.2 ⟨hrender, hq⟩, ?_, hvars⟩
    · rw [Summary.entry, Summary.key, hmethods, if_neg hne]
      rw [show (e.summary g).path = e.path from rfl, hread]
      rfl
    · rw [claims_summary h he hg, Registration.claims, Path.pattern, hsegments, hpath]
      refine List.map_congr_left fun M hM => ?_
      rw [(sound_of_build h he).uppercase M (hmem M hM)]
      rfl

/-- Where every element leads to a result, a list leads to the list of the results. -/
theorem exists_mapM_eq_ok {ε α β : Type} {f : α → Except ε β} {r : α → β → Prop} {l : List α}
    (hl : ∀ a ∈ l, ∃ b, r a b) (hf : ∀ a b, r a b → f a = .ok b) :
    ∃ bs, l.mapM f = .ok bs ∧ List.Forall₂ r l bs := by
  induction l with
  | nil => exact ⟨[], rfl, .nil⟩
  | cons a l ih =>
    obtain ⟨b, hb⟩ := hl a List.mem_cons_self
    obtain ⟨bs, hbs, hall⟩ := ih fun x hx => hl x (List.mem_cons_of_mem a hx)
    refine ⟨b :: bs, ?_, .cons hb hall⟩
    rw [List.mapM_cons, hf a b hb, hbs]
    rfl

section Restored

variable {restored : List (String × H)}

omit [EquivBEq H] in
/-- The slots that the entries take are named by the lines. -/
theorem map_claim_bindings {lines : List (Summary H)}
    (h : List.Forall₂ Summary.Restores lines restored) :
    (Entries.keys (bindings restored)).map Slot.claim = lines.flatMap Summary.claims := by
  induction h with
  | nil => rfl
  | @cons s entry lines restored hs _ ih =>
    obtain ⟨r, hr, hclaims, -⟩ := hs.registers
    rw [bindings, List.flatMap_cons, Entries.keys_append, List.map_append, List.flatMap_cons,
      ← hclaims, entryBindings_of_ofKey hr, Registration.keys_bindings, Registration.claims_eq]
    exact congrArg _ ih

/-- Entries that restore a summary can be built. -/
theorem exists_build_restored (h : build entries = .ok root)
    (hall : List.Forall₂ Summary.Restores (summarize root) restored) :
    ∃ root', build restored = .ok root' := by
  refine exists_build_iff.2 ⟨fun entry hmem => ?_, ?_⟩
  · obtain ⟨s, -, hs⟩ := (exists_of_forall₂ hall).2 entry hmem
    obtain ⟨r, hr, -⟩ := hs.registers
    exact ⟨r, hr⟩
  · refine List.Nodup.of_map Slot.claim ?_
    rw [map_claim_bindings hall]
    exact nodup_claims_summarize h

/-- A slot is taken by the entry that restores the group of its method. -/
theorem mem_bindings_restored (h : build entries = .ok root)
    (hall : List.Forall₂ Summary.Restores (summarize root) restored) {s : Slot} {r : Route H}
    (hs : root.route? s = some r) : ∃ r', (s, r') ∈ bindings restored := by
  obtain ⟨e, he, hget⟩ := Option.bind_eq_some_iff.1 hs
  obtain ⟨g, hg, hM⟩ := Endpoint.exists_mem_group (OrderedMap.get?_eq_some_iff_mem.1 hget)
  obtain ⟨entry, hentry, hrestores⟩ :=
    (exists_of_forall₂ hall).1 _ ((mem_summarize h).2 ⟨s.place, e, he, g, hg, rfl⟩)
  obtain ⟨k, hk, hclaims, -⟩ := hrestores.registers
  have hpath : e.path = s.place.text := (Node.Holds.of_build h).path_eq _ e he
  have hclaim : s.claim ∈ k.slots.map Slot.claim := by
    rw [← Registration.claims_eq, hclaims, claims_summary h he hg, hpath]
    exact List.mem_map_of_mem hM
  obtain ⟨t, ht, hts⟩ := List.mem_map.1 hclaim
  have hplace : t.place.Readable := by
    rw [Registration.place_of_mem_slots ht]
    exact (Registration.readable_of_ofKey hk).place
  rw [Slot.claim_inj hplace (readable_of_at? h he) hts] at ht
  exact ⟨_, mem_bindings.2 ⟨entry, hentry, mem_entryBindings_iff.2 ⟨k, hk, ht, rfl⟩⟩⟩

/-- An entry that restores a group takes slots of the trie, with equal routes. -/
theorem route?_of_mem_bindings_restored (h : build entries = .ok root)
    (hall : List.Forall₂ Summary.Restores (summarize root) restored) {s : Slot} {r' : Route H}
    (hs : (s, r') ∈ bindings restored) : ∃ r, root.route? s = some r ∧ (r' == r) = true := by
  obtain ⟨entry, hentry, hb⟩ := mem_bindings.1 hs
  obtain ⟨line, hline, hrestores⟩ := (exists_of_forall₂ hall).2 entry hentry
  obtain ⟨k, hk, hslot, rfl⟩ := mem_entryBindings_iff.1 hb
  obtain ⟨k', hk', hclaims, hvars⟩ := hrestores.registers
  rw [hk] at hk'
  cases hk'
  obtain ⟨p, e, he, g, hg, rfl⟩ := (mem_summarize h).1 hline
  have hclaim : s.claim ∈ g.methods.map fun M => (M, e.path) := by
    rw [← claims_summary h he hg, ← hclaims, Registration.claims_eq]
    exact List.mem_map_of_mem hslot
  obtain ⟨M, hM, heq⟩ := List.mem_map.1 hclaim
  obtain ⟨rfl, htext⟩ := Prod.mk.inj heq
  have hplace : s.place.Readable := by
    rw [Registration.place_of_mem_slots hslot]
    exact (Registration.readable_of_ofKey hk).place
  rw [(Node.Holds.of_build h).path_eq p e he] at htext
  obtain rfl := Place.text_inj (readable_of_at? h he) hplace htext
  obtain ⟨r, hr, hrg⟩ := Endpoint.exists_mem_of_mem_group hg hM
  refine ⟨r, ?_, BEq.trans (Bool.and_eq_true_iff.2 ⟨?_, hvars⟩) (BEq.symm hrg)⟩
  · rw [Node.route?, he]
    exact OrderedMap.get?_eq_some_iff_mem.2 hr
  · rw [hrestores.handler_eq]
    exact BEq.rfl

/-- **Entries that restore a summary lead to an equal trie.** -/
theorem beq_of_build_restored (h : build entries = .ok root)
    (hall : List.Forall₂ Summary.Restores (summarize root) restored) {root' : Node H}
    (h' : build restored = .ok root') : (root' == root) = true := by
  have hroot' := Node.Holds.of_build h'
  rw [hroot'.beq_iff_route? (.of_build h) (trim_of_build h') (trim_of_build h)]
  refine fun s => rel_of_some_iff (fun r' hr' => ?_) fun r hr => ?_
  · exact route?_of_mem_bindings_restored h hall (hroot'.route?_eq_some_iff.1 hr')
  · obtain ⟨r', hr'⟩ := mem_bindings_restored h hall hr
    exact ⟨r', hroot'.route?_eq_some_iff.2 hr'⟩

end Restored

/-- **A summary leads back to its trie.**  Every line of the summary of a trie that was built is the
line of an entry again, and these entries can be built and lead to an equal trie. -/
theorem summarize_rebuilds {entries : List (String × Json)} {root : Node Json}
    (h : build entries = .ok root) :
    ∃ restored root', (summarize root).mapM Summary.entry = .ok restored ∧
      build restored = .ok root' ∧ (root' == root) = true := by
  obtain ⟨restored, hmapM, hall⟩ :=
    exists_mapM_eq_ok (fun _ hs => exists_restores h hs) fun _ _ hs => hs.entry_eq
  obtain ⟨root', h'⟩ := exists_build_restored h hall
  exact ⟨restored, root', hmapM, h', beq_of_build_restored h hall h'⟩

/-- A repeated name, a second group on one path, and the fallback. -/
theorem summarize_rebuilds_users :
    ∃ root restored root',
      build [("GET|head /u/:id/{id}", Json.null), ("default", .null), ("put /u/*/*", .null)] =
        .ok root ∧
      (summarize root).mapM Summary.entry = .ok restored ∧ build restored = .ok root' ∧
      (root' == root) = true := by
  obtain ⟨root, h⟩ : ∃ root, build [("GET|head /u/:id/{id}", Json.null), ("default", .null),
      ("put /u/*/*", .null)] = .ok root := ⟨_, rfl⟩
  obtain ⟨restored, root', hrest⟩ := summarize_rebuilds h
  exact ⟨root, restored, root', h, hrest⟩

end RouteTrie
