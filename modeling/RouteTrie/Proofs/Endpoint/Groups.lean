import Mathlib.Data.List.Perm.Basic
import RouteTrie.Endpoint
import RouteTrie.Proofs.Equivalence
import RouteTrie.Proofs.Matching

/-!
# The groups of an endpoint

Methods are grouped by the first route that is left, which takes all that share it out of the rest.
If equality of handlers is an equivalence, a group does not depend on what was taken out before it:
it consists of all methods of the endpoint that share its route.

## What is here

* `Endpoint.perm_flatMap_group`: every method is in one group.
* `Endpoint.methods_of_mem_group`: the methods of a group are those that share its route.
* `Endpoint.exists_mem_group`: the group of a method.
* `RouteGroup.Alike`, `Endpoint.matched_uniqueRoutes`: equal endpoints have the same groups, in some
  order and with the methods in some order.
-/

set_option autoImplicit false

namespace RouteTrie

variable {H : Type} [BEq H]

/-- Equality of routes is an equivalence if equality of handlers is. -/
instance Route.instEquivBEq [EquivBEq H] : EquivBEq (Route H) where
  rfl := Bool.and_eq_true_iff.2 ⟨BEq.rfl, BEq.rfl⟩
  symm h := by
    obtain ⟨hh, hv⟩ := Bool.and_eq_true_iff.1 h
    exact Bool.and_eq_true_iff.2 ⟨BEq.symm hh, BEq.symm hv⟩
  trans h h' := by
    obtain ⟨hh, hv⟩ := Bool.and_eq_true_iff.1 h
    obtain ⟨hh', hv'⟩ := Bool.and_eq_true_iff.1 h'
    exact Bool.and_eq_true_iff.2 ⟨BEq.trans hh hh', BEq.trans hv hv'⟩

namespace Endpoint

theorem mem_sharing {r : Route H} {l : List (String × Route H)} {p : String × Route H} :
    p ∈ sharing r l ↔ p ∈ l ∧ (p.2 == r) = true :=
  List.mem_filter

theorem mem_differing {r : Route H} {l : List (String × Route H)} {p : String × Route H} :
    p ∈ differing r l ↔ p ∈ l ∧ (p.2 == r) = false := by
  rw [differing, List.mem_filter, Bool.not_eq_true']

/-- **The groups contain every method once.** -/
theorem perm_flatMap_group (l : List (String × Route H)) :
    ((group l).flatMap RouteGroup.methods).Perm (l.map Prod.fst) := by
  fun_induction group l with
  | case1 => exact .refl _
  | case2 m r rest ih =>
    have hsplit : (sharing r rest ++ differing r rest).Perm rest :=
      List.filter_append_perm (fun p : String × Route H => p.2 == r) rest
    rw [List.flatMap_cons, List.map_cons, List.cons_append, List.perm_cons]
    refine (List.Perm.append_left _ ih).trans ?_
    rw [← List.map_append]
    exact hsplit.map Prod.fst

variable [EquivBEq H]

/-- What was taken out for another route has no part in a group. -/
theorem sharing_differing {r s : Route H} (h : (s == r) = false) (l : List (String × Route H)) :
    sharing s (differing r l) = sharing s l := by
  rw [sharing, differing, List.filter_filter, sharing]
  refine List.filter_congr fun p _ => ?_
  cases hs : p.2 == s with
  | false => rfl
  | true => rw [BEq.congr_left hs, h]; rfl

/-- **The methods of a group** are those that share its route, which is the route of one of them. -/
theorem methods_of_mem_group {l : List (String × Route H)} {g : RouteGroup H} (hg : g ∈ group l) :
    g.methods = (sharing g.route l).map Prod.fst ∧ ∃ m, (m, g.route) ∈ l := by
  fun_induction group l with
  | case1 => cases hg
  | case2 m r rest ih =>
    rcases List.mem_cons.1 hg with rfl | hg
    · have hself : sharing r ((m, r) :: rest) = (m, r) :: sharing r rest :=
        List.filter_cons_of_pos BEq.rfl
      exact ⟨by rw [hself, List.map_cons], m, List.mem_cons_self⟩
    · obtain ⟨hmethods, n, hn⟩ := ih hg
      obtain ⟨hn, hne⟩ := mem_differing.1 hn
      refine ⟨?_, n, List.mem_cons_of_mem _ hn⟩
      have hfirst : sharing g.route ((m, r) :: rest) = sharing g.route rest :=
        List.filter_cons_of_neg (by rw [BEq.comm, hne]; exact Bool.false_ne_true)
      rw [hmethods, hfirst, sharing_differing hne]

/-- A method of a group has its route, up to equality. -/
theorem exists_mem_of_mem_group {l : List (String × Route H)} {g : RouteGroup H}
    (hg : g ∈ group l) {m : String} (hm : m ∈ g.methods) :
    ∃ r, (m, r) ∈ l ∧ (r == g.route) = true := by
  rw [(methods_of_mem_group hg).1] at hm
  obtain ⟨⟨n, r⟩, hr, rfl⟩ := List.mem_map.1 hm
  exact ⟨r, mem_sharing.1 hr⟩

theorem methods_ne_nil_of_mem_group {l : List (String × Route H)} {g : RouteGroup H}
    (hg : g ∈ group l) : g.methods ≠ [] := by
  obtain ⟨hmethods, m, hm⟩ := methods_of_mem_group hg
  have hmem : m ∈ g.methods := by
    rw [hmethods]
    exact List.mem_map.2 ⟨(m, g.route), mem_sharing.2 ⟨hm, BEq.rfl⟩, rfl⟩
  exact List.ne_nil_of_mem hmem

omit [EquivBEq H] in
/-- Every method has a group. -/
theorem exists_mem_group {l : List (String × Route H)} {m : String} {r : Route H}
    (h : (m, r) ∈ l) : ∃ g ∈ group l, m ∈ g.methods := by
  have hmem := (perm_flatMap_group l).mem_iff.2 (List.mem_map_of_mem (f := Prod.fst) h)
  exact List.mem_flatMap.1 hmem

/-- No two groups have equal routes. -/
theorem pairwise_group (l : List (String × Route H)) :
    (group l).Pairwise fun g g' => ¬(g.route == g'.route) = true := by
  fun_induction group l with
  | case1 => exact .nil
  | case2 m r rest ih =>
    refine List.pairwise_cons.2 ⟨fun g hg heq => ?_, ih⟩
    obtain ⟨-, n, hn⟩ := methods_of_mem_group hg
    rw [BEq.comm, (mem_differing.1 hn).2] at heq
    cases heq

/-- Every route has a group. -/
theorem exists_route_mem_group {l : List (String × Route H)} {m : String} {r : Route H}
    (h : (m, r) ∈ l) : ∃ g ∈ group l, (r == g.route) = true := by
  fun_induction group l with
  | case1 => cases h
  | case2 n s rest ih =>
    cases hrs : r == s with
    | true => exact ⟨_, List.mem_cons_self, hrs⟩
    | false =>
      have hmem : (m, r) ∈ rest := by
        rcases List.mem_cons.1 h with heq | hmem
        · cases heq
          rw [BEq.rfl] at hrs
          cases hrs
        · exact hmem
      obtain ⟨g, hg, hrg⟩ := ih (mem_differing.2 ⟨hmem, hrs⟩)
      exact ⟨g, List.mem_cons_of_mem _ hg, hrg⟩

end Endpoint

/-! ## Groups of equal endpoints -/

/-- Groups with the same methods in some order and with equal routes. -/
structure RouteGroup.Alike (g g' : RouteGroup H) : Prop where
  /-- The methods are the same in some order. -/
  methods : g.methods.Perm g'.methods
  /-- The routes are equal. -/
  route : (g.route == g'.route) = true

namespace Endpoint

variable [EquivBEq H]

/-- Entries that match, method by method, have groups that match.  It does not matter in which order
the entries are grouped. -/
theorem matched_group {l l' : List (String × Route H)}
    (h : Matched (fun p q => p.1 = q.1 ∧ (p.2 == q.2) = true) l l') :
    Matched RouteGroup.Alike (group l) (group l') := by
  refine .of_partners (fun g g' => (g.route == g'.route) = true) (fun _ _ => BEq.symm)
    (fun _ _ _ => BEq.trans) (pairwise_group l) (pairwise_group l')
    (fun g hg => ?_) (fun g' hg' => ?_) fun g hg g' hg' hroute => ⟨?_, hroute⟩
  · obtain ⟨-, m, hm⟩ := methods_of_mem_group hg
    obtain ⟨⟨n, r'⟩, hr', -, hr⟩ := h.exists_right hm
    obtain ⟨g', hg', hrg⟩ := exists_route_mem_group hr'
    exact ⟨g', hg', BEq.trans hr hrg⟩
  · obtain ⟨-, m, hm⟩ := methods_of_mem_group hg'
    obtain ⟨⟨n, r⟩, hr, -, hrr⟩ := h.exists_left hm
    obtain ⟨g, hg, hrg⟩ := exists_route_mem_group hr
    exact ⟨g, hg, BEq.trans (BEq.symm hrg) hrr⟩
  · -- the two groups consist of the methods that share one route, so the entries in them match
    rw [(methods_of_mem_group hg).1, (methods_of_mem_group hg').1]
    refine Matched.perm_map (h.filter fun p q hpq => ?_) fun p q hpq => hpq.1
    rw [BEq.congr_left hpq.2, BEq.congr_right hroute]

omit [EquivBEq H] in
theorem matched_entries {a b : Endpoint H} (h : (a == b) = true) :
    Matched (fun p q => p.1 = q.1 ∧ (p.2 == q.2) = true) a.routes.entries b.routes.entries := by
  refine .of_rearranged (fun p _ q _ hpq => ?_) (Bool.and_eq_true_iff.1 h).2
  rwa [Bool.and_eq_true, decide_eq_true_eq] at hpq

/-- **Equal endpoints have the same groups**, in some order. -/
theorem matched_uniqueRoutes {a b : Endpoint H} (h : (a == b) = true) :
    Matched RouteGroup.Alike a.uniqueRoutes b.uniqueRoutes :=
  matched_group (matched_entries h)

end Endpoint

end RouteTrie
