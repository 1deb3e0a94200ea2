import Mathlib.Data.List.Nodup
import RouteTrie.Proofs.Endpoint.Columns
import RouteTrie.Proofs.Endpoint.Groups
import RouteTrie.Proofs.Json.Equality

/-!
# Grouping partitions the methods

Grouping can be done by names alone, with a queue of methods of which every round takes out those
that share a route with the first.  The routes are then looked up, handler and variables each in
their own map, and nothing in the queue says that a round makes any progress, or that a lookup
succeeds.  Both follow for the methods of an endpoint: they stand in both maps, and the first method
of the queue shares its route with itself.

What comes out is the partition of the methods by equal routes, and everything in it stands in the
order of registration.

## What is here

* `Columns.groupWithin?`: grouping by names, with lookups that could fail and rounds that could run
  out.
* `Endpoint.groupWithin?_columns`: neither happens at an endpoint.
* `Endpoint.Partitions`: the partition of the methods by equal routes, in the order of registration.
* `Endpoint.partitions_uniqueRoutes`: grouping gives this partition.
* `Endpoint.uniqueRoutes_partition`: all of this for the endpoints that registration leads to.
-/

set_option autoImplicit false

namespace RouteTrie

variable {H : Type} [BEq H]

/-! ## Grouping by names -/

namespace Columns

omit [BEq H] in
/-- The route of a method, with handler and variables looked up in their own maps. -/
def route? (c : Columns H) (m : String) : Option (Route H) := do
  let handler ← c.handlers.get? m
  let vars ← c.vars.get? m
  return ⟨handler, vars⟩

/-- The methods of a queue that have the route `r`, and the others.  There is no answer if a method
is missing in one of the maps. -/
def partition? (c : Columns H) (r : Route H) : List String → Option (List String × List String)
  | [] => some ([], [])
  | m :: ms => do
    let s ← c.route? m
    let (shared, others) ← c.partition? r ms
    return if s == r then (m :: shared, others) else (shared, m :: others)

/-- Group the methods of a queue round by round.  A round looks up the route of the first method and
takes all methods out that share it, the first one only if it does.  There is no answer if a method
is missing in one of the maps, or if the queue is not empty after all rounds. -/
def groupWithin? (c : Columns H) : Nat → List String → Option (List (RouteGroup H))
  | _, [] => some []
  | 0, _ :: _ => none
  | rounds + 1, m :: ms => do
    let r ← c.route? m
    let (shared, others) ← c.partition? r (m :: ms)
    let groups ← c.groupWithin? rounds others
    return ⟨shared, r⟩ :: groups

theorem partition?_eq {c : Columns H} {l : List (String × Route H)}
    (hl : ∀ p ∈ l, c.route? p.1 = some p.2) (r : Route H) :
    c.partition? r (l.map Prod.fst) =
      some ((Endpoint.sharing r l).map Prod.fst, (Endpoint.differing r l).map Prod.fst) := by
  induction l with
  | nil => rfl
  | cons p l ih =>
    rw [List.forall_mem_cons] at hl
    rw [List.map_cons, partition?, hl.1, ih hl.2, Endpoint.sharing, Endpoint.differing]
    cases hr : p.2 == r <;> simp [Endpoint.sharing, Endpoint.differing, hr]

/-- **A queue of methods that have routes is grouped** in as many rounds as it has methods, or
fewer. -/
theorem groupWithin?_eq [EquivBEq H] {c : Columns H} {l : List (String × Route H)}
    (hl : ∀ p ∈ l, c.route? p.1 = some p.2) {rounds : Nat} (hrounds : l.length ≤ rounds) :
    c.groupWithin? rounds (l.map Prod.fst) = some (Endpoint.group l) := by
  fun_induction Endpoint.group l generalizing rounds with
  | case1 => cases rounds <;> rfl
  | case2 m r rest ih =>
    cases rounds with
    | zero => cases hrounds
    | succ rounds =>
      -- the first method shares its route with itself, so the queue gets shorter
      have hshared : Endpoint.sharing r ((m, r) :: rest) = (m, r) :: Endpoint.sharing r rest :=
        List.filter_cons_of_pos BEq.rfl
      have hothers : Endpoint.differing r ((m, r) :: rest) = Endpoint.differing r rest :=
        List.filter_cons_of_neg (by simp)
      have hlength : (Endpoint.differing r rest).length ≤ rounds :=
        (Endpoint.length_differing_le r rest).trans (Nat.le_of_succ_le_succ hrounds)
      have hrest := ih (fun p hp => hl p (List.mem_cons_of_mem _ (Endpoint.mem_differing.1 hp).1))
        hlength
      have hparts := partition?_eq hl r
      rw [hshared, hothers, List.map_cons] at hparts
      rw [List.map_cons, groupWithin?, hl _ List.mem_cons_self, Option.bind_eq_bind,
        Option.bind_some, hparts, Option.bind_eq_bind, Option.bind_some]
      dsimp only
      rw [hrest]
      rfl

end Columns

namespace Endpoint

omit [BEq H] in
/-- The routes that are looked up in the columns of an endpoint are its own. -/
theorem route?_columns (e : Endpoint H) (m : String) : e.columns.route? m = e.routes.get? m := by
  rw [Columns.route?, columns, OrderedMap.get?_mapValues, OrderedMap.get?_mapValues]
  cases e.routes.get? m <;> rfl

/-- **Grouping the methods of an endpoint by names** comes to an end and finds every route. -/
theorem groupWithin?_columns [EquivBEq H] (e : Endpoint H) {rounds : Nat}
    (hrounds : e.size ≤ rounds) :
    e.columns.groupWithin? rounds e.columns.handlers.keys = some e.uniqueRoutes := by
  rw [e.keys_columns.1]
  refine Columns.groupWithin?_eq (fun p hp => ?_) hrounds
  rw [route?_columns]
  exact OrderedMap.get?_eq_some_iff_mem.2 hp

/-! ## The partition -/

/-- Some groups are the partition of the methods of an endpoint by equal routes, in the order of
registration. -/
structure Partitions (e : Endpoint H) (groups : List (RouteGroup H)) : Prop where
  /-- No group is empty. -/
  nonempty : ∀ g ∈ groups, g.methods ≠ []
  /-- No method is in two groups. -/
  disjoint : groups.Pairwise fun g g' => g.methods.Disjoint g'.methods
  /-- Every method is in a group, and only once. -/
  perm : (groups.flatMap RouteGroup.methods).Perm e.methods
  /-- Two methods are in the same group if they have equal handlers and equal variables, and only
  then. -/
  together : ∀ m r n s, e.routes.get? m = some r → e.routes.get? n = some s →
    ((∃ g ∈ groups, m ∈ g.methods ∧ n ∈ g.methods) ↔
      (r.handler == s.handler) = true ∧ (r.vars == s.vars) = true)
  /-- The route of a group is that of its first method. -/
  route : ∀ g ∈ groups, ∃ m ms, g.methods = m :: ms ∧ e.routes.get? m = some g.route
  /-- The methods of a group stand in the order of registration. -/
  sublist : ∀ g ∈ groups, g.methods.Sublist e.methods
  /-- The first methods of the groups stand in the order of registration. -/
  order : (groups.filterMap fun g => g.methods.head?).Sublist e.methods

/-- The route of a group is that of its first method. -/
theorem exists_first_of_mem_group {l : List (String × Route H)} {g : RouteGroup H}
    (hg : g ∈ group l) : ∃ m ms, g.methods = m :: ms ∧ (m, g.route) ∈ l := by
  fun_induction group l with
  | case1 => cases hg
  | case2 m r rest ih =>
    rcases List.mem_cons.1 hg with rfl | hg
    · exact ⟨m, _, rfl, List.mem_cons_self⟩
    · obtain ⟨n, ns, hmethods, hn⟩ := ih hg
      exact ⟨n, ns, hmethods, List.mem_cons_of_mem _ (mem_differing.1 hn).1⟩

/-- The first methods of the groups stand in the order of the list. -/
theorem heads_group_sublist (l : List (String × Route H)) :
    ((group l).filterMap fun g => g.methods.head?).Sublist (l.map Prod.fst) := by
  fun_induction group l with
  | case1 => exact .refl _
  | case2 m r rest ih =>
    rw [List.filterMap_cons, List.map_cons]
    exact (ih.trans (List.filter_sublist.map Prod.fst)).cons_cons m

variable [EquivBEq H]

theorem methods_sublist_of_mem_group {l : List (String × Route H)} {g : RouteGroup H}
    (hg : g ∈ group l) : g.methods.Sublist (l.map Prod.fst) := by
  rw [(methods_of_mem_group hg).1]
  exact List.filter_sublist.map Prod.fst

/-- Two methods are in the same group if they have equal routes, and only then. -/
theorem exists_common_group_iff {e : Endpoint H} {m n : String} {r s : Route H}
    (hm : e.routes.get? m = some r) (hn : e.routes.get? n = some s) :
    (∃ g ∈ e.uniqueRoutes, m ∈ g.methods ∧ n ∈ g.methods) ↔ (r == s) = true := by
  -- the route with which a method is in a group is the one it has
  have hroute : ∀ {k t g}, e.routes.get? k = some t → g ∈ e.uniqueRoutes → k ∈ g.methods →
      (t == g.route) = true := by
    intro k t g hk hg hmem
    obtain ⟨t', ht', heq⟩ := exists_mem_of_mem_group hg hmem
    rw [← OrderedMap.get?_eq_some_iff_mem, hk] at ht'
    cases ht'
    exact heq
  constructor
  · rintro ⟨g, hg, hmg, hng⟩
    exact BEq.trans (hroute hm hg hmg) (BEq.symm (hroute hn hg hng))
  · intro hrs
    obtain ⟨g, hg, hmg⟩ := exists_mem_group (OrderedMap.get?_eq_some_iff_mem.1 hm)
    have hsg := BEq.trans (BEq.symm hrs) (hroute hm hg hmg)
    refine ⟨g, hg, hmg, ?_⟩
    rw [(methods_of_mem_group hg).1]
    exact List.mem_map_of_mem
      (mem_sharing.2 ⟨OrderedMap.get?_eq_some_iff_mem.1 hn, hsg⟩)

/-- **Grouping gives the partition of the methods by equal routes.** -/
theorem partitions_uniqueRoutes (e : Endpoint H) : e.Partitions e.uniqueRoutes where
  nonempty _ hg := methods_ne_nil_of_mem_group hg
  disjoint := by
    have hnd : (e.uniqueRoutes.flatMap RouteGroup.methods).Nodup :=
      (perm_flatMap_group _).nodup_iff.2 e.routes.nodup
    exact (List.nodup_flatMap.1 hnd).2
  perm := perm_flatMap_group _
  together m r n s hm hn := (exists_common_group_iff hm hn).trans Bool.and_eq_true_iff
  route g hg := by
    obtain ⟨m, ms, hmethods, hm⟩ := exists_first_of_mem_group hg
    exact ⟨m, ms, hmethods, OrderedMap.get?_eq_some_iff_mem.2 hm⟩
  sublist _ hg := methods_sublist_of_mem_group hg
  order := heads_group_sublist _

/-- **Grouping partitions the methods of an endpoint.**  Whatever was registered at an endpoint, and
whichever of the attempts failed, its methods are grouped without a lookup that fails and in no more
rounds than there are methods; the groups are the partition of the methods by equal handlers and
variables, in the order of registration. -/
theorem uniqueRoutes_partition (path : String) (calls : List (String × Route Json)) :
    (∀ rounds, ((new path).attempts calls).size ≤ rounds →
      ((Columns.new path).attempts calls).groupWithin? rounds
          ((Columns.new path).attempts calls).handlers.keys =
        some ((new path).attempts calls).uniqueRoutes) ∧
    ((new path).attempts calls).Partitions ((new path).attempts calls).uniqueRoutes := by
  have hcolumns : (Columns.new path).attempts calls = ((new path).attempts calls).columns :=
    (columns_attempts (new path) calls).symm
  rw [hcolumns]
  exact ⟨fun _ hrounds => groupWithin?_columns _ hrounds, partitions_uniqueRoutes _⟩

/-- Objects with their fields in two orders, a method that is registered twice, and the fallback
method next to a method of a key. -/
theorem uniqueRoutes_partition_shared :
    let calls : List (String × Route Json) :=
      [("get", ⟨.obj [("a", .int 1), ("b", .null)], OrderedMap.ofList [("id", 1)]⟩),
        ("PUT", ⟨.int 2, ∅⟩),
        ("Head", ⟨.obj [("b", .null), ("a", .int 1)], OrderedMap.ofList [("id", 1)]⟩),
        ("GET", ⟨.int 2, ∅⟩), ("", ⟨.int 2, ∅⟩), ("post", ⟨.int 2, OrderedMap.ofList [("id", 1)]⟩)]
    ((new "/u/*").attempts calls).uniqueRoutes.map RouteGroup.methods =
        [["GET", "HEAD"], ["PUT", ""], ["POST"]] ∧
      ((new "/u/*").attempts calls).Partitions ((new "/u/*").attempts calls).uniqueRoutes := by
  intro calls
  obtain ⟨hrounds, hpartitions⟩ := uniqueRoutes_partition "/u/*" calls
  have hgroups := congrArg (Option.map (List.map RouteGroup.methods))
    (hrounds 5 (by decide +kernel))
  refine ⟨Option.some_inj.1 (hgroups.symm.trans ?_), hpartitions⟩
  decide +kernel

end Endpoint

end RouteTrie
