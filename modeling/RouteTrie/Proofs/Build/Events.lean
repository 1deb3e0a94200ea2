import Mathlib.Order.Bounds.Defs
import RouteTrie.Proofs.Build.Check
import RouteTrie.Proofs.Build.Count
import RouteTrie.Proofs.Build.Failure
import RouteTrie.Proofs.Path.Names

/-!
# What a build tells

The events of a build can be read off its keys.  Every entry that is entered is told of: first the
names that come again in its path, then what was registered.  At the end stands what the trie holds,
counted in the trie itself.  A build that fails tells of the entries in front of the one at which it
stops, and of that one only the names that come again, since these are noticed before it is entered.

## What is here

* `Event.shown`: an event as it is shown.
* `warningLines`, `entryLines`: what is told of a key before it is entered, and in all.
* `events_buildFrom_append`, `events_buildFrom_of_addEntry`: the events of entries that are entered,
  and of one that is not.
* `StopsAt.isGreatest`: a build stops behind the longest part of the keys that passes the check.
* `events_buildLogged`: all events of a build.
-/

set_option autoImplicit false

namespace RouteTrie

variable {H : Type}

/-! ## Lines -/

/-- An event as it is shown: how urgent it is, what it says, and the details. -/
def Event.shown (ev : Event) : Level × String × List (String × String) :=
  (ev.level, ev.message, ev.fields)

/-- What is told of a key before it is entered: a warning for every time that a variable name comes
again in its path. -/
def warningLines (key : String) : List (Level × String × List (String × String)) :=
  match RouteKey.parse key with
  | .ok (.route _ written) =>
    (Path.again (Path.names written)).map fun name =>
      (.warn, "Variable name repeated in path; last occurrence wins",
        [("path", written), ("variable", name)])
  | _ => []

/-- What is told of a key that has been entered. -/
def doneLines (key : String) : List (Level × String × List (String × String)) :=
  match RouteKey.parse key with
  | .ok .fallback => [(.debug, "Registered default route", [])]
  | .ok (.route methods written) =>
    match Path.parse written with
    | .ok path =>
      [(.debug, "Registered route", [("methods", RouteKey.joinMethods methods),
        ("path", path.pattern), ("vars", toString (Path.names written).toFinset.card)])]
    | .error _ => []
  | .error _ => []

/-- What is told of a key in all. -/
def entryLines (key : String) : List (Level × String × List (String × String)) :=
  warningLines key ++ doneLines key

/-- What is told of a trie that is complete. -/
def builtLine (root : Node H) : Level × String × List (String × String) :=
  (.info, "Route structure built", [("endpoints", toString root.endpoints.length),
    ("routes", toString (root.endpoints.map Endpoint.size).sum)])

/-- A key that can be understood is told of as its registration is. -/
theorem shown_of_ofKey {key : String} {r : Registration} (h : Registration.ofKey key = .ok r) :
    r.warnings.map Event.shown = warningLines key ∧ [r.done.shown] = doneLines key := by
  cases r with
  | fallback =>
    rw [warningLines, doneLines, RouteKey.parse_eq_fallback_iff.2
      (Registration.ofKey_eq_fallback_iff.1 h)]
    exact ⟨rfl, rfl⟩
  | route methods written path =>
    obtain ⟨hkey, hpath⟩ := Registration.ofKey_eq_route_iff.1 h
    rw [warningLines, doneLines, hkey]
    simp only [hpath, Registration.warnings, Path.repeatedNames_eq hpath, List.map_map,
      Registration.done, Path.size_vars hpath]
    exact ⟨rfl, rfl⟩

/-- A key that cannot be read is not told of. -/
theorem warningLines_of_parse_eq_error {key : String} {e : RouteError}
    (h : RouteKey.parse key = .error e) : warningLines key = [] := by
  rw [warningLines, h]

/-- Two names come again in this path, one of them twice, and there are three names. -/
example : entryLines "get|PUT  /:a/:b/\x7ba\x7d/x/:a/*/:b/:c" =
    [(.warn, "Variable name repeated in path; last occurrence wins",
        [("path", "/:a/:b/\x7ba\x7d/x/:a/*/:b/:c"), ("variable", "a")]),
      (.warn, "Variable name repeated in path; last occurrence wins",
        [("path", "/:a/:b/\x7ba\x7d/x/:a/*/:b/:c"), ("variable", "a")]),
      (.warn, "Variable name repeated in path; last occurrence wins",
        [("path", "/:a/:b/\x7ba\x7d/x/:a/*/:b/:c"), ("variable", "b")]),
      (.debug, "Registered route",
        [("methods", "get|PUT"), ("path", "/*/*/*/x/*/*/*/*"), ("vars", "3")])] := by decide

/-! ## Entry by entry -/

variable {entries before : List (String × H)} {entry : String × H} {root root' : Node H}
  {e : RouteError} {i : Nat}

theorem length_entryBindings {r : Registration} (h : Registration.ofKey entry.1 = .ok r) :
    (entryBindings entry).length = r.size := by
  rw [entryBindings_of_ofKey h, Registration.bindings, Registration.slots, List.length_map,
    List.length_map]
  cases r <;> rfl

/-- Entries that can be entered are told of in their order, and their methods are counted. -/
theorem events_buildFrom_append (h : before.foldlM Node.addEntry root = .ok root') (routes : Nat)
    (after : List (String × H)) :
    (buildFrom root routes (before ++ after)).events.map Event.shown =
      before.flatMap (fun entry => entryLines entry.1) ++
        (buildFrom root' (routes + (bindings before).length) after).events.map Event.shown := by
  induction before generalizing root routes with
  | nil =>
    cases h
    rfl
  | cons entry rest ih =>
    rw [List.foldlM_cons, bind_eq_ok_iff] at h
    obtain ⟨next, hnext, hrest⟩ := h
    rw [Node.addEntry, bind_eq_ok_iff] at hnext
    obtain ⟨r, hr, hreg⟩ := hnext
    obtain ⟨hwarnings, hdone⟩ := shown_of_ofKey hr
    have hcount : routes + (bindings (entry :: rest)).length =
        routes + r.size + (bindings rest).length := by
      rw [bindings, List.flatMap_cons, List.length_append, length_entryBindings hr, Nat.add_assoc]
      rfl
    rw [hcount, List.cons_append, buildFrom, hr]
    simp only [hreg, List.map_append, List.map_cons, ih hrest, hwarnings, List.flatMap_cons,
      entryLines, ← hdone, List.append_assoc, List.cons_append, List.nil_append]

/-- Of an entry that cannot be entered only the names that come again are told. -/
theorem events_buildFrom_of_addEntry (h : root.addEntry entry = .error e) (routes : Nat)
    (after : List (String × H)) :
    (buildFrom root routes (entry :: after)).events.map Event.shown = warningLines entry.1 := by
  rw [buildFrom]
  rw [Node.addEntry, bind_eq_error_iff] at h
  rcases h with herr | ⟨r, hr, hreg⟩
  · rw [herr, warningLines_of_parse_eq_error (Registration.parse_of_ofKey_eq_error herr)]
    rfl
  · rw [hr]
    simp only [hreg]
    exact (shown_of_ofKey hr).1

/-! ## All events -/

/-- A build stops behind the longest part of the keys that passes the check. -/
theorem StopsAt.isGreatest (h : StopsAt entries i e) :
    IsGreatest {k | k ≤ entries.length ∧ check ((entries.take k).map Prod.fst) = .ok ()} i := by
  refine ⟨⟨h.offence.lt_length.le, check_eq_ok_iff.2 (h.before i le_rfl)⟩, fun k hk => ?_⟩
  by_contra hlt
  obtain ⟨root, hroot⟩ := check_eq_ok_iff.1 hk.2
  rw [h.behind k (not_le.1 hlt)] at hroot
  cases hroot

/-- **What a build tells.**  Let `n` be the length of the longest part of the entries whose keys
pass the check.  These entries are told of in their order.  If they are all, what the trie holds is
told at the end; otherwise only the names that come again in the next key. -/
theorem events_buildLogged (entries : List (String × H)) :
    ∃ n, IsGreatest {k | k ≤ entries.length ∧ check ((entries.take k).map Prod.fst) = .ok ()} n ∧
      ((n = entries.length ∧ ∃ root, (buildLogged entries).value = .ok root ∧
          (buildLogged entries).events.map Event.shown =
            (entries.take n).flatMap (fun entry => entryLines entry.1) ++ [builtLine root]) ∨
        ∃ entry, entries[n]? = some entry ∧
          (buildLogged entries).events.map Event.shown =
            (entries.take n).flatMap (fun entry => entryLines entry.1) ++ warningLines entry.1) := by
  rw [value_buildLogged]
  cases hb : build entries with
  | ok root =>
    refine ⟨entries.length, ⟨⟨le_rfl, ?_⟩, fun k hk => hk.1⟩, .inl ⟨rfl, root, rfl, ?_⟩⟩
    · rw [List.take_length]
      exact check_eq_ok_iff.2 ⟨root, hb⟩
    · have hevents := events_buildFrom_append hb 0 []
      rw [List.append_nil, Nat.zero_add, ← sum_size_endpoints hb] at hevents
      rw [List.take_length]
      exact hevents
  | error e =>
    obtain ⟨before, entry, after, root, rfl, hroot, hadd⟩ := exists_stop_of_build hb
    refine ⟨before.length, (stopsAt_of_addEntry hroot hadd after).isGreatest,
      .inr ⟨entry, by simp, ?_⟩⟩
    rw [List.take_left, buildLogged, events_buildFrom_append hroot,
      events_buildFrom_of_addEntry hadd]

end RouteTrie
