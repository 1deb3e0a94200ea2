import RouteTrie.Proofs.OrderedMap
import RouteTrie.Proofs.Table.Collect

/-!
# Filling a table on

Entries that are collected in a table of their own can be inserted into another table in place of
the entries themselves: the detour by the smaller table loses nothing but what the larger one would
replace as well.  And the number of entries tells whether anything was replaced.  A program with
groups inside of groups makes such a detour for every group, so it comes down to the keys that it
writes.

## What is here

* `Table.extend_eq`: the map of the table, filled on with normalized entries.
* `Table.extend_entries_extend`: entries by way of another table.
* `Table.size_extend_eq_iff`: every entry counts exactly when all normal forms are different.
* `Table.run_append`, `Table.base_run`: programs one after the other, and what they leave alone.
* `Table.Step.leaves`, `Table.run_eq_extend`: programs without their groups.
-/

set_option autoImplicit false

namespace RouteTrie.Table

variable {H : Type}

theorem extend_cons (t : Table H) (e : String × H) (l : List (String × H)) :
    t.extend (e :: l) = (t.insert e.1 e.2).extend l := rfl

theorem extend_append (t : Table H) (l l' : List (String × H)) :
    t.extend (l ++ l') = (t.extend l).extend l' :=
  List.foldl_append

/-- A write adds its own key. -/
theorem mem_keys_insert {t : Table H} {key form : String} {handler : H} :
    form ∈ (t.insert key handler).keys ↔ form = RouteKey.normalize key ∨ form ∈ t.keys :=
  OrderedMap.mem_keys_insert

/-! ## Entries by way of another table -/

/-- The entries go into the map of a table with their keys in normal form. -/
theorem extend_eq (t : Table H) (l : List (String × H)) :
    t.extend l = ⟨t.base, t.entries.insertMany (l.map normalized)⟩ := by
  induction l generalizing t with
  | nil => rfl
  | cons e l ih =>
    rw [extend_cons, ih, List.map_cons, OrderedMap.insertMany_cons]
    rfl

@[simp] theorem base_extend (t : Table H) (l : List (String × H)) : (t.extend l).base = t.base := by
  rw [extend_eq]

/-- Entries that have been in a table are in normal form. -/
theorem map_normalized_ofList (l : List (String × H)) :
    (OrderedMap.ofList (l.map normalized)).entries.map normalized =
      (OrderedMap.ofList (l.map normalized)).entries := by
  refine (List.map_congr_left fun e he => ?_).trans (List.map_id _)
  obtain ⟨e', -, rfl⟩ := List.mem_map.1 (OrderedMap.mem_of_mem_ofList he)
  exact congrArg (·, e'.2) (RouteKey.normalize_normalize e'.1)

/-- **Entries by way of another table.**  To collect entries in a table of their own and insert that
is to insert them one after the other. -/
theorem extend_entries_extend (t : Table H) (base : String) (l : List (String × H)) :
    t.extend ((new base).extend l).entries.entries = t.extend l := by
  have hcollected : ((new base).extend l).entries = OrderedMap.ofList (l.map normalized) :=
    congrArg Table.entries (extend_eq (new base) l)
  rw [extend_eq, extend_eq t l, hcollected, map_normalized_ofList, OrderedMap.insertMany_ofList]

/-! ## Counting entries -/

@[simp] theorem keys_new (base : String) : (new base : Table H).keys = [] := rfl

@[simp] theorem size_new (base : String) : (new base : Table H).size = 0 := rfl

/-- A write counts if its key is new. -/
theorem size_insert (t : Table H) (key : String) (handler : H) :
    (t.insert key handler).size =
      if RouteKey.normalize key ∈ t.keys then t.size else t.size + 1 :=
  OrderedMap.size_insert t.entries (RouteKey.normalize key) handler

theorem size_extend_le (t : Table H) (l : List (String × H)) :
    (t.extend l).size ≤ t.size + l.length := by
  induction l generalizing t with
  | nil => exact Nat.le_refl _
  | cons e l ih =>
    have hl := ih (t.insert e.1 e.2)
    rw [size_insert] at hl
    rw [extend_cons, List.length_cons]
    split at hl <;> omega

/-- **Every entry counts** exactly when its normal form is new. -/
theorem size_extend_eq_iff (t : Table H) (l : List (String × H)) :
    (t.extend l).size = t.size + l.length ↔
      (t.keys ++ l.map fun e => RouteKey.normalize e.1).Nodup := by
  induction l generalizing t with
  | nil =>
    rw [List.map_nil, List.append_nil]
    exact iff_of_true rfl t.entries.nodup
  | cons e l ih =>
    rw [extend_cons, List.length_cons, List.map_cons]
    by_cases hmem : RouteKey.normalize e.1 ∈ t.keys
    · have hl := size_extend_le (t.insert e.1 e.2) l
      rw [size_insert, if_pos hmem] at hl
      refine iff_of_false (by omega) fun hnd => ?_
      exact (List.nodup_append.1 hnd).2.2 _ hmem _ List.mem_cons_self rfl
    · have hkeys := ih (t.insert e.1 e.2)
      rw [size_insert, if_neg hmem, keys_insert, if_neg hmem, List.append_assoc,
        List.singleton_append] at hkeys
      rw [← hkeys, Nat.add_right_comm, Nat.add_assoc]

/-! ## Running steps -/

@[simp] theorem run_nil (t : Table H) : t.run [] = t := by rw [run]

@[simp] theorem run_cons (t : Table H) (s : Step H) (steps : List (Step H)) :
    t.run (s :: steps) = (t.step s).run steps := by rw [run]

theorem run_append (t : Table H) (steps steps' : List (Step H)) :
    t.run (steps ++ steps') = (t.run steps).run steps' := by
  induction steps generalizing t with
  | nil => rw [List.nil_append, run_nil]
  | cons s steps ih => rw [List.cons_append, run_cons, run_cons, ih]

@[simp] theorem base_step (t : Table H) (s : Step H) : (t.step s).base = t.base := by
  cases s with
  | insert key handler => rw [step]; rfl
  | addRoute methods path handler => rw [step]; rfl
  | setFallback handler => rw [step]; rfl
  | group base steps => rw [step, base_extend]

@[simp] theorem base_run (t : Table H) (steps : List (Step H)) : (t.run steps).base = t.base := by
  induction steps generalizing t with
  | nil => rw [run_nil]
  | cons s steps ih => rw [run_cons, ih, base_step]

/-! ## Groups -/

mutual

/-- What a step writes, in program order.  The base paths around the step are given from the outside
to the inside; routes stand below all of them, and other keys are written as they are. -/
def Step.leaves (bases : List String) : Step H → List (String × H)
  | .insert key handler => [(key, handler)]
  | .addRoute methods path handler =>
    [(RouteKey.render methods (fullPath (String.join bases) path), handler)]
  | .setFallback handler => [(fallbackKey, handler)]
  | .group base steps => leavesOf (bases ++ [base]) steps

/-- What some steps write. -/
def Step.leavesOf (bases : List String) : List (Step H) → List (String × H)
  | [] => []
  | s :: steps => s.leaves bases ++ leavesOf bases steps

end

mutual

theorem step_eq_extend_leaves (s : Step H) {bases : List String} {t : Table H}
    (hbase : t.base = String.join bases) : t.step s = t.extend (s.leaves bases) := by
  cases s with
  | insert key handler => rw [step, Step.leaves]; rfl
  | addRoute methods path handler => rw [step, Step.leaves, ← hbase]; rfl
  | setFallback handler => rw [step, Step.leaves]; rfl
  | group base steps =>
    have hsub : (t.sub base).base = String.join (bases ++ [base]) := by
      rw [String.join_append, ← hbase, String.join_cons, String.join_nil, String.append_empty]
      rfl
    -- the table of the group is filled with its leaves, and goes into `t` as they would
    rw [step, Step.leaves, run_eq_extend_leavesOf steps hsub]
    exact extend_entries_extend t (t.base ++ base) _

theorem run_eq_extend_leavesOf (steps : List (Step H)) {bases : List String} {t : Table H}
    (hbase : t.base = String.join bases) : t.run steps = t.extend (Step.leavesOf bases steps) := by
  cases steps with
  | nil => rw [run_nil, Step.leavesOf]; rfl
  | cons s steps =>
    have hbase' := (base_extend t (s.leaves bases)).trans hbase
    rw [run_cons, step_eq_extend_leaves s hbase, run_eq_extend_leavesOf steps hbase',
      Step.leavesOf, extend_append]

end

/-- **Groups flatten.**  To run steps with groups, however deep, is to insert their leaves into the
outer table, one after the other. -/
theorem run_eq_extend (t : Table H) (steps : List (Step H)) :
    t.run steps = t.extend (Step.leavesOf [t.base] steps) := by
  refine run_eq_extend_leavesOf steps ?_
  rw [String.join_cons, String.join_nil, String.append_empty]

example : Step.leavesOf ["/api"] [.group "/v1" [.addRoute ["GET"] "/" 0, .group "/u"
      [.addRoute ["PUT", "POST"] "/:id" 1, .setFallback 2]]] =
    [("GET /api/v1", 0), ("PUT|POST /api/v1/u/:id", 1), ("default", 2)] := by decide

end RouteTrie.Table
