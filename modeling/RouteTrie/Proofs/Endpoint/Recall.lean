import Mathlib.Data.List.Induction
import RouteTrie.Proofs.Endpoint.Columns

/-!
# The first attempt counts

Methods are attempted at an endpoint one after the other.  The first attempt for a method succeeds,
and every later one for it fails, in whatever case the method is written.  So the endpoint can be
told from the attempts alone: a method has the route of the first attempt for it, and the methods
stand in the order of their first attempts.

## What is here

* `Endpoint.firstCall?`: the first attempt for a method.
* `Endpoint.Recalls`, `Endpoint.Recalls.attempt`: an endpoint that keeps the first attempts, and one
  attempt more.
* `Endpoint.recalls_attempts`: any number of attempts.
* `Endpoint.WriteOnce`, `Endpoint.attempts_write_once`: what an endpoint shows of its attempts, in
  one map or in two.
-/

set_option autoImplicit false

namespace RouteTrie.Endpoint

variable {H : Type}

/-- The first of some attempts for a method, which is given in upper case. -/
def firstCall? (calls : List (String × Route H)) (M : String) : Option (String × Route H) :=
  calls.find? fun call => decide (Text.uppercase call.1 = M)

theorem firstCall?_concat (calls : List (String × Route H)) (call : String × Route H) (M : String) :
    firstCall? (calls ++ [call]) M =
      (firstCall? calls M).or (if Text.uppercase call.1 = M then some call else none) := by
  rw [firstCall?, List.find?_append, List.find?_singleton, firstCall?]
  simp only [decide_eq_true_eq]

/-- The first attempt for a method is one for it without another one in front. -/
theorem map_firstCall?_eq_some_iff {calls : List (String × Route H)} {M : String} {r : Route H} :
    (firstCall? calls M).map Prod.snd = some r ↔
      ∃ before m after, calls = before ++ (m, r) :: after ∧ Text.uppercase m = M ∧
        ∀ call ∈ before, Text.uppercase call.1 ≠ M := by
  simp only [firstCall?, Option.map_eq_some_iff, Prod.exists, List.find?_eq_some_iff_append,
    decide_eq_true_eq, Bool.not_eq_true', decide_eq_false_iff_not]
  constructor
  · rintro ⟨m, r, ⟨hM, before, after, rfl, hbefore⟩, rfl⟩
    exact ⟨before, m, after, rfl, hM, hbefore⟩
  · rintro ⟨before, m, after, rfl, hM, hbefore⟩
    exact ⟨m, r, ⟨hM, before, after, rfl, hbefore⟩, rfl⟩

theorem firstCall?_eq_none_iff {calls : List (String × Route H)} {M : String} :
    firstCall? calls M = none ↔ ∀ call ∈ calls, Text.uppercase call.1 ≠ M := by
  simp [firstCall?]

/-! ## What an endpoint keeps -/

/-- The endpoint keeps the first one of some attempts for every method. -/
structure Recalls (e : Endpoint H) (path : String) (calls : List (String × Route H)) : Prop where
  /-- The path is the one that the endpoint was made for. -/
  path : e.path = path
  /-- A method has the route of the first attempt for it. -/
  get? : ∀ M, e.routes.get? M = (firstCall? calls M).map Prod.snd
  /-- The methods stand in the order of their first attempts. -/
  methods : e.methods = (calls.map fun call => Text.uppercase call.1).eraseDups

namespace Recalls

theorem new (path : String) : (Endpoint.new path : Endpoint H).Recalls path [] :=
  ⟨rfl, fun _ => rfl, rfl⟩

variable {e : Endpoint H} {path : String} {calls : List (String × Route H)}

theorem mem_methods_iff (h : e.Recalls path calls) {M : String} :
    M ∈ e.methods ↔ ∃ call ∈ calls, Text.uppercase call.1 = M := by
  rw [h.methods, List.mem_eraseDups, List.mem_map]

/-- A method is there if there is a first attempt for it. -/
theorem firstCall?_eq_none_iff (h : e.Recalls path calls) {M : String} :
    firstCall? calls M = none ↔ M ∉ e.methods := by
  rw [← Option.map_eq_none_iff, ← h.get?]
  exact OrderedMap.get?_eq_none_iff

/-- **One attempt more** is kept if it is the first one for its method. -/
theorem attempt (h : e.Recalls path calls) (call : String × Route H) :
    (e.attempt call).Recalls path (calls ++ [call]) := by
  by_cases hm : Text.uppercase call.1 ∈ e.methods
  · rw [Endpoint.attempt, withRoute_eq_error hm]
    refine ⟨h.path, fun M => ?_, ?_⟩
    · rw [h.get?, firstCall?_concat]
      split
      · -- the method has a first attempt, which goes before this one
        rename_i hM
        obtain ⟨first, hfirst⟩ := Option.ne_none_iff_exists'.1 fun hnone =>
          h.firstCall?_eq_none_iff.1 hnone (hM ▸ hm)
        rw [hfirst, Option.some_or]
      · rw [Option.or_none]
    · rw [List.map_append, List.map_singleton, eraseDups_concat, ← h.methods, if_pos hm]
  · rw [Endpoint.attempt, withRoute_eq_ok hm]
    refine ⟨h.path, fun M => ?_, ?_⟩
    · rw [OrderedMap.get?_insert, firstCall?_concat]
      split
      · rename_i hM
        rw [h.firstCall?_eq_none_iff.2 (hM ▸ hm), Option.none_or]
        rfl
      · rw [Option.or_none, h.get?]
    · rw [List.map_append, List.map_singleton, eraseDups_concat, ← h.methods, if_neg hm]
      exact (OrderedMap.keys_insert _ _ _).trans (if_neg hm)

/-! ## What an endpoint shows -/

/-- An attempt is refused if the method has been attempted before, and it is blamed. -/
theorem withRoute_eq_error_iff (h : e.Recalls path calls) {m : String} {handler : H} {v : VarMap}
    {err : RouteError} :
    e.withRoute m handler v = .error err ↔
      (∃ call ∈ calls, Text.uppercase call.1 = Text.uppercase m) ∧
        err = .duplicateRoute (Text.uppercase m) path := by
  rw [← h.mem_methods_iff, ← h.path]
  by_cases hm : Text.uppercase m ∈ e.methods
  · rw [withRoute_eq_error hm, Except.error.injEq, and_iff_right hm, eq_comm]
  · rw [withRoute_eq_ok hm]
    exact iff_of_false (fun herr => nomatch herr) fun hand => hm hand.1

/-- Handler and variables of a method are those of the first attempt for it. -/
theorem answers_iff (h : e.Recalls path calls) {m : String} {handler : H} {v : VarMap} :
    e.route? m = some handler ∧ e.vars m = .ok v ↔
      ∃ before n after, calls = before ++ (n, ⟨handler, v⟩) :: after ∧
        Text.uppercase n = Text.uppercase m ∧
        ∀ call ∈ before, Text.uppercase call.1 ≠ Text.uppercase m := by
  rw [← map_firstCall?_eq_some_iff, ← h.get?, route?, vars]
  cases e.routes.get? (Text.uppercase m) with
  | none => simp
  | some r =>
    obtain ⟨handler', v'⟩ := r
    simp

/-- A method for which there has been no attempt has neither handler nor variables. -/
theorem unknown_iff (h : e.Recalls path calls) {m : String} :
    e.route? m = none ∧ e.vars m = .error (.unknownMethod (Text.uppercase m) path) ↔
      ∀ call ∈ calls, Text.uppercase call.1 ≠ Text.uppercase m := by
  rw [← Endpoint.firstCall?_eq_none_iff, route?, vars, h.get?, h.path]
  cases firstCall? calls (Text.uppercase m) <;> simp

end Recalls

/-- **An endpoint keeps the first attempts**, however many there are and whichever of them fail. -/
theorem recalls_attempts (path : String) (calls : List (String × Route H)) :
    ((new path).attempts calls).Recalls path calls := by
  induction calls using List.reverseRecOn with
  | nil => exact .new path
  | append_singleton calls call ih =>
    rw [attempts, List.foldl_append]
    exact ih.attempt call

/-- What an endpoint shows of some attempts, if every method is written once. -/
structure WriteOnce (e : Endpoint H) (path : String) (calls : List (String × Route H)) : Prop where
  /-- One more attempt fails if there has been one for the method, and the method is blamed. -/
  refuses : ∀ m handler v err, e.withRoute m handler v = .error err ↔
    (∃ call ∈ calls, Text.uppercase call.1 = Text.uppercase m) ∧
      err = .duplicateRoute (Text.uppercase m) path
  /-- Handler and variables of a method are those of the first attempt for it. -/
  answers : ∀ m handler v, e.route? m = some handler ∧ e.vars m = .ok v ↔
    ∃ before n after, calls = before ++ (n, ⟨handler, v⟩) :: after ∧
      Text.uppercase n = Text.uppercase m ∧
      ∀ call ∈ before, Text.uppercase call.1 ≠ Text.uppercase m
  /-- A method for which there has been no attempt is not there, and it is unknown. -/
  unknown : ∀ m,
    e.route? m = none ∧ e.vars m = .error (.unknownMethod (Text.uppercase m) path) ↔
      ∀ call ∈ calls, Text.uppercase call.1 ≠ Text.uppercase m
  /-- The methods stand in the order of their first attempts. -/
  methods : e.methods = (calls.map fun call => Text.uppercase call.1).eraseDups
  /-- The methods that are allowed are the same without the empty one. -/
  allowed : e.allowedMethods =
    (calls.map fun call => Text.uppercase call.1).eraseDups.filter fun M => M ≠ ""

theorem Recalls.writeOnce {e : Endpoint H} {path : String} {calls : List (String × Route H)}
    (h : e.Recalls path calls) : e.WriteOnce path calls where
  refuses _ _ _ _ := h.withRoute_eq_error_iff
  answers _ _ _ := h.answers_iff
  unknown _ := h.unknown_iff
  methods := h.methods
  allowed := by rw [allowedMethods, h.methods, fallbackMethod]

/-- **An endpoint is a map that is written once.**  Whatever is attempted at an endpoint, it shows
the first attempt for every method in upper case and nothing of the later ones.  An endpoint that
keeps handlers and variables in two maps, of which only one is asked whether a method is there,
gives the same answers from each of them. -/
theorem attempts_write_once (path : String) (calls : List (String × Route H)) :
    ((new path).attempts calls).WriteOnce path calls ∧
    (∀ m,
      ((Columns.new path).attempts calls).handler? m = ((new path).attempts calls).route? m ∧
        ((Columns.new path).attempts calls).varsOf m = ((new path).attempts calls).vars m) ∧
    ((Columns.new path).attempts calls).handlers.keys = ((new path).attempts calls).methods ∧
    ((Columns.new path).attempts calls).vars.keys = ((new path).attempts calls).methods := by
  have hcolumns : (Columns.new path).attempts calls = ((new path).attempts calls).columns :=
    (columns_attempts (new path) calls).symm
  rw [hcolumns]
  exact ⟨(recalls_attempts path calls).writeOnce,
    fun m => ⟨handler?_columns _ m, varsOf_columns _ m⟩, keys_columns _⟩

/-- A method whose capitals are more than its letters, the empty method, and attempts that fail. -/
theorem attempts_write_once_sharp :
    let calls : List (String × Route Nat) :=
      [("straße", ⟨1, OrderedMap.ofList [("id", 0)]⟩), ("get", ⟨2, ∅⟩), ("STRASSE", ⟨3, ∅⟩),
        ("", ⟨4, ∅⟩), ("Get", ⟨5, ∅⟩)]
    ((new "/*").attempts calls).methods = ["STRASSE", "GET", ""] ∧
      ((new "/*").attempts calls).allowedMethods = ["STRASSE", "GET"] ∧
      ((new "/*").attempts calls).route? "Strasse" = some 1 ∧
      ((new "/*").attempts calls).vars "straßE" = .ok (OrderedMap.ofList [("id", 0)]) ∧
      ((new "/*").attempts calls).withRoute "gET" 6 ∅ = .error (.duplicateRoute "GET" "/*") := by
  intro calls
  obtain ⟨h, -⟩ := attempts_write_once "/*" calls
  have hfirst : ∀ m, Text.uppercase "straße" = Text.uppercase m →
      ((new "/*").attempts calls).route? m = some 1 ∧
        ((new "/*").attempts calls).vars m = .ok (OrderedMap.ofList [("id", 0)]) := fun m hm =>
    (h.answers m _ _).2 ⟨[], "straße", calls.tail, rfl, hm, by simp⟩
  refine ⟨h.methods.trans (by decide +kernel), h.allowed.trans (by decide +kernel),
    (hfirst "Strasse" (by decide +kernel)).1, (hfirst "straßE" (by decide +kernel)).2,
    (h.refuses _ _ _ _).2 ⟨⟨("get", ⟨2, ∅⟩), ?_, by decide +kernel⟩, ?_⟩⟩
  · exact .tail _ (.head _)
  · have hupper : Text.uppercase "gET" = "GET" := by decide +kernel
    rw [hupper]

end RouteTrie.Endpoint
