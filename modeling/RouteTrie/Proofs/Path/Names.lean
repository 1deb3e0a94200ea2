import RouteTrie.Proofs.FirstTaken
import RouteTrie.Proofs.OrderedMap
import RouteTrie.Proofs.Path.Pattern

/-!
# The variable names of a path

The names of the variables can be read off the text of a path: they stand in the fields between its
slashes.  A path that was read has as many variables as there are different names, and the names to
warn about are those that stand in front of themselves.

## What is here

* `Path.names`: the variable names in the text of a path, as often as they occur.
* `Path.again`, `Path.repeats_eq`: the elements of a list that occur again.
* `Path.repeatedNames_eq`, `Path.size_vars`: the names that are repeated, and how many there are.
-/

set_option autoImplicit false

namespace RouteTrie

namespace Path

/-- The variable names in the text of a path, in the order of their occurrences. -/
def names (written : String) : List String :=
  (Text.fields '/' written.toList.tail).filterMap fun text =>
    (Segment.variableName? text).map String.ofList

/-- The elements of a list that stand in front of themselves, once for each time they come again. -/
def again (l : List String) : List String :=
  l.zipIdx.filterMap fun x => if x.1 ∈ l.take x.2 then some x.1 else none

/-- Going through a list with the elements seen so far finds those that occur again. -/
theorem repeats_eq (seen l : List String) :
    repeats seen l =
      l.zipIdx.filterMap fun x => if x.1 ∈ seen ∨ x.1 ∈ l.take x.2 then some x.1 else none := by
  induction l generalizing seen with
  | nil => rfl
  | cons n l ih =>
    have hrest : repeats (n :: seen) l = (l.zipIdx 1).filterMap fun x =>
        if x.1 ∈ seen ∨ x.1 ∈ (n :: l).take x.2 then some x.1 else none := by
      rw [ih, ← Nat.zero_add 1, List.zipIdx_succ, List.filterMap_map]
      refine List.filterMap_congr fun x _ => ?_
      simp only [Function.comp_apply, mem_cons_or_mem_take]
    rw [repeats, List.zipIdx_cons, List.filterMap_cons, Nat.zero_add, ← hrest]
    by_cases hn : n ∈ seen
    · -- an element that has been seen is not seen anew
      have hmem : ∀ m, m ∈ n :: seen ↔ m ∈ seen := fun m =>
        List.mem_cons.trans (or_iff_right_of_imp fun hm => hm ▸ hn)
      have hseen : repeats (n :: seen) l = repeats seen l := by
        simp only [ih, hmem]
      simp [hn, hseen]
    · simp [hn]

/-- The names in front of the texts of a path. -/
theorem map_fst_occurrences (texts : List (List Char)) :
    (occurrences texts).map Prod.fst =
      texts.filterMap fun text => (Segment.variableName? text).map String.ofList := by
  conv_rhs => rw [← List.zipIdx_map_fst 0 texts, List.filterMap_map]
  rw [occurrences, List.map_filterMap]
  refine List.filterMap_congr fun t _ => ?_
  rw [Option.map_map]
  rfl

/-- The names of a path are those of its texts. -/
theorem map_fst_occurrences_of_texts? {written : String} {texts : List (List Char)}
    (h : texts? written.toList = some texts) :
    (occurrences texts).map Prod.fst = names written := by
  rw [map_fst_occurrences, names]
  rcases texts?_eq_some_iff.1 h with ⟨hroot, rfl⟩ | ⟨rest, -, hrest, rfl⟩
  · rw [hroot]
    rfl
  · rw [hrest]
    rfl

/-- **The names to warn about** are those that occur again. -/
theorem repeatedNames_eq {written : String} {path : Path} (h : parse written = .ok path) :
    repeatedNames written = again (names written) := by
  obtain ⟨texts, htexts, -⟩ := parse_eq_ok_iff.1 h
  rw [repeatedNames, htexts]
  simp only [map_fst_occurrences_of_texts? htexts, repeats_eq, again, List.not_mem_nil, false_or]

/-- **A path has as many variables as different names.** -/
theorem size_vars {written : String} {path : Path} (h : parse written = .ok path) :
    path.vars.size = (names written).toFinset.card := by
  obtain ⟨texts, htexts, rfl⟩ := parse_eq_ok_iff.1 h
  rw [ofTexts, OrderedMap.size_ofList, Entries.keys, map_fst_occurrences_of_texts? htexts]

end Path

end RouteTrie
