import RouteTrie.Proofs.OrderedMap
import RouteTrie.Proofs.Path.Pattern
import RouteTrie.Table

/-!
# Paths below a base path

A path that is put below a base path is written behind it.  What comes out reads as the two lists of
segments one behind the other: the variables of the path move by the length of the base path, and a
variable of the base path counts unless the path has one of the same name.  The root has no segments
and nothing is written for it, so that no empty segment appears.

## What is here

* `VarMap.below`: the variables of a path that is put below another one.
* `Path.append`: two paths one behind the other.
* `Path.parse_fullPath`: how a path below a base path is read.
* `Table.fullPath_append`: a base path of two parts.
-/

set_option autoImplicit false

namespace RouteTrie

/-! ## One path behind the other -/

/-- The variables of a path that is put below `p`: those of `p`, and on top of them those of the
path, each as many segments later as `p` has. -/
def VarMap.below (p : Path) (vars : VarMap) : VarMap :=
  p.vars.insertMany (vars.mapValues (p.segments.length + ·)).entries

/-- A variable of the path counts, and one of `p` if the path has none of this name. -/
theorem VarMap.get?_below (p : Path) (vars : VarMap) (name : String) :
    (vars.below p).get? name =
      ((vars.get? name).map (p.segments.length + ·)).or (p.vars.get? name) := by
  rw [below, OrderedMap.get?_insertMany_entries, OrderedMap.get?_mapValues]

namespace Path

/-- The path `q` below the path `p`. -/
def append (p q : Path) : Path := ⟨p.segments ++ q.segments, q.vars.below p⟩

/-- The variables of two lists of texts: those of the second list stand behind the first one. -/
theorem occurrences_append (ts us : List (List Char)) :
    occurrences (ts ++ us) =
      occurrences ts ++ (occurrences us).map fun v => (v.1, ts.length + v.2) := by
  rw [occurrences, List.zipIdx_append, List.filterMap_append, occurrences, occurrences]
  congr 1
  rw [Nat.zero_add, List.zipIdx_eq_map_add, List.filterMap_map, List.map_filterMap]
  refine List.filterMap_congr fun t _ => ?_
  simp [Function.comp_def]

/-- Texts one behind the other are paths one behind the other. -/
theorem ofTexts_append (ts us : List (List Char)) :
    ofTexts (ts ++ us) = (ofTexts ts).append (ofTexts us) := by
  rw [ofTexts, List.map_append, occurrences_append, OrderedMap.ofList, OrderedMap.insertMany_append,
    ← OrderedMap.ofList, ← OrderedMap.insertMany_ofList, ← OrderedMap.mapValues_ofList]
  simp only [append, VarMap.below, ofTexts, List.length_map]

/-! ## Full paths -/

/-- A full path is cut into the texts of the base path and those of the path. -/
theorem texts?_fullPath {base path : String} {ts us : List (List Char)}
    (hts : texts? base.toList = some ts) (hlast : base.toList.getLast? ≠ some '/')
    (hus : texts? path.toList = some us) :
    texts? (Table.fullPath base path).toList = some (ts ++ us) := by
  obtain ⟨rest, -, hrest, rfl⟩ := (texts?_eq_some_iff.1 hts).resolve_left fun h =>
    hlast (by rw [h.1]; rfl)
  have hbase : base ≠ "" := by
    rintro rfl
    cases hrest
  rw [Table.fullPath]
  rcases texts?_eq_some_iff.1 hus with ⟨hroot, rfl⟩ | ⟨rest', hrest', hpath, rfl⟩
  · -- nothing is written for the root
    rw [if_pos ⟨String.toList_injective hroot, hbase⟩, hts, List.append_nil]
  · have hpath' : path ≠ "/" := by
      rintro rfl
      exact hrest' (List.cons.inj hpath).2.symm
    rw [if_neg fun h => hpath' h.1, String.toList_append, hrest, hpath, List.cons_append,
      texts?_cons (by simp), Text.fields_append_cons]

/-- **A path below a base path** that does not end with a slash is read as the two paths one behind
the other. -/
theorem parse_fullPath {base path : String} {p q : Path} (hp : parse base = .ok p)
    (hlast : base.toList.getLast? ≠ some '/') (hq : parse path = .ok q) :
    parse (Table.fullPath base path) = .ok (p.append q) := by
  obtain ⟨ts, hts, rfl⟩ := parse_eq_ok_iff.1 hp
  obtain ⟨us, hus, rfl⟩ := parse_eq_ok_iff.1 hq
  exact parse_eq_ok_iff.2 ⟨ts ++ us, texts?_fullPath hts hlast hus, ofTexts_append ts us⟩

end Path

/-- A path below two base paths, of which the inner one is not the root, is a path below the outer
one. -/
theorem Table.fullPath_append {base inner : String} (hinner : inner ≠ "/") (path : String) :
    fullPath (base ++ inner) path = fullPath base (fullPath inner path) := by
  by_cases hempty : inner = ""
  · subst hempty
    rw [String.append_empty, fullPath, fullPath, fullPath]
    simp
  · have hne : base ++ inner ≠ "" := by simp [String.append_eq_empty_iff, hempty]
    have hlong : inner ++ path ≠ "/" := by
      intro h
      have hlist := congrArg String.toList h
      rw [String.toList_append] at hlist
      rcases List.append_eq_singleton_iff.1 hlist with ⟨hnil, -⟩ | ⟨hslash, -⟩
      · exact hempty (String.toList_injective hnil)
      · exact hinner (String.toList_injective hslash)
    by_cases hpath : path = "/"
    · simp [fullPath, hpath, hempty, hne, hinner]
    · simp [fullPath, hpath, hlong, String.append_assoc]

end RouteTrie
