import RouteTrie.Proofs.Config.Compile
import RouteTrie.Proofs.Text.Fields
import RouteTrie.Watch

/-!
# What a watch does with a new version

Loading a file already rules out everything that could go wrong afterwards: a file that loads has a
table, and this can be built.  So a new version of the watched file is refused exactly when it does
not load, and the trie of a version that loads takes the place of whatever trie was there before.

## What is here

* `exists_compileFile_of_load`, `compileFile_of_load_eq_error`: compiling a file is loading it.
* `Location.directory_append`, `Notifier.serves_append`: the directory of a file, and the files that
  are told of with it.
* `Watch.step_of_load`, `Watch.step_of_load_eq_error`: one change of the watched file.
* `Watch.run_concat`, `Watch.file_run`: one change more, and what all runs keep.
-/

set_option autoImplicit false

namespace RouteTrie

/-! ## Compiling -/

/-- A file that loads has no problems. -/
theorem Config.problems_of_load {contents : Option ByteArray} {c : Config}
    (h : Config.load contents = .ok c) : c.problems = [] := by
  cases contents with
  | none => cases h
  | some bytes =>
    rw [Config.load] at h
    split at h
    · cases h
    · rw [Config.parse] at h
      split at h
      · cases h
      · split at h
        · rename_i hempty
          cases h
          exact List.isEmpty_iff.1 hempty
        · cases h

theorem compileFile_of_load_eq_error {contents : Option ByteArray} {e : Config.FileError}
    (h : Config.load contents = .error e) : compileFile contents = .error (.file e) := by
  rw [compileFile, h]

/-- A file that loads has a table and a trie. -/
theorem exists_compileFile_of_load {contents : Option ByteArray} {c : Config}
    (h : Config.load contents = .ok c) :
    ∃ t tree, c.toTable = .ok t ∧ t.build = .ok tree ∧ compileFile contents = .ok tree := by
  obtain ⟨t, tree, ht, hb⟩ := Config.exists_build_of_problems (Config.problems_of_load h)
  refine ⟨t, tree, ht, hb, ?_⟩
  rw [compileFile, h]
  dsimp only
  rw [ht]
  dsimp only
  rw [hb]
  rfl

/-- **Compiling a file succeeds exactly when loading it does.** -/
theorem exists_compileFile_iff {contents : Option ByteArray} :
    (∃ tree, compileFile contents = .ok tree) ↔ ∃ c, Config.load contents = .ok c := by
  constructor
  · rintro ⟨tree, htree⟩
    cases hload : Config.load contents with
    | ok c => exact ⟨c, rfl⟩
    | error e =>
      rw [compileFile_of_load_eq_error hload] at htree
      cases htree
  · rintro ⟨c, hload⟩
    obtain ⟨t, tree, -, -, htree⟩ := exists_compileFile_of_load hload
    exact ⟨tree, htree⟩

/-- A registry takes the trie of a route file that can be built, whatever trie it had. -/
theorem Registry.reloadConfig_of_build {c : Config} {t : Table Json} {tree : Node Json}
    (ht : c.toTable = .ok t) (hb : t.build = .ok tree) (r : Registry) :
    ∃ events, r.reloadConfig c = (⟨tree⟩, ⟨.ok tree, events⟩) := by
  have hvalue : t.buildLogged.value = .ok tree := (value_buildLogged t.entries.entries).trans hb
  rw [reloadConfig, ht]
  refine ⟨t.buildLogged.events ++ [.structureSwapped tree.endpoints.length], ?_⟩
  simp only [reload, hvalue]

/-! ## Directories -/

/-- The components of a name behind a path. -/
theorem Location.components_append (dir : String) {name : String} (hname : '/' ∉ name.toList) :
    components (dir ++ "/" ++ name) = components dir ++ [name] := by
  have hchars : (dir ++ "/" ++ name).toList = dir.toList ++ '/' :: name.toList := by simp
  rw [components, hchars, Text.fields_append_cons, Text.fields_eq_singleton hname, List.map_append,
    List.map_singleton, String.ofList_toList]
  rfl

/-- A file in a directory has this directory, unless the name of the directory ends in components
that say nothing. -/
theorem Location.directory_append {dir last name : String}
    (hdir : (components dir).getLast? = some last) (hlast : isIdle last = false)
    (hname : '/' ∉ name.toList) (hidle : isIdle name = false) :
    directory (dir ++ "/" ++ name) = dir := by
  obtain ⟨front, hfront⟩ := List.getLast?_eq_some_iff.1 hdir
  have hback : (components dir).reverse = last :: front.reverse := by
    rw [hfront, List.reverse_append, List.reverse_singleton, List.singleton_append]
  have htexts : (components dir).map String.toList = Text.fields '/' dir.toList := by
    simp [components, Function.comp_def]
  rw [directory, components_append dir hname, List.reverse_append, List.reverse_singleton,
    List.singleton_append, hback]
  simp only [List.dropWhile_cons, hidle, hlast, Bool.false_eq_true, if_false]
  rw [← hback, List.reverse_reverse, htexts, Text.join_fields, String.ofList_toList]

/-- With a directory, the files in it are told of. -/
theorem Notifier.serves_append {dir last name : String} (n : Notifier)
    (hdir : (Location.components dir).getLast? = some last) (hlast : Location.isIdle last = false)
    (hname : '/' ∉ name.toList) (hidle : Location.isIdle name = false) :
    n.serves (dir ++ "/" ++ name) = (n.available && n.follows dir) := by
  rw [serves, Location.directory_append hdir hlast hname hidle]

namespace Watch

/-! ## One change -/

/-- A version that does not load is refused, and the watch stays as it is. -/
theorem step_of_load_eq_error {w : Watch} {change : Change} {e : Config.FileError}
    (hfile : Location.fileName? change.file = Location.fileName? w.file)
    (hload : Config.load change.contents = .error e) : w.step change = (w, .refused) := by
  rw [step, if_neg (fun hne => hne hfile), hload]

/-- A version that loads is accepted, and nothing is left of the trie that was there before. -/
theorem step_of_load {w : Watch} {change : Change} {c : Config} {tree : Node Json}
    (hfile : Location.fileName? change.file = Location.fileName? w.file)
    (hload : Config.load change.contents = .ok c) (htree : compileFile change.contents = .ok tree) :
    w.step change = (⟨w.file, ⟨tree⟩⟩, .accepted ((Stats.of tree).line w.file)) := by
  obtain ⟨t, tree', ht, hb, htree'⟩ := exists_compileFile_of_load hload
  rw [htree] at htree'
  cases htree'
  obtain ⟨events, hreload⟩ := w.registry.reloadConfig_of_build ht hb
  rw [step, if_neg (fun hne => hne hfile), hload]
  dsimp only
  rw [hreload]
  rfl

/-- A change does not change which file is watched. -/
theorem file_step (w : Watch) (change : Change) : (w.step change).1.file = w.file := by
  rw [step]
  split
  · rfl
  · split
    · rfl
    · split <;> rfl

/-! ## Runs -/

/-- A run with one change more reacts to it from where the changes before have led. -/
theorem run_concat (w : Watch) (history : List Change) (change : Change) :
    w.run (history ++ [change]) =
      (((w.run history).1.step change).1,
        (w.run history).2 ++ [((w.run history).1.step change).2]) := by
  induction history generalizing w with
  | nil => rfl
  | cons first rest ih =>
    rw [List.cons_append, run, ih]
    rfl

/-- No run changes which file is watched. -/
theorem file_run (w : Watch) (history : List Change) : (w.run history).1.file = w.file := by
  induction history generalizing w with
  | nil => rfl
  | cons change rest ih =>
    rw [run]
    exact (ih (w.step change).1).trans (w.file_step change)

end Watch

end RouteTrie
