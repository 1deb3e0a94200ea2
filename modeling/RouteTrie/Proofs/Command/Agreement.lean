import RouteTrie.Command.Outcome
import RouteTrie.Proofs.Watch.Run

/-!
# All commands accept the same files

A command depends on the contents of its file only by way of `compileFile`, and so does a watch that
has been running for a while: what it does with a new version is what `check` would do if it were
asked about this version alone.  The one thing that a watch needs and the other commands do not is a
notifier, which may be unable to tell of the changes of the file.

## What is here

* `Outcome.Succeeds`, `Notifier.Suits`: a command ends with code 0 or goes on, and the notifier does
  what the command needs.
* `Command.run_of_load_eq_error`, `Command.run_check_of_compileFile`,
  `Command.run_watch_of_compileFile`: the outcomes of a command.
* `Command.succeeds_iff`: which commands succeed.
* `commands_agree`: the commands among each other, and a watch with a fresh check.
-/

set_option autoImplicit false

namespace RouteTrie

/-- A command has ended with code 0, or it watches its file. -/
def Outcome.Succeeds : Outcome → Prop
  | finished code _ => code = 0
  | watching _ _ => True

/-- The notifier does what a command needs.  Only a watch needs one: if its file can be read, then
there is a directory that holds the file, and changes in this directory have to be told. -/
def Notifier.Suits (n : Notifier) (contents : Option ByteArray) : Command → Prop
  | .check _ | .display _ _ => True
  | .watch file => contents.isSome = true → n.serves file = true

namespace Command

variable {contents : Option ByteArray}

theorem lines_singleton (line : String) : lines [line] = line ++ "\n" := by
  simp [lines]

/-- Every command fails in the same way on a file that does not load. -/
theorem run_of_load_eq_error {e : Config.FileError} (hload : Config.load contents = .error e)
    (command : Command) (notifier : Notifier) :
    command.run contents notifier = .finished 1 "" := by
  have hcompile := compileFile_of_load_eq_error hload
  cases command with
  | check file => rw [run, hcompile, failureCode]; simp
  | display file json => rw [run, hcompile, failureCode]; simp
  | watch file =>
    rw [run, Watch.start, hcompile]
    rfl

section Compiled

variable {tree : Node Json} (htree : compileFile contents = .ok tree)

include htree

theorem run_check_of_compileFile (file : String) (notifier : Notifier) :
    (check file).run contents notifier = .finished 0 ((Stats.of tree).line file ++ "\n") := by
  rw [run, htree]
  · exact congrArg (Outcome.finished 0) (lines_singleton _)
  · simp

/-- A watch of a file that compiles prints what `check` prints, and starts with the trie if the
changes of the file are told. -/
theorem run_watch_of_compileFile (file : String) (notifier : Notifier) :
    (watch file).run contents notifier =
      if notifier.serves file then
        .watching ⟨file, ⟨tree⟩⟩ ((Stats.of tree).line file ++ "\n")
      else .finished 1 ((Stats.of tree).line file ++ "\n") := by
  rw [run, Watch.start, htree, ← lines_singleton]
  rfl

/-- A command succeeds on a file that compiles if the notifier does what it needs. -/
theorem succeeds_iff_suits (command : Command) (notifier : Notifier) :
    (command.run contents notifier).Succeeds ↔ notifier.Suits contents command := by
  cases command with
  | check file =>
    rw [run_check_of_compileFile htree]
    exact iff_of_true rfl trivial
  | display file json =>
    rw [run, htree]
    · exact iff_of_true rfl trivial
    · simp
  | watch file =>
    have hread : contents.isSome = true := by
      cases contents with
      | some bytes => rfl
      | none => cases htree
    rw [run_watch_of_compileFile htree, Notifier.Suits, forall_prop_of_true hread]
    split
    · exact iff_of_true trivial ‹_›
    · exact iff_of_false Nat.one_ne_zero ‹_›

end Compiled

/-- A command succeeds on the files that load, as far as the notifier does what it needs. -/
theorem succeeds_iff (command : Command) (contents : Option ByteArray) (notifier : Notifier) :
    (command.run contents notifier).Succeeds ↔
      (∃ c, Config.load contents = .ok c) ∧ notifier.Suits contents command := by
  cases hload : Config.load contents with
  | ok c =>
    obtain ⟨tree, htree⟩ := exists_compileFile_iff.2 ⟨c, hload⟩
    rw [succeeds_iff_suits htree, and_iff_right ⟨c, rfl⟩]
  | error e =>
    rw [run_of_load_eq_error hload]
    refine iff_of_false Nat.one_ne_zero ?_
    rintro ⟨⟨c, hc⟩, -⟩
    cases hc

/-- A watch that has started has compiled its file, and has printed what `check` prints. -/
theorem exists_compileFile_of_run_watch {file printed : String} {notifier : Notifier} {w : Watch}
    (h : (watch file).run contents notifier = .watching w printed) :
    ∃ tree, compileFile contents = .ok tree ∧ w = ⟨file, ⟨tree⟩⟩ ∧
      printed = (Stats.of tree).line file ++ "\n" := by
  have hrun : ((watch file).run contents notifier).Succeeds := h ▸ trivial
  obtain ⟨tree, htree⟩ := exists_compileFile_iff.2 ((succeeds_iff _ _ _).1 hrun).1
  rw [run_watch_of_compileFile htree] at h
  split at h
  · obtain ⟨rfl, rfl⟩ := Outcome.watching.inj h
    exact ⟨tree, htree, rfl, rfl⟩
  · cases h

end Command

/-- **All commands accept the same files, and a watch agrees with a fresh check.**  With a notifier
that does what they need, the commands succeed on exactly the files that load; on all others they
print nothing and end with code 1, whatever the notifier does.  A watch that has started has printed
what `check` prints.  It refuses a new version of its file exactly when `check` ends with code 1 on
it, prints nothing and stays as it is; otherwise it prints the line that `check` prints and has the
trie that `check` compiles.  What the watch has seen before does not matter. -/
theorem commands_agree (notifier : Notifier) :
    (∀ (command : Command) (contents : Option ByteArray),
      (notifier.Suits contents command →
        ((command.run contents notifier).Succeeds ↔ ∃ c, Config.load contents = .ok c)) ∧
      ((¬∃ c, Config.load contents = .ok c) →
        command.run contents notifier = .finished 1 "")) ∧
    ∀ (file : String) (first : Option ByteArray) (w : Watch) (printed : String),
      (Command.watch file).run first notifier = .watching w printed →
      (Command.check file).run first notifier = .finished 0 printed ∧
      ∀ (history : List Watch.Change) (change : Watch.Change),
        Location.fileName? change.file = Location.fileName? file →
        ∃ reaction, (w.run (history ++ [change])).2 = (w.run history).2 ++ [reaction] ∧
          (reaction = .refused ↔
            (Command.check file).run change.contents notifier = .finished 1 "") ∧
          (reaction = .refused → reaction.output = "" ∧
            (w.run (history ++ [change])).1 = (w.run history).1) ∧
          (reaction ≠ .refused → ∃ tree line, compileFile change.contents = .ok tree ∧
            line = (Stats.of tree).line file ∧ reaction = .accepted line ∧
            reaction.output = line ++ "\n" ∧
            (Command.check file).run change.contents notifier = .finished 0 (line ++ "\n") ∧
            (w.run (history ++ [change])).1 = ⟨file, ⟨tree⟩⟩) := by
  constructor
  · intro command contents
    refine ⟨fun hsuits => ?_, fun hnone => ?_⟩
    · rw [Command.succeeds_iff, and_iff_left hsuits]
    · cases hload : Config.load contents with
      | ok c => exact absurd ⟨c, hload⟩ hnone
      | error e => exact Command.run_of_load_eq_error hload command notifier
  · intro file first w printed hstart
    obtain ⟨tree₀, htree₀, hw, rfl⟩ := Command.exists_compileFile_of_run_watch hstart
    refine ⟨Command.run_check_of_compileFile htree₀ file notifier, fun history change hchange => ?_⟩
    have hfile : (w.run history).1.file = file := by rw [Watch.file_run, hw]
    rw [← hfile] at hchange
    rw [Watch.run_concat]
    cases hload : Config.load change.contents with
    | error e =>
      have hcheck := Command.run_of_load_eq_error hload (.check file) notifier
      rw [Watch.step_of_load_eq_error hchange hload]
      exact ⟨.refused, rfl, iff_of_true rfl hcheck, fun _ => ⟨rfl, rfl⟩, fun hne => absurd rfl hne⟩
    | ok c =>
      obtain ⟨tree, htree⟩ := exists_compileFile_iff.2 ⟨c, hload⟩
      have hcheck := Command.run_check_of_compileFile htree file notifier
      rw [Watch.step_of_load hchange hload htree, hfile]
      refine ⟨.accepted ((Stats.of tree).line file), rfl, ?_, (fun h => nomatch h),
        fun _ => ⟨tree, _, htree, rfl, rfl, rfl, hcheck, rfl⟩⟩
      rw [hcheck]
      exact iff_of_false (fun h => nomatch h) (fun h => nomatch h)

/-- A notifier that follows one directory only, and a file in it that is removed and put back. -/
theorem commands_agree_restored :
    let notifier : Notifier := ⟨true, fun directory => directory == "conf"⟩
    let contents := some "[routes]\n\"GET /a\" = 1\n".toUTF8
    let line := "conf/r.toml: 1 endpoints, 1 routes, 1 unique"
    notifier.Suits contents (.watch "conf/r.toml") ∧
      ((Command.watch "conf/r.toml").run contents notifier).Succeeds ∧
      ∃ w, (Command.watch "conf/r.toml").run contents notifier = .watching w (line ++ "\n") ∧
        (w.run [⟨"conf/r.toml", none⟩, ⟨"./conf/r.toml", contents⟩]).2 =
          (w.run [⟨"conf/r.toml", none⟩]).2 ++ [.accepted line] := by
  intro notifier contents line
  have hpath : "conf/r.toml" = "conf" ++ "/" ++ "r.toml" := by decide +kernel
  have hserves : notifier.serves "conf/r.toml" = true := by
    rw [hpath, @Notifier.serves_append "conf" "conf" "r.toml" notifier (by decide +kernel)
      (by decide) (by decide) (by decide)]
    rfl
  have hsame : Location.fileName? "./conf/r.toml" = Location.fileName? "conf/r.toml" := by
    decide +kernel
  have hline : (compileFile contents).toOption.map
      (fun tree => (Stats.of tree).line "conf/r.toml") = some line := by
    decide +kernel
  -- from here on only the trie of the file matters, and not the text
  clear_value contents
  cases htree : compileFile contents with
  | error e =>
    rw [htree] at hline
    cases hline
  | ok tree =>
    rw [htree] at hline
    have hcounts : (Stats.of tree).line "conf/r.toml" = line := Option.some_inj.1 hline
    have hstart := Command.run_watch_of_compileFile htree "conf/r.toml" notifier
    rw [if_pos hserves, hcounts] at hstart
    have hcheck := Command.run_check_of_compileFile htree "conf/r.toml" notifier
    obtain ⟨hcommands, hwatch⟩ := commands_agree notifier
    have hsuits : notifier.Suits contents (.watch "conf/r.toml") := fun _ => hserves
    have hsucceeds := ((hcommands (.watch "conf/r.toml") contents).1 hsuits).2
      (exists_compileFile_iff.1 ⟨tree, htree⟩)
    refine ⟨hsuits, hsucceeds, _, hstart, ?_⟩
    obtain ⟨-, hchanges⟩ := hwatch "conf/r.toml" contents _ _ hstart
    obtain ⟨reaction, hreactions, hrefused, -, haccepted⟩ :=
      hchanges [⟨"conf/r.toml", none⟩] ⟨"./conf/r.toml", contents⟩ hsame
    have hne : reaction ≠ .refused := by
      intro heq
      have hfail := hrefused.1 heq
      rw [hcheck] at hfail
      cases hfail
    obtain ⟨tree', -, htree', rfl, rfl, -⟩ := haccepted hne
    obtain rfl := Except.ok.inj (htree'.symm.trans htree)
    rw [← hcounts]
    exact hreactions

end RouteTrie
