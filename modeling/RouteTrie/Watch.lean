import RouteTrie.Location
import RouteTrie.Registry
import RouteTrie.Report

/-!
# Watching a route file

Watching starts with a route file that can be compiled.  After that every change of a file in its
directory is looked at: a change of another file is ignored, and a new version of the route file
either replaces the trie or is refused.  The changes are told by the system, which may be unable to.

## What is here

* `compileFile`: the trie of the contents of a file.
* `Notifier`, `Notifier.serves`: what the system can tell of.
* `Watch`, `Watch.start`: the state of watching, and how it starts.
* `Watch.Reaction`, `Watch.step`: what a change leads to.
* `Watch.Reaction.output`: what is printed about a change.
* `Watch.run`: the reactions to a sequence of changes.
-/

set_option autoImplicit false

namespace RouteTrie

/-- The trie of the contents of a file. -/
def compileFile (contents : Option ByteArray) : Except Refusal (Node Json) :=
  match Config.load contents with
  | .error e => .error (.file e)
  | .ok c =>
    match c.toTable with
    | .error e => .error (.route e)
    | .ok t => t.build.mapError .route

/-- What the system can tell a program that watches files. -/
structure Notifier where
  /-- Whether it tells of changes at all. -/
  available : Bool
  /-- Whether it tells of the changes in a directory. -/
  follows : String → Bool

namespace Notifier

/-- To look at the files again and again takes no help of the system. -/
def polling : Notifier := ⟨true, fun _ => true⟩

/-- Whether the changes of a file are told.  Its directory is followed and not the file itself,
since a new version may take the place of the file. -/
def serves (n : Notifier) (file : String) : Bool :=
  n.available && n.follows (Location.directory file)

end Notifier

/-- A file that is being watched, and the trie of its last good version. -/
structure Watch where
  /-- The file, as it was named. -/
  file : String
  /-- The holder of the trie. -/
  registry : Registry

namespace Watch

/-- Start to watch a file.  A file that cannot be compiled is not watched. -/
def start (file : String) (contents : Option ByteArray) : Except Refusal Watch :=
  (compileFile contents).map fun tree => ⟨file, ⟨tree⟩⟩

/-- The line of counts of the trie. -/
def line (w : Watch) : String := (Stats.of w.registry.current).line w.file

/-- What a change leads to. -/
inductive Reaction where
  /-- Another file has changed. -/
  | ignored
  /-- The new version cannot be compiled, and the last good one stays. -/
  | refused
  /-- The new version is in use; these are its counts. -/
  | accepted (line : String)

/-- What is printed about a change. -/
def Reaction.output : Reaction → String
  | accepted line => line ++ "\n"
  | ignored | refused => ""

/-- The contents of a file have changed. -/
structure Change where
  /-- The file that has changed. -/
  file : String
  /-- Its new contents, if it still exists. -/
  contents : Option ByteArray

/-- React to a change. -/
def step (w : Watch) (change : Change) : Watch × Reaction :=
  if Location.fileName? change.file ≠ Location.fileName? w.file then (w, .ignored)
  else
    match Config.load change.contents with
    | .error _ => (w, .refused)
    | .ok c =>
      match w.registry.reloadConfig c with
      | (registry, ⟨.ok _, _⟩) =>
        let w : Watch := ⟨w.file, registry⟩
        (w, .accepted w.line)
      | (registry, ⟨.error _, _⟩) => (⟨w.file, registry⟩, .refused)

/-- React to some changes one after the other. -/
def run (w : Watch) : List Change → Watch × List Reaction
  | [] => (w, [])
  | change :: changes =>
    let next := w.step change
    let last := run next.1 changes
    (last.1, next.2 :: last.2)

end Watch

end RouteTrie
