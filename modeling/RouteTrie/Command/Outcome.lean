import RouteTrie.Command.Arguments
import RouteTrie.Node.Outline
import RouteTrie.Watch

/-!
# Outcomes of commands

What a command prints, and how it ends.  Every command first compiles the file; if that fails it
prints nothing and ends with code 1.  A watch also ends with code 1 if the changes of its file are
not told, but then it has printed its first line.

## What is here

* `Outcome`: an exit code with the printed text, or the start of watching.
* `Command.output`: what a command prints about a trie.
* `Command.run`: the outcome of a command.
-/

set_option autoImplicit false

namespace RouteTrie

/-- How a command ends, or that it goes on. -/
inductive Outcome where
  /-- The command has ended with this exit code. -/
  | finished (code : Nat) (output : String)
  /-- The command has printed something and watches its file. -/
  | watching (watch : Watch) (output : String)

/-- The exit code for arguments that are not understood. -/
def usageCode : Nat := 2

/-- The exit code for a file that cannot be compiled or watched. -/
def failureCode : Nat := 1

namespace Command

/-- The text of some lines, each with a line feed at its end. -/
def lines (ls : List String) : String := String.join (ls.map (· ++ "\n"))

/-- What a command prints about the trie of its file. -/
def output (c : Command) (tree : Node Json) : String :=
  match c with
  | check file => lines [(Stats.of tree).line file]
  | display _ false => tree.outline Json.compact
  | display _ true => lines ((summarize tree).map fun s => s.toJson.compact)
  | watch file => lines [(Stats.of tree).line file]

/-- The outcome of a command on the contents of its file.  Only a watch asks the notifier, and it
does so behind its first line. -/
def run (c : Command) (contents : Option ByteArray) (notifier : Notifier := .polling) : Outcome :=
  match c with
  | watch file =>
    match Watch.start file contents with
    | .error _ => .finished failureCode ""
    | .ok w =>
      let line := c.output w.registry.current
      if notifier.serves file then .watching w line else .finished failureCode line
  | c =>
    match compileFile contents with
    | .error _ => .finished failureCode ""
    | .ok tree => .finished 0 (c.output tree)

end Command

end RouteTrie
