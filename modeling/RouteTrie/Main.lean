import RouteTrie.Command.Outcome

/-!
# The command line

Reads the arguments and the file, and prints what the library answers.  A watched file is looked at
again every second.

## What is here

* `main`: the program.
-/

set_option autoImplicit false

namespace RouteTrie

/-- How the program is called. -/
def usage : String :=
  "Compile METHOD /path routes into a segment dispatch tree\n\n" ++
    "Usage: switch-route [--log LOG] COMMAND\n\n" ++
    "Commands:\n" ++
    "  check FILE          Validate a route file and report counts\n" ++
    "  show FILE [--json]  Print the compiled structure\n" ++
    "  watch FILE          Rebuild whenever the route file changes\n"

/-- The contents of a file, if it can be read. -/
def readContents (file : String) : IO (Option ByteArray) := do
  try
    return some (← IO.FS.readBinFile file)
  catch _ =>
    return none

/-- Look at a watched file again and again. -/
partial def watchLoop (w : Watch) (last : Option ByteArray) : IO Unit := do
  IO.sleep 1000
  let contents ← readContents w.file
  if contents.map ByteArray.toList = last.map ByteArray.toList then
    watchLoop w last
  else
    let (w, reaction) := w.step ⟨w.file, contents⟩
    IO.print reaction.output
    if let .refused := reaction then
      IO.eprintln "Failed to reload routes. Keeping current structure."
    watchLoop w contents

end RouteTrie

open RouteTrie in
/-- Answer the arguments. -/
def main (args : List String) : IO UInt32 := do
  match Invocation.parse args with
  | .usageError =>
    IO.eprint usage
    return usageCode.toUInt32
  | .help =>
    IO.print usage
    return 0
  | .run command =>
    let contents ← readContents command.file
    match command.run contents with
    | .finished code output =>
      IO.print output
      return code.toUInt32
    | .watching w output =>
      IO.print output
      watchLoop w contents
      return 0
