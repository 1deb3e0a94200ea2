/-!
# Arguments of the command line

A command is `check`, `show` or `watch` with the name of a route file.  The option `--log` with a
filter may stand before or after the name of the command, `show` takes the flag `--json`, and after
two dashes everything is a file name.

## What is here

* `Command`, `Invocation`: what can be asked for.
* `Invocation.parse`: how arguments are understood; anything else is a usage error.
-/

set_option autoImplicit false

namespace RouteTrie

/-- What the program is asked to do. -/
inductive Command where
  /-- Print the counts of a route file. -/
  | check (file : String)
  /-- Print the outline of a route file, or its summaries. -/
  | display (file : String) (json : Bool)
  /-- Print the counts of a route file now and after each change. -/
  | watch (file : String)
  deriving DecidableEq, Repr

/-- The file of a command. -/
def Command.file : Command → String
  | check file => file
  | display file _ => file
  | watch file => file

/-- What some arguments ask for. -/
inductive Invocation where
  /-- A command. -/
  | run (command : Command)
  /-- An explanation of the arguments. -/
  | help
  /-- Something that the program does not understand. -/
  | usageError
  deriving DecidableEq, Repr

namespace Invocation

/-- The names of the commands. -/
inductive Name where
  /-- Counts. -/
  | check
  /-- Outline or summaries. -/
  | display
  /-- Counts after each change. -/
  | watch
  deriving DecidableEq, Repr

/-- The command with a name. -/
def name? : String → Option Name
  | "check" => some .check
  | "show" => some .display
  | "watch" => some .watch
  | _ => none

/-- Whether an argument looks like an option. -/
def isOption (arg : String) : Bool := arg.toList.head? == some '-' && arg != "-"

/-- Whether an argument asks for help. -/
def isHelp (arg : String) : Bool := arg == "--help" || "-h".isPrefixOf arg

/-- Whether an argument is the log option together with its filter. -/
def isLogWithFilter (arg : String) : Bool := "--log=".isPrefixOf arg

/-- What has been read behind the name of a command. -/
structure Parts where
  /-- Whether the log option has been read. -/
  log : Bool
  /-- Whether the flag of `show` has been read. -/
  json : Bool
  /-- The file, if it has been read. -/
  file : Option String

/-- Take a file name, which may not be empty and may not be the second one. -/
def Parts.withFile? (p : Parts) (arg : String) : Option Parts :=
  if arg.isEmpty || p.file.isSome then none else some { p with file := some arg }

/-- The command of some parts, which have to name a file. -/
def Parts.command (name : Name) (p : Parts) : Invocation :=
  match p.file with
  | none => .usageError
  | some file =>
    .run (match name with
      | .check => .check file
      | .display => .display file p.json
      | .watch => .watch file)

/-- Read arguments that all are file names. -/
def parseFiles (name : Name) (p : Parts) : List String → Invocation
  | [] => p.command name
  | arg :: args =>
    match p.withFile? arg with
    | some p => parseFiles name p args
    | none => .usageError

/-- Read the arguments behind the name of a command.  An option may occur once. -/
def parseParts (name : Name) (p : Parts) : List String → Invocation
  | [] => p.command name
  | arg :: args =>
    if arg = "--" then parseFiles name p args
    else if isHelp arg then .help
    else if arg = "--log" then
      match args with
      | filter :: args =>
        if p.log || isOption filter then .usageError
        else parseParts name { p with log := true } args
      | [] => .usageError
    else if isLogWithFilter arg then
      if p.log then .usageError else parseParts name { p with log := true } args
    else if arg = "--json" && name = .display then
      if p.json then .usageError else parseParts name { p with json := true } args
    else if isOption arg then .usageError
    else
      match p.withFile? arg with
      | some p => parseParts name p args
      | none => .usageError

/-- Read the arguments behind a request for help: perhaps the name of a command.  Options are not
understood there. -/
def parseHelp : List String → Invocation
  | [] => .help
  | [arg] => if (name? arg).isSome || arg = "help" then .help else .usageError
  | _ => .usageError

/-- Read all arguments; `log` says whether the log option has been read. -/
def parseFrom (log : Bool) : List String → Invocation
  | [] => .usageError
  | arg :: args =>
    if isHelp arg then .help
    else if arg = "--log" then
      match args with
      | filter :: args => if log || isOption filter then .usageError else parseFrom true args
      | [] => .usageError
    else if isLogWithFilter arg then
      if log then .usageError else parseFrom true args
    else if arg = "help" then parseHelp args
    else
      match name? arg with
      | some name => parseParts name ⟨false, false, none⟩ args
      | none => .usageError

/-- What some arguments ask for. -/
def parse (args : List String) : Invocation := parseFrom false args

end Invocation

end RouteTrie
