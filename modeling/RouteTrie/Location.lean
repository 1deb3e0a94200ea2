import RouteTrie.Text.Fields

/-!
# Where a file is

Paths to files, component by component.  Empty components and dots say nothing; a path that ends in
one of them names a directory.

## What is here

* `Location.names`: whether a path leads to a file of the working directory.
* `Location.fileName?`, `Location.directory`: the last component of a path, and what is in front of
  it.
-/

set_option autoImplicit false

namespace RouteTrie.Location

/-- The components of a path. -/
def components (path : String) : List String := (Text.fields '/' path.toList).map String.ofList

/-- Whether a component says nothing about where the path leads. -/
def isIdle (component : String) : Bool := component == "" || component == "."

/-- Whether a path, seen from the directory that holds only `file`, leads to that file.  An absolute
path leads elsewhere, and so does one that goes up. -/
def names (path file : String) : Bool :=
  let cs := components path
  path.toList.head? != some '/' && cs.getLast?.any (fun c => !isIdle c) &&
    cs.filter (fun c => !isIdle c) == (components file).filter fun c => !isIdle c

/-- The last component of a path that says something, unless it goes up. -/
def fileName? (path : String) : Option String :=
  (((components path).filter fun c => !isIdle c).getLast?).filter fun c => c != ".."

/-- The directory in which a path ends: what stands in front of its last component that says
something.  If there is nothing, this is the working directory, or the root of an absolute path. -/
def directory (path : String) : String :=
  match (components path).reverse.dropWhile isIdle with
  | [] => "."
  | _ :: above =>
    match above.dropWhile isIdle with
    | [] => if path.toList.head? = some '/' then "/" else "."
    | last :: rest => String.ofList (Text.join '/' ((last :: rest).reverse.map String.toList))

end RouteTrie.Location
