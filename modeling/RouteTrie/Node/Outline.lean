import RouteTrie.Key
import RouteTrie.Node

/-!
# Outlines

A trie as indented text: a line for every child and, below an endpoint, a line for every group of
methods that share a handler and variables.

## What is here

* `Node.outlineLines`, `Node.outline`: the lines, and the text they make.
-/

set_option autoImplicit false

namespace RouteTrie

/-- The variables of a route as `name:index`, between braces; nothing if there are none. -/
def VarMap.label (vars : VarMap) : String :=
  if vars.isEmpty then ""
  else
    " \x7b" ++ ", ".intercalate (vars.entries.map fun v => v.1 ++ ":" ++ toString v.2) ++ "\x7d"

/-- The line of a group: its methods, or a star if they all are the fallback method, then the
handler and the variables. -/
def RouteGroup.line {H : Type} (display : H → String) (g : RouteGroup H) : String :=
  (if g.methods.all String.isEmpty then "*" else RouteKey.joinMethods g.methods) ++ " => " ++
    display g.route.handler ++ VarMap.label g.route.vars

namespace Node

variable {H : Type}

/-- The line of a child: an endpoint where endpoints belong is shown by its path, anything else by
its label. -/
def childLine (k : Edge) (n : Node H) : String :=
  match k, n with
  | .terminal, endpoint e | .fallback, endpoint e =>
    "[" ++ (if e.path.isEmpty then "<default>" else e.path) ++ "]"
  | k, _ => k.text ++ "/"

mutual

/-- The lines of the outline. -/
def outlineLines [BEq H] (display : H → String) : Node H → List String
  | endpoint e => e.uniqueRoutes.map (RouteGroup.line display)
  | branch cs => childrenLines display cs

/-- The lines of some children, each followed by its own outline two columns further right. -/
def childrenLines [BEq H] (display : H → String) : List (Edge × Node H) → List String
  | [] => []
  | (k, n) :: cs =>
    childLine k n :: ((outlineLines display n).map ("  " ++ ·) ++ childrenLines display cs)

end

/-- The outline: its lines, each with a line feed at its end. -/
def outline [BEq H] (display : H → String) (n : Node H) : String :=
  String.join ((n.outlineLines display).map (· ++ "\n"))

end Node

end RouteTrie
