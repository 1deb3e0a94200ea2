import RouteTrie.Proofs.Build.Growth

/-!
# No leaf is ever in the way

An upsert that meets a leaf on its way would replace it by a branch and lose its endpoint.  The
variant here gives no result in that case.  Building with it is the same as building, whatever the
entries are and also if they are refused, so the case does not occur.

## What is here

* `Node.upsertBranches?`, `buildBranches?`: the variant and building with it.
* `Node.Trim.upsertBranches?_eq`: on a trie without loose ends it is an upsert.
* `buildBranches?_eq`: building never meets a leaf.
-/

set_option autoImplicit false

namespace RouteTrie

variable {H : Type}

namespace Node

/-- `upsertEndpoint` without a case for leaves: there is no result if one is met. -/
def upsertBranches? (n : Node H) (segments : List Segment) (k : Edge)
    (update : Option (Endpoint H) → Except RouteError (Endpoint H)) :
    Option (Except RouteError (Node H)) :=
  match n, segments with
  | endpoint _, _ => none
  | branch cs, [] =>
    some ((update ((branch cs).endpointAt? k)).map fun e =>
      branch (Entries.insert cs k (endpoint e)))
  | branch cs, s :: rest =>
    (upsertBranches? (((branch cs).get? (.ofSegment s)).getD empty) rest k update).map fun result =>
      result.map fun child => branch (Entries.insert cs (.ofSegment s) child)

/-- In a trie without loose ends an upsert meets branches only. -/
theorem Trim.upsertBranches?_eq {n : Node H} (h : n.Trim) (segments : List Segment) (k : Edge)
    (update : Option (Endpoint H) → Except RouteError (Endpoint H)) :
    n.upsertBranches? segments k update = some (n.upsertEndpoint segments k update) := by
  induction segments generalizing n with
  | nil =>
    obtain ⟨cs, rfl⟩ := h.eq_branch
    rw [upsertBranches?, upsertEndpoint]
    cases update ((Node.branch cs).endpointAt? k) <;> rfl
  | cons s rest ih =>
    obtain ⟨cs, rfl⟩ := h.eq_branch
    rw [upsertBranches?, upsertEndpoint, ih (h.getD_empty s), Option.map_some]
    cases (((Node.branch cs).get? (.ofSegment s)).getD Node.empty).upsertEndpoint rest k update <;>
      rfl

/-- The trie with one entry more, if no leaf is met. -/
def addEntryBranches? (root : Node H) (entry : String × H) : Option (Except RouteError (Node H)) :=
  match Registration.ofKey entry.1 with
  | .error e => some (.error e)
  | .ok r => root.upsertBranches? r.place.segments r.place.edge fun e =>
      (e.getD (Endpoint.new r.place.text)).withRoutes r.methods entry.2 r.vars

theorem Trim.addEntryBranches?_eq {root : Node H} (h : root.Trim) (entry : String × H) :
    root.addEntryBranches? entry = some (root.addEntry entry) := by
  rw [addEntryBranches?, addEntry]
  cases hr : Registration.ofKey entry.1 with
  | error e => rfl
  | ok r =>
    simp only [bind, Except.bind]
    rw [h.upsertBranches?_eq, upsertEndpoint_eq, register_eq]
    rfl

end Node

/-- The trie of some entries more, if no leaf is met. -/
def buildBranches? (root : Node H) : List (String × H) → Option (Except RouteError (Node H))
  | [] => some (.ok root)
  | entry :: rest =>
    match root.addEntryBranches? entry with
    | none => none
    | some (.error e) => some (.error e)
    | some (.ok root) => buildBranches? root rest

/-- **Building never meets a leaf**, from any trie without loose ends on. -/
theorem Node.Trim.buildBranches?_eq {root : Node H} (h : root.Trim) (entries : List (String × H)) :
    buildBranches? root entries = some (entries.foldlM Node.addEntry root) := by
  induction entries generalizing root with
  | nil => rfl
  | cons entry rest ih =>
    rw [buildBranches?, h.addEntryBranches?_eq, List.foldlM_cons]
    cases hn : root.addEntry entry with
    | error e => rfl
    | ok next =>
      obtain ⟨r, e, -, -, rfl⟩ := Node.addEntry_eq_ok_iff.1 hn
      exact ih (h.put r.place e)

end RouteTrie
