import RouteTrie.Proofs.Node.Position

/-!
# An upsert changes one endpoint and nothing else

An upsert reads the endpoint at its place, hands it to a function that can fail, and writes what the
function returns.  On its way it may take each child out of its parent and put it back when it is
done, as a child that is put back under its label stands where it was.  Everything that can be asked
of a trie stays as it was, except for the one endpoint and the way to it: a node on the way is
created if it is missing, and gets the next label of the way behind its other labels.

## What is here

* `Node.takeChild`, `Node.upsertTaken`: an upsert that takes children out and puts them back.
* `Node.upsertTaken_eq`: it is an upsert.
* `Node.ChangedAt`: a trie that differs from another one at a single place.
* `Node.changedAt_put`, `Node.upsertEndpoint_changes_one`: a write, and an upsert.
-/

set_option autoImplicit false

namespace RouteTrie.Node

variable {H : Type}

/-! ## Taking out and putting back -/

/-- The child under a label, and the children with an empty branch in its place.  If there is no
such child an empty branch is taken, and the children stay. -/
def takeChild (cs : List (Edge × Node H)) (k : Edge) : Node H × List (Edge × Node H) :=
  match Entries.get? cs k with
  | some c => (c, Entries.insert cs k empty)
  | none => (empty, cs)

theorem fst_takeChild (cs : List (Edge × Node H)) (k : Edge) :
    (takeChild cs k).1 = (Entries.get? cs k).getD empty := by
  rw [takeChild]
  cases Entries.get? cs k <;> rfl

/-- What is put back goes to the place of what was taken, or behind the others. -/
theorem insert_snd_takeChild (cs : List (Edge × Node H)) (k : Edge) (c : Node H) :
    Entries.insert (takeChild cs k).2 k c = Entries.insert cs k c := by
  rw [takeChild]
  cases Entries.get? cs k with
  | none => rfl
  | some d => exact Entries.insert_insert cs k empty c

/-- `upsertEndpoint` with every child on the way taken out of its parent and put back. -/
def upsertTaken (n : Node H) (segments : List Segment) (k : Edge)
    (update : Option (Endpoint H) → Except RouteError (Endpoint H)) :
    Except RouteError (Node H) :=
  match segments with
  | [] => do
    let e ← update (n.endpointAt? k)
    return branch (Entries.insert n.children k (endpoint e))
  | s :: rest => do
    let (child, others) := takeChild n.children (.ofSegment s)
    let child ← upsertTaken child rest k update
    return branch (Entries.insert others (.ofSegment s) child)

/-- **To take children out and put them back** is to leave them where they are. -/
theorem upsertTaken_eq (n : Node H) (segments : List Segment) (k : Edge)
    (update : Option (Endpoint H) → Except RouteError (Endpoint H)) :
    n.upsertTaken segments k update = n.upsertEndpoint segments k update := by
  induction segments generalizing n with
  | nil => rfl
  | cons s rest ih =>
    rw [upsertTaken, upsertEndpoint]
    simp only [ih, fst_takeChild, insert_snd_takeChild]
    rfl

/-! ## A single place -/

/-- `n'` is `n` with the endpoint `e` at the place `p` and nothing else changed. -/
structure ChangedAt (n : Node H) (p : Place) (e : Endpoint H) (n' : Node H) : Prop where
  /-- The endpoint stands at the place. -/
  here : n'.at? p = some e
  /-- At every other place there is what was there. -/
  elsewhere : ∀ q, q ≠ p → n'.at? q = n.at? q
  /-- Nodes are created on the way to the place only, and none is removed. -/
  nodes : ∀ s, (n'.find? s).isSome = true ↔ s <+: p.segments ∨ (n.find? s).isSome = true
  /-- A node has the labels that it had, in their order, and perhaps the next label of the way
  behind them. -/
  labels : ∀ s c, n.find? s = some c → ∃ c', n'.find? s = some c' ∧
    (c'.labels = c.labels ∨ ∃ k, p.edgeAt? s = some k ∧ c'.labels = c.labels ++ [k])

/-- **A write changes its own place** and nothing else. -/
theorem changedAt_put (n : Node H) (p : Place) (e : Endpoint H) : n.ChangedAt p e (n.put p e) where
  here := by rw [at?_put, if_pos rfl]
  elsewhere q hq := by rw [at?_put, if_neg (Ne.symm hq)]
  nodes := isSome_find?_put n p e
  labels s c hc := by
    obtain ⟨c', hc'⟩ : ∃ c', (n.put p e).find? s = some c' :=
      Option.isSome_iff_exists.1 ((isSome_find?_put n p e s).2 (.inr (by rw [hc]; rfl)))
    refine ⟨c', hc', ?_⟩
    have hlabels := edges_put n p e s
    rw [edges_of_find? hc, edges_of_find? hc'] at hlabels
    rw [hlabels]
    cases hk : p.edgeAt? s with
    | none => exact .inl rfl
    | some k =>
      rw [addLabel]
      split
      · exact .inl rfl
      · exact .inr ⟨k, rfl, rfl⟩

example : ((empty.put (.path [.literal "users", .wildcard]) ⟨"/users/*", ∅⟩).put
    (.path [.literal "users"]) ⟨"/users", ∅⟩ : Node Nat).edges [.literal "users"] =
    [.wildcard, .terminal] := by decide

/-- **An upsert changes one endpoint and nothing else**, whatever the trie looks like.  Its function
is given the endpoint at the place and nothing more, its errors are those of the upsert, and what it
returns is written there.  It does not matter whether the children on the way are taken out of their
parents in the meantime. -/
theorem upsertEndpoint_changes_one (n : Node H) (p : Place) :
    ∃ write : Endpoint H → Node H,
      (∀ update, n.upsertEndpoint p.segments p.edge update = (update (n.at? p)).map write) ∧
      (∀ update, n.upsertTaken p.segments p.edge update = (update (n.at? p)).map write) ∧
      ∀ e, n.ChangedAt p e (write e) := by
  have hupsert : ∀ update,
      n.upsertEndpoint p.segments p.edge update = (update (n.at? p)).map (n.put p) :=
    upsertEndpoint_eq n p.segments p.edge
  exact ⟨n.put p, hupsert, fun update => (upsertTaken_eq n _ _ update).trans (hupsert update),
    changedAt_put n p⟩

end RouteTrie.Node
