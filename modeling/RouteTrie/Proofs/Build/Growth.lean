import Mathlib.Data.List.Induction
import RouteTrie.Proofs.Build.Binding
import RouteTrie.Proofs.Node.Trim

/-!
# How a trie grows while it is built

Every entry that is entered writes its own place and no other.  So the nodes of a trie and the order
of the children at each of them are functions of the places of the entries in their order: a label
stands where it was first needed.

## What is here

* `build_append`, `build_induction`: building a list in two parts, and induction on the entries of a
  list that can be built.
* `exists_build_iff`: when a list of entries can be built.
* `entryPlace?`, `places`, `labelsAt`: the places of the entries, and the labels on the ways to them
  in the order of their first appearance.
* `trim_of_build`, `isSome_find?_build`, `edges_build`: the trie has no loose ends, its nodes, and
  the labels at each of them.
-/

set_option autoImplicit false

namespace RouteTrie

variable {H : Type}

/-! ## Entry by entry -/

theorem build_append (before after : List (String × H)) :
    build (before ++ after) = (build before).bind fun root => after.foldlM Node.addEntry root := by
  rw [build, List.foldlM_append]
  rfl

theorem build_concat (before : List (String × H)) (entry : String × H) :
    build (before ++ [entry]) = (build before).bind fun root => root.addEntry entry := by
  rw [build_append]
  congr 1
  funext root
  rw [List.foldlM_cons]
  cases root.addEntry entry <;> rfl

/-- Entries that cannot be built cannot be built with others behind them. -/
theorem build_append_of_eq_error {before : List (String × H)} {e : RouteError}
    (h : build before = .error e) (after : List (String × H)) :
    build (before ++ after) = .error e := by
  rw [build_append, h]
  rfl

/-- The first entries of a list that can be built can be built. -/
theorem exists_build_of_append {before after : List (String × H)} {root : Node H}
    (h : build (before ++ after) = .ok root) : ∃ root', build before = .ok root' := by
  rw [build_append] at h
  obtain ⟨root', hroot', -⟩ := bind_eq_ok_iff.1 h
  exact ⟨root', hroot'⟩

/-- An entry that can be entered reads the endpoint at its place and writes it back. -/
theorem Node.addEntry_eq_ok_iff {root root' : Node H} {entry : String × H} :
    root.addEntry entry = .ok root' ↔
      ∃ r e, Registration.ofKey entry.1 = .ok r ∧
        ((root.at? r.place).getD (Endpoint.new r.place.text)).withRoutes r.methods entry.2 r.vars =
          .ok e ∧ root' = root.put r.place e := by
  rw [addEntry]
  cases hr : Registration.ofKey entry.1 with
  | error e => simp [bind, Except.bind]
  | ok r =>
    simp only [bind, Except.bind, register_eq, Except.ok.injEq, exists_eq_left', exists_and_left]
    cases ((root.at? r.place).getD (Endpoint.new r.place.text)).withRoutes r.methods entry.2
        r.vars with
    | error e => simp [Except.map]
    | ok e => simp [Except.map, eq_comm]

/-- **Induction on a build**, entry by entry from the first to the last. -/
theorem build_induction {motive : List (String × H) → Node H → Prop} (nil : motive [] Node.empty)
    (step : ∀ (before : List (String × H)) (entry : String × H) (root : Node H) (r : Registration)
      (e : Endpoint H), build before = .ok root → motive before root →
      Registration.ofKey entry.1 = .ok r →
      ((root.at? r.place).getD (Endpoint.new r.place.text)).withRoutes r.methods entry.2 r.vars =
        .ok e → motive (before ++ [entry]) (root.put r.place e))
    {entries : List (String × H)} {root : Node H} (h : build entries = .ok root) :
    motive entries root := by
  induction entries using List.reverseRecOn generalizing root with
  | nil =>
    cases h
    exact nil
  | append_singleton before entry ih =>
    rw [build_concat] at h
    obtain ⟨root', hb, hadd⟩ := bind_eq_ok_iff.1 h
    obtain ⟨r, e, hr, he, rfl⟩ := Node.addEntry_eq_ok_iff.1 hadd
    exact step before entry root' r e hb (ih hb) hr he

/-! ## When there is a trie -/

/-- Building goes on from a trie exactly when all keys can be read and no slot is bound twice. -/
theorem Node.Holds.exists_foldlM_iff {root : Node H} {bs : List (Slot × Route H)}
    (hroot : root.Holds bs) {entries : List (String × H)} :
    (∃ root', entries.foldlM Node.addEntry root = .ok root') ↔
      (∀ entry ∈ entries, ∃ r, Registration.ofKey entry.1 = .ok r) ∧
        (Entries.keys (bs ++ bindings entries)).Nodup := by
  constructor
  · rintro ⟨root', h⟩
    exact ⟨exists_ofKey_of_foldlM h, (hroot.foldlM_addEntry h).nodup⟩
  · rintro ⟨hkeys, hnd⟩
    induction entries generalizing root bs with
    | nil => exact ⟨root, rfl⟩
    | cons entry rest ih =>
      obtain ⟨r, hr⟩ := hkeys entry List.mem_cons_self
      have hsplit : bs ++ bindings (entry :: rest) = bs ++ r.bindings entry.2 ++ bindings rest := by
        rw [bindings, List.flatMap_cons, entryBindings_of_ofKey hr, List.append_assoc]
        rfl
      rw [hsplit] at hnd
      -- the slots of the entry are new, because nothing is repeated up to here
      have hfree : firstTaken (Entries.keys bs) r.slots = none := by
        rw [Entries.keys_append, Entries.keys_append, Registration.keys_bindings] at hnd
        obtain ⟨-, hslots, hdisjoint⟩ := List.nodup_append.1 (List.nodup_append.1 hnd).1
        exact firstTaken_eq_none_iff.2 ⟨hslots, fun s hs hb => hdisjoint s hb s hs rfl⟩
      obtain ⟨next, hnext, hholds⟩ :=
        hroot.register_eq_ok (Registration.readable_of_ofKey hr) hfree entry.2
      obtain ⟨root', hroot'⟩ :=
        ih hholds (fun e he => hkeys e (List.mem_cons_of_mem entry he)) hnd
      refine ⟨root', ?_⟩
      rw [List.foldlM_cons, Node.addEntry, hr]
      simp only [bind, Except.bind]
      rw [hnext]
      exact hroot'

/-- **A list of entries can be built exactly when all keys can be read and no slot is bound
twice**, in whatever order the entries stand. -/
theorem exists_build_iff {entries : List (String × H)} :
    (∃ root, build entries = .ok root) ↔
      (∀ entry ∈ entries, ∃ r, Registration.ofKey entry.1 = .ok r) ∧
        (Entries.keys (bindings entries)).Nodup :=
  Node.Holds.empty.exists_foldlM_iff

/-! ## The places of the entries -/

/-- The place of an entry; none if its key cannot be read. -/
def entryPlace? (entry : String × H) : Option Place :=
  (Registration.ofKey entry.1).toOption.map Registration.place

/-- The places of some entries in their order. -/
def places (entries : List (String × H)) : List Place := entries.filterMap entryPlace?

theorem entryPlace?_of_ofKey {entry : String × H} {r : Registration}
    (h : Registration.ofKey entry.1 = .ok r) : entryPlace? entry = some r.place := by
  rw [entryPlace?, h]
  rfl

theorem mem_places {entries : List (String × H)} {p : Place} : p ∈ places entries ↔
    ∃ entry ∈ entries, ∃ r, Registration.ofKey entry.1 = .ok r ∧ r.place = p := by
  rw [places, List.mem_filterMap]
  refine exists_congr fun entry => and_congr_right fun _ => ?_
  rw [entryPlace?]
  cases Registration.ofKey entry.1 with
  | error e => simp [Except.toOption]
  | ok r => simp [Except.toOption]

theorem places_concat {before : List (String × H)} {entry : String × H} {r : Registration}
    (h : Registration.ofKey entry.1 = .ok r) :
    places (before ++ [entry]) = places before ++ [r.place] := by
  rw [places, List.filterMap_append, List.filterMap_cons, entryPlace?_of_ofKey h]
  rfl

/-! ## First appearance -/

theorem nodup_eraseDups {α : Type} [DecidableEq α] (l : List α) : l.eraseDups.Nodup := by
  induction l using List.reverseRecOn with
  | nil => exact List.nodup_nil
  | append_singleton l a ih =>
    rw [eraseDups_concat]
    split
    · exact ih
    · rename_i h
      refine List.nodup_append.2 ⟨ih, by simp, fun x hx y hy => ?_⟩
      rw [List.mem_singleton.1 hy]
      exact fun e => h (e ▸ hx)

/-- The labels by which the ways to some places go on below some segments, in the order of their
first appearance. -/
def labelsAt (ps : List Place) (s : List Segment) : List Edge :=
  (ps.filterMap fun p => p.edgeAt? s).eraseDups

theorem nodup_labelsAt (ps : List Place) (s : List Segment) : (labelsAt ps s).Nodup :=
  nodup_eraseDups _

theorem mem_labelsAt {ps : List Place} {s : List Segment} {k : Edge} :
    k ∈ labelsAt ps s ↔ ∃ p ∈ ps, p.edgeAt? s = some k := by
  rw [labelsAt, List.mem_eraseDups, List.mem_filterMap]

theorem labelsAt_concat (ps : List Place) (p : Place) (s : List Segment) :
    labelsAt (ps ++ [p]) s = Node.addLabel (labelsAt ps s) (p.edgeAt? s) := by
  rw [labelsAt, List.filterMap_append]
  cases hk : p.edgeAt? s with
  | none => simp [hk, labelsAt, Node.addLabel]
  | some k => simp [hk, eraseDups_concat, labelsAt, Node.addLabel]

/-! ## The nodes and their labels -/

variable {entries : List (String × H)} {root : Node H}

/-- The trie of some entries has no loose ends. -/
theorem trim_of_build (h : build entries = .ok root) : root.Trim :=
  build_induction (motive := fun _ root => root.Trim) .empty
    (fun _ _ _ r e _ ih _ _ => ih.put r.place e) h

/-- The nodes of the trie are those on the ways to the places. -/
theorem isSome_find?_build (h : build entries = .ok root) (s : List Segment) :
    (root.find? s).isSome = true ↔ s = [] ∨ ∃ p ∈ places entries, s <+: p.segments := by
  refine build_induction (motive := fun entries root =>
    (root.find? s).isSome = true ↔ s = [] ∨ ∃ p ∈ places entries, s <+: p.segments) ?_ ?_ h
  · cases s with
    | nil => simp [Node.find?_nil]
    | cons a s => simp [Node.find?_empty_cons, places]
  · intro before entry root r e _ ih hr _
    rw [Node.isSome_find?_put, ih, places_concat hr]
    simp only [List.mem_append, List.mem_singleton]
    constructor
    · rintro (hs | hs | ⟨p, hp, hs⟩)
      · exact .inr ⟨r.place, .inr rfl, hs⟩
      · exact .inl hs
      · exact .inr ⟨p, .inl hp, hs⟩
    · rintro (hs | ⟨p, hp | rfl, hs⟩)
      · exact .inr (.inl hs)
      · exact .inr (.inr ⟨p, hp, hs⟩)
      · exact .inl hs

/-- **The labels at a node stand in the order in which the entries first need them.** -/
theorem edges_build (h : build entries = .ok root) (s : List Segment) :
    root.edges s = labelsAt (places entries) s := by
  refine build_induction (motive := fun entries root =>
    root.edges s = labelsAt (places entries) s) ?_ ?_ h
  · cases s <;> rfl
  · intro before entry root r e _ ih hr _
    rw [Node.edges_put, ih, places_concat hr, labelsAt_concat]

end RouteTrie
