import RouteTrie.Proofs.Build.Extensional
import RouteTrie.Proofs.Path.Append

/-!
# Tries below a path

Entries can be put below a path, each with the methods and the handler that it has.  Nothing new
can clash there, and the trie that is built from them has every route where the trie of the entries
has it, but further down: all of them stand behind the segments of the path, and nothing stands
anywhere else.  The fallback route has no path and stays where it is.

## What is here

* `Place.below`, `Slot.below`, `Route.below`, `Registration.below`: what becomes of places, slots,
  routes and registrations.
* `EntryBelow`, `bindings_below`: the bindings of entries that are put below a path.
* `exists_build_below`: such entries can be built if the entries can.
* `nodup_keys_of_build`: entries that can be built have different keys.
* `Node.MountedAt`, `Node.Holds.mountedAt`: what the trie answers below the path, beside it, and at
  the fallback.
-/

set_option autoImplicit false

namespace RouteTrie

variable {H : Type}

/-! ## Moving places -/

/-- A place below a path.  A fallback stays where it is. -/
def Place.below (p : Path) : Place → Place
  | path segments => path (p.segments ++ segments)
  | fallback segments => fallback segments

theorem Place.below_injective (p : Path) : Function.Injective (Place.below p) := by
  intro a b h
  cases a with
  | path s =>
    cases b with
    | path t => exact congrArg path (List.append_cancel_left (path.inj h))
    | fallback t => cases h
  | fallback s =>
    cases b with
    | path t => cases h
    | fallback t => exact h

/-- A slot below a path, for the same method. -/
def Slot.below (p : Path) (s : Slot) : Slot := ⟨s.place.below p, s.method⟩

theorem Slot.below_injective (p : Path) : Function.Injective (Slot.below p) := by
  intro s t h
  obtain ⟨hplace, hmethod⟩ := Slot.mk.inj h
  rw [Slot.mk.injEq]
  exact ⟨Place.below_injective p hplace, hmethod⟩

/-- The route that stands at a place, when the place is put below a path: at the end of a path it
gets the variables of `p`. -/
def Route.below (p : Path) (place : Place) (r : Route H) : Route H :=
  match place with
  | .path _ => ⟨r.handler, r.vars.below p⟩
  | .fallback _ => r

/-- A slot and its route below a path. -/
def bindingBelow (p : Path) (b : Slot × Route H) : Slot × Route H :=
  (b.1.below p, b.2.below p b.1.place)

/-- What is bound at a fallback is bound there still. -/
theorem routesAt_fallback_below (p : Path) (segments : List Segment) (bs : List (Slot × Route H)) :
    routesAt (.fallback segments) (bs.map (bindingBelow p)) = routesAt (.fallback segments) bs := by
  rw [routesAt, routesAt, List.filterMap_map]
  refine List.filterMap_congr fun b _ => ?_
  obtain ⟨⟨place, M⟩, r⟩ := b
  cases place <;> rfl

/-! ## Moving entries -/

/-- A registration below a base path, which has been read as `p`. -/
def Registration.below (base : String) (p : Path) : Registration → Registration
  | fallback => fallback
  | route methods written path => route methods (Table.fullPath base written) (p.append path)

theorem Registration.bindings_below (base : String) (p : Path) (r : Registration) (handler : H) :
    (r.below base p).bindings handler = (r.bindings handler).map (bindingBelow p) := by
  cases r with
  | fallback => rfl
  | route methods written path =>
    simp only [bindings, slots, List.map_map]
    rfl

/-- An entry that registers what another one does, below a base path. -/
structure EntryBelow (base : String) (p : Path) (entry entry' : String × H) : Prop where
  /-- The handler is the same. -/
  handler : entry'.2 = entry.2
  /-- The one registration stands below the base path where the other one stands. -/
  registers : ∃ r, Registration.ofKey entry.1 = .ok r ∧
    Registration.ofKey entry'.1 = .ok (r.below base p)

section Below

variable {base : String} {p : Path} {α : Type} {l : List α} {f g : α → String × H}

/-- Entries that are put below a path bind the slots below it. -/
theorem bindings_below (h : ∀ a ∈ l, EntryBelow base p (f a) (g a)) :
    bindings (l.map g) = (bindings (l.map f)).map (bindingBelow p) := by
  rw [bindings, bindings, List.flatMap_map, List.flatMap_map, List.map_flatMap]
  refine List.flatMap_congr fun a ha => ?_
  obtain ⟨r, hr, hr'⟩ := (h a ha).registers
  rw [entryBindings_of_ofKey hr, entryBindings_of_ofKey hr', (h a ha).handler,
    Registration.bindings_below]

/-- **Nothing clashes below a path** that does not clash without it. -/
theorem exists_build_below (h : ∀ a ∈ l, EntryBelow base p (f a) (g a))
    (hbuild : ∃ root, build (l.map f) = .ok root) : ∃ root, build (l.map g) = .ok root := by
  obtain ⟨-, hnd⟩ := exists_build_iff.1 hbuild
  refine exists_build_iff.2 ⟨fun entry hmem => ?_, ?_⟩
  · obtain ⟨a, ha, rfl⟩ := List.mem_map.1 hmem
    obtain ⟨r, -, hr⟩ := (h a ha).registers
    exact ⟨_, hr⟩
  · have hkeys : Entries.keys (bindings (l.map g)) =
        (Entries.keys (bindings (l.map f))).map (Slot.below p) := by
      rw [bindings_below h, Entries.keys, Entries.keys, List.map_map, List.map_map]
      rfl
    rw [hkeys]
    exact hnd.map (Slot.below_injective p)

end Below

/-- Entries that can be built have different keys, since every key takes a slot. -/
theorem nodup_keys_of_build {entries : List (String × H)} {root : Node H}
    (h : build entries = .ok root) : (Entries.keys entries).Nodup := by
  rw [Entries.keys, List.Nodup, List.pairwise_map, List.pairwise_iff_getElem]
  intro i j hi hj hlt hkey
  obtain ⟨r, hr⟩ := exists_ofKey_of_foldlM h entries[i] (List.getElem_mem hi)
  obtain ⟨m, ms, hms⟩ :=
    List.exists_cons_of_ne_nil (Registration.readable_of_ofKey hr).methods_ne_nil
  have hfirst : ∀ entry : String × H, Registration.ofKey entry.1 = .ok r →
      (entryBindings entry)[0]? = some (⟨r.place, Text.uppercase m⟩, ⟨entry.2, r.vars⟩) := by
    intro entry hentry
    rw [entryBindings_of_ofKey hentry, Registration.bindings, Registration.slots, hms]
    rfl
  have heq := (Node.Holds.of_build h).index_eq (List.getElem?_eq_getElem hi)
    (List.getElem?_eq_getElem hj) (hfirst _ hr) (hfirst _ (hkey ▸ hr))
  exact Nat.ne_of_lt hlt heq.1

/-! ## The trie below the path -/

namespace Node.Holds

variable {root root' : Node H} {bs : List (Slot × Route H)} {p : Path}

/-- **Below the path** the trie has the routes that the other trie has without it. -/
theorem route?_below (hroot : root.Holds bs) (hroot' : root'.Holds (bs.map (bindingBelow p)))
    (s : Slot) : root'.route? (s.below p) = (root.route? s).map (Route.below p s.place) := by
  refine Option.ext fun r' => ?_
  rw [hroot'.route?_eq_some_iff, List.mem_map, Option.map_eq_some_iff]
  constructor
  · rintro ⟨⟨t, r⟩, hmem, heq⟩
    obtain ⟨hslot, rfl⟩ := Prod.mk.inj heq
    obtain rfl := Slot.below_injective p hslot
    exact ⟨r, hroot.route?_eq_some_iff.2 hmem, rfl⟩
  · rintro ⟨r, hr, rfl⟩
    exact ⟨(s, r), hroot.route?_eq_some_iff.1 hr, rfl⟩

/-- **Beside the path** the trie has no endpoint. -/
theorem at?_of_not_prefix (hroot' : root'.Holds (bs.map (bindingBelow p))) {segments : List Segment}
    (h : ¬p.segments <+: segments) : root'.at? (.path segments) = none := by
  rw [hroot'.at?_eq_none, List.eq_nil_iff_forall_not_mem]
  rintro ⟨M, r⟩ hmem
  obtain ⟨⟨⟨place, N⟩, r'⟩, -, heq⟩ := List.mem_map.1 (mem_routesAt.1 hmem)
  have hplace : place.below p = .path segments := congrArg (fun b => b.1.place) heq
  cases place with
  | path s => exact h ⟨s, Place.path.inj hplace⟩
  | fallback s => cases hplace

/-- Tries that hold the same routes at a place have the same endpoint there. -/
theorem at?_congr {bs' : List (Slot × Route H)} (hroot : root.Holds bs) (hroot' : root'.Holds bs')
    {place : Place} (h : routesAt place bs = routesAt place bs') :
    root.at? place = root'.at? place := by
  cases he : root.at? place with
  | none => rw [eq_comm, hroot'.at?_eq_none, ← h, ← hroot.at?_eq_none, he]
  | some e =>
    cases he' : root'.at? place with
    | none =>
      rw [hroot'.at?_eq_none, ← h, ← hroot.at?_eq_none, he] at he'
      cases he'
    | some e' =>
      obtain ⟨path, routes⟩ := e
      obtain ⟨path', routes'⟩ := e'
      have hpath : path = path' := (hroot.path_eq _ _ he).trans (hroot'.path_eq _ _ he').symm
      have hroutes : routes = routes' := OrderedMap.ext <|
        (hroot.routes_eq _ _ he).trans (h.trans (hroot'.routes_eq _ _ he').symm)
      rw [hpath, hroutes]

/-- **The fallback** is that of the other trie. -/
theorem at?_fallback_below (hroot : root.Holds bs)
    (hroot' : root'.Holds (bs.map (bindingBelow p))) (segments : List Segment) :
    root'.at? (.fallback segments) = root.at? (.fallback segments) :=
  hroot'.at?_congr hroot (routesAt_fallback_below p segments bs)

end Node.Holds

/-- The trie `root'` is `root`, mounted at the end of the path `p`. -/
structure Node.MountedAt (root : Node H) (p : Path) (root' : Node H) : Prop where
  /-- Behind the segments of the path a method has the handler that it has without them. -/
  handler : ∀ (segments : List Segment) (method : String),
    (root'.answer? (p.segments ++ segments) fun e => e.route? method) =
      root.answer? segments fun e => e.route? method
  /-- Its variables stand as many segments later as there are in the path.  The variables of the
  path are added, but for those with a name that is used again. -/
  vars : ∀ (segments : List Segment) (method : String), Option.Rel
    (fun vars vars' => ∀ name, vars'.get? name =
      ((vars.get? name).map (p.segments.length + ·)).or (p.vars.get? name))
    (root.answer? segments fun e => (e.vars method).toOption)
    (root'.answer? (p.segments ++ segments) fun e => (e.vars method).toOption)
  /-- No other path has an endpoint. -/
  beside : ∀ segments : List Segment, ¬p.segments <+: segments →
    (root'.find? segments).bind Node.endpoint? = none
  /-- The fallback endpoint is the same. -/
  fallback : root'.fallback? = root.fallback?

/-- **Tries of bindings that are put below a path** are mounted there. -/
theorem Node.Holds.mountedAt {root root' : Node H} {bs : List (Slot × Route H)} {p : Path}
    (hroot : root.Holds bs) (hroot' : root'.Holds (bs.map (bindingBelow p))) :
    root.MountedAt p root' := by
  have hroute : ∀ segments M, root'.route? ⟨.path (p.segments ++ segments), M⟩ =
      (root.route? ⟨.path segments, M⟩).map (Route.below p (.path segments)) :=
    fun segments M => hroot.route?_below hroot' ⟨.path segments, M⟩
  refine ⟨fun segments method => ?_, fun segments method => ?_, fun segments h => ?_,
    hroot.at?_fallback_below hroot' []⟩
  · rw [Node.answer?_handler, Node.answer?_handler, hroute, Option.map_map]
    rfl
  · rw [Node.answer?_vars, Node.answer?_vars, hroute]
    cases root.route? ⟨.path segments, Text.uppercase method⟩ with
    | none => exact .none
    | some r => exact .some fun name => VarMap.get?_below p r.vars name
  · exact hroot'.at?_of_not_prefix h

end RouteTrie
