import RouteTrie.Build
import RouteTrie.Proofs.Endpoint.Registration
import RouteTrie.Proofs.Key.Grammar
import RouteTrie.Proofs.Node.Upsert
import RouteTrie.Proofs.Path.Pattern

/-!
# The bindings of a list of entries

A list of entries can be read without a trie: every method of every entry binds one `Slot`, a method
at a place, to a route.  Building a trie is registering these bindings one after the other, and the
trie that results holds them and nothing else.

## What is here

* `Slot`, `Registration.slots`, `bindings`: what the entries ask for, as one flat list.
* `Node.Holds`: the invariant of building.  At every place the trie has the routes that are bound
  there, in their order, and it has no other endpoint.
* `Node.Holds.register_eq_error`, `Node.Holds.register_eq_ok`: what one registration does, told by
  the first of its slots that is taken.
* `Node.Holds.of_build`: the trie of some entries holds their bindings.
-/

set_option autoImplicit false

namespace RouteTrie

variable {H : Type}

/-! ## Slots -/

/-- How errors name a place. -/
def Place.text : Place → String
  | path segments => Path.slashed (segments.map Segment.text)
  | fallback _ => ""

/-- The places that keys lead to: the end of a path that can be read, and the fallback of the
root. -/
def Place.Readable : Place → Prop
  | path segments => ∃ p path, Path.parse p = .ok path ∧ path.segments = segments
  | fallback segments => segments = []

/-- A method at a place. -/
structure Slot where
  /-- Where the method is registered. -/
  place : Place
  /-- The method in upper case. -/
  method : String
  deriving DecidableEq, Repr

/-- The pair of method and normalized path that a check of the keys keeps of a slot. -/
def Slot.claim (s : Slot) : String × String := (s.method, s.place.text)

theorem Path.slashed_ne_empty (texts : List String) : Path.slashed texts ≠ "" := by
  intro h
  have hl := congrArg String.toList h
  rw [Path.slashed, String.toList_ofList] at hl
  cases hl

/-- Places that keys lead to are told apart by their texts. -/
theorem Place.text_inj {p q : Place} (hp : p.Readable) (hq : q.Readable) (h : p.text = q.text) :
    p = q := by
  match p, q, hp, hq with
  | .fallback _, .fallback _, rfl, rfl => rfl
  | .fallback _, .path _, _, _ => exact absurd h.symm (Path.slashed_ne_empty _)
  | .path _, .fallback _, _, _ => exact absurd h (Path.slashed_ne_empty _)
  | .path _, .path _, ⟨_, _, h₁, rfl⟩, ⟨_, _, h₂, rfl⟩ =>
    exact congrArg Place.path ((Path.pattern_inj h₁ h₂).1 h)

theorem Slot.claim_inj {s t : Slot} (hs : s.place.Readable) (ht : t.place.Readable)
    (h : s.claim = t.claim) : s = t := by
  obtain ⟨p, M⟩ := s
  obtain ⟨q, N⟩ := t
  obtain ⟨hM, htext⟩ := Prod.mk.inj h
  rw [Slot.mk.injEq]
  exact ⟨Place.text_inj hs ht htext, hM⟩

theorem uppercase_fallbackMethod : Text.uppercase fallbackMethod = "" := by decide

namespace Registration

/-- Where the registration stands. -/
def place : Registration → Place
  | fallback => .fallback []
  | route _ _ path => .path path.segments

/-- The methods as written. -/
def methods : Registration → List String
  | fallback => [fallbackMethod]
  | route methods _ _ => methods

/-- The variables of every method. -/
def vars : Registration → VarMap
  | fallback => ∅
  | route _ _ path => path.vars

/-- The slots that the registration takes. -/
def slots (r : Registration) : List Slot := r.methods.map fun m => ⟨r.place, Text.uppercase m⟩

/-- The slots with the route that each of them gets. -/
def bindings (r : Registration) (handler : H) : List (Slot × Route H) :=
  r.slots.map fun s => (s, ⟨handler, r.vars⟩)

theorem claims_eq (r : Registration) : r.claims = r.slots.map Slot.claim := by
  cases r with
  | fallback => rfl
  | route methods written path => rw [claims, slots, List.map_map]; rfl

theorem keys_bindings (r : Registration) (handler : H) :
    Entries.keys (r.bindings handler) = r.slots := by
  simp [Entries.keys, bindings, Function.comp_def]

theorem place_of_mem_slots {r : Registration} {s : Slot} (h : s ∈ r.slots) : s.place = r.place := by
  obtain ⟨m, -, rfl⟩ := List.mem_map.1 h
  rfl

theorem ofKey_eq_fallback_iff {key : String} :
    ofKey key = .ok .fallback ↔ key = fallbackKey := by
  rw [← RouteKey.parse_eq_fallback_iff, ofKey]
  split
  · simp_all
  · simp_all
  · rename_i hk
    rw [hk]
    split <;> simp

theorem ofKey_eq_route_iff {key written : String} {methods : List String}
    {path : Path} :
    ofKey key = .ok (.route methods written path) ↔
      RouteKey.parse key = .ok (.route methods written) ∧ Path.parse written = .ok path := by
  rw [ofKey]
  split
  · simp_all
  · simp_all
  · rename_i ms w hk
    rw [hk]
    cases hw : Path.parse w with
    | error e =>
      constructor
      · intro h
        cases h
      · rintro ⟨hr, hp⟩
        cases hr
        rw [hw] at hp
        cases hp
    | ok q =>
      constructor
      · intro h
        cases h
        exact ⟨rfl, hw⟩
      · rintro ⟨hr, hp⟩
        cases hr
        rw [hw] at hp
        cases hp
        rfl

/-- A key that cannot be understood cannot be read. -/
theorem parse_of_ofKey_eq_error {key : String} {e : RouteError}
    (h : ofKey key = .error e) : RouteKey.parse key = .error e := by
  rw [ofKey] at h
  split at h
  · rename_i hk
    cases h
    exact hk
  · cases h
  · rename_i hk
    obtain ⟨path, hpath⟩ := Path.parse_eq_ok (RouteKey.head?_of_parse hk)
    rw [hpath] at h
    cases h

/-- What is known of a registration that comes from a key. -/
structure Readable (r : Registration) : Prop where
  /-- There is a method. -/
  methods_ne_nil : r.methods ≠ []
  /-- The place is one that keys lead to. -/
  place : r.place.Readable

theorem readable_of_ofKey {key : String} {r : Registration} (h : ofKey key = .ok r) :
    r.Readable := by
  cases r with
  | fallback => exact ⟨by simp [methods], rfl⟩
  | route methods written path =>
    obtain ⟨hkey, hpath⟩ := ofKey_eq_route_iff.1 h
    exact ⟨RouteKey.methods_ne_nil_of_parse hkey, written, path, hpath, rfl⟩

end Registration

/-- The bindings of one entry; an entry whose key cannot be read has none. -/
def entryBindings (entry : String × H) : List (Slot × Route H) :=
  match Registration.ofKey entry.1 with
  | .ok r => r.bindings entry.2
  | .error _ => []

/-- The bindings of some entries in their order. -/
def bindings (entries : List (String × H)) : List (Slot × Route H) := entries.flatMap entryBindings

theorem entryBindings_of_ofKey {entry : String × H} {r : Registration}
    (h : Registration.ofKey entry.1 = .ok r) : entryBindings entry = r.bindings entry.2 := by
  rw [entryBindings, h]

/-! ## The bindings at one place -/

/-- The routes bound at a place, by method. -/
def routesAt (p : Place) (bs : List (Slot × Route H)) : List (String × Route H) :=
  bs.filterMap fun b => if b.1.place = p then some (b.1.method, b.2) else none

theorem routesAt_append (p : Place) (bs bs' : List (Slot × Route H)) :
    routesAt p (bs ++ bs') = routesAt p bs ++ routesAt p bs' :=
  List.filterMap_append

theorem mem_routesAt {p : Place} {bs : List (Slot × Route H)} {M : String} {r : Route H} :
    (M, r) ∈ routesAt p bs ↔ (⟨p, M⟩, r) ∈ bs := by
  rw [routesAt, List.mem_filterMap]
  constructor
  · rintro ⟨⟨⟨q, N⟩, r'⟩, hb, h⟩
    split at h
    · rename_i hq
      cases h
      rw [← show q = p from hq]
      exact hb
    · cases h
  · intro hb
    exact ⟨_, hb, if_pos rfl⟩

theorem mem_keys_routesAt {p : Place} {bs : List (Slot × Route H)} {M : String} :
    M ∈ Entries.keys (routesAt p bs) ↔ ⟨p, M⟩ ∈ Entries.keys bs := by
  constructor
  · intro h
    obtain ⟨⟨N, r⟩, hr, rfl⟩ := List.mem_map.1 h
    exact Entries.mem_keys_of_mem (mem_routesAt.1 hr)
  · intro h
    obtain ⟨⟨s, r⟩, hr, rfl⟩ := List.mem_map.1 h
    exact Entries.mem_keys_of_mem (mem_routesAt.2 hr)

theorem routesAt_bindings_self (r : Registration) (handler : H) :
    routesAt r.place (r.bindings handler) =
      r.methods.map fun m => (Text.uppercase m, ⟨handler, r.vars⟩) := by
  rw [routesAt, Registration.bindings, Registration.slots, List.map_map, List.filterMap_map,
    ← List.filterMap_eq_map]
  congr 1
  exact funext fun m => if_pos rfl

theorem routesAt_bindings_of_ne {r : Registration} {p : Place} (h : r.place ≠ p) (handler : H) :
    routesAt p (r.bindings handler) = [] := by
  rw [routesAt, List.filterMap_eq_nil_iff]
  intro b hb
  obtain ⟨s, hs, rfl⟩ := List.mem_map.1 hb
  exact if_neg fun hp => h ((Registration.place_of_mem_slots hs).symm.trans hp)

/-! ## Registering -/

/-- **The invariant of building.**  Nothing is bound twice, and at every place the trie has the
routes that are bound there and no other endpoint. -/
structure Node.Holds (root : Node H) (bs : List (Slot × Route H)) : Prop where
  /-- No slot is bound twice. -/
  nodup : (Entries.keys bs).Nodup
  /-- There are only places that keys lead to. -/
  readable : ∀ s ∈ Entries.keys bs, s.place.Readable
  /-- An endpoint is missing where nothing is bound. -/
  at?_eq_none : ∀ p, root.at? p = none ↔ routesAt p bs = []
  /-- An endpoint carries the text of its place. -/
  path_eq : ∀ p e, root.at? p = some e → e.path = p.text
  /-- An endpoint has the routes bound at its place, in order. -/
  routes_eq : ∀ p e, root.at? p = some e → e.routes.entries = routesAt p bs

namespace Node

/-- Registering reads the endpoint at a place, adds the methods and writes it back. -/
theorem register_eq (root : Node H) (r : Registration) (handler : H) :
    root.register r handler =
      (((root.at? r.place).getD (Endpoint.new r.place.text)).withRoutes r.methods handler
        r.vars).map (root.put r.place) := by
  cases r with
  | fallback =>
    rw [register, upsertEndpoint_eq, Registration.methods, Endpoint.withRoutes_singleton]
    rfl
  | route methods written path =>
    rw [register, upsertEndpoint_eq]
    rfl

namespace Holds

variable {root : Node H} {bs : List (Slot × Route H)}

theorem empty : Node.Holds (Node.empty : Node H) [] where
  nodup := List.nodup_nil
  readable := by simp
  at?_eq_none p := by simp [Node.at?_empty, routesAt]
  path_eq p e h := by simp [Node.at?_empty] at h
  routes_eq p e h := by simp [Node.at?_empty] at h

theorem routesAt_ne_nil (hroot : root.Holds bs) {p : Place} {e : Endpoint H}
    (he : root.at? p = some e) : routesAt p bs ≠ [] := by
  rw [Ne, ← hroot.at?_eq_none, he]
  exact Option.some_ne_none e

/-- The endpoint that a registration starts from, which may be a new one. -/
theorem getD_new (hroot : root.Holds bs) (p : Place) :
    ((root.at? p).getD (Endpoint.new p.text)).path = p.text ∧
      ((root.at? p).getD (Endpoint.new p.text)).routes.entries = routesAt p bs := by
  cases he : root.at? p with
  | none =>
    rw [Option.getD_none, (hroot.at?_eq_none p).1 he]
    exact ⟨rfl, rfl⟩
  | some e => exact ⟨hroot.path_eq p e he, hroot.routes_eq p e he⟩

/-- Methods that are taken at an endpoint are slots that are taken in the trie. -/
theorem firstTaken_slots (hroot : root.Holds bs) (r : Registration) :
    firstTaken (Entries.keys bs) r.slots =
      (firstTaken ((root.at? r.place).getD (Endpoint.new r.place.text)).methods
        (r.methods.map Text.uppercase)).map (Slot.mk r.place) := by
  have hmem : ∀ s ∈ r.slots, (s ∈ Entries.keys bs ↔
      s ∈ ((root.at? r.place).getD (Endpoint.new r.place.text)).methods.map (Slot.mk r.place)) := by
    intro s hs
    obtain ⟨m, -, rfl⟩ := List.mem_map.1 hs
    rw [Endpoint.methods, OrderedMap.keys, (hroot.getD_new r.place).2, ← mem_keys_routesAt]
    constructor
    · exact fun h => List.mem_map_of_mem h
    · intro h
      obtain ⟨N, hN, heq⟩ := List.mem_map.1 h
      rw [← (Slot.mk.inj heq).2]
      exact hN
  rw [firstTaken_congr hmem, ← firstTaken_map fun x _ y _ h => (Slot.mk.inj h).2,
    Registration.slots, List.map_map]
  rfl

/-- **A registration of which a slot is taken** is refused, and the slot is named. -/
theorem register_eq_error (hroot : root.Holds bs) {r : Registration} {s : Slot}
    (hs : firstTaken (Entries.keys bs) r.slots = some s) (handler : H) :
    root.register r handler = .error (.duplicateRoute s.claim.1 s.claim.2) := by
  rw [hroot.firstTaken_slots, Option.map_eq_some_iff] at hs
  obtain ⟨M, hM, rfl⟩ := hs
  rw [register_eq, Endpoint.withRoutes_eq_error hM, (hroot.getD_new r.place).1]
  rfl

/-- **A registration of which no slot is taken** succeeds, and its bindings are added. -/
theorem register_eq_ok (hroot : root.Holds bs) {r : Registration} (hr : r.Readable)
    (hfree : firstTaken (Entries.keys bs) r.slots = none) (handler : H) :
    ∃ root', root.register r handler = .ok root' ∧ root'.Holds (bs ++ r.bindings handler) := by
  have hslots := firstTaken_eq_none_iff.1 hfree
  rw [hroot.firstTaken_slots, Option.map_eq_none_iff] at hfree
  obtain ⟨e, he, hpath, hroutes⟩ := Endpoint.withRoutes_eq_ok hfree handler r.vars
  rw [(hroot.getD_new r.place).1] at hpath
  rw [(hroot.getD_new r.place).2, ← routesAt_bindings_self, ← routesAt_append] at hroutes
  have hne : routesAt r.place (bs ++ r.bindings handler) ≠ [] := by
    rw [routesAt_append, routesAt_bindings_self]
    simp [hr.methods_ne_nil]
  have hother : ∀ p, r.place ≠ p → routesAt p (bs ++ r.bindings handler) = routesAt p bs := by
    intro p hp
    rw [routesAt_append, routesAt_bindings_of_ne hp, List.append_nil]
  -- the place of the registration has the new endpoint, and all other places are as before
  refine ⟨root.put r.place e, by rw [register_eq, he]; rfl, ?_, ?_, ?_, ?_, ?_⟩
  · rw [Entries.keys_append, Registration.keys_bindings]
    refine List.nodup_append.2 ⟨hroot.nodup, hslots.1, fun s hs t ht => ?_⟩
    rintro rfl
    exact hslots.2 s ht hs
  · intro s hs
    rw [Entries.keys_append, Registration.keys_bindings] at hs
    rcases List.mem_append.1 hs with hs | hs
    · exact hroot.readable s hs
    · rw [Registration.place_of_mem_slots hs]
      exact hr.place
  · intro p
    rw [at?_put]
    split
    · rename_i hp
      subst hp
      exact ⟨fun h => absurd h (Option.some_ne_none e), fun h => absurd h hne⟩
    · rename_i hp
      rw [hother p hp]
      exact hroot.at?_eq_none p
  · intro p e' h
    rw [at?_put] at h
    split at h
    · rename_i hp
      cases h
      rw [← hp]
      exact hpath
    · exact hroot.path_eq p e' h
  · intro p e' h
    rw [at?_put] at h
    split at h
    · rename_i hp
      cases h
      rw [← hp]
      exact hroutes
    · rename_i hp
      rw [hother p hp]
      exact hroot.routes_eq p e' h

/-! ## Building -/

theorem addEntry (hroot : root.Holds bs) {entry : String × H} {root' : Node H}
    (h : root.addEntry entry = .ok root') : root'.Holds (bs ++ entryBindings entry) := by
  rw [Node.addEntry, bind_eq_ok_iff] at h
  obtain ⟨r, hr, hreg⟩ := h
  rw [entryBindings_of_ofKey hr]
  cases hs : firstTaken (Entries.keys bs) r.slots with
  | none =>
    obtain ⟨root'', hok, hholds⟩ :=
      hroot.register_eq_ok (Registration.readable_of_ofKey hr) hs entry.2
    rw [hreg] at hok
    cases hok
    exact hholds
  | some s =>
    rw [hroot.register_eq_error hs] at hreg
    cases hreg

/-- An entry that cannot be entered has a key that cannot be read, or asks for a slot that is
taken. -/
theorem addEntry_eq_error (hroot : root.Holds bs) {entry : String × H} {e : RouteError}
    (h : root.addEntry entry = .error e) :
    Registration.ofKey entry.1 = .error e ∨
      ∃ r s, Registration.ofKey entry.1 = .ok r ∧ firstTaken (Entries.keys bs) r.slots = some s ∧
        e = .duplicateRoute s.claim.1 s.claim.2 := by
  rw [Node.addEntry, bind_eq_error_iff] at h
  refine h.imp_right ?_
  rintro ⟨r, hr, hreg⟩
  cases hs : firstTaken (Entries.keys bs) r.slots with
  | none =>
    obtain ⟨root', hok, -⟩ := hroot.register_eq_ok (Registration.readable_of_ofKey hr) hs entry.2
    rw [hok] at hreg
    cases hreg
  | some s =>
    rw [hroot.register_eq_error hs] at hreg
    cases hreg
    exact ⟨r, s, hr, hs, rfl⟩

theorem foldlM_addEntry (hroot : root.Holds bs) {entries : List (String × H)} {root' : Node H}
    (h : entries.foldlM Node.addEntry root = .ok root') : root'.Holds (bs ++ bindings entries) := by
  induction entries generalizing root bs with
  | nil =>
    cases h
    rw [bindings, List.flatMap_nil, List.append_nil]
    exact hroot
  | cons entry rest ih =>
    rw [List.foldlM_cons, bind_eq_ok_iff] at h
    obtain ⟨next, hn, hrest⟩ := h
    have := ih (hroot.addEntry hn) hrest
    rwa [List.append_assoc] at this

/-- **The trie of some entries holds their bindings.** -/
theorem of_build {entries : List (String × H)} (h : build entries = .ok root) :
    root.Holds (bindings entries) :=
  Holds.empty.foldlM_addEntry h

end Holds

end Node

theorem exists_ofKey_of_foldlM {root root' : Node H} {entries : List (String × H)}
    (h : entries.foldlM Node.addEntry root = .ok root') :
    ∀ entry ∈ entries, ∃ r, Registration.ofKey entry.1 = .ok r := by
  induction entries generalizing root with
  | nil => simp
  | cons entry rest ih =>
    rw [List.foldlM_cons, bind_eq_ok_iff] at h
    obtain ⟨next, hn, hrest⟩ := h
    rw [Node.addEntry, bind_eq_ok_iff] at hn
    obtain ⟨r, hr, -⟩ := hn
    intro entry' hmem
    rcases List.mem_cons.1 hmem with rfl | hmem
    · exact ⟨r, hr⟩
    · exact ih hrest entry' hmem

end RouteTrie
