import RouteTrie.Proofs.Build.Growth
import RouteTrie.Proofs.Build.Lookup

/-!
# Where a build stops, and why

Entries are entered one after the other, so a build that fails has stopped at one of them: the
entries in front of it can be built, and whatever stands behind it does not matter.  The error says
what is wrong with this entry.  Either its key cannot be read, or one of its methods is registered
already, by an earlier entry or by an earlier position of the same key; then the first such method
is named as it is kept, in upper case, with the normalized path of the entry itself, whatever the
variables of the earlier entry are called.

## What is here

* `Registers`, `TakenBefore`: what stands at a position of an entry, and what stands in front of it.
* `Offence`: what can be wrong with an entry, and the error for it.
* `exists_stop_of_build`: a build that fails splits its entries.
* `takenBefore_iff`, `exists_takenBefore_of_firstTaken`: what stands in front of a position, told by
  the bindings.
* `offence_of_addEntry`: what is wrong with an entry that cannot be entered.
* `StopsAt`, `build_eq_error`: every build that fails stops at the first entry with an offence.
-/

set_option autoImplicit false

namespace RouteTrie

variable {H : Type}

/-! ## What is registered where -/

/-- Position `j` of entry `i` registers a slot. -/
inductive Registers (entries : List (String × H)) (i j : Nat) : Slot → Prop where
  /-- The fallback key has one position, with the empty method at the fallback of the root. -/
  | fallback {handler : H} (hentry : entries[i]? = some ("default", handler)) (hj : j = 0) :
      Registers entries i j ⟨.fallback [], ""⟩
  /-- The method that stands at the position, in upper case, on the segments of the path. -/
  | route {key written m : String} {handler : H} {methods : List String} {path : Path}
      (hentry : entries[i]? = some (key, handler))
      (hkey : RouteKey.parse key = .ok (.route methods written))
      (hpath : Path.parse written = .ok path) (hm : methods[j]? = some m) :
      Registers entries i j ⟨.path path.segments, Text.uppercase m⟩

/-- A slot is registered in front of position `j` of entry `i`. -/
def TakenBefore (entries : List (String × H)) (i j : Nat) (s : Slot) : Prop :=
  ∃ i' j', (i' < i ∨ i' = i ∧ j' < j) ∧ Registers entries i' j' s

/-- Two positions, of one entry or of two, register the same slot. -/
def RegisteredTwice (entries : List (String × H)) : Prop :=
  ∃ i j i' j' s, (i, j) ≠ (i', j') ∧ Registers entries i j s ∧ Registers entries i' j' s

/-- What is wrong with entry `i`, and the error for it. -/
inductive Offence (entries : List (String × H)) (i : Nat) : RouteError → Prop where
  /-- The key cannot be read. -/
  | unreadable {key : String} {handler : H} {e : RouteError}
      (hentry : entries[i]? = some (key, handler)) (hkey : RouteKey.parse key = .error e) :
      Offence entries i (.invalidRoute key)
  /-- There is a fallback route already. -/
  | fallback {i' : Nat} {handler handler' : H} (hentry : entries[i]? = some ("default", handler))
      (hlt : i' < i) (hentry' : entries[i']? = some ("default", handler')) :
      Offence entries i (.duplicateRoute "" "")
  /-- A method is registered already, and it is the first of its key that is. -/
  | method {j : Nat} {key written m : String} {handler : H} {methods : List String} {path : Path}
      (hentry : entries[i]? = some (key, handler))
      (hkey : RouteKey.parse key = .ok (.route methods written))
      (hpath : Path.parse written = .ok path) (hm : methods[j]? = some m)
      (htaken : TakenBefore entries i j ⟨.path path.segments, Text.uppercase m⟩)
      (hfirst : ∀ j' < j, ∀ m', methods[j']? = some m' →
        ¬TakenBefore entries i j' ⟨.path path.segments, Text.uppercase m'⟩) :
      Offence entries i (.duplicateRoute (Text.uppercase m) path.pattern)

variable {entries before after : List (String × H)} {entry : String × H} {i j : Nat} {s : Slot}
  {e : RouteError} {root : Node H}

/-- Registering at a position is having a slot there among the bindings of the entry. -/
theorem registers_iff : Registers entries i j s ↔
    ∃ entry, entries[i]? = some entry ∧ (Entries.keys (entryBindings entry))[j]? = some s := by
  simp only [Entries.keys, List.getElem?_map, Option.map_eq_some_iff, Prod.exists,
    exists_and_right, exists_eq_right]
  constructor
  · rintro (⟨hentry, rfl⟩ | ⟨hentry, hkey, hpath, hm⟩)
    · exact ⟨_, _, hentry, _, getElem?_entryBindings_fallback.2 ⟨rfl, rfl, rfl, rfl, rfl⟩⟩
    · exact ⟨_, _, hentry, _,
        getElem?_entryBindings_path.2 ⟨_, _, _, _, hkey, hpath, rfl, hm, rfl, rfl⟩⟩
  · obtain ⟨p, M⟩ := s
    rintro ⟨key, handler, hentry, route, hj⟩
    cases p with
    | fallback segments =>
      obtain ⟨rfl, rfl, rfl, rfl, -⟩ := getElem?_entryBindings_fallback.1 hj
      exact .fallback hentry rfl
    | path segments =>
      obtain ⟨methods, written, path, m, hkey, hpath, rfl, hm, rfl, -⟩ :=
        getElem?_entryBindings_path.1 hj
      exact .route hentry hkey hpath hm

/-- Only the fallback key registers at the fallback. -/
theorem exists_fallback_of_registers (h : Registers entries i j s) (hs : s.place = .fallback []) :
    ∃ handler, entries[i]? = some ("default", handler) := by
  cases h with
  | fallback hentry _ => exact ⟨_, hentry⟩
  | route => cases hs

/-- What stands behind an entry does not change what it registers. -/
theorem registers_append_iff (h : i < before.length) :
    Registers (before ++ after) i j s ↔ Registers before i j s := by
  simp only [registers_iff, List.getElem?_append_left h]

/-- The slots that are bound by some entries are those that are registered somewhere in them. -/
theorem mem_keys_bindings_iff :
    s ∈ Entries.keys (bindings before) ↔ ∃ i < before.length, ∃ j, Registers before i j s := by
  simp only [registers_iff, Entries.keys, bindings, List.map_flatMap, List.mem_flatMap]
  constructor
  · rintro ⟨entry, hmem, hs⟩
    obtain ⟨i, hi⟩ := List.mem_iff_getElem?.1 hmem
    obtain ⟨j, hj⟩ := List.mem_iff_getElem?.1 hs
    exact ⟨i, (List.getElem?_eq_some_iff.1 hi).1, j, entry, hi, hj⟩
  · rintro ⟨i, -, j, entry, hi, hj⟩
    exact ⟨entry, List.mem_of_getElem? hi, List.mem_of_getElem? hj⟩

/-- In front of a position of an entry stand the slots of the entries before it and the slots of its
own earlier positions. -/
theorem takenBefore_iff : TakenBefore (before ++ entry :: after) before.length j s ↔
    s ∈ Entries.keys (bindings before) ∨ s ∈ (Entries.keys (entryBindings entry)).take j := by
  have hself : (before ++ entry :: after)[before.length]? = some entry := by simp
  rw [mem_keys_bindings_iff, mem_take_iff_getElem?]
  constructor
  · rintro ⟨i, j', hlt | ⟨rfl, hlt⟩, h⟩
    · exact .inl ⟨i, hlt, j', (registers_append_iff hlt).1 h⟩
    · obtain ⟨entry', hentry, hj⟩ := registers_iff.1 h
      rw [hself] at hentry
      cases hentry
      exact .inr ⟨j', hlt, hj⟩
  · rintro (⟨i, hlt, j', h⟩ | ⟨j', hlt, hj⟩)
    · exact ⟨i, j', .inl hlt, (registers_append_iff hlt).2 h⟩
    · exact ⟨before.length, j', .inr ⟨rfl, hlt⟩, registers_iff.2 ⟨entry, hself, hj⟩⟩

/-! ## Stopping -/

/-- **A build that fails** has built the entries in front of one that cannot be entered. -/
theorem exists_stop_of_build (h : build entries = .error e) :
    ∃ before entry after root, entries = before ++ entry :: after ∧ build before = .ok root ∧
      root.addEntry entry = .error e := by
  induction entries using List.reverseRecOn with
  | nil => cases h
  | append_singleton before entry ih =>
    rw [build_concat] at h
    rcases bind_eq_error_iff.1 h with h | ⟨root, hroot, hadd⟩
    · obtain ⟨front, x, back, root, rfl, hstop⟩ := ih h
      exact ⟨front, x, back ++ [entry], root, by simp, hstop⟩
    · exact ⟨before, entry, [], root, rfl, hroot, hadd⟩

/-- A registration stops at the first of its methods that stands in front of its position. -/
theorem exists_takenBefore_of_firstTaken {r : Registration} (hr : Registration.ofKey entry.1 = .ok r)
    (hs : firstTaken (Entries.keys (bindings before)) r.slots = some s)
    (after : List (String × H)) :
    ∃ j m, r.methods[j]? = some m ∧ s = ⟨r.place, Text.uppercase m⟩ ∧
      TakenBefore (before ++ entry :: after) before.length j s ∧
      ∀ j' < j, ∀ m', r.methods[j']? = some m' →
        ¬TakenBefore (before ++ entry :: after) before.length j' ⟨r.place, Text.uppercase m'⟩ := by
  have hslots : Entries.keys (entryBindings entry) = r.slots := by
    rw [entryBindings_of_ofKey hr, Registration.keys_bindings]
  have hslot : ∀ {j : Nat} {s : Slot}, r.slots[j]? = some s ↔
      ∃ m, r.methods[j]? = some m ∧ ⟨r.place, Text.uppercase m⟩ = s := by
    intro j s
    rw [Registration.slots, List.getElem?_map, Option.map_eq_some_iff]
  obtain ⟨j, hj, hbefore, hfirst⟩ := firstTaken_eq_some hs
  obtain ⟨m, hm, rfl⟩ := hslot.1 hj
  refine ⟨j, m, hm, rfl, ?_, fun j' hlt m' hm' => ?_⟩
  · rwa [takenBefore_iff, hslots]
  · rw [takenBefore_iff, hslots]
    exact hfirst j' hlt _ (hslot.2 ⟨m', hm', rfl⟩)

/-- An entry that cannot be entered behind others has an offence. -/
theorem offence_of_addEntry (hroot : root.Holds (bindings before))
    (h : root.addEntry entry = .error e) (after : List (String × H)) :
    Offence (before ++ entry :: after) before.length e := by
  obtain ⟨key, handler⟩ := entry
  have hentry : (before ++ (key, handler) :: after)[before.length]? = some (key, handler) := by simp
  rcases hroot.addEntry_eq_error h with herr | ⟨r, s, hr, hs, rfl⟩
  · have hkey := Registration.parse_of_ofKey_eq_error herr
    rw [RouteKey.eq_of_parse_eq_error hkey]
    exact .unreadable hentry hkey
  · obtain ⟨j, m, hm, rfl, htaken, hfirst⟩ := exists_takenBefore_of_firstTaken hr hs after
    cases r with
    | fallback =>
      obtain rfl := Registration.ofKey_eq_fallback_iff.1 hr
      obtain ⟨rfl, rfl⟩ : j = 0 ∧ fallbackMethod = m := by
        simpa [Registration.methods, List.getElem?_singleton] using hm
      -- there is no position in front of the first, so it is an earlier entry
      obtain ⟨i', j', hlt | ⟨-, hlt⟩, hregisters⟩ := htaken
      · obtain ⟨handler', hentry'⟩ := exists_fallback_of_registers hregisters rfl
        rw [Slot.claim, uppercase_fallbackMethod]
        exact .fallback hentry hlt hentry'
      · exact absurd hlt (Nat.not_lt_zero j')
    | route methods written path =>
      obtain ⟨hkey, hpath⟩ := Registration.ofKey_eq_route_iff.1 hr
      exact .method hentry hkey hpath hm htaken hfirst

/-! ## The first offence -/

/-- Building stops at entry `i`: what stands in front of it can be built, and whatever reaches
further fails with the error for what is wrong with this entry. -/
structure StopsAt (entries : List (String × H)) (i : Nat) (e : RouteError) : Prop where
  /-- The entries in front can be built. -/
  before : ∀ k ≤ i, ∃ root, build (entries.take k) = .ok root
  /-- With this entry there is no trie any more. -/
  behind : ∀ k, i < k → build (entries.take k) = .error e
  /-- Something is wrong with the entry. -/
  offence : Offence entries i e

theorem Offence.lt_length (h : Offence entries i e) : i < entries.length := by
  cases h with
  | unreadable hentry => exact (List.getElem?_eq_some_iff.1 hentry).1
  | fallback hentry => exact (List.getElem?_eq_some_iff.1 hentry).1
  | method hentry => exact (List.getElem?_eq_some_iff.1 hentry).1

/-- Building stops at an entry that cannot be entered behind the others. -/
theorem stopsAt_of_addEntry (hroot : build before = .ok root) (hadd : root.addEntry entry = .error e)
    (after : List (String × H)) : StopsAt (before ++ entry :: after) before.length e := by
  refine ⟨fun k hk => ?_, fun k hk => ?_, offence_of_addEntry (.of_build hroot) hadd after⟩
  · rw [List.take_append_of_le_length hk]
    rw [← List.take_append_drop k before] at hroot
    exact exists_build_of_append hroot
  · obtain ⟨n, rfl⟩ := Nat.exists_eq_add_of_lt hk
    have htake : (before ++ entry :: after).take (before.length + n + 1) =
        (before ++ [entry]) ++ after.take n := by
      rw [Nat.add_assoc, List.take_length_add_append, List.take_succ_cons, List.append_assoc]
      rfl
    have hfail : build (before ++ [entry]) = .error e := by
      rw [build_concat, hroot]
      exact hadd
    rw [htake, build_append_of_eq_error hfail]

/-- **A build that fails stops at an entry.** -/
theorem exists_stopsAt (h : build entries = .error e) : ∃ i, StopsAt entries i e := by
  obtain ⟨before, entry, after, root, rfl, hroot, hadd⟩ := exists_stop_of_build h
  exact ⟨before.length, stopsAt_of_addEntry hroot hadd after⟩

/-- An entry with an offence has a key that cannot be read, or registers what is registered. -/
theorem Offence.unreadable_or_registeredTwice (h : Offence entries i e) :
    (∃ entry ∈ entries, ∃ e', RouteKey.parse entry.1 = .error e') ∨ RegisteredTwice entries := by
  cases h with
  | unreadable hentry hkey => exact .inl ⟨_, List.mem_of_getElem? hentry, _, hkey⟩
  | @fallback i' _ _ hentry hlt hentry' =>
    refine .inr ⟨i, 0, i', 0, _, fun heq => ?_, .fallback hentry rfl, .fallback hentry' rfl⟩
    exact absurd (Prod.mk.inj heq).1.symm (Nat.ne_of_lt hlt)
  | @method j _ _ _ _ _ _ hentry hkey hpath hm htaken hfirst =>
    obtain ⟨i', j', hlt, hregisters⟩ := htaken
    refine .inr ⟨i, j, i', j', _, ?_, .route hentry hkey hpath hm, hregisters⟩
    rintro ⟨⟩
    exact hlt.elim (Nat.lt_irrefl i) fun h => Nat.lt_irrefl j h.2

/-- In a list that can be built no two positions register the same slot. -/
theorem not_registeredTwice_of_build (h : build entries = .ok root) : ¬RegisteredTwice entries := by
  rintro ⟨i, j, i', j', s, hne, hs, hs'⟩
  obtain ⟨entry, hi, hj⟩ := registers_iff.1 hs
  obtain ⟨entry', hi', hj'⟩ := registers_iff.1 hs'
  obtain ⟨rfl, rfl⟩ := (Node.Holds.of_build h).index_eq_of_keys hi hi' hj hj'
  exact hne rfl

/-- **When a build fails, where and why.**  It fails if and only if a key cannot be read or two
positions register the same method on the same segments; then it stops at the first entry with an
offence, and the error is the one for that offence.  No other error comes up. -/
theorem build_eq_error (entries : List (String × H)) :
    ((∃ e, build entries = .error e) ↔
      (∃ entry ∈ entries, ∃ e, RouteKey.parse entry.1 = .error e) ∨ RegisteredTwice entries) ∧
    (∀ e, build entries = .error e → ∃ i, StopsAt entries i e) ∧
    ∀ e, build entries = .error e →
      (∀ path, e ≠ .invalidPath path) ∧ ∀ method path, e ≠ .unknownMethod method path := by
  refine ⟨⟨?_, fun h => ?_⟩, fun e he => exists_stopsAt he, fun e he => ?_⟩
  · rintro ⟨e, he⟩
    obtain ⟨i, hi⟩ := exists_stopsAt he
    exact hi.offence.unreadable_or_registeredTwice
  · cases hb : build entries with
    | error e => exact ⟨e, rfl⟩
    | ok root =>
      rcases h with ⟨entry, hmem, e, he⟩ | htwice
      · obtain ⟨r, hr⟩ := exists_ofKey_of_foldlM hb entry hmem
        rw [Registration.ofKey, he] at hr
        cases hr
      · exact absurd htwice (not_registeredTwice_of_build hb)
  · obtain ⟨i, hi⟩ := exists_stopsAt he
    cases hi.offence <;> simp

/-- The second method of the second key is taken, by an entry with other variable names; the third
key is never read. -/
theorem build_eq_error_users :
    ∃ i, StopsAt [("PUT /u/:id", 1), ("get|put /u/*", 2), ("users", 3)] i
      (.duplicateRoute "PUT" "/u/*") :=
  (build_eq_error _).2.1 _ rfl

end RouteTrie
