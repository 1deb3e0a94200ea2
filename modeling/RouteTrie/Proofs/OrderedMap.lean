import Mathlib.Data.Finset.Card
import Mathlib.Data.List.Induction
import Mathlib.Data.List.Nodup
import RouteTrie.Proofs.Rearrangement

/-!
# Maps that are filled from lists

A map is filled by inserting pairs one after the other, so the last value of every key counts.  The
pairs can as well be collected in a map of their own that is inserted in their place: the detour
loses nothing but what would be replaced in any case.

## What is here

* `OrderedMap.get?_insertMany`, `OrderedMap.get?_ofList`: a map that is filled from a list, read
  from the end of the list.
* `OrderedMap.size_ofList`: how many entries such a map has.
* `OrderedMap.insertMany_ofList`: pairs by way of another map.
* `OrderedMap.mapValues_ofList`: changing the values before or after the map is filled.
* `OrderedMap.ofList_beq`: lists of the entries of a map, perhaps repeated, fill an equal map.
-/

set_option autoImplicit false

namespace RouteTrie

namespace Entries

variable {α β : Type} [DecidableEq α]

theorem mem_of_get? {l : List (α × β)} {k : α} {v : β} (h : get? l k = some v) : (k, v) ∈ l := by
  induction l with
  | nil => cases h
  | cons p l ih =>
    obtain ⟨a, b⟩ := p
    rw [get?] at h
    split at h
    · rename_i ha
      cases h
      rw [ha]
      exact List.mem_cons_self
    · exact List.mem_cons_of_mem _ (ih h)

/-- Without repeated keys it does not matter from which end a list is read. -/
theorem get?_reverse {l : List (α × β)} (hnd : (keys l).Nodup) (k : α) :
    get? l.reverse k = get? l k := by
  have hnd' : (keys l.reverse).Nodup := by
    rw [keys, List.map_reverse]
    exact List.nodup_reverse.2 hnd
  refine Option.ext fun v => ?_
  rw [get?_eq_some_iff_mem hnd, get?_eq_some_iff_mem hnd', List.mem_reverse]

end Entries

namespace OrderedMap

variable {α β γ : Type}

/-! ## Other values -/

theorem keys_mapValues (f : β → γ) (m : OrderedMap α β) : (m.mapValues f).keys = m.keys := by
  simp [keys, mapValues, Entries.keys, Function.comp_def]

variable [DecidableEq α]

theorem mapValues_insert (f : β → γ) (m : OrderedMap α β) (k : α) (v : β) :
    (m.insert k v).mapValues f = (m.mapValues f).insert k (f v) := by
  obtain ⟨l, hl⟩ := m
  refine ext ?_
  simp only [mapValues, insert]
  clear hl
  induction l with
  | nil => rfl
  | cons p l ih =>
    obtain ⟨a, b⟩ := p
    rw [List.map_cons, Entries.insert, Entries.insert]
    split
    · rfl
    · rw [List.map_cons, ih]

theorem contains_mapValues (f : β → γ) (m : OrderedMap α β) (k : α) :
    (m.mapValues f).contains k = m.contains k := by
  rw [Bool.eq_iff_iff, contains_iff, contains_iff, keys_mapValues]

theorem get?_mapValues (f : β → γ) (m : OrderedMap α β) (k : α) :
    (m.mapValues f).get? k = (m.get? k).map f := by
  refine Option.ext fun w => ?_
  rw [get?_eq_some_iff_mem, Option.map_eq_some_iff]
  simp only [mapValues, List.mem_map, get?_eq_some_iff_mem, Prod.mk.injEq, Prod.exists]
  constructor
  · rintro ⟨a, v, hmem, rfl, rfl⟩
    exact ⟨v, hmem, rfl⟩
  · rintro ⟨v, hmem, rfl⟩
    exact ⟨k, v, hmem, rfl, rfl⟩

/-! ## Filling a map -/

theorem insertMany_cons (m : OrderedMap α β) (p : α × β) (pairs : List (α × β)) :
    m.insertMany (p :: pairs) = (m.insert p.1 p.2).insertMany pairs := rfl

theorem insertMany_append (m : OrderedMap α β) (pairs pairs' : List (α × β)) :
    m.insertMany (pairs ++ pairs') = (m.insertMany pairs).insertMany pairs' :=
  List.foldl_append

theorem insertMany_concat (m : OrderedMap α β) (pairs : List (α × β)) (p : α × β) :
    m.insertMany (pairs ++ [p]) = (m.insertMany pairs).insert p.1 p.2 :=
  insertMany_append m pairs [p]

/-- A map that is filled on has the last value of every key. -/
theorem get?_insertMany (m : OrderedMap α β) (pairs : List (α × β)) (k : α) :
    (m.insertMany pairs).get? k = (Entries.get? pairs.reverse k).or (m.get? k) := by
  induction pairs using List.reverseRecOn with
  | nil => rfl
  | append_singleton pairs p ih =>
    rw [insertMany_concat, get?_insert, ih, List.reverse_append, List.reverse_singleton,
      List.singleton_append, Entries.get?]
    split <;> rfl

/-- A map that is filled from a list has the last value of every key. -/
theorem get?_ofList (pairs : List (α × β)) (k : α) :
    (ofList pairs).get? k = Entries.get? pairs.reverse k := by
  rw [ofList, get?_insertMany, get?_empty, Option.or_none]

theorem mem_keys_ofList {pairs : List (α × β)} {k : α} :
    k ∈ (ofList pairs).keys ↔ k ∈ Entries.keys pairs := by
  rw [← not_iff_not, ← get?_eq_none_iff, get?_ofList, Entries.get?_eq_none_iff, Entries.keys,
    List.map_reverse, List.mem_reverse]
  rfl

theorem size_eq_card (m : OrderedMap α β) : m.size = m.keys.toFinset.card := by
  have hnd : m.keys.Nodup := m.nodup
  rw [List.toFinset_card_of_nodup hnd, keys, Entries.length_keys, size]

/-- A write of a new key adds an entry. -/
theorem size_insert (m : OrderedMap α β) (k : α) (v : β) :
    (m.insert k v).size = if k ∈ m.keys then m.size else m.size + 1 := by
  have hsize : ∀ n : OrderedMap α β, n.size = n.keys.length := fun n =>
    (Entries.length_keys n.entries).symm
  rw [hsize, hsize, keys_insert]
  split
  · rfl
  · exact List.length_append

/-- A map that is filled from a list has as many entries as the list has different keys. -/
theorem size_ofList (pairs : List (α × β)) :
    (ofList pairs).size = (Entries.keys pairs).toFinset.card := by
  have hkeys : (ofList pairs).keys.toFinset = (Entries.keys pairs).toFinset := by
    ext k
    rw [List.mem_toFinset, List.mem_toFinset, mem_keys_ofList]
  rw [size_eq_card, hkeys]

/-- The values of the map that is inserted count. -/
theorem get?_insertMany_entries (m n : OrderedMap α β) (k : α) :
    (m.insertMany n.entries).get? k = (n.get? k).or (m.get? k) := by
  rw [get?_insertMany, Entries.get?_reverse n.nodup]
  rfl

/-- Everything in a map that is filled from a list comes from the list. -/
theorem mem_of_mem_ofList {pairs : List (α × β)} {p : α × β} (h : p ∈ (ofList pairs).entries) :
    p ∈ pairs := by
  have hget := get?_eq_some_iff_mem.2 h
  rw [get?_ofList] at hget
  exact List.mem_reverse.1 (Entries.mem_of_get? hget)

theorem mapValues_ofList (f : β → γ) (pairs : List (α × β)) :
    (ofList pairs).mapValues f = ofList (pairs.map fun p => (p.1, f p.2)) := by
  induction pairs using List.reverseRecOn with
  | nil => rfl
  | append_singleton pairs p ih =>
    rw [ofList, insertMany_concat, ← ofList, mapValues_insert, ih, List.map_append,
      List.map_singleton, ofList, ofList, insertMany_concat]

/-! ## By way of another map -/

/-- A write to a key that is present can be made before other pairs are inserted. -/
theorem insertMany_insert {m : OrderedMap α β} {k : α} (hk : k ∈ m.keys) {pairs : List (α × β)}
    (hpairs : k ∉ Entries.keys pairs) (v : β) :
    (m.insert k v).insertMany pairs = (m.insertMany pairs).insert k v := by
  induction pairs generalizing m with
  | nil => rfl
  | cons p pairs ih =>
    obtain ⟨a, b⟩ := p
    rw [Entries.keys_cons, List.mem_cons, not_or] at hpairs
    rw [insertMany_cons, insertMany_cons, ← ih (mem_keys_insert.2 (Or.inr hk)) hpairs.2,
      insert_comm hpairs.1 hk]

/-- Writing to a list before its pairs are inserted is the same as writing afterwards. -/
theorem insertMany_entriesInsert (m : OrderedMap α β) {pairs : List (α × β)}
    (hnd : (Entries.keys pairs).Nodup) (k : α) (v : β) :
    m.insertMany (Entries.insert pairs k v) = (m.insertMany pairs).insert k v := by
  induction pairs generalizing m with
  | nil => rfl
  | cons p pairs ih =>
    obtain ⟨a, b⟩ := p
    rw [Entries.keys_cons, List.nodup_cons] at hnd
    rw [Entries.insert]
    split
    · -- the pair at the front gets the new value, and no later one has its key
      rename_i ha
      subst ha
      rw [insertMany_cons, insertMany_cons,
        ← insertMany_insert (mem_keys_insert.2 (Or.inl rfl)) hnd.1, insert_insert]
    · exact ih (m.insert a b) hnd.2

/-- **Pairs by way of another map.**  To collect pairs in a map of their own and insert that is to
insert them one after the other. -/
theorem insertMany_ofList (m : OrderedMap α β) (pairs : List (α × β)) :
    m.insertMany (ofList pairs).entries = m.insertMany pairs := by
  induction pairs using List.reverseRecOn with
  | nil => rfl
  | append_singleton pairs p ih =>
    rw [ofList, insertMany_concat, ← ofList, insertMany_concat, ← ih]
    exact insertMany_entriesInsert m (ofList pairs).nodup p.1 p.2

/-! ## Equal maps -/

/-- A list that holds the entries of a map, perhaps repeated, fills an equal map. -/
theorem ofList_beq [BEq β] [ReflBEq β] {pairs : List (α × β)} {m : OrderedMap α β}
    (h : ∀ p, p ∈ pairs ↔ p ∈ m.entries) : (ofList pairs == m) = true := by
  rw [beq_iff]
  intro k
  have hsame : (ofList pairs).get? k = m.get? k := by
    rw [get?_ofList]
    cases hget : m.get? k with
    | some v =>
      have hmem : (k, v) ∈ pairs.reverse :=
        List.mem_reverse.2 ((h _).2 (get?_eq_some_iff_mem.1 hget))
      cases hfound : Entries.get? pairs.reverse k with
      | none => exact absurd (Entries.mem_keys_of_mem hmem) (Entries.get?_eq_none_iff.1 hfound)
      | some w =>
        have hw := (h _).1 (List.mem_reverse.1 (Entries.mem_of_get? hfound))
        rw [← hget, get?_eq_some_iff_mem.2 hw]
    | none =>
      rw [Entries.get?_eq_none_iff]
      intro hk
      obtain ⟨p, hp, rfl⟩ := List.mem_map.1 hk
      have hmem := (h p).1 (List.mem_reverse.1 hp)
      exact get?_eq_none_iff.1 hget (Entries.mem_keys_of_mem hmem)
  rw [hsame]
  cases m.get? k with
  | none => exact .none
  | some v => exact .some (beq_self_eq_true v)

end OrderedMap

end RouteTrie
