import RouteTrie.OrderedMap

/-!
# Reading lists of entries

What `Entries.get?` finds in a list without repeated keys, and what a write adds to a list that does
not have its key.

## What is here

* `Entries.get?_eq_some_iff_mem`: without repeated keys, reading is membership.
* `Entries.insert_eq_append`, `OrderedMap.entries_insert`: a new key goes to the end.
* `OrderedMap.ext_get?`: maps with the same keys in the same order and the same values are equal.
* `OrderedMap.insert_insert`, `OrderedMap.insert_comm`: two writes, to one key and to two.
-/

set_option autoImplicit false

namespace RouteTrie

namespace Entries

variable {α β : Type}

theorem keys_append (l l' : List (α × β)) : keys (l ++ l') = keys l ++ keys l' :=
  List.map_append

theorem mem_keys_of_mem {l : List (α × β)} {k : α} {v : β} (h : (k, v) ∈ l) : k ∈ keys l :=
  List.mem_map_of_mem h

/-- Without repeated keys, a list in which every key is `k` has one entry. -/
theorem eq_singleton {l : List (α × β)} (hnd : (keys l).Nodup) {k : α} {v : β}
    (hk : ∀ a ∈ keys l, a = k) (h : (k, v) ∈ l) : l = [(k, v)] := by
  match l, hnd, hk, h with
  | [p], _, _, h => rw [List.mem_singleton.1 h]
  | p :: q :: l, hnd, hk, _ =>
    have hp : p.1 = k := hk p.1 (by simp [keys])
    have hq : q.1 = k := hk q.1 (by simp [keys])
    simp [keys, hp, hq] at hnd

variable [DecidableEq α]

/-- Without repeated keys, reading is membership. -/
theorem get?_eq_some_iff_mem {l : List (α × β)} (hnd : (keys l).Nodup) {k : α} {v : β} :
    get? l k = some v ↔ (k, v) ∈ l := by
  induction l with
  | nil => simp [get?]
  | cons p l ih =>
    obtain ⟨a, b⟩ := p
    rw [keys_cons, List.nodup_cons] at hnd
    simp only [get?, List.mem_cons, Prod.mk.injEq]
    by_cases h : a = k
    · subst h
      have hk : ¬(a, v) ∈ l := fun hm => hnd.1 (mem_keys_of_mem hm)
      simp [hk, eq_comm]
    · have h' : ¬k = a := fun e => h e.symm
      simp [h, h', ih hnd.2]

/-- A key that is not there yet goes to the end. -/
theorem insert_eq_append {l : List (α × β)} {k : α} (h : k ∉ keys l) (v : β) :
    insert l k v = l ++ [(k, v)] := by
  induction l with
  | nil => rfl
  | cons p l ih =>
    obtain ⟨a, b⟩ := p
    rw [keys_cons, List.mem_cons, not_or] at h
    rw [insert, if_neg fun e => h.1 e.symm, ih h.2, List.cons_append]

/-- The last one of two writes to a key counts. -/
theorem insert_insert (l : List (α × β)) (k : α) (v w : β) :
    insert (insert l k v) k w = insert l k w := by
  induction l with
  | nil => simp [insert]
  | cons p l ih =>
    obtain ⟨a, b⟩ := p
    by_cases h : a = k <;> simp [insert, h, ih]

/-- Lists with the same keys, none of them repeated, are equal if reading finds the same in both. -/
theorem eq_of_get? {l l' : List (α × β)} (hnd : (keys l).Nodup) (hkeys : keys l = keys l')
    (hget : ∀ k, get? l k = get? l' k) : l = l' := by
  induction l generalizing l' with
  | nil => exact (List.map_eq_nil_iff.1 hkeys.symm).symm
  | cons p l ih =>
    obtain ⟨a, b⟩ := p
    cases l' with
    | nil => cases hkeys
    | cons q l' =>
      obtain ⟨a', b'⟩ := q
      simp only [keys_cons, List.cons.injEq] at hkeys
      obtain ⟨rfl, hkeys⟩ := hkeys
      rw [keys_cons, List.nodup_cons] at hnd
      have hb : b = b' := by simpa [get?] using hget a
      rw [hb, ih hnd.2 hkeys fun k => ?_]
      by_cases hk : a = k
      · subst hk
        rw [get?_eq_none_iff.2 hnd.1, get?_eq_none_iff.2 (hkeys ▸ hnd.1)]
      · simpa [get?, hk] using hget k

end Entries

namespace OrderedMap

variable {α β : Type} [DecidableEq α]

/-- A key that is not there yet goes to the end. -/
theorem entries_insert {m : OrderedMap α β} {k : α} (h : k ∉ m.keys) (v : β) :
    (m.insert k v).entries = m.entries ++ [(k, v)] :=
  Entries.insert_eq_append h v

theorem get?_eq_some_iff_mem {m : OrderedMap α β} {k : α} {v : β} :
    m.get? k = some v ↔ (k, v) ∈ m.entries :=
  Entries.get?_eq_some_iff_mem m.nodup

/-- A map is determined by the order of its keys and by their values. -/
theorem ext_get? {m n : OrderedMap α β} (hkeys : m.keys = n.keys)
    (hget : ∀ k, m.get? k = n.get? k) : m = n :=
  ext (Entries.eq_of_get? m.nodup hkeys hget)

/-- A write adds its own key. -/
theorem mem_keys_insert {m : OrderedMap α β} {k a : α} {v : β} :
    a ∈ (m.insert k v).keys ↔ a = k ∨ a ∈ m.keys := by
  rw [keys_insert]
  split
  · rename_i hk
    exact ⟨Or.inr, fun h => h.elim (fun heq => heq ▸ hk) id⟩
  · rw [List.mem_append, List.mem_singleton, or_comm]

/-- The last one of two writes to a key counts. -/
theorem insert_insert (m : OrderedMap α β) (k : α) (v w : β) :
    (m.insert k v).insert k w = m.insert k w :=
  ext (Entries.insert_insert m.entries k v w)

/-- Writes to two keys commute if one of them is present. -/
theorem insert_comm {m : OrderedMap α β} {k k' : α} (hne : k ≠ k') (hk : k ∈ m.keys) (v w : β) :
    (m.insert k' w).insert k v = (m.insert k v).insert k' w := by
  refine ext_get? ?_ fun a => ?_
  · rw [keys_insert _ k v, if_pos (mem_keys_insert.2 (Or.inr hk)), keys_insert, keys_insert,
      keys_insert, if_pos hk]
  · simp only [get?_insert]
    by_cases ha : k = a
    · subst ha
      simp [hne.symm]
    · simp [ha]

end OrderedMap

end RouteTrie
