import RouteTrie.Rearrangement

/-!
# Insertion-ordered maps

A map that lists its keys in the order in which they were first inserted.  Writing to a key that is
present keeps its place, and removing a key keeps the order of the others.

## What is here

* `Entries`: the operations on a plain list of pairs, for types that nest such lists in themselves.
* `OrderedMap`: a list of pairs with distinct keys, with the same operations.
* `OrderedMap.getThenInsert`, `OrderedMap.getThenErase`: a write and a removal in one walk that also
  give the value they replace.
* `OrderedMap.get?_insert`, `OrderedMap.keys_insert`, `OrderedMap.get?_erase`: what a write and a
  removal do to later reads and to the order.
* The Boolean equality `==` of maps, which ignores the order of the entries.
-/

set_option autoImplicit false

namespace RouteTrie

/-! ## Lists of entries -/

namespace Entries

variable {α β : Type}

/-- The keys in order. -/
def keys (l : List (α × β)) : List α := l.map Prod.fst

@[simp] theorem keys_nil : keys ([] : List (α × β)) = [] := rfl

@[simp] theorem keys_cons (a : α) (b : β) (l : List (α × β)) : keys ((a, b) :: l) = a :: keys l :=
  rfl

@[simp] theorem length_keys (l : List (α × β)) : (keys l).length = l.length := by simp [keys]

variable [DecidableEq α]

/-- The value of the first entry with key `k`. -/
def get? : List (α × β) → α → Option β
  | [], _ => none
  | (a, b) :: l, k => if a = k then some b else get? l k

/-- Set the value of `k` where it stands, or add an entry at the end. -/
def insert : List (α × β) → α → β → List (α × β)
  | [], k, v => [(k, v)]
  | (a, b) :: l, k, v => if a = k then (a, v) :: l else (a, b) :: insert l k v

/-- Drop the first entry with key `k`. -/
def erase : List (α × β) → α → List (α × β)
  | [], _ => []
  | (a, b) :: l, k => if a = k then l else (a, b) :: erase l k

/-- Set the value of `k` as `insert` does; also the value that stood there. -/
def getThenInsert : List (α × β) → α → β → Option β × List (α × β)
  | [], k, v => (none, [(k, v)])
  | (a, b) :: l, k, v =>
    if a = k then (some b, (a, v) :: l)
    else
      let r := getThenInsert l k v
      (r.1, (a, b) :: r.2)

/-- Drop the first entry with key `k`; also the value that stood there. -/
def getThenErase : List (α × β) → α → Option β × List (α × β)
  | [], _ => (none, [])
  | (a, b) :: l, k =>
    if a = k then (some b, l)
    else
      let r := getThenErase l k
      (r.1, (a, b) :: r.2)

/-- Insert pairs one after the other. -/
def insertAll (l : List (α × β)) (pairs : List (α × β)) : List (α × β) :=
  pairs.foldl (fun acc p => insert acc p.1 p.2) l

theorem getThenInsert_eq (l : List (α × β)) (k : α) (v : β) :
    getThenInsert l k v = (get? l k, insert l k v) := by
  induction l with
  | nil => rfl
  | cons p l ih =>
    obtain ⟨a, b⟩ := p
    by_cases h : a = k <;> simp [getThenInsert, get?, insert, h, ih]

theorem getThenErase_eq (l : List (α × β)) (k : α) :
    getThenErase l k = (get? l k, erase l k) := by
  induction l with
  | nil => rfl
  | cons p l ih =>
    obtain ⟨a, b⟩ := p
    by_cases h : a = k <;> simp [getThenErase, get?, erase, h, ih]

theorem get?_eq_none_iff {l : List (α × β)} {k : α} : get? l k = none ↔ k ∉ keys l := by
  induction l with
  | nil => simp [get?]
  | cons p l ih =>
    obtain ⟨a, b⟩ := p
    by_cases h : a = k
    · simp [get?, h]
    · have h' : ¬k = a := fun e => h e.symm
      simp [get?, h, h', ih]

theorem get?_insert (l : List (α × β)) (k k' : α) (v : β) :
    get? (insert l k v) k' = if k = k' then some v else get? l k' := by
  induction l with
  | nil => simp [insert, get?]
  | cons p l ih =>
    obtain ⟨a, b⟩ := p
    by_cases h : a = k
    · subst h
      by_cases hk : a = k' <;> simp [insert, get?, hk]
    · by_cases hk : a = k'
      · subst hk
        have hka : ¬k = a := fun e => h e.symm
        simp [insert, get?, h, hka]
      · simp [insert, get?, h, hk, ih]

theorem keys_insert (l : List (α × β)) (k : α) (v : β) :
    keys (insert l k v) = if k ∈ keys l then keys l else keys l ++ [k] := by
  induction l with
  | nil => simp [insert]
  | cons p l ih =>
    obtain ⟨a, b⟩ := p
    by_cases h : a = k
    · simp [insert, h]
    · have h' : ¬k = a := fun e => h e.symm
      by_cases hm : k ∈ keys l <;> simp [insert, h, h', hm, ih]

theorem keys_erase (l : List (α × β)) (k : α) : keys (erase l k) = (keys l).erase k := by
  induction l with
  | nil => rfl
  | cons p l ih =>
    obtain ⟨a, b⟩ := p
    by_cases h : a = k <;> simp [erase, h, ih]

theorem nodup_keys_insert {l : List (α × β)} (h : (keys l).Nodup) (k : α) (v : β) :
    (keys (insert l k v)).Nodup := by
  rw [keys_insert]
  split
  · exact h
  · rename_i hk
    exact List.nodup_append.2 ⟨h, by simp, by
      intro a ha b hb
      simp only [List.mem_singleton] at hb
      subst hb
      exact fun e => hk (e ▸ ha)⟩

theorem nodup_keys_erase {l : List (α × β)} (h : (keys l).Nodup) (k : α) :
    (keys (erase l k)).Nodup := by
  rw [keys_erase]
  exact h.erase k

theorem get?_erase {l : List (α × β)} (h : (keys l).Nodup) (k k' : α) :
    get? (erase l k) k' = if k = k' then none else get? l k' := by
  induction l with
  | nil => simp [erase, get?]
  | cons p l ih =>
    obtain ⟨a, b⟩ := p
    rw [keys_cons, List.nodup_cons] at h
    by_cases ha : a = k
    · subst ha
      by_cases hk : a = k'
      · subst hk
        simp [erase, get?_eq_none_iff.2 h.1]
      · simp [erase, get?, hk]
    · by_cases hk : a = k'
      · subst hk
        have hka : ¬k = a := fun e => ha e.symm
        simp [erase, get?, ha, hka]
      · simp [erase, get?, ha, hk, ih h.2]

end Entries

/-! ## Maps -/

/-- A list of entries in which no key occurs twice. -/
structure OrderedMap (α β : Type) where
  /-- The entries in the order in which their keys were first inserted. -/
  entries : List (α × β)
  /-- No key occurs twice. -/
  nodup : (Entries.keys entries).Nodup

namespace OrderedMap

variable {α β : Type}

/-- The map without entries. -/
def empty : OrderedMap α β := ⟨[], by simp⟩

instance : EmptyCollection (OrderedMap α β) := ⟨empty⟩

instance : Inhabited (OrderedMap α β) := ⟨empty⟩

/-- The keys in insertion order. -/
def keys (m : OrderedMap α β) : List α := Entries.keys m.entries

/-- The number of entries. -/
def size (m : OrderedMap α β) : Nat := m.entries.length

/-- Whether there is no entry. -/
def isEmpty (m : OrderedMap α β) : Bool := m.entries.isEmpty

/-- The same keys, each with its value passed through `f`. -/
def mapValues {γ : Type} (f : β → γ) (m : OrderedMap α β) : OrderedMap α γ :=
  ⟨m.entries.map fun p => (p.1, f p.2), by
    have : Entries.keys (m.entries.map fun p => (p.1, f p.2)) = Entries.keys m.entries := by
      simp [Entries.keys]
    rw [this]
    exact m.nodup⟩

@[ext] theorem ext {m n : OrderedMap α β} (h : m.entries = n.entries) : m = n := by
  cases m
  cases n
  cases h
  rfl

@[simp] theorem entries_empty : (∅ : OrderedMap α β).entries = [] := rfl

@[simp] theorem keys_empty : (∅ : OrderedMap α β).keys = [] := rfl

variable [DecidableEq α]

/-- The value stored under `k`. -/
def get? (m : OrderedMap α β) (k : α) : Option β := Entries.get? m.entries k

/-- Whether `k` has a value. -/
def contains (m : OrderedMap α β) (k : α) : Bool := (m.get? k).isSome

/-- Set the value of `k`; a key that is present keeps its place. -/
def insert (m : OrderedMap α β) (k : α) (v : β) : OrderedMap α β :=
  ⟨Entries.insert m.entries k v, Entries.nodup_keys_insert m.nodup k v⟩

/-- Remove `k`, keeping the order of the others. -/
def erase (m : OrderedMap α β) (k : α) : OrderedMap α β :=
  ⟨Entries.erase m.entries k, Entries.nodup_keys_erase m.nodup k⟩

/-- Set the value of `k`; also the value that it had. -/
def getThenInsert (m : OrderedMap α β) (k : α) (v : β) : Option β × OrderedMap α β :=
  let r := Entries.getThenInsert m.entries k v
  (r.1, ⟨r.2, by
    simp only [r, Entries.getThenInsert_eq]
    exact Entries.nodup_keys_insert m.nodup k v⟩)

/-- Remove `k`; also the value that it had. -/
def getThenErase (m : OrderedMap α β) (k : α) : Option β × OrderedMap α β :=
  let r := Entries.getThenErase m.entries k
  (r.1, ⟨r.2, by
    simp only [r, Entries.getThenErase_eq]
    exact Entries.nodup_keys_erase m.nodup k⟩)

/-- Insert pairs one after the other. -/
def insertMany (m : OrderedMap α β) (pairs : List (α × β)) : OrderedMap α β :=
  pairs.foldl (fun acc p => acc.insert p.1 p.2) m

/-- The map filled from a list: each key at its first position with its last value. -/
def ofList (pairs : List (α × β)) : OrderedMap α β := insertMany ∅ pairs

instance [BEq β] : BEq (OrderedMap α β) where
  beq m n := rearranged (fun p q => decide (p.1 = q.1) && p.2 == q.2) m.entries n.entries

@[simp] theorem get?_empty (k : α) : (∅ : OrderedMap α β).get? k = none := rfl

theorem getThenInsert_eq (m : OrderedMap α β) (k : α) (v : β) :
    m.getThenInsert k v = (m.get? k, m.insert k v) := by
  simp [getThenInsert, get?, insert, Entries.getThenInsert_eq]

theorem getThenErase_eq (m : OrderedMap α β) (k : α) :
    m.getThenErase k = (m.get? k, m.erase k) := by
  simp [getThenErase, get?, erase, Entries.getThenErase_eq]

theorem get?_eq_none_iff {m : OrderedMap α β} {k : α} : m.get? k = none ↔ k ∉ m.keys :=
  Entries.get?_eq_none_iff

theorem contains_iff {m : OrderedMap α β} {k : α} : m.contains k = true ↔ k ∈ m.keys := by
  rw [contains, Option.isSome_iff_ne_none, Ne, get?_eq_none_iff, Classical.not_not]

/-- A write changes the value of its own key only. -/
theorem get?_insert (m : OrderedMap α β) (k k' : α) (v : β) :
    (m.insert k v).get? k' = if k = k' then some v else m.get? k' :=
  Entries.get?_insert m.entries k k' v

/-- A removal changes the value of its own key only. -/
theorem get?_erase (m : OrderedMap α β) (k k' : α) :
    (m.erase k).get? k' = if k = k' then none else m.get? k' :=
  Entries.get?_erase m.nodup k k'

/-- A write keeps the order of the keys and puts a new key last. -/
theorem keys_insert (m : OrderedMap α β) (k : α) (v : β) :
    (m.insert k v).keys = if k ∈ m.keys then m.keys else m.keys ++ [k] :=
  Entries.keys_insert m.entries k v

/-- A removal keeps the order of the other keys. -/
theorem keys_erase (m : OrderedMap α β) (k : α) : (m.erase k).keys = m.keys.erase k :=
  Entries.keys_erase m.entries k

end OrderedMap

end RouteTrie
