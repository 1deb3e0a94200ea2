import Mathlib.Data.Finset.Card
import Mathlib.Data.List.Induction
import RouteTrie.Proofs.OrderedMap

/-!
# Maps that are written to and removed from

A map that starts empty is told by the log of its writes and removals.  The last act on a key
decides whether the key is stored and with which value.  The order of the keys takes more of the
log: a key that is written again keeps its place, and a key that is written after its removal goes
to the end, so the place of a key is that of the write that began its presence.

## What is here

* `Act`, `OrderedMap.replay`: single writes and removals, and the map that a log of them leaves.
* `stored`, `stored_eq_some_iff`: the value that a log leaves under a key.
* `begins`, `begun`: the writes that began the presence of a key, in the order of the log.
* `present`: the keys that a log leaves.
* `OrderedMap.get?_replay`, `OrderedMap.keys_replay`, `OrderedMap.size_replay`: the map has these
  values, in this order, and as many.
-/

set_option autoImplicit false

namespace RouteTrie

variable {α β : Type}

/-- A change of one key. -/
inductive Act (α β : Type) where
  /-- Set the value of a key. -/
  | write (key : α) (value : β)
  /-- Remove a key. -/
  | remove (key : α)

namespace Act

/-- The key that is changed. -/
def key : Act α β → α
  | write k _ => k
  | remove k => k

/-- The value that is left under the key. -/
def value? : Act α β → Option β
  | write _ v => some v
  | remove _ => none

variable [DecidableEq α]

/-- Whether a key is removed. -/
def removes (a : Act α β) (k : α) : Bool := a.value?.isNone && decide (a.key = k)

end Act

variable [DecidableEq α]

/-! ## What a log says -/

/-- The value under a key, which the last act on the key has left. -/
def stored (log : List (Act α β)) (k : α) : Option β :=
  (log.reverse.find? fun a => decide (a.key = k)).bind Act.value?

/-- The keys that have a value. -/
def present (log : List (Act α β)) : Finset α :=
  (log.map Act.key).toFinset.filter fun k => (stored log k).isSome

/-- Whether the act at a position of the log begins the presence that its key has in the end: it
writes the key when it is not there, and the key is not removed afterwards. -/
def begins (log : List (Act α β)) (a : Act α β) (position : Nat) : Bool :=
  a.value?.isSome && (stored (log.take position) a.key).isNone &&
    (log.drop (position + 1)).all fun b => !b.removes a.key

/-- The keys of the acts that begin a presence, in the order of the log. -/
def begun (log : List (Act α β)) : List α :=
  (log.zipIdx.filter fun p => begins log p.1 p.2).map fun p => p.1.key

@[simp] theorem stored_nil (k : α) : stored ([] : List (Act α β)) k = none := rfl

/-- The last act decides about its own key. -/
theorem stored_concat (log : List (Act α β)) (a : Act α β) (k : α) :
    stored (log ++ [a]) k = if a.key = k then a.value? else stored log k := by
  rw [stored, List.reverse_append, List.reverse_singleton, List.singleton_append, List.find?_cons]
  by_cases hk : a.key = k
  · rw [if_pos hk, decide_eq_true hk]
    rfl
  · rw [if_neg hk, decide_eq_false hk]
    rfl

/-- **The value under a key** is that of the last write to it, if no removal comes after it. -/
theorem stored_eq_some_iff {log : List (Act α β)} {k : α} {v : β} :
    stored log k = some v ↔
      ∃ before after, log = before ++ .write k v :: after ∧ ∀ a ∈ after, a.key ≠ k := by
  induction log using List.reverseRecOn with
  | nil => simp
  | append_singleton log a ih =>
    rw [stored_concat]
    constructor
    · intro h
      split at h
      · rename_i hk
        cases a with
        | write k' w =>
          cases hk
          cases h
          exact ⟨log, [], rfl, by simp⟩
        | remove k' => cases h
      · rename_i hk
        obtain ⟨before, after, rfl, hafter⟩ := ih.1 h
        refine ⟨before, after ++ [a], by simp, fun b hb => ?_⟩
        rcases List.mem_append.1 hb with hb | hb
        · exact hafter b hb
        · rwa [List.mem_singleton.1 hb]
    · rintro ⟨before, after, heq, hafter⟩
      rcases List.eq_nil_or_concat' after with rfl | ⟨after, b, rfl⟩
      · obtain ⟨-, ha⟩ := List.append_inj' heq rfl
        cases ha
        exact if_pos rfl
      · rw [← List.cons_append, ← List.append_assoc] at heq
        obtain ⟨hlog, ha⟩ := List.append_inj' heq rfl
        cases ha
        rw [if_neg (hafter a (by simp)), ih]
        exact ⟨before, after, hlog, fun c hc => hafter c (by simp [hc])⟩

theorem mem_present {log : List (Act α β)} {k : α} :
    k ∈ present log ↔ (stored log k).isSome = true := by
  rw [present, Finset.mem_filter, List.mem_toFinset, and_iff_right_iff_imp]
  intro h
  obtain ⟨v, hv⟩ := Option.isSome_iff_exists.1 h
  obtain ⟨before, after, rfl, -⟩ := stored_eq_some_iff.1 hv
  simp [Act.key]

/-- One act more ends the presence of the key that it removes, and it begins one if it writes a key
that is not there. -/
theorem begun_concat (log : List (Act α β)) (a : Act α β) :
    begun (log ++ [a]) = ((begun log).filter fun k => !a.removes k) ++
      if a.value?.isSome && (stored log a.key).isNone then [a.key] else [] := by
  have hold : (log.zipIdx.filter fun p => begins (log ++ [a]) p.1 p.2) =
      (log.zipIdx.filter fun p => begins log p.1 p.2).filter fun p => !a.removes p.1.key := by
    rw [List.filter_filter]
    refine List.filter_congr fun p hp => ?_
    have hlt : p.2 < log.length := List.snd_lt_of_mem_zipIdx hp
    rw [begins, begins, List.take_append_of_le_length hlt.le,
      List.drop_append_of_le_length hlt, List.all_append, ← Bool.and_assoc, Bool.and_comm]
    simp
  have hnew : ([a].zipIdx log.length).filter (fun p => begins (log ++ [a]) p.1 p.2) =
      if a.value?.isSome && (stored log a.key).isNone then [(a, log.length)] else [] := by
    rw [List.zipIdx_singleton, List.filter_singleton]
    simp [begins]
  rw [begun, List.zipIdx_append, List.filter_append, Nat.zero_add, hold, hnew, List.map_append,
    begun, List.filter_map]
  congr 1
  split <;> rfl

namespace OrderedMap

/-! ## What the map is -/

/-- Change one key of a map. -/
def act (m : OrderedMap α β) : Act α β → OrderedMap α β
  | .write k v => m.insert k v
  | .remove k => m.erase k

/-- The map that a log leaves. -/
def replay (log : List (Act α β)) : OrderedMap α β := log.foldl act ∅

theorem replay_concat (log : List (Act α β)) (a : Act α β) :
    replay (log ++ [a]) = (replay log).act a := by
  rw [replay, List.foldl_append]
  rfl

theorem get?_act (m : OrderedMap α β) (a : Act α β) (k : α) :
    (m.act a).get? k = if a.key = k then a.value? else m.get? k := by
  cases a with
  | write k' v => exact get?_insert m k' k v
  | remove k' => exact get?_erase m k' k

theorem keys_act (m : OrderedMap α β) (a : Act α β) :
    (m.act a).keys = (m.keys.filter fun k => !a.removes k) ++
      if a.value?.isSome && (m.get? a.key).isNone then [a.key] else [] := by
  cases a with
  | write k v =>
    have hall : (m.keys.filter fun j => !(Act.write k v).removes j) = m.keys :=
      List.filter_eq_self.2 fun j _ => rfl
    rw [hall, act, keys_insert]
    by_cases hk : k ∈ m.keys
    · have hget : (m.get? k).isNone = false := by
        rw [Option.isNone_eq_false_iff]
        exact contains_iff.2 hk
      simp [Act.key, Act.value?, hk, hget]
    · have hget : m.get? k = none := get?_eq_none_iff.2 hk
      simp [Act.key, Act.value?, hk, hget]
  | remove k =>
    have hnd : m.keys.Nodup := m.nodup
    have hfilter : (m.keys.filter fun j => !(Act.remove k : Act α β).removes j) =
        m.keys.filter fun j => j != k :=
      List.filter_congr fun j _ => congrArg not (decide_eq_decide.2 (eq_comm (a := k) (b := j)))
    rw [act, keys_erase, hnd.erase_eq_filter, hfilter]
    exact (List.append_nil _).symm

/-- **The values of a map** are those that its log leaves. -/
theorem get?_replay (log : List (Act α β)) (k : α) : (replay log).get? k = stored log k := by
  induction log using List.reverseRecOn with
  | nil => rfl
  | append_singleton log a ih => rw [replay_concat, get?_act, ih, stored_concat]

theorem mem_keys_replay {log : List (Act α β)} {k : α} :
    k ∈ (replay log).keys ↔ k ∈ present log := by
  rw [mem_present, ← get?_replay]
  exact contains_iff.symm

/-- **The order of a map** is that of the writes that began the presence of its keys. -/
theorem keys_replay (log : List (Act α β)) : (replay log).keys = begun log := by
  induction log using List.reverseRecOn with
  | nil => rfl
  | append_singleton log a ih => rw [replay_concat, keys_act, ih, get?_replay, begun_concat]

example : (replay [.write 0 'a', .write 1 'b', .remove 0, .write 1 'c', .write 0 'd']).keys =
    [1, 0] := by decide

/-- **The size of a map** is the number of keys that are present. -/
theorem size_replay (log : List (Act α β)) : (replay log).size = (present log).card := by
  have hkeys : (replay log).keys.toFinset = present log := by
    ext k
    rw [List.mem_toFinset, mem_keys_replay]
  rw [size_eq_card, hkeys]

end OrderedMap

end RouteTrie
