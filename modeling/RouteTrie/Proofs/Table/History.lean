import RouteTrie.Proofs.Replay
import RouteTrie.Proofs.Table.Extend

/-!
# The history of a table

Every change of a table is a number of writes and removals of keys in normal form, and a table is
what these leave.  So it does not matter how the keys are spelled, by which operation they are
written, or what else has been in the table: the last act on a normal form decides about its
handler, and the entries stand in the order in which their keys came to stay.

## What is here

* `Table.Edit.acts`, `Table.Edit.key?`: the writes and removals of a change, and its single key.
* `Table.entries_editMany`: a table is what its history leaves.
* `Table.Reflects`, `Table.reflects_editMany`: what a table shows of its history.
-/

set_option autoImplicit false

namespace RouteTrie.Table

variable {H : Type}

/-- The writes and removals of a change, below a base path, with the keys in normal form. -/
def Edit.acts (base : String) : Edit H → List (Act String H)
  | .insert key handler => [.write (RouteKey.normalize key) handler]
  | .addRoute methods path handler =>
    [.write (RouteKey.normalize (RouteKey.render methods (fullPath base path))) handler]
  | .setFallback handler => [.write (RouteKey.normalize fallbackKey) handler]
  | .extend entries => entries.map fun e => .write (RouteKey.normalize e.1) e.2
  | .erase key => [.remove (RouteKey.normalize key)]

/-- The key of a change that is about a single one, below a base path. -/
def Edit.key? (base : String) : Edit H → Option String
  | .insert key _ => some key
  | .addRoute methods path _ => some (RouteKey.render methods (fullPath base path))
  | .setFallback _ => some fallbackKey
  | .extend _ => none
  | .erase key => some key

/-- Every act of a change is about a normal form. -/
theorem Edit.exists_key_of_mem_acts {base : String} {e : Edit H} {a : Act String H}
    (h : a ∈ e.acts base) : ∃ key, a.key = RouteKey.normalize key := by
  cases e with
  | insert key handler => exact ⟨key, congrArg Act.key (List.mem_singleton.1 h)⟩
  | addRoute methods path handler => exact ⟨_, congrArg Act.key (List.mem_singleton.1 h)⟩
  | setFallback handler => exact ⟨fallbackKey, congrArg Act.key (List.mem_singleton.1 h)⟩
  | extend entries =>
    obtain ⟨e, -, rfl⟩ := List.mem_map.1 h
    exact ⟨e.1, rfl⟩
  | erase key => exact ⟨key, congrArg Act.key (List.mem_singleton.1 h)⟩

/-! ## Changes as acts -/

/-- A change returns what reading its key would have returned, makes its acts, and leaves the base
path alone. -/
theorem edit_eq (t : Table H) (e : Edit H) :
    t.edit e = ((e.key? t.base).bind t.get?,
      ⟨t.base, (e.acts t.base).foldl OrderedMap.act t.entries⟩) := by
  cases e with
  | insert key handler => rw [edit, getThenInsert_eq]; rfl
  | addRoute methods path handler => rw [edit, getThenInsert_eq]; rfl
  | setFallback handler => rw [edit, getThenInsert_eq]; rfl
  | extend entries =>
    rw [edit, extend_eq, Edit.acts, List.foldl_map, OrderedMap.insertMany, List.foldl_map]
    rfl
  | erase key => rw [edit, getThenErase_eq]; rfl

theorem editMany_eq (t : Table H) (edits : List (Edit H)) :
    t.editMany edits =
      ⟨t.base, (edits.flatMap (Edit.acts t.base)).foldl OrderedMap.act t.entries⟩ := by
  induction edits generalizing t with
  | nil => rfl
  | cons e edits ih =>
    rw [editMany, List.foldl_cons, ← editMany, ih, edit_eq, List.flatMap_cons, List.foldl_append]

@[simp] theorem base_editMany (t : Table H) (edits : List (Edit H)) :
    (t.editMany edits).base = t.base := by
  rw [editMany_eq]

/-- **A table is what its history leaves.** -/
theorem entries_editMany (base : String) (edits : List (Edit H)) :
    ((new base).editMany edits).entries =
      OrderedMap.replay (edits.flatMap (Edit.acts base)) := by
  rw [editMany_eq]
  rfl

/-! ## What a table shows -/

/-- What a table shows of the log of its writes and removals. -/
structure Reflects (t : Table H) (log : List (Act String H)) : Prop where
  /-- Keys are stored in normal form. -/
  normal : ∀ key ∈ t.keys, RouteKey.normalize key = key
  /-- No key is stored twice. -/
  nodup : t.keys.Nodup
  /-- A handler is stored if it has been written under the normal form of the key and no write or
  removal of that form has come after it. -/
  get? : ∀ key handler, t.get? key = some handler ↔
    ∃ before after, log = before ++ .write (RouteKey.normalize key) handler :: after ∧
      ∀ a ∈ after, a.key ≠ RouteKey.normalize key
  /-- The keys with a handler are there. -/
  contains : ∀ key, t.contains key = (t.get? key).isSome
  /-- The keys stand in the order of the writes that began their presence. -/
  keys : t.keys = begun log
  /-- As many entries are stored as keys are present. -/
  size : t.size = (present log).card

theorem Reflects.of_entries_eq {t : Table H} {log : List (Act String H)}
    (h : t.entries = OrderedMap.replay log)
    (hlog : ∀ a ∈ log, ∃ key, a.key = RouteKey.normalize key) : t.Reflects log where
  normal key hkey := by
    -- what is present has been written, and what is written is in normal form
    rw [Table.keys, h, OrderedMap.mem_keys_replay, present, Finset.mem_filter] at hkey
    obtain ⟨a, ha, rfl⟩ := List.mem_map.1 (List.mem_toFinset.1 hkey.1)
    obtain ⟨written, hwritten⟩ := hlog a ha
    rw [hwritten, RouteKey.normalize_normalize]
  nodup := t.entries.nodup
  get? key handler := by rw [Table.get?, h, OrderedMap.get?_replay, stored_eq_some_iff]
  contains _ := rfl
  keys := by rw [Table.keys, h, OrderedMap.keys_replay]
  size := by rw [Table.size, h, OrderedMap.size_replay]

/-- **A table is determined by its history.**  It shows which handlers were written last, in the
order in which their keys came to stay; and what one more operation on a key returns is what reading
the key returns before it. -/
theorem reflects_editMany (base : String) (edits : List (Edit H)) :
    ((new base).editMany edits).Reflects (edits.flatMap (Edit.acts base)) ∧
      ∀ e, (((new base).editMany edits).edit e).1 =
        (e.key? base).bind ((new base).editMany edits).get? := by
  refine ⟨.of_entries_eq (entries_editMany base edits) fun a ha => ?_, fun e => ?_⟩
  · obtain ⟨e, -, he⟩ := List.mem_flatMap.1 ha
    exact e.exists_key_of_mem_acts he
  · rw [edit_eq, base_editMany]
    rfl

end RouteTrie.Table
