import RouteTrie.Proofs.Build.Check
import RouteTrie.Proofs.Key.Normal
import RouteTrie.Table

/-!
# Collecting entries in a table before they are compiled

A table stores keys in their normal form and keeps one entry for each of them, where the first
entry stood and with the handler of the last.  Compiling the table is the same as thinning out the
entries in this way and building what remains from the keys as they were written: the tries are
identical, and so are the errors, but for the form in which an unreadable key is named.

## What is here

* `thinned`: one entry for each normal form of a key, at the first position and with the last
  handler.
* `Table.entries_ofList`: a table of some entries holds their thinned list with normalized keys.
* `UpToKey`: two results that agree but for the form in which an error names a key.
* `upToKey_foldlM_addEntry`: building from normalized keys, entry by entry.
* `upToKey_ofList`: the two ways to compile and the two ways to check.
-/

set_option autoImplicit false

namespace RouteTrie

variable {H : Type}

/-! ## One entry for each normal form -/

/-- The handler of the last entry whose key has a normal form; `handler` if there is none. -/
def lastHandler (form : String) (handler : H) (entries : List (String × H)) : H :=
  entries.foldl (fun h e => if RouteKey.normalize e.1 = form then e.2 else h) handler

/-- The first entry for each normal form that has not been seen, with the last handler for it. -/
def thinnedFrom (seen : List String) : List (String × H) → List (String × H)
  | [] => []
  | (key, handler) :: rest =>
    if RouteKey.normalize key ∈ seen then thinnedFrom seen rest
    else
      (key, lastHandler (RouteKey.normalize key) handler rest) ::
        thinnedFrom (RouteKey.normalize key :: seen) rest

/-- One entry for each normal form of a key: the first one, with the handler of the last one. -/
def thinned (entries : List (String × H)) : List (String × H) := thinnedFrom [] entries

/-- An entry with its key in normal form. -/
def normalized (entry : String × H) : String × H := (RouteKey.normalize entry.1, entry.2)

theorem lastHandler_cons (form : String) (handler : H) (entry : String × H)
    (rest : List (String × H)) :
    lastHandler form handler (entry :: rest) =
      lastHandler form (if RouteKey.normalize entry.1 = form then entry.2 else handler) rest := rfl

/-- Replacing a value changes what is made of its own entry only. -/
theorem Entries.map_insert_of_mem {α β γ : Type} [DecidableEq α] {l : List (α × β)}
    (hnd : (keys l).Nodup) {k : α} (hk : k ∈ keys l) (v : β) (f : α → β → γ) :
    (insert l k v).map (fun p => f p.1 p.2) =
      l.map fun p => f p.1 (if k = p.1 then v else p.2) := by
  induction l with
  | nil => cases hk
  | cons p l ih =>
    obtain ⟨a, b⟩ := p
    rw [keys_cons, List.nodup_cons] at hnd
    rw [insert]
    split
    · rename_i ha
      subst ha
      rw [List.map_cons, List.map_cons, if_pos rfl]
      congr 1
      refine List.map_congr_left fun q hq => ?_
      rw [if_neg fun h : a = q.1 => hnd.1 (h ▸ mem_keys_of_mem hq)]
    · rename_i ha
      have hka : ¬k = a := fun h => ha h.symm
      rw [List.map_cons, List.map_cons, if_neg hka,
        ih hnd.2 ((List.mem_cons.1 hk).resolve_left hka)]

/-- A write keeps the order of the keys and puts a new one last. -/
theorem Table.keys_insert (t : Table H) (key : String) (handler : H) :
    (t.insert key handler).keys =
      if RouteKey.normalize key ∈ t.keys then t.keys else t.keys ++ [RouteKey.normalize key] :=
  OrderedMap.keys_insert t.entries (RouteKey.normalize key) handler

example : ((Table.new "/v1").addGet "/" 0 |>.addPost "/a" 1 |>.addPut "/a" 2 |>.addDelete "/a" 3
    |>.addPatch "/a" 4 |>.addHead "/a" 5 |>.addOptions "/a" 6 |>.addGet "/" 7).keys =
    ["GET /v1", "POST /v1/a", "PUT /v1/a", "DELETE /v1/a", "PATCH /v1/a", "HEAD /v1/a",
      "OPTIONS /v1/a"] := by decide +kernel

/-- Filling a table on: its entries get the last handlers, and behind them stand the entries with
other normal forms. -/
theorem Table.entries_extend (t : Table H) (entries : List (String × H)) {seen : List String}
    (hseen : ∀ form, form ∈ seen ↔ form ∈ t.keys) :
    (t.extend entries).entries.entries =
      t.entries.entries.map (fun e => (e.1, lastHandler e.1 e.2 entries)) ++
        (thinnedFrom seen entries).map normalized := by
  induction entries generalizing t seen with
  | nil => simp [extend, thinnedFrom, lastHandler]
  | cons entry rest ih =>
    obtain ⟨key, handler⟩ := entry
    have hextend : t.extend ((key, handler) :: rest) = (t.insert key handler).extend rest := rfl
    simp only [hextend, thinnedFrom, lastHandler_cons, hseen]
    by_cases hmem : RouteKey.normalize key ∈ t.keys
    · have hsame : ∀ form, form ∈ seen ↔ form ∈ (t.insert key handler).keys := by
        intro form
        rw [hseen, keys_insert, if_pos hmem]
      rw [if_pos hmem, ih _ hsame]
      congr 1
      exact Entries.map_insert_of_mem t.entries.nodup hmem handler
        fun form h => (form, lastHandler form h rest)
    · have hmore : ∀ form, form ∈ RouteKey.normalize key :: seen ↔
          form ∈ (t.insert key handler).keys := by
        intro form
        rw [keys_insert, if_neg hmem, List.mem_cons, hseen, List.mem_append, List.mem_singleton,
          or_comm]
      rw [if_neg hmem, ih _ hmore, insert, OrderedMap.entries_insert hmem, List.map_append,
        List.append_assoc, List.map_cons]
      congr 1
      refine List.map_congr_left fun e he => ?_
      rw [if_neg fun h : RouteKey.normalize key = e.1 => hmem (h ▸ Entries.mem_keys_of_mem he)]

/-- **A table of some entries holds their thinned list**, with normalized keys. -/
theorem Table.entries_ofList (entries : List (String × H)) :
    (ofList entries).entries.entries = (thinned entries).map normalized :=
  entries_extend (Table.new "") entries fun _ => Iff.rfl

/-! ## Building from normalized keys -/

/-- Two results agree, but for the form of the key that an error names: the first error names the
normal form of the key that the second one names. -/
inductive UpToKey {α : Type} : Except RouteError α → Except RouteError α → Prop where
  /-- Both succeed with the same result. -/
  | ok (a : α) : UpToKey (.ok a) (.ok a)
  /-- Both fail with the same clash. -/
  | duplicateRoute (method path : String) :
      UpToKey (.error (.duplicateRoute method path)) (.error (.duplicateRoute method path))
  /-- Both fail with a key that cannot be read. -/
  | invalidRoute (key : String) :
      UpToKey (.error (.invalidRoute (RouteKey.normalize key))) (.error (.invalidRoute key))

theorem UpToKey.map {α β : Type} {x y : Except RouteError α} (h : UpToKey x y) (f : α → β) :
    UpToKey (x.map f) (y.map f) := by
  cases h with
  | ok a => exact .ok (f a)
  | duplicateRoute method path => exact .duplicateRoute method path
  | invalidRoute key => exact .invalidRoute key

theorem UpToKey.bind {α β : Type} {x y : Except RouteError α} (h : UpToKey x y)
    {f g : α → Except RouteError β} (hfg : ∀ a, UpToKey (f a) (g a)) :
    UpToKey (x >>= f) (y >>= g) := by
  cases h with
  | ok a => exact hfg a
  | duplicateRoute method path => exact .duplicateRoute method path
  | invalidRoute key => exact .invalidRoute key

/-- A key and its normal form are understood alike. -/
theorem Registration.upToKey_ofKey (key : String) :
    UpToKey (ofKey (RouteKey.normalize key)) (ofKey key) := by
  cases hk : RouteKey.parse key with
  | ok k =>
    have hn := RouteKey.parse_normalize_eq_ok_iff.2 hk
    rw [ofKey, ofKey, hn, hk]
    cases k with
    | fallback => exact .ok Registration.fallback
    | route methods written =>
      obtain ⟨path, hpath⟩ := Path.parse_eq_ok (RouteKey.head?_of_parse hk)
      simp only [hpath]
      exact .ok _
  | error e =>
    cases hn : RouteKey.parse (RouteKey.normalize key) with
    | ok k =>
      rw [RouteKey.parse_normalize_eq_ok_iff.1 hn] at hk
      cases hk
    | error e' =>
      rw [ofKey, ofKey, hn, hk, RouteKey.eq_of_parse_eq_error hk, RouteKey.eq_of_parse_eq_error hn]
      exact .invalidRoute key

/-- What can go wrong with a registration is a clash. -/
theorem Node.upToKey_register (root : Node H) (r : Registration) (handler : H) :
    UpToKey (root.register r handler) (root.register r handler) := by
  rw [register_eq]
  cases hfree : firstTaken ((root.at? r.place).getD (Endpoint.new r.place.text)).methods
      (r.methods.map Text.uppercase) with
  | some M =>
    rw [Endpoint.withRoutes_eq_error hfree]
    exact .duplicateRoute M _
  | none =>
    obtain ⟨e, he, -⟩ := Endpoint.withRoutes_eq_ok hfree handler r.vars
    rw [he]
    exact .ok _

theorem Node.upToKey_addEntry (root : Node H) (entry : String × H) :
    UpToKey (root.addEntry (normalized entry)) (root.addEntry entry) :=
  (Registration.upToKey_ofKey entry.1).bind fun r => root.upToKey_register r entry.2

/-- **Normalizing the keys does not change what is built.** -/
theorem upToKey_foldlM_addEntry (root : Node H) (entries : List (String × H)) :
    UpToKey ((entries.map normalized).foldlM Node.addEntry root)
      (entries.foldlM Node.addEntry root) := by
  induction entries generalizing root with
  | nil => exact .ok root
  | cons entry rest ih =>
    rw [List.map_cons, List.foldlM_cons, List.foldlM_cons]
    exact (root.upToKey_addEntry entry).bind ih

/-- **Collecting entries in a table and compiling it is building the thinned entries**, and checking
the table is checking their keys: the results are the same, but for the form in which the error
about an unreadable key names it. -/
theorem upToKey_ofList (entries : List (String × H)) :
    UpToKey (Table.ofList entries).build (build (thinned entries)) ∧
      UpToKey (Table.ofList entries).check (check ((thinned entries).map Prod.fst)) := by
  have hbuild : UpToKey (Table.ofList entries).build (build (thinned entries)) := by
    rw [Table.build, Table.entries_ofList]
    exact upToKey_foldlM_addEntry Node.empty (thinned entries)
  refine ⟨hbuild, ?_⟩
  -- a check has the outcome of the build, so the two checks agree as the two builds do
  have hcheck : ∀ l : List (String × H), check (l.map Prod.fst) = (build l).map fun _ => () :=
    fun l => Node.Holds.empty.checkFrom_eq ClaimsOf.nil l
  have htable : (Table.ofList entries).check = (Table.ofList entries).build.map fun _ => () :=
    hcheck (Table.ofList entries).entries.entries
  rw [htable, hcheck]
  exact hbuild.map _

end RouteTrie
