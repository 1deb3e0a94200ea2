import RouteTrie.Document
import RouteTrie.OrderedMap

/-!
# Tables of TOML under construction

A TOML file fills a tree of tables line by line.  A table can come into being before it is defined,
because a header or a dotted name mentions something inside of it, and what may still be added to it
depends on how that happened.

## What is here

* `Item`: a value, a table or a list of tables, with the marks that decide what may be added.
* `assign?`: give a value to a dotted name.
* `below?`: change the table that a header names the way to.
* `Draft`: a file read so far, with `Draft.open?` and `Draft.openElement?` for the two kinds of
  header, `Draft.assign?` for a line with a value, and `Draft.finish?` for the end.
-/

set_option autoImplicit false

namespace RouteTrie.Toml

/-- Something that a name of a table stands for. -/
inductive Item where
  /-- A finished value. -/
  | value (d : Document)
  /-- A table.  It is implicit as long as it has only been mentioned, and dotted if that was in a
  dotted name. -/
  | table (implicit dotted : Bool) (items : List (String × Item))
  /-- A list of tables, the last of which may still grow. -/
  | tables (elements : List (List (String × Item)))

/-- The contents of a table. -/
abbrev Items := List (String × Item)

mutual

/-- The document of an item. -/
def Item.document : Item → Document
  | .value d => d
  | .table _ _ items => .table (documents items)
  | .tables elements => .list (elementDocuments elements)

/-- The documents of the contents of a table. -/
def documents : List (String × Item) → List (String × Document)
  | [] => []
  | (k, i) :: items => (k, i.document) :: documents items

/-- The documents of some tables. -/
def elementDocuments : List (List (String × Item)) → List Document
  | [] => []
  | e :: es => .table (documents e) :: elementDocuments es

end

/-- Give a value to a dotted name that is still free.  The tables on the way have to be implicit,
and the last of them has to be dotted: a table that a header defines is not extended by dotted
names. -/
def assign? (items : Items) : List String → Document → Option Items
  | [], _ => none
  | [k], d => if (Entries.get? items k).isSome then none else some (items ++ [(k, .value d)])
  | k :: k' :: ks, d =>
    match Entries.get? items k with
    | none => do
      let sub ← assign? [] (k' :: ks) d
      return items ++ [(k, .table true true sub)]
    | some (.value _) => none
    | some (.table implicit dotted sub) =>
      if !implicit || (ks.isEmpty && !dotted) then none
      else do
        let sub ← assign? sub (k' :: ks) d
        return Entries.insert items k (.table implicit dotted sub)
    | some (.tables elements) =>
      if ks.isEmpty then none
      else do
        let last ← assign? (elements.getLast?.getD []) (k' :: ks) d
        return Entries.insert items k (.tables (elements.dropLast ++ [last]))

/-- Change the table at the end of some names.  Tables that are missing are implicit, and a list of
tables stands for its last element. -/
def below? (change : Items → Option Items) (items : Items) : List String → Option Items
  | [] => change items
  | k :: ks =>
    match Entries.get? items k with
    | none => do
      let sub ← below? change [] ks
      return items ++ [(k, .table true false sub)]
    | some (.value _) => none
    | some (.table implicit dotted sub) => do
      let sub ← below? change sub ks
      return Entries.insert items k (.table implicit dotted sub)
    | some (.tables elements) => do
      let last ← below? change (elements.getLast?.getD []) ks
      return Entries.insert items k (.tables (elements.dropLast ++ [last]))

/-- The contents of the table at the end of some names; of a missing one, nothing. -/
def itemsBelow (items : Items) : List String → Items
  | [] => items
  | k :: ks =>
    match Entries.get? items k with
    | some (.table _ _ sub) => itemsBelow sub ks
    | some (.tables elements) => itemsBelow (elements.getLast?.getD []) ks
    | _ => []

/-! ## Files -/

/-- The header that the current lines stand below. -/
inductive Header where
  /-- None yet. -/
  | top
  /-- A table: the names on the way to it, and its own. -/
  | table (parents : List String) (name : String)
  /-- A new element of a list of tables. -/
  | element (parents : List String) (name : String)

/-- A file read so far.  The table below the current header is kept apart from the others and enters
them, as the last one of its parent, when it is complete. -/
structure Draft where
  /-- The finished part. -/
  root : Items
  /-- The current header. -/
  header : Header
  /-- The contents of the table below the current header. -/
  current : Items

namespace Draft

/-- The file of which nothing has been read. -/
def empty : Draft := ⟨[], .top, []⟩

/-- Everything read so far, the current table included. -/
def finish? (s : Draft) : Option Items :=
  match s.header with
  | .top => some s.current
  | .table parents name =>
    below? (fun items =>
      if (Entries.get? items name).isSome then none
      else some (items ++ [(name, .table false false s.current)])) s.root parents
  | .element parents name =>
    below? (fun items =>
      match Entries.get? items name with
      | none => some (items ++ [(name, .tables [s.current])])
      | some (.tables elements) =>
        some (Entries.insert items name (.tables (elements ++ [s.current])))
      | some _ => none) s.root parents

/-- Start the table of a header.  A table that has only been mentioned by other headers goes on with
its contents; one that is defined already is a mistake. -/
def open? (s : Draft) (parents : List String) (name : String) : Option Draft := do
  let root ← s.finish?
  match Entries.get? (itemsBelow root parents) name with
  | none =>
    let root ← below? some root parents
    return ⟨root, .table parents name, []⟩
  | some (.table true false items) =>
    let root ← below? (fun items => some (Entries.erase items name)) root parents
    return ⟨root, .table parents name, items⟩
  | some _ => none

/-- Start a new element of the list of tables of a header. -/
def openElement? (s : Draft) (parents : List String) (name : String) : Option Draft := do
  let root ← s.finish?
  let root ← below? some root parents
  match Entries.get? (itemsBelow root parents) name with
  | none | some (.tables _) => return ⟨root, .element parents name, []⟩
  | some _ => none

/-- Give a value to a dotted name in the current table. -/
def assign? (s : Draft) (names : List String) (d : Document) : Option Draft :=
  (Toml.assign? s.current names d).map fun items => { s with current := items }

end Draft

end RouteTrie.Toml
