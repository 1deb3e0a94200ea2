import RouteTrie.Config
import RouteTrie.Document

/-!
# Route files as documents

How a document is understood as a route file.  A record may be written as a table of its fields, of
which unknown ones are skipped and known ones may occur once, or as a list of its fields in order,
of which the last ones may be missing.  Whether such a list may be longer than the record depends on
the format.

## What is here

* `Surplus`: what becomes of a list that is longer than its record.
* `Document.field?`, `Document.record?`: the fields of a record.
* `Config.ofDocument?`: the route file that a document describes.
-/

set_option autoImplicit false

namespace RouteTrie

/-- What becomes of the elements of a list behind the last field of its record. -/
inductive Surplus where
  /-- They are skipped. -/
  | skipped
  /-- The list is refused because of them. -/
  | refused
  deriving DecidableEq, Repr

namespace Document

/-- The text, if the document is one. -/
def text? : Document → Option String
  | text s => some s
  | _ => none

/-- The value of a field, if there is one; a field may not occur twice. -/
def field? (fields : List (String × Document)) (name : String) : Option (Option Document) :=
  match (fields.filter fun f => f.1 = name).map Prod.snd with
  | [] => some none
  | [d] => some (some d)
  | _ => none

/-- The fields of a record with these names, each with its value if it is there. -/
def record? (surplus : Surplus) (names : List String) :
    Document → Option (List (Option Document))
  | table fields => names.mapM (field? fields)
  | list items =>
    if surplus = .refused ∧ names.length < items.length then none
    else
      some ((items.take names.length).map some ++
        List.replicate (names.length - items.length) none)
  | _ => none

end Document

namespace Config

/-- Routes: the fields of a table with their JSON values. -/
def routesOf? : Document → Option (OrderedMap String Json)
  | .table fields => (Document.fieldsToJson? fields).map OrderedMap.ofList
  | _ => none

/-- The value of a field that may be missing. -/
def orElse {α : Type} (missing : α) (read : Document → Option α) : Option Document → Option α
  | none => some missing
  | some d => read d

/-- A group: its base path has to be there. -/
def groupOf? (surplus : Surplus) (d : Document) : Option Group :=
  match d.record? surplus ["prefix", "routes"] with
  | some [some base, routes] => do
    let base ← base.text?
    let routes ← orElse ∅ routesOf? routes
    return ⟨base, routes⟩
  | _ => none

/-- Groups: a list of them. -/
def groupsOf? (surplus : Surplus) : Document → Option (List Group)
  | .list items => items.mapM (groupOf? surplus)
  | _ => none

/-- The route file that a document describes; everything in it may be missing. -/
def ofDocument? (surplus : Surplus) (d : Document) : Option Config :=
  match d.record? surplus ["prefix", "routes", "groups"] with
  | some [base, routes, groups] => do
    let base ← orElse "" Document.text? base
    let routes ← orElse ∅ routesOf? routes
    let groups ← orElse [] (groupsOf? surplus) groups
    return ⟨base, routes, groups⟩
  | _ => none

end Config

end RouteTrie
