import RouteTrie.Json.Basic

/-!
# Documents

What is read from a text before it is given a meaning: a tree of values in which a name may occur
more than once and in which a part may have no value at all.  A part without value does no harm as
long as nobody asks for it; that is how a reader skips what it does not know.

## What is here

* `Document`: the trees.
* `Document.toJson?`: the JSON value of a document, if every part has one.
-/

set_option autoImplicit false

namespace RouteTrie

/-- A tree of values as it was written. -/
inductive Document where
  /-- A part that is well formed but stands for no value. -/
  | invalid
  /-- The absent value. -/
  | null
  /-- A truth value. -/
  | bool (b : Bool)
  /-- A whole number. -/
  | int (n : Int)
  /-- A number with a fraction or an exponent. -/
  | float (x : Binary64)
  /-- A text. -/
  | text (s : String)
  /-- A list. -/
  | list (items : List Document)
  /-- Named parts in the order of the text. -/
  | table (fields : List (String × Document))

namespace Document

instance : Inhabited Document := ⟨null⟩

mutual

/-- The JSON value of a document.  Of a name that occurs more than once, the last value stands at
the first place. -/
def toJson? : Document → Option Json
  | invalid => none
  | null => some .null
  | bool b => some (.bool b)
  | int n => some (.int n)
  | float x => some (.float x)
  | text s => some (.str s)
  | list items => (itemsToJson? items).map Json.arr
  | table fields => (fieldsToJson? fields).map fun fs => .obj (Entries.insertAll [] fs)

/-- The JSON values of some documents. -/
def itemsToJson? : List Document → Option (List Json)
  | [] => some []
  | d :: ds =>
    match toJson? d, itemsToJson? ds with
    | some v, some vs => some (v :: vs)
    | _, _ => none

/-- The JSON values of some named parts. -/
def fieldsToJson? : List (String × Document) → Option (List (String × Json))
  | [] => some []
  | (k, d) :: ds =>
    match toJson? d, fieldsToJson? ds with
    | some v, some vs => some ((k, v) :: vs)
    | _, _ => none

end

end Document

end RouteTrie
