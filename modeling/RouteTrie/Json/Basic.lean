import RouteTrie.Binary64
import RouteTrie.OrderedMap

/-!
# JSON values

Handlers are JSON values.  A whole number and a number with a fraction are different kinds of value,
and the fields of an object keep the order in which they were written.

## What is here

* `Json`: the values.
* `Json.same`, written `==`: equality that ignores the order of the fields of an object.
* `Json.same_refl`: every value equals itself.
-/

set_option autoImplicit false

namespace RouteTrie

/-- A JSON value. -/
inductive Json where
  /-- The absent value. -/
  | null
  /-- A truth value. -/
  | bool (b : Bool)
  /-- A whole number. -/
  | int (n : Int)
  /-- A number written with a fraction or an exponent, or too large for a whole number. -/
  | float (x : Binary64)
  /-- A text. -/
  | str (s : String)
  /-- A list of values. -/
  | arr (items : List Json)
  /-- Named values in order. -/
  | obj (fields : List (String × Json))

namespace Json

instance : Inhabited Json := ⟨null⟩

mutual

/-- Equality of values; the order of the fields of an object does not count. -/
def same : Json → Json → Bool
  | null, null => true
  | bool a, bool b => a == b
  | int a, int b => a == b
  | float x, float y => x == y
  | str s, str t => s == t
  | arr xs, arr ys => sameItems xs ys
  | obj xs, obj ys => sameFields xs ys
  | _, _ => false

/-- Equality of lists, element by element. -/
def sameItems : List Json → List Json → Bool
  | [], [] => true
  | x :: xs, y :: ys => same x y && sameItems xs ys
  | _, _ => false

/-- Equality of fields in some order. -/
def sameFields : List (String × Json) → List (String × Json) → Bool
  | [], ys => ys.isEmpty
  | (k, v) :: xs, ys =>
    match without? (fun f => decide (k = f.1) && same v f.2) ys with
    | none => false
    | some rest => sameFields xs rest

end

instance : BEq Json := ⟨same⟩

mutual

theorem same_refl : ∀ a : Json, same a a = true
  | null => rfl
  | bool b => by simp [same]
  | int n => by simp [same]
  | float x => by simp [same, Binary64.beq_iff]
  | str s => by simp [same]
  | arr xs => by simp [same, sameItems_refl xs]
  | obj xs => by simp [same, sameFields_refl xs]

theorem sameItems_refl : ∀ xs : List Json, sameItems xs xs = true
  | [] => rfl
  | x :: xs => by simp [sameItems, same_refl x, sameItems_refl xs]

theorem sameFields_refl : ∀ xs : List (String × Json), sameFields xs xs = true
  | [] => rfl
  | (k, v) :: xs => by simp [sameFields, without?, same_refl v, sameFields_refl xs]

end

/-- The comparison of fields is the general comparison of lists up to order. -/
theorem sameFields_eq_rearranged (xs ys : List (String × Json)) :
    sameFields xs ys = rearranged (fun p q => decide (p.1 = q.1) && same p.2 q.2) xs ys := by
  induction xs generalizing ys with
  | nil => rfl
  | cons p xs ih =>
    obtain ⟨k, v⟩ := p
    simp only [sameFields, rearranged]
    split <;> rename_i h <;> simp only [h, ih]

end Json

end RouteTrie
