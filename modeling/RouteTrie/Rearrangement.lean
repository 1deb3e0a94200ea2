/-!
# Equality of lists up to order

`rearranged eqv xs ys` says that `ys` holds the elements of `xs` in some order, where `eqv` decides
which elements count as equal.  Every unordered comparison of the library is an instance of it:
maps compare their entries, branches their children, objects their fields.

## What is here

* `without?`: a list without its first element of some kind, in one pass.
* `rearranged`: the comparison itself, by taking each element of `xs` out of `ys` in turn.
* `rearranged_refl`, `length_eq_of_rearranged`: its first laws.
-/

set_option autoImplicit false

namespace RouteTrie

/-- The list without the first element that satisfies `p`, if there is one.  Every element is tested
once, which matters where `p` is itself a deep comparison. -/
def without? {α : Type} (p : α → Bool) : List α → Option (List α)
  | [] => none
  | x :: xs => if p x then some xs else (without? p xs).map (x :: ·)

theorem without?_eq {α : Type} (p : α → Bool) (xs : List α) :
    without? p xs = if xs.any p then some (xs.eraseP p) else none := by
  induction xs with
  | nil => rfl
  | cons x xs ih =>
    by_cases h : p x = true
    · simp [without?, h]
    · by_cases hxs : xs.any p = true <;> simp_all [without?]

/-- `ys` consists of the elements of `xs` in some order, up to `eqv`. -/
def rearranged {α : Type} (eqv : α → α → Bool) : List α → List α → Bool
  | [], ys => ys.isEmpty
  | x :: xs, ys =>
    match without? (eqv x) ys with
    | none => false
    | some rest => rearranged eqv xs rest

theorem rearranged_cons {α : Type} (eqv : α → α → Bool) (x : α) (xs ys : List α) :
    rearranged eqv (x :: xs) ys = (ys.any (eqv x) && rearranged eqv xs (ys.eraseP (eqv x))) := by
  rw [rearranged, without?_eq]
  split <;> simp_all

theorem rearranged_refl {α : Type} {eqv : α → α → Bool} (h : ∀ x, eqv x x = true) (xs : List α) :
    rearranged eqv xs xs = true := by
  induction xs with
  | nil => rfl
  | cons x xs ih => simp [rearranged_cons, h, ih]

theorem length_eq_of_rearranged {α : Type} {eqv : α → α → Bool} {xs ys : List α}
    (h : rearranged eqv xs ys = true) : xs.length = ys.length := by
  induction xs generalizing ys with
  | nil =>
    rw [rearranged, List.isEmpty_iff] at h
    rw [h]
  | cons x xs ih =>
    simp only [rearranged_cons, Bool.and_eq_true] at h
    obtain ⟨y, hy, hxy⟩ := List.any_eq_true.1 h.1
    have hlen := List.length_eraseP_of_mem hy hxy
    have hpos := List.length_pos_of_mem hy
    have := ih h.2
    simp only [List.length_cons]
    omega

end RouteTrie
