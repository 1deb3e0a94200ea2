/-!
# The first element that is taken

Registration goes through a list and stops at the first element that somebody has already, be it an
earlier element of the same list.  `firstTaken` names that element; both the trie and the flat list
of claims are related to it, and so to each other.

## What is here

* `firstTaken`: the element at which a registration stops.
* `firstTaken_eq_none_iff`: nothing stops it iff nothing is repeated.
* `firstTaken_eq_some`: what stops it is the first element that was taken before.
* `firstTaken_map`: an injective renaming renames the answer.
* `eraseDups_concat`: what stands first of its kind, in a list with one element more.
-/

set_option autoImplicit false

namespace RouteTrie

variable {α β : Type} [DecidableEq α] [DecidableEq β]

/-- The first element of a list that is among `taken` or repeats an earlier element. -/
def firstTaken (taken : List α) : List α → Option α
  | [] => none
  | x :: xs => if x ∈ taken then some x else firstTaken (x :: taken) xs

/-- Only what the list itself could take matters. -/
theorem firstTaken_congr {taken taken' xs : List α} (h : ∀ x ∈ xs, (x ∈ taken ↔ x ∈ taken')) :
    firstTaken taken xs = firstTaken taken' xs := by
  induction xs generalizing taken taken' with
  | nil => rfl
  | cons x xs ih =>
    have hrest : ∀ y ∈ xs, (y ∈ x :: taken ↔ y ∈ x :: taken') := by
      intro y hy
      rw [List.mem_cons, List.mem_cons, h y (List.mem_cons_of_mem x hy)]
    simp only [firstTaken, h x List.mem_cons_self, ih hrest]

/-- Nothing is taken exactly when no element is repeated and none is among `taken`. -/
theorem firstTaken_eq_none_iff {taken xs : List α} :
    firstTaken taken xs = none ↔ xs.Nodup ∧ ∀ x ∈ xs, x ∉ taken := by
  induction xs generalizing taken with
  | nil => simp [firstTaken]
  | cons x xs ih =>
    rw [firstTaken]
    split
    · rename_i hx
      refine iff_of_false (Option.some_ne_none x) fun h => ?_
      exact h.2 x List.mem_cons_self hx
    · rename_i hx
      rw [ih, List.nodup_cons]
      constructor
      · rintro ⟨hnd, hfree⟩
        refine ⟨⟨fun hm => hfree x hm List.mem_cons_self, hnd⟩, fun y hy => ?_⟩
        rcases List.mem_cons.1 hy with rfl | hy
        · exact hx
        · exact fun hm => hfree y hy (List.mem_cons_of_mem x hm)
      · rintro ⟨⟨hxs, hnd⟩, hfree⟩
        refine ⟨hnd, fun y hy hm => ?_⟩
        rcases List.mem_cons.1 hm with rfl | hm
        · exact hxs hy
        · exact hfree y (List.mem_cons_of_mem x hy) hm

omit [DecidableEq α] in
theorem mem_take_iff_getElem? {l : List α} {j : Nat} {x : α} :
    x ∈ l.take j ↔ ∃ i < j, l[i]? = some x := by
  simp only [List.mem_iff_getElem?, List.getElem?_take, Option.ite_none_right_eq_some]

omit [DecidableEq α] in
/-- What stands in front of a position of a longer list, with the head counted as taken. -/
theorem mem_cons_or_mem_take (taken : List α) (z : α) (xs : List α) (i : Nat) (y : α) :
    (y ∈ z :: taken ∨ y ∈ xs.take i) ↔ (y ∈ taken ∨ y ∈ (z :: xs).take (i + 1)) := by
  rw [List.take_succ_cons, List.mem_cons, List.mem_cons, or_assoc, or_left_comm]

/-- What stops a registration is the first element of the list that is among `taken` or repeats an
earlier element. -/
theorem firstTaken_eq_some {taken xs : List α} {x : α} (h : firstTaken taken xs = some x) :
    ∃ j, xs[j]? = some x ∧ (x ∈ taken ∨ x ∈ xs.take j) ∧
      ∀ i < j, ∀ y, xs[i]? = some y → ¬(y ∈ taken ∨ y ∈ xs.take i) := by
  induction xs generalizing taken with
  | nil => cases h
  | cons z xs ih =>
    rw [firstTaken] at h
    split at h
    · rename_i hz
      cases h
      exact ⟨0, rfl, Or.inl hz, fun i hi => absurd hi (Nat.not_lt_zero i)⟩
    · rename_i hz
      obtain ⟨j, hj, hx, hfirst⟩ := ih h
      refine ⟨j + 1, hj, (mem_cons_or_mem_take taken z xs j x).1 hx, fun i hi y hy => ?_⟩
      cases i with
      | zero =>
        cases hy
        simpa using hz
      | succ i =>
        rw [← mem_cons_or_mem_take]
        exact hfirst i (Nat.lt_of_succ_lt_succ hi) y hy

/-- Renaming the elements renames the answer, as long as different elements keep different names. -/
theorem firstTaken_map {f : α → β} {taken xs : List α}
    (hf : ∀ x ∈ xs, ∀ y ∈ taken ++ xs, f x = f y → x = y) :
    firstTaken (taken.map f) (xs.map f) = (firstTaken taken xs).map f := by
  induction xs generalizing taken with
  | nil => rfl
  | cons x xs ih =>
    have hmem : f x ∈ taken.map f ↔ x ∈ taken := by
      refine ⟨fun h => ?_, List.mem_map_of_mem⟩
      obtain ⟨y, hy, hxy⟩ := List.mem_map.1 h
      rw [hf x List.mem_cons_self y (List.mem_append_left _ hy) hxy.symm]
      exact hy
    have hrest : ∀ z ∈ xs, ∀ y ∈ (x :: taken) ++ xs, f z = f y → z = y := by
      intro z hz y hy
      refine hf z (List.mem_cons_of_mem x hz) y ?_
      rw [List.mem_append, List.mem_cons] at hy ⊢
      rcases hy with (rfl | hy) | hy
      · exact Or.inr (Or.inl rfl)
      · exact Or.inl hy
      · exact Or.inr (Or.inr hy)
    simp only [List.map_cons, firstTaken, hmem]
    split
    · rfl
    · exact ih hrest

/-- One element more stands first of its kind if it is not there yet. -/
theorem eraseDups_concat (l : List α) (a : α) :
    (l ++ [a]).eraseDups = if a ∈ l.eraseDups then l.eraseDups else l.eraseDups ++ [a] := by
  rw [List.eraseDups_append]
  split
  · rename_i h
    simp [List.removeAll, List.mem_eraseDups.1 h]
  · rename_i h
    simp [List.removeAll, mt List.mem_eraseDups.2 h, List.eraseDups_cons]

end RouteTrie
