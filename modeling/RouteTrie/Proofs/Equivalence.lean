import RouteTrie.Proofs.Rearrangement

/-!
# Equality up to order is an equivalence

`rearranged` takes each element of one list out of another, the first that fits.  If fitting is an
equivalence, it does not matter which element is taken: the lists agree when they have equal length
and every element fits as many elements of the one as of the other.  That makes equality up to order
symmetric and transitive where the equality of elements is, and so for maps.

The hypotheses speak of the elements of the first list only, so that the statements can be used in
an induction over values that hold such lists.

## What is here

* `rearranged_comm`: equality up to order is symmetric.
* `countP_eq_of_rearranged`, `rearranged_of_countP`: equality up to order by counting.
* `rearranged_trans`: equality up to order is transitive.
* `OrderedMap.instEquivBEq`: equality of maps is an equivalence if equality of values is.
-/

set_option autoImplicit false

namespace RouteTrie

variable {α : Type} {eqv : α → α → Bool}

/-! ## Symmetry -/

/-- An element that fits the first element of the other list can be taken at its place, if no
element before it fits. -/
theorem rearranged_insert {x y : α} {xs before after : List α}
    (h : rearranged eqv (before ++ after) xs = true) (hbefore : ∀ z ∈ before, eqv z x = false)
    (hy : eqv y x = true) : rearranged eqv (before ++ y :: after) (x :: xs) = true := by
  induction before generalizing xs with
  | nil => simpa [rearranged_cons, hy] using h
  | cons z before ih =>
    have hz := hbefore z List.mem_cons_self
    rw [List.cons_append, rearranged_cons, Bool.and_eq_true] at h ⊢
    rw [List.any_cons, hz, Bool.false_or, List.eraseP_cons_of_neg (by simp [hz])]
    exact ⟨h.1, ih h.2 fun w hw => hbefore w (List.mem_cons_of_mem z hw)⟩

theorem rearranged_symm {xs ys : List α} (hsymm : ∀ x ∈ xs, ∀ y ∈ ys, eqv x y = eqv y x)
    (h : rearranged eqv xs ys = true) : rearranged eqv ys xs = true := by
  induction xs generalizing ys with
  | nil =>
    rw [rearranged, List.isEmpty_iff] at h
    rw [h]
    rfl
  | cons x xs ih =>
    rw [rearranged_cons, Bool.and_eq_true, List.any_eq_true] at h
    obtain ⟨⟨w, hw, hxw⟩, hrest⟩ := h
    -- the element that is taken is the first that fits, so none before it does
    obtain ⟨y, before, after, hbefore, hy, rfl, herase⟩ := List.exists_of_eraseP hw hxw
    have hx := hsymm x List.mem_cons_self
    rw [herase] at hrest
    refine rearranged_insert (ih (fun z hz v hv => ?_) hrest) (fun z hz => ?_) ?_
    · refine hsymm z (List.mem_cons_of_mem x hz) v ?_
      exact ((List.sublist_cons_self y after).append_left before).subset hv
    · rw [← hx z (List.mem_append_left _ hz)]
      simpa using hbefore z hz
    · rw [← hx y (by simp), hy]

/-- **Equality up to order is symmetric.** -/
theorem rearranged_comm {xs ys : List α} (hsymm : ∀ x ∈ xs, ∀ y ∈ ys, eqv x y = eqv y x) :
    rearranged eqv xs ys = rearranged eqv ys xs := by
  rw [Bool.eq_iff_iff]
  exact ⟨rearranged_symm hsymm, rearranged_symm fun y hy x hx => (hsymm x hx y hy).symm⟩

/-! ## Counting -/

/-- Lists that are equal up to order have as many elements with a property that does not tell equal
elements apart. -/
theorem countP_eq_of_rearranged {p : α → Bool} {xs ys : List α}
    (hp : ∀ x ∈ xs, ∀ y ∈ ys, eqv x y = true → p x = p y) (h : rearranged eqv xs ys = true) :
    xs.countP p = ys.countP p := by
  induction xs generalizing ys with
  | nil =>
    rw [rearranged, List.isEmpty_iff] at h
    rw [h]
  | cons x xs ih =>
    rw [rearranged_cons, Bool.and_eq_true, List.any_eq_true] at h
    obtain ⟨⟨w, hw, hxw⟩, hrest⟩ := h
    obtain ⟨y, before, after, -, hy, rfl, herase⟩ := List.exists_of_eraseP hw hxw
    rw [herase] at hrest
    have hcount := ih (fun z hz v hv => hp z (List.mem_cons_of_mem x hz) v
      (((List.sublist_cons_self y after).append_left before).subset hv)) hrest
    rw [List.countP_append] at hcount ⊢
    rw [List.countP_cons, List.countP_cons, hcount, hp x List.mem_cons_self y (by simp) hy]
    omega

section Counting

variable (hsymm : ∀ x y, eqv x y = eqv y x)
include hsymm

/-- Equal elements are equal to the same elements. -/
theorem eqv_congr_right {x y z : α}
    (htrans : ∀ y z, eqv x y = true → eqv y z = true → eqv x z = true)
    (hyz : eqv y z = true) : eqv x y = eqv x z := by
  rw [Bool.eq_iff_iff]
  exact ⟨fun hxy => htrans y z hxy hyz, fun hxz => htrans z y hxz ((hsymm z y).trans hyz)⟩

/-- Lists in which every element is as often as in the other are equal up to order. -/
theorem rearranged_of_countP {xs ys : List α} (hrefl : ∀ x ∈ xs, eqv x x = true)
    (htrans : ∀ x ∈ xs, ∀ y z, eqv x y = true → eqv y z = true → eqv x z = true)
    (hlength : xs.length = ys.length) (hcount : ∀ x ∈ xs, xs.countP (eqv x) = ys.countP (eqv x)) :
    rearranged eqv xs ys = true := by
  induction xs generalizing ys with
  | nil =>
    rw [List.length_nil, eq_comm, List.length_eq_zero_iff] at hlength
    rw [hlength]
    rfl
  | cons x xs ih =>
    have hmem : ∃ w ∈ ys, eqv x w = true := by
      rw [← List.countP_pos_iff, ← hcount x List.mem_cons_self, List.countP_pos_iff]
      exact ⟨x, List.mem_cons_self, hrefl x List.mem_cons_self⟩
    obtain ⟨w, hw, hxw⟩ := hmem
    obtain ⟨y, before, after, -, hy, rfl, herase⟩ := List.exists_of_eraseP hw hxw
    rw [rearranged_cons, Bool.and_eq_true, List.any_eq_true, herase]
    refine ⟨⟨w, hw, hxw⟩, ih (fun z hz => hrefl z (List.mem_cons_of_mem x hz))
      (fun z hz => htrans z (List.mem_cons_of_mem x hz)) ?_ fun z hz => ?_⟩
    · simp only [List.length_cons, List.length_append] at hlength ⊢
      omega
    · -- what was taken out of the two lists fits the same elements
      have hz := hcount z (List.mem_cons_of_mem x hz)
      rw [List.countP_append, List.countP_cons, List.countP_cons,
        eqv_congr_right hsymm (htrans z (List.mem_cons_of_mem x ‹_›)) hy] at hz
      rw [List.countP_append]
      omega

/-- **Equality up to order is transitive.** -/
theorem rearranged_trans {xs ys zs : List α} (hrefl : ∀ x ∈ xs, eqv x x = true)
    (htrans : ∀ x ∈ xs, ∀ y z, eqv x y = true → eqv y z = true → eqv x z = true)
    (hxy : rearranged eqv xs ys = true) (hyz : rearranged eqv ys zs = true) :
    rearranged eqv xs zs = true := by
  refine rearranged_of_countP hsymm hrefl htrans
    ((length_eq_of_rearranged hxy).trans (length_eq_of_rearranged hyz)) fun x hx => ?_
  have hp : ∀ y z, eqv y z = true → eqv x y = eqv x z := fun y z =>
    eqv_congr_right hsymm (htrans x hx)
  rw [countP_eq_of_rearranged (fun y _ z _ => hp y z) hxy,
    countP_eq_of_rearranged (fun y _ z _ => hp y z) hyz]

end Counting

/-! ## Maps -/

section Missing

variable {β : Type} {r : β → β → Prop} {a b c : Option β}

theorem rel_symm (hr : ∀ x y, r x y → r y x) (h : Option.Rel r a b) : Option.Rel r b a := by
  cases h with
  | none => exact .none
  | some hxy => exact .some (hr _ _ hxy)

theorem rel_trans (hr : ∀ x y z, r x y → r y z → r x z) (h : Option.Rel r a b)
    (h' : Option.Rel r b c) : Option.Rel r a c := by
  cases h with
  | none => exact h'
  | some hxy =>
    cases h' with
    | some hyz => exact .some (hr _ _ _ hxy hyz)

end Missing

/-- Equality of maps is an equivalence if equality of values is. -/
instance OrderedMap.instEquivBEq {α β : Type} [DecidableEq α] [BEq β] [EquivBEq β] :
    EquivBEq (OrderedMap α β) where
  rfl := OrderedMap.beq_self _
  symm h := OrderedMap.beq_iff.2 fun k =>
    rel_symm (fun _ _ => PartialEquivBEq.symm) (OrderedMap.beq_iff.1 h k)
  trans h h' := OrderedMap.beq_iff.2 fun k =>
    rel_trans (fun _ _ _ => PartialEquivBEq.trans) (OrderedMap.beq_iff.1 h k)
      (OrderedMap.beq_iff.1 h' k)

end RouteTrie
