import Mathlib.Data.List.Forall2
import RouteTrie.Rearrangement

/-!
# Matching two lists

Two lists match if their elements can be paired one to one so that every pair fits.  Lists that are
equal up to order match, and whatever is made of the elements one by one matches again: their
images, those of them that pass a test, lists that are made of each.

Where fitting is an equivalence and no two elements of one list fit each other, it is enough that
every element has a partner in the other list.

## What is here

* `exists_of_forall₂`: the partners of the elements of lists that fit element by element.
* `Matched`: the relation, with `Matched.map`, `Matched.filter`, `Matched.flatMap`.
* `Matched.perm_map`: where partners have the same image, so have the lists.
* `Matched.of_rearranged`: lists that are equal up to order match.
* `Matched.of_partners`: lists in which every element has one partner match.
-/

set_option autoImplicit false

namespace RouteTrie

variable {α β γ δ : Type} {r : α → β → Prop} {s : γ → δ → Prop}

/-- In lists that are related element by element, every element has a partner. -/
theorem exists_of_forall₂ {l : List α} {l' : List β}
    (h : List.Forall₂ r l l') : (∀ a ∈ l, ∃ b ∈ l', r a b) ∧ ∀ b ∈ l', ∃ a ∈ l, r a b := by
  induction h with
  | nil => simp
  | @cons a b l l' hab _ ih =>
    refine ⟨fun x hx => ?_, fun y hy => ?_⟩
    · rcases List.mem_cons.1 hx with rfl | hx
      · exact ⟨b, List.mem_cons_self, hab⟩
      · obtain ⟨y, hy, hxy⟩ := ih.1 x hx
        exact ⟨y, List.mem_cons_of_mem b hy, hxy⟩
    · rcases List.mem_cons.1 hy with rfl | hy
      · exact ⟨a, List.mem_cons_self, hab⟩
      · obtain ⟨x, hx, hxy⟩ := ih.2 y hy
        exact ⟨x, List.mem_cons_of_mem a hx, hxy⟩

/-- The elements of the lists can be paired one to one so that every pair fits: in some order, the
second list fits the first one element by element. -/
def Matched (r : α → β → Prop) (xs : List α) (ys : List β) : Prop :=
  ∃ zs, List.Forall₂ r xs zs ∧ zs.Perm ys

namespace Matched

variable {xs xs' : List α} {ys ys' : List β}

theorem nil : Matched r [] [] := ⟨[], .nil, .refl _⟩

theorem cons {x : α} {y : β} (hxy : r x y) (h : Matched r xs ys) :
    Matched r (x :: xs) (y :: ys) := by
  obtain ⟨zs, hall, hperm⟩ := h
  exact ⟨y :: zs, .cons hxy hall, hperm.cons y⟩

theorem trans_perm (h : Matched r xs ys) (hperm : ys.Perm ys') : Matched r xs ys' := by
  obtain ⟨zs, hall, hzs⟩ := h
  exact ⟨zs, hall, hzs.trans hperm⟩

theorem append (h : Matched r xs ys) (h' : Matched r xs' ys') :
    Matched r (xs ++ xs') (ys ++ ys') := by
  obtain ⟨zs, hall, hperm⟩ := h
  obtain ⟨zs', hall', hperm'⟩ := h'
  exact ⟨zs ++ zs', List.rel_append hall hall', hperm.append hperm'⟩

/-! ## Partners -/

theorem length_eq (h : Matched r xs ys) : xs.length = ys.length := by
  obtain ⟨zs, hall, hperm⟩ := h
  exact hall.length_eq.trans hperm.length_eq

theorem exists_right (h : Matched r xs ys) {x : α} (hx : x ∈ xs) : ∃ y ∈ ys, r x y := by
  obtain ⟨zs, hall, hperm⟩ := h
  obtain ⟨y, hy, hxy⟩ := (exists_of_forall₂ hall).1 x hx
  exact ⟨y, hperm.mem_iff.1 hy, hxy⟩

theorem exists_left (h : Matched r xs ys) {y : β} (hy : y ∈ ys) : ∃ x ∈ xs, r x y := by
  obtain ⟨zs, hall, hperm⟩ := h
  exact (exists_of_forall₂ hall).2 y (hperm.mem_iff.2 hy)

/-! ## What is made of the elements -/

theorem map (h : Matched r xs ys) {f : α → γ} {g : β → δ} (hfg : ∀ x y, r x y → s (f x) (g y)) :
    Matched s (xs.map f) (ys.map g) := by
  obtain ⟨zs, hall, hperm⟩ := h
  exact ⟨zs.map g, List.rel_map (fun x y => hfg x y) hall, hperm.map g⟩

theorem filter (h : Matched r xs ys) {p : α → Bool} {q : β → Bool}
    (hpq : ∀ x y, r x y → p x = q y) : Matched r (xs.filter p) (ys.filter q) := by
  obtain ⟨zs, hall, hperm⟩ := h
  exact ⟨zs.filter q, List.rel_filter (fun x y hxy => Bool.eq_iff_iff.1 (hpq x y hxy)) hall,
    hperm.filter q⟩

theorem flatMap (h : Matched r xs ys) {f : α → List γ} {g : β → List δ}
    (hfg : ∀ x y, r x y → Matched s (f x) (g y)) : Matched s (xs.flatMap f) (ys.flatMap g) := by
  obtain ⟨zs, hall, hperm⟩ := h
  refine Matched.trans_perm ?_ (hperm.flatMap_right g)
  clear hperm
  induction hall with
  | nil => exact nil
  | @cons x z _ _ hxz _ ih => exact (hfg x z hxz).append ih

/-- Where partners have the same image, the lists have the same images. -/
theorem perm_map (h : Matched r xs ys) {f : α → γ} {g : β → γ} (hfg : ∀ x y, r x y → f x = g y) :
    (xs.map f).Perm (ys.map g) := by
  obtain ⟨zs, hall, hperm⟩ := h
  have heq : xs.map f = zs.map g := by
    induction hall generalizing ys with
    | nil => rfl
    | @cons x z _ zs hxz _ ih => rw [List.map_cons, List.map_cons, hfg x z hxz, ih (.refl zs)]
  rw [heq]
  exact hperm.map g

/-! ## Equality up to order -/

/-- **Lists that are equal up to order match.** -/
theorem of_rearranged {eqv : α → α → Bool} {r : α → α → Prop} {xs ys : List α}
    (hr : ∀ x ∈ xs, ∀ y ∈ ys, eqv x y = true → r x y) (h : rearranged eqv xs ys = true) :
    Matched r xs ys := by
  induction xs generalizing ys with
  | nil =>
    rw [rearranged, List.isEmpty_iff] at h
    rw [h]
    exact nil
  | cons x xs ih =>
    rw [rearranged_cons, Bool.and_eq_true, List.any_eq_true] at h
    obtain ⟨⟨w, hw, hxw⟩, hrest⟩ := h
    obtain ⟨y, before, after, -, hxy, rfl, herase⟩ := List.exists_of_eraseP hw hxw
    rw [herase] at hrest
    have hsub : before ++ after ⊆ before ++ y :: after :=
      ((List.sublist_cons_self y after).append_left before).subset
    have hmatched := ih (fun z hz v hv => hr z (List.mem_cons_of_mem x hz) v (hsub hv)) hrest
    exact (hmatched.cons (hr x List.mem_cons_self y (by simp) hxy)).trans_perm
      List.perm_middle.symm

/-- **Lists in which every element has a partner match**, if to be partners is an equivalence and no
two elements of the same list are partners. -/
theorem of_partners (partner : α → α → Prop) {r : α → α → Prop} {xs ys : List α}
    (hsymm : ∀ x y, partner x y → partner y x)
    (htrans : ∀ x y z, partner x y → partner y z → partner x z)
    (hxs : xs.Pairwise fun x y => ¬partner x y) (hys : ys.Pairwise fun x y => ¬partner x y)
    (forth : ∀ x ∈ xs, ∃ y ∈ ys, partner x y) (back : ∀ y ∈ ys, ∃ x ∈ xs, partner x y)
    (hr : ∀ x ∈ xs, ∀ y ∈ ys, partner x y → r x y) : Matched r xs ys := by
  induction xs generalizing ys with
  | nil =>
    have hnil : ys = [] := List.eq_nil_iff_forall_not_mem.2 fun y hy => by
      obtain ⟨x, hx, -⟩ := back y hy
      cases hx
    rw [hnil]
    exact nil
  | cons x xs ih =>
    rw [List.pairwise_cons] at hxs
    obtain ⟨y, hy, hxy⟩ := forth x List.mem_cons_self
    obtain ⟨before, after, rfl⟩ := List.append_of_mem hy
    -- with the partner of `x` in front, there are still no two partners in its list
    have hperm : (before ++ y :: after).Perm (y :: (before ++ after)) := List.perm_middle
    have hys' := (hperm.pairwise_iff fun h h' => h (hsymm _ _ h')).1 hys
    rw [List.pairwise_cons] at hys'
    have hmem : ∀ w ∈ before ++ after, w ∈ before ++ y :: after := fun w hw =>
      hperm.mem_iff.2 (List.mem_cons_of_mem y hw)
    have hrest : Matched r xs (before ++ after) := by
      refine ih hxs.2 hys'.2 (fun z hz => ?_) (fun w hw => ?_) fun z hz w hw =>
        hr z (List.mem_cons_of_mem x hz) w (hmem w hw)
      · obtain ⟨w, hw, hzw⟩ := forth z (List.mem_cons_of_mem x hz)
        rcases List.mem_cons.1 (hperm.mem_iff.1 hw) with rfl | hw
        · exact absurd (htrans x w z hxy (hsymm z w hzw)) (hxs.1 z hz)
        · exact ⟨w, hw, hzw⟩
      · obtain ⟨z, hz, hzw⟩ := back w (hmem w hw)
        rcases List.mem_cons.1 hz with rfl | hz
        · exact absurd (htrans y z w (hsymm z y hxy) hzw) (hys'.1 w hw)
        · exact ⟨z, hz, hzw⟩
    exact (hrest.cons (hr x List.mem_cons_self y hy hxy)).trans_perm hperm.symm

end Matched

end RouteTrie
