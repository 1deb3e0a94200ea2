import Mathlib.Data.List.Basic

/-!
# Texts that can be taken apart in one way only

A text whose first part consists of characters that the second part does not start with can be cut
in one place.  So lines can be told from each other by the line feeds at their ends, and the
elements of a list by the commas between them.

## What is here

* `Text.append_inj_of_head`, `Text.append_cons_inj`: where the first part ends.
* `Text.lines_inj`: lines with a line feed at the end of each.
* `Text.intercalate_inj`, `Text.exists_of_mem_intercalate`: elements with a comma and a space
  between them.
* `Text.map_inj_on`: elements with different texts each.
-/

set_option autoImplicit false

namespace RouteTrie.Text

/-- The first parts end where the property of their elements fails. -/
theorem append_inj_of_head {α : Type} {p : α → Prop} {xs ys s t : List α} (hxs : ∀ x ∈ xs, p x)
    (hys : ∀ y ∈ ys, p y) (hs : ∀ a ∈ s.head?, ¬p a) (ht : ∀ a ∈ t.head?, ¬p a)
    (h : xs ++ s = ys ++ t) : xs = ys ∧ s = t := by
  induction xs generalizing ys with
  | nil =>
    cases ys with
    | nil => exact ⟨rfl, h⟩
    | cons y ys =>
      rw [List.nil_append] at h
      exact absurd (hys y List.mem_cons_self) (hs y (by rw [h]; rfl))
  | cons x xs ih =>
    cases ys with
    | nil =>
      rw [List.nil_append] at h
      exact absurd (hxs x List.mem_cons_self) (ht x (by rw [← h]; rfl))
    | cons y ys =>
      rw [List.cons_append, List.cons_append, List.cons.injEq] at h
      obtain ⟨rfl, rfl⟩ := ih (fun z hz => hxs z (List.mem_cons_of_mem x hz))
        (fun z hz => hys z (List.mem_cons_of_mem y hz)) h.2
      exact ⟨by rw [h.1], rfl⟩

/-- The first parts end at the first separator. -/
theorem append_cons_inj {sep : Char} {xs ys s t : List Char} (hxs : sep ∉ xs) (hys : sep ∉ ys)
    (h : xs ++ sep :: s = ys ++ sep :: t) : xs = ys ∧ s = t := by
  have hne : ∀ zs : List Char, sep ∉ zs → ∀ z ∈ zs, z ≠ sep := fun zs hzs z hz e => hzs (e ▸ hz)
  obtain ⟨rfl, hrest⟩ := append_inj_of_head (p := fun c => c ≠ sep) (hne xs hxs) (hne ys hys)
    (fun a ha => by cases ha; simp) (fun a ha => by cases ha; simp) h
  exact ⟨rfl, (List.cons.inj hrest).2⟩

/-- Lines without line feeds inside are told by the line feeds at their ends. -/
theorem lines_inj {ls ks : List (List Char)} (hls : ∀ l ∈ ls, '\n' ∉ l) (hks : ∀ k ∈ ks, '\n' ∉ k)
    (h : (ls.flatMap fun l => l ++ ['\n']) = ks.flatMap fun k => k ++ ['\n']) : ls = ks := by
  induction ls generalizing ks with
  | nil =>
    cases ks with
    | nil => rfl
    | cons k ks => simp at h
  | cons l ls ih =>
    cases ks with
    | nil => simp at h
    | cons k ks =>
      rw [List.flatMap_cons, List.flatMap_cons, List.append_assoc, List.append_assoc] at h
      obtain ⟨rfl, hrest⟩ := append_cons_inj (hls l List.mem_cons_self) (hks k List.mem_cons_self) h
      rw [ih (fun x hx => hls x (List.mem_cons_of_mem l hx))
        (fun x hx => hks x (List.mem_cons_of_mem l hx)) hrest]

/-- Elements without commas inside are told by the commas between them. -/
theorem intercalate_inj {fs gs : List (List Char)} (hfs : ∀ f ∈ fs, ',' ∉ f)
    (hgs : ∀ g ∈ gs, ',' ∉ g) (hf : fs ≠ []) (hg : gs ≠ [])
    (h : [',', ' '].intercalate fs = [',', ' '].intercalate gs) : fs = gs := by
  have hcons : ∀ (x y : List Char) (zs : List (List Char)),
      [',', ' '].intercalate (x :: y :: zs) = x ++ ',' :: ' ' :: [',', ' '].intercalate (y :: zs) :=
    fun x y zs => by rw [List.intercalate_cons_cons, List.append_assoc]; rfl
  induction fs generalizing gs with
  | nil => exact absurd rfl hf
  | cons f fs ih =>
    obtain ⟨g, gs, rfl⟩ := List.exists_cons_of_ne_nil hg
    have hcf := hfs f List.mem_cons_self
    have hcg := hgs g List.mem_cons_self
    cases fs with
    | nil =>
      cases gs with
      | nil =>
        rw [List.intercalate_singleton, List.intercalate_singleton] at h
        rw [h]
      | cons g' gs =>
        rw [List.intercalate_singleton, hcons] at h
        exact absurd (by rw [h]; simp) hcf
    | cons f' fs =>
      cases gs with
      | nil =>
        rw [List.intercalate_singleton, hcons] at h
        exact absurd (by rw [← h]; simp) hcg
      | cons g' gs =>
        rw [hcons, hcons] at h
        obtain ⟨rfl, hrest⟩ := append_cons_inj hcf hcg h
        rw [ih (fun x hx => hfs x (List.mem_cons_of_mem f hx))
          (fun x hx => hgs x (List.mem_cons_of_mem f hx)) (by simp) (by simp)
          (List.cons.inj hrest).2]

/-- Nothing stands between elements but commas and spaces. -/
theorem exists_of_mem_intercalate {fs : List (List Char)} {c : Char} (hcomma : c ≠ ',')
    (hspace : c ≠ ' ') (h : c ∈ [',', ' '].intercalate fs) : ∃ f ∈ fs, c ∈ f := by
  induction fs with
  | nil => cases h
  | cons f fs ih =>
    by_cases hfs : fs = []
    · subst hfs
      rw [List.intercalate_singleton] at h
      exact ⟨f, List.mem_singleton_self f, h⟩
    · rw [List.intercalate_cons_of_ne_nil hfs] at h
      simp only [List.mem_append, List.mem_cons, hcomma, hspace, List.not_mem_nil, or_false] at h
      rcases h with h | h
      · exact ⟨f, List.mem_cons_self, h⟩
      · obtain ⟨g, hg, hc⟩ := ih h
        exact ⟨g, List.mem_cons_of_mem f hg, hc⟩

/-- Lists are told by the texts of their elements, if these have different texts. -/
theorem map_inj_on {α β : Type} {f : α → β} {xs ys : List α}
    (hf : ∀ x ∈ xs, ∀ y ∈ ys, f x = f y → x = y) (h : xs.map f = ys.map f) : xs = ys := by
  induction xs generalizing ys with
  | nil => exact (List.map_eq_nil_iff.1 h.symm).symm
  | cons x xs ih =>
    cases ys with
    | nil => cases h
    | cons y ys =>
      rw [List.map_cons, List.map_cons, List.cons.injEq] at h
      rw [hf x List.mem_cons_self y List.mem_cons_self h.1,
        ih (fun a ha b hb => hf a (List.mem_cons_of_mem x ha) b (List.mem_cons_of_mem y hb)) h.2]

end RouteTrie.Text
