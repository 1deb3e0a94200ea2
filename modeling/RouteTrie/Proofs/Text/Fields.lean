import RouteTrie.Text.Fields

/-!
# What fields consist of

The fields of a text hold its characters except the separators, and a single empty field is all
that the empty text has.  At a separator, a text can be cut in two before its fields are.

## What is here

* `Text.mem_of_mem_fields`, `Text.not_mem_of_mem_fields`: the characters of a field.
* `Text.eq_or_exists_of_mem_join`: the characters of joined fields.
* `Text.eq_singleton_nil_of_join_eq_nil`, `Text.eq_nil_of_fields_eq`: joining gives nothing only for a
  single empty field, and cutting gives that only for nothing.
* `Text.fields_append_cons`: the fields of two texts with a separator between them.
* `Text.span_append`: a scan ends in front of the first character that is not scanned.
-/

set_option autoImplicit false

namespace RouteTrie.Text

/-- A field holds characters of the text. -/
theorem mem_of_mem_fields {sep : Char} {cs f : List Char} (hf : f ∈ fields sep cs) {c : Char}
    (hc : c ∈ f) : c ∈ cs := by
  induction cs generalizing f with
  | nil =>
    rw [fields, List.mem_singleton] at hf
    rw [hf] at hc
    cases hc
  | cons d cs ih =>
    rw [fields] at hf
    split at hf
    · rcases List.mem_cons.1 hf with rfl | hf
      · cases hc
      · exact List.mem_cons_of_mem d (ih hf hc)
    · split at hf
      · rename_i hnil
        exact absurd hnil (fields_ne_nil sep cs)
      · rename_i g gs hg
        rcases List.mem_cons.1 hf with rfl | hf
        · rcases List.mem_cons.1 hc with rfl | hc
          · exact List.mem_cons_self
          · exact List.mem_cons_of_mem d (ih (hg ▸ List.mem_cons_self) hc)
        · exact List.mem_cons_of_mem d (ih (hg ▸ List.mem_cons_of_mem g hf) hc)

theorem not_mem_of_mem_fields {sep : Char} {cs f : List Char} (h : f ∈ fields sep cs) :
    sep ∉ f := by
  induction cs generalizing f with
  | nil =>
    rw [fields, List.mem_singleton] at h
    simp [h]
  | cons c cs ih =>
    rw [fields] at h
    split at h
    · rcases List.mem_cons.1 h with rfl | h
      · simp
      · exact ih h
    · rename_i hc
      split at h
      · rename_i hnil
        exact absurd hnil (fields_ne_nil sep cs)
      · rename_i g gs hg
        rcases List.mem_cons.1 h with rfl | h
        · have hgs := ih (hg ▸ List.mem_cons_self)
          exact fun hm => (List.mem_cons.1 hm).elim (fun e => hc e.symm) hgs
        · exact ih (hg ▸ List.mem_cons_of_mem g h)

/-- Joining adds nothing but separators. -/
theorem eq_or_exists_of_mem_join {sep : Char} {fs : List (List Char)} {c : Char}
    (h : c ∈ join sep fs) : c = sep ∨ ∃ f ∈ fs, c ∈ f := by
  induction fs with
  | nil => cases h
  | cons f fs ih =>
    cases fs with
    | nil => exact .inr ⟨f, List.mem_singleton_self f, h⟩
    | cons g gs =>
      rw [join, List.mem_append, List.mem_cons] at h
      rcases h with h | h | h
      · exact .inr ⟨f, List.mem_cons_self, h⟩
      · exact .inl h
      · rcases ih h with h | ⟨k, hk, hc⟩
        · exact .inl h
        · exact .inr ⟨k, List.mem_cons_of_mem f hk, hc⟩

theorem eq_singleton_nil_of_join_eq_nil {sep : Char} {fs : List (List Char)} (hne : fs ≠ [])
    (h : join sep fs = []) : fs = [[]] := by
  match fs with
  | [] => exact absurd rfl hne
  | [f] => rw [join] at h; rw [h]
  | f :: g :: gs => simp [join] at h

/-- Only the empty text has a single empty field. -/
theorem eq_nil_of_fields_eq {sep : Char} {cs : List Char} (h : fields sep cs = [[]]) : cs = [] := by
  have hback := join_fields sep cs
  rw [h] at hback
  exact hback.symm

/-- A separator between two texts separates their fields. -/
theorem fields_append_cons (sep : Char) (cs ds : List Char) :
    fields sep (cs ++ sep :: ds) = fields sep cs ++ fields sep ds := by
  induction cs with
  | nil => simp [fields]
  | cons c cs ih =>
    rw [List.cons_append, fields, fields, ih]
    split
    · rfl
    · -- the first field of the two texts is that of the first text
      cases hf : fields sep cs with
      | nil => exact absurd hf (fields_ne_nil sep cs)
      | cons f fs => rfl

/-- A scan ends in front of the first character that is not scanned. -/
theorem span_append {p : Char → Bool} {cs ds : List Char} (hcs : ∀ c ∈ cs, p c = true)
    (hds : ds.head?.any p = false) :
    (cs ++ ds).takeWhile p = cs ∧ (cs ++ ds).dropWhile p = ds := by
  rw [List.takeWhile_append_of_pos hcs, List.dropWhile_append_of_pos hcs]
  cases ds with
  | nil => exact ⟨List.append_nil cs, rfl⟩
  | cons d ds =>
    have hd : ¬p d = true := Bool.eq_false_iff.1 hds
    rw [List.takeWhile_cons_of_neg hd, List.dropWhile_cons_of_neg hd]
    exact ⟨List.append_nil cs, rfl⟩

end RouteTrie.Text
