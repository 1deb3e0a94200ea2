/-!
# Texts made of separated fields

`fields sep` cuts a text at every separator, `join sep` writes the separators back.

## What is here

* `fields`, `join`: the two directions.
* `join_fields`: joining the fields of a text gives the text.
* `fields_join`: cutting a joined list gives the list, when no field holds the separator.
* `isWord`: the characters of which method and variable names consist.
-/

set_option autoImplicit false

namespace RouteTrie.Text

/-- An ASCII letter, a digit or an underscore. -/
def isWord (c : Char) : Bool := c.isAlphanum || c == '_'

/-- The pieces between the separators; there is one more piece than separators. -/
def fields (sep : Char) : List Char → List (List Char)
  | [] => [[]]
  | c :: cs =>
    if c = sep then [] :: fields sep cs
    else
      match fields sep cs with
      | [] => [[c]]
      | f :: fs => (c :: f) :: fs

/-- The fields with a separator between neighbours. -/
def join (sep : Char) : List (List Char) → List Char
  | [] => []
  | [f] => f
  | f :: g :: fs => f ++ sep :: join sep (g :: fs)

theorem fields_ne_nil (sep : Char) (cs : List Char) : fields sep cs ≠ [] := by
  cases cs with
  | nil => simp [fields]
  | cons c cs =>
    rw [fields]
    split
    · simp
    · split <;> simp

theorem join_cons {sep : Char} {f : List Char} {fs : List (List Char)} (h : fs ≠ []) :
    join sep (f :: fs) = f ++ sep :: join sep fs := by
  cases fs with
  | nil => exact absurd rfl h
  | cons g gs => rfl

/-- Joining the fields of a text gives the text. -/
theorem join_fields (sep : Char) (cs : List Char) : join sep (fields sep cs) = cs := by
  induction cs with
  | nil => rfl
  | cons c cs ih =>
    rw [fields]
    split
    · rename_i h
      rw [join_cons (fields_ne_nil sep cs), ih, h, List.nil_append]
    · cases hf : fields sep cs with
      | nil => exact absurd hf (fields_ne_nil sep cs)
      | cons f fs =>
        rw [hf] at ih
        cases fs with
        | nil => simpa [join] using ih
        | cons g gs => simpa [join] using ih

theorem fields_eq_singleton {sep : Char} {f : List Char} (h : sep ∉ f) : fields sep f = [f] := by
  induction f with
  | nil => rfl
  | cons c f ih =>
    rw [List.mem_cons, not_or] at h
    have hc : ¬c = sep := fun e => h.1 e.symm
    simp [fields, hc, ih h.2]

theorem fields_append {sep : Char} {f : List Char} (h : sep ∉ f) (cs : List Char) :
    fields sep (f ++ sep :: cs) = f :: fields sep cs := by
  induction f with
  | nil => simp [fields]
  | cons c f ih =>
    rw [List.mem_cons, not_or] at h
    have hc : ¬c = sep := fun e => h.1 e.symm
    simp [fields, hc, ih h.2]

/-- Cutting a joined list gives the list back, when no field holds the separator. -/
theorem fields_join {sep : Char} {fs : List (List Char)} (hne : fs ≠ []) (h : ∀ f ∈ fs, sep ∉ f) :
    fields sep (join sep fs) = fs := by
  induction fs with
  | nil => exact absurd rfl hne
  | cons f fs ih =>
    cases fs with
    | nil => exact fields_eq_singleton (h f (by simp))
    | cons g gs =>
      rw [join, fields_append (h f (by simp)),
        ih (by simp) fun x hx => h x (List.mem_cons_of_mem f hx)]

end RouteTrie.Text
