import RouteTrie.Proofs.Key.Grammar
import RouteTrie.Proofs.Path.Pattern

/-!
# The literal segments of keys

Not every text can be a literal segment.  A path is cut at its slashes and ends at the first blank,
and a segment that is a star or has the form of a variable is a variable position.

## What is here

* `Segment.LiteralText`: what is left for the texts of literals.
* `Path.exists_text_of_mem_segments`: where a segment of a path comes from.
* `RouteKey.literalText_of_parse`: the literals on the path of a key.
-/

set_option autoImplicit false

namespace RouteTrie

/-- The texts of literal segments. -/
structure Segment.LiteralText (text : String) : Prop where
  /-- The text is not a star. -/
  not_star : text ≠ "*"
  /-- There is no slash in it. -/
  not_slash : '/' ∉ text.toList
  /-- There is no blank in it. -/
  not_blank : ∀ c ∈ text.toList, Text.isBlank c = false
  /-- It is not a colon with a name behind it. -/
  not_colon : ∀ name : List Char, name ≠ [] → (∀ c ∈ name, Text.isWord c = true) →
    text.toList ≠ ':' :: name
  /-- It is not a name between braces. -/
  not_braces : ∀ name : List Char, name ≠ [] → (∀ c ∈ name, Text.isWord c = true) →
    text.toList ≠ '\x7b' :: (name ++ ['\x7d'])

namespace Segment

theorem variableName?_colon {name : List Char} (hne : name ≠ [])
    (hword : ∀ c ∈ name, Text.isWord c = true) : variableName? (':' :: name) = some name := by
  simpa [variableName?, hne] using hword

theorem variableName?_braces {name : List Char} (hne : name ≠ [])
    (hword : ∀ c ∈ name, Text.isWord c = true) :
    variableName? ('\x7b' :: (name ++ ['\x7d'])) = some name := by
  simpa [variableName?, hne] using hword

/-- A text that becomes a literal stays as it is. -/
theorem ofText_eq_literal_iff {text : List Char} {t : String} :
    ofText text = literal t ↔ t.toList = text ∧ variableName? text = none ∧ text ≠ ['*'] := by
  rw [ofText]
  split
  · rename_i h
    simp only [Bool.or_eq_true, beq_iff_eq] at h
    constructor
    · intro hlit
      cases hlit
    · rintro ⟨-, hnone, hstar⟩
      rcases h with h | h
      · simp [hnone] at h
      · exact absurd h hstar
  · rename_i h
    simp only [Bool.or_eq_true, beq_iff_eq, not_or, Option.not_isSome_iff_eq_none] at h
    rw [literal.injEq]
    constructor
    · rintro rfl
      exact ⟨String.toList_ofList, h⟩
    · rintro ⟨rfl, -⟩
      exact String.ofList_toList

/-- A literal that comes from a text without slashes and blanks. -/
theorem literalText_of_ofText {text : List Char} {t : String} (h : ofText text = literal t)
    (hslash : '/' ∉ text) (hblank : ∀ c ∈ text, Text.isBlank c = false) : LiteralText t := by
  obtain ⟨rfl, hnone, hstar⟩ := ofText_eq_literal_iff.1 h
  refine ⟨?_, hslash, hblank, fun name hne hword heq => ?_, fun name hne hword heq => ?_⟩
  · rintro rfl
    exact hstar rfl
  · rw [heq, variableName?_colon hne hword] at hnone
    cases hnone
  · rw [heq, variableName?_braces hne hword] at hnone
    cases hnone

end Segment

/-- A segment of a path comes from a text between its slashes. -/
theorem Path.exists_text_of_mem_segments {p : String} {path : Path} (h : Path.parse p = .ok path)
    {a : Segment} (ha : a ∈ path.segments) :
    ∃ text : List Char, Segment.ofText text = a ∧ '/' ∉ text ∧ ∀ c ∈ text, c ∈ p.toList := by
  obtain ⟨texts, htexts, rfl⟩ := parse_eq_ok_iff.1 h
  obtain ⟨text, htext, rfl⟩ := List.mem_map.1 ha
  rcases texts?_eq_some_iff.1 htexts with ⟨-, rfl⟩ | ⟨rest, -, hp, rfl⟩
  · cases htext
  · refine ⟨text, rfl, Text.not_mem_of_mem_fields htext, fun c hc => ?_⟩
    rw [hp]
    exact List.mem_cons_of_mem _ (Text.mem_of_mem_fields htext hc)

namespace RouteKey

/-- **The literals on the path of a key** have texts of literals. -/
theorem literalText_of_parse {key written : String} {methods : List String} {path : Path}
    (hkey : parse key = .ok (.route methods written)) (hpath : Path.parse written = .ok path)
    {t : String} (ht : .literal t ∈ path.segments) : Segment.LiteralText t := by
  obtain ⟨text, htext, hslash, hmem⟩ := Path.exists_text_of_mem_segments hpath ht
  exact Segment.literalText_of_ofText htext hslash fun c hc =>
    not_isBlank_of_parse hkey c (hmem c hc)

end RouteKey

end RouteTrie
