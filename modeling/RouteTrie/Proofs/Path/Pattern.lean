import RouteTrie.Path
import RouteTrie.Proofs.Text.Fields

/-!
# The pattern of a path as its normal form

A list of segments cannot in general be read off its pattern: no segments and a single empty one are
both written `/`, and a literal could hold a slash or be a star.  For the segments of a path that
has been read none of this happens, and the pattern of such a path reads back as the path without
its variables.

## What is here

* `Path.texts?_eq_some_iff`, `Path.parse_eq_ok_iff`: how a path is read, in two steps.
* `Path.parse_eq_ok`: every text that starts with a slash is a path.
* `Path.parse_pattern`: the pattern of a path reads back as the same segments without variables.
* `Path.pattern_inj`: paths with the same pattern have the same segments.
* `Path.pattern_eq_iff_segments_eq`: a pattern tells the segments, and is its own pattern.
-/

set_option autoImplicit false

namespace RouteTrie

namespace Segment

/-- A text that becomes a variable position is written as a star, any other text as it is. -/
def normalText (text : List Char) : List Char :=
  if (variableName? text).isSome || text == ['*'] then ['*'] else text

theorem toList_text_ofText (text : List Char) : (ofText text).text.toList = normalText text := by
  rw [ofText, normalText]
  split
  · rfl
  · exact String.toList_ofList

theorem variableName?_normalText (text : List Char) : variableName? (normalText text) = none := by
  rw [normalText]
  split
  · rfl
  · rename_i h
    rw [Bool.or_eq_true, not_or] at h
    exact Option.not_isSome_iff_eq_none.1 h.1

theorem ofText_normalText (text : List Char) : ofText (normalText text) = ofText text := by
  rw [ofText, variableName?_normalText, ofText, normalText]
  split
  · rfl
  · rename_i h
    rw [Bool.or_eq_true, not_or] at h
    simp [h.2]

theorem not_mem_normalText {text : List Char} (h : '/' ∉ text) : '/' ∉ normalText text := by
  rw [normalText]
  split
  · decide
  · exact h

theorem normalText_eq_nil {text : List Char} (h : normalText text = []) : text = [] := by
  rw [normalText] at h
  split at h
  · cases h
  · exact h

end Segment

namespace Path

theorem texts?_cons {rest : List Char} (h : rest ≠ []) :
    texts? ('/' :: rest) = some (Text.fields '/' rest) := by
  cases rest with
  | nil => exact absurd rfl h
  | cons c cs => rfl

/-- What is cut into texts: the root, and a slash with something behind it. -/
theorem texts?_eq_some_iff {cs : List Char} {texts : List (List Char)} :
    texts? cs = some texts ↔
      cs = ['/'] ∧ texts = [] ∨
        ∃ rest, rest ≠ [] ∧ cs = '/' :: rest ∧ texts = Text.fields '/' rest := by
  constructor
  · intro h
    unfold texts? at h
    split at h
    · cases h
      exact .inl ⟨rfl, rfl⟩
    · rename_i rest hrest
      exact .inr ⟨rest, fun hnil => hrest (by rw [hnil]), rfl, (Option.some.inj h).symm⟩
    · cases h
  · rintro (⟨rfl, rfl⟩ | ⟨rest, hrest, rfl, rfl⟩)
    · rfl
    · exact texts?_cons hrest

theorem parse_eq_ok_iff {s : String} {p : Path} :
    parse s = .ok p ↔ ∃ texts, texts? s.toList = some texts ∧ ofTexts texts = p := by
  rw [parse]
  cases texts? s.toList <;> simp

/-- Every text that starts with a slash is a path. -/
theorem parse_eq_ok {p : String} (h : p.toList.head? = some '/') : ∃ path, parse p = .ok path := by
  obtain ⟨rest, hrest⟩ := List.head?_eq_some_iff.1 h
  cases rest with
  | nil => exact ⟨_, parse_eq_ok_iff.2 ⟨_, texts?_eq_some_iff.2 (.inl ⟨hrest, rfl⟩), rfl⟩⟩
  | cons c cs =>
    exact ⟨_, parse_eq_ok_iff.2
      ⟨_, texts?_eq_some_iff.2 (.inr ⟨c :: cs, by simp, hrest, rfl⟩), rfl⟩⟩

theorem head?_of_parse {p : String} {path : Path} (h : parse p = .ok path) :
    p.toList.head? = some '/' := by
  obtain ⟨texts, htexts, -⟩ := parse_eq_ok_iff.1 h
  rcases texts?_eq_some_iff.1 htexts with ⟨hp, -⟩ | ⟨rest, -, hp, -⟩
  · rw [hp]
    rfl
  · rw [hp]
    rfl

/-- Texts without variables name nothing. -/
theorem occurrences_eq_nil {texts : List (List Char)}
    (h : ∀ t ∈ texts, Segment.variableName? t = none) : occurrences texts = [] := by
  rw [occurrences, List.filterMap_eq_nil_iff]
  intro t ht
  have hmem : t.1 ∈ texts := List.mem_of_getElem? (List.mk_mem_zipIdx_iff_getElem?.1 ht)
  rw [h t.1 hmem, Option.map_none]

theorem ofTexts_map_normalText (texts : List (List Char)) :
    ofTexts (texts.map Segment.normalText) = ⟨texts.map Segment.ofText, ∅⟩ := by
  have hnil : occurrences (texts.map Segment.normalText) = [] := by
    refine occurrences_eq_nil fun t ht => ?_
    obtain ⟨u, -, rfl⟩ := List.mem_map.1 ht
    exact Segment.variableName?_normalText u
  rw [ofTexts, hnil, List.map_map]
  congr 1
  exact List.map_congr_left fun t _ => Segment.ofText_normalText t

theorem toList_pattern_ofTexts (texts : List (List Char)) :
    (ofTexts texts).pattern.toList = '/' :: Text.join '/' (texts.map Segment.normalText) := by
  rw [pattern, slashed, String.toList_ofList, ofTexts]
  simp only [List.map_map]
  congr 2
  exact List.map_congr_left fun t _ => Segment.toList_text_ofText t

/-- The pattern of some texts is cut into the normal forms of these texts. -/
theorem texts?_pattern {cs : List Char} {texts : List (List Char)} (h : texts? cs = some texts) :
    texts? (ofTexts texts).pattern.toList = some (texts.map Segment.normalText) := by
  rw [toList_pattern_ofTexts]
  rcases texts?_eq_some_iff.1 h with ⟨-, rfl⟩ | ⟨rest, hrest, -, rfl⟩
  · rfl
  · have hne : (Text.fields '/' rest).map Segment.normalText ≠ [] := by
      rw [Ne, List.map_eq_nil_iff]
      exact Text.fields_ne_nil '/' rest
    have hjoin : Text.join '/' ((Text.fields '/' rest).map Segment.normalText) ≠ [] := by
      intro hj
      -- a single empty text would be the root
      have hone := Text.eq_singleton_nil_of_join_eq_nil hne hj
      obtain ⟨t, ht, htn⟩ := List.map_eq_singleton_iff.1 hone
      rw [Segment.normalText_eq_nil htn] at ht
      exact hrest (Text.eq_nil_of_fields_eq ht)
    rw [texts?_cons hjoin, Text.fields_join hne]
    intro f hf
    obtain ⟨t, ht, rfl⟩ := List.mem_map.1 hf
    exact Segment.not_mem_normalText (Text.not_mem_of_mem_fields ht)

/-- **The pattern of a path is its normal form**: it reads back as the same segments, without
variables. -/
theorem parse_pattern {p : String} {path : Path} (h : parse p = .ok path) :
    parse path.pattern = .ok ⟨path.segments, ∅⟩ := by
  obtain ⟨texts, htexts, rfl⟩ := parse_eq_ok_iff.1 h
  exact parse_eq_ok_iff.2 ⟨_, texts?_pattern htexts, ofTexts_map_normalText texts⟩

/-- Paths with the same pattern have the same segments. -/
theorem pattern_inj {p q : String} {path path' : Path} (h : parse p = .ok path)
    (h' : parse q = .ok path') : path.pattern = path'.pattern ↔ path.segments = path'.segments := by
  constructor
  · intro hp
    have hread := parse_pattern h
    rw [hp, parse_pattern h'] at hread
    injection hread with hread
    exact (congrArg segments hread).symm
  · intro hs
    rw [pattern, pattern, hs]

/-- **The pattern tells the segments.**  All texts that start with a slash are paths.  Two of them
have the same pattern exactly when they have the same segments; and the pattern of a path is itself
a path with the same segments, without variables, and is its own pattern. -/
theorem pattern_eq_iff_segments_eq {s t : String} (hs : s.toList.head? = some '/')
    (ht : t.toList.head? = some '/') :
    ∃ p q, parse s = .ok p ∧ parse t = .ok q ∧
      (p.pattern = q.pattern ↔ p.segments = q.segments) ∧
      ∃ r, parse p.pattern = .ok r ∧ r.segments = p.segments ∧ r.vars = ∅ ∧
        r.pattern = p.pattern := by
  obtain ⟨p, hp⟩ := parse_eq_ok hs
  obtain ⟨q, hq⟩ := parse_eq_ok ht
  refine ⟨p, q, hp, hq, pattern_inj hp hq, ⟨p.segments, ∅⟩, parse_pattern hp, rfl, rfl, ?_⟩
  exact (pattern_inj (parse_pattern hp) hp).2 rfl

/-- Two spellings of a variable and a star, next to an empty segment and a name without a word. -/
theorem pattern_eq_iff_segments_eq_users :
    ∃ p q, parse "/users/:id/*//\x7b\x7d" = .ok p ∧ parse "/users/*/{x}//\x7b\x7d" = .ok q ∧
      p.segments = q.segments ∧
      ∃ r, parse p.pattern = .ok r ∧ r.segments = p.segments ∧ r.vars = ∅ := by
  obtain ⟨p, q, hp, hq, hiff, r, hr, hsegments, hvars, -⟩ :=
    pattern_eq_iff_segments_eq (s := "/users/:id/*//\x7b\x7d")
      (t := "/users/*/{x}//\x7b\x7d") rfl rfl
  refine ⟨p, q, hp, hq, hiff.1 ?_, r, hr, hsegments, hvars⟩
  have hp' : parse "/users/:id/*//\x7b\x7d" = .ok ⟨[.literal "users", .wildcard, .wildcard,
    .literal "", .literal "\x7b\x7d"], OrderedMap.ofList [("id", 1)]⟩ := rfl
  have hq' : parse "/users/*/{x}//\x7b\x7d" = .ok ⟨[.literal "users", .wildcard, .wildcard,
    .literal "", .literal "\x7b\x7d"], OrderedMap.ofList [("x", 2)]⟩ := rfl
  obtain rfl := Except.ok.inj (hp.symm.trans hp')
  obtain rfl := Except.ok.inj (hq.symm.trans hq')
  rfl

end Path

end RouteTrie
