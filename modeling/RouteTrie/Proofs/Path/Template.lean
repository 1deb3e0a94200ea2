import RouteTrie.Proofs.OrderedMap
import RouteTrie.Proofs.Path.Literal

/-!
# The template of a path reads back

The template puts the names of the variables back into the path.  Reading gives a path of a certain
form, in which every variable points at a variable position of its own, and the template of every
path of this form reads back as the path, with its variables in the order of their positions.

## What is here

* `Segment.IsName`, `Segment.variableName?_eq_some_iff`: what names are and where they are found.
* `Path.WellFormed`, `Path.wellFormed_of_parse`: the form of a path that has been read.
* `Path.parse_template`: the template of such a path reads back.
* `Path.parse_template_beq`: templates and reading undo each other on such paths.
-/

set_option autoImplicit false

namespace RouteTrie

/-! ## Names -/

namespace Segment

/-- The name of a variable is a nonempty word. -/
def IsName (name : List Char) : Prop := name ≠ [] ∧ ∀ c ∈ name, Text.isWord c = true

/-- A text of the form of a variable: a name behind a colon or between braces. -/
def IsVariable (text : List Char) : Prop :=
  ∃ name, IsName name ∧ (text = ':' :: name ∨ text = '\x7b' :: (name ++ ['\x7d']))

/-- A variable is a name behind a colon or between braces. -/
theorem variableName?_eq_some_iff {text name : List Char} :
    variableName? text = some name ↔
      IsName name ∧ (text = ':' :: name ∨ text = '\x7b' :: (name ++ ['\x7d'])) := by
  constructor
  · intro h
    unfold variableName? at h
    split at h
    · rename_i rest
      split at h
      · rename_i hname
        simp only [Bool.and_eq_true, Bool.not_eq_true', List.isEmpty_eq_false_iff,
          List.all_eq_true] at hname
        cases h
        exact ⟨hname, .inl rfl⟩
      · cases h
    · rename_i rest
      dsimp only at h
      split at h
      · rename_i hname
        simp only [Bool.and_eq_true, Bool.not_eq_true', List.isEmpty_eq_false_iff,
          List.all_eq_true, beq_iff_eq] at hname
        cases h
        obtain ⟨name, rfl⟩ := List.getLast?_eq_some_iff.1 hname.1.1
        rw [List.dropLast_concat] at hname ⊢
        exact ⟨⟨hname.1.2, hname.2⟩, .inr rfl⟩
      · cases h
    · cases h
  · rintro ⟨⟨hne, hword⟩, rfl | rfl⟩
    · exact variableName?_colon hne hword
    · exact variableName?_braces hne hword

theorem variableName?_eq_none_iff {text : List Char} :
    variableName? text = none ↔ ¬IsVariable text := by
  simp only [Option.eq_none_iff_forall_ne_some, Ne, variableName?_eq_some_iff, IsVariable,
    not_exists]

theorem ofText_eq_wildcard_of_variableName? {text name : List Char}
    (h : variableName? text = some name) : ofText text = wildcard := by
  rw [ofText, h]
  rfl

/-- The text of a literal stands for the literal. -/
theorem LiteralText.ofText_eq {t : String} (h : LiteralText t) : ofText t.toList = literal t := by
  refine ofText_eq_literal_iff.2 ⟨rfl, ?_, fun hstar => h.not_star (String.toList_inj.1 hstar)⟩
  cases hname : variableName? t.toList with
  | none => rfl
  | some name =>
    obtain ⟨⟨hne, hword⟩, heq | heq⟩ := variableName?_eq_some_iff.1 hname
    · exact absurd heq (h.not_colon name hne hword)
    · exact absurd heq (h.not_braces name hne hword)

theorem IsName.not_mem {name : List Char} (h : IsName name) {c : Char}
    (hc : Text.isWord c = false) : c ∉ name := by
  intro hmem
  rw [h.2 c hmem] at hc
  cases hc

end Segment

namespace Path

theorem mem_occurrences {texts : List (List Char)} {name : String} {i : Nat} :
    (name, i) ∈ occurrences texts ↔
      ∃ text, texts[i]? = some text ∧ Segment.variableName? text = some name.toList := by
  simp only [occurrences, List.mem_filterMap, Prod.exists, List.mk_mem_zipIdx_iff_getElem?,
    Option.map_eq_some_iff, Prod.mk.injEq]
  constructor
  · rintro ⟨text, j, htext, n, hn, rfl, rfl⟩
    exact ⟨text, htext, by rw [hn, String.toList_ofList]⟩
  · rintro ⟨text, htext, hn⟩
    exact ⟨text, i, htext, _, hn, String.ofList_toList, rfl⟩

/-! ## The form of a path that has been read -/

/-- The form of a path that has been read. -/
structure WellFormed (p : Path) : Prop where
  /-- A single empty text is not a path of one segment, as `/` is the root. -/
  segments_ne : p.segments ≠ [.literal ""]
  /-- A literal is not a star. -/
  not_star : ∀ text, .literal text ∈ p.segments → text ≠ "*"
  /-- There is no slash in a literal. -/
  not_slash : ∀ text, .literal text ∈ p.segments → '/' ∉ text.toList
  /-- A literal does not have the form of a variable. -/
  not_variable : ∀ text, .literal text ∈ p.segments → ¬Segment.IsVariable text.toList
  /-- Variables have names. -/
  isName : ∀ v ∈ p.vars.entries, Segment.IsName v.1.toList
  /-- Variables point at variable positions. -/
  wildcard : ∀ v ∈ p.vars.entries, p.segments[v.2]? = some .wildcard
  /-- No two variables point at the same position. -/
  index_inj : ∀ v ∈ p.vars.entries, ∀ w ∈ p.vars.entries, v.2 = w.2 → v = w

theorem segments_ne_of_texts? {cs : List Char} {texts : List (List Char)}
    (h : texts? cs = some texts) : texts.map Segment.ofText ≠ [.literal ""] := by
  intro hone
  obtain ⟨text, rfl, htext⟩ := List.map_eq_singleton_iff.1 hone
  obtain ⟨rfl, -, -⟩ := Segment.ofText_eq_literal_iff.1 htext
  rcases texts?_eq_some_iff.1 h with ⟨-, hnil⟩ | ⟨rest, hrest, -, hfields⟩
  · cases hnil
  · exact hrest (Text.eq_nil_of_fields_eq hfields.symm)

/-- **A path that has been read is well formed.** -/
theorem wellFormed_of_parse {s : String} {p : Path} (h : parse s = .ok p) : p.WellFormed := by
  have hliteral : ∀ text, .literal text ∈ p.segments →
      '/' ∉ text.toList ∧ ¬Segment.IsVariable text.toList ∧ text.toList ≠ ['*'] := by
    intro text hmem
    obtain ⟨t, ht, hslash, -⟩ := exists_text_of_mem_segments h hmem
    obtain ⟨rfl, hnone, hstar⟩ := Segment.ofText_eq_literal_iff.1 ht
    exact ⟨hslash, Segment.variableName?_eq_none_iff.1 hnone, hstar⟩
  obtain ⟨texts, htexts, rfl⟩ := parse_eq_ok_iff.1 h
  -- every variable is one of the occurrences, which name a text and so one position
  have hvars : ∀ v ∈ (ofTexts texts).vars.entries, ∃ text, texts[v.2]? = some text ∧
      Segment.variableName? text = some v.1.toList := fun v hv =>
    mem_occurrences.1 (OrderedMap.mem_of_mem_ofList hv)
  refine ⟨segments_ne_of_texts? htexts, fun text hmem heq => ?_,
    fun text hmem => (hliteral text hmem).1, fun text hmem => (hliteral text hmem).2.1,
    fun v hv => ?_, fun v hv => ?_, fun v hv w hw hvw => ?_⟩
  · rw [heq] at hmem
    exact (hliteral _ hmem).2.2 rfl
  · obtain ⟨text, -, hname⟩ := hvars v hv
    exact (Segment.variableName?_eq_some_iff.1 hname).1
  · obtain ⟨text, htext, hname⟩ := hvars v hv
    rw [ofTexts, List.getElem?_map, htext, Option.map_some,
      Segment.ofText_eq_wildcard_of_variableName? hname]
  · obtain ⟨text, htext, hname⟩ := hvars v hv
    obtain ⟨text', htext', hname'⟩ := hvars w hw
    rw [hvw, htext'] at htext
    cases htext
    rw [hname'] at hname
    exact Prod.ext (String.toList_inj.1 (Option.some.inj hname)).symm hvw

/-! ## The template -/

/-- The texts between the slashes of the template. -/
def templateTexts (p : Path) : List (List Char) :=
  p.segments.zipIdx.map fun s => (templateText p.vars s.1 s.2).toList

theorem toList_template (p : Path) :
    p.template.toList = '/' :: Text.join '/' p.templateTexts := by
  rw [template, slashed, String.toList_ofList, List.map_map]
  rfl

theorem getElem?_templateTexts (p : Path) (i : Nat) :
    p.templateTexts[i]? = p.segments[i]?.map fun s => (templateText p.vars s i).toList := by
  rw [templateTexts, List.getElem?_map, List.getElem?_zipIdx, Option.map_map, Nat.zero_add]
  rfl

namespace WellFormed

variable {p : Path} (hp : p.WellFormed)
include hp

theorem variableName?_literal {text : String} (ht : .literal text ∈ p.segments) :
    Segment.variableName? text.toList = none :=
  Segment.variableName?_eq_none_iff.2 (hp.not_variable text ht)

theorem varAt?_eq_some_iff {name : String} {i : Nat} :
    varAt? p.vars i = some name ↔ (name, i) ∈ p.vars.entries := by
  rw [varAt?, Option.map_eq_some_iff]
  constructor
  · rintro ⟨v, hv, rfl⟩
    have hi : v.2 = i := by simpa using List.find?_some hv
    rw [← hi]
    exact List.mem_of_find?_eq_some hv
  · intro hmem
    have hsome := (List.find?_isSome (p := fun v => v.2 == i)).2 ⟨_, hmem, beq_self_eq_true i⟩
    obtain ⟨v, hv⟩ := Option.isSome_iff_exists.1 hsome
    have hi : v.2 = i := by simpa using List.find?_some hv
    refine ⟨v, hv, ?_⟩
    rw [hp.index_inj v (List.mem_of_find?_eq_some hv) _ hmem hi]

/-- The text of a variable position is the name of its variable between braces, or a star. -/
theorem toList_templateText_wildcard (i : Nat) :
    (∃ name, (name, i) ∈ p.vars.entries ∧ Segment.IsName name.toList ∧
      (templateText p.vars .wildcard i).toList = '\x7b' :: (name.toList ++ ['\x7d'])) ∨
    (∀ name, (name, i) ∉ p.vars.entries) ∧ (templateText p.vars .wildcard i).toList = ['*'] := by
  rw [templateText]
  cases hvar : varAt? p.vars i with
  | some name =>
    have hmem := hp.varAt?_eq_some_iff.1 hvar
    refine .inl ⟨name, hmem, hp.isName _ hmem, ?_⟩
    simp only [String.toList_append]
    rfl
  | none =>
    refine .inr ⟨fun name hmem => ?_, rfl⟩
    rw [hp.varAt?_eq_some_iff.2 hmem] at hvar
    cases hvar

/-- Every text of the template stands for its segment. -/
theorem ofText_templateText {s : Segment} (hs : s ∈ p.segments) (i : Nat) :
    Segment.ofText (templateText p.vars s i).toList = s := by
  cases s with
  | literal text =>
    refine Segment.ofText_eq_literal_iff.2 ⟨rfl, hp.variableName?_literal hs, fun hstar => ?_⟩
    exact hp.not_star text hs (String.toList_inj.1 hstar)
  | wildcard =>
    rcases hp.toList_templateText_wildcard i with ⟨name, -, hname, htext⟩ | ⟨-, htext⟩
    · rw [htext, Segment.ofText_eq_wildcard_of_variableName?
        (Segment.variableName?_braces hname.1 hname.2)]
    · rw [htext]
      rfl

/-- A text of the template names a variable exactly when one points at its position. -/
theorem variableName?_templateText {s : Segment} {i : Nat} (hs : p.segments[i]? = some s)
    {name : String} :
    Segment.variableName? (templateText p.vars s i).toList = some name.toList ↔
      (name, i) ∈ p.vars.entries := by
  cases s with
  | literal text =>
    refine iff_of_false (fun h => ?_) fun hmem => ?_
    · rw [templateText, hp.variableName?_literal (List.mem_of_getElem? hs)] at h
      cases h
    · have hwild := hp.wildcard _ hmem
      rw [hs] at hwild
      cases hwild
  | wildcard =>
    rcases hp.toList_templateText_wildcard i with ⟨m, hmem, hname, htext⟩ | ⟨hnone, htext⟩
    · rw [htext, Segment.variableName?_braces hname.1 hname.2, Option.some.injEq,
        String.toList_inj]
      constructor
      · rintro rfl
        exact hmem
      · exact fun h => congrArg Prod.fst (hp.index_inj _ hmem _ h rfl)
    · rw [htext]
      exact iff_of_false (by simp [Segment.variableName?]) (hnone name)

theorem not_mem_templateText {s : Segment} (hs : s ∈ p.segments) (i : Nat) :
    '/' ∉ (templateText p.vars s i).toList := by
  cases s with
  | literal text => exact hp.not_slash text hs
  | wildcard =>
    rcases hp.toList_templateText_wildcard i with ⟨name, -, hname, htext⟩ | ⟨-, htext⟩
    · rw [htext]
      simp [hname.not_mem (c := '/') (by decide)]
    · rw [htext]
      decide

theorem not_isBlank_templateText
    (hblank : ∀ text, .literal text ∈ p.segments → ∀ c ∈ text.toList, Text.isBlank c = false)
    {s : Segment} (hs : s ∈ p.segments) (i : Nat) :
    ∀ c ∈ (templateText p.vars s i).toList, Text.isBlank c = false := by
  cases s with
  | literal text => exact hblank text hs
  | wildcard =>
    rcases hp.toList_templateText_wildcard i with ⟨name, -, hname, htext⟩ | ⟨-, htext⟩
    · intro c hc
      rw [htext, List.mem_cons, List.mem_append, List.mem_singleton] at hc
      rcases hc with rfl | hc | rfl
      · decide
      · exact RouteKey.isBlank_of_isMethodChar (by rw [RouteKey.isMethodChar, hname.2 c hc]; rfl)
      · decide
    · intro c hc
      rw [htext, List.mem_singleton] at hc
      rw [hc]
      decide

omit hp in
theorem mem_segments_of_mem_zipIdx {s : Segment × Nat} (hs : s ∈ p.segments.zipIdx) :
    s.1 ∈ p.segments :=
  List.mem_of_getElem? (List.mk_mem_zipIdx_iff_getElem?.1 hs)

theorem map_ofText_templateTexts : p.templateTexts.map Segment.ofText = p.segments := by
  have hfst := List.map_congr_left fun s hs =>
    hp.ofText_templateText (mem_segments_of_mem_zipIdx (s := s) hs) s.2
  rw [templateTexts, List.map_map]
  exact hfst.trans (List.zipIdx_map_fst 0 p.segments)

theorem texts?_template : texts? p.template.toList = some p.templateTexts := by
  rw [toList_template]
  cases hs : p.segments with
  | nil =>
    rw [templateTexts, hs]
    rfl
  | cons a rest =>
    have hne : p.templateTexts ≠ [] := by
      rw [templateTexts, hs]
      simp
    have hjoin : Text.join '/' p.templateTexts ≠ [] := by
      intro hj
      have hone := hp.map_ofText_templateTexts
      rw [Text.eq_singleton_nil_of_join_eq_nil hne hj] at hone
      exact hp.segments_ne hone.symm
    rw [texts?_cons hjoin, Text.fields_join hne]
    intro f hf
    obtain ⟨s, hs, rfl⟩ := List.mem_map.1 hf
    exact hp.not_mem_templateText (mem_segments_of_mem_zipIdx hs) s.2

theorem mem_occurrences_templateTexts {name : String} {i : Nat} :
    (name, i) ∈ occurrences p.templateTexts ↔ (name, i) ∈ p.vars.entries := by
  rw [mem_occurrences]
  simp only [getElem?_templateTexts, Option.map_eq_some_iff]
  constructor
  · rintro ⟨_, ⟨s, hs, rfl⟩, hname⟩
    exact (hp.variableName?_templateText hs).1 hname
  · intro hmem
    have hs := hp.wildcard _ hmem
    exact ⟨_, ⟨.wildcard, hs, rfl⟩, (hp.variableName?_templateText hs).2 hmem⟩

end WellFormed

/-- **The template of a well-formed path reads back** as the path. -/
theorem parse_template {p : Path} (hp : p.WellFormed) :
    ∃ q, parse p.template = .ok q ∧ q.segments = p.segments ∧ (q.vars == p.vars) = true := by
  refine ⟨ofTexts p.templateTexts, by rw [parse, hp.texts?_template],
    hp.map_ofText_templateTexts, ?_⟩
  exact OrderedMap.ofList_beq fun v => hp.mem_occurrences_templateTexts

theorem head?_template (p : Path) : p.template.toList.head? = some '/' := by
  rw [toList_template]
  rfl

/-- **Templates and reading undo each other.**  Every text that starts with a slash is read as a
well-formed path, the template of which is read as an equal path; and so is the template of any
well-formed path, whether or not it comes from a text. -/
theorem parse_template_beq :
    (∀ s : String, s.toList.head? = some '/' → ∃ p q, parse s = .ok p ∧ p.WellFormed ∧
      parse p.template = .ok q ∧ (q == p) = true) ∧
    ∀ p : Path, p.WellFormed → ∃ q, parse p.template = .ok q ∧ (q == p) = true := by
  have hback : ∀ p : Path, p.WellFormed → ∃ q, parse p.template = .ok q ∧ (q == p) = true := by
    intro p hp
    obtain ⟨q, hq, hsegments, hvars⟩ := parse_template hp
    exact ⟨q, hq, Bool.and_eq_true_iff.2 ⟨decide_eq_true hsegments, hvars⟩⟩
  refine ⟨fun s hs => ?_, hback⟩
  obtain ⟨p, hp⟩ := parse_eq_ok hs
  obtain ⟨q, hq, hbeq⟩ := hback p (wellFormed_of_parse hp)
  exact ⟨p, q, hp, wellFormed_of_parse hp, hq, hbeq⟩

/-- A repeated name, a star and an open brace; and variables that are not listed in the order of
their positions. -/
theorem parse_template_beq_repeated :
    (∃ p q, parse "/a/{id}/*/:id/\x7bx" = .ok p ∧ p.template = "/a/*/*/{id}/\x7bx" ∧
      parse "/a/*/*/{id}/\x7bx" = .ok q ∧ (q == p) = true) ∧
    ∃ q, parse "/a/{x}/*/{y}" = .ok q ∧
      (q == ⟨[.literal "a", .wildcard, .wildcard, .wildcard],
        OrderedMap.ofList [("y", 3), ("x", 1)]⟩) = true := by
  constructor
  · obtain ⟨p, q, hp, -, hq, hbeq⟩ := parse_template_beq.1 "/a/{id}/*/:id/\x7bx" rfl
    have hread : parse "/a/{id}/*/:id/\x7bx" = .ok ⟨[.literal "a", .wildcard, .wildcard, .wildcard,
      .literal "\x7bx"], OrderedMap.ofList [("id", 3)]⟩ := rfl
    have htemplate : p.template = "/a/*/*/{id}/\x7bx" := by
      obtain rfl := Except.ok.inj (hp.symm.trans hread)
      rfl
    exact ⟨p, q, hp, htemplate, htemplate ▸ hq, hbeq⟩
  · have hliteral : ∀ text, Segment.literal text ∈
        [.literal "a", .wildcard, .wildcard, .wildcard] → text = "a" := by simp
    refine parse_template_beq.2 ⟨[.literal "a", .wildcard, .wildcard, .wildcard],
      OrderedMap.ofList [("y", 3), ("x", 1)]⟩ ⟨by decide, fun text h => ?_, fun text h => ?_,
      fun text h => ?_, ?_, by decide, by decide⟩
    · rw [hliteral text h]
      decide
    · rw [hliteral text h]
      decide
    · rw [hliteral text h]
      exact Segment.variableName?_eq_none_iff.1 rfl
    · exact List.forall_mem_cons.2 ⟨⟨by decide, List.forall_mem_singleton.2 rfl⟩,
        List.forall_mem_singleton.2 ⟨by decide, List.forall_mem_singleton.2 rfl⟩⟩

/-- There is no blank in a template if there is none in the literals. -/
theorem WellFormed.not_isBlank_template {p : Path} (hp : p.WellFormed)
    (hblank : ∀ text, .literal text ∈ p.segments → ∀ c ∈ text.toList, Text.isBlank c = false) :
    ∀ c ∈ p.template.toList, Text.isBlank c = false := by
  intro c hc
  rw [toList_template] at hc
  rcases List.mem_cons.1 hc with rfl | hc
  · decide
  · rcases Text.eq_or_exists_of_mem_join hc with rfl | ⟨f, hf, hc⟩
    · decide
    · obtain ⟨⟨s, i⟩, hs, rfl⟩ := List.mem_map.1 hf
      exact hp.not_isBlank_templateText hblank (mem_segments_of_mem_zipIdx hs) i c hc

end Path

end RouteTrie
