import RouteTrie.Proofs.Path.Append
import RouteTrie.Proofs.Path.Names
import RouteTrie.Proofs.Path.Template

/-!
# The variables of a path, text by text

A path is read from its first text to its last.  A text that is a variable enters its name with its
own index: behind the names that are there, or in the place of the index that the name had before,
and then the name is one to warn about.  What is entered in the end can be told from the texts
alone, by where each name stands first, where it stands last, and which of its positions are not the
first.

## What is here

* `Segment.HasName`, `Segment.WrittenAs`: the texts of variables, and which text a segment has.
* `Path.CutInto`, `Path.NamedAt`, `Path.RepeatedAt`: the texts of a path, the positions of a name
  among them, and those that are not the first of their names.
* `Path.Recorded`: what variables and repeated names tell about the positions of names.
* `Path.Recorded.concat_of_hasName`, `Path.Recorded.concat_of_not_isVariable`: one text more.
* `Path.recorded_ofTexts`, `Path.parse_recorded`: any number of texts, and any path.
-/

set_option autoImplicit false

namespace RouteTrie

/-! ## Texts and segments -/

namespace Segment

/-- The text is a variable with this name. -/
def HasName (text : List Char) (name : String) : Prop :=
  IsName name.toList ∧ (text = ':' :: name.toList ∨ text = '\x7b' :: (name.toList ++ ['\x7d']))

theorem hasName_iff {text : List Char} {name : String} :
    HasName text name ↔ variableName? text = some name.toList :=
  variableName?_eq_some_iff.symm

theorem HasName.name_eq {text : List Char} {m n : String} (hm : HasName text m)
    (hn : HasName text n) : m = n := by
  rw [hasName_iff] at hm hn
  exact String.toList_inj.1 (Option.some_inj.1 (hm.symm.trans hn))

theorem isVariable_iff {text : List Char} :
    IsVariable text ↔ (variableName? text).isSome = true := by
  rw [← not_iff_not, ← variableName?_eq_none_iff, Option.not_isSome_iff_eq_none]

instance : DecidablePred IsVariable := fun _ => decidable_of_iff _ isVariable_iff.symm

theorem HasName.isVariable {text : List Char} {name : String} (h : HasName text name) :
    IsVariable text := by
  rw [isVariable_iff, hasName_iff.1 h]
  rfl

/-- The segment has this text: a star or a variable if it is a variable position, and otherwise the
text that it stands for. -/
structure WrittenAs (s : Segment) (text : List Char) : Prop where
  /-- Stars and variables are variable positions, and nothing else is. -/
  wildcard : s = .wildcard ↔ text = ['*'] ∨ IsVariable text
  /-- Any other text stands for itself. -/
  literal : s ≠ .wildcard → s = .literal (String.ofList text)

theorem writtenAs_ofText (text : List Char) : (ofText text).WrittenAs text := by
  constructor
  · rw [isVariable_iff, ofText]
    split <;> simp_all [or_comm]
  · rw [ofText]
    split
    · exact fun h => absurd rfl h
    · exact fun _ => rfl

end Segment

namespace Path

/-- The path is cut into these texts at its slashes; the root is cut into none. -/
structure CutInto (written : String) (texts : List (List Char)) : Prop where
  /-- The path is the texts with a slash in front of each, and the root a slash alone. -/
  toList_eq : written.toList = '/' :: Text.join '/' texts
  /-- No text goes on behind a slash. -/
  not_slash : ∀ text ∈ texts, '/' ∉ text
  /-- A slash alone is the root, and not the end of an empty text. -/
  texts_ne : texts ≠ [[]]

/-- A path is cut in one way only. -/
theorem cutInto_iff {written : String} {texts : List (List Char)} :
    CutInto written texts ↔ texts? written.toList = some texts := by
  rw [texts?_eq_some_iff]
  constructor
  · rintro ⟨hslash, hfree, hne⟩
    by_cases hnil : texts = []
    · subst hnil
      exact .inl ⟨hslash, rfl⟩
    · exact .inr ⟨_, fun hjoin => hne (Text.eq_singleton_nil_of_join_eq_nil hnil hjoin), hslash,
        (Text.fields_join hnil hfree).symm⟩
  · rintro (⟨hroot, rfl⟩ | ⟨rest, hrest, hslash, rfl⟩)
    · exact ⟨hroot, by simp, by simp⟩
    · exact ⟨by rw [hslash, Text.join_fields], fun _ => Text.not_mem_of_mem_fields,
        fun hnil => hrest (Text.eq_nil_of_fields_eq hnil)⟩

/-! ## Positions of names -/

/-- A variable with this name stands at a position of the texts. -/
def NamedAt (texts : List (List Char)) (name : String) (i : Nat) : Prop :=
  ∃ text, texts[i]? = some text ∧ Segment.HasName text name

theorem NamedAt.lt_length {texts : List (List Char)} {name : String} {i : Nat}
    (h : NamedAt texts name i) : i < texts.length := by
  obtain ⟨text, htext, -⟩ := h
  exact (List.getElem?_eq_some_iff.1 htext).1

/-- One text more adds its own position if it is a variable. -/
theorem namedAt_concat {texts : List (List Char)} {text : List Char} {name : String} {i : Nat} :
    NamedAt (texts ++ [text]) name i ↔
      NamedAt texts name i ∨ i = texts.length ∧ Segment.HasName text name := by
  rcases lt_trichotomy i texts.length with hi | rfl | hi
  · simp [NamedAt, List.getElem?_append_left hi, hi.ne]
  · simp [NamedAt]
  · have hnone : (texts ++ [text])[i]? = none :=
      List.getElem?_eq_none (by rw [List.length_append, List.length_singleton]; omega)
    simp [NamedAt, hnone, List.getElem?_eq_none hi.le, hi.ne']

theorem namedAt_concat_of_hasName {texts : List (List Char)} {text : List Char} {new : String}
    (h : Segment.HasName text new) {name : String} {i : Nat} :
    NamedAt (texts ++ [text]) name i ↔ NamedAt texts name i ∨ i = texts.length ∧ name = new := by
  rw [namedAt_concat]
  refine or_congr_right (and_congr_right fun _ => ⟨fun hname => hname.name_eq h, ?_⟩)
  rintro rfl
  exact h

/-- A variable stands at a position of the texts, and one with its name further in front. -/
def RepeatedAt (texts : List (List Char)) (i : Nat) : Prop :=
  ∃ name, NamedAt texts name i ∧ ∃ j < i, NamedAt texts name j

theorem RepeatedAt.lt_length {texts : List (List Char)} {i : Nat} (h : RepeatedAt texts i) :
    i < texts.length := by
  obtain ⟨name, hname, -⟩ := h
  exact hname.lt_length

/-- One text more repeats a name if it is a variable whose name stands somewhere in front. -/
theorem repeatedAt_concat_of_hasName {texts : List (List Char)} {text : List Char} {new : String}
    (h : Segment.HasName text new) {i : Nat} :
    RepeatedAt (texts ++ [text]) i ↔
      RepeatedAt texts i ∨ i = texts.length ∧ ∃ j, NamedAt texts new j := by
  simp only [RepeatedAt, namedAt_concat_of_hasName h]
  constructor
  · rintro ⟨name, hi | ⟨rfl, rfl⟩, j, hj, hjn | ⟨rfl, -⟩⟩
    · exact .inl ⟨name, hi, j, hj, hjn⟩
    · exact absurd hi.lt_length (Nat.not_lt.2 hj.le)
    · exact .inr ⟨rfl, j, hjn⟩
    · exact absurd hj (Nat.lt_irrefl _)
  · rintro (⟨name, hi, j, hj, hjn⟩ | ⟨rfl, j, hjn⟩)
    · exact ⟨name, .inl hi, j, hj, .inl hjn⟩
    · exact ⟨new, .inr ⟨rfl, rfl⟩, j, hjn.lt_length, .inl hjn⟩

/-- What the variables and the repeated names of some texts tell about the positions of names. -/
structure Recorded (texts : List (List Char)) (vars : VarMap) (repeated : List String) : Prop where
  /-- The names that stand somewhere have a variable. -/
  mem_keys : ∀ name, name ∈ vars.keys ↔ ∃ i, NamedAt texts name i
  /-- A variable has the last position of its name. -/
  last : ∀ name i, vars.get? name = some i ↔
    NamedAt texts name i ∧ ∀ j, NamedAt texts name j → j ≤ i
  /-- The variables stand in the order of the first positions of their names. -/
  order : vars.keys.Pairwise fun m n => ∃ i, NamedAt texts m i ∧ ∀ j, NamedAt texts n j → i < j
  /-- The repeated names are those at the positions whose name stands further in front as well, one
  name for each of these positions and in their order. -/
  again : ∃ positions : List Nat, positions.Pairwise (· < ·) ∧
    (∀ i, i ∈ positions ↔ RepeatedAt texts i) ∧ List.Forall₂ (NamedAt texts) repeated positions
  /-- Every variable in the texts is counted once, as a variable or as a repetition. -/
  count : vars.size + repeated.length = texts.countP fun text => decide (Segment.IsVariable text)

namespace Recorded

theorem nil : Recorded [] ∅ [] where
  mem_keys name := by simp [NamedAt]
  last name i := by simp [NamedAt]
  order := .nil
  again := ⟨[], .nil, by simp [RepeatedAt, NamedAt], .nil⟩
  count := rfl

variable {texts : List (List Char)} {vars : VarMap} {repeated : List String} {text : List Char}

/-- A text that is no variable leaves everything as it is. -/
theorem concat_of_not_isVariable (h : Recorded texts vars repeated)
    (htext : ¬Segment.IsVariable text) : Recorded (texts ++ [text]) vars repeated := by
  have hnamed : NamedAt (texts ++ [text]) = NamedAt texts := by
    funext name i
    rw [namedAt_concat, eq_iff_iff, or_iff_left]
    exact fun hname => htext hname.2.isVariable
  have hrepeated : RepeatedAt (texts ++ [text]) = RepeatedAt texts := by
    funext i
    rw [RepeatedAt, hnamed, RepeatedAt]
  have hagain := h.again
  rw [← hnamed, ← hrepeated] at hagain
  refine ⟨hnamed ▸ h.mem_keys, hnamed ▸ h.last, hnamed ▸ h.order, hagain, ?_⟩
  rw [h.count, List.countP_append, List.countP_singleton, if_neg (by simpa using htext)]
  rfl

theorem last_concat (h : Recorded texts vars repeated) {new : String}
    (htext : Segment.HasName text new) (name : String) (i : Nat) :
    (vars.insert new texts.length).get? name = some i ↔
      NamedAt (texts ++ [text]) name i ∧ ∀ j, NamedAt (texts ++ [text]) name j → j ≤ i := by
  simp only [namedAt_concat_of_hasName htext, OrderedMap.get?_insert]
  split
  · rename_i hname
    subst hname
    rw [Option.some_inj]
    constructor
    · rintro rfl
      refine ⟨.inr ⟨rfl, rfl⟩, fun j hj => ?_⟩
      rcases hj with hj | ⟨rfl, -⟩
      · exact hj.lt_length.le
      · exact Nat.le_refl _
    · rintro ⟨hi, hmax⟩
      have hle := hmax texts.length (.inr ⟨rfl, rfl⟩)
      rcases hi with hi | ⟨rfl, -⟩
      · have hlt := hi.lt_length
        omega
      · rfl
  · rename_i hname
    simp only [Ne.symm hname, and_false, or_false]
    exact h.last name i

theorem order_concat (h : Recorded texts vars repeated) {new : String}
    (htext : Segment.HasName text new) :
    (vars.insert new texts.length).keys.Pairwise fun m n =>
      ∃ i, NamedAt (texts ++ [text]) m i ∧ ∀ j, NamedAt (texts ++ [text]) n j → i < j := by
  simp only [namedAt_concat_of_hasName htext]
  -- the new position is behind all positions that a name has already
  have hold : vars.keys.Pairwise fun m n => ∃ i, (NamedAt texts m i ∨ i = texts.length ∧ m = new) ∧
      ∀ j, NamedAt texts n j ∨ j = texts.length ∧ n = new → i < j := by
    refine h.order.imp fun ⟨i, hi, hfirst⟩ => ⟨i, .inl hi, fun j hj => ?_⟩
    rcases hj with hj | ⟨rfl, -⟩
    · exact hfirst j hj
    · exact hi.lt_length
  rw [OrderedMap.keys_insert]
  split
  · exact hold
  · rename_i hnew
    refine List.pairwise_append.2 ⟨hold, List.pairwise_singleton _ _, fun m hm n hn => ?_⟩
    rw [List.mem_singleton.1 hn]
    obtain ⟨i, hi⟩ := (h.mem_keys m).1 hm
    refine ⟨i, .inl hi, fun j hj => ?_⟩
    rcases hj with hj | ⟨rfl, -⟩
    · exact absurd ((h.mem_keys new).2 ⟨j, hj⟩) hnew
    · exact hi.lt_length

theorem again_concat (h : Recorded texts vars repeated) {new : String}
    (htext : Segment.HasName text new) :
    ∃ positions : List Nat, positions.Pairwise (· < ·) ∧
      (∀ i, i ∈ positions ↔ RepeatedAt (texts ++ [text]) i) ∧
      List.Forall₂ (NamedAt (texts ++ [text]))
        (repeated ++ if new ∈ vars.keys then [new] else []) positions := by
  obtain ⟨positions, hsorted, hmem, hnames⟩ := h.again
  have hold : List.Forall₂ (NamedAt (texts ++ [text])) repeated positions :=
    hnames.imp fun _ _ hname => namedAt_concat.2 (.inl hname)
  simp only [repeatedAt_concat_of_hasName htext, ← h.mem_keys, ← hmem]
  split
  · rename_i hnew
    refine ⟨positions ++ [texts.length], ?_, fun i => ?_, ?_⟩
    · refine List.pairwise_append.2 ⟨hsorted, List.pairwise_singleton _ _, fun i hi j hj => ?_⟩
      rw [List.mem_singleton.1 hj]
      exact ((hmem i).1 hi).lt_length
    · rw [List.mem_append, List.mem_singleton, and_iff_left hnew]
    · exact List.rel_append hold (.cons (namedAt_concat.2 (.inr ⟨rfl, htext⟩)) .nil)
  · rename_i hnew
    rw [List.append_nil]
    exact ⟨positions, hsorted, fun i => by rw [or_iff_left fun hi => hnew hi.2], hold⟩

/-- **A text that is a variable** enters its name with its own position, and is one to warn about if
the name is there. -/
theorem concat_of_hasName (h : Recorded texts vars repeated) {new : String}
    (htext : Segment.HasName text new) :
    Recorded (texts ++ [text]) (vars.insert new texts.length)
      (repeated ++ if new ∈ vars.keys then [new] else []) where
  mem_keys name := by
    simp only [namedAt_concat_of_hasName htext, exists_or, OrderedMap.mem_keys_insert, h.mem_keys,
      exists_eq_left, or_comm]
  last := h.last_concat htext
  order := h.order_concat htext
  again := h.again_concat htext
  count := by
    have hcount := h.count
    have hone : [text].countP (fun text => decide (Segment.IsVariable text)) = 1 := by
      simpa using htext.isVariable
    rw [List.countP_append, hone, OrderedMap.size_insert, List.length_append]
    split
    · rw [List.length_singleton]
      omega
    · rw [List.length_nil]
      omega

end Recorded

/-! ## Reading -/

/-- The variables of one text more. -/
theorem occurrences_concat (texts : List (List Char)) (text : List Char) :
    occurrences (texts ++ [text]) = occurrences texts ++
      ((Segment.variableName? text).map fun n => (String.ofList n, texts.length)).toList := by
  rw [occurrences_append]
  congr 1
  cases hname : Segment.variableName? text <;> simp [occurrences, hname]

/-- One name more is repeated if it has been seen or stands further in front. -/
theorem repeats_concat (seen names : List String) (name : String) :
    repeats seen (names ++ [name]) =
      repeats seen names ++ if name ∈ seen ∨ name ∈ names then [name] else [] := by
  rw [repeats_eq, repeats_eq, List.zipIdx_append, List.filterMap_append, List.zipIdx_singleton]
  congr 1
  · refine List.filterMap_congr fun x hx => ?_
    rw [List.take_append_of_le_length (List.snd_lt_of_mem_zipIdx hx).le]
  · by_cases hname : name ∈ seen ∨ name ∈ names <;> simp [hname]

/-- **The texts of a path are read with their variables recorded.** -/
theorem recorded_ofTexts (texts : List (List Char)) :
    Recorded texts (ofTexts texts).vars (repeats [] ((occurrences texts).map Prod.fst)) := by
  induction texts using List.reverseRecOn with
  | nil => exact .nil
  | append_singleton texts text ih =>
    have hmore := occurrences_concat texts text
    cases hname : Segment.variableName? text with
    | none =>
      rw [hname, Option.map_none, Option.toList_none, List.append_nil] at hmore
      rw [ofTexts, hmore]
      exact ih.concat_of_not_isVariable (Segment.variableName?_eq_none_iff.1 hname)
    | some n =>
      rw [hname, Option.map_some, Option.toList_some] at hmore
      have htext : Segment.HasName text (String.ofList n) :=
        Segment.hasName_iff.2 (by rw [hname, String.toList_ofList])
      have hvars : (ofTexts (texts ++ [text])).vars =
          (ofTexts texts).vars.insert (String.ofList n) texts.length := by
        rw [ofTexts, hmore]
        exact OrderedMap.insertMany_concat _ _ _
      have hkeys : String.ofList n ∈ (ofTexts texts).vars.keys ↔
          String.ofList n ∈ (occurrences texts).map Prod.fst := OrderedMap.mem_keys_ofList
      rw [hvars, hmore, List.map_append, List.map_singleton, repeats_concat]
      simp only [List.not_mem_nil, false_or, ← hkeys]
      exact ih.concat_of_hasName htext

/-- **The variables of a path tell where its names stand.**  Every text that starts with a slash is
cut into texts in one way, and read.  A text that is a star or a variable is a variable position, and
any other text stands for itself.  A name that stands in the path has one variable, with the last of
its positions; the variables stand in the order of the first positions, no two at the same position,
and all of them at variable positions.  The names to warn about are those of the positions that are
not the first of their names, so that every variable in the path is counted once. -/
theorem parse_recorded {written : String} (h : written.toList.head? = some '/') :
    ∃ texts path, (∀ cut, CutInto written cut ↔ cut = texts) ∧ parse written = .ok path ∧
      List.Forall₂ Segment.WrittenAs path.segments texts ∧
      Recorded texts path.vars (repeatedNames written) ∧
      (∀ v ∈ path.vars.entries,
        v.2 < path.segments.length ∧ path.segments[v.2]? = some .wildcard) ∧
      ∀ v ∈ path.vars.entries, ∀ w ∈ path.vars.entries, v.2 = w.2 → v.1 = w.1 := by
  obtain ⟨path, hpath⟩ := parse_eq_ok h
  have hform := wellFormed_of_parse hpath
  obtain ⟨texts, htexts, rfl⟩ := parse_eq_ok_iff.1 hpath
  have hsegments : List.Forall₂ Segment.WrittenAs (ofTexts texts).segments texts :=
    List.forall₂_map_left_iff.2 (List.forall₂_same.2 fun text _ => Segment.writtenAs_ofText text)
  refine ⟨texts, ofTexts texts, fun cut => ?_, hpath, hsegments, ?_, fun v hv => ?_,
    fun v hv w hw hvw => ?_⟩
  · rw [cutInto_iff, htexts, Option.some_inj, eq_comm]
  · rw [repeatedNames, htexts]
    exact recorded_ofTexts texts
  · have hwild := hform.wildcard v hv
    exact ⟨(List.getElem?_eq_some_iff.1 hwild).1, hwild⟩
  · rw [hform.index_inj v hv w hw hvw]

/-- Two spellings of one name, a name between its repetitions, a star, and texts that are almost
variables. -/
theorem parse_recorded_repeated :
    ∃ texts path, CutInto "/:b/{a}/*/{b}/\x7ba/:b//\x7b\x7d" texts ∧
      parse "/:b/{a}/*/{b}/\x7ba/:b//\x7b\x7d" = .ok path ∧
      path.vars.entries = [("b", 5), ("a", 1)] ∧
      repeatedNames "/:b/{a}/*/{b}/\x7ba/:b//\x7b\x7d" = ["b", "b"] ∧
      Recorded texts path.vars ["b", "b"] := by
  obtain ⟨texts, path, hcut, hpath, -, hrecorded, -⟩ :=
    @parse_recorded "/:b/{a}/*/{b}/\x7ba/:b//\x7b\x7d" rfl
  have hagain : repeatedNames "/:b/{a}/*/{b}/\x7ba/:b//\x7b\x7d" = ["b", "b"] := by
    decide +kernel
  have hread : parse "/:b/{a}/*/{b}/\x7ba/:b//\x7b\x7d" =
      .ok (ofTexts [[':', 'b'], ['\x7b', 'a', '\x7d'], ['*'], ['\x7b', 'b', '\x7d'],
        ['\x7b', 'a'], [':', 'b'], [], ['\x7b', '\x7d']]) := rfl
  refine ⟨texts, path, (hcut texts).2 rfl, hpath, ?_, hagain, hagain ▸ hrecorded⟩
  obtain rfl := Except.ok.inj (hpath.symm.trans hread)
  decide +kernel

end Path

end RouteTrie
