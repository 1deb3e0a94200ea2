import RouteTrie.Proofs.Json.Equality
import RouteTrie.Proofs.Json.Number
import RouteTrie.Proofs.Text.Fields

/-!
# The text of a JSON value

The text of a value ends where it ends: whatever follows it, as long as that does not go on with a
number, the text tells the value and where it stops.  So values with the same text are the same, and
a list of values with commas between them can be taken apart.  No text of a value spans two lines.

## What is here

* `Json.readString?_quoted`: reading a text between quotes back, piece by piece.
* `Json.join_append_inj`: lists of things that tell where they end.
* `Json.chars_append_inj`, `Json.compact_inj`: the text of a value tells the value.
* `Json.not_mem_chars`: there is no line feed in it.
-/

set_option autoImplicit false

namespace RouteTrie.Json

/-! ## Texts between quotes -/

/-- The piece that is read for a character between quotes: control characters without a letter of
their own are written as units. -/
def pieceOf (c : Char) : Piece :=
  if c.toNat < 0x20 ∧ c ∉ ['\x08', '\t', '\n', '\x0c', '\r'] then .unit c.toNat else .char c

theorem pieceOf_inj {c d : Char} (h : pieceOf c = pieceOf d) : c = d := by
  rw [pieceOf, pieceOf] at h
  split at h <;> split at h
  · exact Char.toNat_inj.1 (Piece.unit.inj h)
  · cases h
  · cases h
  · exact Piece.char.inj h

theorem hexNumber?_hexDigits {n : Nat} (hn : n < 0x20) :
    Text.hexNumber? 4 ['0', '0', hexDigit (n / 16), hexDigit (n % 16)] = some (n, []) := by
  have hall : ∀ n < 0x20,
      Text.hexNumber? 4 ['0', '0', hexDigit (n / 16), hexDigit (n % 16)] = some (n, []) := by
    decide
  exact hall n hn

theorem readString?_letter {c d : Char} (hu : c ≠ 'u') (hd : unescaped? c = some d)
    (rest : List Char) (acc : List Piece) :
    readString? ('\\' :: c :: rest) acc = readString? rest (.char d :: acc) := by
  rw [readString?, hd]
  rintro _ _ _ _ _ rfl
  exact fun _ => hu rfl

theorem readString?_plain {c : Char} (hquote : c ≠ '"') (hback : c ≠ '\\') (hc : ¬c.toNat < 0x20)
    (rest : List Char) (acc : List Piece) :
    readString? (c :: rest) acc = readString? rest (.char c :: acc) := by
  rw [readString?]
  · rw [if_neg (by simp [hback, hc])]
  · exact hquote
  · rintro _ _ _ _ _ rfl
    exact fun _ => hback rfl
  · rintro _ _ rfl
    exact fun _ => hback rfl

/-- A character between quotes is escaped by a letter or by its number, or stands for itself. -/
theorem escaped_cases (c : Char) :
    (∃ letter, escaped c = ['\\', letter] ∧ letter ≠ 'u' ∧ unescaped? letter = some c ∧
      pieceOf c = .char c) ∨
    (c.toNat < 0x20 ∧ pieceOf c = .unit c.toNat ∧
      escaped c = ['\\', 'u', '0', '0', hexDigit (c.toNat / 16), hexDigit (c.toNat % 16)]) ∨
    (c ≠ '"' ∧ c ≠ '\\' ∧ ¬c.toNat < 0x20 ∧ escaped c = [c] ∧ pieceOf c = .char c) := by
  by_cases hletter : c ∈ ['"', '\\', '\x08', '\t', '\n', '\x0c', '\r']
  · simp only [List.mem_cons, List.not_mem_nil, or_false] at hletter
    rcases hletter with rfl | rfl | rfl | rfl | rfl | rfl | rfl <;>
      exact .inl ⟨_, rfl, by decide, rfl, rfl⟩
  · simp only [List.mem_cons, List.not_mem_nil, or_false, not_or] at hletter
    obtain ⟨hquote, hback, hb, ht, hn, hf, hr⟩ := hletter
    by_cases hc : c.toNat < 0x20
    · exact .inr (.inl ⟨hc, by simp [pieceOf, *], by simp [escaped, *]⟩)
    · exact .inr (.inr ⟨hquote, hback, hc, by simp [escaped, *], by simp [pieceOf, hc]⟩)

/-- A character between quotes is read as one piece. -/
theorem readString?_escaped (c : Char) (rest : List Char) (acc : List Piece) :
    readString? (escaped c ++ rest) acc = readString? rest (pieceOf c :: acc) := by
  rcases escaped_cases c with ⟨letter, htext, hu, hc, hpiece⟩ | ⟨hc, hpiece, htext⟩ |
    ⟨hquote, hback, hc, htext, hpiece⟩
  · rw [htext, hpiece]
    exact readString?_letter hu hc rest acc
  · rw [htext, hpiece]
    simp only [List.cons_append, List.nil_append]
    rw [readString?, hexNumber?_hexDigits hc]
  · rw [htext, hpiece]
    exact readString?_plain hquote hback hc rest acc

/-- There is no line feed between quotes. -/
theorem not_mem_escaped (c : Char) : '\n' ∉ escaped c := by
  rcases escaped_cases c with ⟨letter, htext, -, hc, -⟩ | ⟨hc, -, htext⟩ | ⟨-, -, hc, htext, -⟩
  · rw [htext]
    rintro (_ | ⟨_, _ | ⟨_, ⟨⟩⟩⟩)
    cases hc
  · have hall : ∀ n < 0x20,
        '\n' ∉ ['\\', 'u', '0', '0', hexDigit (n / 16), hexDigit (n % 16)] := by decide
    rw [htext]
    exact hall _ hc
  · rw [htext, List.mem_singleton]
    rintro rfl
    exact hc (by decide)

/-- **A text between quotes is read back**, character by character. -/
theorem readString?_flatMap_escaped (cs rest : List Char) (acc : List Piece) :
    readString? (cs.flatMap escaped ++ '"' :: rest) acc =
      some (acc.reverse ++ cs.map pieceOf, rest) := by
  induction cs generalizing acc with
  | nil => simp [readString?]
  | cons c cs ih =>
    rw [List.flatMap_cons, List.append_assoc, readString?_escaped, ih]
    simp

theorem quoted_append_inj {k k' : String} {s t : List Char} (h : quoted k ++ s = quoted k' ++ t) :
    k = k' ∧ s = t := by
  rw [quoted, quoted, List.cons_append, List.cons_append, List.append_assoc, List.append_assoc] at h
  have hread := congrArg (fun cs => readString? cs []) (List.cons.inj h).2
  simp only [List.singleton_append, readString?_flatMap_escaped, List.reverse_nil,
    List.nil_append] at hread
  obtain ⟨hpieces, hrest⟩ := Prod.mk.inj (Option.some.inj hread)
  refine ⟨String.toList_inj.1 ?_, hrest⟩
  exact List.map_injective_iff.2 (fun _ _ => pieceOf_inj) hpieces

/-! ## Lists -/

/-- What stands behind the first element of a list with commas between its elements. -/
def behindFirst {α : Type} (p : α → List Char) (close : Char) (zs : List α) (rest : List Char) :
    List Char :=
  match zs with
  | [] => close :: rest
  | z :: zs => ',' :: (Text.join ',' ((z :: zs).map p) ++ close :: rest)

section Lists

variable {α : Type} {p : α → List Char} {close : Char}

theorem join_cons_append (z : α) (zs : List α) (rest : List Char) :
    Text.join ',' ((z :: zs).map p) ++ close :: rest = p z ++ behindFirst p close zs rest := by
  cases zs with
  | nil => rfl
  | cons w ws =>
    rw [List.map_cons, Text.join_cons (by simp), List.append_assoc]
    rfl

theorem endsNumber_behindFirst (hclose : goesOn close = false) (zs : List α) (rest : List Char) :
    EndsNumber (behindFirst p close zs rest) := by
  cases zs with
  | nil =>
    rintro c ⟨⟩
    exact hclose
  | cons z zs =>
    rintro c ⟨⟩
    rfl

/-- Lists with commas between their elements tell where they end, if their elements do. -/
theorem join_append_inj (hclose : goesOn close = false) (hcomma : close ≠ ',')
    (hstart : ∀ x, ∃ c cs, p x = c :: cs ∧ c ≠ close) {xs ys : List α}
    (hp : ∀ x ∈ xs, ∀ y s t, EndsNumber s → EndsNumber t → p x ++ s = p y ++ t → x = y ∧ s = t)
    {s t : List Char}
    (h : Text.join ',' (xs.map p) ++ close :: s = Text.join ',' (ys.map p) ++ close :: t) :
    xs = ys ∧ s = t := by
  -- no list starts as the end of a list does
  have hempty : ∀ (z : α) (zs : List α) (rest rest' : List Char),
      close :: rest ≠ Text.join ',' ((z :: zs).map p) ++ close :: rest' := by
    intro z zs rest rest' heq
    obtain ⟨c, cs, hc, hne⟩ := hstart z
    rw [join_cons_append, hc] at heq
    exact hne (List.cons.inj heq).1.symm
  induction xs generalizing ys with
  | nil =>
    cases ys with
    | nil => exact ⟨rfl, (List.cons.inj h).2⟩
    | cons y ys => exact absurd h (hempty y ys s t)
  | cons x xs ih =>
    cases ys with
    | nil => exact absurd h.symm (hempty x xs t s)
    | cons y ys =>
      rw [join_cons_append, join_cons_append] at h
      obtain ⟨rfl, hrest⟩ := hp x List.mem_cons_self y _ _ (endsNumber_behindFirst hclose xs s)
        (endsNumber_behindFirst hclose ys t) h
      have htail : xs = ys ∧ s = t := by
        cases xs with
        | nil =>
          cases ys with
          | nil => exact ⟨rfl, (List.cons.inj hrest).2⟩
          | cons y ys => exact absurd (List.cons.inj hrest).1 hcomma
        | cons x xs =>
          cases ys with
          | nil => exact absurd (List.cons.inj hrest).1.symm hcomma
          | cons y ys =>
            exact ih (fun z hz => hp z (List.mem_cons_of_mem _ hz)) (List.cons.inj hrest).2
      exact ⟨by rw [htail.1], htail.2⟩

end Lists

/-! ## Values -/

/-- The text of a field. -/
def fieldText (f : String × Json) : List Char := quoted f.1 ++ ':' :: chars f.2

theorem itemsChars_eq_join (items : List Json) :
    itemsChars items = Text.join ',' (items.map chars) := by
  induction items with
  | nil => rw [itemsChars]; rfl
  | cons v vs ih =>
    cases vs with
    | nil => rw [itemsChars]; rfl
    | cons w ws =>
      rw [itemsChars, ih]
      rfl

theorem fieldsChars_eq_join (fields : List (String × Json)) :
    fieldsChars fields = Text.join ',' (fields.map fieldText) := by
  induction fields with
  | nil => rw [fieldsChars]; rfl
  | cons f fs ih =>
    obtain ⟨k, v⟩ := f
    cases fs with
    | nil => rw [fieldsChars]; rfl
    | cons g gs =>
      rw [fieldsChars, ih]
      exact (List.append_assoc (quoted k) (':' :: chars v) _).symm

/-- The kind of a value that its first character tells. -/
def kind : Json → Nat
  | null => 0
  | bool _ => 1
  | int _ => 2
  | float _ => 2
  | str _ => 3
  | arr _ => 4
  | obj _ => 5

/-- The kind of the value that starts with a character; 6 if there is none. -/
def kindOfLead (c : Char) : Nat :=
  if c = 'n' then 0
  else if c = 't' ∨ c = 'f' then 1
  else if isNumberChar c then 2
  else if c = '"' then 3
  else if c = '[' then 4
  else if c = '\x7b' then 5
  else 6

theorem kindOfLead_of_isNumberChar {c : Char} (h : isNumberChar c = true) : kindOfLead c = 2 := by
  have hn : c ≠ 'n' := by rintro rfl; exact absurd h (by decide)
  have ht : c ≠ 't' := by rintro rfl; exact absurd h (by decide)
  have hf : c ≠ 'f' := by rintro rfl; exact absurd h (by decide)
  simp [kindOfLead, hn, ht, hf, h]

theorem exists_lead_of_number {cs : List Char} (hne : cs ≠ [])
    (hcs : ∀ c ∈ cs, isNumberChar c = true) : ∃ d ds, cs = d :: ds ∧ kindOfLead d = 2 := by
  obtain ⟨d, ds, rfl⟩ := List.exists_cons_of_ne_nil hne
  exact ⟨d, ds, rfl, kindOfLead_of_isNumberChar (hcs d List.mem_cons_self)⟩

/-- The text of a value starts with a character of its kind. -/
theorem exists_lead (a : Json) : ∃ c cs, chars a = c :: cs ∧ kindOfLead c = kind a := by
  cases a with
  | null => exact ⟨'n', "ull".toList, rfl, rfl⟩
  | bool b =>
    cases b with
    | true => exact ⟨'t', "rue".toList, rfl, rfl⟩
    | false => exact ⟨'f', "alse".toList, rfl, rfl⟩
  | int n =>
    refine exists_lead_of_number (fun hnil => ?_) fun c hc => isNumberChar_of_mem_intText hc
    rw [chars, intText] at hnil
    split at hnil
    · cases hnil
    · exact Nat.toDigits_ne_nil hnil
  | float x =>
    refine exists_lead_of_number (fun hnil => ?_) fun c hc => isNumberChar_of_mem_floatText hc
    obtain ⟨whole, fraction, exponent, hlayout, hne, -⟩ := exists_layout_floatText x
    rw [chars, hlayout, numberLayout] at hnil
    simp [hne] at hnil
  | str s => exact ⟨'"', _, rfl, rfl⟩
  | arr items => exact ⟨'[', _, by rw [chars], rfl⟩
  | obj fields => exact ⟨'\x7b', _, by rw [chars], rfl⟩

theorem kind_eq_of_append_eq {a b : Json} {s t : List Char} (h : chars a ++ s = chars b ++ t) :
    kind a = kind b := by
  obtain ⟨c, cs, hc, hkind⟩ := exists_lead a
  obtain ⟨d, ds, hd, hkind'⟩ := exists_lead b
  rw [hc, hd] at h
  rw [← hkind, ← hkind', (List.cons.inj h).1]

theorem chars_ne_bracket (a : Json) : ∃ c cs, chars a = c :: cs ∧ c ≠ ']' := by
  obtain ⟨c, cs, hc, hkind⟩ := exists_lead a
  refine ⟨c, cs, hc, ?_⟩
  rintro rfl
  have hlt : kind a < 6 := by cases a <;> simp [kind]
  rw [← hkind] at hlt
  exact absurd hlt (by decide)

/-- The text of a field tells the field and where it ends, if that of its value does. -/
theorem fieldText_append_inj {f g : String × Json} {s t : List Char}
    (hvalue : chars f.2 ++ s = chars g.2 ++ t → f.2 = g.2 ∧ s = t)
    (h : fieldText f ++ s = fieldText g ++ t) : f = g ∧ s = t := by
  rw [fieldText, fieldText, List.append_assoc, List.append_assoc] at h
  obtain ⟨hname, hrest⟩ := quoted_append_inj h
  obtain ⟨hv, rfl⟩ := hvalue (List.cons.inj hrest).2
  exact ⟨Prod.ext hname hv, rfl⟩

/-- **The text of a value tells the value and where it ends.** -/
theorem chars_append_inj {a b : Json} {s t : List Char} (hs : EndsNumber s) (ht : EndsNumber t)
    (h : chars a ++ s = chars b ++ t) : a = b ∧ s = t := by
  induction a using Json.induction generalizing b s t with
  | null =>
    have hkind := kind_eq_of_append_eq h
    cases b with
    | null => exact ⟨rfl, List.append_cancel_left h⟩
    | _ => simp [kind] at hkind
  | bool x =>
    have hkind := kind_eq_of_append_eq h
    cases b with
    | bool y =>
      cases x <;> cases y
      · exact ⟨rfl, List.append_cancel_left h⟩
      · cases (List.cons.inj h).1
      · cases (List.cons.inj h).1
      · exact ⟨rfl, List.append_cancel_left h⟩
    | _ => simp [kind] at hkind
  | int n =>
    have hkind := kind_eq_of_append_eq h
    cases b with
    | int m =>
      obtain ⟨rfl, rfl⟩ := intText_append_inj hs ht h
      exact ⟨rfl, rfl⟩
    | float y => exact absurd h (intText_append_ne_floatText hs ht n y)
    | _ => simp [kind] at hkind
  | float x =>
    have hkind := kind_eq_of_append_eq h
    cases b with
    | int m => exact absurd h.symm (intText_append_ne_floatText ht hs m x)
    | float y =>
      obtain ⟨rfl, rfl⟩ := floatText_append_inj hs ht h
      exact ⟨rfl, rfl⟩
    | _ => simp [kind] at hkind
  | str k =>
    have hkind := kind_eq_of_append_eq h
    cases b with
    | str k' =>
      obtain ⟨rfl, rfl⟩ := quoted_append_inj h
      exact ⟨rfl, rfl⟩
    | _ => simp [kind] at hkind
  | arr xs ih =>
    have hkind := kind_eq_of_append_eq h
    cases b with
    | arr ys =>
      rw [chars, chars, itemsChars_eq_join, itemsChars_eq_join, List.cons_append, List.cons_append,
        List.append_assoc, List.append_assoc] at h
      obtain ⟨rfl, rfl⟩ := join_append_inj rfl (by decide) chars_ne_bracket
        (fun x hx y s t hs ht h => ih x hx hs ht h) (List.cons.inj h).2
      exact ⟨rfl, rfl⟩
    | _ => simp [kind] at hkind
  | obj xs ih =>
    have hkind := kind_eq_of_append_eq h
    cases b with
    | obj ys =>
      rw [chars, chars, fieldsChars_eq_join, fieldsChars_eq_join, List.cons_append,
        List.cons_append, List.append_assoc, List.append_assoc] at h
      obtain ⟨rfl, rfl⟩ := join_append_inj rfl (by decide)
        (fun f => ⟨'"', _, rfl, by decide⟩)
        (fun f hf g s t hs ht h => fieldText_append_inj (ih f hf hs ht) h) (List.cons.inj h).2
      exact ⟨rfl, rfl⟩
    | _ => simp [kind] at hkind

/-- **The compact text of a value tells the value.** -/
theorem compact_inj {a b : Json} (h : compact a = compact b) : a = b := by
  have hchars := congrArg String.toList h
  rw [compact, compact, String.toList_ofList, String.toList_ofList] at hchars
  have hends : EndsNumber [] := fun c hc => by cases hc
  exact (chars_append_inj hends hends (by rw [hchars])).1

/-! ## Lines -/

theorem ne_of_isNumberChar {c : Char} (h : isNumberChar c = true) : c ≠ '\n' := by
  rintro rfl
  exact absurd h (by decide)

theorem not_mem_quoted (s : String) : '\n' ∉ quoted s := by
  rw [quoted, List.mem_cons, List.mem_append, List.mem_flatMap]
  rintro (h | ⟨c, -, hc⟩ | h)
  · cases h
  · exact not_mem_escaped c hc
  · exact absurd h (by decide)

/-- **There is no line feed in the text of a value.** -/
theorem not_mem_chars (a : Json) : '\n' ∉ chars a := by
  induction a using Json.induction with
  | null => decide
  | bool b => cases b <;> decide
  | int n => exact fun h => ne_of_isNumberChar (isNumberChar_of_mem_intText h) rfl
  | float x => exact fun h => ne_of_isNumberChar (isNumberChar_of_mem_floatText h) rfl
  | str s => exact not_mem_quoted s
  | arr items ih =>
    rw [chars, itemsChars_eq_join, List.mem_cons, List.mem_append]
    rintro (h | h | h)
    · cases h
    · rcases Text.eq_or_exists_of_mem_join h with h | ⟨f, hf, h⟩
      · cases h
      · obtain ⟨v, hv, rfl⟩ := List.mem_map.1 hf
        exact ih v hv h
    · exact absurd h (by decide)
  | obj fields ih =>
    rw [chars, fieldsChars_eq_join, List.mem_cons, List.mem_append]
    rintro (h | h | h)
    · cases h
    · rcases Text.eq_or_exists_of_mem_join h with h | ⟨g, hg, h⟩
      · cases h
      · obtain ⟨f, hf, rfl⟩ := List.mem_map.1 hg
        rw [fieldText, List.mem_append, List.mem_cons] at h
        rcases h with h | h | h
        · exact not_mem_quoted f.1 h
        · cases h
        · exact ih f hf h
    · exact absurd h (by decide)

end RouteTrie.Json
