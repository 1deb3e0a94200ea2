import RouteTrie.Json.Printer
import RouteTrie.Json.Reader
import RouteTrie.Proofs.Binary64.Shortest

/-!
# Printed numbers are taken apart as they were put together

A number is printed as an optional sign, digits, an optional fraction and an optional exponent.
Reading takes it apart into these parts, whatever follows it, as long as that does not go on like a
number; and the parts stand for the same decimal.  So the text of a number tells the number.

## What is here

* `Json.numberText?`: how reading takes a number apart.
* `Json.EndsNumber`: what can follow a number.
* `Json.numberLayout`, `Json.numberText?_layout`: numbers in parts, and how they are taken apart.
* `Json.numberText?_intText`, `Json.numberText?_floatText`: the parts of a printed number.
* `Json.intText_append_inj`, `Json.floatText_append_inj`,
  `Json.intText_append_ne_floatText`: numbers with the same text.
-/

set_option autoImplicit false

namespace RouteTrie

/-! ## Digits -/

namespace Text

/-- What a decimal digit is worth. -/
def digitValue (c : Char) : Nat := c.toNat - '0'.toNat

theorem decimalDigit?_of_isDigit {c : Char} (h : c.isDigit = true) :
    decimalDigit? c = some (digitValue c) := by
  have hc : '0' ≤ c ∧ c ≤ '9' := by
    simpa [Char.isDigit, Char.le_def] using h
  have hle : c.toNat ≤ '9'.toNat := hc.2
  have hlt : c.toNat - '0'.toNat < 10 := by
    have h9 : '9'.toNat = 57 := rfl
    have h0 : '0'.toNat = 48 := rfl
    omega
  rw [decimalDigit?, digit?]
  simp only [if_pos hc, if_pos hlt]
  rfl

theorem decimalDigit?_eq_none {c : Char} (h : c.isDigit = false) : decimalDigit? c = none := by
  have hc : ¬('0' ≤ c ∧ c ≤ '9') := by
    intro hc
    have : c.isDigit = true := by simpa [Char.isDigit, Char.le_def] using hc
    rw [h] at this
    cases this
  rw [decimalDigit?, digit?]
  simp only [if_neg hc]
  -- a letter is worth ten or more, and any other character sixteen
  by_cases hlower : 'a' ≤ c ∧ c ≤ 'f'
  · rw [if_pos hlower, if_neg (by omega)]
  · by_cases hupper : 'A' ≤ c ∧ c ≤ 'F'
    · rw [if_neg hlower, if_pos hupper, if_neg (by omega)]
    · rw [if_neg hlower, if_neg hupper, if_neg (by decide)]

/-- The digits at the front of a text that goes on with something else. -/
theorem splitDigits_append {ds rest : List Char} (hds : ∀ c ∈ ds, c.isDigit = true)
    (hrest : ∀ c ∈ rest.head?, c.isDigit = false) :
    splitDigits (ds ++ rest) = (ds.map digitValue, rest) := by
  induction ds with
  | nil =>
    cases rest with
    | nil => rfl
    | cons c cs => rw [List.nil_append, splitDigits, decimalDigit?_eq_none (hrest c rfl)]; rfl
  | cons d ds ih =>
    rw [List.cons_append, splitDigits, decimalDigit?_of_isDigit (hds d List.mem_cons_self),
      ih fun c hc => hds c (List.mem_cons_of_mem d hc)]
    rfl

theorem ofDigits_map (ds : List Char) :
    ofDigits 10 (ds.map digitValue) = Nat.ofDigitChars 10 ds 0 := by
  rw [ofDigits, List.foldl_map, Nat.ofDigitChars_eq_foldl]
  congr 1
  funext n c
  rw [Nat.mul_comm]
  rfl

/-- The digits of a number are those that it is printed with. -/
theorem ofDigits_toDigits (n : Nat) : ofDigits 10 ((Nat.toDigits 10 n).map digitValue) = n := by
  rw [ofDigits_map, Nat.ofDigitChars_ten_toDigits]

end Text

namespace Json

/-! ## Taking numbers apart -/

/-- The parts of the number at the front of a text, and the rest of it. -/
def numberText? (cs : List Char) : Option (NumberText × List Char) :=
  let negative := cs.head? == some '-'
  let whole := Text.splitDigits (if negative then cs.tail else cs)
  (readFraction? whole.2).bind fun f =>
    (readExponent? f.2).map fun e =>
      (⟨negative, whole.1, f.1, e.1.getD 0, f.1.isEmpty && e.1.isNone⟩, e.2)

/-- Reading takes a number apart and looks at nothing but its parts. -/
theorem exists_numberText_of_readNumber? {cs rest : List Char} {d : Document}
    (h : readNumber? cs = some (d, rest)) :
    ∃ t, numberText? cs = some (t, rest) ∧ d = t.value := by
  rw [readNumber?] at h
  rw [numberText?]
  generalize Text.splitDigits (if (cs.head? == some '-') = true then cs.tail else cs) = whole at h ⊢
  dsimp only at h ⊢
  split at h
  · cases h
  · cases hf : readFraction? whole.2 with
    | none =>
      rw [hf] at h
      cases h
    | some f =>
      cases he : readExponent? f.2 with
      | none =>
        simp only [hf, he] at h
        cases h
      | some e =>
        simp only [hf, he] at h
        cases h
        exact ⟨_, by simp only [Option.bind_some, he, Option.map_some], rfl⟩

/-- The decimal that the parts of a number stand for, without its sign. -/
def NumberText.absValue (t : NumberText) : ℚ :=
  Text.ofDigits 10 (t.whole ++ t.fraction) * 10 ^ (t.exponent - t.fraction.length)

/-- Whether a character goes on with a number. -/
def goesOn (c : Char) : Bool := c.isDigit || c == '.' || c == 'e' || c == 'E'

/-- What can follow a number: nothing, or a character that does not go on with it. -/
def EndsNumber (rest : List Char) : Prop := ∀ c ∈ rest.head?, goesOn c = false

/-- The text of a fraction. -/
def fractionText (fraction : List Char) : List Char :=
  if fraction = [] then [] else '.' :: fraction

/-- The text of an exponent. -/
def exponentText : Option Int → List Char
  | none => []
  | some e => 'e' :: (if e < 0 then '-' else '+') :: Nat.toDigits 10 e.natAbs

/-- The text of a number in parts. -/
def numberLayout (negative : Bool) (whole fraction : List Char) (exponent : Option Int) :
    List Char :=
  (if negative then ['-'] else []) ++
    (whole ++ (fractionText fraction ++ exponentText exponent))

theorem EndsNumber.not_isDigit {rest : List Char} (h : EndsNumber rest) :
    ∀ c ∈ rest.head?, c.isDigit = false := by
  intro c hc
  have hgo := h c hc
  simp only [goesOn, Bool.or_eq_false_iff] at hgo
  exact hgo.1.1.1

theorem isDigit_of_mem_toDigits {n : Nat} {c : Char} (h : c ∈ Nat.toDigits 10 n) :
    c.isDigit = true :=
  Nat.isDigit_of_mem_toDigits (by decide) (by decide) h

theorem readFraction?_of_ne {cs : List Char} (h : ∀ c ∈ cs.head?, c ≠ '.') :
    readFraction? cs = some ([], cs) := by
  unfold readFraction?
  split
  · exact absurd rfl (h '.' rfl)
  · rfl

theorem readExponent?_of_ne {cs : List Char} (h : ∀ c ∈ cs.head?, c ≠ 'e' ∧ c ≠ 'E') :
    readExponent? cs = some (none, cs) := by
  cases cs with
  | nil => rfl
  | cons c cs =>
    obtain ⟨hlower, hupper⟩ := h c rfl
    rw [readExponent?, if_neg (by simp [hlower, hupper])]

/-- The fraction of a number, when something else follows. -/
theorem readFraction?_append {fraction rest : List Char}
    (hfraction : ∀ c ∈ fraction, c.isDigit = true)
    (hrest : ∀ c ∈ rest.head?, c.isDigit = false ∧ c ≠ '.') :
    readFraction? (fractionText fraction ++ rest) =
      some (fraction.map Text.digitValue, rest) := by
  rw [fractionText]
  split
  · rename_i hnil
    rw [hnil]
    exact readFraction?_of_ne fun c hc => (hrest c hc).2
  · rename_i hne
    rw [List.cons_append, readFraction?,
      Text.splitDigits_append hfraction fun c hc => (hrest c hc).1]
    simp [hne]

/-- The exponent of a number, when something else follows. -/
theorem readExponent?_append (exponent : Option Int) {rest : List Char} (hrest : EndsNumber rest) :
    readExponent? (exponentText exponent ++ rest) = some (exponent, rest) := by
  cases exponent with
  | none =>
    refine readExponent?_of_ne fun c hc => ?_
    have hgo := hrest c hc
    simp only [goesOn, Bool.or_eq_false_iff, beq_eq_false_iff_ne] at hgo
    exact ⟨hgo.1.2, hgo.2⟩
  | some e =>
    have hdigits : Text.splitDigits (Nat.toDigits 10 e.natAbs ++ rest) =
        ((Nat.toDigits 10 e.natAbs).map Text.digitValue, rest) :=
      Text.splitDigits_append (fun c hc => isDigit_of_mem_toDigits hc) hrest.not_isDigit
    have hne : Nat.toDigits 10 e.natAbs ≠ [] := Nat.toDigits_ne_nil
    rw [exponentText, List.cons_append, List.cons_append, readExponent?]
    by_cases he : e < 0
    · simp [he, hdigits, hne, Text.ofDigits_toDigits]
      rw [abs_of_neg he, neg_neg]
    · simp [he, hdigits, hne, Text.ofDigits_toDigits]
      exact not_lt.1 he

/-- **A number in parts is taken apart into these parts**, if what follows does not go on with
it. -/
theorem numberText?_layout (negative : Bool) {whole fraction : List Char} (exponent : Option Int)
    {rest : List Char} (hne : whole ≠ []) (hwhole : ∀ c ∈ whole, c.isDigit = true)
    (hfraction : ∀ c ∈ fraction, c.isDigit = true) (hrest : EndsNumber rest) :
    numberText? (numberLayout negative whole fraction exponent ++ rest) =
      some (⟨negative, whole.map Text.digitValue, fraction.map Text.digitValue, exponent.getD 0,
        fraction.isEmpty && exponent.isNone⟩, rest) := by
  have hexponent : ∀ c ∈ (exponentText exponent ++ rest).head?, c.isDigit = false ∧ c ≠ '.' := by
    cases exponent with
    | none =>
      intro c hc
      have hgo := hrest c hc
      simp only [goesOn, Bool.or_eq_false_iff, beq_eq_false_iff_ne] at hgo
      exact hgo.1.1
    | some e =>
      rintro c ⟨⟩
      decide
  have hafter : ∀ c ∈ (fractionText fraction ++ (exponentText exponent ++ rest)).head?,
      c.isDigit = false := by
    rw [fractionText]
    split
    · exact fun c hc => (hexponent c hc).1
    · rintro c ⟨⟩
      decide
  have hsplit := Text.splitDigits_append hwhole hafter
  have hparts := readFraction?_append hfraction hexponent
  have hlast := readExponent?_append exponent hrest
  obtain ⟨d, ds, rfl⟩ := List.exists_cons_of_ne_nil hne
  have hd : d ≠ '-' := by
    rintro rfl
    exact absurd (hwhole '-' List.mem_cons_self) (by decide)
  rw [numberText?, numberLayout, List.append_assoc, List.append_assoc, List.append_assoc]
  cases negative with
  | true =>
    rw [List.cons_append] at hsplit
    simp [hsplit, hparts, hlast]
  | false =>
    rw [List.cons_append] at hsplit
    simp [hsplit, hparts, hlast, hd]

/-! ## Printed numbers -/

theorem intText_eq (n : Int) :
    intText n = numberLayout (decide (n < 0)) (Nat.toDigits 10 n.natAbs) [] none := by
  rw [intText, numberLayout, fractionText, exponentText]
  by_cases h : n < 0 <;> simp [h]

/-- **A whole number is taken apart** into its sign and its digits. -/
theorem numberText?_intText (n : Int) {rest : List Char} (hrest : EndsNumber rest) :
    numberText? (intText n ++ rest) =
      some (⟨decide (n < 0), (Nat.toDigits 10 n.natAbs).map Text.digitValue, [], 0, true⟩,
        rest) := by
  rw [intText_eq, numberText?_layout _ _ Nat.toDigits_ne_nil
    (fun c hc => isDigit_of_mem_toDigits hc) (by simp) hrest]
  rfl

/-- The text has parts of which one is a fraction or an exponent, and they stand for the value. -/
def HasParts (text : List Char) (value : ℚ) : Prop :=
  ∃ whole fraction exponent, text = numberLayout false whole fraction exponent ∧ whole ≠ [] ∧
    (∀ c ∈ whole, c.isDigit = true) ∧ (∀ c ∈ fraction, c.isDigit = true) ∧
    (fraction ≠ [] ∨ exponent ≠ none) ∧
    (Nat.ofDigitChars 10 (whole ++ fraction) 0 : ℚ) * 10 ^ (exponent.getD 0 - fraction.length) =
      value

theorem isDigit_of_mem_replicate {n : Nat} {c : Char} (h : c ∈ List.replicate n '0') :
    c.isDigit = true := by
  rw [(List.mem_replicate.1 h).2]
  rfl

theorem ofDigitChars_concat_zeros (ds : List Char) (n : Nat) :
    Nat.ofDigitChars 10 (ds ++ List.replicate n '0') 0 = 10 ^ n * Nat.ofDigitChars 10 ds 0 := by
  rw [Nat.ofDigitChars_append, Nat.ofDigitChars_replicate_zero]

theorem ofDigitChars_zeros_append (n : Nat) (ds : List Char) :
    Nat.ofDigitChars 10 (List.replicate n '0' ++ ds) 0 = Nat.ofDigitChars 10 ds 0 := by
  rw [Nat.ofDigitChars_append, Nat.ofDigitChars_replicate_zero, Nat.mul_zero]

section Digits

variable {digits : List Char} (hdigits : ∀ c ∈ digits, c.isDigit = true) (hne : digits ≠ [])
include hdigits hne

/-- Zeros and the digits behind the point. -/
theorem hasParts_plainText_of_neg {e : Int} (he : e < 0) :
    HasParts (plainText digits e)
      (Nat.ofDigitChars 10 digits 0 * 10 ^ (e - digits.length + 1)) := by
  have hfraction : List.replicate (-e - 1).toNat '0' ++ digits ≠ [] :=
    List.append_ne_nil_of_right_ne_nil _ hne
  refine ⟨['0'], List.replicate (-e - 1).toNat '0' ++ digits, none, ?_, by simp,
    List.all_eq_true.1 rfl, fun c hc => ?_, .inl hfraction, ?_⟩
  · rw [plainText, if_pos he, numberLayout, fractionText, if_neg hfraction]
    simp [exponentText]
  · rcases List.mem_append.1 hc with hc | hc
    · exact isDigit_of_mem_replicate hc
    · exact hdigits c hc
  · have hzeros : ['0'] ++ (List.replicate (-e - 1).toNat '0' ++ digits) =
        List.replicate ((-e - 1).toNat + 1) '0' ++ digits := rfl
    rw [hzeros, ofDigitChars_zeros_append]
    congr 2
    simp only [Option.getD_none, List.length_append, List.length_replicate]
    omega

/-- The point behind all digits, with zeros between. -/
theorem hasParts_plainText_of_le {e : Int} (he : 0 ≤ e) (hle : digits.length ≤ e.toNat + 1) :
    HasParts (plainText digits e)
      (Nat.ofDigitChars 10 digits 0 * 10 ^ (e - digits.length + 1)) := by
  refine ⟨digits ++ List.replicate (e.toNat + 1 - digits.length) '0', ['0'], none, ?_,
    by simp [hne], fun c hc => ?_, List.all_eq_true.1 rfl, .inl (by simp), ?_⟩
  · rw [plainText, if_neg (not_lt.2 he)]
    simp [List.take_of_length_le hle, List.drop_of_length_le hle, numberLayout, fractionText,
      exponentText]
  · rcases List.mem_append.1 hc with hc | hc
    · exact hdigits c hc
    · exact isDigit_of_mem_replicate hc
  · have hexp : e - digits.length + 1 = ((e.toNat + 1 - digits.length : Nat) : Int) := by omega
    rw [show ['0'] = List.replicate 1 '0' from rfl, ofDigitChars_concat_zeros,
      ofDigitChars_concat_zeros, hexp, zpow_natCast]
    push_cast
    simp
    ring

/-- The point between the digits. -/
theorem hasParts_plainText_of_lt {e : Int} (he : 0 ≤ e) (hlt : e.toNat + 1 < digits.length) :
    HasParts (plainText digits e)
      (Nat.ofDigitChars 10 digits 0 * 10 ^ (e - digits.length + 1)) := by
  have hdrop : digits.drop (e.toNat + 1) ≠ [] := by
    rw [Ne, List.drop_eq_nil_iff, not_le]
    exact hlt
  refine ⟨digits.take (e.toNat + 1), digits.drop (e.toNat + 1), none, ?_, by simp [hne],
    fun c hc => hdigits c (List.mem_of_mem_take hc),
    fun c hc => hdigits c (List.mem_of_mem_drop hc), .inl hdrop, ?_⟩
  · have hzeros : e.toNat + 1 - digits.length = 0 := by omega
    rw [plainText, if_neg (not_lt.2 he)]
    simp [hzeros, hdrop, numberLayout, fractionText, exponentText]
  · rw [List.take_append_drop]
    congr 2
    simp only [Option.getD_none, List.length_drop]
    omega

/-- One digit before the point, and an exponent. -/
theorem hasParts_scientificText (e : Int) :
    HasParts (scientificText digits e)
      (Nat.ofDigitChars 10 digits 0 * 10 ^ (e - digits.length + 1)) := by
  obtain ⟨d, ds, rfl⟩ := List.exists_cons_of_ne_nil hne
  refine ⟨[d], ds, some e, ?_, by simp, fun c hc => hdigits c (by simp_all),
    fun c hc => hdigits c (List.mem_cons_of_mem d hc), .inr (by simp), ?_⟩
  · cases ds with
    | nil => rfl
    | cons d' ds => rfl
  · rw [List.singleton_append]
    congr 2
    simp only [Option.getD_some, List.length_cons]
    omega

end Digits

/-- **A printed decimal has parts that stand for it.** -/
theorem hasParts_decimalText (d : Decimal) : HasParts (decimalText d) d.value := by
  have hdigits : ∀ c ∈ Nat.toDigits 10 d.digits, c.isDigit = true :=
    fun c hc => isDigit_of_mem_toDigits hc
  have hne : Nat.toDigits 10 d.digits ≠ [] := Nat.toDigits_ne_nil
  have hvalue : d.value = Nat.ofDigitChars 10 (Nat.toDigits 10 d.digits) 0 *
      10 ^ (d.exponent + (Nat.toDigits 10 d.digits).length - 1 -
        (Nat.toDigits 10 d.digits).length + 1) := by
    rw [Nat.ofDigitChars_ten_toDigits, Decimal.value]
    congr 2
    omega
  rw [decimalText, hvalue]
  split
  · rcases lt_or_ge (d.exponent + (Nat.toDigits 10 d.digits).length - 1) 0 with he | he
    · exact hasParts_plainText_of_neg hdigits hne he
    · rcases le_or_gt (Nat.toDigits 10 d.digits).length
        ((d.exponent + (Nat.toDigits 10 d.digits).length - 1).toNat + 1) with hle | hlt
      · exact hasParts_plainText_of_le hdigits hne he hle
      · exact hasParts_plainText_of_lt hdigits hne he hlt
  · exact hasParts_scientificText hdigits hne _

/-- A double in parts. -/
theorem exists_layout_floatText (x : Binary64) :
    ∃ whole fraction exponent, floatText x = numberLayout x.negative whole fraction exponent ∧
      whole ≠ [] ∧ (∀ c ∈ whole, c.isDigit = true) ∧ (∀ c ∈ fraction, c.isDigit = true) ∧
      (fraction ≠ [] ∨ exponent ≠ none) ∧
      (Nat.ofDigitChars 10 (whole ++ fraction) 0 : ℚ) * 10 ^ (exponent.getD 0 - fraction.length) =
        x.shortest.value := by
  obtain ⟨whole, fraction, exponent, htext, hrest⟩ := hasParts_decimalText x.shortest
  refine ⟨whole, fraction, exponent, ?_, hrest⟩
  rw [floatText, htext]
  cases x.negative <;> rfl

/-- **A double is taken apart** into its sign and parts of its shortest decimal. -/
theorem numberText?_floatText (x : Binary64) {rest : List Char} (hrest : EndsNumber rest) :
    ∃ t, numberText? (floatText x ++ rest) = some (t, rest) ∧ t.negative = x.negative ∧
      t.plain = false ∧ t.absValue = x.shortest.value := by
  obtain ⟨whole, fraction, exponent, hlayout, hne, hwhole, hfraction, hparts, hvalue⟩ :=
    exists_layout_floatText x
  refine ⟨_, by rw [hlayout]; exact numberText?_layout _ _ hne hwhole hfraction hrest, rfl, ?_, ?_⟩
  · cases exponent with
    | none => simpa using hparts
    | some e => simp
  · rw [← hvalue, NumberText.absValue, ← List.map_append, Text.ofDigits_map, List.length_map]

/-- A character of a number. -/
def isNumberChar (c : Char) : Bool := c.isDigit || c == '-' || c == '+' || c == '.' || c == 'e'

theorem isNumberChar_of_isDigit {c : Char} (h : c.isDigit = true) : isNumberChar c = true := by
  simp [isNumberChar, h]

theorem isNumberChar_of_mem_exponentText {exponent : Option Int} {c : Char}
    (h : c ∈ exponentText exponent) : isNumberChar c = true := by
  cases exponent with
  | none => cases h
  | some e =>
    rw [exponentText, List.mem_cons, List.mem_cons] at h
    rcases h with rfl | rfl | h
    · rfl
    · split <;> rfl
    · exact isNumberChar_of_isDigit (isDigit_of_mem_toDigits h)

theorem isNumberChar_of_mem_layout {negative : Bool} {whole fraction : List Char}
    {exponent : Option Int} (hwhole : ∀ c ∈ whole, c.isDigit = true)
    (hfraction : ∀ c ∈ fraction, c.isDigit = true) {c : Char}
    (h : c ∈ numberLayout negative whole fraction exponent) : isNumberChar c = true := by
  rw [numberLayout, List.mem_append, List.mem_append, List.mem_append, fractionText] at h
  rcases h with h | h | h | h
  · split at h
    · rw [List.mem_singleton.1 h]
      rfl
    · cases h
  · exact isNumberChar_of_isDigit (hwhole c h)
  · split at h
    · cases h
    · rcases List.mem_cons.1 h with rfl | h
      · rfl
      · exact isNumberChar_of_isDigit (hfraction c h)
  · exact isNumberChar_of_mem_exponentText h

theorem isNumberChar_of_mem_intText {n : Int} {c : Char} (h : c ∈ intText n) :
    isNumberChar c = true := by
  rw [intText_eq] at h
  exact isNumberChar_of_mem_layout (fun d hd => isDigit_of_mem_toDigits hd) (by simp) h

theorem isNumberChar_of_mem_floatText {x : Binary64} {c : Char} (h : c ∈ floatText x) :
    isNumberChar c = true := by
  obtain ⟨whole, fraction, exponent, hlayout, -, hwhole, hfraction, -⟩ := exists_layout_floatText x
  rw [hlayout] at h
  exact isNumberChar_of_mem_layout hwhole hfraction h

/-! ## Numbers with the same text -/

section Inj

variable {s t : List Char} (hs : EndsNumber s) (ht : EndsNumber t)
include hs ht

/-- Whole numbers with the same text are the same. -/
theorem intText_append_inj {m n : Int} (h : intText m ++ s = intText n ++ t) : m = n ∧ s = t := by
  have hm := numberText?_intText m hs
  rw [h, numberText?_intText n ht] at hm
  obtain ⟨hparts, rfl⟩ := Prod.mk.inj (Option.some.inj hm)
  obtain ⟨hsign, hdigits, -⟩ := NumberText.mk.inj hparts
  have hnat := congrArg (Text.ofDigits 10) hdigits
  rw [Text.ofDigits_toDigits, Text.ofDigits_toDigits] at hnat
  refine ⟨?_, rfl⟩
  rw [decide_eq_decide] at hsign
  omega

/-- Doubles with the same text are the same. -/
theorem floatText_append_inj {x y : Binary64} (h : floatText x ++ s = floatText y ++ t) :
    x = y ∧ s = t := by
  obtain ⟨p, hp, hpn, -, hpv⟩ := numberText?_floatText x hs
  obtain ⟨q, hq, hqn, -, hqv⟩ := numberText?_floatText y ht
  rw [h, hq] at hp
  obtain ⟨rfl, rfl⟩ := Prod.mk.inj (Option.some.inj hp)
  have hmagnitude := Binary64.magnitude_eq_of_value_shortest (hpv.symm.trans hqv)
  refine ⟨?_, rfl⟩
  cases x
  cases y
  simp_all

/-- A double is not written like a whole number. -/
theorem intText_append_ne_floatText (n : Int) (x : Binary64) :
    intText n ++ s ≠ floatText x ++ t := by
  intro h
  obtain ⟨p, hp, -, hplain, -⟩ := numberText?_floatText x ht
  rw [← h, numberText?_intText n hs] at hp
  obtain ⟨rfl, -⟩ := Prod.mk.inj (Option.some.inj hp)
  cases hplain

end Inj

end Json

end RouteTrie
