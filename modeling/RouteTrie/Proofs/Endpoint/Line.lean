import RouteTrie.Node.Outline
import RouteTrie.Proofs.Json.Text
import RouteTrie.Proofs.Key.Grammar
import RouteTrie.Proofs.Path.Template
import RouteTrie.Proofs.Text.Lines

/-!
# The line of a group tells the group

A line holds the methods of a group, its handler and its variables, one behind the other.  The
methods end at the first space, as there is none in a method; the handler ends where the text of a
value ends, whatever it is; and the names of variables hold neither the colons nor the commas
between them.  Nothing but methods and names restricts what a line can tell.

## What is here

* `RouteGroup.Legible`: groups whose methods and names are as building leaves them.
* `VarMap.label_inj`: the label of some variables tells the variables.
* `RouteGroup.line_inj`: the line of a group tells the group.
* `RouteGroup.not_mem_line`: the line of a group is one line.
-/

set_option autoImplicit false

namespace RouteTrie

/-! ## Variables -/

namespace VarMap

/-- A variable in a label. -/
def entryText (v : String × Nat) : List Char := v.1.toList ++ ':' :: Nat.toDigits 10 v.2

/-- The variables in a label, with commas between them. -/
def entriesText (vars : VarMap) : List Char := [',', ' '].intercalate (vars.entries.map entryText)

theorem toList_label (vars : VarMap) :
    (label vars).toList =
      if vars.isEmpty then [] else ' ' :: '\x7b' :: (vars.entriesText ++ ['\x7d']) := by
  rw [label]
  split
  · rfl
  · have hentries : (vars.entries.map fun v => v.1 ++ ":" ++ toString v.2).map String.toList =
        vars.entries.map entryText := by
      rw [List.map_map]
      refine List.map_congr_left fun v _ => ?_
      simp [entryText]
    simp only [String.toList_append, String.toList_intercalate, hentries, entriesText]
    rfl

/-- No number goes on with a label. -/
theorem endsNumber_label (vars : VarMap) : Json.EndsNumber (label vars).toList := by
  rw [toList_label]
  split
  · rintro c ⟨⟩
  · rintro c ⟨⟩
    decide

/-- The names of some variables are names. -/
def Named (vars : VarMap) : Prop := ∀ v ∈ vars.entries, Segment.IsName v.1.toList

theorem not_mem_entryText {v : String × Nat} (hv : Segment.IsName v.1.toList) {c : Char}
    (hword : Text.isWord c = false) (hcolon : c ≠ ':') : c ∉ entryText v := by
  rw [entryText, List.mem_append, List.mem_cons, not_or, not_or]
  refine ⟨hv.not_mem hword, hcolon, fun hc => ?_⟩
  have hdigit := Json.isDigit_of_mem_toDigits hc
  rw [Text.isWord, Char.isAlphanum, hdigit, Bool.or_true, Bool.true_or] at hword
  cases hword

theorem entryText_inj {v w : String × Nat} (hv : Segment.IsName v.1.toList)
    (hw : Segment.IsName w.1.toList) (h : entryText v = entryText w) : v = w := by
  obtain ⟨hname, hdigits⟩ := Text.append_cons_inj (hv.not_mem (by decide))
    (hw.not_mem (by decide)) h
  refine Prod.ext (String.toList_inj.1 hname) ?_
  rw [← Nat.ofDigitChars_ten_toDigits (n := v.2), hdigits, Nat.ofDigitChars_ten_toDigits]

/-- **The label of some variables tells the variables.** -/
theorem label_inj {vars vars' : VarMap} (hvars : vars.Named) (hvars' : vars'.Named)
    (h : label vars = label vars') : vars = vars' := by
  have hempty : ∀ m : VarMap, m.isEmpty = true ↔ m.entries = [] := fun m => List.isEmpty_iff
  have htext := congrArg String.toList h
  rw [toList_label, toList_label] at htext
  refine OrderedMap.ext ?_
  by_cases hv : vars.isEmpty = true <;> by_cases hv' : vars'.isEmpty = true
  · rw [(hempty vars).1 hv, (hempty vars').1 hv']
  · rw [if_pos hv, if_neg hv'] at htext
    cases htext
  · rw [if_neg hv, if_pos hv'] at htext
    cases htext
  · rw [if_neg hv, if_neg hv'] at htext
    have hentries : vars.entriesText = vars'.entriesText :=
      List.append_cancel_right (List.cons.inj (List.cons.inj htext).2).2
    have hcomma : ∀ m : VarMap, m.Named → ∀ f ∈ m.entries.map entryText, ',' ∉ f := by
      intro m hm f hf
      obtain ⟨v, hv, rfl⟩ := List.mem_map.1 hf
      exact not_mem_entryText (hm v hv) (by decide) (by decide)
    have hne : ∀ m : VarMap, ¬m.isEmpty = true → m.entries.map entryText ≠ [] :=
      fun m hm hnil => hm ((hempty m).2 (List.map_eq_nil_iff.1 hnil))
    refine Text.map_inj_on (fun v hv w hw => entryText_inj (hvars v hv) (hvars' w hw)) ?_
    exact Text.intercalate_inj (hcomma vars hvars) (hcomma vars' hvars') (hne vars hv)
      (hne vars' hv') hentries

theorem not_mem_label {vars : VarMap} (hvars : vars.Named) : '\n' ∉ (label vars).toList := by
  rw [toList_label]
  split
  · exact List.not_mem_nil
  · intro h
    have hentries : '\n' ∈ vars.entriesText := by simpa using h
    obtain ⟨f, hf, hc⟩ := Text.exists_of_mem_intercalate (by decide) (by decide) hentries
    obtain ⟨v, hv, rfl⟩ := List.mem_map.1 hf
    exact not_mem_entryText (hvars v hv) (by decide) (by decide) hc

end VarMap

/-! ## Lines -/

namespace RouteGroup

/-- A group whose methods are methods of keys, or the fallback method only, and whose variables have
names. -/
structure Legible {H : Type} (g : RouteGroup H) : Prop where
  /-- There is the fallback method, or there are methods of keys. -/
  methods : g.methods = [fallbackMethod] ∨
    g.methods ≠ [] ∧ ∀ M ∈ g.methods, RouteKey.IsMethodWord M
  /-- Variables have names. -/
  named : g.route.vars.Named

/-- The methods of a group in its line. -/
def methodsText {H : Type} (g : RouteGroup H) : List Char :=
  if g.methods.all String.isEmpty then ['*'] else Text.join '|' (g.methods.map String.toList)

theorem toList_line (g : RouteGroup Json) :
    (g.line Json.compact).toList = g.methodsText ++
      ' ' :: '=' :: '>' :: ' ' :: (Json.chars g.route.handler ++ g.route.vars.label.toList) := by
  have hmethods : (if g.methods.all String.isEmpty then "*"
      else RouteKey.joinMethods g.methods).toList = g.methodsText := by
    rw [methodsText, RouteKey.joinMethods]
    split
    · rfl
    · exact String.toList_ofList
  simp only [line, String.toList_append, hmethods, Json.compact, String.toList_ofList,
    List.append_assoc]
  rfl

namespace Legible

variable {H : Type} {g g' : RouteGroup H}

/-- The methods of keys stand in the line as they are, the fallback method as a star. -/
theorem methodsText_cases (hg : g.Legible) :
    (g.methods = [fallbackMethod] ∧ g.methodsText = ['*']) ∨
    (g.methods ≠ [] ∧ (∀ M ∈ g.methods, RouteKey.IsMethodWord M) ∧
      g.methodsText = Text.join '|' (g.methods.map String.toList)) := by
  rcases hg.methods with hfallback | ⟨hne, hwords⟩
  · refine .inl ⟨hfallback, ?_⟩
    rw [methodsText, hfallback]
    rfl
  · obtain ⟨M, hM⟩ := List.exists_mem_of_ne_nil _ hne
    have hall : ¬g.methods.all String.isEmpty = true := fun hall =>
      (hwords M hM).1 (String.isEmpty_iff.1 (List.all_eq_true.1 hall M hM))
    exact .inr ⟨hne, hwords, if_neg hall⟩

/-- There is nothing but characters of methods, or a star, in front of the first space. -/
theorem isMethodChar_of_mem_methodsText (hg : g.Legible) {c : Char} (hc : c ∈ g.methodsText) :
    c = '*' ∨ RouteKey.isMethodChar c = true := by
  rcases hg.methodsText_cases with ⟨-, htext⟩ | ⟨-, hwords, htext⟩
  · rw [htext] at hc
    exact .inl (List.mem_singleton.1 hc)
  · rw [htext] at hc
    exact .inr (RouteKey.isMethodChar_of_mem_join hwords hc)

theorem not_mem_methodsText (hg : g.Legible) {c : Char} (hstar : c ≠ '*')
    (hc : RouteKey.isMethodChar c = false) : c ∉ g.methodsText := by
  intro hmem
  rcases hg.isMethodChar_of_mem_methodsText hmem with h | h
  · exact hstar h
  · rw [hc] at h
    cases h

theorem methodsText_inj (hg : g.Legible) (hg' : g'.Legible) (h : g.methodsText = g'.methodsText) :
    g.methods = g'.methods := by
  -- a star is no character of methods
  have hstar : ∀ {k k' : RouteGroup H}, k.methodsText = ['*'] →
      (∀ M ∈ k'.methods, RouteKey.IsMethodWord M) →
      k'.methodsText = Text.join '|' (k'.methods.map String.toList) →
      k.methodsText ≠ k'.methodsText := by
    intro k k' hk hwords hk' heq
    rw [hk, hk'] at heq
    have hchar := RouteKey.isMethodChar_of_mem_join hwords (heq ▸ List.mem_singleton_self '*')
    exact absurd hchar (by decide)
  rcases hg.methodsText_cases with ⟨hm, ht⟩ | ⟨hne, hwords, ht⟩ <;>
    rcases hg'.methodsText_cases with ⟨hm', ht'⟩ | ⟨hne', hwords', ht'⟩
  · rw [hm, hm']
  · exact absurd h (hstar ht hwords' ht')
  · exact absurd h.symm (hstar ht' hwords ht)
  · rw [ht, ht'] at h
    have hfields := congrArg (Text.fields '|') h
    rw [RouteKey.fields_join_methods hne hwords,
      RouteKey.fields_join_methods hne' hwords'] at hfields
    exact List.map_injective_iff.2 (fun _ _ => String.toList_inj.1) hfields

end Legible

variable {g g' : RouteGroup Json}

/-- **The line of a group tells the group.** -/
theorem line_inj (hg : g.Legible) (hg' : g'.Legible)
    (h : g.line Json.compact = g'.line Json.compact) : g = g' := by
  have htext := congrArg String.toList h
  rw [toList_line, toList_line] at htext
  obtain ⟨hmethods, hrest⟩ := Text.append_cons_inj
    (hg.not_mem_methodsText (by decide) (by decide))
    (hg'.not_mem_methodsText (by decide) (by decide)) htext
  simp only [List.cons.injEq, true_and] at hrest
  obtain ⟨hhandler, hlabel⟩ := Json.chars_append_inj (VarMap.endsNumber_label _)
    (VarMap.endsNumber_label _) hrest
  have hvars := VarMap.label_inj hg.named hg'.named (String.toList_inj.1 hlabel)
  obtain ⟨methods, handler, vars⟩ := g
  obtain ⟨methods', handler', vars'⟩ := g'
  cases hhandler
  cases hvars
  cases hg.methodsText_inj hg' hmethods
  rfl

/-- The line of a group is one line. -/
theorem not_mem_line (hg : g.Legible) : '\n' ∉ (g.line Json.compact).toList := by
  rw [toList_line]
  simp only [List.mem_append, List.mem_cons, not_or]
  exact ⟨hg.not_mem_methodsText (by decide) (by decide), by decide, by decide, by decide,
    by decide, Json.not_mem_chars _, VarMap.not_mem_label hg.named⟩

end RouteGroup

end RouteTrie
