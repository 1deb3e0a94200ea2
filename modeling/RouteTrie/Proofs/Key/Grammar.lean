import Mathlib.Data.List.TakeWhile
import RouteTrie.Key
import RouteTrie.Proofs.Text.Fields

/-!
# What a key that has been read consists of

The methods of a key are nonempty words and its path starts with a slash.  A key that is written
from such methods and any text has these methods again, if it can be read at all: the space behind
the methods ends them.

## What is here

* `RouteKey.isMethodWord_of_parse`, `RouteKey.head?_of_parse`: the methods and the path of a key.
* `RouteKey.exists_parts_of_split?`, `RouteKey.split?_join`: cutting a key, in both directions.
* `RouteKey.parse_render`, `RouteKey.parse_render_eq_ok_iff`, `RouteKey.parse_render_eq_ok`: reading
  back a key that was written from methods and a text.
-/

set_option autoImplicit false

namespace RouteTrie

namespace RouteKey

theorem isBlank_of_isMethodChar {c : Char} (h : isMethodChar c = true) :
    Text.isBlank c = false := by
  cases hb : Text.isBlank c with
  | false => rfl
  | true =>
    simp only [Text.isBlank, Bool.or_eq_true, beq_iff_eq] at hb
    rcases hb with ((((rfl | rfl) | rfl) | rfl) | rfl) | rfl <;> exact absurd h (by decide)

theorem parse_eq_fallback_iff {key : String} :
    parse key = .ok .fallback ↔ key = fallbackKey := by
  rw [parse]
  split
  · rename_i h
    exact ⟨fun _ => h, fun _ => rfl⟩
  · rename_i h
    refine ⟨fun hp => ?_, fun hk => absurd hk h⟩
    split at hp <;> cases hp

/-- The error about a key that cannot be read names the key. -/
theorem eq_of_parse_eq_error {key : String} {e : RouteError} (h : parse key = .error e) :
    e = .invalidRoute key := by
  rw [parse] at h
  split at h
  · cases h
  · split at h
    · cases h
    · cases h
      rfl

/-- A method as keys can hold it: a nonempty word. -/
def IsMethodWord (m : String) : Prop := m ≠ "" ∧ ∀ c ∈ m.toList, Text.isWord c = true

/-- The two parts of a key that can be cut. -/
theorem split?_eq_some {key : List Char} {methods : List (List Char)} {path : List Char}
    (h : split? key = some (methods, path)) :
    methods = Text.fields '|' ((key.dropWhile Text.isBlank).takeWhile isMethodChar) ∧
      (∀ m ∈ methods, m ≠ []) ∧ path.head? = some '/' := by
  rw [split?] at h
  split at h
  · rename_i hc
    simp only [Bool.and_eq_true, List.all_eq_true, Bool.not_eq_true', List.isEmpty_eq_false_iff,
      beq_iff_eq] at hc
    cases h
    exact ⟨rfl, hc.1.1.1, hc.1.2⟩
  · cases h

/-- A text that can be cut consists of its methods and its path, with blanks around them. -/
theorem exists_parts_of_split? {key : List Char} {methods : List (List Char)} {path : List Char}
    (h : split? key = some (methods, path)) :
    ∃ before between after,
      key = before ++ (Text.join '|' methods ++ (between ++ (path ++ after))) ∧
      (∀ c ∈ before, Text.isBlank c = true) ∧ between ≠ [] ∧
      (∀ c ∈ between, Text.isBlank c = true) ∧ (∀ c ∈ path, Text.isBlank c = false) ∧
      ∀ c ∈ after, Text.isBlank c = true := by
  have hscan : ∀ (p : Char → Bool) (cs : List Char), ∀ c ∈ cs.takeWhile p, p c = true :=
    fun p cs => List.all_eq_true.1 List.all_takeWhile
  rw [split?] at h
  split at h
  · rename_i hc
    simp only [Bool.and_eq_true] at hc
    cases h
    -- the scans one behind the other take the whole text
    refine ⟨key.takeWhile Text.isBlank,
      ((key.dropWhile Text.isBlank).dropWhile isMethodChar).takeWhile Text.isBlank,
      (((key.dropWhile Text.isBlank).dropWhile isMethodChar).dropWhile Text.isBlank).dropWhile
        (fun c => !Text.isBlank c), ?_, hscan _ _, ?_, hscan _ _, fun c hmem => ?_,
      List.all_eq_true.1 hc.2⟩
    · rw [Text.join_fields, List.takeWhile_append_dropWhile, List.takeWhile_append_dropWhile,
        List.takeWhile_append_dropWhile, List.takeWhile_append_dropWhile]
    · have hgap := hc.1.1.2
      cases hd : (key.dropWhile Text.isBlank).dropWhile isMethodChar with
      | nil => rw [hd] at hgap; cases hgap
      | cons b bs =>
        rw [hd] at hgap
        have hb : Text.isBlank b = true := hgap
        rw [List.takeWhile_cons_of_pos hb]
        exact List.cons_ne_nil _ _
    · simpa using hscan _ _ c hmem
  · cases h

theorem split?_of_parse {key : String} {methods : List String} {path : String}
    (h : parse key = .ok (.route methods path)) :
    ∃ ms p, split? key.toList = some (ms, p) ∧ methods = ms.map String.ofList ∧
      path = String.ofList p := by
  rw [parse] at h
  split at h
  · cases h
  · split at h
    · rename_i ms p hs
      cases h
      exact ⟨ms, p, hs, rfl, rfl⟩
    · cases h

theorem isMethodWord_of_parse {key : String} {methods : List String} {path : String}
    (h : parse key = .ok (.route methods path)) : ∀ m ∈ methods, IsMethodWord m := by
  obtain ⟨ms, p, hs, rfl, -⟩ := split?_of_parse h
  obtain ⟨hms, hne, -⟩ := split?_eq_some hs
  intro m hm
  obtain ⟨f, hf, rfl⟩ := List.mem_map.1 hm
  refine ⟨fun he => hne f hf ?_, fun c hc => ?_⟩
  · simpa using congrArg String.toList he
  · rw [String.toList_ofList] at hc
    rw [hms] at hf
    have hmc := List.all_eq_true.1 List.all_takeWhile c (Text.mem_of_mem_fields hf hc)
    have hbar : c ≠ '|' := fun e => Text.not_mem_of_mem_fields hf (e ▸ hc)
    simpa [isMethodChar, hbar] using hmc

theorem methods_ne_nil_of_parse {key : String} {methods : List String} {path : String}
    (h : parse key = .ok (.route methods path)) : methods ≠ [] := by
  obtain ⟨ms, p, hs, rfl, -⟩ := split?_of_parse h
  rw [Ne, List.map_eq_nil_iff, (split?_eq_some hs).1]
  exact Text.fields_ne_nil _ _

theorem head?_of_parse {key : String} {methods : List String} {path : String}
    (h : parse key = .ok (.route methods path)) : path.toList.head? = some '/' := by
  obtain ⟨ms, p, hs, -, rfl⟩ := split?_of_parse h
  rw [String.toList_ofList]
  exact (split?_eq_some hs).2.2

/-- There is no blank in the path of a key. -/
theorem not_isBlank_of_parse {key : String} {methods : List String} {path : String}
    (h : parse key = .ok (.route methods path)) : ∀ c ∈ path.toList, Text.isBlank c = false := by
  obtain ⟨ms, p, hs, -, rfl⟩ := split?_of_parse h
  obtain ⟨_, _, _, -, -, -, -, hpath, -⟩ := exists_parts_of_split? hs
  rwa [String.toList_ofList]

/-! ## Reading back -/

/-- The text of some methods consists of characters of methods and does not start with a blank. -/
theorem isMethodChar_of_mem_join {methods : List String} (hm : ∀ m ∈ methods, IsMethodWord m)
    {c : Char} (hc : c ∈ Text.join '|' (methods.map String.toList)) : isMethodChar c = true := by
  rcases Text.eq_or_exists_of_mem_join hc with rfl | ⟨f, hf, hc⟩
  · rfl
  · obtain ⟨m, hmem, rfl⟩ := List.mem_map.1 hf
    rw [isMethodChar, (hm m hmem).2 c hc, Bool.true_or]

theorem toList_render (methods : List String) (full : String) :
    (render methods full).toList =
      Text.join '|' (methods.map String.toList) ++ ' ' :: full.toList := by
  rw [render, joinMethods, String.toList_append, String.toList_append, String.toList_ofList,
    List.append_assoc]
  rfl

/-- The key of a single method. -/
theorem render_singleton (m path : String) : render [m] path = m ++ " " ++ path := by
  rw [render, joinMethods, List.map_singleton, Text.join, String.ofList_toList]

theorem render_ne_fallbackKey (methods : List String) (full : String) :
    render methods full ≠ fallbackKey := by
  intro h
  have hmem : ' ' ∈ (render methods full).toList := by
    rw [toList_render]
    simp
  rw [h] at hmem
  exact absurd hmem (by decide)

/-- The scan for the path of a key ends at the first blank. -/
theorem span_path {path after : List Char} (hpath : ∀ c ∈ path, Text.isBlank c = false)
    (hafter : ∀ c ∈ after, Text.isBlank c = true) :
    ((path ++ after).takeWhile fun c => !Text.isBlank c) = path ∧
      ((path ++ after).dropWhile fun c => !Text.isBlank c) = after := by
  refine Text.span_append (fun c hc => by rw [hpath c hc]; rfl) ?_
  cases after with
  | nil => rfl
  | cons c cs => simp [hafter c List.mem_cons_self]

variable {methods : List String} (hne : methods ≠ []) (hm : ∀ m ∈ methods, IsMethodWord m)
include hne hm

/-- The scan for the methods of a key skips the blanks in front of them and ends behind their
text. -/
theorem span_isMethodChar_join (before gap : List Char)
    (hbefore : ∀ c ∈ before, Text.isBlank c = true) (hgap : gap.head?.any isMethodChar = false) :
    ((before ++ (Text.join '|' (methods.map String.toList) ++ gap)).dropWhile
        Text.isBlank).takeWhile isMethodChar = Text.join '|' (methods.map String.toList) ∧
      ((before ++ (Text.join '|' (methods.map String.toList) ++ gap)).dropWhile
        Text.isBlank).dropWhile isMethodChar = gap := by
  have hchar : ∀ c ∈ Text.join '|' (methods.map String.toList), isMethodChar c = true :=
    fun c hc => isMethodChar_of_mem_join hm hc
  have hstart : (Text.join '|' (methods.map String.toList) ++ gap).head?.any Text.isBlank =
      false := by
    cases hj : Text.join '|' (methods.map String.toList) with
    | nil =>
      have hone := Text.eq_singleton_nil_of_join_eq_nil (by simpa using hne) hj
      obtain ⟨m, rfl, hmnil⟩ := List.map_eq_singleton_iff.1 hone
      exact absurd (String.toList_eq_nil_iff.1 hmnil) (hm m List.mem_cons_self).1
    | cons c cs => exact isBlank_of_isMethodChar (hchar c (hj ▸ List.mem_cons_self))
  rw [(Text.span_append hbefore hstart).2]
  exact Text.span_append hchar hgap

theorem fields_join_methods :
    Text.fields '|' (Text.join '|' (methods.map String.toList)) = methods.map String.toList := by
  refine Text.fields_join (by simpa using hne) fun f hf hbar => ?_
  obtain ⟨m, hmem, rfl⟩ := List.mem_map.1 hf
  exact absurd ((hm m hmem).2 '|' hbar) (by decide)

/-- **Reading back.**  A key that was written from methods has these methods, if it can be read. -/
theorem parse_render {full : String} {k : RouteKey} (h : parse (render methods full) = .ok k) :
    ∃ q, k = .route methods q := by
  cases k with
  | fallback => exact absurd (parse_eq_fallback_iff.1 h) (render_ne_fallbackKey methods full)
  | route ms q =>
    obtain ⟨fs, p, hs, rfl, -⟩ := split?_of_parse h
    obtain ⟨hfs, -, -⟩ := split?_eq_some hs
    have hscan := (span_isMethodChar_join hne hm [] (' ' :: full.toList) (by simp) rfl).1
    rw [toList_render, ← List.nil_append (_ ++ _), hscan, fields_join_methods hne hm] at hfs
    refine ⟨q, ?_⟩
    rw [hfs, List.map_map]
    simp [Function.comp_def]

/-- The parts of a key around its methods: a text that starts with a slash is cut at its first blank,
behind which only blanks may stand. -/
theorem split?_join (before between rest : List Char)
    (hbefore : ∀ c ∈ before, Text.isBlank c = true)
    (hbetween : ∀ c ∈ between, Text.isBlank c = true) (hne' : between ≠ [])
    (hhead : rest.head? = some '/') :
    split? (before ++ (Text.join '|' (methods.map String.toList) ++ (between ++ rest))) =
      if (rest.dropWhile fun c => !Text.isBlank c).all Text.isBlank then
        some (methods.map String.toList, rest.takeWhile fun c => !Text.isBlank c)
      else none := by
  have hwords : (methods.map String.toList).all (fun m => !m.isEmpty) = true := by
    simp only [List.all_map, List.all_eq_true, Function.comp_apply, Bool.not_eq_true',
      List.isEmpty_eq_false_iff]
    exact fun m hmem hnil => (hm m hmem).1 (String.toList_eq_nil_iff.1 hnil)
  obtain ⟨b, bs, rfl⟩ := List.exists_cons_of_ne_nil hne'
  have hb : Text.isBlank b = true := hbetween b List.mem_cons_self
  have hgap : ((b :: bs) ++ rest).head?.any isMethodChar = false := by
    cases hmc : isMethodChar b with
    | false => exact hmc
    | true => rw [isBlank_of_isMethodChar hmc] at hb; cases hb
  obtain ⟨hscan, hbehind⟩ := span_isMethodChar_join hne hm before _ hbefore hgap
  obtain ⟨cs, rfl⟩ := List.head?_eq_some_iff.1 hhead
  have hskip : ((b :: bs) ++ '/' :: cs).dropWhile Text.isBlank = '/' :: cs :=
    (Text.span_append hbetween rfl).2
  have hslash : (('/' :: cs).takeWhile fun c => !Text.isBlank c).head? = some '/' := by
    rw [List.takeWhile_cons_of_pos (by decide)]
    rfl
  have hblank : ((b :: bs) ++ '/' :: cs).head?.any Text.isBlank = true := hb
  simp only [split?, hscan, hbehind, fields_join_methods hne hm, hwords, hskip, hslash, hblank]
  rfl

/-- **A key that is written from methods and a text** has these methods and the text up to its first
blank, if there are only blanks behind that. -/
theorem parse_render_eq_ok_iff {full q : String} (hhead : full.toList.head? = some '/') :
    parse (render methods full) = .ok (.route methods q) ↔
      ∃ blanks, full.toList = q.toList ++ blanks ∧ (∀ c ∈ q.toList, Text.isBlank c = false) ∧
        ∀ c ∈ blanks, Text.isBlank c = true := by
  have hcut := split?_join hne hm [] [' '] full.toList (by simp) (by simp [Text.isBlank])
    (List.cons_ne_nil _ _) hhead
  rw [parse, if_neg (render_ne_fallbackKey methods full), toList_render]
  rw [List.nil_append, List.singleton_append] at hcut
  rw [hcut]
  constructor
  · intro h
    split at h
    · rename_i ms p hs
      obtain ⟨hall, hcut⟩ := Option.ite_none_right_eq_some.1 hs
      obtain ⟨-, rfl⟩ := Prod.mk.inj (Option.some.inj hcut)
      obtain ⟨-, rfl⟩ := RouteKey.route.inj (Except.ok.inj h)
      refine ⟨full.toList.dropWhile fun c => !Text.isBlank c, ?_, fun c hc => ?_, ?_⟩
      · rw [String.toList_ofList, List.takeWhile_append_dropWhile]
      · rw [String.toList_ofList] at hc
        simpa using List.all_eq_true.1 List.all_takeWhile c hc
      · exact List.all_eq_true.1 hall
    · cases h
  · rintro ⟨blanks, hfull, hq, hblanks⟩
    obtain ⟨htake, hdrop⟩ := span_path hq hblanks
    rw [hfull, htake, hdrop, if_pos (List.all_eq_true.2 hblanks)]
    simp [Function.comp_def]

/-- **A key that is written from methods and a path** has these methods and this path. -/
theorem parse_render_eq_ok {full : String} (hhead : full.toList.head? = some '/')
    (hblank : ∀ c ∈ full.toList, Text.isBlank c = false) :
    parse (render methods full) = .ok (.route methods full) :=
  (parse_render_eq_ok_iff hne hm hhead).2 ⟨[], by simp, hblank, by simp⟩

end RouteKey

end RouteTrie
