import Mathlib.Data.Set.Subsingleton
import RouteTrie.Proofs.Key.Grammar

/-!
# The grammar of routing keys

A key names a route if it consists of methods with bars between them and of a path, with blanks
between the two, and blanks may stand around both.  A text has at most one such layout, and reading
finds it.

## What is here

* `RouteKey.Layout`, `RouteKey.Layout.text`: methods and a path with the blanks around them, and the
  key they make.
* `RouteKey.Written`: the keys of some methods and a path.
* `RouteKey.parse_eq_route_iff`: a key is read as exactly what it is written from.
* `RouteKey.written_unique`: there is one way to read a key.
* `RouteKey.parse_grammar`: which keys are read, as what, and how the others fail.
-/

set_option autoImplicit false

namespace RouteTrie

namespace RouteKey

/-! ## Keys as they are written -/

/-- A text of tabs, line feeds, vertical tabs, form feeds, carriage returns and spaces. -/
def Blanks (text : String) : Prop := ∀ c ∈ text.toList, Text.isBlank c = true

/-- A way to write a key of these methods and this path: the blanks around them. -/
structure Layout (methods : List String) (path : String) where
  /-- What stands in front of the methods. -/
  before : String
  /-- What stands between the methods and the path. -/
  between : String
  /-- What stands behind the path. -/
  after : String
  /-- There are methods. -/
  methods_ne_nil : methods ≠ []
  /-- Every method is a word. -/
  isMethodWord : ∀ m ∈ methods, IsMethodWord m
  /-- The path starts with a slash. -/
  slash : path.toList.head? = some '/'
  /-- There is no blank in the path. -/
  not_blank : ∀ c ∈ path.toList, Text.isBlank c = false
  /-- Around the two there are only blanks. -/
  before_blank : Blanks before
  between_blank : Blanks between
  after_blank : Blanks after
  /-- There is a blank between them. -/
  between_ne : between ≠ ""

/-- The key that is written in this way. -/
def Layout.text {methods : List String} {path : String} (l : Layout methods path) : String :=
  l.before ++ joinMethods methods ++ l.between ++ path ++ l.after

/-- The key can be written from these methods and this path. -/
def Written (key : String) (methods : List String) (path : String) : Prop :=
  ∃ l : Layout methods path, l.text = key

variable {key : String} {methods : List String} {path : String}

theorem Layout.toList_text (l : Layout methods path) :
    l.text.toList = l.before.toList ++ (Text.join '|' (methods.map String.toList) ++
      (l.between.toList ++ (path.toList ++ l.after.toList))) := by
  simp only [Layout.text, joinMethods, String.toList_append, String.toList_ofList,
    List.append_assoc]

/-- The key of the fallback route has no path. -/
theorem Layout.text_ne_fallbackKey (l : Layout methods path) : l.text ≠ fallbackKey := by
  intro h
  have hslash : '/' ∈ l.text.toList := by
    rw [l.toList_text]
    simp [List.mem_of_mem_head? l.slash]
  rw [h] at hslash
  exact absurd hslash (by decide)

/-! ## Reading -/

/-- A written key is read as what it is written from. -/
theorem Layout.parse_text (l : Layout methods path) :
    parse l.text = .ok (.route methods path) := by
  have hne : l.between.toList ≠ [] := fun h => l.between_ne (String.toList_eq_nil_iff.1 h)
  have hhead : (path.toList ++ l.after.toList).head? = some '/' := by
    rw [List.head?_append, l.slash, Option.some_or]
  obtain ⟨htake, hdrop⟩ := span_path l.not_blank l.after_blank
  rw [parse, if_neg l.text_ne_fallbackKey, l.toList_text,
    split?_join l.methods_ne_nil l.isMethodWord _ _ _ l.before_blank l.between_blank hne hhead,
    hdrop, htake, if_pos (List.all_eq_true.2 l.after_blank)]
  simp [Function.comp_def]

/-- A key that is read as a route is written from its methods and its path. -/
theorem written_of_parse (h : parse key = .ok (.route methods path)) :
    Written key methods path := by
  obtain ⟨ms, p, hs, rfl, rfl⟩ := split?_of_parse h
  obtain ⟨before, between, after, hkey, hbefore, hne, hbetween, -, hafter⟩ :=
    exists_parts_of_split? hs
  refine ⟨⟨String.ofList before, String.ofList between, String.ofList after,
    methods_ne_nil_of_parse h, isMethodWord_of_parse h, head?_of_parse h, not_isBlank_of_parse h,
    ?_, ?_, ?_, ?_⟩, ?_⟩
  · rwa [Blanks, String.toList_ofList]
  · rwa [Blanks, String.toList_ofList]
  · rwa [Blanks, String.toList_ofList]
  · exact fun h => hne (by simpa using congrArg String.toList h)
  · refine String.toList_injective ?_
    rw [Layout.toList_text, hkey]
    simp [Function.comp_def]

/-- **A key is read as a route** if and only if it can be written from the methods and the path of
that route. -/
theorem parse_eq_route_iff :
    parse key = .ok (.route methods path) ↔ Written key methods path := by
  refine ⟨written_of_parse, ?_⟩
  rintro ⟨l, rfl⟩
  exact l.parse_text

/-- A bar and a no-break space in the path belong to the path. -/
example : parse "\tGET|post_2 \n/a|b\u00a0/:x\r" =
    .ok (.route ["GET", "post_2"] "/a|b\u00a0/:x") := by decide

/-- **There is one way to read a key.** -/
theorem written_unique (key : String) :
    {r : List String × String | Written key r.1 r.2}.Subsingleton := by
  intro r hr s hs
  have hsame := (parse_eq_route_iff.2 hr).symm.trans (parse_eq_route_iff.2 hs)
  obtain ⟨hmethods, hpath⟩ := RouteKey.route.inj (Except.ok.inj hsame)
  exact Prod.ext hmethods hpath

/-- The keys that cannot be read are those that are not written. -/
theorem parse_eq_error_iff {e : RouteError} :
    parse key = .error e ↔
      e = .invalidRoute key ∧ key ≠ fallbackKey ∧ ∀ methods path, ¬Written key methods path := by
  constructor
  · intro h
    refine ⟨eq_of_parse_eq_error h, fun hk => ?_, fun methods path hw => ?_⟩
    · rw [parse_eq_fallback_iff.2 hk] at h
      cases h
    · rw [parse_eq_route_iff.2 hw] at h
      cases h
  · rintro ⟨rfl, hfallback, hnot⟩
    cases h : parse key with
    | error e => rw [eq_of_parse_eq_error h]
    | ok k =>
      cases k with
      | fallback => exact absurd (parse_eq_fallback_iff.1 h) hfallback
      | route methods path => exact absurd (parse_eq_route_iff.1 h) (hnot methods path)

/-- **The grammar of keys.**  The word `default` names the fallback route; a key names a route if and
only if it is written from methods and a path, which are then those of the route, and there is one
way to read it; every other key is refused with an error that names it. -/
theorem parse_grammar (key : String) :
    (parse key = .ok .fallback ↔ key = "default") ∧
      (∀ methods path, parse key = .ok (.route methods path) ↔ Written key methods path) ∧
      {r : List String × String | Written key r.1 r.2}.Subsingleton ∧
      ∀ e, parse key = .error e ↔ e = .invalidRoute key ∧ key ≠ "default" ∧
        ∀ methods path, ¬Written key methods path :=
  ⟨parse_eq_fallback_iff, fun _ _ => parse_eq_route_iff, written_unique key,
    fun _ => parse_eq_error_iff⟩

end RouteKey

end RouteTrie
