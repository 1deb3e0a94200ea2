import RouteTrie.Proofs.Key.Grammar

/-!
# Normalized keys read like the keys they come from

Collapsing runs of blanks neither joins nor separates the parts of a key, and it changes nothing
inside a part.  So a key can be read exactly when its normal form can, with the same result, and a
normal form is its own normal form.

## What is here

* `Text.collapse_collapse`: collapsing twice is collapsing once.
* `RouteKey.split?_collapse`: every scan over a key takes the same part of the collapsed key.
* `RouteKey.parse_normalize_eq_ok_iff`, `RouteKey.normalize_normalize`: the two facts for keys.
-/

set_option autoImplicit false

namespace RouteTrie

/-! ## Collapsed texts -/

namespace Text

theorem collapse_cons_of_not_isBlank {c : Char} (h : isBlank c = false) (cs : List Char) :
    collapse (c :: cs) = c :: collapse cs := by
  cases cs with
  | nil => rfl
  | cons d cs => rw [collapse, h, Bool.false_and]; rfl

/-- A text stays nonempty, and its first character stays a blank or stays as it is. -/
theorem collapse_cons_eq (c : Char) (cs : List Char) :
    ∃ x t, collapse (c :: cs) = x :: t ∧ isBlank x = isBlank c ∧ (isBlank c = false → x = c) := by
  cases cs with
  | nil => exact ⟨c, [], rfl, rfl, fun _ => rfl⟩
  | cons d cs =>
    rw [collapse]
    split
    · rename_i h
      rw [Bool.and_eq_true] at h
      exact ⟨' ', _, rfl, h.1.symm, fun hc => absurd (h.1.symm.trans hc) (by decide)⟩
    · exact ⟨c, _, rfl, rfl, fun _ => rfl⟩

theorem length_collapse_le (cs : List Char) : (collapse cs).length ≤ cs.length := by
  fun_induction collapse cs with
  | case1 => exact Nat.le_refl _
  | case2 c => exact Nat.le_refl _
  | case3 c d cs h ih =>
    simp only [List.length_cons, List.length_tail] at ih ⊢
    omega
  | case4 c d cs h ih =>
    simp only [List.length_cons] at ih ⊢
    omega

/-- A collapsed text that starts with a blank stays collapsed when that blank becomes a space. -/
theorem collapse_cons_of_fixed {x c : Char} {t : List Char} (hx : isBlank x = true)
    (h : collapse (x :: t) = x :: t) : collapse (c :: t) = c :: t := by
  cases t with
  | nil => rfl
  | cons y t =>
    rw [collapse, hx, Bool.true_and] at h
    split at h
    · -- the second blank would have been dropped, which makes the text shorter
      have htail := (List.cons.inj h).2
      have hle := length_collapse_le (y :: t)
      have hlen := congrArg List.length htail
      simp only [List.length_tail, List.length_cons] at hlen hle
      omega
    · rename_i hy
      rw [collapse, if_neg fun hcy => hy (Bool.and_eq_true _ _ ▸ hcy).2, (List.cons.inj h).2]

theorem collapse_collapse (cs : List Char) : collapse (collapse cs) = collapse cs := by
  fun_induction collapse cs with
  | case1 => rfl
  | case2 c => rfl
  | case3 c d cs h ih =>
    rw [Bool.and_eq_true] at h
    obtain ⟨x, t, hxt, hx, -⟩ := collapse_cons_eq d cs
    rw [hxt] at ih ⊢
    exact collapse_cons_of_fixed (hx.trans h.2) ih
  | case4 c d cs h ih =>
    obtain ⟨x, t, hxt, hx, -⟩ := collapse_cons_eq d cs
    rw [hxt] at ih ⊢
    rw [collapse, hx, if_neg h, ih]

/-! ## Scanning a collapsed text -/

theorem dropWhile_isBlank_collapse (cs : List Char) :
    (collapse cs).dropWhile isBlank = collapse (cs.dropWhile isBlank) := by
  fun_induction collapse cs with
  | case1 => rfl
  | case2 c => cases h : isBlank c <;> simp [List.dropWhile, h, collapse]
  | case3 c d cs h ih =>
    rw [Bool.and_eq_true] at h
    obtain ⟨x, t, hxt, hx, -⟩ := collapse_cons_eq d cs
    rw [hxt, List.dropWhile_cons_of_pos (hx.trans h.2)] at ih
    rw [hxt, List.dropWhile_cons_of_pos (by rfl), List.dropWhile_cons_of_pos h.1]
    exact ih
  | case4 c d cs h ih =>
    cases hc : isBlank c with
    | true => rw [List.dropWhile_cons_of_pos hc, List.dropWhile_cons_of_pos hc, ih]
    | false =>
      rw [List.dropWhile_cons_of_neg (by simp [hc]), List.dropWhile_cons_of_neg (by simp [hc]),
        collapse_cons_of_not_isBlank hc]

variable {p : Char → Bool}

/-- Two scans for characters that are not blanks, side by side. -/
theorem span_collapse (hp : ∀ c, p c = true → isBlank c = false) (cs : List Char) :
    (collapse cs).takeWhile p = cs.takeWhile p ∧
      (collapse cs).dropWhile p = collapse (cs.dropWhile p) := by
  induction cs with
  | nil => exact ⟨rfl, rfl⟩
  | cons c cs ih =>
    cases hc : p c with
    | true =>
      rw [collapse_cons_of_not_isBlank (hp c hc)]
      simp only [List.takeWhile_cons_of_pos hc, List.dropWhile_cons_of_pos hc, ih, and_self]
    | false =>
      obtain ⟨x, t, hxt, hx, hxc⟩ := collapse_cons_eq c cs
      have hpx : ¬p x = true := by
        intro hpx
        have hcx := hxc (hx.symm.trans (hp x hpx))
        rw [hcx, hc] at hpx
        cases hpx
      rw [List.takeWhile_cons_of_neg (by simp [hc]), List.dropWhile_cons_of_neg (by simp [hc]), hxt]
      exact ⟨List.takeWhile_cons_of_neg hpx, List.dropWhile_cons_of_neg hpx⟩

theorem head?_any_isBlank_collapse (cs : List Char) :
    (collapse cs).head?.any isBlank = cs.head?.any isBlank := by
  cases cs with
  | nil => rfl
  | cons c cs =>
    obtain ⟨x, t, hxt, hx, -⟩ := collapse_cons_eq c cs
    rw [hxt]
    exact hx

theorem all_isBlank_collapse (cs : List Char) : (collapse cs).all isBlank = cs.all isBlank := by
  fun_induction collapse cs with
  | case1 => rfl
  | case2 c => rfl
  | case3 c d cs h ih =>
    rw [Bool.and_eq_true] at h
    obtain ⟨x, t, hxt, hx, -⟩ := collapse_cons_eq d cs
    rw [hxt, List.all_cons, hx, h.2, Bool.true_and] at ih
    rw [hxt, List.all_cons, List.all_cons, h.1, ← ih]
    rfl
  | case4 c d cs h ih => rw [List.all_cons, List.all_cons, ih]

/-- A text without blanks is not changed, and no other text becomes one. -/
theorem collapse_eq_iff {cs ds : List Char} (hds : ∀ c ∈ ds, isBlank c = false) :
    collapse cs = ds ↔ cs = ds := by
  induction cs generalizing ds with
  | nil => rfl
  | cons c cs ih =>
    obtain ⟨x, t, hxt, hx, hxc⟩ := collapse_cons_eq c cs
    cases ds with
    | nil => simp [hxt]
    | cons d ds =>
      have hd := hds d List.mem_cons_self
      have hrest := ih fun e he => hds e (List.mem_cons_of_mem d he)
      cases hc : isBlank c with
      | false => rw [collapse_cons_of_not_isBlank hc, List.cons.injEq, List.cons.injEq, hrest]
      | true =>
        constructor
        · intro h
          rw [hxt] at h
          rw [← (List.cons.inj h).1, hx, hc] at hd
          cases hd
        · intro h
          rw [← (List.cons.inj h).1, hc] at hd
          cases hd

end Text

/-! ## Normalized keys -/

namespace RouteKey

/-- The collapsed key is cut into the same parts. -/
theorem split?_collapse (key : List Char) : split? (Text.collapse key) = split? key := by
  have hmethods := Text.span_collapse fun c h => isBlank_of_isMethodChar h
  have hpath := Text.span_collapse (p := fun c => !Text.isBlank c) fun c h => by simpa using h
  simp only [split?, Text.dropWhile_isBlank_collapse, hmethods, hpath,
    Text.head?_any_isBlank_collapse, Text.all_isBlank_collapse]

theorem normalize_eq_fallbackKey_iff {key : String} :
    normalize key = fallbackKey ↔ key = fallbackKey := by
  have hall : fallbackKey.toList.all (fun c => !Text.isBlank c) = true := by decide
  have hblank : ∀ c ∈ fallbackKey.toList, Text.isBlank c = false := fun c hc => by
    simpa using List.all_eq_true.1 hall c hc
  rw [← String.toList_inj, ← String.toList_inj, normalize, String.toList_ofList,
    Text.collapse_eq_iff hblank]

/-- **A key reads like its normal form.** -/
theorem parse_normalize_eq_ok_iff {key : String} {k : RouteKey} :
    parse (normalize key) = .ok k ↔ parse key = .ok k := by
  simp only [parse, normalize_eq_fallbackKey_iff]
  rw [normalize, String.toList_ofList, split?_collapse]
  split
  · exact Iff.rfl
  · split
    · exact Iff.rfl
    · constructor
      · intro h
        cases h
      · intro h
        cases h

/-- A normal form is its own normal form. -/
theorem normalize_normalize (key : String) : normalize (normalize key) = normalize key := by
  rw [normalize, normalize, String.toList_ofList, Text.collapse_collapse]

end RouteKey

end RouteTrie
