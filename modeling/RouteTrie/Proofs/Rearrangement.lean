import RouteTrie.Proofs.Entries

/-!
# What equality up to order says

`rearranged` takes the elements of one list out of another, one by one, each time the first that
fits.  Where nothing repeats, as among the entries of a map, it does not matter which one fits: the
lists agree exactly when they agree under every key.

## What is here

* `isSome_eq_of_rel`, `rel_of_some_iff`, `rel_map_map_iff`, `rel_bind`: values that
  agree if they are not missing.
* `rearranged_of_map_eq`: lists whose elements fit one by one.
* `Entries.rearranged_iff`, `OrderedMap.beq_iff`: lists of entries and maps, key by key.
-/

set_option autoImplicit false

namespace RouteTrie

/-! ## Values that may be missing -/

section Missing

variable {α β γ δ : Type} {r : α → β → Prop} {a : Option α} {b : Option β}

theorem isSome_eq_of_rel (h : Option.Rel r a b) : a.isSome = b.isSome := by
  cases h <;> rfl

theorem rel_of_some_iff (forth : ∀ x, a = some x → ∃ y, b = some y ∧ r x y)
    (back : ∀ y, b = some y → ∃ x, a = some x) : Option.Rel r a b := by
  cases a with
  | some x =>
    obtain ⟨y, rfl, hxy⟩ := forth x rfl
    exact .some hxy
  | none =>
    cases b with
    | none => exact .none
    | some y =>
      obtain ⟨x, hx⟩ := back y rfl
      cases hx

theorem rel_map_map_iff {r' : γ → δ → Prop} {f : α → γ} {g : β → δ}
    (hfg : ∀ x y, r' (f x) (g y) ↔ r x y) :
    Option.Rel r' (a.map f) (b.map g) ↔ Option.Rel r a b := by
  cases a <;> cases b <;> simp [hfg]

theorem rel_bind {r' : γ → δ → Prop} {f : α → Option γ} {g : β → Option δ} (h : Option.Rel r a b)
    (hfg : ∀ x y, a = some x → b = some y → r x y → Option.Rel r' (f x) (g y)) :
    Option.Rel r' (a.bind f) (b.bind g) := by
  cases h with
  | none => exact .none
  | some hxy => exact hfg _ _ rfl rfl hxy

end Missing

/-! ## Lists in the same order -/

/-- Lists whose elements fit one by one agree up to order. -/
theorem rearranged_of_map_eq {α β : Type} {eqv : α → α → Bool} {f : α → β} {xs ys : List α}
    (hfit : ∀ x ∈ xs, ∀ y ∈ ys, f x = f y → eqv x y = true) (h : xs.map f = ys.map f) :
    rearranged eqv xs ys = true := by
  induction xs generalizing ys with
  | nil =>
    rw [List.map_eq_nil_iff.1 h.symm]
    rfl
  | cons x xs ih =>
    cases ys with
    | nil => cases h
    | cons y ys =>
      rw [List.map_cons, List.map_cons, List.cons.injEq] at h
      have hxy := hfit x List.mem_cons_self y List.mem_cons_self h.1
      rw [rearranged_cons, List.any_cons, hxy, List.eraseP_cons_of_pos hxy]
      exact ih (fun a ha b hb => hfit a (List.mem_cons_of_mem x ha) b (List.mem_cons_of_mem y hb))
        h.2

/-! ## Entries -/

namespace Entries

variable {α β : Type} [DecidableEq α] {eqv : β → β → Bool}

/-- The first entry that fits a key and a value is the first entry of the key, if its value fits. -/
theorem eraseP_eq_erase {l : List (α × β)} {k : α} {v w : β} (hget : get? l k = some w)
    (hvw : eqv v w = true) :
    l.eraseP (fun q => decide (k = q.1) && eqv v q.2) = erase l k := by
  induction l with
  | nil => cases hget
  | cons p l ih =>
    obtain ⟨a, b⟩ := p
    rw [get?] at hget
    by_cases hak : a = k
    · rw [if_pos hak] at hget
      cases hget
      rw [erase, if_pos hak, List.eraseP_cons_of_pos (by simp [hak, hvw])]
    · rw [if_neg hak] at hget
      have hka : ¬k = a := fun e => hak e.symm
      rw [erase, if_neg hak, List.eraseP_cons_of_neg (by simp [hka]), ih hget]

/-- Taking out the first entry of one list. -/
theorem rearranged_cons_iff {l l' : List (α × β)} (hnd : (keys l').Nodup) {k : α} {v : β} :
    rearranged (fun p q => decide (p.1 = q.1) && eqv p.2 q.2) ((k, v) :: l) l' = true ↔
      ∃ w, get? l' k = some w ∧ eqv v w = true ∧
        rearranged (fun p q => decide (p.1 = q.1) && eqv p.2 q.2) l (erase l' k) = true := by
  rw [rearranged_cons, Bool.and_eq_true, List.any_eq_true]
  constructor
  · rintro ⟨⟨⟨a, w⟩, hmem, hfit⟩, hrest⟩
    rw [Bool.and_eq_true, decide_eq_true_eq] at hfit
    obtain ⟨rfl, hvw⟩ := hfit
    have hget : get? l' k = some w := (get?_eq_some_iff_mem hnd).2 hmem
    exact ⟨w, hget, hvw, by rwa [eraseP_eq_erase hget hvw] at hrest⟩
  · rintro ⟨w, hget, hvw, hrest⟩
    refine ⟨⟨(k, w), (get?_eq_some_iff_mem hnd).1 hget, by simp [hvw]⟩, ?_⟩
    rwa [eraseP_eq_erase hget hvw]

variable (eqv) in
/-- **Entries without repeated keys agree up to order exactly when they agree key by key.** -/
theorem rearranged_iff {l l' : List (α × β)} (hnd : (keys l).Nodup) (hnd' : (keys l').Nodup) :
    rearranged (fun p q => decide (p.1 = q.1) && eqv p.2 q.2) l l' = true ↔
      ∀ k, Option.Rel (fun v w => eqv v w = true) (get? l k) (get? l' k) := by
  induction l generalizing l' with
  | nil =>
    rw [rearranged, List.isEmpty_iff]
    constructor
    · rintro rfl k
      exact .none
    · intro h
      cases l' with
      | nil => rfl
      | cons p l' =>
        have hp := h p.1
        rw [get?, get?, if_pos rfl] at hp
        cases hp
  | cons p l ih =>
    obtain ⟨k, v⟩ := p
    rw [keys_cons, List.nodup_cons] at hnd
    have hrest := ih hnd.2 (nodup_keys_erase hnd' k)
    rw [rearranged_cons_iff hnd']
    simp only [hrest, get?_erase hnd', get?]
    constructor
    · rintro ⟨w, hget, hvw, hl⟩ k'
      by_cases hk : k = k'
      · subst hk
        rw [if_pos rfl, hget]
        exact .some hvw
      · have hk' := hl k'
        rwa [if_neg hk] at hk' ⊢
    · intro h
      have hk := h k
      rw [if_pos rfl] at hk
      cases hget : get? l' k with
      | none =>
        rw [hget] at hk
        cases hk
      | some w =>
        rw [hget] at hk
        cases hk with
        | some hvw =>
          refine ⟨w, rfl, hvw, fun k' => ?_⟩
          by_cases hkk : k = k'
          · subst hkk
            rw [if_pos rfl, get?_eq_none_iff.2 hnd.1]
            exact .none
          · have hk' := h k'
            rwa [if_neg hkk] at hk' ⊢

end Entries

/-! ## Maps -/

namespace OrderedMap

variable {α β : Type} [DecidableEq α] [BEq β]

/-- **Maps are equal exactly when they agree key by key.** -/
theorem beq_iff {m n : OrderedMap α β} :
    (m == n) = true ↔ ∀ k, Option.Rel (fun v w => (v == w) = true) (m.get? k) (n.get? k) :=
  Entries.rearranged_iff (fun v w => v == w) m.nodup n.nodup

theorem beq_self [ReflBEq β] (m : OrderedMap α β) : (m == m) = true :=
  rearranged_refl (fun p => by simp) m.entries

end OrderedMap

end RouteTrie
