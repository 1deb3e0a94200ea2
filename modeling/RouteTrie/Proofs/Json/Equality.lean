import RouteTrie.Json.Basic
import RouteTrie.Proofs.Equivalence

/-!
# Equality of JSON values is an equivalence

Values are compared part by part, and the fields of objects in any order.  Symmetry is shown first,
for all values; transitivity then follows by counting fields.  Nothing is assumed about the names of
the fields, which may repeat.

## What is here

* `Json.induction`: induction on values, with the items and fields as hypotheses.
* `Json.same_comm`, `Json.same_trans`: the two laws beside `Json.same_refl`.
* `Json.instEquivBEq`: equality of values is an equivalence.
-/

set_option autoImplicit false

namespace RouteTrie.Json

/-- Induction on values: lists and objects by what stands in them. -/
@[elab_as_elim]
theorem induction {motive : Json → Prop} (null : motive null) (bool : ∀ b, motive (bool b))
    (int : ∀ n, motive (int n)) (float : ∀ x, motive (float x)) (str : ∀ s, motive (str s))
    (arr : ∀ items, (∀ v ∈ items, motive v) → motive (arr items))
    (obj : ∀ fields, (∀ f ∈ fields, motive f.2) → motive (obj fields)) (j : Json) : motive j := by
  refine @Json.rec motive (fun items => ∀ v ∈ items, motive v)
    (fun fields => ∀ f ∈ fields, motive f.2) (fun f => motive f.2) null bool int float str arr obj
    ?_ ?_ ?_ ?_ ?_ j
  · simp
  · exact fun v items hv hitems => List.forall_mem_cons.2 ⟨hv, hitems⟩
  · simp
  · exact fun f fields hf hfields => List.forall_mem_cons.2 ⟨hf, hfields⟩
  · exact fun k v hv => hv

/-! ## The laws -/

theorem sameItems_comm {xs ys : List Json} (h : ∀ x ∈ xs, ∀ y, same x y = same y x) :
    sameItems xs ys = sameItems ys xs := by
  induction xs generalizing ys with
  | nil => cases ys <;> rfl
  | cons x xs ih =>
    cases ys with
    | nil => rfl
    | cons y ys =>
      rw [sameItems, sameItems, h x List.mem_cons_self,
        ih fun z hz => h z (List.mem_cons_of_mem x hz)]

theorem sameItems_trans {xs ys zs : List Json}
    (h : ∀ x ∈ xs, ∀ y z, same x y = true → same y z = true → same x z = true)
    (hxy : sameItems xs ys = true) (hyz : sameItems ys zs = true) : sameItems xs zs = true := by
  induction xs generalizing ys zs with
  | nil =>
    cases ys with
    | nil => exact hyz
    | cons y ys => cases hxy
  | cons x xs ih =>
    cases ys with
    | nil => cases hxy
    | cons y ys =>
      cases zs with
      | nil => cases hyz
      | cons z zs =>
        rw [sameItems, Bool.and_eq_true] at hxy hyz ⊢
        exact ⟨h x List.mem_cons_self y z hxy.1 hyz.1,
          ih (fun w hw => h w (List.mem_cons_of_mem x hw)) hxy.2 hyz.2⟩

/-- **Equality of values is symmetric.** -/
theorem same_comm (a b : Json) : same a b = same b a := by
  induction a using Json.induction generalizing b with
  | null => cases b <;> rfl
  | bool => cases b <;> simp [same, Bool.beq_comm]
  | int => cases b <;> simp [same, BEq.comm]
  | float x =>
    cases b with
    | float y =>
      rw [same, same, Bool.eq_iff_iff, Binary64.beq_iff, Binary64.beq_iff]
      constructor <;> rintro ⟨hm, hn⟩ <;> simp_all [eq_comm]
    | _ => rfl
  | str => cases b <;> simp [same, BEq.comm]
  | arr xs ih =>
    cases b with
    | arr ys => exact sameItems_comm ih
    | _ => rfl
  | obj xs ih =>
    cases b with
    | obj ys =>
      rw [same, same, sameFields_eq_rearranged, sameFields_eq_rearranged]
      refine rearranged_comm fun x hx y _ => ?_
      rw [ih x hx y.2, decide_eq_decide.2 eq_comm]
    | _ => rfl

/-- **Equality of values is transitive.** -/
theorem same_trans {a b c : Json} (hab : same a b = true) (hbc : same b c = true) :
    same a c = true := by
  induction a using Json.induction generalizing b c with
  | null =>
    cases b with
    | null => exact hbc
    | _ => cases hab
  | bool x =>
    cases b with
    | bool y =>
      rw [same, beq_iff_eq] at hab
      exact hab ▸ hbc
    | _ => cases hab
  | int x =>
    cases b with
    | int y =>
      rw [same, beq_iff_eq] at hab
      exact hab ▸ hbc
    | _ => cases hab
  | float x =>
    cases b with
    | float y =>
      cases c with
      | float z =>
        rw [same, Binary64.beq_iff] at hab hbc ⊢
        refine ⟨hab.1.trans hbc.1, ?_⟩
        rcases hab.2 with hxy | hzero
        · rw [hxy, hab.1]
          exact hbc.2
        · exact .inr hzero
      | _ => cases hbc
    | _ => cases hab
  | str x =>
    cases b with
    | str y =>
      rw [same, beq_iff_eq] at hab
      exact hab ▸ hbc
    | _ => cases hab
  | arr xs ih =>
    cases b with
    | arr ys =>
      cases c with
      | arr zs => exact sameItems_trans (fun x hx _ _ => ih x hx) hab hbc
      | _ => cases hbc
    | _ => cases hab
  | obj xs ih =>
    cases b with
    | obj ys =>
      cases c with
      | obj zs =>
        rw [same, sameFields_eq_rearranged] at hab hbc ⊢
        refine rearranged_trans (fun x y => ?_) (fun x _ => ?_) (fun x hx y z hxy hyz => ?_) hab hbc
        · rw [same_comm, decide_eq_decide.2 eq_comm]
        · rw [same_refl, decide_eq_true rfl]
          rfl
        · rw [Bool.and_eq_true, decide_eq_true_eq] at hxy hyz ⊢
          exact ⟨hxy.1.trans hyz.1, ih x hx hxy.2 hyz.2⟩
      | _ => cases hbc
    | _ => cases hab

instance instEquivBEq : EquivBEq Json where
  rfl := same_refl _
  symm h := (same_comm _ _).trans h
  trans h h' := same_trans h h'

end RouteTrie.Json
