import RouteTrie.Proofs.Key.Grammar
import RouteTrie.Text.Uppercase

/-!
# The methods of keys in upper case

The upper case of a text is not in general its own upper case to the eye of a proof, which would
have to go through all of Unicode.  The methods of a key are ASCII words, where it is: every
character has one capital, and capitals stay.

## What is here

* `Text.uppercaseChar_of_lt`: an ASCII character has one ASCII capital, which is its own capital.
* `RouteKey.IsMethodWord.uppercase_uppercase`, `RouteKey.IsMethodWord.uppercase_ne_empty`,
  `RouteKey.IsMethodWord.uppercase`: the upper case of the method of a key.
-/

set_option autoImplicit false

namespace RouteTrie

namespace Text

theorem toNat_lt_of_isWord {c : Char} (h : isWord c = true) : c.toNat < 128 := by
  have hranges : (((decide ('A'.val ≤ c.val ∧ c.val ≤ 'Z'.val) ||
      (decide ('a'.val ≤ c.val) && decide (c.val ≤ 'z'.val))) ||
      (decide ('0'.val ≤ c.val) && decide (c.val ≤ '9'.val))) || c == '_') = true := h
  simp only [Bool.or_eq_true, Bool.and_eq_true, decide_eq_true_eq, beq_iff_eq,
    UInt32.le_iff_toNat_le] at hranges
  rcases hranges with ((⟨-, h⟩ | ⟨-, h⟩) | ⟨-, h⟩) | rfl
  · exact Nat.lt_of_le_of_lt h (by decide)
  · exact Nat.lt_of_le_of_lt h (by decide)
  · exact Nat.lt_of_le_of_lt h (by decide)
  · decide

theorem toUpper_of_lt {c : Char} (h : c.toNat < 128) :
    c.toUpper.toNat < 128 ∧ c.toUpper.toUpper = c.toUpper := by
  have hall : ∀ n < 128, (Char.ofNat n).toUpper.toNat < 128 ∧
      (Char.ofNat n).toUpper.toUpper = (Char.ofNat n).toUpper := by decide
  have hc := hall c.toNat h
  rwa [Char.ofNat_toNat] at hc

theorem isWord_toUpper {c : Char} (h : isWord c = true) : isWord c.toUpper = true := by
  have hall : ∀ n < 128, isWord (Char.ofNat n) = true → isWord (Char.ofNat n).toUpper = true := by
    decide
  have hc := hall c.toNat (toNat_lt_of_isWord h)
  rw [Char.ofNat_toNat] at hc
  exact hc h

/-- An ASCII character has one capital. -/
theorem uppercaseChar_of_lt {c : Char} (h : c.toNat < 128) : uppercaseChar c = [c.toUpper] :=
  if_pos h

theorem flatMap_uppercaseChar_of_lt {cs : List Char} (h : ∀ c ∈ cs, c.toNat < 128) :
    cs.flatMap uppercaseChar = cs.map Char.toUpper := by
  rw [List.flatMap_def, List.map_congr_left fun c hc => uppercaseChar_of_lt (h c hc)]
  induction cs with
  | nil => rfl
  | cons c cs ih =>
    rw [List.map_cons, List.flatten_cons, ih fun d hd => h d (List.mem_cons_of_mem c hd)]
    rfl

end Text

namespace RouteKey.IsMethodWord

variable {m : String}

theorem toNat_lt (h : IsMethodWord m) : ∀ c ∈ m.toList, c.toNat < 128 := fun c hc =>
  Text.toNat_lt_of_isWord (h.2 c hc)

theorem toList_uppercase (h : IsMethodWord m) :
    (Text.uppercase m).toList = m.toList.map Char.toUpper := by
  rw [Text.toList_uppercase, Text.flatMap_uppercaseChar_of_lt h.toNat_lt]

/-- The upper case of a method is its own upper case. -/
theorem uppercase_uppercase (h : IsMethodWord m) :
    Text.uppercase (Text.uppercase m) = Text.uppercase m := by
  have hlt : ∀ c ∈ m.toList.map Char.toUpper, c.toNat < 128 := by
    intro c hc
    obtain ⟨d, hd, rfl⟩ := List.mem_map.1 hc
    exact (Text.toUpper_of_lt (h.toNat_lt d hd)).1
  rw [← String.toList_inj, Text.toList_uppercase, h.toList_uppercase,
    Text.flatMap_uppercaseChar_of_lt hlt, List.map_map]
  exact List.map_congr_left fun c hc => (Text.toUpper_of_lt (h.toNat_lt c hc)).2

/-- The upper case of a method is not empty, as the method is not. -/
theorem uppercase_ne_empty (h : IsMethodWord m) : Text.uppercase m ≠ "" := by
  intro hempty
  have hnil := congrArg String.toList hempty
  rw [h.toList_uppercase, String.toList_empty, List.map_eq_nil_iff] at hnil
  exact h.1 (String.toList_eq_nil_iff.1 hnil)

/-- The upper case of a method is a method. -/
theorem uppercase (h : IsMethodWord m) : IsMethodWord (Text.uppercase m) := by
  refine ⟨h.uppercase_ne_empty, fun c hc => ?_⟩
  rw [h.toList_uppercase] at hc
  obtain ⟨d, hd, rfl⟩ := List.mem_map.1 hc
  exact Text.isWord_toUpper (h.2 d hd)

end RouteKey.IsMethodWord

end RouteTrie
