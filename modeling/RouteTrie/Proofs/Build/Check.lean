import RouteTrie.Proofs.Build.Binding

/-!
# Checking keys is building without a trie

A check keeps a flat list of pairs of method and normalized path where building descends the trie
and asks an endpoint.  Both stop at the first slot that is taken, because the normalized path of a
key that can be read tells its place.

## What is here

* `takeClaims_eq`: the claims at which a check stops.
* `keyClaims`, `of_checkFrom_eq_ok`, `of_checkFrom_eq_error`: the outcomes of a check, told by the
  claims of the keys.
* `Node.Holds.checkFrom_eq`: the two loops side by side, from any trie and any list of claims that
  belong together.
* `check_eq_ok_iff`, `check_eq_build`: a check of the keys has the outcome of building the entries.
-/

set_option autoImplicit false

namespace RouteTrie

variable {H : Type}

/-- Taking claims stops at the first one that is taken. -/
theorem takeClaims_eq (taken cs : List (String × String)) :
    takeClaims taken cs =
      match firstTaken taken cs with
      | some c => .error (.duplicateRoute c.1 c.2)
      | none => .ok (cs.reverse ++ taken) := by
  induction cs generalizing taken with
  | nil => rfl
  | cons c cs ih =>
    rw [takeClaims, firstTaken]
    split
    · rfl
    · rw [ih, List.reverse_cons, List.append_assoc]
      rfl

/-- The claims of a key; a key that cannot be read has none. -/
def keyClaims (key : String) : List (String × String) :=
  match Registration.ofKey key with
  | .ok r => r.claims
  | .error _ => []

theorem keyClaims_of_ofKey {key : String} {r : Registration} (h : Registration.ofKey key = .ok r) :
    keyClaims key = r.claims := by
  rw [keyClaims, h]

/-- A check that succeeds has read every key, and no claim is taken twice. -/
theorem of_checkFrom_eq_ok {taken : List (String × String)} {keys : List String}
    (h : checkFrom taken keys = .ok ()) :
    (∀ key ∈ keys, ∃ r, Registration.ofKey key = .ok r) ∧
      (keys.flatMap keyClaims).Nodup ∧ ∀ c ∈ keys.flatMap keyClaims, c ∉ taken := by
  induction keys generalizing taken with
  | nil => simp
  | cons key keys ih =>
    rw [checkFrom, bind_eq_ok_iff] at h
    obtain ⟨r, hr, h⟩ := h
    rw [takeClaims_eq] at h
    cases hfree : firstTaken taken r.claims with
    | some c =>
      rw [hfree] at h
      cases h
    | none =>
      rw [hfree] at h
      obtain ⟨hread, hnd, hnew⟩ := ih h
      obtain ⟨hclaims, htaken⟩ := firstTaken_eq_none_iff.1 hfree
      have hnew' : ∀ c ∈ keys.flatMap keyClaims, c ∉ r.claims ∧ c ∉ taken := by
        intro c hc
        rw [← not_or, ← List.mem_reverse, ← List.mem_append]
        exact hnew c hc
      rw [List.flatMap_cons, keyClaims_of_ofKey hr]
      refine ⟨?_, List.nodup_append.2 ⟨hclaims, hnd, ?_⟩, ?_⟩
      · intro key' hmem
        rcases List.mem_cons.1 hmem with rfl | hmem
        · exact ⟨r, hr⟩
        · exact hread key' hmem
      · rintro c hc c' hc' rfl
        exact (hnew' c hc').1 hc
      · intro c hc
        rcases List.mem_append.1 hc with hc | hc
        · exact htaken c hc
        · exact (hnew' c hc).2

/-- A check that fails has met a key that cannot be read, or a claim that was taken before, by an
earlier key or by the same one. -/
theorem of_checkFrom_eq_error {taken : List (String × String)} {keys : List String} {e : RouteError}
    (h : checkFrom taken keys = .error e) :
    (∃ key ∈ keys, Registration.ofKey key = .error e) ∨
      ∃ before key after j c, keys = before ++ key :: after ∧ (keyClaims key)[j]? = some c ∧
        (c ∈ taken ∨ c ∈ before.flatMap keyClaims ∨ c ∈ (keyClaims key).take j) ∧
        e = .duplicateRoute c.1 c.2 := by
  induction keys generalizing taken with
  | nil => cases h
  | cons key keys ih =>
    rw [checkFrom, bind_eq_error_iff] at h
    rcases h with hr | ⟨r, hr, h⟩
    · exact Or.inl ⟨key, List.mem_cons_self, hr⟩
    · rw [takeClaims_eq] at h
      cases hs : firstTaken taken r.claims with
      | some c =>
        rw [hs] at h
        cases h
        obtain ⟨j, hj, hc, -⟩ := firstTaken_eq_some hs
        rw [← keyClaims_of_ofKey hr] at hj hc
        exact Or.inr ⟨[], key, keys, j, c, rfl, hj, hc.imp_right Or.inr, rfl⟩
      | none =>
        rw [hs] at h
        rcases ih h with ⟨key', hmem, herr⟩ |
          ⟨before, key', after, j, c, rfl, hj, hc, he⟩
        · exact Or.inl ⟨key', List.mem_cons_of_mem key hmem, herr⟩
        · refine Or.inr ⟨key :: before, key', after, j, c, rfl, hj, ?_, he⟩
          -- what this key has taken counts as taken by an earlier key from now on
          rw [List.mem_append, List.mem_reverse] at hc
          rw [List.flatMap_cons, keyClaims_of_ofKey hr, List.mem_append]
          rcases hc with (hc | hc) | hc | hc
          · exact Or.inr (Or.inl (Or.inl hc))
          · exact Or.inl hc
          · exact Or.inr (Or.inl (Or.inr hc))
          · exact Or.inr (Or.inr hc)

/-- The claims that a check has collected are those of the slots that are bound. -/
def ClaimsOf (taken : List (String × String)) (bs : List (Slot × Route H)) : Prop :=
  ∀ c, c ∈ taken ↔ c ∈ (Entries.keys bs).map Slot.claim

theorem ClaimsOf.nil : ClaimsOf [] ([] : List (Slot × Route H)) := fun c => by simp [Entries.keys]

theorem ClaimsOf.append {taken : List (String × String)} {bs : List (Slot × Route H)}
    (h : ClaimsOf taken bs) (r : Registration) (handler : H) :
    ClaimsOf (r.claims.reverse ++ taken) (bs ++ r.bindings handler) := by
  intro c
  rw [List.mem_append, List.mem_reverse, h c, Entries.keys_append, List.map_append,
    List.mem_append, Registration.keys_bindings, Registration.claims_eq, or_comm]

/-- A registration takes a claim that is taken exactly when it takes a slot that is taken. -/
theorem Node.Holds.firstTaken_claims {root : Node H} {bs : List (Slot × Route H)}
    (hroot : root.Holds bs) {taken : List (String × String)} (htaken : ClaimsOf taken bs)
    {r : Registration} (hr : r.Readable) :
    firstTaken taken r.claims = (firstTaken (Entries.keys bs) r.slots).map Slot.claim := by
  have hread : ∀ s ∈ r.slots, s.place.Readable := by
    intro s hs
    rw [Registration.place_of_mem_slots hs]
    exact hr.place
  rw [firstTaken_congr fun c _ => htaken c, Registration.claims_eq]
  refine firstTaken_map fun s hs t ht h => Slot.claim_inj (hread s hs) ?_ h
  rcases List.mem_append.1 ht with ht | ht
  · exact hroot.readable t ht
  · exact hread t ht

/-- Checking on from some claims and building on from a trie that holds their slots have the same
outcome. -/
theorem Node.Holds.checkFrom_eq {root : Node H} {bs : List (Slot × Route H)} (hroot : root.Holds bs)
    {taken : List (String × String)} (htaken : ClaimsOf taken bs) (entries : List (String × H)) :
    checkFrom taken (entries.map Prod.fst) =
      (entries.foldlM Node.addEntry root).map fun _ => () := by
  induction entries generalizing root bs taken with
  | nil => rfl
  | cons entry rest ih =>
    obtain ⟨key, handler⟩ := entry
    rw [List.map_cons, checkFrom, List.foldlM_cons, Node.addEntry]
    cases hkey : Registration.ofKey key with
    | error e => rfl
    | ok r =>
      have hr := Registration.readable_of_ofKey hkey
      simp only [bind, Except.bind]
      rw [takeClaims_eq, hroot.firstTaken_claims htaken hr]
      cases hs : firstTaken (Entries.keys bs) r.slots with
      | some s =>
        rw [hroot.register_eq_error hs]
        rfl
      | none =>
        obtain ⟨root', hroot', hholds⟩ := hroot.register_eq_ok hr hs handler
        rw [hroot']
        exact ih hholds (htaken.append r handler)

/-- Keys pass the check exactly when their entries can be built. -/
theorem check_eq_ok_iff {entries : List (String × H)} :
    check (entries.map Prod.fst) = .ok () ↔ ∃ root, build entries = .ok root := by
  have heq : check (entries.map Prod.fst) = (build entries).map fun _ => () :=
    Node.Holds.empty.checkFrom_eq ClaimsOf.nil entries
  rw [heq]
  cases build entries with
  | ok root => exact iff_of_true rfl ⟨root, rfl⟩
  | error e => exact iff_of_false (fun h => nomatch h) fun ⟨_, h⟩ => nomatch h

/-- **Checking keys is building without a trie.**  Whatever the keys look like, the check succeeds
exactly when building does, and otherwise both give the same error. -/
theorem check_eq_build (entries : List (String × H)) :
    check (entries.map Prod.fst) = (build entries).map fun _ => () :=
  Node.Holds.empty.checkFrom_eq ClaimsOf.nil entries

end RouteTrie
