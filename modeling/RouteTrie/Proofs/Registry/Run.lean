import RouteTrie.Registry

/-!
# A registry over time

Whatever a registry is offered, it has the trie of the last source that was accepted.  A source goes
through up to three stages: a text is read, a route file is resolved to a table, and a table is
built.  At every stage a failure leaves the registry as it is, and what is told about it depends on
the stage alone.

## What is here

* `Registry.Source.resolve`, `Registry.Source.trie?`: the table and the trie that a source stands
  for, whatever the registry.
* `Registry.Source.Leads`: the result and the events of a source, one case for each stage at which
  it can end.
* `quiet_buildLogged`: building tells neither of errors nor of a replaced trie.
* `Registry.step_eq_offer`, `Registry.step_spec`: one step.
* `Registry.current_run`: the trie after any number of steps.
* `Registry.keeps_last_accepted`: all of this for every step of every run.
-/

set_option autoImplicit false

namespace RouteTrie

/-! ## Events -/

namespace Event

/-- The event is an error with this message, and tells the error of some routes. -/
def Reports (ev : Event) (message : String) (e : RouteError) : Prop :=
  ev.level = .error ∧ ev.message = message ∧ ev.fields = [("error", e.message)]

/-- The event tells that a trie has become the active one. -/
def Announces (ev : Event) (tree : Node Json) : Prop :=
  ev.level = .info ∧ ev.message = "Route structure swapped" ∧
    ev.fields = [("endpoints", toString tree.endpoints.length)]

/-- The event is neither an error nor about the active trie. -/
def Quiet (ev : Event) : Prop := ev.level ≠ .error ∧ ev.message ≠ "Route structure swapped"

end Event

theorem Registration.quiet_warnings {r : Registration} {ev : Event} (h : ev ∈ r.warnings) :
    ev.Quiet := by
  cases r with
  | fallback => cases h
  | route methods written path =>
    obtain ⟨name, -, rfl⟩ := List.mem_map.1 h
    exact ⟨by simp [Event.level], by simp [Event.message]⟩

theorem Registration.quiet_done (r : Registration) : r.done.Quiet := by
  cases r with
  | fallback => exact ⟨by decide, by simp [done, Event.message]⟩
  | route methods written path =>
    exact ⟨by simp [done, Event.level], by simp [done, Event.message]⟩

theorem quiet_buildFrom {H : Type} {root : Node H} {routes : Nat} {entries : List (String × H)}
    {ev : Event} (h : ev ∈ (buildFrom root routes entries).events) : ev.Quiet := by
  induction entries generalizing root routes with
  | nil =>
    obtain rfl := List.mem_singleton.1 h
    exact ⟨by simp [Event.level], by simp [Event.message]⟩
  | cons entry rest ih =>
    rw [buildFrom] at h
    split at h
    · cases h
    · split at h
      · exact Registration.quiet_warnings h
      · rcases List.mem_append.1 h with h | h
        · exact Registration.quiet_warnings h
        · rcases List.mem_cons.1 h with rfl | h
          · exact Registration.quiet_done _
          · exact ih h

/-- Building tells neither of errors nor of a replaced trie, also if it fails. -/
theorem quiet_buildLogged {t : Table Json} {ev : Event} (h : ev ∈ t.buildLogged.events) :
    ev.Quiet :=
  quiet_buildFrom h

namespace Registry

/-! ## Sources -/

namespace Source

/-- The table that a source stands for. -/
def resolve : Source → Except Refusal (Table Json)
  | table t => .ok t
  | config c => c.toTable.mapError .route
  | text s =>
    match Config.parse s with
    | .error e => .error (.file e)
    | .ok c => c.toTable.mapError .route

/-- The trie of the table that a source stands for, if there are both. -/
def trie? (s : Source) : Option (Node Json) := s.resolve.toOption.bind fun t => t.build.toOption

/-- What a source leads to: the result and the events.

* A text that is refused as such is not told about.
* A route file without a table is told by one error, and by nothing else.
* A table that cannot be built is told by the events of the build, as far as it came, and one error.
* A table that can be built is told by the events of the build and the replacement. -/
inductive Leads (s : Source) : Logged (Except Refusal (Node Json)) → Prop where
  /-- The text is refused. -/
  | refused (e : Config.FileError) (hresolve : s.resolve = .error (.file e)) :
      Leads s ⟨.error (.file e), []⟩
  /-- The route file has no table. -/
  | rejected (e : RouteError) (ev : Event) (hresolve : s.resolve = .error (.route e))
      (hev : ev.Reports "Route file rejected; keeping current structure" e) :
      Leads s ⟨.error (.route e), [ev]⟩
  /-- The table cannot be built. -/
  | failed (t : Table Json) (e : RouteError) (ev : Event) (hresolve : s.resolve = .ok t)
      (hbuild : t.build = .error e) (hquiet : ∀ b ∈ t.buildLogged.events, b.Quiet)
      (hev : ev.Reports "Route rebuild failed; keeping current structure" e) :
      Leads s ⟨.error (.route e), t.buildLogged.events ++ [ev]⟩
  /-- The table is built. -/
  | swapped (t : Table Json) (tree : Node Json) (ev : Event) (hresolve : s.resolve = .ok t)
      (hbuild : t.build = .ok tree) (hquiet : ∀ b ∈ t.buildLogged.events, b.Quiet)
      (hev : ev.Announces tree) :
      Leads s ⟨.ok tree, t.buildLogged.events ++ [ev]⟩

end Source

/-! ## One step -/

/-- Offer a registry a table, or the reason why there is none. -/
def offer (r : Registry) :
    Except Refusal (Table Json) → Registry × Logged (Except Refusal (Node Json))
  | .error (.file e) => (r, ⟨.error (.file e), []⟩)
  | .error (.route e) => (r, ⟨.error (.route e), [.fileRejected e]⟩)
  | .ok t =>
    match t.build with
    | .error e => (r, ⟨.error (.route e), t.buildLogged.events ++ [.rebuildFailed e]⟩)
    | .ok tree =>
      (⟨tree⟩, ⟨.ok tree, t.buildLogged.events ++ [.structureSwapped tree.endpoints.length]⟩)

theorem step_table (r : Registry) (t : Table Json) : r.step (.table t) = r.offer (.ok t) := by
  have hvalue : t.buildLogged.value = t.build := value_buildLogged t.entries.entries
  simp only [step, reload, offer, hvalue]
  cases t.build <;> rfl

theorem step_config (r : Registry) (c : Config) :
    r.step (.config c) = r.offer (c.toTable.mapError .route) := by
  rw [step, reloadConfig]
  cases c.toTable with
  | error e => rfl
  | ok t => exact r.step_table t

/-- **A registry depends on a source only by way of its table.** -/
theorem step_eq_offer (r : Registry) (s : Source) : r.step s = r.offer s.resolve := by
  cases s with
  | table t => exact r.step_table t
  | config c => exact r.step_config c
  | text s =>
    rw [step, reloadText, Source.resolve]
    cases Config.parse s with
    | error e => rfl
    | ok c => exact r.step_config c

/-- What a source leads to does not depend on the registry, and the trie is replaced by the result
if there is one. -/
theorem step_spec (r : Registry) (s : Source) :
    s.Leads (r.step s).2 ∧ (r.step s).2.value.toOption = s.trie? ∧
      (r.step s).1.current = s.trie?.getD r.current := by
  rw [step_eq_offer, Source.trie?]
  cases hs : s.resolve with
  | error refusal =>
    cases refusal with
    | file e => exact ⟨.refused e hs, rfl, rfl⟩
    | route e => exact ⟨.rejected e _ hs ⟨rfl, rfl, rfl⟩, rfl, rfl⟩
  | ok t =>
    simp only [offer, Except.toOption, Option.bind_some]
    cases hb : t.build with
    | error e =>
      exact ⟨.failed t e _ hs hb (fun b => quiet_buildLogged) ⟨rfl, rfl, rfl⟩, rfl, rfl⟩
    | ok tree =>
      exact ⟨.swapped t tree _ hs hb (fun b => quiet_buildLogged) ⟨rfl, rfl, rfl⟩, rfl, rfl⟩

/-! ## Runs -/

/-- The trie of a registry is that of the last source that was accepted. -/
theorem current_run (r : Registry) (history : List Source) :
    (r.run history).current = (history.filterMap Source.trie?).getLastD r.current := by
  induction history generalizing r with
  | nil => rfl
  | cons s rest ih =>
    have hrun : r.run (s :: rest) = (r.step s).1.run rest := rfl
    rw [hrun, ih, (r.step_spec s).2.2, List.filterMap_cons]
    cases s.trie? with
    | none => rfl
    | some tree => rw [List.getLastD_cons]; rfl

theorem new_of_build {t : Table Json} {first : Node Json} (hb : t.build = .ok first) :
    (new t).value = .ok ⟨first⟩ := by
  have hvalue : t.buildLogged.value = .ok first := (value_buildLogged t.entries.entries).trans hb
  simp only [new, hvalue]
  rfl

/-- **A registry keeps the last trie that was accepted.**  At every point of a run the trie is that
of the last source that could be resolved and built, or the first one.  A source that is refused
leaves the trie as it is, a source that is accepted replaces it by the result, and the events are
those of the stage at which it ended. -/
theorem keeps_last_accepted {t : Table Json} {first : Node Json} (hb : t.build = .ok first) :
    ∃ r₀, (new t).value = .ok r₀ ∧ r₀.current = first ∧ ∀ history : List Source,
      (r₀.run history).current = (history.filterMap Source.trie?).getLastD first ∧
      ∀ s : Source,
        (∀ e, ((r₀.run history).step s).2.value = .error e →
          s.trie? = none ∧ ((r₀.run history).step s).1 = r₀.run history) ∧
        (∀ tree, ((r₀.run history).step s).2.value = .ok tree →
          s.trie? = some tree ∧ ((r₀.run history).step s).1 = ⟨tree⟩) ∧
        s.Leads ((r₀.run history).step s).2 := by
  refine ⟨⟨first⟩, new_of_build hb, rfl, fun history => ⟨current_run _ history, fun s => ?_⟩⟩
  obtain ⟨hleads, hresult, hcurrent⟩ := (run ⟨first⟩ history).step_spec s
  refine ⟨fun e he => ?_, fun tree htree => ?_, hleads⟩
  · rw [he] at hresult
    rw [← hresult] at hcurrent
    exact ⟨hresult.symm, congrArg Registry.mk hcurrent⟩
  · rw [htree] at hresult
    rw [← hresult] at hcurrent
    exact ⟨hresult.symm, congrArg Registry.mk hcurrent⟩

/-- A second table is accepted, and a broken table and a route file with a repeated key are not. -/
theorem keeps_last_accepted_second :
    ∃ r₀, (new (Table.ofList [("GET /a", .int 1)])).value = .ok r₀ ∧
      ((r₀.run [.table (Table.ofList [("GET /b", .int 2)]),
        .table (Table.ofList [("/broken", .int 3)]),
        .config ⟨"", OrderedMap.ofList [("GET /c", .int 4), ("GET   /c", .int 5)],
          []⟩]).current.child? "b").isSome = true := by
  obtain ⟨first, hb⟩ : ∃ first, (Table.ofList [("GET /a", Json.int 1)]).build = .ok first :=
    ⟨_, rfl⟩
  obtain ⟨r₀, hnew, -, hrun⟩ := keeps_last_accepted hb
  refine ⟨r₀, hnew, ?_⟩
  rw [(hrun _).1]
  rfl

end Registry

end RouteTrie
