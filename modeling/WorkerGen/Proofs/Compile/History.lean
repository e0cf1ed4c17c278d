import Mathlib
import WorkerGen.Project.Load
import WorkerGen.Proofs.Compile.Success

/-!
# Histories of compilations

The phases of a compilation share its state, and nothing makes them run in their order: a phase may
be left out or run again, and the description may be replaced after the handlers have been built.  A
history is a list of such changes, made one after another whether or not they fail.

* `effect_change` — all that one change can do.
* `isOrderly_after` — what holds in every state that a history leads to: there are no routes without
  handlers, routes lead to handlers that the last analysis was given, reports are only added, a
  change that fails changes nothing but the reports, and no validation passes over an error.

A change is looked at once.  `Effect` has a case for each thing that it can do, with what it needs
for that and what the state is afterwards, and every law is shown of the cases first and then of
histories by induction on their length.  Histories are extended at their end, since what they lead
to is told from the last change.
-/

namespace WorkerGen

namespace Compilation

/-- A change to a compilation. -/
inductive Change where
  | phase (phase : Phase)
  /-- Says whether there is a manifest. -/
  | declare (declared : Bool)
  /-- Replaces the description. -/
  | withApi (api : Api)
  | report (diagnostic : Diagnostic)

/-- Makes a change: the compilation after it, and why it failed if it did. -/
def change (c : Compilation) : Change → Compilation × Option CompileError
  | .phase phase => phase.run c
  | .declare declared => (c.declare declared, none)
  | .withApi api => (c.withApi api, none)
  | .report diagnostic => (c.report [diagnostic], none)

/-- A compilation after a history. -/
def after (c : Compilation) : List Change → Compilation
  | [] => c
  | x :: rest => after (c.change x).1 rest

/-! ## One change

Only a validation has more than one outcome for the handlers that are there: it passes or it fails,
and either way it may have added reports. -/

/-- All that a change can do: the compilation after it, and why it failed if it did. -/
inductive Effect (c : Compilation) : Change → Compilation → Option CompileError → Prop
  | lowered (handlers : List Handler) :
      Effect c (.phase .lower) { c with handlers := some handlers } none
  | analyzed {given : List Handler} (lowered : c.handlers = some given) :
      Effect c (.phase .analyze) { c with routes := some (Route.table c.config.api given) } none
  | notAnalyzed (e : CompileError) (notLowered : c.handlers = none) :
      Effect c (.phase .analyze) c (some e)
  | validated {lints : List Lint} (reports : List Diagnostic)
      (noErrors : (c.report reports).errors = []) :
      Effect c (.phase (.validate lints)) (c.report reports) none
  /-- What has been found before the failure is reported. -/
  | rejected {lints : List Lint} (reports : List Diagnostic) (e : CompileError) :
      Effect c (.phase (.validate lints)) (c.report reports) (some e)
  | surveyed {name purpose : String} {findings : Compilation → List Diagnostic} :
      Effect c (.phase (.survey name purpose findings)) (c.report (findings c)) none
  | declared (declared : Bool) : Effect c (.declare declared) (c.declare declared) none
  | replaced (api : Api) : Effect c (.withApi api) (c.withApi api) none
  | reported (diagnostic : Diagnostic) : Effect c (.report diagnostic) (c.report [diagnostic]) none

variable {c : Compilation}

lemma report_nil (c : Compilation) : c.report [] = c := by
  rw [report, List.append_nil]

/-- A validation adds reports, and passes only if there is no error among all of them. -/
lemma validateHandlers_cases (lints : List Lint) (c : Compilation) (handlers : List Handler) :
    ∃ reports, (Phase.validateHandlers lints c handlers).1 = c.report reports ∧
      ((Phase.validateHandlers lints c handlers).2 = none → (c.report reports).errors = []) := by
  rw [Phase.validateHandlers]
  split
  · exact ⟨[], (report_nil c).symm, by simp⟩
  · dsimp only
    split
    · exact ⟨_, rfl, by simp⟩
    · split_ifs with herrors
      · rw [report_report] at herrors ⊢
        exact ⟨_, rfl, fun _ => List.isEmpty_iff.mp herrors⟩
      · rw [report_report]
        exact ⟨_, rfl, by simp⟩

/-- **Every change has one of the effects.** -/
theorem effect_change (c : Compilation) (x : Change) :
    Effect c x (c.change x).1 (c.change x).2 := by
  cases x with
  | declare declared => exact .declared declared
  | withApi api => exact .replaced api
  | report diagnostic => exact .reported diagnostic
  | phase phase =>
      rw [change]
      cases phase with
      | lower => exact .lowered _
      | survey name purpose findings => exact .surveyed
      | analyze =>
          rw [Phase.run]
          split
          case h_1 hlowered => exact .notAnalyzed _ hlowered
          case h_2 given hlowered => exact .analyzed hlowered
      | validate lints =>
          rw [Phase.run]
          cases hlowered : c.handlers with
          | none =>
              have hrejected : Effect c (.phase (.validate lints)) (c.report [])
                  (some (.notLowered "ValidatePhase")) := .rejected [] _
              rwa [report_nil] at hrejected
          | some handlers =>
              dsimp only
              obtain ⟨reports, hreports, hpasses⟩ := validateHandlers_cases lints c handlers
              rw [hreports]
              cases hfails : (Phase.validateHandlers lints c handlers).2 with
              | none => exact .validated reports (hpasses hfails)
              | some e => exact .rejected reports e

/-! ## What one change keeps

One lemma for each law, by cases on the effect. -/

section
variable {c' : Compilation} {x : Change} {failure : Option CompileError}

/-- Reports are only added. -/
lemma Effect.diagnostics (h : Effect c x c' failure) : c.diagnostics <+: c'.diagnostics := by
  cases h with
  | lowered | analyzed | notAnalyzed | declared | replaced => exact List.prefix_rfl
  | validated | rejected | surveyed | reported => exact List.prefix_append _ _

/-- There are handlers wherever there are routes. -/
lemma Effect.handlers_of_routes (h : Effect c x c' failure)
    (hc : c.routes.isSome → c.handlers.isSome) : c'.routes.isSome → c'.handlers.isSome := by
  cases h with
  | lowered => exact fun _ => rfl
  | analyzed lowered => exact fun _ => Option.isSome_iff_exists.mpr ⟨_, lowered⟩
  | notAnalyzed | validated | rejected | surveyed | declared | replaced | reported => exact hc

/-- Only an analysis makes routes, from the handlers that are there. -/
lemma Effect.routes (h : Effect c x c' failure) :
    (∃ given, x = .phase .analyze ∧ c.handlers = some given ∧
      c'.routes = some (Route.table c.config.api given)) ∨
    c'.routes = c.routes ∧ (x = .phase .analyze → c.handlers = none) := by
  cases h with
  | @analyzed given lowered => exact .inl ⟨given, rfl, lowered, rfl⟩
  | notAnalyzed e notLowered => exact .inr ⟨rfl, fun _ => notLowered⟩
  | lowered | validated | rejected | surveyed | declared | replaced | reported =>
      exact .inr ⟨rfl, by simp⟩

/-- What fails changes nothing but the reports, and these only if it is a validation. -/
lemma Effect.failed (h : Effect c x c' failure) (hfails : failure ≠ none) :
    c' = { c with diagnostics := c'.diagnostics } ∧
      ((∀ lints, x ≠ .phase (.validate lints)) → c' = c) := by
  cases h with
  | notAnalyzed e notLowered => exact ⟨rfl, fun _ => rfl⟩
  | @rejected lints reports e => exact ⟨rfl, fun hother => absurd rfl (hother lints)⟩
  | lowered | analyzed | validated | surveyed | declared | replaced | reported =>
      exact absurd rfl hfails

/-- A validation does not pass over an error. -/
lemma Effect.fails_of_error {lints : List Lint} (h : Effect c (.phase (.validate lints)) c' failure)
    {d : Diagnostic} (hd : d ∈ c.diagnostics) (herror : d.isError = true) : failure ≠ none := by
  cases h with
  | rejected reports e => simp
  | validated reports noErrors =>
      have hmem : d ∈ (c.report reports).errors :=
        List.mem_filter.mpr ⟨List.mem_append_left _ hd, herror⟩
      rw [noErrors] at hmem
      exact absurd hmem List.not_mem_nil

end

/-! ## Histories -/

lemma after_append (c : Compilation) : ∀ before more : List Change,
    c.after (before ++ more) = (c.after before).after more
  | [], _ => rfl
  | x :: before, more => after_append (c.change x).1 before more

lemma after_concat (c : Compilation) (changes : List Change) (x : Change) :
    c.after (changes ++ [x]) = ((c.after changes).change x).1 :=
  after_append c changes [x]

lemma diagnostics_prefix_after (c : Compilation) : ∀ changes : List Change,
    c.diagnostics <+: (c.after changes).diagnostics
  | [] => List.prefix_rfl
  | x :: rest =>
      (effect_change c x).diagnostics.trans (diagnostics_prefix_after (c.change x).1 rest)

/-- Where there have been no routes at the start, there are none without handlers. -/
lemma handlers_of_routes_after (hc : c.routes = none) (changes : List Change) :
    (c.after changes).routes.isSome → (c.after changes).handlers.isSome := by
  induction changes using List.reverseRecOn with
  | nil => simp [after, hc]
  | append_singleton changes x ih =>
      rw [after_concat]
      exact (effect_change _ x).handlers_of_routes ih

/-- The id of a route is that of one of the handlers that the routing table is made for. -/
lemma exists_handler_of_table {api : Api} {given : List Handler} {r : Route} {id : String}
    (hr : r ∈ Route.table api given) (hid : r.handler = some id) : ∃ h ∈ given, h.id = id := by
  obtain ⟨⟨path, method, operation⟩, -, rfl⟩ := List.mem_map.mp (List.mem_mergeSort.mp hr)
  obtain ⟨h, hfound, hh⟩ := Option.map_eq_some_iff.mp hid
  exact ⟨h, List.mem_reverse.mp (List.mem_of_find?_eq_some hfound), hh⟩

/-- Where there have been no routes at the start, they come from the last analysis. -/
lemma exists_analysis_of_routes (hc : c.routes = none) (changes : List Change) {routes : List Route}
    (hroutes : (c.after changes).routes = some routes) :
    ∃ before more given, changes = before ++ .phase .analyze :: more ∧ .phase .analyze ∉ more ∧
      (c.after before).handlers = some given ∧
      routes = Route.table (c.after before).config.api given := by
  induction changes using List.reverseRecOn with
  | nil => exact absurd (hc.symm.trans hroutes) (by simp)
  | append_singleton changes x ih =>
      rw [after_concat] at hroutes
      rcases (effect_change (c.after changes) x).routes with
        ⟨given, rfl, hgiven, hmade⟩ | ⟨hsame, hanalyze⟩
      · exact ⟨changes, [], given, rfl, List.not_mem_nil, hgiven,
          Option.some.inj (hroutes.symm.trans hmade)⟩
      · rw [hsame] at hroutes
        -- an analysis that leaves the routes has no handlers, but then there are no routes
        have hx : x ≠ .phase .analyze := by
          intro hx
          have hhandlers := handlers_of_routes_after hc changes (by rw [hroutes]; rfl)
          rw [hanalyze hx] at hhandlers
          exact absurd hhandlers (by simp)
        obtain ⟨before, more, given, rfl, hmore, hgiven, htable⟩ := ih hroutes
        refine ⟨before, more ++ [x], given, by simp, ?_, hgiven, htable⟩
        simpa [hmore] using Ne.symm hx

/-! ## What holds after every history

A history starts from a description with or without a manifest, and with any lints.  What has been
reported so far is at every moment the beginning of what will have been reported later. -/

/-- What a compilation starts from. -/
inductive Start where
  | inputs (config : Config)
  | project (loaded : Loaded)

/-- The compilation that starts. -/
def Start.compilation : Start → Compilation
  | .inputs config => .new config
  | .project loaded => .ofLoaded loaded

lemma Start.routes_eq_none : ∀ start : Start, start.compilation.routes = none
  | .inputs _ => rfl
  | .project _ => rfl

/-- What holds of the state `start.after changes`, which a history leads to. -/
structure IsOrderly (start : Compilation) (changes : List Change) : Prop where
  handlers_of_routes : (start.after changes).routes.isSome → (start.after changes).handlers.isSome
  /-- Routes lead to the handlers that the last analysis was given. -/
  routes : ∀ routes, (start.after changes).routes = some routes →
    ∃ before more given, changes = before ++ .phase .analyze :: more ∧ .phase .analyze ∉ more ∧
      (start.after before).handlers = some given ∧
      ∀ r ∈ routes, ∀ id, r.handler = some id → ∃ h ∈ given, h.id = id
  /-- What has been reported earlier comes first. -/
  reports : ∀ before more, changes = before ++ more →
    (start.after before).diagnostics <+: (start.after changes).diagnostics
  /-- A change that fails next leaves all but the reports as it was, and these too unless it is a
  validation. -/
  failure : ∀ x, ((start.after changes).change x).2 ≠ none →
    ((start.after changes).change x).1 = { start.after changes with
      diagnostics := ((start.after changes).change x).1.diagnostics } ∧
    ((∀ lints, x ≠ .phase (.validate lints)) →
      ((start.after changes).change x).1 = start.after changes)
  /-- After an error no validation succeeds. -/
  errors : ∀ before more, changes = before ++ more →
    (start.after before).diagnostics.any (·.isError) → ∀ lints,
      ((start.after changes).change (.phase (.validate lints))).2 ≠ none

/-- **Every state that a history leads to is orderly**, whatever the order of the changes and
whichever of them fail. -/
theorem isOrderly_after (start : Start) (changes : List Change) :
    IsOrderly start.compilation changes where
  handlers_of_routes := handlers_of_routes_after start.routes_eq_none changes
  routes routes hroutes := by
    obtain ⟨before, more, given, hsplit, hlast, hgiven, rfl⟩ :=
      exists_analysis_of_routes start.routes_eq_none changes hroutes
    exact ⟨before, more, given, hsplit, hlast, hgiven, fun r hr id => exists_handler_of_table hr⟩
  reports before more hsplit := by
    rw [hsplit, after_append]
    exact diagnostics_prefix_after _ more
  failure x := (effect_change _ x).failed
  errors before more hsplit herrors lints := by
    obtain ⟨d, hd, herror⟩ := List.any_eq_true.mp herrors
    rw [hsplit, after_append]
    exact (effect_change _ _).fails_of_error
      ((diagnostics_prefix_after _ more).subset hd) herror

end Compilation

end WorkerGen
