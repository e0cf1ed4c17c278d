import Mathlib
import WorkerGen.Proofs.Compile.Success
import WorkerGen.Worker.Target

/-!
# Which workers can be rendered

Rendering fails for one reason only: a step that acts on a resource has no binding.  `render_eq`
gives the result of every rendering, the files or the first handler with such a step.  After a
compilation that succeeds there is no such handler, so nothing that is accepted fails to be rendered
(`render_after_compile`).

The files are rendered in a fixed order, the global ones first.  Each renderer is written with the
failure inside; here it is brought into the form of a test and a text that is written if the test is
passed, and what comes of a list of renderers is what comes of the tests (`mapM_eq`).
-/

namespace WorkerGen

/-! ## Handlers

The lines of a step are those of its call.  Without a binding there is no call, and the handler
cannot be written. -/

/-- Whether all steps have the bindings that they need. -/
def HandlerContent.isBound (content : HandlerContent) : Bool := content.steps.all Step.isBound

namespace Worker

lemma isSome_call? (binding : Option String) (action : Action) :
    (call? binding action).isSome = (action.resource?.isNone || binding.isSome) := by
  cases action <;> simp [call?, Action.resource?]

/-- The statement of a step, on its line. -/
def statement (s : Step) : String :=
  "  last = results[" ++ quote s.name ++ "] = await " ++
    (call? (s.binding.map (·.name)) s.action).getD "" ++ ";"

/-- The lines of a step that has the binding it needs. -/
def boundLines (index : ℕ) (s : Step) : List String :=
  ["", "  // " ++ toString (index + 1) ++ ". " ++ s.action.name, statement s]

lemma stepLines_eq (index : ℕ) (s : Step) : stepLines index s =
    if s.isBound then .ok (boundLines index s) else .error missingBindingMessage := by
  have hsome : (call? (s.binding.map (·.name)) s.action).isSome = s.isBound := by
    rw [isSome_call?, Option.isSome_map, Step.isBound]
  cases hcall : call? (s.binding.map (·.name)) s.action with
  | none =>
      have hbound : ¬s.isBound = true := by rw [← hsome, hcall]; exact Bool.false_ne_true
      rw [stepLines, hcall, if_neg hbound]
  | some call =>
      have hbound : s.isBound = true := by rw [← hsome, hcall]; rfl
      have hstatement : statement s
          = "  last = results[" ++ quote s.name ++ "] = await " ++ call ++ ";" := by
        unfold statement
        rw [hcall, Option.getD_some]
      rw [stepLines, hcall, if_pos hbound, boundLines, hstatement]

/-- The lines of steps that have the bindings they need, the first of which has the index. -/
def allBoundLines : (index : ℕ) → List Step → List String
  | _, [] => []
  | index, s :: rest => boundLines index s ++ allBoundLines (index + 1) rest

lemma stepsLines_eq : ∀ (index : ℕ) (steps : List Step), stepsLines index steps =
    if steps.all Step.isBound then .ok (allBoundLines index steps)
    else .error missingBindingMessage
  | _, [] => rfl
  | index, s :: rest => by
      rw [stepsLines, stepLines_eq, stepsLines_eq (index + 1) rest, List.all_cons]
      cases s.isBound <;> cases rest.all Step.isBound <;> rfl

/-- The file of a handler whose steps have the bindings that they need. -/
def handlerText (content : HandlerContent) : String :=
  ofLines (handlerHead content ++ allBoundLines 0 content.steps ++ handlerTail)

/-- **A handler is written exactly if its steps have the bindings that they need.** -/
theorem handler_eq (content : HandlerContent) : handler content =
    if content.isBound then .ok (handlerText content) else .error missingBindingMessage := by
  rw [handler, stepsLines_eq, ← HandlerContent.isBound]
  cases content.isBound <;> rfl

/-! ## Workers -/

/-- Where each element gives a result or an error, a list gives all results or the first error. -/
lemma mapM_eq {α β ε : Type} {f : α → Except ε β} {p : α → Bool} {result : α → β} {failure : α → ε}
    (hf : ∀ a, f a = if p a then .ok (result a) else .error (failure a)) : ∀ s : List α,
    s.mapM f = match s.find? (!p ·) with
      | some a => .error (failure a)
      | none => .ok (s.map result)
  | [] => rfl
  | a :: s => by
      rw [List.mapM_cons, hf, mapM_eq hf s]
      cases ha : p a with
      | true =>
          rw [List.find?_cons_of_neg (by simp [ha])]
          cases s.find? (!p ·) <;> rfl
      | false =>
          rw [List.find?_cons_of_pos (by simp [ha])]
          rfl

/-- The global files of a worker. -/
def globalFiles (config : Config) (routes : List Route) : List OutputFile :=
  GlobalFile.all.map fun file => ⟨⟨file.name⟩, file.content config routes⟩

/-- The file of a handler whose steps have the bindings that they need. -/
def handlerFile (h : Handler) : OutputFile := ⟨target.handlerPath h.id, handlerText h.content⟩

lemma renderGlobal_name (config : Config) (routes : List Route) (file : GlobalFile) :
    renderGlobal file.name config routes = .ok (file.content config routes) := by
  have hfind : GlobalFile.all.find? (·.name == file.name) = some file := by
    cases file <;> decide
  rw [renderGlobal, hfind]

lemma globals_mapM (config : Config) (routes : List Route) :
    (target.globals.mapM fun name => Target.fileOf ⟨name⟩ (target.renderGlobal name config routes))
      = .ok (globalFiles config routes) := by
  have hglobal : ∀ file : GlobalFile,
      Target.fileOf ⟨file.name⟩ (target.renderGlobal file.name config routes)
        = .ok ⟨⟨file.name⟩, file.content config routes⟩ := fun file =>
    congrArg (Target.fileOf ⟨file.name⟩) (renderGlobal_name config routes file)
  have hnames : target.globals = GlobalFile.all.map GlobalFile.name := rfl
  rw [hnames, List.mapM_map, globalFiles]
  exact (congrArg (List.mapM · GlobalFile.all) (funext hglobal)).trans List.mapM_pure

/-- **The result of a rendering**: the first handler with a step that lacks its binding, or else
the global files and the files of the handlers. -/
theorem render_eq (config : Config) (routes : List Route) (handlers : List Handler) :
    target.render config routes handlers = match handlers.find? (!·.isBound) with
      | some h => .error ⟨(target.handlerPath h.id).text, missingBindingMessage⟩
      | none => .ok (globalFiles config routes ++ handlers.map handlerFile) := by
  have hhandlers : ∀ h : Handler,
      Target.fileOf (target.handlerPath h.id) (target.renderHandler h.content)
        = if h.isBound then .ok (handlerFile h)
          else .error ⟨(target.handlerPath h.id).text, missingBindingMessage⟩ := by
    intro h
    have hhandler : target.renderHandler h.content
        = if h.isBound then .ok (handlerText h.content) else .error missingBindingMessage :=
      handler_eq h.content
    rw [hhandler]
    cases h.isBound <;> rfl
  rw [Target.render, globals_mapM, mapM_eq hhandlers]
  cases handlers.find? (!·.isBound) <;> rfl

/-- The files of a worker that has been compiled. -/
lemma render_of_compiled {config : Config} {declared : Bool} {c : Compilation}
    (h : Compilation.Compiled config declared c) :
    target.render c.config (Route.table config.api (Handler.ofApi config.api))
        (Handler.ofApi config.api) =
      .ok (globalFiles c.config (Route.table config.api (Handler.ofApi config.api)) ++
        (Handler.ofApi config.api).map handlerFile) := by
  have hfind : (Handler.ofApi config.api).find? (!·.isBound) = none :=
    List.find?_eq_none.mpr fun handler hmem => by simp [h.isBound handler hmem]
  rw [render_eq, hfind]

/-- **What is accepted can be rendered.**  After a compilation that succeeds, with or without a
manifest, all files can be written.  Without the checks the handlers of a description can be written
unless one of them has a step that lacks its binding, and then the first such handler is named. -/
theorem render_after_compile (config : Config) :
    (∀ (declared : Bool) (c : Compilation),
      ((Compilation.new config).declare declared).compile = .ok c →
        ∃ routes handlers files, c.routes = some routes ∧ c.handlers = some handlers ∧
          target.render c.config routes handlers = .ok files) ∧
    ∀ e : RenderError,
      target.render config (Route.table config.api (Handler.ofApi config.api))
          (Handler.ofApi config.api) = .error e ↔
        ∃ h, (Handler.ofApi config.api).find? (!·.isBound) = some h ∧
          e = ⟨(target.handlerPath h.id).text, missingBindingMessage⟩ := by
  refine ⟨fun declared c hcompile => ?_, fun e => ?_⟩
  · have hcompiled := Compilation.compiled_of_runPhases hcompile
    exact ⟨_, _, _, hcompiled.routes, hcompiled.handlers, render_of_compiled hcompiled⟩
  · rw [render_eq]
    cases (Handler.ofApi config.api).find? (!·.isBound) with
    | none => simp
    | some h => simp [eq_comm]

/-- A worker that reads a key of the namespace that the description names. -/
def reader : Config :=
  { (default : Config) with
    bindings := { Manifest.empty with kvNamespaces := [⟨"CACHE", none, none⟩] }
    api := { Api.empty with
      paths := .set .empty "/a" (.set .empty .get
        ⟨some "read", none, some [⟨none, some "row", .kvGet "k" .text⟩], none⟩)
      defaults := ⟨none, some "CACHE", none⟩ } }

theorem render_after_compile_reader :
    ∃ routes handlers files, target.render reader routes handlers = .ok files := by
  have hcompile : ((Compilation.new reader).declare true).compile = .ok
      ⟨reader, true, some (Handler.ofApi reader.api),
        some (Route.table reader.api (Handler.ofApi reader.api)), []⟩ := rfl
  obtain ⟨routes, handlers, files, -, -, hrender⟩ := (render_after_compile reader).1 true _ hcompile
  exact ⟨routes, handlers, files, hrender⟩

end Worker

end WorkerGen
