import Mathlib
import WorkerGen.Build.Emit
import WorkerGen.Proofs.Build.Atomicity

/-!
# What comes of emitting a worker

All files of a worker are rendered before the first is written.  `render_cases` says what rendering
gives for any target: the files, or an error about the first one that cannot be written.

`outcome_refusing_one` says what comes of emitting a worker where at most one request is refused.
Rendering that fails changes nothing; a worker that is emitted stands at its output; otherwise what
stood there still does, unless only the staging directory could not be removed.  `Outcome` lists
these cases, so that each of them can be looked up with all that holds in it: the result, and the
world that is left.

The statement is about any target and any refusal, and about any output whose way stays as it is
when the output is replaced.  Without that condition a build may be missed with the earlier one
though nothing has been refused (`not_kept_wayThroughOutput`).
-/

namespace WorkerGen

open FileTree Script

/-! ## Rendering

A target is any list of renderers, so the statement is about lists in which each element gives a
file or an error. -/

namespace Target

/-- What a target renders, in order: each file with its content or why it cannot be written. -/
def renderings (t : Target) (config : Config) (routes : List Route) (handlers : List Handler) :
    List (Path × Except String String) :=
  t.globals.map (fun name => (⟨name⟩, t.renderGlobal name config routes)) ++
    handlers.map fun h => (t.handlerPath h.id, t.renderHandler h.content)

/-- Whether an error is about the first file that cannot be written. -/
def IsFirstFailure (all : List (Path × Except String String)) (e : RenderError) : Prop :=
  ∃ before p reason after, all = before ++ (p, .error reason) :: after ∧
    (∀ x ∈ before, ∃ content, x.2 = .ok content) ∧ e = ⟨p.text, reason⟩

/-- What rendering comes to. -/
def Renders (all : List (Path × Except String String)) :
    Except RenderError (List OutputFile) → Prop
  | .ok files => all = files.map fun f => (f.path, .ok f.content)
  | .error e => IsFirstFailure all e

lemma renders_mapM : ∀ all : List (Path × Except String String),
    Renders all (all.mapM fun x => fileOf x.1 x.2)
  | [] => rfl
  | (p, .error reason) :: rest => ⟨[], p, reason, rest, rfl, by simp, rfl⟩
  | (p, .ok content) :: rest => by
      have ih := renders_mapM rest
      rw [List.mapM_cons]
      cases hrest : rest.mapM (fun x => fileOf x.1 x.2) with
      | ok files =>
          rw [hrest] at ih
          exact congrArg ((p, .ok content) :: ·) ih
      | error e =>
          rw [hrest] at ih
          obtain ⟨before, q, reason, after, hsplit, hbefore, he⟩ := ih
          refine ⟨(p, .ok content) :: before, q, reason, after, by rw [hsplit]; rfl, ?_, he⟩
          rw [List.forall_mem_cons]
          exact ⟨⟨content, rfl⟩, hbefore⟩

variable {t : Target} {config : Config} {routes : List Route} {handlers : List Handler}

/-- **Rendering** gives all files in order, or an error about the first that cannot be written. -/
theorem render_cases : Renders (t.renderings config routes handlers)
    (t.render config routes handlers) := by
  have heq : t.render config routes handlers
      = (t.renderings config routes handlers).mapM fun x => fileOf x.1 x.2 := by
    rw [render, renderings, List.mapM_append, List.mapM_map, List.mapM_map]
    rfl
  rw [heq]
  exact renders_mapM _

/-! ## Names of files

The files of a worker have names of their own and those of its handlers.  If these are names that
entries can have, all files are inside of the output directory. -/

/-- Whether the files of a worker have names that entries of directories can have. -/
structure IsPlain (t : Target) (handlers : List Handler) : Prop where
  globals : ∀ name ∈ t.globals, Path.IsName name
  handlers : ∀ h ∈ handlers, Path.IsName (h.id ++ "." ++ t.extension)

lemma isInside_of_isName {name : String} (h : Path.IsName name) : (Path.mk name).IsInside := by
  refine ⟨h.isAbsolute, ?_, ?_⟩
  · rw [h.names, List.mem_singleton]
    exact h.parent.symm
  · rw [h.way]
    simp

lemma isInside_handlerPath {id : String} (h : Path.IsName (id ++ "." ++ t.extension)) :
    (t.handlerPath id).IsInside := by
  have hnames : handlersDir.names = ["handlers"] := by decide
  have hdir : handlersDir.isAbsolute = false := by decide
  rw [handlerPath]
  refine ⟨?_, ?_, ?_⟩
  · rw [Path.isAbsolute_join h.isAbsolute, hdir]
  · rw [Path.names_join h.isAbsolute, hnames, h.names]
    simpa using h.parent.symm
  · rw [Path.way_join h.isAbsolute, h.way]
    simp

/-- The files of a worker with such names are inside of its output directory. -/
lemma IsPlain.isInside {files : List OutputFile} (h : t.IsPlain handlers)
    (hrender : t.render config routes handlers = .ok files) : ∀ f ∈ files, f.path.IsInside := by
  have hcases : Renders (t.renderings config routes handlers) (t.render config routes handlers) :=
    render_cases
  rw [hrender] at hcases
  intro f hf
  have hmem : (f.path, Except.ok f.content) ∈ t.renderings config routes handlers := by
    rw [show t.renderings config routes handlers = _ from hcases]
    exact List.mem_map_of_mem hf
  rcases List.mem_append.mp hmem with hglobal | hhandler
  · obtain ⟨name, hname, heq⟩ := List.mem_map.mp hglobal
    rw [← (Prod.mk.inj heq).1]
    exact isInside_of_isName (h.globals name hname)
  · obtain ⟨u, hu, heq⟩ := List.mem_map.mp hhandler
    rw [← (Prod.mk.inj heq).1]
    exact isInside_handlerPath (h.handlers u hu)

end Target

namespace Build

/-! ## Emitting

What is rendered is a list, and writing it is a staged build followed by what is added to the log,
which changes no file. -/

/-- What comes of emitting a worker in a world, where at most one request is refused. -/
inductive Outcome (t : Target) (config : Config) (routes : List Route) (handlers : List Handler)
    (output : Path) (refuses : ℕ → Option IoFault) (w : World) :
    Except EmitError Emitted → World → Prop
  /-- A file cannot be written; nothing has changed. -/
  | unrendered {e : RenderError}
      (first : Target.IsFirstFailure (t.renderings config routes handlers) e) :
      Outcome t config routes handlers output refuses w (.error (.render e)) w
  | emitted {files : List OutputFile} {w' : World}
      (rendered : t.render config routes handlers = .ok files) (built : w'.HasBuild output files) :
      Outcome t config routes handlers output refuses w
        (.ok ⟨output, files.map (·.path), handlers.map (·.id)⟩) w'
  | kept {files : List OutputFile} {e : WriteError} {w' : World}
      (rendered : t.render config routes handlers = .ok files)
      (kept : w'.standing output = w.standing output) :
      Outcome t config routes handlers output refuses w (.error (.write e)) w'
  /-- All has succeeded but the removal of the staging directory. -/
  | uncleaned {files : List OutputFile} {e : WriteError} {w' : World} {staging : Path}
      (rendered : t.render config routes handlers = .ok files)
      (staged : ((staged output files).run.runRefusing refuses 0 w).1 = .ok (staging, .ok ()))
      (built : w'.HasBuild output files) :
      Outcome t config routes handlers output refuses w (.error (.write e)) w'

section
variable {t : Target} {strategy : WriteStrategy} {output : Path} {config : Config}
  {routes : List Route} {handlers : List Handler} {files : List OutputFile}

/-- What follows the writing of a worker. -/
def report (t : Target) (output : Path) (files : List OutputFile) (handlers : List Handler) :
    Except WriteError Unit → Script (Except EmitError Emitted)
  | .error e => .done (.error (.write e))
  | .ok () => Script.log (handlers.map (generated t)) >>= fun _ =>
    .done (.ok ⟨output, files.map (·.path), handlers.map (·.id)⟩)

lemma run_emit_of_error {e : RenderError} (h : t.render config routes handlers = .error e) :
    (emit t strategy output config routes handlers).run = .done (.error (.render e)) := by
  rw [emit, h]
  rfl

/-- A worker that has been rendered is written and reported. -/
lemma run_emit (h : t.render config routes handlers = .ok files) :
    (emit t strategy output config routes handlers).run
      = (write strategy output files).run >>= report t output files handlers := by
  rw [emit, h]
  dsimp only
  rw [ExceptT.run_bind_lift]
  refine congrArg _ (funext ?_)
  rintro (e | u)
  · rfl
  · dsimp only
    rw [ExceptT.run_bind_lift]
    rfl

/-- Adding to the log changes nothing else, whatever is refused. -/
lemma runRefusing_log (refuses : ℕ → Option IoFault) : ∀ (events : List LogEvent) (index : ℕ)
    (w : World), ∃ entries, ((Script.log events).runRefusing refuses index w).2
      = { w with log := entries }
  | [], index, w => ⟨w.log, rfl⟩
  | event :: rest, index, w => by
      have hlog : Script.log (event :: rest) = .ask (.log event) fun _ => Script.log rest := rfl
      rw [hlog, Script.runRefusing]
      cases refuses index with
      | some reason => exact runRefusing_log refuses rest (index + 1) w
      | none => exact runRefusing_log refuses rest (index + 1) { w with log := event :: w.log }

variable {w : World} {name : String} {refuses : ℕ → Option IoFault}

/-- **What comes of emitting a worker** where at most one request is refused. -/
theorem outcome_refusing_one (hw : w.IsSound) (hends : output.EndsIn name)
    (hname : ¬ IsStagingName name) (hplain : t.IsPlain handlers)
    (hclear : IsClear w.workDir output name w.files)
    (hone : (refused refuses 0 (emit t .staged output config routes handlers).run w).length ≤ 1) :
    Outcome t config routes handlers output refuses w
      ((emit t .staged output config routes handlers).run.runRefusing refuses 0 w).1
      ((emit t .staged output config routes handlers).run.runRefusing refuses 0 w).2 := by
  have hcases : Target.Renders (t.renderings config routes handlers)
      (t.render config routes handlers) := Target.render_cases
  cases hrender : t.render config routes handlers with
  | error e =>
      rw [hrender] at hcases
      rw [run_emit_of_error hrender]
      exact .unrendered hcases
  | ok files =>
      rw [run_emit hrender] at hone ⊢
      obtain ⟨after, hafter⟩ := runRefusing_bind refuses (write .staged output files).run 0 w
        (β := Except EmitError Emitted)
      obtain ⟨hrun, hrefused⟩ := hafter (report t output files handlers)
      rw [hrefused, List.length_append] at hone
      obtain ⟨hbuilt, hfailed⟩ := standing_of_refused_one hw hends hname
        (hplain.isInside hrender) hclear (le_of_add_le_left hone)
      rw [hrun]
      generalize (write .staged output files).run.runRefusing refuses 0 w = written
        at hbuilt hfailed ⊢
      obtain ⟨result, w₁⟩ := written
      rcases result with (e | u)
      · rcases hfailed (by simp) with hkept | ⟨hbuild, staging, hstaged⟩
        · exact .kept hrender hkept
        · exact .uncleaned hrender hstaged hbuild
      · obtain ⟨end_, hend⟩ := runRefusing_bind refuses (Script.log (handlers.map (generated t)))
          after w₁ (β := Except EmitError Emitted)
        obtain ⟨hlogged, -⟩ := hend fun _ =>
          .done (.ok ⟨output, files.map (·.path), handlers.map (·.id)⟩)
        obtain ⟨entries, hentries⟩ := runRefusing_log refuses (handlers.map (generated t)) after w₁
        dsimp only [report]
        rw [hlogged, hentries]
        exact .emitted hrender (hbuilt rfl)

end

/-! ### Outputs whose way leads through themselves

Where the way to the output does not stay as it is, a swap that fails cannot be undone. -/

/-- A target whose workers are one file with the given name. -/
def single (name : String) : Target where
  name := "single"
  extension := "js"
  globals := [name]
  renderGlobal := fun _ _ _ => .ok "new"
  renderHandler := fun _ => .ok ""

lemma isPlain_single {name : String} (h : Path.IsName name) : (single name).IsPlain [] :=
  ⟨by simpa [single] using h, by simp⟩

/-- The new build is refused its place. -/
theorem outcome_refusing_one_install :
    (refused (refuseAt [15]) 0 (emit (single "index.js") .staged "out" default [] []).run
        earlier).length = 1 ∧
      Outcome (single "index.js") default [] [] "out" (refuseAt [15]) earlier
        (.error (.write ⟨"out", .resourceBusy⟩))
        ((emit (single "index.js") .staged "out" default [] []).run.runRefusing (refuseAt [15]) 0
          earlier).2 := by
  have hone : (refused (refuseAt [15]) 0
      (emit (single "index.js") .staged "out" default [] []).run earlier).length = 1 := by
    decide +kernel
  have hresult : ((emit (single "index.js") .staged "out" default [] []).run.runRefusing
      (refuseAt [15]) 0 earlier).1 = .error (.write ⟨"out", .resourceBusy⟩) := by
    decide +kernel
  have houtcome := outcome_refusing_one isSound_earlier endsIn_out not_isStagingName_out
    (isPlain_single (by constructor <;> decide)) isClear_earlier hone.le
  rw [hresult] at houtcome
  exact ⟨hone, houtcome⟩

/-- A world with a build at `out` that holds a directory. -/
def nested : World :=
  { World.new (.dir [("out", .dir [("x", .dir [("old.js", .file "old".toUTF8)])])]) [] with
    randomNames := ["a"] }

/-- **A worker that is not emitted may be missed with the earlier build**, if the way to the output
leads through the output: once the earlier build has been moved away, neither can take the place. -/
theorem not_kept_wayThroughOutput :
    ¬ ((∃ e, ((emit (single "index.js") .staged "out/x/../../out" default [] []).run.run nested).1
        = .error (.write e)) →
      ((emit (single "index.js") .staged "out/x/../../out" default [] []).run.run nested).2.standing
        "out/x/../../out" = nested.standing "out/x/../../out") := by
  intro h
  have hfails : ((emit (single "index.js") .staged "out/x/../../out" default [] []).run.run
      nested).1 = .error (.write ⟨"out/x/../../out", .notFound⟩) := by
    decide +kernel
  have hnone : (((emit (single "index.js") .staged "out/x/../../out" default [] []).run.run
      nested).2.standing "out/x/../../out").isSome = false := by
    decide +kernel
  have hsome : (nested.standing "out/x/../../out").isSome = true := by decide +kernel
  rw [h ⟨_, hfails⟩, hsome] at hnone
  exact absurd hnone (by decide)

end Build

end WorkerGen
