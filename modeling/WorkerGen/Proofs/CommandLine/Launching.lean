import Mathlib
import WorkerGen.CommandLine.Run
import WorkerGen.Proofs.Project.Launching
import WorkerGen.Proofs.Project.Stages

/-!
# Launching from the command line

The commands that run a worker on this machine and deploy it build the project first.  `Prepared` is
a run up to there in which everything has succeeded: the project is loaded, its pipeline has no
errors, and the staged build has been written.

`launched_in_order` is about all runs of the two commands: any project, arguments and environment,
any requests that are refused on the way, and any world, with the programs that it has and the way
in which its child processes end.  Nothing is started unless a run is prepared.  The new build then
stands at the output in each world in which something is started, every child process sees the
environment of the project, and the launch goes one of the ways of `Launch.Course`.

* `fails_of_not_prepared` — a run that is not prepared makes no calls and fails.
* `Prepared.leads` — a run that is prepared goes on as the launch does, with no calls before.
* `runLaunch_spec` — the calls and the status of the launch, which `Launch.course_launch` is about.

Which calls start a child process, and how those end, is said in terms of the first world of the
run: the search path that decides is the one among the variables of the environment, if it has one.
-/

namespace WorkerGen.CommandLine

open Script

/-! ## The command line

A command is prepared in a world if every stage before the launch succeeds from there.  `Prepared`
has the result of each stage, so that what is known of one can be used for the next. -/

/-- The name of the command that launches at a site. -/
def launchName : LaunchSite → String
  | .here => "local"
  | .remote => "deploy"

/-- The commands that launch at a site. -/
lemma exists_of_read_launch {site : LaunchSite} {options : List String} {command : Command}
    (h : read (launchName site :: options) = .ok (.command command)) :
    ∃ init, command.verb = .launch site init := by
  have hread : read (launchName site :: options) = readLaunch site options := by
    cases site <;> rfl
  rw [hread, readLaunch, readCommand] at h
  cases hoptions : readOptions [fileOption, outOption, initOption] none [] options with
  | error e =>
      rw [hoptions] at h
      cases h
  | ok given =>
      rw [hoptions] at h
      cases given with
      | none => cases h
      | some given =>
          cases h
          exact ⟨_, rfl⟩

/-- The API description that a command is about. -/
def apiOf (root : Path) (command : Command) : Script Path :=
  match command.file with
  | some file => .done file
  | none => usualApi root

lemma looks_apiOf (root : Path) (command : Command) :
    (apiOf root command).Asks Request.IsLook := by
  rw [apiOf]
  cases command.file with
  | some file => exact asks_done _
  | none =>
      refine (looks_isKind _ _).bind fun there => ?_
      cases there with
      | true => exact asks_done _
      | false => exact (looks_isKind _ _).bind fun there => by cases there <;> exact asks_done _

/-- Loading a project and running a command on it. -/
def loadThen (root : Path) (ambient : Dictionary String) (command : Command) (api : Path) :
    Script Nat :=
  (Project.load (projectIn root api ambient)).run >>= fun
    | .error e => fail [e.message]
    | .ok loaded => runOn command loaded

/-- The stages of running a command. -/
lemma run_eq (ambient : Dictionary String) (command : Command) :
    run ambient command = request .workDir >>= fun
      | .error reason => fail [reason.message]
      | .ok root => apiOf root command >>= loadThen root ambient command := by
  rw [run]
  refine congrArg _ (funext ?_)
  rintro (reason | root)
  · rfl
  · dsimp only
    rw [apiOf]
    cases command.file <;> rfl

/-! ## The stages before a launch

A command that fails early has made no calls, and one that is prepared goes on as its launch does.
The two are told apart stage by stage, in the order in which the command runs them. -/

/-- A run of a command up to the launch, in which everything has succeeded. -/
structure Prepared (refuses : ℕ → Option IoFault) (ambient : Dictionary String) (command : Command)
    (m : RunState) where
  root : Path
  api : Path
  loaded : Loaded
  /-- Where the working directory has been found. -/
  placed : RunState
  /-- Where the API description has been found. -/
  named : RunState
  /-- Where the project has been loaded. -/
  read : RunState
  places : (request .workDir).ends refuses m = (.ok root, placed)
  names : (apiOf root command).ends refuses placed = (api, named)
  loads : (Project.load (projectIn root api ambient)).run.ends refuses named = (.ok loaded, read)
  emits : Project.Emitting refuses loaded command.output read

section
variable {refuses : ℕ → Option IoFault} {ambient : Dictionary String} {command : Command}
  {m m' : RunState} {site : LaunchSite} {init : Option Path}

namespace Prepared

lemma sameFiles_named (p : Prepared refuses ambient command m) :
    m.world.SameFiles p.named.world :=
  (sameFiles_of_looks (asks_request (q := .workDir) trivial) p.places).trans
    (sameFiles_of_looks (looks_apiOf _ _) p.names)

lemma sameFiles_read (p : Prepared refuses ambient command m) : m.world.SameFiles p.read.world :=
  p.sameFiles_named.trans (sameFiles_of_looks (Project.looks_load _) p.loads)

lemma hasBuild (p : Prepared refuses ambient command m) (hm : m.world.IsSound) :
    p.emits.written.world.HasBuild command.output p.emits.files :=
  p.emits.hasBuild (p.sameFiles_read.isSound hm)

/-- The inputs of the pipeline are those that have been loaded. -/
lemma config_eq (p : Prepared refuses ambient command m) :
    p.emits.compilation.config = p.loaded.config :=
  (Compilation.compiled_and_errors_of_runPhases p.emits.compiles).1.config

end Prepared

/-- A run that is prepared leads to the launch. -/
lemma Prepared.leads (p : Prepared refuses ambient command m)
    (hverb : command.verb = .launch site init) : ∃ built after,
    Leads refuses (run ambient command) m (runLaunch built ⟨command.output, init, site⟩) after ∧
      built.config = p.loaded.config ∧ p.emits.written.world.SameFiles after.world := by
  obtain ⟨built, ended, hbuild, hconfig, hsame⟩ := p.emits.ends_build
  have hdisplay : ended.world.SameFiles
      ((display built.report.display).ends refuses ended).2.world :=
    sameFiles_of_looks (looks_display _) rfl
  refine ⟨built, _, ?_, hconfig.trans p.config_eq, hsame.trans hdisplay⟩
  rw [run_eq]
  refine (Quiet.leads (asks_request id) p.places).trans ?_
  refine (Quiet.leads (looks_apiOf _ _).quiet p.names).trans ?_
  refine (Quiet.leads (Project.looks_load _).quiet p.loads).trans ?_
  dsimp only
  rw [runOn, hverb]
  refine (Quiet.leads (Project.quiet_build _ _ _) hbuild).trans ?_
  exact Quiet.leads (looks_display _).quiet rfl

/-- Whether a run fails from some state on, with no calls. -/
def Fails (refuses : ℕ → Option IoFault) (s : Script Nat) (m : RunState) : Prop :=
  ∃ chain after, Leads refuses s m (fail chain) after

lemma Fails.of_leads {s t : Script Nat} (ht : Fails refuses t m') (h : Leads refuses s m t m') :
    Fails refuses s m := by
  obtain ⟨chain, after, ht⟩ := ht
  exact ⟨chain, after, h.trans ht⟩

lemma fails_fail (chain : List String) : Fails refuses (fail chain) m := ⟨chain, m, .refl _ _⟩

/-- A run that fails makes no calls, and its status is not 0. -/
lemma Fails.spec {s : Script Nat} (h : Fails refuses s m) :
    s.calls refuses m = [] ∧ (s.ends refuses m).1 ≠ 0 := by
  obtain ⟨chain, after, hends, hcalls⟩ := h
  have hquiet : (fail chain).Quiet := (looks_display _).quiet.bind fun _ => asks_done _
  rw [hcalls, hends, Quiet.calls hquiet]
  exact ⟨rfl, by rw [fail, ends_bind]; exact one_ne_zero⟩

/-- **A run that is not prepared fails.** -/
lemma fails_of_not_prepared (h : IsEmpty (Prepared refuses ambient command m))
    (hverb : command.verb = .launch site init) : Fails refuses (run ambient command) m := by
  rw [run_eq]
  obtain ⟨place, placed, hplace⟩ : ∃ place placed,
      (request .workDir).ends refuses m = (place, placed) := ⟨_, _, rfl⟩
  refine Fails.of_leads ?_ (Quiet.leads (asks_request id) hplace)
  rcases place with (reason | root)
  · exact fails_fail _
  obtain ⟨api, named, hname⟩ : ∃ api named,
      (apiOf root command).ends refuses placed = (api, named) := ⟨_, _, rfl⟩
  refine Fails.of_leads ?_ (Quiet.leads (looks_apiOf _ _).quiet hname)
  obtain ⟨result, read, hload⟩ : ∃ result read,
      (Project.load (projectIn root api ambient)).run.ends refuses named = (result, read) :=
    ⟨_, _, rfl⟩
  refine Fails.of_leads ?_ (Quiet.leads (Project.looks_load _).quiet hload)
  rcases result with (e | loaded)
  · exact fails_fail _
  dsimp only
  rw [runOn, hverb]
  obtain ⟨result, built, hbuild⟩ : ∃ result built,
      (Project.build loaded ⟨command.output, false, .staged⟩).run.ends refuses read
        = (result, built) := ⟨_, _, rfl⟩
  refine Fails.of_leads ?_ (Quiet.leads (Project.quiet_build _ _ _) hbuild)
  rcases result with (e | report)
  · exact fails_fail _
  obtain ⟨emits⟩ := Project.exists_of_build hbuild
  exact h.elim ⟨root, api, loaded, placed, named, read, hplace, hname, hload, emits⟩

/-! ## The launch

What is left is a launch on a world with the new build at the output, and its status. -/

/-- A launch from the command line makes the calls of the launch, and its status is 0 just if that
succeeds. -/
lemma runLaunch_spec (refuses : ℕ → Option IoFault) (built : Built) (options : LaunchOptions)
    (m : RunState) :
    (runLaunch built options).calls refuses m
        = (Launch.launch built.config options).run.calls refuses m ∧
      (((runLaunch built options).ends refuses m).1 = 0 ↔
        ((Launch.launch built.config options).run.ends refuses m).1 = .ok ()) := by
  rw [runLaunch, calls_bind, ends_bind]
  generalize (Launch.launch built.config options).run.ends refuses m = launched
  obtain ⟨(e | u), m'⟩ := launched
  · have hfails : Fails refuses (fail e.chain) m' := fails_fail _
    obtain ⟨hcalls, hstatus⟩ := hfails.spec
    exact ⟨by rw [hcalls, List.append_nil], by simp [hstatus]⟩
  · exact ⟨List.append_nil _, iff_of_true rfl rfl⟩

/-- **Nothing is started unless everything before the launch has succeeded**, and the calls of a
launch are then made in order.  A call starts a child process unless it is refused or its program is
not found along the search path, and child processes end as the world has it, one after another. -/
theorem launched_in_order {w : World} {options : List String} (hw : w.IsSound)
    (hread : CommandLine.read (launchName site :: options) = .ok (.command command)) :
    ∃ init calls status w', command.verb = .launch site init ∧
      (runLine ambient (launchName site :: options)).calls refuses ⟨w, 0⟩ = calls ∧
      (runLine ambient (launchName site :: options)).runRefusing refuses 0 w = (status, w') ∧
      w'.children = startedIn calls ++ w.children ∧
      (∀ call ∈ calls,
        (call.started = true ↔ refuses call.index = none ∧ w.CanStart call.child)) ∧
      (∀ k ending, (exitsIn calls)[k]? = some ending → ending = w.exit k) ∧
      (IsEmpty (Prepared refuses ambient command ⟨w, 0⟩) → calls = [] ∧ status ≠ 0) ∧
      ∀ p : Prepared refuses ambient command ⟨w, 0⟩,
        (∀ call ∈ calls, call.world.HasBuild command.output p.emits.files) ∧
        (∃ overrides warnings before after, w.SameFiles before.world ∧
          (Project.loadEnv (p.root.join Project.defaultEnvFile)).ends refuses before
            = ((overrides, warnings), after) ∧
          ∀ call ∈ calls, ∀ name,
            call.child.env.get? name = (overrides.get? name).or (ambient.get? name)) ∧
        Launch.Course p.loaded.config ⟨command.output, init, site⟩ calls ∧
        (status = 0 ↔ calls ≠ [] ∧ ∀ call ∈ calls, call.Succeeded) := by
  obtain ⟨init, hverb⟩ := exists_of_read_launch hread
  have hline : runLine ambient (launchName site :: options) = run ambient command := by
    rw [runLine, hread]
  rw [hline, runRefusing_eq_ends]
  refine ⟨init, _, _, _, hverb, rfl, rfl, children_ends _ _, started_calls,
    fun _ _ => exit_calls _, fun h => (fails_of_not_prepared h hverb).spec, fun p => ?_⟩
  obtain ⟨built, after, ⟨hends, hcalls⟩, hconfig, hsame⟩ := p.leads hverb
  obtain ⟨hlaunched, hstatus⟩ := runLaunch_spec refuses built ⟨command.output, init, site⟩ after
  obtain ⟨hcourse, hok⟩ := Launch.course_launch refuses built.config ⟨command.output, init, site⟩
    after
  rw [hends, hcalls, hstatus, hlaunched, hok]
  rw [hconfig] at hcourse ⊢
  refine ⟨fun call hcall => ?_, ?_, hcourse, Iff.rfl⟩
  · have hcall := (Launch.asks_launch _ _).sameFiles_calls call hcall
    exact hcall.hasBuild (hsame.hasBuild (p.hasBuild hw))
  · obtain ⟨overrides, warnings, before, found, hbefore, henv, hunion⟩ :=
      Project.exists_of_load p.loads
    refine ⟨overrides, warnings, before, found, p.sameFiles_named.trans hbefore, henv, ?_⟩
    intro call hcall name
    rw [hcourse.env_eq call hcall, hunion, Dictionary.get?_union]
    rfl

end

/-! ### A deployment with a script -/

/-- A world with a project that has a database and sets a variable. -/
def notes : World :=
  { World.new (.dir [
      ("api.yaml", .file "info:\n  title: Notes\npaths: \x7b\x7d\n".toUTF8),
      ("wrangler.toml", .file "[[d1_databases]]\nbinding = \"DB\"\n".toUTF8),
      (".env", .file "MODE=test\n".toUTF8)]) [] with randomNames := ["a"] }

/-- The environment of the command. -/
def notesEnv : Dictionary String := .ofList [("MODE", "live"), ("PATH", "/usr/local/bin:/usr/bin")]

/-- The environment of its child processes. -/
def notesChildEnv : Dictionary String :=
  .ofList [("MODE", "test"), ("PATH", "/usr/local/bin:/usr/bin")]

/-- The calls of a deployment with a script. -/
def notesChildren : List Child :=
  [⟨"npx", ["wrangler", "d1", "execute", "DB", "--remote", "--file", "seed.sql"], notesChildEnv⟩,
    ⟨"npx", ["wrangler", "deploy", "build/index.js"], notesChildEnv⟩]

lemma isSound_notes : notes.IsSound where
  workDir := ⟨_, rfl⟩
  names := by simp [notes, World.new]
  randomNames := by decide

/-- The script is executed before the worker is deployed, both along the search path of the command
and with the variable as the project sets it.  Both end well, and so does the command.  The new
build stands at the output both times. -/
theorem launched_in_order_notes : ∃ calls files w',
    CommandLine.read ["deploy", "--init", "seed.sql"]
      = .ok (.command ⟨.launch .remote (some "seed.sql"), none, "build"⟩) ∧
    (runLine notesEnv ["deploy", "--init", "seed.sql"]).calls (fun _ => none) ⟨notes, 0⟩ = calls ∧
    (runLine notesEnv ["deploy", "--init", "seed.sql"]).runRefusing (fun _ => none) 0 notes
      = (0, w') ∧
    calls.map Call.child = notesChildren ∧ w'.children = notesChildren.reverse ∧
    ∀ call ∈ calls, notes.CanStart call.child ∧ call.Succeeded ∧
      call.world.HasBuild "build" files := by
  obtain ⟨init, calls, status, w', -, hcalls, hrun, hchildren, hstarted, -, hfails, hprepared⟩ :=
    @launched_in_order (fun _ => none) notesEnv ⟨.launch .remote (some "seed.sql"), none, "build"⟩
      .remote notes ["--init", "seed.sql"] isSound_notes (by decide +kernel)
  have hmade : calls.map (fun c => (c.child, c.ending))
      = notesChildren.map fun child => (child, .ok (.code 0)) := by
    rw [← hcalls]
    decide +kernel
  have hends : ∀ call ∈ calls, call.Succeeded := by
    intro call hcall
    have hmem := List.mem_map_of_mem (f := fun c => (c.child, c.ending)) hcall
    rw [hmade] at hmem
    obtain ⟨child, -, heq⟩ := List.mem_map.mp hmem
    exact (Prod.ext_iff.mp heq).2.symm
  have hall : ∀ call ∈ calls, call.started = true := fun call hcall => by
    rw [Call.started, hends call hcall]
    rfl
  have hchild : calls.map Call.child = notesChildren := by
    simpa [Function.comp_def] using congrArg (List.map Prod.fst) hmade
  have hne : calls ≠ [] := by
    rintro rfl
    cases hchild
  rcases isEmpty_or_nonempty (Prepared (fun _ => none) notesEnv _ ⟨notes, 0⟩) with hempty | ⟨⟨p⟩⟩
  · exact absurd (hfails hempty).1 hne
  obtain ⟨hbuild, -, -, hstatus⟩ := hprepared p
  obtain rfl : status = 0 := hstatus.mpr ⟨hne, hends⟩
  refine ⟨calls, p.emits.files, w', by decide +kernel, hcalls, hrun, hchild, ?_, ?_⟩
  · rw [hchildren, startedIn, List.filter_eq_self.mpr hall, hchild]
    exact List.append_nil _
  · exact fun call hcall =>
      ⟨((hstarted call hcall).mp (hall call hcall)).2, hends call hcall, hbuild call hcall⟩

/-- Where the script fails, the worker is not deployed, and the command fails. -/
example :
    ((runLine notesEnv ["deploy", "--init", "seed.sql"]).calls (fun _ => none)
      ⟨{ notes with exits := [.code 1] }, 0⟩).map Call.child = notesChildren.take 1 ∧
    ((runLine notesEnv ["deploy", "--init", "seed.sql"]).run
      { notes with exits := [.code 1] }).1 = 1 := by
  decide +kernel

end WorkerGen.CommandLine
