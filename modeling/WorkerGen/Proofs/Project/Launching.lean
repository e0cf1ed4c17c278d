import Mathlib
import WorkerGen.Project.Launch
import WorkerGen.Proofs.Host.Children

/-!
# The calls of a launch

A launch executes a script, if there is one, and then launches the worker; each is one call of the
tool of the platform.  `Course` lists the ways in which this can go, and `course_launch` says that a
launch goes one of them, whatever is refused, and succeeds just if it makes a call and all that it
makes succeed.

A case of `Course` has the calls that are made in it, in order, and what has held for it to be that
case: whether there is a script, whether there is a database to execute it against, and how the
first call has ended.  So a case can be told from the calls, and what a launch does is known when it
is known how its calls have ended.
-/

namespace WorkerGen.Launch

open Script

/-- A call of the tool with some arguments. -/
def toolWith (env : Dictionary String) (arguments : List String) : Child :=
  ⟨runner, tool :: arguments, env⟩

/-- What executes a script against a database. -/
def execution (config : Config) (options : LaunchOptions) (database : D1Database) (script : Path) :
    Child :=
  toolWith config.env (executeArguments database.targetName script options.site)

/-- What runs or deploys the worker. -/
def worker (config : Config) (options : LaunchOptions) : Child :=
  toolWith config.env (launchArguments (options.output.join "index.js") options.site)

/-- The calls that a launch may make. -/
inductive Course (config : Config) (options : LaunchOptions) : List Call → Prop
  /-- There is a script and no database: nothing is called. -/
  | noDatabase {script : Path} (init : options.init = some script)
      (none : config.bindings.d1Databases = []) : Course config options []
  /-- The script is not executed, or that fails: the worker is not launched. -/
  | notApplied {script : Path} {database : D1Database} {first : Call}
      (init : options.init = some script)
      (primary : config.bindings.d1Databases.head? = some database)
      (child : first.child = execution config options database script)
      (failed : ¬first.Succeeded) : Course config options [first]
  /-- The script is executed, and then the worker is launched. -/
  | applied {script : Path} {database : D1Database} {first second : Call}
      (init : options.init = some script)
      (primary : config.bindings.d1Databases.head? = some database)
      (child : first.child = execution config options database script)
      (succeeded : first.Succeeded) (launched : second.child = worker config options) :
      Course config options [first, second]
  /-- There is no script: the worker is launched. -/
  | plain {call : Call} (init : options.init = none)
      (launched : call.child = worker config options) : Course config options [call]

namespace Course

variable {config : Config} {options : LaunchOptions} {cs : List Call}

/-- All child processes see the environment of the project. -/
lemma env_eq (h : Course config options cs) : ∀ call ∈ cs, call.child.env = config.env := by
  cases h with
  | noDatabase => simp
  | notApplied _ _ child => simp [child, execution, toolWith]
  | applied _ _ child _ launched => simp [child, launched, execution, worker, toolWith]
  | plain _ launched => simp [launched, worker, toolWith]

end Course

variable {refuses : ℕ → Option IoFault} {config : Config} {options : LaunchOptions} {m : RunState}

/-- A launch only logs and calls. -/
lemma asks_runTool (env : Dictionary String) (arguments : List String) :
    (runTool env arguments).run.Asks fun q => q.IsLook ∨ q.IsStart := by
  refine Asks.liftThen ((looks_log _).mono fun _ => .inl) fun _ =>
    Asks.liftThen (asks_request (.inr trivial)) ?_
  rintro (reason | ⟨_ | value⟩ | _) <;> exact asks_done _

lemma asks_launch (config : Config) (options : LaunchOptions) :
    (launch config options).run.Asks fun q => q.IsLook ∨ q.IsStart := by
  have hscript : (executeScript config options.site options.init).run.Asks
      fun q => q.IsLook ∨ q.IsStart := by
    cases options.init with
    | none => exact asks_done _
    | some script =>
        rw [executeScript]
        cases config.bindings.primaryDatabase? with
        | none => exact asks_done _
        | some database => exact (asks_runTool _ _).tryCatch fun _ => asks_done _
  exact hscript.andThen fun _ => asks_runTool _ _

/-! ### One call

The tool is started through the same program at every site, with a command line that is made from
its arguments.  That it cannot be started and that it ends badly are two errors, and both end the
launch. -/

/-- What comes of running the tool, by how that ends. -/
def toolResult (line : String) : Except IoFault ExitStatus → Except LaunchError Unit
  | .error _ => .error (.notStarted line)
  | .ok (.code 0) => .ok ()
  | .ok status => .error (.failed line status)

lemma toolResult_eq_ok_iff {line : String} {ending : Except IoFault ExitStatus} {u : Unit} :
    toolResult line ending = .ok u ↔ ending = .ok (.code 0) := by
  rcases ending with (reason | ⟨_ | value⟩ | _) <;> simp [toolResult]

/-- The command line of the tool. -/
def commandLine (arguments : List String) : String := " ".intercalate (runner :: tool :: arguments)

lemma run_runTool (env : Dictionary String) (arguments : List String) :
    (runTool env arguments).run
      = log [⟨.debug, "running wrangler", [("command", commandLine arguments)]⟩] >>= fun _ =>
        request (.start runner (tool :: arguments) env) >>= fun ending =>
          .done (toolResult (commandLine arguments) ending) := by
  rw [runTool, ExceptT.run_bind_lift]
  refine congrArg _ (funext fun _ => ?_)
  rw [ExceptT.run_bind_lift]
  refine congrArg _ (funext ?_)
  rintro (reason | ⟨_ | value⟩ | _) <;> rfl

/-- **Running the tool** is one call, and succeeds just if that does. -/
lemma runTool_spec (refuses : ℕ → Option IoFault) (env : Dictionary String)
    (arguments : List String) (m : RunState) :
    ∃ call, (runTool env arguments).run.calls refuses m = [call] ∧
      call.child = toolWith env arguments ∧
        (((runTool env arguments).run.ends refuses m).1 = .ok () ↔ call.Succeeded) := by
  rw [run_runTool, ends_bind, calls_bind, Quiet.calls (looks_log _).quiet, List.nil_append]
  exact ⟨⟨_, _, _, _⟩, rfl, rfl, toolResult_eq_ok_iff⟩

/-! ### The whole launch

By cases on whether there is a script and a database for it, and on how the first call ends. -/

/-- A launch with a script and a database runs the tool twice, unless the first fails. -/
lemma run_launch {script : Path} {database : D1Database} (hinit : options.init = some script)
    (hprimary : config.bindings.d1Databases.head? = some database) :
    (launch config options).run
      = (runTool config.env (executeArguments database.targetName script options.site)).run >>=
        fun
        | .ok () =>
          (runTool config.env (launchArguments (options.output.join "index.js") options.site)).run
        | .error e => .done (.error (.notApplied script e)) := by
  have hprimary : config.bindings.primaryDatabase? = some database := hprimary
  rw [launch, hinit, executeScript, hprimary]
  dsimp only
  rw [ExceptT.run_bind, ExceptT.run_tryCatch, bind_assoc]
  refine congrArg _ (funext ?_)
  rintro (e | u) <;> rfl

/-- **A launch goes one of its ways**, and succeeds just if it makes a call and all that it makes
succeed. -/
theorem course_launch (refuses : ℕ → Option IoFault) (config : Config) (options : LaunchOptions)
    (m : RunState) :
    Course config options ((launch config options).run.calls refuses m) ∧
      (((launch config options).run.ends refuses m).1 = .ok () ↔
        (launch config options).run.calls refuses m ≠ [] ∧
          ∀ call ∈ (launch config options).run.calls refuses m, call.Succeeded) := by
  cases hinit : options.init with
  | none =>
      have hrun : (launch config options).run = (runTool config.env
          (launchArguments (options.output.join "index.js") options.site)).run := by
        rw [launch, hinit]
        rfl
      obtain ⟨call, hcalls, hchild, hends⟩ := runTool_spec refuses config.env
        (launchArguments (options.output.join "index.js") options.site) m
      rw [hrun, hcalls, hends]
      exact ⟨.plain hinit hchild, by simp⟩
  | some script =>
      cases hprimary : config.bindings.d1Databases.head? with
      | none =>
          have hnone : config.bindings.d1Databases = [] := List.head?_eq_none_iff.mp hprimary
          have hrun : (launch config options).run = .done (.error .noDatabase) := by
            rw [launch, hinit, executeScript, Manifest.primaryDatabase?, hprimary]
            rfl
          rw [hrun]
          exact ⟨.noDatabase hinit hnone, by simp [Script.calls, Script.ends]⟩
      | some database =>
          obtain ⟨first, hcalls, hchild, hends⟩ := runTool_spec refuses config.env
            (executeArguments database.targetName script options.site) m
          rw [run_launch hinit hprimary, calls_bind, ends_bind, hcalls]
          generalize (runTool config.env (executeArguments database.targetName script
            options.site)).run.ends refuses m = after at hends ⊢
          obtain ⟨(e | u), m'⟩ := after
          · have hfailed : ¬first.Succeeded := fun h => by cases hends.mpr h
            exact ⟨.notApplied hinit hprimary hchild hfailed,
              by simp [Script.ends, Script.calls, hfailed]⟩
          · have hok : first.Succeeded := hends.mp rfl
            obtain ⟨second, hcalls', hchild', hends'⟩ := runTool_spec refuses config.env
              (launchArguments (options.output.join "index.js") options.site) m'
            dsimp only
            rw [hcalls', hends']
            exact ⟨.applied hinit hprimary hchild hok hchild', by simp [hok]⟩

end WorkerGen.Launch
