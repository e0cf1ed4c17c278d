import WorkerGen.Build.Write
import WorkerGen.Project.Launch

/-!
# The command line

What the arguments of the program ask for.  The first argument names a command, and the others are
options: a long name behind two dashes or a letter behind one, and a value where the option takes
one.  The value is the next argument, which may then not look like an option, or follows in the same
argument, behind `=` or right behind the letter.  No option may be given twice, and none of the
values may be empty.

`read` answers a command, a text that is asked for, or why the arguments ask for nothing.  Which
options a command has is a list that is given to `readOptions`, so that all commands read their
arguments in one way.  Help may be asked for among the options, and is answered as soon as it is.
-/

namespace WorkerGen.CommandLine

/-- What a command does. -/
inductive Verb where
  | check
  | build (preview : Bool) (strategy : WriteStrategy)
  | launch (site : LaunchSite) (init : Option Path)
deriving DecidableEq

/-- A command with its files. -/
structure Command where
  verb : Verb
  /-- The API description, if it is named. -/
  file : Option Path
  /-- The output directory. -/
  output : Path
deriving DecidableEq

/-- What a command line asks for. -/
inductive Invocation where
  | help
  | version
  /-- Completions for a shell. -/
  | completions (shell : String)
  | command (command : Command)
deriving DecidableEq

/-- Why a command line asks for nothing. -/
inductive UsageError where
  | noCommand
  | unknownCommand (name : String)
  | unexpected (argument : String)
  | noValue (option : String)
  | repeated (option : String)
deriving DecidableEq

/-- The wording of an error. -/
def UsageError.message : UsageError → String
  | .noCommand => "a command is required"
  | .unknownCommand name => "unrecognized subcommand '" ++ name ++ "'"
  | .unexpected argument => "unexpected argument '" ++ argument ++ "' found"
  | .noValue option => "a value is required for '--" ++ option ++ "'"
  | .repeated option => "the argument '--" ++ option ++ "' cannot be used multiple times"

/-! ## Options

The arguments are read from the front, with those that have been given and the option that waits for
its value. -/

/-- An option of a command. -/
structure OptionSpec where
  name : String
  letter : Option Char
  takesValue : Bool
deriving DecidableEq

/-- The options that are given, with their values. -/
abbrev Given := List (String × String)

/-- Adds an option, which may not be given yet and whose value may not be empty. -/
def give (spec : OptionSpec) (value : String) (given : Given) : Except UsageError Given :=
  if (given.lookup spec.name).isSome then .error (.repeated spec.name)
  else if spec.takesValue && value.isEmpty then .error (.noValue spec.name)
  else .ok ((spec.name, value) :: given)

/-- Whether an argument looks like an option. -/
def looksLikeOption (argument : String) : Bool :=
  match argument.toList with
  | '-' :: _ :: _ => true
  | _ => false

/-- The part of an argument behind its dashes, divided at the first `=`. -/
def divide (s : List Char) : List Char × Option String :=
  match s.dropWhile (· != '=') with
  | [] => (s, none)
  | _ :: value => (s.takeWhile (· != '='), some (String.ofList value))

/-- Whether an argument asks for what a long name and a letter stand for. -/
def asksFor (name : String) (letter : Char) (argument : String) : Bool :=
  argument = "--" ++ name || argument.startsWith (String.ofList ['-', letter])

/-- Whether an argument asks for help. -/
def asksForHelp : String → Bool := asksFor "help" 'h'

/-- The option that an argument begins, with the value in that argument.  None stands for help. -/
def readOption (specs : List OptionSpec) (argument : String) :
    Except UsageError (Option (OptionSpec × Option String)) :=
  if asksForHelp argument then .ok none
  else match argument.toList with
  | '-' :: '-' :: rest =>
    let (name, value) := divide rest
    match specs.find? fun spec => spec.name.toList == name with
    | some spec =>
      if value.isSome && !spec.takesValue then .error (.unexpected argument)
      else .ok (some (spec, value))
    | none => .error (.unexpected argument)
  | '-' :: letter :: rest =>
    match specs.find? (·.letter == some letter) with
    | some spec =>
      if rest.isEmpty then .ok (some (spec, none))
      else
        let value := match rest with
          | '=' :: value => value
          | value => value
        .ok (some (spec, some (String.ofList value)))
    | none => .error (.unexpected argument)
  | _ => .error (.unexpected argument)

/-- The options in arguments; none if help is asked for.  `waiting` is an option whose value is the
next argument. -/
def readOptions (specs : List OptionSpec) : (waiting : Option OptionSpec) → Given →
    List String → Except UsageError (Option Given)
  | none, given, [] => .ok (some given)
  | some spec, _, [] => .error (.noValue spec.name)
  | some spec, given, argument :: rest =>
    if looksLikeOption argument then .error (.noValue spec.name)
    else do readOptions specs none (← give spec argument given) rest
  | none, given, argument :: rest =>
    if argument = "--" then
      match rest with
      | [] => .ok (some given)
      | extra :: _ => .error (.unexpected extra)
    else do
      match ← readOption specs argument with
      | none => return none
      | some (spec, some value) => readOptions specs none (← give spec value given) rest
      | some (spec, none) =>
        if spec.takesValue then readOptions specs (some spec) given rest
        else readOptions specs none (← give spec "" given) rest

/-! ## Commands -/

/-- The option that names the API description. -/
def fileOption : OptionSpec := ⟨"file", some 'f', true⟩

/-- The option that names the output directory. -/
def outOption : OptionSpec := ⟨"out", some 'o', true⟩

/-- The option that names a script for the database. -/
def initOption : OptionSpec := ⟨"init", none, true⟩

/-- The option that asks for a preview. -/
def previewOption : OptionSpec := ⟨"dry-run", none, false⟩

/-- The option that asks for a build in place. -/
def inPlaceOption : OptionSpec := ⟨"in-place", none, false⟩

/-- The usual output directory. -/
def defaultOutput : Path := "build"

/-- The value of an option as a path. -/
def Given.path? (given : Given) (spec : OptionSpec) : Option Path :=
  (given.lookup spec.name).map Path.mk

/-- Whether an option is given. -/
def Given.has (given : Given) (spec : OptionSpec) : Bool := (given.lookup spec.name).isSome

/-- Reads the options of a command. -/
def readCommand (specs : List OptionSpec) (verb : Given → Verb) (arguments : List String) :
    Except UsageError Invocation := do
  match ← readOptions specs none [] arguments with
  | none => return .help
  | some given =>
    return .command ⟨verb given, Given.path? given fileOption,
      (Given.path? given outOption).getD defaultOutput⟩

/-- The command that launches a worker. -/
def readLaunch (site : LaunchSite) : List String → Except UsageError Invocation :=
  readCommand [fileOption, outOption, initOption] fun given =>
    .launch site (Given.path? given initOption)

/-- The shells that there are completions for. -/
def shells : List String := ["bash", "elvish", "fish", "powershell", "zsh"]

/-- Reads the arguments of the command for completions. -/
def readCompletions : List String → Except UsageError Invocation
  | [] => .error (.noValue "shell")
  | [shell] =>
    if shells.contains shell then .ok (.completions shell)
    else if asksForHelp shell then .ok .help
    else .error (.unexpected shell)
  | first :: extra :: _ => if asksForHelp first then .ok .help else .error (.unexpected extra)

/-- The names of the commands. -/
def commandNames : List String := ["local", "deploy", "build", "check", "completions", "help"]

/-- Reads the arguments of the command for help: at most the name of a command. -/
def readHelp : List String → Except UsageError Invocation
  | [] => .ok .help
  | name :: rest =>
    if commandNames.contains name then
      match rest with
      | [] => .ok .help
      | extra :: _ => .error (.unknownCommand extra)
    else .error (.unknownCommand name)

/-- Reads a command line that begins with no command. -/
def readTop (argument : String) : Except UsageError Invocation :=
  if asksForHelp argument then .ok .help
  else if asksFor "version" 'V' argument then .ok .version
  else if looksLikeOption argument then .error (.unexpected argument)
  else .error (.unknownCommand argument)

/-- Reads a command line. -/
def read : List String → Except UsageError Invocation
  | [] => .error .noCommand
  | name :: rest =>
    match name with
    | "check" => readCommand [fileOption] (fun _ => .check) rest
    | "build" =>
      readCommand [fileOption, outOption, previewOption, inPlaceOption]
        (fun given => .build (Given.has given previewOption)
          (if Given.has given inPlaceOption then .inPlace else .staged)) rest
    | "local" => readLaunch .here rest
    | "deploy" => readLaunch .remote rest
    | "completions" => readCompletions rest
    | "help" => readHelp rest
    | _ => readTop name

end WorkerGen.CommandLine
