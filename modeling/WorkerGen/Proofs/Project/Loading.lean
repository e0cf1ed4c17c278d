import Mathlib
import WorkerGen.Project.Load
import WorkerGen.Proofs.Env.Written
import WorkerGen.Proofs.Host.Looking

/-!
# What loading comes to

Three files of a project are loaded, and each of them may be missing, a directory, kept from being
read, malformed or good.  `Project.Fails` lists the cases in which there is no result, in the order
in which they are found, and `Project.Loads` says what the result is in all others.  One of the two
holds of every run, and no run changes any file (`fails_or_loads`).

What is found is a matter of the view alone: which files there are, which requests are denied, and
what the files hold.  Each of the three steps is a script that only looks, and has an inductive type
of the things that it can come to (`ManifestStep`, `ApiStep`, `EnvStep`), with what has been seen in
each.  The whole is then cases on the three, and the one error that is found is the first of them
(`Fails.unique`).

The environment file is different from the other two.  Whatever is wrong with it is a warning, and
the variables of the command are used as they are; if it is good it sets its variables over those.
-/

namespace WorkerGen

open Script

/-! ## Environment files

A malformed file sets nothing, not even what stands in front of the malformed line. -/

namespace View

/-- Whether an environment file sets a variable to a value: the whole file is well formed, and a
line of it does. -/
def Overrides (v : View) (path : Path) (name value : String) : Prop :=
  v.IsThere path ∧ ∃ text vars, v.text path = .ok text ∧
    EnvFile.Sets (EnvFile.lines text.toList) vars ∧ (vars.map (·.1)).Nodup ∧ (name, value) ∈ vars

/-- Why an environment file that is there sets nothing. -/
inductive EnvFails (v : View) (path : Path) : EnvError → Prop
  | unreadable {reason : IoFault} (there : v.IsThere path) (read : v.text path = .error reason) :
      EnvFails v path ⟨0, .unreadable reason.message⟩
  | malformed {text : String} {e : EnvError} (there : v.IsThere path)
      (read : v.text path = .ok text) (parse : EnvFile.parse text = .error e) : EnvFails v path e

end View

/-! ## Projects

The three files stand below the root of the project.  Only the description has to be there, and that
it is there is asked before anything is read. -/

namespace Project

/-- The path of the API description. -/
def apiPath (p : Project) : Path := p.root.join p.api

/-- The path of the manifest. -/
def manifestPath (p : Project) : Path := p.root.join p.manifest

/-- The path of the environment file. -/
def envPath (p : Project) : Path := p.root.join p.envFile

/-- Whether a manifest that is there can be read. -/
def ManifestReads (p : Project) (v : View) : Prop :=
  v.IsFile p.manifestPath →
    ∃ text m, v.text p.manifestPath = .ok text ∧ Manifest.parse text = .ok m

/-- Why a project cannot be loaded: what comes first is found first. -/
inductive Fails (p : Project) (v : View) : LoadError → Prop
  | noApi (api : ¬v.IsFile p.apiPath) : Fails p v (.noApi p.apiPath)
  | manifestUnreadable {reason : IoFault} (api : v.IsFile p.apiPath)
      (manifest : v.IsFile p.manifestPath) (read : v.text p.manifestPath = .error reason) :
      Fails p v (.unreadable p.manifestPath reason)
  | manifestMalformed {text : String} {e : ManifestError} (api : v.IsFile p.apiPath)
      (manifest : v.IsFile p.manifestPath) (read : v.text p.manifestPath = .ok text)
      (parse : Manifest.parse text = .error e) : Fails p v (.manifest e)
  | apiUnreadable {reason : IoFault} (api : v.IsFile p.apiPath) (manifest : p.ManifestReads v)
      (read : v.text p.apiPath = .error reason) : Fails p v (.unreadable p.apiPath reason)
  | apiMalformed {text : String} {e : ApiError} (api : v.IsFile p.apiPath)
      (manifest : p.ManifestReads v) (read : v.text p.apiPath = .ok text)
      (parse : Api.parse text = .error e) : Fails p v (.api e)

/-- What a project is loaded as. -/
structure Loads (p : Project) (v : View) (l : Loaded) : Prop where
  apiPath : l.apiPath = p.apiPath
  isFile : v.IsFile p.apiPath
  api : ∃ text, v.text p.apiPath = .ok text ∧ Api.parse text = .ok l.config.api
  manifest : v.IsFile p.manifestPath →
    ∃ text, v.text p.manifestPath = .ok text ∧ Manifest.parse text = .ok l.config.bindings
  noManifest : ¬v.IsFile p.manifestPath → l.config.bindings = .empty
  declared : (Compilation.ofLoaded l).declared = true ↔ v.IsFile p.manifestPath
  /-- A variable has the value that the environment file gives it, or else that which it had. -/
  overridden : ∀ name value, v.Overrides p.envPath name value →
    l.config.env.get? name = some value
  ambient : ∀ name, (∀ value, ¬v.Overrides p.envPath name value) →
    l.config.env.get? name = p.ambient.get? name
  /-- There is one warning if there is no manifest, and then one if the environment file fails. -/
  warnings : ∃ first second : List LoadWarning, l.warnings = first ++ second ∧
    (v.IsFile p.manifestPath → first = []) ∧
    (¬v.IsFile p.manifestPath → first = [.noManifest p.manifestPath]) ∧
    (∀ e, v.EnvFails p.envPath e → second = [.badEnv p.envPath e]) ∧
    ((∀ e, ¬v.EnvFails p.envPath e) → second = [])

/-! ## Steps of loading

Each step asks whether there is a file before it reads it, so that a file which is missing is told
from one that cannot be read. -/

/-- What loading a manifest comes to. -/
inductive ManifestStep (v : View) (path : Path) :
    Except LoadError (Manifest × List LoadWarning) → Prop
  | missing (file : ¬v.IsFile path) : ManifestStep v path (.ok (.empty, [.noManifest path]))
  | unreadable {reason : IoFault} (file : v.IsFile path) (read : v.text path = .error reason) :
      ManifestStep v path (.error (.unreadable path reason))
  | malformed {text : String} {e : ManifestError} (file : v.IsFile path)
      (read : v.text path = .ok text) (parse : Manifest.parse text = .error e) :
      ManifestStep v path (.error (.manifest e))
  | parsed {text : String} {m : Manifest} (file : v.IsFile path)
      (read : v.text path = .ok text) (parse : Manifest.parse text = .ok m) :
      ManifestStep v path (.ok (m, []))

/-- What loading a description comes to. -/
inductive ApiStep (v : View) (path : Path) : Except LoadError Api → Prop
  | unreadable {reason : IoFault} (read : v.text path = .error reason) :
      ApiStep v path (.error (.unreadable path reason))
  | malformed {text : String} {e : ApiError} (read : v.text path = .ok text)
      (parse : Api.parse text = .error e) : ApiStep v path (.error (.api e))
  | parsed {text : String} {api : Api} (read : v.text path = .ok text)
      (parse : Api.parse text = .ok api) : ApiStep v path (.ok api)

/-- What loading an environment file comes to. -/
inductive EnvStep (v : View) (path : Path) : Dictionary String × List LoadWarning → Prop
  | missing (there : ¬v.IsThere path) : EnvStep v path (.empty, [])
  | failed {e : EnvError} (fails : v.EnvFails path e) : EnvStep v path (.empty, [.badEnv path e])
  | applied {text : String} {file : EnvFile} (there : v.IsThere path)
      (read : v.text path = .ok text) (parse : EnvFile.parse text = .ok file) :
      EnvStep v path (file.toDictionary, [])

variable (v : View) (path : Path)

/-! ### The steps of loading as scripts

Each script finds what its type of results says, in every view.  Cases are by what there is at the
path and by whether the text can be read and is well formed. -/

lemma finds_readFile : Finds v (readFile path).run ((v.text path).mapError (.unreadable path)) := by
  have htext := finds_readText v path
  rw [readFile]
  cases hread : v.text path with
  | error reason =>
      rw [hread] at htext
      exact htext.bind (finds_done v _)
  | ok text =>
      rw [hread] at htext
      exact htext.bind (finds_done v _)

lemma finds_loadManifest : ∃ r, Finds v (loadManifest path).run r ∧ ManifestStep v path r := by
  obtain ⟨file, hfile, hiff⟩ := finds_isFile v path
  have hread := finds_readFile v path
  rw [loadManifest]
  cases file with
  | false =>
      refine ⟨_, hfile.lift.andThen ?_, .missing fun h => by simpa using hiff.mpr h⟩
      exact (finds_log v _).lift.andThen (finds_done v _)
  | true =>
      have hfileAt := hiff.mp rfl
      cases htext : v.text path with
      | error reason =>
          rw [htext] at hread
          refine ⟨_, hfile.lift.andThen ?_, .unreadable hfileAt htext⟩
          exact (finds_log v _).lift.andThen hread.failed
      | ok text =>
          rw [htext] at hread
          cases hparse : Manifest.parse text with
          | error e =>
              refine ⟨_, hfile.lift.andThen ?_, .malformed hfileAt htext hparse⟩
              refine (finds_log v _).lift.andThen (hread.andThen ?_)
              rw [hparse]
              exact finds_done v _
          | ok m =>
              refine ⟨_, hfile.lift.andThen ?_, .parsed hfileAt htext hparse⟩
              refine (finds_log v _).lift.andThen (hread.andThen ?_)
              rw [hparse]
              exact finds_done v _

lemma finds_loadApi : ∃ r, Finds v (loadApi path).run r ∧ ApiStep v path r := by
  have hread := finds_readFile v path
  rw [loadApi]
  cases htext : v.text path with
  | error reason =>
      rw [htext] at hread
      exact ⟨_, (finds_log v _).lift.andThen hread.failed, .unreadable htext⟩
  | ok text =>
      rw [htext] at hread
      cases hparse : Api.parse text with
      | error e =>
          refine ⟨_, (finds_log v _).lift.andThen (hread.andThen ?_), .malformed htext hparse⟩
          rw [hparse]
          exact finds_done v _
      | ok api =>
          refine ⟨_, (finds_log v _).lift.andThen (hread.andThen ?_), .parsed htext hparse⟩
          rw [hparse]
          exact finds_done v _

/-- An environment file that is malformed is one that cannot be loaded, and no other is. -/
lemma finds_readEnv : ∃ r, Finds v (readEnv path) r ∧
    ((¬v.IsThere path ∧ r = .ok none) ∨ (∃ e, v.EnvFails path e ∧ r = .error e) ∨
      ∃ text file, v.IsThere path ∧ v.text path = .ok text ∧ EnvFile.parse text = .ok file ∧
        r = .ok (some file)) := by
  obtain ⟨there, hthere, hiff⟩ := finds_isThere v path
  have htext := finds_readText v path
  rw [readEnv]
  cases there with
  | false => exact ⟨_, hthere.bind (finds_done v _), .inl ⟨fun h => by simpa using hiff.mpr h, rfl⟩⟩
  | true =>
      have hthereAt := hiff.mp rfl
      cases hread : v.text path with
      | error reason =>
          rw [hread] at htext
          refine ⟨_, hthere.bind (htext.bind (finds_done v _)), .inr (.inl ?_)⟩
          exact ⟨_, .unreadable hthereAt hread, rfl⟩
      | ok text =>
          rw [hread] at htext
          refine ⟨_, hthere.bind (htext.bind (finds_done v _)), .inr ?_⟩
          cases hparse : EnvFile.parse text with
          | error e => exact .inl ⟨e, .malformed hthereAt hread hparse, rfl⟩
          | ok file => exact .inr ⟨text, file, hthereAt, rfl, hparse, rfl⟩

lemma finds_loadEnv : ∃ r, Finds v (loadEnv path) r ∧ EnvStep v path r := by
  obtain ⟨r, hread, ⟨hthere, rfl⟩ | ⟨e, hfails, rfl⟩ | ⟨text, file, hthere, htext, hparse, rfl⟩⟩ :=
    finds_readEnv v path
  · exact ⟨_, hread.bind (finds_done v _), .missing hthere⟩
  · exact ⟨_, hread.bind ((finds_log v _).bind (finds_done v _)), .failed hfails⟩
  · exact ⟨_, hread.bind ((finds_log v _).bind (finds_done v _)), .applied hthere htext hparse⟩

section
variable {v : View} {path : Path}

lemma overrides_iff {name value : String} : v.Overrides path name value ↔
    v.IsThere path ∧ ∃ text file, v.text path = .ok text ∧ EnvFile.parse text = .ok file ∧
      file.toDictionary.get? name = some value := by
  refine and_congr_right fun _ => exists_congr fun text => ?_
  constructor
  · rintro ⟨vars, hread, hsets, hdistinct, hmem⟩
    have hparse : EnvFile.parse text = .ok ⟨vars⟩ := EnvFile.parse_eq_ok_iff.mpr ⟨hsets, hdistinct⟩
    refine ⟨⟨vars⟩, hread, hparse, ?_⟩
    rw [← EnvFile.get?_toDictionary_of_parse hparse]
    exact (lookup_eq_some_iff_mem hdistinct).mpr hmem
  · rintro ⟨file, hread, hparse, hget⟩
    obtain ⟨hsets, hdistinct⟩ := EnvFile.parse_eq_ok_iff.mp hparse
    rw [← EnvFile.get?_toDictionary_of_parse hparse] at hget
    exact ⟨file.vars, hread, hsets, hdistinct, (lookup_eq_some_iff_mem hdistinct).mp hget⟩

/-- What is loaded from an environment file is what it sets. -/
lemma EnvStep.get?_eq_some_iff {d : Dictionary String} {ws : List LoadWarning}
    (h : EnvStep v path (d, ws)) {name value : String} :
    d.get? name = some value ↔ v.Overrides path name value := by
  rw [overrides_iff]
  cases h with
  | missing there => simp [there, Dictionary.get?, Dictionary.empty]
  | failed fails =>
      have hnone : (Dictionary.empty : Dictionary String).get? name = none := rfl
      cases fails with
      | unreadable there read => simp [hnone, read]
      | malformed there read parse =>
          rw [hnone]
          simp only [read, Except.ok.injEq, exists_eq_left', exists_and_left]
          simp [parse]
  | applied there read parse => simp [there, read, parse]

lemma EnvFails.unique {e e' : EnvError} (h : v.EnvFails path e) (h' : v.EnvFails path e') :
    e = e' := by
  cases h <;> cases h' <;> simp_all

lemma EnvStep.warnings {d : Dictionary String} {ws : List LoadWarning}
    (h : EnvStep v path (d, ws)) :
    (∀ e, v.EnvFails path e → ws = [.badEnv path e]) ∧ ((∀ e, ¬v.EnvFails path e) → ws = []) := by
  cases h with
  | missing there =>
      exact ⟨fun e fails => absurd (by cases fails <;> assumption) there, fun _ => rfl⟩
  | failed fails =>
      exact ⟨fun e fails' => by rw [EnvFails.unique fails fails'],
        fun hnone => absurd fails (hnone _)⟩
  | applied there read parse =>
      refine ⟨fun e fails => ?_, fun _ => rfl⟩
      cases fails <;> simp_all

end

/-! ## The whole of loading

Once there is a description, the manifest is read first, then the description, and last the
environment file, which cannot make loading fail. -/

section
variable {p : Project} {v : View}

/-- Only the first thing amiss is found. -/
lemma Fails.unique {e e' : LoadError} (h : p.Fails v e) (h' : p.Fails v e') : e = e' := by
  cases h <;> cases h' <;> simp_all [ManifestReads]

lemma Loads.not_fails {l : Loaded} (h : p.Loads v l) (e : LoadError) : ¬p.Fails v e := by
  obtain ⟨-, isFile, ⟨text, hread, hparse⟩, hmanifest, -, -, -, -, -⟩ := h
  intro hfails
  cases hfails <;> simp_all

lemma ManifestStep.fails {e : LoadError} (api : v.IsFile p.apiPath)
    (h : ManifestStep v p.manifestPath (.error e)) : p.Fails v e := by
  cases h with
  | unreadable file read => exact .manifestUnreadable api file read
  | malformed file read parse => exact .manifestMalformed api file read parse

lemma ManifestStep.reads {found : Manifest × List LoadWarning}
    (h : ManifestStep v p.manifestPath (.ok found)) : p.ManifestReads v := by
  cases h with
  | missing file => exact fun hfile => absurd hfile file
  | parsed file read parse => exact fun _ => ⟨_, _, read, parse⟩

lemma ApiStep.fails {e : LoadError} (api : v.IsFile p.apiPath) (manifest : p.ManifestReads v)
    (h : ApiStep v p.apiPath (.error e)) : p.Fails v e := by
  cases h with
  | unreadable read => exact .apiUnreadable api manifest read
  | malformed read parse => exact .apiMalformed api manifest read parse

/-- No warning about an environment file says that there is no manifest. -/
lemma EnvStep.any_isNoManifest {path : Path} {found : Dictionary String × List LoadWarning}
    (h : EnvStep v path found) : found.2.any LoadWarning.isNoManifest = false := by
  cases h <;> rfl

/-- What the steps come to is what a project is loaded as. -/
lemma loads_of_steps {m : Manifest} {api : Api} {d : Dictionary String}
    {first second : List LoadWarning} (isFile : v.IsFile p.apiPath)
    (hmanifest : ManifestStep v p.manifestPath (.ok (m, first)))
    (hapi : ApiStep v p.apiPath (.ok api)) (henv : EnvStep v p.envPath (d, second)) :
    p.Loads v ⟨⟨m, api, p.ambient.union d⟩, first ++ second, p.apiPath⟩ where
  apiPath := rfl
  isFile := isFile
  api := by
    cases hapi with
    | parsed read parse => exact ⟨_, read, parse⟩
  manifest hfile := by
    cases hmanifest with
    | missing file => exact absurd hfile file
    | parsed file read parse => exact ⟨_, read, parse⟩
  noManifest hfile := by
    cases hmanifest with
    | missing file => rfl
    | parsed file read parse => exact absurd file hfile
  declared := by
    have hsecond := henv.any_isNoManifest
    dsimp only at hsecond
    have hdeclared : (Compilation.ofLoaded ⟨⟨m, api, p.ambient.union d⟩, first ++ second,
        p.apiPath⟩).declared = !(first ++ second).any LoadWarning.isNoManifest := rfl
    rw [hdeclared, List.any_append, hsecond]
    cases hmanifest with
    | missing file => simp [file, LoadWarning.isNoManifest]
    | parsed file read parse => simp [file]
  overridden name value h := by
    rw [Dictionary.get?_union, henv.get?_eq_some_iff.mpr h, Option.some_or]
  ambient name h := by
    have hnone : d.get? name = none :=
      Option.eq_none_iff_forall_ne_some.mpr fun value hvalue =>
        h value (henv.get?_eq_some_iff.mp hvalue)
    rw [Dictionary.get?_union, hnone, Option.none_or]
  warnings := by
    refine ⟨first, second, rfl, fun hfile => ?_, fun hfile => ?_, henv.warnings.1, henv.warnings.2⟩
    · cases hmanifest with
      | missing file => exact absurd hfile file
      | parsed => rfl
    · cases hmanifest with
      | missing => rfl
      | parsed file => exact absurd file hfile

/-- Whatever is seen, a project is loaded or fails, and only the log changes. -/
lemma finds_load (p : Project) (v : View) :
    (∃ e, Finds v p.load.run (.error e) ∧ p.Fails v e) ∨
      ∃ l, Finds v p.load.run (.ok l) ∧ p.Loads v l := by
  obtain ⟨isFile, hfile, hiff⟩ := finds_isFile v p.apiPath
  rw [load]
  cases isFile with
  | false =>
      have hnot : ¬v.IsFile p.apiPath := fun h => by simpa using hiff.mpr h
      exact .inl ⟨_, hfile.lift.andThen (finds_done v _), .noApi hnot⟩
  | true =>
      have hfileAt := hiff.mp rfl
      obtain ⟨found, hmanifest, hmanifestStep⟩ := finds_loadManifest v p.manifestPath
      cases found with
      | error e =>
          exact .inl ⟨e, hfile.lift.andThen hmanifest.failed, hmanifestStep.fails hfileAt⟩
      | ok found =>
          obtain ⟨m, first⟩ := found
          obtain ⟨found, hapi, hapiStep⟩ := finds_loadApi v p.apiPath
          cases found with
          | error e =>
              refine .inl ⟨e, hfile.lift.andThen (hmanifest.andThen hapi.failed), ?_⟩
              exact hapiStep.fails hfileAt hmanifestStep.reads
          | ok api =>
              obtain ⟨⟨d, second⟩, henv, henvStep⟩ := finds_loadEnv v p.envPath
              refine .inr ⟨_, ?_, loads_of_steps hfileAt hmanifestStep hapiStep henvStep⟩
              exact hfile.lift.andThen (hmanifest.andThen (hapi.andThen
                (henv.lift.andThen (finds_done v _))))

end

/-- **A project is loaded unless a file that it needs is not good**, and no file is changed. -/
theorem fails_or_loads (p : Project) (v : View) :
    ∃ result log, p.load.run.runDenying v.denied v.world = (result, { v.world with log := log }) ∧
      (∀ e, result = .error e ↔ p.Fails v e) ∧ ∀ l, result = .ok l → p.Loads v l := by
  obtain ⟨e, hfinds, hfails⟩ | ⟨l, hfinds, hloads⟩ := finds_load p v
  · obtain ⟨log, hrun⟩ := hfinds v.world.log
    refine ⟨.error e, log, hrun, fun e' => ⟨?_, fun h => by rw [hfails.unique h]⟩, by simp⟩
    rintro ⟨rfl⟩
    exact hfails
  · obtain ⟨log, hrun⟩ := hfinds v.world.log
    refine ⟨.ok l, log, hrun, fun e => ?_, ?_⟩
    · exact ⟨by simp, fun h => absurd h (hloads.not_fails e)⟩
    · rintro l' ⟨rfl⟩
      exact hloads

end Project

end WorkerGen
