import Mathlib
import WorkerGen.Build.Write
import WorkerGen.Proofs.Host.Runs

/-!
# What scripts ask for

`Script.Asks` says that all requests of a script are of a kind, whatever they are answered.  The
rules follow the structure of scripts, as do those for what a run ensures.  Unlike those it knows
nothing of worlds, so that what a script never asks for is known without looking at a single run.

Two kinds matter.  A script that *looks* asks for what is there, and adds to the log or to what is
displayed; it leaves the files as they are.  A *quiet* script starts no child process.  All that is
done with files is quiet, however it goes, and so is the writing of a build (`quiet_write`).  It is
shown script by script, in the order in which they are made of one another.
-/

namespace WorkerGen

namespace Request

/-! ## Kinds of requests

A kind is a property of requests, and a script asks for it at every request, whatever the answers
before have been. -/

/-- Whether a request is to start a child process. -/
def IsStart : Request → Prop
  | .start .. => True
  | _ => False

/-- Whether a request looks at the system, or adds to the log or to what is displayed. -/
def IsLook : Request → Prop
  | .kind .. | .read _ | .workDir | .log _ | .display _ => True
  | _ => False

lemma IsLook.not_isStart {q : Request} (h : q.IsLook) : ¬q.IsStart := by
  cases q <;> first | exact id | exact h.elim

end Request

namespace Script

variable {α β ε : Type} {P R : Request → Prop}

/-- Whether all requests of a script are of a kind, whatever they are answered. -/
def Asks (P : Request → Prop) : Script α → Prop
  | .done _ => True
  | .ask q next => P q ∧ ∀ answer, Asks P (next answer)

lemma asks_done (a : α) : (Script.done a).Asks P := trivial

lemma asks_ask_iff {q : Request} {next : Except IoFault q.Answer → Script α} :
    (Script.ask q next).Asks P ↔ P q ∧ ∀ answer, (next answer).Asks P :=
  Iff.rfl

lemma asks_request {q : Request} (h : P q) : (request q).Asks P := ⟨h, fun _ => trivial⟩

namespace Asks

lemma mono (h : ∀ q, P q → R q) : ∀ {s : Script α}, s.Asks P → s.Asks R
  | .done _, _ => trivial
  | .ask q _, hs => ⟨h q hs.1, fun answer => mono h (hs.2 answer)⟩

lemma bind {f : α → Script β} : ∀ {s : Script α}, s.Asks P → (∀ a, (f a).Asks P) →
    (s >>= f).Asks P
  | .done a, _, hf => hf a
  | .ask _ _, hs, hf => ⟨hs.1, fun answer => bind (hs.2 answer) hf⟩

end Asks

-- What a script asks is followed by the rules, not by running it.
attribute [irreducible] Asks

namespace Asks

/-! ### Steps that may fail

Whatever follows a failure is left out, so it is enough that both parts ask for nothing else. -/

lemma lift {s : Script α} (h : s.Asks P) : (ExceptT.lift s : ExceptT ε Script α).run.Asks P :=
  h.bind fun _ => asks_done _

lemma andThen {x : ExceptT ε Script α} {f : α → ExceptT ε Script β} (hx : x.run.Asks P)
    (hf : ∀ a, (f a).run.Asks P) : (x >>= f).run.Asks P :=
  hx.bind fun
    | .ok a => hf a
    | .error _ => asks_done _

/-- A step that does not fail, followed by others. -/
lemma liftThen {s : Script α} {f : α → ExceptT ε Script β} (hs : s.Asks P)
    (hf : ∀ a, (f a).run.Asks P) : (ExceptT.lift s >>= f).run.Asks P :=
  hs.lift.andThen hf

lemma tryCatch {x : ExceptT ε Script α} {f : ε → ExceptT ε Script α} (hx : x.run.Asks P)
    (hf : ∀ e, (f e).run.Asks P) : (MonadExcept.tryCatch x f).run.Asks P :=
  hx.bind fun
    | .ok _ => asks_done _
    | .error e => hf e

end Asks

lemma asks_log (h : ∀ event, P (.log event)) : ∀ events, (log events).Asks P
  | [] => asks_done _
  | event :: rest => (asks_request (h event)).bind fun _ => asks_log h rest

lemma asks_display (h : ∀ item, P (.display item)) : ∀ items, (display items).Asks P
  | [] => asks_done _
  | item :: rest => (asks_request (h item)).bind fun _ => asks_display h rest

/-! ## Looking

A script that looks may be answered anything.  What it makes of the answers is no matter here. -/

lemma looks_log (events : List LogEvent) : (log events).Asks Request.IsLook :=
  asks_log (fun _ => trivial) events

lemma looks_display (items : List DisplayItem) : (display items).Asks Request.IsLook :=
  asks_display (fun _ => trivial) items

lemma looks_isKind (kind : FileKind) (p : Path) : (isKind kind p).Asks Request.IsLook :=
  (asks_request trivial).bind fun answer => by cases answer <;> exact asks_done _

lemma looks_isThere (p : Path) : (isThere p).Asks Request.IsLook :=
  (asks_request trivial).bind fun answer => by cases answer <;> exact asks_done _

lemma looks_readText (p : Path) : (readText p).run.Asks Request.IsLook :=
  Asks.andThen (asks_request trivial) fun content => by
    cases String.fromUTF8? content <;> exact asks_done _

/-! ## Scripts that start nothing

Recursive scripts are quiet by induction on what they recur on: the paths that are to be made, the
entries of a directory and the depth of a tree, and the number of names that are tried. -/

/-- Whether a script starts no child process, whatever its requests are answered. -/
abbrev Quiet (s : Script α) : Prop := s.Asks fun q => ¬q.IsStart

lemma Asks.quiet {s : Script α} (h : s.Asks Request.IsLook) : s.Quiet :=
  h.mono fun _ => Request.IsLook.not_isStart

lemma quiet_needDir (p : Path) : (needDir p).run.Quiet :=
  Asks.liftThen (looks_isKind _ p).quiet fun there => by cases there <;> exact asks_done _

lemma quiet_firstMade : ∀ paths, (firstMade paths).run.Quiet
  | [] => asks_done _
  | p :: rest => by
      rw [firstMade]
      split_ifs
      · exact asks_done _
      refine Asks.liftThen (asks_request id) ?_
      rintro (reason | u)
      · cases reason <;> first
          | exact asks_done _
          | exact (quiet_firstMade rest).andThen fun _ => asks_done _
          | exact (quiet_needDir p).andThen fun _ => asks_done _
      · exact asks_done _

lemma quiet_makeEach : ∀ paths, (makeEach paths).run.Quiet
  | [] => asks_done _
  | p :: rest => by
      rw [makeEach]
      refine Asks.liftThen (asks_request id) ?_
      rintro (reason | u)
      · cases reason <;> first
          | exact asks_done _
          | exact (quiet_needDir p).andThen fun _ => quiet_makeEach rest
      · exact quiet_makeEach rest

lemma quiet_makeDirs (p : Path) : (makeDirs p).run.Quiet :=
  (quiet_firstMade _).andThen fun _ => quiet_makeEach _

/-- Opening a file and writing to it. -/
lemma quiet_createFill (p : Path) (content : ByteArray) :
    (attempt (.create p) >>= fun (dir, name) => attempt (.fill dir name content)).run.Quiet := by
  refine Asks.andThen (asks_request id) ?_
  rintro ⟨dir, name⟩
  exact asks_request id

lemma quiet_writeText (p : Path) (text : String) : (writeText p text).run.Quiet := by
  rw [writeText, writeFile]
  cases p.parent? with
  | none => exact quiet_createFill p _
  | some dir => exact (quiet_makeDirs dir).andThen fun _ => quiet_createFill p _

lemma Asks.tolerant {step : Attempt Unit} (h : step.run.Asks P) : (tolerant step).run.Asks P :=
  h.tryCatch fun reason => by cases reason <;> exact asks_done _

lemma quiet_removeEntries {empty : Location → Attempt Unit} (h : ∀ dir, (empty dir).run.Quiet)
    (dir : Location) : ∀ entries, (removeEntries empty dir entries).run.Quiet
  | [] => asks_done _
  | (name, kind) :: rest => by
      refine Asks.andThen (Asks.tolerant ?_) fun _ => quiet_removeEntries h dir rest
      cases kind with
      | dir => exact (h _).andThen fun _ => asks_request id
      | file | link => exact asks_request id

lemma quiet_emptyDir : ∀ depth dir, (emptyDir depth dir).run.Quiet
  | 0, _ => asks_done _
  | depth + 1, dir =>
    Asks.andThen (asks_request id) fun entries =>
      quiet_removeEntries (quiet_emptyDir depth) dir entries

lemma quiet_removeAll (p : Path) : (removeAll p).run.Quiet := by
  refine Asks.andThen (asks_request id) fun kind => ?_
  have htree : (removeTree p).run.Quiet :=
    Asks.andThen (asks_request id) fun dir => (quiet_emptyDir depthLimit dir).andThen fun _ =>
      Asks.tolerant (asks_request id)
  cases kind with
  | link => exact asks_request id
  | file | dir => exact htree

lemma quiet_makeStagingIn (dir : Path) : ∀ attempts, (makeStagingIn dir attempts).run.Quiet
  | 0 => asks_done _
  | attempts + 1 => by
      refine Asks.andThen (asks_request id) fun name => Asks.liftThen (asks_request id) ?_
      rintro (reason | u)
      · cases reason <;> first | exact asks_done _ | exact quiet_makeStagingIn dir attempts
      · exact asks_done _

lemma quiet_makeStaging (dir : Path) : (makeStaging dir).run.Quiet := by
  rw [makeStaging]
  split_ifs
  · exact quiet_makeStagingIn dir _
  · exact Asks.andThen (asks_request id) fun _ => quiet_makeStagingIn _ _

end Script

namespace Build

open Script

lemma quiet_writing {α : Type} {path : Path} {step : Attempt α} (h : step.run.Quiet) :
    (writing path step).run.Quiet :=
  h.bind fun result => by cases result <;> exact asks_done _

lemma quiet_reset (output : Path) : (reset output).run.Quiet :=
  (quiet_removeAll output).tolerant.andThen fun _ => quiet_makeDirs _

lemma quiet_writeFiles (output : Path) : ∀ files, (writeFiles output files).run.Quiet
  | [] => asks_done _
  | file :: rest => by
      rw [writeFiles]
      have hfile : (writing (output.join file.path)
          (writeText (output.join file.path) file.content)).run.Quiet :=
        quiet_writing (quiet_writeText _ _)
      exact hfile.andThen fun _ => quiet_writeFiles output rest

lemma quiet_swap (staged output previous : Path) : (swap staged output previous).run.Quiet := by
  refine Asks.liftThen (asks_request id) ?_
  rintro (reason | kind)
  · exact quiet_writing (asks_request id)
  refine (quiet_writing (asks_request id)).andThen fun _ => Asks.liftThen (asks_request id) ?_
  rintro (reason | u)
  · refine Asks.liftThen (asks_request id) ?_
    rintro (restore | u)
    · exact Asks.liftThen (looks_log _).quiet fun _ => asks_done _
    · exact asks_done _
  · exact asks_done _

lemma quiet_stage (staging output : Path) (files : List OutputFile) :
    (stage staging output files).run.Quiet :=
  (quiet_writing (quiet_reset _)).andThen fun _ => (quiet_writeFiles _ files).andThen fun _ =>
    (quiet_swap _ _ _).andThen fun _ => (looks_log _).quiet.lift

lemma quiet_writeStaged (output : Path) (files : List OutputFile) :
    (writeStaged output files).run.Quiet := by
  rw [writeStaged]
  refine (quiet_writing (quiet_makeDirs _)).andThen fun _ => ?_
  refine (quiet_writing (quiet_makeStaging _)).andThen fun staging => ?_
  refine (quiet_stage staging output files).liftThen ?_
  rintro (e | u)
  · exact (quiet_removeAll staging).liftThen fun _ => asks_done _
  · exact quiet_writing (quiet_removeAll staging)

/-- **Writing a build starts no child process.** -/
theorem quiet_write (strategy : WriteStrategy) (output : Path) (files : List OutputFile) :
    (write strategy output files).run.Quiet := by
  cases strategy with
  | staged => exact quiet_writeStaged output files
  | inPlace =>
      exact (quiet_writing (quiet_reset output)).andThen fun _ => quiet_writeFiles output files

end Build

end WorkerGen
