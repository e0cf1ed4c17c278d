import Mathlib
import WorkerGen.Proofs.Build.Atomicity
import WorkerGen.Proofs.Host.Requests

/-!
# The child processes of a run

`Script.calls` lists what a run asks to start, in order, each with the world in which it is asked
for and how it ends.  Any request may be refused, as it may in `Script.runRefusing`.  A call starts
a child process just if it is not refused and the child process can be started, that is, its program
is found and its texts can be passed on.  Three laws tie the calls to the world, for every script
and by induction on it:

* `children_ends` — what the world has recorded at the end are the calls that have started
  something.
* `started_calls` — which calls do, in terms of the world at the beginning: where programs are found
  does not change.
* `exit_calls` — the child processes end as the world has it, one after another.

A run goes through the parts of its script one after another.  `Leads` says that from some point on
it goes as the run of another script, with no calls before.  A *quiet* part, which starts nothing,
always leads on (`Quiet.leads`), so that the calls of a long run are those of its last part.
-/

namespace WorkerGen

/-! ## Calls

A run is followed request by request, with the world and the number of requests so far.  What it
comes to that way is what `Script.runRefusing` comes to (`runRefusing_eq_ends`). -/

/-- A request to start a child process. -/
structure Call where
  /-- The world in which it is asked for. -/
  world : World
  /-- The number of requests before it. -/
  index : ℕ
  child : Child
  /-- How the child process ends, or why it is not started. -/
  ending : Except IoFault ExitStatus

namespace Call

/-- Whether a child process has been started. -/
def started (c : Call) : Bool := c.ending.isOk

/-- Whether a child process has been started and has ended well. -/
def Succeeded (c : Call) : Prop := c.ending = .ok (.code 0)

end Call

/-- How far a run has come: the world, and how many requests there have been. -/
structure RunState where
  world : World
  index : ℕ

namespace World

/-- Whether two worlds have the same files, seen from the same working directory, and will have the
same names that are hard to guess. -/
structure SameFiles (w w' : World) : Prop where
  files : w'.files = w.files
  workDir : w'.workDir = w.workDir
  randomNames : w'.randomNames = w.randomNames

namespace SameFiles

variable {w w' w'' : World}

lemma refl (w : World) : w.SameFiles w := ⟨rfl, rfl, rfl⟩

lemma trans (h : w.SameFiles w') (h' : w'.SameFiles w'') : w.SameFiles w'' :=
  ⟨h'.files.trans h.files, h'.workDir.trans h.workDir, h'.randomNames.trans h.randomNames⟩

lemma isSound (h : w.SameFiles w') (hw : w.IsSound) : w'.IsSound := by
  obtain ⟨hfiles, hdir, hnames⟩ := h
  exact ⟨by rw [hfiles, hdir]; exact hw.workDir, hdir ▸ hw.names, hnames ▸ hw.randomNames⟩

lemma hasBuild (h : w.SameFiles w') {p : Path} {files : List OutputFile}
    (hbuild : w.HasBuild p files) : w'.HasBuild p files := by
  rwa [HasBuild, standing, h.files, h.workDir]

end SameFiles

/-- What looks at the system, or starts a child process, leaves the files. -/
lemma sameFiles_answer (w : World) {q : Request} (h : q.IsLook ∨ q.IsStart) :
    w.SameFiles (w.answer q).2 := by
  cases q with
  | start program arguments env =>
      rw [answer]
      cases hstart : w.start ⟨program, arguments, env⟩ with
      | error reason => exact .refl w
      | ok started =>
          obtain ⟨status, w'⟩ := started
          obtain ⟨-, -, rfl⟩ := start_eq_ok_iff.mp hstart
          exact ⟨rfl, rfl, rfl⟩
  | kind | read | workDir | log | display => exact ⟨rfl, rfl, rfl⟩
  | openDir | entries | create | fill | makeDir | removeDir | removeFile | removeDirIn
  | removeFileIn | makeLink | rename | randomName =>
      exact absurd h (by simp [Request.IsLook, Request.IsStart])

end World

namespace Script

section
variable (refuses : ℕ → Option IoFault) {α β ε : Type}

/-- The answer to a request that may be refused, and the state after it. -/
def reply (q : Request) (m : RunState) : Except IoFault q.Answer × RunState :=
  match refuses m.index with
  | some reason => (.error reason, ⟨m.world, m.index + 1⟩)
  | none => ((m.world.answer q).1, ⟨(m.world.answer q).2, m.index + 1⟩)

/-- The result of a run and the state at its end. -/
def ends : Script α → RunState → α × RunState
  | .done a, m => (a, m)
  | .ask q next, m => ends (next (reply refuses q m).1) (reply refuses q m).2

/-- A request as a call, if it is one. -/
def call? (m : RunState) : (q : Request) → Except IoFault q.Answer → Option Call
  | .start program arguments env, ending =>
      some ⟨m.world, m.index, ⟨program, arguments, env⟩, ending⟩
  | _, _ => none

/-- The calls of a run, in order. -/
def calls : Script α → RunState → List Call
  | .done _, _ => []
  | .ask q next, m =>
    (call? m q (reply refuses q m).1).toList ++
      calls (next (reply refuses q m).1) (reply refuses q m).2

/-- A run with refusals, up to the world at its end. -/
lemma runRefusing_eq_ends : ∀ (s : Script α) (index : ℕ) (w : World),
    s.runRefusing refuses index w
      = ((s.ends refuses ⟨w, index⟩).1, (s.ends refuses ⟨w, index⟩).2.world)
  | .done _, _, _ => rfl
  | .ask q next, index, w => by
      rw [runRefusing, ends, reply]
      cases refuses index with
      | some reason => exact runRefusing_eq_ends (next (.error reason)) (index + 1) w
      | none => exact runRefusing_eq_ends (next (w.answer q).1) (index + 1) (w.answer q).2

lemma ends_bind (f : α → Script β) : ∀ (s : Script α) (m : RunState),
    (s >>= f).ends refuses m = (f (s.ends refuses m).1).ends refuses (s.ends refuses m).2
  | .done _, _ => rfl
  | .ask _ next, _ => ends_bind f (next _) _

lemma calls_bind (f : α → Script β) : ∀ (s : Script α) (m : RunState),
    (s >>= f).calls refuses m
      = s.calls refuses m ++ (f (s.ends refuses m).1).calls refuses (s.ends refuses m).2
  | .done _, _ => rfl
  | .ask q next, m => by
      rw [calls, ends, List.append_assoc, ← calls_bind f]
      rfl

/-! ## Calls and the world

A call has the number of its request and the world in which it is made.  The laws are about a script
with whatever world it is started on and by induction on the script: a request to start nothing
changes neither the child processes nor how the next of them end (`reply_of_not_start`), and for one
that starts a child process `reply_start` has the two cases. -/

/-- The child processes that have been started, newest first. -/
def startedIn (cs : List Call) : List Child := ((cs.filter Call.started).map Call.child).reverse

/-- How the child processes have ended that have been started, in order. -/
def exitsIn (cs : List Call) : List ExitStatus := cs.filterMap fun c => c.ending.toOption

end

section
variable {refuses : ℕ → Option IoFault} {α : Type}

/-- What comes of the start of a child process: it is refused or cannot be started, and nothing
changes, or it is started. -/
lemma reply_start (program : String) (arguments : List String) (env : Dictionary String)
    (m : RunState) :
    (∃ reason, reply refuses (.start program arguments env) m
        = (.error reason, ⟨m.world, m.index + 1⟩) ∧
      ¬(refuses m.index = none ∧ m.world.CanStart ⟨program, arguments, env⟩)) ∨
    (reply refuses (.start program arguments env) m
        = (.ok (m.world.exit 0), ⟨m.world.launched ⟨program, arguments, env⟩, m.index + 1⟩) ∧
      refuses m.index = none ∧ m.world.CanStart ⟨program, arguments, env⟩) := by
  rw [reply]
  cases refuses m.index with
  | some reason => exact .inl ⟨reason, rfl, by simp⟩
  | none =>
      dsimp only
      rw [World.answer]
      cases hstart : m.world.start ⟨program, arguments, env⟩ with
      | error reason =>
          refine .inl ⟨reason, rfl, fun h => ?_⟩
          have hok := World.start_eq_ok_iff.mpr ⟨h.2, rfl, rfl⟩
          rw [hstart] at hok
          cases hok
      | ok started =>
          obtain ⟨status, w'⟩ := started
          obtain ⟨hcan, rfl, rfl⟩ := World.start_eq_ok_iff.mp hstart
          exact .inr ⟨rfl, rfl, hcan⟩

/-- A request to start nothing is no call, and leaves what there is of child processes. -/
lemma reply_of_not_start (refuses : ℕ → Option IoFault) {q : Request} (h : ¬q.IsStart)
    (m : RunState) :
    call? m q (reply refuses q m).1 = none ∧
      (reply refuses q m).2.world.children = m.world.children ∧
      (reply refuses q m).2.world.exits = m.world.exits := by
  have hcall : ∀ ending, call? m q ending = none := by
    intro ending
    cases q with
    | start => exact absurd trivial h
    | _ => rfl
  refine ⟨hcall _, ?_⟩
  rw [reply]
  cases refuses m.index with
  | some reason => exact ⟨rfl, rfl⟩
  | none =>
      have hchange := m.world.change_answer q
      dsimp only
      generalize (m.world.answer q).2 = w' at hchange ⊢
      cases hchange with
      | files | name | log | display => exact ⟨rfl, rfl⟩
      | start => exact absurd trivial h

lemma finds_reply (q : Request) (m : RunState) :
    (reply refuses q m).2.world.finds = m.world.finds := by
  rw [reply]
  cases refuses m.index with
  | some reason => rfl
  | none => exact (m.world.change_answer q).finds

/-- **The calls of a run are what the world records**: those that have been started. -/
theorem children_ends : ∀ (s : Script α) (m : RunState),
    (s.ends refuses m).2.world.children = startedIn (s.calls refuses m) ++ m.world.children
  | .done _, _ => rfl
  | .ask q next, m => by
      have hreply : (reply refuses q m).2.world.children
          = startedIn (call? m q (reply refuses q m).1).toList ++ m.world.children := by
        by_cases hstart : q.IsStart
        · cases q with
          | start program arguments env =>
              rcases reply_start program arguments env m with ⟨reason, h, -⟩ | ⟨h, -⟩ <;>
                rw [h] <;> rfl
          | _ => exact hstart.elim
        · obtain ⟨hcall, hchildren, -⟩ := reply_of_not_start refuses hstart m
          rw [hcall, hchildren]
          rfl
      rw [ends, calls, children_ends (next _), hreply, ← List.append_assoc, startedIn, startedIn,
        startedIn, List.filter_append, List.map_append, List.reverse_append]

/-- **A call starts a child process** just if it is not refused and the child process can be
started.  Whether it can does not depend on what the run has done before. -/
theorem started_calls : ∀ {s : Script α} {m : RunState}, ∀ call ∈ s.calls refuses m,
    (call.started = true ↔ refuses call.index = none ∧ m.world.CanStart call.child)
  | .done _, _, _, hcall => by cases hcall
  | .ask q next, m, call, hcall => by
      rw [calls, List.mem_append] at hcall
      rcases hcall with hcall | hcall
      · cases q with
        | start program arguments env =>
            obtain rfl : call = _ := by simpa [call?] using hcall
            rcases reply_start program arguments env m with ⟨reason, h, hnot⟩ | ⟨h, hcan⟩
            · rw [h]
              exact iff_of_false Bool.false_ne_true hnot
            · rw [h]
              exact iff_of_true rfl hcan
        | _ => cases hcall
      · rw [started_calls call hcall]
        refine and_congr_right fun _ => ⟨fun h => ⟨h.texts, ?_⟩, fun h => ⟨h.texts, ?_⟩⟩
        · rw [← finds_reply q m]
          exact h.found
        · rw [finds_reply q m]
          exact h.found

/-- **Child processes end as the world has it**, one after another. -/
theorem exit_calls (s : Script α) : ∀ {m : RunState} {k : ℕ} {status : ExitStatus},
    (exitsIn (s.calls refuses m))[k]? = some status → status = m.world.exit k := by
  induction s with
  | done a =>
      intro m k status h
      cases h
  | ask q next ih =>
      intro m k status h
      rw [calls, exitsIn, List.filterMap_append] at h
      by_cases hstart : q.IsStart
      · cases q with
        | start program arguments env =>
            rcases reply_start program arguments env m with ⟨reason, hreply, -⟩ | ⟨hreply, -⟩
            · rw [hreply] at h
              exact ih (.error reason) (m := ⟨m.world, m.index + 1⟩) h
            · rw [hreply] at h
              cases k with
              | zero => exact (Option.some.inj h).symm
              | succ k =>
                  -- The child processes after this one take their statuses from the rest.
                  have hrest : status = (m.world.launched ⟨program, arguments, env⟩).exit k :=
                    ih (.ok (m.world.exit 0)) (m := ⟨_, m.index + 1⟩) h
                  rw [hrest, World.exit, World.exit, World.launched, List.getElem?_tail]
        | _ => exact hstart.elim
      · obtain ⟨hcall, -, hexits⟩ := reply_of_not_start refuses hstart m
        rw [hcall] at h
        rw [ih _ h, World.exit, World.exit, hexits]

end

variable {refuses : ℕ → Option IoFault} {α β : Type}

/-! ## What a run leads to

A command does much before it starts anything.  `Leads` lets the statements about the end of a run
forget about that: the parts before are quiet, and the files are those that the last of them
left. -/

variable {s : Script α} {m m' : RunState}

/-- Where files are only looked at they stay as they are. -/
lemma Asks.sameFiles_ends : ∀ {s : Script α} {m : RunState},
    (s.Asks fun q => q.IsLook ∨ q.IsStart) → m.world.SameFiles (s.ends refuses m).2.world
  | .done _, _, _ => .refl _
  | .ask q next, m, h => by
      obtain ⟨hq, hnext⟩ := asks_ask_iff.mp h
      have hreply : m.world.SameFiles (reply refuses q m).2.world := by
        rw [reply]
        cases refuses m.index with
        | some reason => exact .refl _
        | none => exact m.world.sameFiles_answer hq
      exact hreply.trans (sameFiles_ends (hnext _))

/-- What only looks leaves the files. -/
lemma sameFiles_of_looks {a : α} (hs : s.Asks Request.IsLook)
    (hend : s.ends refuses m = (a, m')) : m.world.SameFiles m'.world := by
  have hsame : m.world.SameFiles (s.ends refuses m).2.world :=
    (hs.mono fun _ => Or.inl).sameFiles_ends
  rwa [hend] at hsame

/-- The files are as they were where anything is called. -/
lemma Asks.sameFiles_calls : ∀ {s : Script α} {m : RunState},
    (s.Asks fun q => q.IsLook ∨ q.IsStart) → ∀ call ∈ s.calls refuses m,
      m.world.SameFiles call.world
  | .done _, _, _, call, hcall => by cases hcall
  | .ask q next, m, h, call, hcall => by
      obtain ⟨hq, hnext⟩ := asks_ask_iff.mp h
      have hreply : m.world.SameFiles (reply refuses q m).2.world :=
        sameFiles_ends (asks_request hq)
      rw [calls, List.mem_append] at hcall
      rcases hcall with hcall | hcall
      · cases q with
        | start program arguments env =>
            obtain rfl : call = _ := by simpa [call?] using hcall
            exact .refl _
        | _ => cases hcall
      · exact hreply.trans (sameFiles_calls (hnext _) call hcall)

lemma Quiet.calls : ∀ {s : Script α} {m : RunState}, s.Quiet → s.calls refuses m = []
  | .done _, _, _ => rfl
  | .ask q next, m, h => by
      obtain ⟨hq, hnext⟩ := asks_ask_iff.mp h
      rw [Script.calls, calls (hnext _), List.append_nil]
      cases q with
      | start => exact absurd trivial hq
      | _ => rfl

/-- Whether the run of a script goes on as that of another from some state, with no calls before. -/
structure Leads (refuses : ℕ → Option IoFault) (s : Script α) (m : RunState) (t : Script α)
    (m' : RunState) : Prop where
  ends : s.ends refuses m = t.ends refuses m'
  calls : s.calls refuses m = t.calls refuses m'

lemma Leads.refl (s : Script α) (m : RunState) : Leads refuses s m s m := ⟨rfl, rfl⟩

lemma Leads.trans {t u : Script α} {m'' : RunState} (h : Leads refuses s m t m')
    (h' : Leads refuses t m' u m'') : Leads refuses s m u m'' :=
  ⟨h.ends.trans h'.ends, h.calls.trans h'.calls⟩

/-- A quiet part leads to what follows it. -/
lemma Quiet.leads {f : α → Script β} {a : α} (hs : s.Quiet)
    (hend : s.ends refuses m = (a, m')) : Leads refuses (s >>= f) m (f a) m' := by
  constructor
  · rw [ends_bind, hend]
  · rw [calls_bind, hend, Quiet.calls hs, List.nil_append]

/-- A step that has succeeded with others after it has succeeded itself, and so have they. -/
lemma exists_of_ends_andThen {ε : Type} {x : ExceptT ε Script α} {f : α → ExceptT ε Script β}
    {b : β} (h : (x >>= f).run.ends refuses m = (.ok b, m')) :
    ∃ a m₁, x.run.ends refuses m = (.ok a, m₁) ∧ (f a).run.ends refuses m₁ = (.ok b, m') := by
  rw [ExceptT.run_bind, ends_bind] at h
  generalize x.run.ends refuses m = first at h ⊢
  obtain ⟨(e | a), m₁⟩ := first
  · cases h
  · exact ⟨a, m₁, rfl, h⟩

/-- A step that does not fail, with others after it that succeed. -/
lemma exists_of_ends_liftThen {ε : Type} {f : α → ExceptT ε Script β} {b : β}
    (h : (ExceptT.lift s >>= f).run.ends refuses m = (.ok b, m')) :
    ∃ a m₁, s.ends refuses m = (a, m₁) ∧ (f a).run.ends refuses m₁ = (.ok b, m') := by
  rw [ExceptT.run_bind_lift, ends_bind] at h
  exact ⟨_, _, rfl, h⟩

end Script

end WorkerGen
