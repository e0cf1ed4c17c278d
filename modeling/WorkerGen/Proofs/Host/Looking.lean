import Mathlib
import WorkerGen.Host.Routine
import WorkerGen.Host.World

/-!
# Scripts that only look

A script may ask for files and change none.  What it comes to then depends on what it sees, a
`View`: a world, and the requests that are denied there, as they are for want of permission.  Denied
is what is asked for and not when, so that asking twice gives one answer; this is what tells the
statements about loading a project from those about runs in which single requests are refused.

`Script.Finds` says that a script comes to a result, wherever it is started with the log, and that
nothing but the log is different afterwards.  The rules follow the structure of scripts, and those
for requests say what is found in terms of the view: whether there is a file (`View.IsFile`),
whether there is anything (`View.IsThere`), and the text of a file (`View.text`).  A script that
loads something is so treated without its worlds, one question after another.
-/

namespace WorkerGen

/-! ## Views

A run that is denied nothing is a run of the script (`runDenying_none`), so what is found in views
is about ordinary runs too. -/

namespace Script

/-- Runs a script where requests may be denied for what they ask, which then have no effect. -/
def runDenying {α : Type} (denied : Request → Option IoFault) : Script α → World → α × World
  | .done a, w => (a, w)
  | .ask q next, w =>
    match denied q with
    | some reason => runDenying denied (next (.error reason)) w
    | none => runDenying denied (next (w.answer q).1) (w.answer q).2

variable {α β : Type} {denied : Request → Option IoFault}

/-- Where nothing is denied, that is a run of the script. -/
theorem runDenying_none : ∀ (s : Script α) (w : World), s.runDenying (fun _ => none) w = s.run w
  | .done _, _ => rfl
  | .ask _ next, _ => runDenying_none (next _) _

lemma runDenying_bind (f : α → Script β) : ∀ (s : Script α) (w : World),
    (s >>= f).runDenying denied w
      = (f (s.runDenying denied w).1).runDenying denied (s.runDenying denied w).2
  | .done _, _ => rfl
  | .ask q next, w => by
      have ih := fun answer => runDenying_bind f (next answer)
      show ((Script.ask q fun answer => next answer >>= f).runDenying denied w) = _
      rw [runDenying, runDenying]
      cases denied q with
      | some reason => exact ih _ w
      | none => exact ih _ _

end Script

/-- What is seen of a world where some requests are denied. -/
structure View where
  world : World
  denied : Request → Option IoFault

namespace View

/-- The answer to a request. -/
def answer (v : View) (q : Request) : Except IoFault q.Answer :=
  match v.denied q with
  | some reason => .error reason
  | none => (v.world.answer q).1

/-- What stands at a path, links followed. -/
def kind (v : View) (p : Path) : Except IoFault FileKind := v.answer (.kind true p)

/-- Whether there is a file at a path. -/
def IsFile (v : View) (p : Path) : Prop := v.kind p = .ok .file

/-- Whether there is anything at a path. -/
def IsThere (v : View) (p : Path) : Prop := ∃ kind, v.kind p = .ok kind

/-- The text of a file. -/
def text (v : View) (p : Path) : Except IoFault String :=
  match v.answer (.read p) with
  | .error reason => .error reason
  | .ok content =>
    match String.fromUTF8? content with
    | some text => .ok text
    | none => .error .invalidData

end View

/-! ## What scripts find

The log that a script is started with is a variable of the definition.  Scripts one after another
each find what they find alone, since what one of them adds to the log does not matter to the
next. -/

namespace Script

/-- Whether a script comes to a result and changes nothing but the log. -/
def Finds {α : Type} (v : View) (s : Script α) (a : α) : Prop :=
  ∀ log, ∃ log', s.runDenying v.denied { v.world with log := log }
    = (a, { v.world with log := log' })

section

variable {α β ε : Type} {v : View} {s : Script α} {a : α} {b : β}

lemma finds_done (v : View) (a : α) : Finds v (.done a) a := fun log => ⟨log, rfl⟩

lemma Finds.bind {f : α → Script β} (hs : Finds v s a) (hf : Finds v (f a) b) :
    Finds v (s >>= f) b := by
  intro log
  obtain ⟨log', hs⟩ := hs log
  obtain ⟨log'', hf⟩ := hf log'
  exact ⟨log'', by rw [runDenying_bind, hs, hf]⟩

/-! ### Steps that may fail -/

lemma Finds.lift (h : Finds v s a) : Finds v (ExceptT.lift s : ExceptT ε Script α).run (.ok a) :=
  h.bind (finds_done v _)

lemma Finds.failed {x : ExceptT ε Script α} {f : α → ExceptT ε Script β} {e : ε}
    (h : Finds v x.run (.error e)) : Finds v (x >>= f).run (.error e) :=
  Finds.bind h (finds_done v _)

lemma Finds.andThen {x : ExceptT ε Script α} {f : α → ExceptT ε Script β} {r : Except ε β}
    (hx : Finds v x.run (.ok a)) (hf : Finds v (f a).run r) : Finds v (x >>= f).run r :=
  Finds.bind hx hf

end

/-! ### Requests

Each request that only looks finds what the view has to answer it with. -/

variable {v : View}

/-- A request that the log has nothing to do with, and that changes nothing. -/
lemma finds_request {q : Request}
    (h : ∀ log, World.answer { v.world with log := log } q
      = ((v.world.answer q).1, { v.world with log := log })) :
    Finds v (request q) (v.answer q) := by
  refine fun log => ⟨log, ?_⟩
  rw [request, runDenying, View.answer]
  cases v.denied q with
  | some reason => rfl
  | none => rw [h log, runDenying]

lemma finds_kind (v : View) (p : Path) : Finds v (request (.kind true p)) (v.kind p) :=
  finds_request fun _ => rfl

lemma finds_isFile (v : View) (p : Path) : ∃ b, Finds v (isFile p) b ∧ (b = true ↔ v.IsFile p) := by
  have hkind := finds_kind v p
  rw [View.IsFile]
  cases hanswer : v.kind p with
  | error reason =>
      rw [hanswer] at hkind
      exact ⟨false, hkind.bind (finds_done v false), by simp⟩
  | ok found =>
      rw [hanswer] at hkind
      exact ⟨found == .file, hkind.bind (finds_done v _), by simp⟩

lemma finds_isThere (v : View) (p : Path) :
    ∃ b, Finds v (isThere p) b ∧ (b = true ↔ v.IsThere p) := by
  have hkind := finds_kind v p
  rw [View.IsThere]
  cases hanswer : v.kind p with
  | error reason =>
      rw [hanswer] at hkind
      exact ⟨false, hkind.bind (finds_done v false), by simp⟩
  | ok found =>
      rw [hanswer] at hkind
      exact ⟨true, hkind.bind (finds_done v true), by simp⟩

lemma finds_readText (v : View) (p : Path) : Finds v (readText p).run (v.text p) := by
  have hread : Finds v (attempt (.read p)).run (v.answer (.read p)) := finds_request fun _ => rfl
  rw [readText, View.text]
  cases hanswer : v.answer (.read p) with
  | error reason =>
      rw [hanswer] at hread
      exact hread.failed
  | ok content =>
      rw [hanswer] at hread
      refine hread.andThen ?_
      dsimp only
      cases String.fromUTF8? content with
      | none => exact finds_done v _
      | some text => exact finds_done v _

lemma finds_log (v : View) : ∀ events : List LogEvent, Finds v (log events) ()
  | [] => finds_done v ()
  | event :: rest => by
      have hevent : ∃ answer, Finds v (request (.log event)) answer := by
        cases hdenied : v.denied (.log event) with
        | some reason =>
            refine ⟨.error reason, fun log => ⟨log, ?_⟩⟩
            rw [request, runDenying, hdenied]
            rfl
        | none =>
            refine ⟨.ok (), fun log => ⟨event :: log, ?_⟩⟩
            rw [request, runDenying, hdenied]
            rfl
      obtain ⟨answer, hevent⟩ := hevent
      exact hevent.bind (finds_log v rest)

end Script

end WorkerGen
