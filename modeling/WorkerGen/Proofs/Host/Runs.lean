import Mathlib
import WorkerGen.Host.Routine
import WorkerGen.Proofs.Host.Changes

/-!
# What a run ensures

A logic for scripts on file trees, in which requests may be refused.  `Script.Ensures` holds of a
script and a tree if a run from there keeps an invariant at every moment and ends with a
postcondition, whatever is refused: any request that may be, up to a budget of refusals.  Of a world
only the tree, the working directory and the names that are hard to guess matter.

It is defined by recursion on the script.  At a request both what is answered and what may be
refused has to be good, and the budget is smaller by one behind a refusal.  Three kinds of question
are asked of one definition in this way.  With no budget it is about runs in which all goes well,
with a budget of one about a single refusal, and with an infinite one about every run.  The
invariant holds between any two requests, so that a run that is interrupted is covered as well.

The rules follow the structure of scripts.  `Ensures.bind` is that for one script after another, and
`Ensures.andThen` that for steps that may fail, where what follows a failure is left out.  Both give
the invariant and the bound of the budget to whoever goes on from there, so that no proof has to
carry them by hand.

What is ensured holds of the runs themselves:

* `Ensures.run` and `Ensures.worlds` — of a run in which nothing is refused, and of every world that
  it goes through.
* `Ensures.runRefusing` — of a run in which as many requests are refused as the budget allows.
  Which requests of a run are refused is given by their numbers, `refused`.

`Returns` is the same for results alone.  What a script returns may not depend on the tree at all,
and then neither an invariant nor a world is needed to say so.
-/

namespace WorkerGen

/-! ## Worlds with a given tree

A script is judged by the tree it is started on.  All that the rest of a world contributes is where
relative paths start and which names are made up, and neither is changed by a request. -/

/-- Whether a world has a given working directory and tree.  The names that are hard to guess are
such that they can be part of the name of an entry. -/
structure World.IsOn (w : World) (base : Location) (r : FileTree) : Prop where
  workDir : w.workDir = base
  files : w.files = r
  names : ∀ name ∈ w.randomNames, '/' ∉ name.toList

namespace World

variable {w w' : World} {base : Location} {r : FileTree}

lemma IsOn.of_files (h : w.IsOn base r) (hdir : w'.workDir = w.workDir)
    (hnames : w'.randomNames = w.randomNames) : w'.IsOn base w'.files :=
  ⟨hdir.trans h.workDir, rfl, hnames ▸ h.names⟩

/-- No request changes the working directory or makes bad names. -/
lemma IsOn.answer (h : w.IsOn base r) (q : Request) :
    (w.answer q).2.IsOn base (w.answer q).2.files := by
  have hchange := w.change_answer q
  generalize (w.answer q).2 = w' at hchange ⊢
  cases hchange with
  | files | log | display | start => exact h.of_files rfl rfl
  | name => exact ⟨h.workDir, rfl, fun name hname => h.names name (List.mem_of_mem_tail hname)⟩

end World

namespace Script

/-! ## Scripts one after another -/

section
variable {α β : Type}

lemma bind_done (s : Script α) : s >>= Script.done = s := by
  induction s with
  | done a => rfl
  | ask q next ih => exact congrArg (Script.ask q) (funext ih)

lemma bind_bind {γ : Type} (s : Script α) (f : α → Script β) (g : β → Script γ) :
    s >>= f >>= g = s >>= fun a => f a >>= g := by
  induction s with
  | done a => rfl
  | ask q next ih => exact congrArg (Script.ask q) (funext ih)

instance : LawfulMonad Script := LawfulMonad.mk' Script bind_done (fun _ _ => rfl) bind_bind

end

/-! ## The logic

Besides the rules for sequence, consequence and conjunction there is one for a single request, which
asks for its effect on any world with the tree, and for the tree itself where it is refused. -/

/-- Whether a script, started on a tree with a budget of refusals, keeps an invariant and ends with
a postcondition. -/
def Ensures (may : Request → Prop) (base : Location) (I : FileTree → Prop) {α : Type} :
    Script α → (budget : ℕ∞) → FileTree → (Q : α → ℕ∞ → FileTree → Prop) → Prop
  | .done a, budget, r, Q => I r ∧ Q a budget r
  | .ask q next, budget, r, Q =>
    I r ∧
      (∀ w : World, w.IsOn base r →
        Ensures may base I (next (w.answer q).1) budget (w.answer q).2.files Q) ∧
      ∀ reason left, budget = left + 1 → may q →
        Ensures may base I (next (.error reason)) left r Q

section
variable {may : Request → Prop} {base : Location} {I J : FileTree → Prop} {α β ε : Type}
  {s : Script α} {n : ℕ∞} {r : FileTree}

lemma ensures_done {a : α} {Q : α → ℕ∞ → FileTree → Prop} (hr : I r) (hpost : Q a n r) :
    Ensures may base I (.done a) n r Q :=
  ⟨hr, hpost⟩

/-- The rule for one request: its answer, or a refusal. -/
lemma ensures_request {q : Request} {Q : Except IoFault q.Answer → ℕ∞ → FileTree → Prop}
    (hr : I r)
    (hanswer : ∀ w : World, w.IsOn base r →
      I (w.answer q).2.files ∧ Q (w.answer q).1 n (w.answer q).2.files)
    (hrefused : ∀ reason m, n = m + 1 → may q → Q (.error reason) m r) :
    Ensures may base I (request q) n r Q :=
  ⟨hr, hanswer, fun reason m hm hq => ⟨hr, hrefused reason m hm hq⟩⟩

namespace Ensures

/-- **Consequence.**  The budget does not grow. -/
theorem mono {Q R : α → ℕ∞ → FileTree → Prop} (h : Ensures may base I s n r Q)
    (hinv : ∀ r, I r → J r)
    (hpost : ∀ a m r', m ≤ n → I r' → Q a m r' → R a m r') :
    Ensures may base J s n r R := by
  induction s generalizing n r with
  | done a => exact ⟨hinv r h.1, hpost a n r le_rfl h.1 h.2⟩
  | ask q next ih =>
      obtain ⟨hr, hanswer, hrefused⟩ := h
      refine ⟨hinv r hr, fun w hw => ih _ (hanswer w hw) hpost, fun reason m hm hq => ?_⟩
      refine ih _ (hrefused reason m hm hq) fun a m' r' hm' => hpost a m' r' (hm'.trans ?_)
      rw [hm]
      exact le_self_add

lemma weaken {Q R : α → ℕ∞ → FileTree → Prop} (h : Ensures may base I s n r Q)
    (hpost : ∀ a m r', m ≤ n → I r' → Q a m r' → R a m r') :
    Ensures may base I s n r R :=
  h.mono (fun _ hr => hr) hpost

/-- Where less is to be kept, what has been kept still holds at the end. -/
lemma widen {Q : α → ℕ∞ → FileTree → Prop} (h : Ensures may base I s n r Q)
    (hinv : ∀ r, I r → J r) :
    Ensures may base J s n r fun a m r' => I r' ∧ Q a m r' :=
  h.mono hinv fun _ _ _ _ hr' hpost => ⟨hr', hpost⟩

/-- Every script ensures what always holds. -/
lemma trivial : ∀ {s : Script α} {n : ℕ∞} {r : FileTree},
    Ensures may base (fun _ => True) s n r fun _ _ _ => True
  | .done _, _, _ => ⟨.intro, .intro⟩
  | .ask _ _, _, _ => ⟨.intro, fun _ _ => trivial, fun _ _ _ _ => trivial⟩

/-- **Sequence.** -/
theorem bind {f : α → Script β} {M : α → ℕ∞ → FileTree → Prop}
    {Q : β → ℕ∞ → FileTree → Prop} (h : Ensures may base I s n r M)
    (hf : ∀ a m r', m ≤ n → I r' → M a m r' → Ensures may base I (f a) m r' Q) :
    Ensures may base I (s >>= f) n r Q := by
  induction s generalizing n r with
  | done a => exact hf a n r le_rfl h.1 h.2
  | ask q next ih =>
      obtain ⟨hr, hanswer, hrefused⟩ := h
      refine ⟨hr, fun w hw => ih _ (hanswer w hw) hf, fun reason m hm hq => ?_⟩
      refine ih _ (hrefused reason m hm hq) fun a m' r' hm' => hf a m' r' (hm'.trans ?_)
      rw [hm]
      exact le_self_add

/-- **Conjunction.** -/
theorem and {Q R : α → ℕ∞ → FileTree → Prop} (h : Ensures may base I s n r Q)
    (h' : Ensures may base J s n r R) :
    Ensures may base (fun r => I r ∧ J r) s n r fun a m r' => Q a m r' ∧ R a m r' := by
  induction s generalizing n r with
  | done a => exact ⟨⟨h.1, h'.1⟩, h.2, h'.2⟩
  | ask q next ih =>
      obtain ⟨hr, hanswer, hrefused⟩ := h
      obtain ⟨hr', hanswer', hrefused'⟩ := h'
      exact ⟨⟨hr, hr'⟩, fun w hw => ih _ (hanswer w hw) (hanswer' w hw),
        fun reason m hm hq => ih _ (hrefused reason m hm hq) (hrefused' reason m hm hq)⟩

/-! ### Steps that may fail

A step that may fail is a script whose result is an error or a value.  The rules are those for
scripts, with the two kinds of results apart. -/

variable {x : ExceptT ε Script α}

/-- What follows a step that has failed is left out. -/
theorem andThen {f : α → ExceptT ε Script β} {M : Except ε α → ℕ∞ → FileTree → Prop}
    {Q : Except ε β → ℕ∞ → FileTree → Prop} (h : Ensures may base I x.run n r M)
    (hok : ∀ a m r', m ≤ n → I r' → M (.ok a) m r' →
      Ensures may base I (f a).run m r' Q)
    (herror : ∀ e m r', m ≤ n → I r' → M (.error e) m r' → Q (.error e) m r') :
    Ensures may base I (x >>= f).run n r Q := by
  refine bind (f := ExceptT.bindCont f) h fun result m r' hm hr' hmid => ?_
  cases result with
  | ok a => exact hok a m r' hm hr' hmid
  | error e => exact ensures_done hr' (herror e m r' hm hr' hmid)

/-- A script that does not fail. -/
lemma lift {Q : Except ε α → ℕ∞ → FileTree → Prop}
    (h : Ensures may base I s n r fun a => Q (.ok a)) :
    Ensures may base I (ExceptT.lift s : ExceptT ε Script α).run n r Q := by
  change Ensures may base I (s >>= fun a => .done (.ok a)) n r Q
  exact bind h fun a m r' _ hr' hpost => ensures_done hr' hpost

/-- A step that does not fail, followed by others. -/
theorem liftThen {f : α → ExceptT ε Script β} {M : α → ℕ∞ → FileTree → Prop}
    {Q : Except ε β → ℕ∞ → FileTree → Prop} (h : Ensures may base I s n r M)
    (hf : ∀ a m r', m ≤ n → I r' → M a m r' → Ensures may base I (f a).run m r' Q) :
    Ensures may base I (ExceptT.lift s >>= f).run n r Q :=
  andThen (M := fun result m r' => ∃ a, result = .ok a ∧ M a m r')
    (lift (h.weaken fun a m r' _ _ hmid => ⟨a, rfl, hmid⟩))
    (by rintro a m r' hm hr' ⟨a', ha, hmid⟩; cases ha; exact hf a m r' hm hr' hmid)
    (by rintro e m r' - - ⟨a, ha, -⟩; cases ha)

end Ensures

lemma ensures_pure {a : α} {Q : Except ε α → ℕ∞ → FileTree → Prop} (hr : I r)
    (hpost : Q (.ok a) n r) :
    Ensures may base I (pure a : ExceptT ε Script α).run n r Q :=
  ensures_done hr hpost

lemma ensures_throw {e : ε} {Q : Except ε α → ℕ∞ → FileTree → Prop} (hr : I r)
    (hpost : Q (.error e) n r) :
    Ensures may base I (throw e : ExceptT ε Script α).run n r Q :=
  ensures_done hr hpost

/-- A step that may find nothing. -/
lemma Ensures.tolerant {step : Attempt Unit} {Q : Except IoFault Unit → ℕ∞ → FileTree → Prop}
    (h : Ensures may base I step.run n r fun result m r' =>
      match result with
      | .error .notFound => Q (.ok ()) m r'
      | result => Q result m r') :
    Ensures may base I (Script.tolerant step).run n r Q := by
  unfold Script.tolerant
  refine Ensures.bind h fun result m r' _ hr' hpost => ?_
  cases result with
  | ok u => exact ensures_done hr' hpost
  | error reason => cases reason <;> exact ensures_done hr' hpost

end

lemma runRefusing_none {α : Type} : ∀ (s : Script α) (index : ℕ) (w : World),
    s.runRefusing (fun _ => none) index w = s.run w
  | .done _, _, _ => rfl
  | .ask q next, index, w => runRefusing_none (next (w.answer q).1) (index + 1) (w.answer q).2

/-! ## Results

A property of results that holds whatever requests are answered needs no tree and no budget. -/

/-- Whether all results of a script are of a kind, whatever its requests are answered. -/
def Returns {α : Type} (P : α → Prop) : Script α → Prop
  | .done a => P a
  | .ask _ next => ∀ answer, Returns P (next answer)

section
variable {α β : Type} {P : α → Prop} {Q : β → Prop}

lemma Returns.bind {f : α → Script β} : ∀ {s : Script α}, s.Returns P →
    (∀ a, P a → (f a).Returns Q) → (s >>= f).Returns Q
  | .done a, h, hf => hf a h
  | .ask _ _, h, hf => fun answer => bind (h answer) hf

lemma returns_trivial : ∀ s : Script α, s.Returns fun _ => True
  | .done _ => trivial
  | .ask _ next => fun answer => returns_trivial (next answer)

/-- The result of a run, whatever is refused. -/
lemma Returns.runRefusing (refuses : ℕ → Option IoFault) : ∀ {s : Script α} (index : ℕ) (w : World),
    s.Returns P → P (s.runRefusing refuses index w).1
  | .done _, _, _, h => h
  | .ask q next, index, w, h => by
      rw [Script.runRefusing]
      cases refuses index with
      | some reason => exact runRefusing refuses (index + 1) w (h _)
      | none => exact runRefusing refuses (index + 1) (w.answer q).2 (h _)

end

/-! ## What is ensured of runs

The definition follows a script, and so does a run.  By induction on the script the two go together
step by step: a request that is refused spends one of the budget, and one that is not is answered by
the world, which is still one with the tree at hand. -/

section
variable {base : Location} {I : FileTree → Prop} {α β : Type} {may : Request → Prop}

/-- The requests that are refused in a run. -/
def refused (refuses : ℕ → Option IoFault) : (index : ℕ) → Script α → World → List Request
  | _, .done _, _ => []
  | index, .ask q next, w =>
    match refuses index with
    | some reason => q :: refused refuses (index + 1) (next (.error reason)) w
    | none => refused refuses (index + 1) (next (w.answer q).1) (w.answer q).2

/-- A run of a script that another follows is a run of the first and then of the other, from some
request on. -/
lemma runRefusing_bind (refuses : ℕ → Option IoFault) : ∀ (s : Script α) (index : ℕ) (w : World),
    ∃ after, ∀ f : α → Script β,
      (s >>= f).runRefusing refuses index w
        = (f (s.runRefusing refuses index w).1).runRefusing refuses after
            (s.runRefusing refuses index w).2 ∧
      refused refuses index (s >>= f) w = refused refuses index s w ++
        refused refuses after (f (s.runRefusing refuses index w).1)
          (s.runRefusing refuses index w).2
  | .done a, index, w => ⟨index, fun _ => ⟨rfl, rfl⟩⟩
  | .ask q next, index, w => by
      cases href : refuses index with
      | some reason =>
          obtain ⟨after, hafter⟩ := runRefusing_bind refuses (next (.error reason)) (index + 1) w
          refine ⟨after, fun f => ?_⟩
          obtain ⟨hrun, hrefused⟩ := hafter f
          change (Script.ask q fun answer => next answer >>= f).runRefusing refuses index w = _ ∧
            refused refuses index (Script.ask q fun answer => next answer >>= f) w = _
          simp only [Script.runRefusing, refused, href]
          exact ⟨hrun, by rw [hrefused, List.cons_append]⟩
      | none =>
          obtain ⟨after, hafter⟩ :=
            runRefusing_bind refuses (next (w.answer q).1) (index + 1) (w.answer q).2
          refine ⟨after, fun f => ?_⟩
          change (Script.ask q fun answer => next answer >>= f).runRefusing refuses index w = _ ∧
            refused refuses index (Script.ask q fun answer => next answer >>= f) w = _
          simp only [Script.runRefusing, refused, href]
          exact hafter f

/-- **A run in which no more is refused than the budget allows.** -/
theorem Ensures.runRefusing {Q : α → ℕ∞ → FileTree → Prop} {refuses : ℕ → Option IoFault} :
    ∀ {s : Script α} {index : ℕ} {n : ℕ∞} {w : World}, Ensures may base I s n w.files Q →
      w.IsOn base w.files → (∀ q ∈ refused refuses index s w, may q) →
      ((refused refuses index s w).length : ℕ∞) ≤ n →
        (s.runRefusing refuses index w).2.IsOn base (s.runRefusing refuses index w).2.files ∧
        I (s.runRefusing refuses index w).2.files ∧ ∃ m,
          Q (s.runRefusing refuses index w).1 m (s.runRefusing refuses index w).2.files
  | .done a, _, n, w, h, hw, _, _ => ⟨hw, h.1, n, h.2⟩
  | .ask q next, index, n, w, h, hw, hmay, hlength => by
      obtain ⟨hr, hanswer, hrefused⟩ := h
      rw [Script.runRefusing]
      rw [refused] at hmay hlength
      cases href : refuses index with
      | none =>
          rw [href] at hmay hlength
          exact runRefusing (hanswer w hw) (hw.answer q) hmay hlength
      | some reason =>
          rw [href] at hmay hlength
          dsimp only at hmay hlength ⊢
          rw [List.length_cons, Nat.cast_add, Nat.cast_one] at hlength
          obtain ⟨m, hm⟩ := exists_add_of_le (le_add_self.trans hlength)
          rw [add_comm] at hm
          refine runRefusing (hrefused reason m hm (hmay q List.mem_cons_self)) hw
            (fun q' hq' => hmay q' (List.mem_cons_of_mem q hq')) ?_
          rw [hm] at hlength
          exact (ENat.add_le_add_iff_right ENat.one_ne_top).mp hlength

/-- A run in which nothing is refused. -/
theorem Ensures.run {Q : α → ℕ∞ → FileTree → Prop} :
    ∀ {s : Script α} {w : World}, Ensures may base I s 0 w.files Q → w.IsOn base w.files →
      (s.run w).2.IsOn base (s.run w).2.files ∧ I (s.run w).2.files ∧
        Q (s.run w).1 0 (s.run w).2.files
  | .done a, w, h, hw => ⟨hw, h⟩
  | .ask q next, w, h, hw => by
      rw [Script.run]
      exact run (h.2.1 w hw) (hw.answer q)

/-- Every world that a run goes through. -/
theorem Ensures.worlds {Q : α → ℕ∞ → FileTree → Prop} {w' : World} :
    ∀ {s : Script α} {w : World}, Ensures may base I s 0 w.files Q → w.IsOn base w.files →
      w' ∈ s.worlds w → w'.IsOn base w'.files ∧ I w'.files
  | .done a, w, h, hw, hmem => by
      rw [Script.worlds, List.mem_singleton] at hmem
      exact hmem ▸ ⟨hw, h.1⟩
  | .ask q next, w, h, hw, hmem => by
      rw [Script.worlds] at hmem
      rcases List.mem_cons.mp hmem with rfl | hmem
      · exact ⟨hw, h.1⟩
      · exact worlds (h.2.1 w hw) (hw.answer q) hmem

end

attribute [irreducible] Ensures

end Script

end WorkerGen
